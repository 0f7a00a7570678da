import Mathlib.Data.List.Lex
import Mathlib.Data.Prod.Lex
import Mathlib.Order.WithBot
import Heniek.EpicSteps

/-!
The order in which the dispatches of an epic run are integrated. The place of a dispatch
is its wave, the rank of its task in the graph with an absent task last, and the listing
of the store. A wave that is dispatched later comes after every dispatch so far, so the
order only grows as long as the graph keeps the places of what has been dispatched. A
revision that takes an interrupted task out of the graph may not.
-/

namespace Heniek.IntegrationOrder
open KeyedTable ScriptText RecoveryPolicy PipelineStore IntegrationStore IntegrationService
  IntegrationSteps TaskGraph GraphRevision WavePlan WaveStore EpicStore WaveScheduler EpicRuntime
  WaveSteps EpicSteps

abbrev Listing := List ℕ ×ₗ List ℕ

abbrev Place := ℕ ×ₗ WithTop ℕ ×ₗ Listing

def listing (dispatch : TaskDispatchRecord) : Listing :=
  toLex (codePoints dispatch.recordedAt, codePoints dispatch.dispatchId)

theorem dispatchBefore_iff {left right : TaskDispatchRecord} :
    dispatchBefore left right = true ↔ listing left < listing right := by
  have same : left.recordedAt = right.recordedAt ↔
      codePoints left.recordedAt = codePoints right.recordedAt :=
    ⟨fun same => by rw [same], codePoints_inj⟩
  simp [dispatchBefore, binaryBefore, listing, Prod.Lex.toLex_lt_toLex, same]

theorem pairwise_dispatchesOf (dispatches : DispatchTable) (runId : String) :
    (dispatchesOf dispatches runId).Pairwise fun left right => listing left < listing right := by
  have distinct : (dispatches.rows.filter fun dispatch => dispatch.runId = runId).Pairwise
      fun left right => left.dispatchId ≠ right.dispatchId :=
    (List.pairwise_map.mp dispatches.distinct).sublist List.filter_sublist
  have le : ∀ left right : TaskDispatchRecord,
      dispatchBefore right left = false ↔ listing left ≤ listing right := by
    intro left right
    rw [← Bool.not_eq_true, dispatchBefore_iff, not_lt]
  have sorted := StableOrder.pairwise_insertionSort
    (r := fun left right : TaskDispatchRecord => dispatchBefore right left = false)
    (fun left right => by rw [le, le]; exact le_total _ _)
    (fun left middle right => by rw [le, le, le]; exact le_trans) distinct
  refine sorted.imp ?_
  rintro left right ⟨first, separated⟩
  refine lt_of_le_of_ne ((le left right).mp first) fun same => ?_
  refine separated ((le right left).mpr same.ge) (codePoints_inj ?_)
  exact congrArg (fun key : Listing => (ofLex key).2) same

section Collated

variable [Collation]

def rankOf (dag : List String) (taskId : String) : WithTop ℕ :=
  match integrationRank dag taskId with
  | some rank => .some rank
  | none => ⊤

def place (dag : List String) (dispatch : TaskDispatchRecord) : Place :=
  toLex (dispatch.waveOrdinal, toLex (rankOf dag dispatch.taskId, listing dispatch))

variable {dag : List String} {runId : String}

theorem rankLe_iff {left right : String} :
    rankLe (integrationRank dag left) (integrationRank dag right) = true ↔
      rankOf dag left ≤ rankOf dag right := by
  unfold rankOf
  cases integrationRank dag left <;> cases integrationRank dag right <;> simp [rankLe]

theorem dispatchLe_iff {left right : TaskDispatchRecord} : dispatchLe dag left right = true ↔
      toLex (left.waveOrdinal, rankOf dag left.taskId) ≤
        toLex (right.waveOrdinal, rankOf dag right.taskId) := by
  simp [dispatchLe, rankLe_iff, Prod.Lex.toLex_le_toLex]

theorem pairwise_integrationOrder (dag : List String) {dispatches : List TaskDispatchRecord}
    (listed : dispatches.Pairwise fun left right => listing left < listing right) :
    (integrationOrder dag dispatches).Pairwise fun left right =>
      place dag left < place dag right := by
  have sorted := StableOrder.pairwise_insertionSort
    (r := fun left right : TaskDispatchRecord => dispatchLe dag left right = true)
    (fun left right => by rw [dispatchLe_iff, dispatchLe_iff]; exact le_total _ _)
    (fun left middle right => by
      rw [dispatchLe_iff, dispatchLe_iff, dispatchLe_iff]; exact le_trans) listed
  refine sorted.imp ?_
  rintro left right ⟨first, separated⟩
  rw [dispatchLe_iff, Prod.Lex.toLex_le_toLex] at first
  simp only [place, Prod.Lex.toLex_lt_toLex]
  rcases first with wave | ⟨wave, rank⟩
  · exact Or.inl wave
  · refine Or.inr ⟨wave, ?_⟩
    rcases lt_or_eq_of_le rank with before | same
    · exact Or.inl before
    · refine Or.inr ⟨same, separated (dispatchLe_iff.mpr ?_)⟩
      exact le_of_eq (congrArg toLex (Prod.ext wave.symm same.symm))

theorem mem_integrationOrder {dispatches : DispatchTable} {dispatch : TaskDispatchRecord} :
    dispatch ∈ integrationOrder dag (dispatchesOf dispatches runId) ↔
      dispatch ∈ dispatches.rows ∧ dispatch.runId = runId := by
  simp [integrationOrder, dispatchesOf]

theorem nodup_integrationOrder {dispatches : DispatchTable} :
    (integrationOrder dag (dispatchesOf dispatches runId)).Nodup := by
  refine (pairwise_integrationOrder dag (pairwise_dispatchesOf dispatches runId)).imp ?_
  rintro left _ before rfl
  exact lt_irrefl _ before

theorem order_grows {dag' : List String} {first last : DispatchTable}
    (kept : ∀ dispatch ∈ first.rows, dispatch ∈ last.rows)
    (places : ∀ left ∈ first.rows, ∀ right ∈ first.rows, left.runId = runId →
      right.runId = runId → place dag left < place dag right →
        place dag' left < place dag' right)
    (later : ∀ left ∈ first.rows, ∀ right ∈ last.rows, left.runId = runId → right.runId = runId →
      right ∉ first.rows → place dag' left < place dag' right) :
    integrationOrder dag (dispatchesOf first runId) <+:
      integrationOrder dag' (dispatchesOf last runId) := by
  refine StableOrder.prefix_of_pairwise
    (r := fun left right => place dag' left < place dag' right)
    (fun _ _ before => not_lt_of_gt before) ?_
    (pairwise_integrationOrder dag' (pairwise_dispatchesOf last runId)) ?_ ?_
  · refine (pairwise_integrationOrder dag (pairwise_dispatchesOf first runId)).imp_of_mem ?_
    intro left right inLeft inRight before
    rw [mem_integrationOrder] at inLeft inRight
    exact places left inLeft.1 right inRight.1 inLeft.2 inRight.2 before
  · intro dispatch member
    rw [mem_integrationOrder] at member ⊢
    exact ⟨kept dispatch member.1, member.2⟩
  · intro left inLeft right inRight outside
    rw [mem_integrationOrder] at inLeft inRight outside
    refine later left inLeft.1 right inRight.1 inLeft.2 inRight.2 fun inFirst => ?_
    exact outside ⟨inFirst, inRight.2⟩

end Collated

section Waves

structure WavesOrdered (w : EpicWorld) : Prop where
  named : ∀ dispatch ∈ w.dispatches.rows, dispatch.dispatchId =
    "task-dispatch:" ++ dispatchSuffix dispatch.runId dispatch.graphRevision dispatch.taskId
  planned : ∀ dispatch ∈ w.dispatches.rows, ∃ row ∈ w.plans.rows,
    row.runId = dispatch.runId ∧ row.plan.waveOrdinal = dispatch.waveOrdinal
  increasing : ∀ left ∈ w.plans.rows, ∀ right ∈ w.plans.rows, left.runId = right.runId →
    left.plan.graphRevision < right.plan.graphRevision →
    left.plan.waveOrdinal < right.plan.waveOrdinal
  current : ∀ row ∈ w.plans.rows, ∃ graph, activeGraph w.graphs row.runId = some graph ∧
    row.plan.graphRevision ≤ graph.graphRevision
  numbered : ∀ runId graph, activeGraph w.graphs runId = some graph →
    graph.dag.graphRevision = graph.graphRevision

variable {w : EpicWorld}

theorem WavesOrdered.next (ordered : WavesOrdered w) {row : PlanRow} (member : row ∈ w.plans.rows) :
    row.plan.waveOrdinal < nextOrdinal w row.runId := by
  have listed : row ∈ orderBy planBefore
      (w.plans.rows.filter fun other => other.runId = row.runId) := by
    simp [member]
  have le : ∀ left right : PlanRow, planBefore right left = false ↔
      toLex (left.plan.graphRevision, left.plan.waveOrdinal) ≤
        toLex (right.plan.graphRevision, right.plan.waveOrdinal) := by
    intro left right
    rw [← not_lt, Prod.Lex.toLex_lt_toLex]
    simp [planBefore]
  have sorted := StableOrder.pairwise_insertionSort
    (r := fun left right : PlanRow => planBefore right left = false) (s := fun _ _ => True)
    (fun left right => by rw [le, le]; exact le_total _ _)
    (fun left middle right => by rw [le, le, le]; exact le_trans)
    (List.pairwise_of_forall (l := w.plans.rows.filter fun other => other.runId = row.runId)
      fun _ _ => trivial)
  obtain ⟨rest, last, split⟩ := List.eq_nil_or_concat _ |>.resolve_left (List.ne_nil_of_mem listed)
  have top : row.plan.waveOrdinal ≤ last.plan.waveOrdinal := by
    change List.Pairwise _ (orderBy planBefore _) at sorted
    rw [split, List.concat_eq_append, List.pairwise_append] at sorted
    rw [split, List.concat_eq_append, List.mem_append, List.mem_singleton] at listed
    rcases listed with inRest | rfl
    · have before := (le row last).mp (sorted.2.2 row inRest last List.mem_cons_self).1
      rw [Prod.Lex.toLex_le_toLex] at before
      rcases before with earlier | ⟨_, ordinal⟩
      · have inRows : last ∈ w.plans.rows ∧ last.runId = row.runId := by
          have inList : last ∈ orderBy planBefore
              (w.plans.rows.filter fun other => other.runId = row.runId) := by
            rw [split]; simp
          simpa using inList
        exact (ordered.increasing row member last inRows.1 inRows.2.symm earlier).le
      · exact ordinal
    · exact le_rfl
  have ordinal : nextOrdinal w row.runId = last.plan.waveOrdinal + 1 := by
    simp [nextOrdinal, plansOf, split]
  omega

theorem WavesOrdered.later (ordered : WavesOrdered w) {dispatch : TaskDispatchRecord}
    (member : dispatch ∈ w.dispatches.rows) :
    dispatch.waveOrdinal < nextOrdinal w dispatch.runId := by
  obtain ⟨row, inRows, sameRun, sameWave⟩ := ordered.planned dispatch member
  rw [← sameRun, ← sameWave]
  exact ordered.next inRows

theorem WavesOrdered.transport {w' : EpicWorld} (ordered : WavesOrdered w)
    (plans : w'.plans = w.plans) (dispatches : w'.dispatches = w.dispatches)
    (graphs : w'.graphs = w.graphs) : WavesOrdered w' where
  named := by rw [dispatches]; exact ordered.named
  planned := by rw [dispatches, plans]; exact ordered.planned
  increasing := by rw [plans]; exact ordered.increasing
  current := by rw [plans, graphs]; exact ordered.current
  numbered := by rw [graphs]; exact ordered.numbered

end Waves

section Order

variable [Collation]

def orderOf (w : EpicWorld) (runId : String) (graph : TaskGraphRevisionRecord) :
    List TaskDispatchRecord :=
  integrationOrder graph.dag.taskIds (dispatchesOf w.dispatches runId)

/-- Whatever order a run has, it goes on from it. -/
def Extends (w w' : EpicWorld) : Prop :=
  ∀ runId graph, activeGraph w.graphs runId = some graph →
    ∃ graph', activeGraph w'.graphs runId = some graph' ∧
      orderOf w runId graph <+: orderOf w' runId graph'

variable {w w' : EpicWorld} {dispatch : TaskDispatchRecord} {graph : TaskGraphRevisionRecord}
  {runId : String}

theorem extends_same (dispatches : w'.dispatches = w.dispatches) (graphs : w'.graphs = w.graphs) :
    Extends w w' := by
  intro runId graph active
  refine ⟨graph, by rw [graphs]; exact active, ?_⟩
  unfold orderOf
  rw [dispatches]

theorem place_of_wave {dag dag' : List String} {left right : TaskDispatchRecord}
    (before : left.waveOrdinal < right.waveOrdinal) : place dag left < place dag' right :=
  Prod.Lex.toLex_lt_toLex.mpr (Or.inl before)

/-- What the step of a wave knows of its dispatches. -/
structure Made (w : EpicWorld) (runId : String) (dispatch : TaskDispatchRecord) : Prop where
  named : dispatch.dispatchId =
    "task-dispatch:" ++ dispatchSuffix dispatch.runId dispatch.graphRevision dispatch.taskId
  sameRun : dispatch.runId = runId
  wave : dispatch.waveOrdinal = nextOrdinal w runId

theorem made_dispatchRecord {input : TaskWaveSchedulerTickInput} {node : TaskDagNode}
    {recordedAt : String}
    (made :
      dispatch = dispatchRecord input node dispatch.taskId (nextOrdinal w input.runId) recordedAt) :
    Made w input.runId dispatch := by
  rw [made]
  exact ⟨rfl, rfl, rfl⟩

theorem wavesOrdered_dispatched {input : TaskWaveSchedulerTickInput} {now : String}
    {dispatches accepted : List TaskDispatchRecord} {ids : Nat → String}
    {limits : TaskCapacityLimits} {db : WaveDatabase} (ordered : WavesOrdered w)
    (active : activeGraph w.graphs input.runId = some graph) (sameDag : input.dag = graph.dag)
    (made : ∀ dispatch ∈ dispatches, Made w input.runId dispatch)
    (ok : dispatchWave ids w.waves (planTaskWave (planningSnapshot w input now)) dispatches limits =
      .ok (accepted, db)) :
    WavesOrdered (w.setWaves db) ∧ Extends w (w.setWaves db) := by
  rcases dispatchWave_ok ok with rfl | ⟨first, inDispatches, dispatched, plans⟩
  · exact ⟨ordered.transport rfl rfl rfl, extends_same rfl rfl⟩
  · rw [(made first inDispatches).sameRun] at plans
    have revision : (planTaskWave (planningSnapshot w input now)).graphRevision =
        graph.graphRevision := by
      rw [← ordered.numbered input.runId graph active, ← sameDag]
      rfl
    have below : ∀ row ∈ w.plans.rows, row.runId = input.runId →
        row.plan.graphRevision ≤ graph.graphRevision ∧
          row.plan.waveOrdinal < nextOrdinal w input.runId := by
      intro row member sameRun
      obtain ⟨other, isActive, bounded⟩ := ordered.current row member
      rw [sameRun, active] at isActive
      cases isActive
      exact ⟨bounded, sameRun ▸ ordered.next member⟩
    refine ⟨⟨?_, ?_, ?_, ?_, ordered.numbered⟩, ?_⟩
    · intro dispatch member
      rcases dispatched.added dispatch member with old | new
      · exact ordered.named dispatch old
      · exact (made dispatch new).named
    · intro dispatch member
      rcases dispatched.added dispatch member with old | new
      · obtain ⟨row, inRows, same⟩ := ordered.planned dispatch old
        exact ⟨row, (plans row).mpr (Or.inr inRows), same⟩
      · refine ⟨_, (plans _).mpr (Or.inl rfl), ?_, ?_⟩
        · exact (made dispatch new).sameRun.symm
        · exact (made dispatch new).wave.symm
    · intro left inLeft right inRight sameRun revisions
      rcases (plans left).mp inLeft with rfl | oldLeft
      · rcases (plans right).mp inRight with rfl | oldRight
        · exact absurd revisions (lt_irrefl _)
        · have bounded := (below right oldRight sameRun.symm).1
          change (planTaskWave (planningSnapshot w input now)).graphRevision < _ at revisions
          omega
      · rcases (plans right).mp inRight with rfl | oldRight
        · exact (below left oldLeft sameRun).2
        · exact ordered.increasing left oldLeft right oldRight sameRun revisions
    · intro row member
      rcases (plans row).mp member with rfl | old
      · exact ⟨graph, active, revision.le⟩
      · exact ordered.current row old
    · intro runId other isActive
      refine ⟨other, isActive, order_grows dispatched.kept (fun _ _ _ _ _ _ before => before) ?_⟩
      intro left inLeft right inRight leftRun rightRun outside
      have new := made right ((dispatched.added right inRight).resolve_left outside)
      refine place_of_wave ?_
      rw [new.wave, ← new.sameRun, rightRun, ← leftRun]
      exact ordered.later inLeft

theorem wavesOrdered_initialized [Sha256] {input : InitialTaskGraph}
    {record result : TaskGraphRevisionRecord} {graphs : GraphDatabase} (ordered : WavesOrdered w)
    (created : createInitialTaskGraphRevision input = .ok record)
    (ok : initializeGraph w.graphs record = .ok (result, graphs)) :
    WavesOrdered { w with graphs := graphs } ∧ Extends w { w with graphs := graphs } := by
  obtain ⟨_, absent, after⟩ := initializeGraph_ok ok
  have kept : ∀ runId graph, activeGraph w.graphs runId = some graph →
      activeGraph graphs runId = some graph := by
    intro runId graph active
    rw [after, if_neg, active]
    rintro rfl
    rw [absent] at active
    cases active
  refine ⟨⟨ordered.named, ordered.planned, ordered.increasing, ?_, ?_⟩, ?_⟩
  · intro row member
    obtain ⟨graph, active, bounded⟩ := ordered.current row member
    exact ⟨graph, kept _ _ active, bounded⟩
  · intro runId graph active
    change activeGraph graphs runId = some graph at active
    rw [after] at active
    split_ifs at active
    · cases active
      exact createInitialTaskGraphRevision_ok created
    · exact ordered.numbered runId graph active
  · intro runId graph active
    exact ⟨graph, kept runId graph active, List.prefix_rfl⟩

def SameOrder (dag dag' : List String) (left right : TaskDispatchRecord) : Prop :=
  left.waveOrdinal = right.waveOrdinal → place dag left < place dag right →
    place dag' left < place dag' right

instance (dag dag' : List String) (left right : TaskDispatchRecord) :
    Decidable (SameOrder dag dag' left right) :=
  inferInstanceAs (Decidable (_ → _ → _))

/-- An accepted revision leaves the dispatches of each wave in their order. -/
def KeepsPlaces : EpicEvent → Prop
  | .revised previous record _ dispatches _ =>
    ∀ left ∈ dispatches, ∀ right ∈ dispatches,
      SameOrder previous.dag.taskIds record.dag.taskIds left right
  | _ => True

instance : DecidablePred KeepsPlaces
  | .revised previous record _ dispatches _ =>
    inferInstanceAs (Decidable (∀ left ∈ dispatches, ∀ right ∈ dispatches,
      SameOrder previous.dag.taskIds record.dag.taskIds left right))
  | .blocked .. => isTrue trivial
  | .recorded .. => isTrue trivial
  | .submitted .. => isTrue trivial

theorem wavesOrdered_proposed [Sha256] {input : ProposeTaskGraphRevisionInput}
    {outcome : RevisionOutcome} {graphs : GraphDatabase} (ordered : WavesOrdered w)
    (ok : propose w.graphs input = .ok (outcome, graphs))
    (keeps : ∀ event ∈ revisedEvent w input.proposal.runId outcome.2, KeepsPlaces event) :
    WavesOrdered { w with graphs := graphs } ∧ Extends w { w with graphs := graphs } := by
  obtain ⟨current, active, ⟨_, same⟩ | ⟨record, accepted, follows, after⟩⟩ := propose_ok ok
  · refine ⟨⟨ordered.named, ordered.planned, ordered.increasing, ?_, ?_⟩, ?_⟩
    · intro row member
      obtain ⟨graph, isActive, bounded⟩ := ordered.current row member
      exact ⟨graph, (same _).trans isActive, bounded⟩
    · intro runId graph isActive
      exact ordered.numbered runId graph ((same runId).symm.trans isActive)
    · intro runId graph isActive
      exact ⟨graph, (same runId).trans isActive, List.prefix_rfl⟩
  · have run : record.runId = input.proposal.runId :=
      follows.sameRun.trans (runId_of_activeGraph active)
    have here : ∀ runId graph, activeGraph w.graphs runId = some graph → runId = record.runId →
        graph = current := by
      rintro runId graph isActive rfl
      rw [run, active] at isActive
      exact (Option.some.inj isActive).symm
    refine ⟨⟨ordered.named, ordered.planned, ordered.increasing, ?_, ?_⟩, ?_⟩
    · intro row member
      obtain ⟨graph, isActive, bounded⟩ := ordered.current row member
      change ∃ graph, activeGraph graphs row.runId = some graph ∧ _
      rw [after]
      by_cases same : row.runId = record.runId
      · refine ⟨record, if_pos same, ?_⟩
        rw [here _ _ isActive same] at bounded
        rw [follows.revision]
        omega
      · exact ⟨graph, by rw [if_neg same, isActive], bounded⟩
    · intro runId graph isActive
      change activeGraph graphs runId = some graph at isActive
      rw [after] at isActive
      split_ifs at isActive
      · cases isActive
        exact follows.numbered
      · exact ordered.numbered runId graph isActive
    · intro runId graph isActive
      change ∃ graph', activeGraph graphs runId = some graph' ∧ _
      rw [after]
      by_cases same : runId = record.runId
      · refine ⟨record, if_pos same, ?_⟩
        cases here runId graph isActive same
        have event : EpicEvent.revised current record (projectionsOf w runId)
            (dispatchesOf w.dispatches runId) (activeReplan w.replanning runId) ∈
              revisedEvent w input.proposal.runId outcome.2 := by
          rw [← run, ← same, accepted]
          simp only [revisedEvent, isActive, List.mem_singleton]
        refine order_grows (fun _ member => member) ?_ fun _ _ _ inRows _ _ outside =>
          absurd inRows outside
        intro left inLeft right inRight leftRun rightRun before
        by_cases wave : left.waveOrdinal = right.waveOrdinal
        · refine keeps _ event left ?_ right ?_ wave before
          · simp [dispatchesOf, inLeft, leftRun]
          · simp [dispatchesOf, inRight, rightRun]
        · refine place_of_wave ?_
          rcases Prod.Lex.toLex_lt_toLex.mp before with earlier | ⟨sameWave, _⟩
          · exact earlier
          · exact absurd sameWave wave
      · exact ⟨graph, by rw [if_neg same, isActive], List.prefix_rfl⟩

structure Enqueued (entry : TaskIntegrationLedgerEntry) (dispatch : TaskDispatchRecord)
    (index : Nat) : Prop where
  integrationId : entry.integrationId = (queueInput dispatch (index + 1)).integrationId
  identity : sameIdentity entry (queueInput dispatch (index + 1)) = true

structure Queued (w : EpicWorld) : Prop where
  ordered : ∀ order, .ordered order ∈ w.integration.log → ∃ runId graph,
    activeGraph w.graphs runId = some graph ∧ order <+: orderOf w runId graph
  entries : ∀ entry ∈ w.integration.db.ledger.rows, ∃ runId graph index dispatch,
    activeGraph w.graphs runId = some graph ∧ (orderOf w runId graph)[index]? = some dispatch ∧
      Enqueued entry dispatch index

def InTurn : Event → Prop
  | .refused _ (.identityConflict _) => False
  | .published integrationId _ ledger => ∃ entry ∈ ledger, entry.integrationId = integrationId ∧
      ∀ other ∈ ledger, other.runId = entry.runId →
        other.integrationOrdinal < entry.integrationOrdinal → Settled other
  | _ => True

theorem Queued.extend (queued : Queued w) (grown : Extends w w')
    (ledger : w'.integration.db.ledger = w.integration.db.ledger)
    (log : w'.integration.log = w.integration.log) : Queued w' where
  ordered := by
    rw [log]
    intro order logged
    obtain ⟨runId, graph, active, part⟩ := queued.ordered order logged
    obtain ⟨graph', active', whole⟩ := grown runId graph active
    exact ⟨runId, graph', active', part.trans whole⟩
  entries := by
    rw [ledger]
    intro entry member
    obtain ⟨runId, graph, index, dispatch, active, listed, enqueued⟩ := queued.entries entry member
    obtain ⟨graph', active', ⟨rest, whole⟩⟩ := grown runId graph active
    refine ⟨runId, graph', index, dispatch, active', ?_, enqueued⟩
    rw [← whole, List.getElem?_append_left (List.getElem?_eq_some_iff.mp listed).1]
    exact listed

theorem orderOf_index {runId' : String} {graph' : TaskGraphRevisionRecord} {index index' : Nat}
    (active : activeGraph w.graphs runId = some graph)
    (active' : activeGraph w.graphs runId' = some graph')
    (listed : (orderOf w runId graph)[index]? = some dispatch)
    (listed' : (orderOf w runId' graph')[index']? = some dispatch) : index = index' := by
  have here := (mem_integrationOrder.mp (List.mem_of_getElem? listed)).2
  have there := (mem_integrationOrder.mp (List.mem_of_getElem? listed')).2
  have sameRun : runId = runId' := here.symm.trans there
  subst sameRun
  have sameGraph : graph = graph' := Option.some.inj (active.symm.trans active')
  subst sameGraph
  have bound := (List.getElem?_eq_some_iff.mp listed).1
  exact (List.getElem?_inj bound nodup_integrationOrder).mp (listed.trans listed'.symm)

omit [Collation] in
theorem queueInput_integrationId {ordinal : Nat} :
    (queueInput dispatch ordinal).integrationId = "task-integration:" ++
      dispatchSuffix dispatch.runId dispatch.graphRevision dispatch.taskId := by
  unfold queueInput dispatchSuffix
  simp only [String.append_assoc]

theorem enqueued_again {index : Nat} {entry : TaskIntegrationLedgerEntry} (waves : WavesOrdered w)
    (queued : Queued w) (active : activeGraph w.graphs runId = some graph)
    (listed : (orderOf w runId graph)[index]? = some dispatch)
    (member : entry ∈ w.integration.db.ledger.rows)
    (sameId : entry.integrationId = (queueInput dispatch (index + 1)).integrationId) :
    sameIdentity entry (queueInput dispatch (index + 1)) = true := by
  obtain ⟨runId', graph', index', dispatch', active', listed', enqueued⟩ :=
    queued.entries entry member
  have inRows := (mem_integrationOrder.mp (List.mem_of_getElem? listed)).1
  have inRows' := (mem_integrationOrder.mp (List.mem_of_getElem? listed')).1
  have suffix : dispatchSuffix dispatch'.runId dispatch'.graphRevision dispatch'.taskId =
      dispatchSuffix dispatch.runId dispatch.graphRevision dispatch.taskId := by
    have ids := enqueued.integrationId.symm.trans sameId
    rw [queueInput_integrationId, queueInput_integrationId] at ids
    exact String.append_right_inj _ |>.mp ids
  have same : dispatch' = dispatch := by
    refine Table.eq_of_key_eq inRows' inRows ?_
    rw [waves.named dispatch' inRows', waves.named dispatch inRows, suffix]
  subst same
  cases orderOf_index active active' listed listed'
  exact enqueued.identity

/-- The state in which a step of the integration service is taken. -/
structure Integrating (w : EpicWorld) (runId : String)
    (graph : TaskGraphRevisionRecord) : Prop where
  waves : WavesOrdered w
  queued : Queued w
  active : activeGraph w.graphs runId = some graph

section Integration

variable {w : EpicWorld} {runId : String} {graph : TaskGraphRevisionRecord}
variable {driver : TaskIntegrationDriver} {integration : World}

theorem Integrating.logged (here : Integrating w runId graph)
    (ledger : integration.db.ledger = w.integration.db.ledger)
    (log : ∀ order, .ordered order ∈ integration.log → .ordered order ∈ w.integration.log) :
    Queued { w with integration := integration } where
  ordered := fun order logged => here.queued.ordered order (log order logged)
  entries := by
    intro entry member
    refine here.queued.entries entry ?_
    rw [← ledger]
    exact member

theorem Integrating.replaced (here : Integrating w runId graph)
    {entry next : TaskIntegrationLedgerEntry} (member : entry ∈ w.integration.db.ledger.rows)
    (ledger : integration.db.ledger = w.integration.db.ledger.upsert next)
    (sameId : next.integrationId = entry.integrationId)
    (identity : ∀ input, sameIdentity next input = sameIdentity entry input)
    (log : ∀ order, .ordered order ∈ integration.log → .ordered order ∈ w.integration.log) :
    Queued { w with integration := integration } where
  ordered := fun order logged => here.queued.ordered order (log order logged)
  entries := by
    intro other stored
    change other ∈ integration.db.ledger.rows at stored
    rw [ledger, Table.mem_upsert] at stored
    rcases stored with rfl | ⟨old, _⟩
    · obtain ⟨runId', graph', index, dispatch, active, listed, enqueued⟩ :=
        here.queued.entries entry member
      refine ⟨runId', graph', index, dispatch, active, listed, ?_, ?_⟩
      · rw [sameId]
        exact enqueued.integrationId
      · rw [identity]
        exact enqueued.identity
    · exact here.queued.entries other old

omit [Collation] in
theorem mem_append_other {log : List Event} {event : Event} {order : List TaskDispatchRecord}
    (logged : .ordered order ∈ log ++ [event]) (other : event ≠ .ordered order) :
    .ordered order ∈ log := by
  rcases List.mem_append.mp logged with old | new
  · exact old
  · exact absurd (List.mem_singleton.mp new).symm other

theorem Integrating.step (here : Integrating w runId graph)
    (step : Step driver (orderOf w runId graph) w.integration integration) :
    Queued { w with integration := integration } := by
  cases step with
  | called => exact here.logged rfl fun _ logged => logged
  | initialized => exact here.logged rfl fun _ logged => mem_append_other logged nofun
  | drifted => exact here.logged rfl fun _ logged => logged
  | ordered =>
    refine ⟨?_, here.queued.entries⟩
    intro order logged
    rcases List.mem_append.mp logged with old | new
    · exact here.queued.ordered order old
    · cases List.mem_singleton.mp new
      exact ⟨runId, graph, here.active, List.prefix_rfl⟩
  | enqueued item entry db listed accepted =>
    rcases enqueue_ok accepted with ⟨_, rfl⟩ | ⟨absent, _, rfl⟩
    · exact here.logged rfl fun _ logged => logged
    · refine ⟨here.queued.ordered, ?_⟩
      intro other stored
      change other ∈ (w.integration.db.ledger.upsert _).rows at stored
      rw [Table.mem_upsert] at stored
      rcases stored with rfl | ⟨old, _⟩
      · refine ⟨runId, graph, item.2, item.1, here.active, ?_, rfl, ?_⟩
        · exact List.mem_zipIdx_iff_getElem?.mp listed
        · simp [sameIdentity, queuedEntry]
      · exact here.queued.entries other old
  | refused => exact here.logged rfl fun _ logged => mem_append_other logged nofun
  | noted db tasks branches ledger => exact here.logged ledger fun _ logged => logged
  | published => exact here.logged rfl fun _ logged => mem_append_other logged nofun
  | transitioned entry input commit db member cause written =>
    exact here.replaced member (writeTransition_ok written).ledger rfl (fun _ => rfl)
      fun _ logged => mem_append_other logged nofun
  | resolved entry moves db member waiting complete ledger branches tasks =>
    exact here.replaced member ledger rfl (fun _ => rfl)
      fun _ logged => mem_append_other logged nofun

theorem Integrating.admitted (here : Integrating w runId graph)
    {item : TaskDispatchRecord × Nat} {integrationId : String}
    (listed : item ∈ (orderOf w runId graph).zipIdx) :
    enqueue w.integration.db (queueInput item.1 (item.2 + 1)) ≠
      .error (.identityConflict integrationId) := by
  intro failed
  unfold enqueue at failed
  split at failed
  · rename_i existing found
    have same := enqueued_again here.waves here.queued here.active
      (List.mem_zipIdx_iff_getElem?.mp listed) (Table.mem_of_find? found)
      (Table.key_of_find? found)
    rw [if_pos same] at failed
    cases failed
  · split_ifs at failed
    cases failed

theorem Integrating.inTurn (here : Integrating w runId graph)
    (step : Step driver (orderOf w runId graph) w.integration integration)
    (turns : ∀ event ∈ w.integration.log, InTurn event) :
    ∀ event ∈ integration.log, InTurn event := by
  have appended : ∀ new : Event, InTurn new →
      ∀ event ∈ w.integration.log ++ [new], InTurn event := by
    intro new holds event logged
    rcases List.mem_append.mp logged with old | here
    · exact turns event old
    · rw [List.mem_singleton.mp here]
      exact holds
  cases step with
  | called => exact turns
  | initialized => exact appended _ trivial
  | drifted => exact turns
  | ordered => exact appended _ trivial
  | enqueued => exact turns
  | refused item error listed failed =>
    refine appended _ ?_
    cases error with
    | identityConflict integrationId => exact here.admitted listed failed
    | _ => trivial
  | noted => exact turns
  | published entry repositories member ready earlier =>
    exact appended _ ⟨entry, member, rfl, earlier⟩
  | transitioned => exact appended _ trivial
  | resolved => exact appended _ trivial

end Integration

structure OrderKept (w : EpicWorld) : Prop where
  waves : WavesOrdered w
  queued : Queued w
  turns : ∀ event ∈ w.integration.log, InTurn event

theorem OrderKept.frame (kept : OrderKept w) (frame : TaskFrame w w') : OrderKept w' where
  waves := kept.waves.transport frame.plans frame.dispatches frame.graphs
  queued := kept.queued.extend (extends_same frame.dispatches frame.graphs) frame.ledger
    frame.integrationLog
  turns := by rw [frame.integrationLog]; exact kept.turns

theorem OrderKept.grown (kept : OrderKept w) (grown : WavesOrdered w' ∧ Extends w w')
    (integration : w'.integration.db.ledger = w.integration.db.ledger)
    (log : w'.integration.log = w.integration.log) : OrderKept w' where
  waves := grown.1
  queued := kept.queued.extend grown.2 integration log
  turns := by rw [log]; exact kept.turns

theorem waveStep_orderKept {env : Environment} {suspended : Bool}
    (active : activeGraph w.graphs runId = some graph)
    (step : WaveStep env suspended runId graph.dag w w') (kept : OrderKept w) : OrderKept w' := by
  cases step with
  | asked => exact kept.frame ⟨rfl, rfl, rfl, rfl, rfl, rfl, fun _ logged => logged⟩
  | timed => exact kept.frame ⟨rfl, rfl, rfl, rfl, rfl, rfl, fun _ logged => logged⟩
  | initialized db ok =>
    obtain ⟨tasks, _, rfl⟩ := initializeTasks_ok ok
    exact kept.frame (@setWaves_frame w _ tasks w.leases rfl)
  | changed phase observation taskId change row db cause ok =>
    obtain ⟨tasks, leases, _, rfl⟩ := changePhase_ok ok
    exact kept.frame (setWaves_frame rfl)
  | propagated => exact kept.frame blockAll_frame
  | dispatched input now dispatches accepted db sameRun sameDag unresolved made selected ok =>
    subst sameRun
    refine kept.grown (wavesOrdered_dispatched kept.waves active sameDag ?_ ok) rfl rfl
    intro dispatch member
    obtain ⟨node, recordedAt, same⟩ := made dispatch member
    exact made_dispatchRecord same
  | integrated driver integration configured stepped =>
    have here : Integrating w runId graph := ⟨kept.waves, kept.queued, active⟩
    exact ⟨kept.waves.transport rfl rfl rfl, here.step stepped, here.inTurn stepped kept.turns⟩

theorem epicStep_orderKept [Sha256] {env : Environment} (step : EpicStep env w w')
    (keeps : ∀ event ∈ w'.log, KeepsPlaces event) (kept : OrderKept w) : OrderKept w' := by
  cases step with
  | waved _ suspended runId graph active stepped => exact waveStep_orderKept active stepped kept
  | asked => exact kept.frame ⟨rfl, rfl, rfl, rfl, rfl, rfl, fun _ logged => logged⟩
  | timed => exact kept.frame ⟨rfl, rfl, rfl, rfl, rfl, rfl, fun _ logged => logged⟩
  | drawn => exact kept.frame ⟨rfl, rfl, rfl, rfl, rfl, rfl, fun _ logged => logged⟩
  | changed runId taskId change row db requested ok =>
    obtain ⟨tasks, leases, _, rfl⟩ := changePhase_ok ok
    exact kept.frame (setWaves_frame rfl)
  | initialized input record result graphs created ok =>
    exact kept.grown (wavesOrdered_initialized kept.waves created ok) rfl rfl
  | proposed input outcome graphs ok =>
    have revised := fun event logged => keeps event (List.mem_append_right w.log logged)
    obtain ⟨waves, grown⟩ := wavesOrdered_proposed kept.waves ok revised
    exact kept.grown ⟨waves.transport rfl rfl rfl, grown⟩ rfl rfl
  | recorded active input replan replanning current checked ok =>
    exact kept.grown ⟨kept.waves.transport rfl rfl rfl, extends_same rfl rfl⟩ rfl rfl
  | submitted replan member revising =>
    exact kept.grown ⟨kept.waves.transport rfl rfl rfl, extends_same rfl rfl⟩ rfl rfl
  | advanced input replan replanning ok =>
    exact kept.grown ⟨kept.waves.transport rfl rfl rfl, extends_same rfl rfl⟩ rfl rfl

theorem orderKept_start : OrderKept EpicRuntime.start where
  waves := by
    refine ⟨fun _ member => absurd member List.not_mem_nil,
      fun _ member => absurd member List.not_mem_nil,
      fun _ member => absurd member List.not_mem_nil,
      fun _ member => absurd member List.not_mem_nil, ?_⟩
    intro runId graph active
    have absent : activeGraph EpicRuntime.start.graphs runId = none := rfl
    rw [absent] at active
    cases active
  queued := ⟨fun _ member => absurd member List.not_mem_nil,
    fun _ member => absurd member List.not_mem_nil⟩
  turns := fun _ member => absurd member List.not_mem_nil

/-- The integration order of a run is one order, and the entries take their turns in it. -/
structure StableAndSerial (log : List Event) : Prop where
  stable : ∀ first second, .ordered first ∈ log → .ordered second ∈ log →
    ∀ (index index' : Nat) (dispatch : TaskDispatchRecord), first[index]? = some dispatch →
      second[index']? = some dispatch → index = index'
  distinct : ∀ first second, .ordered first ∈ log → .ordered second ∈ log →
    ∀ (index : Nat) (dispatch dispatch' : TaskDispatchRecord), first[index]? = some dispatch →
      second[index]? = some dispatch' → dispatch.runId = dispatch'.runId → dispatch = dispatch'
  inTurn : ∀ event ∈ log, InTurn event

theorem OrderKept.stableAndSerial (kept : OrderKept w) : StableAndSerial w.integration.log := by
  have listed : ∀ {order : List TaskDispatchRecord} {index : Nat} {dispatch : TaskDispatchRecord},
      .ordered order ∈ w.integration.log → order[index]? = some dispatch →
      ∃ graph, activeGraph w.graphs dispatch.runId = some graph ∧
        (orderOf w dispatch.runId graph)[index]? = some dispatch := by
    intro order index dispatch logged found
    obtain ⟨runId, graph, active, ⟨rest, whole⟩⟩ := kept.queued.ordered order logged
    have inOrder : (orderOf w runId graph)[index]? = some dispatch := by
      rw [← whole, List.getElem?_append_left (List.getElem?_eq_some_iff.mp found).1]
      exact found
    have run := (mem_integrationOrder.mp (List.mem_of_getElem? inOrder)).2
    rw [run]
    exact ⟨graph, active, inOrder⟩
  refine ⟨?_, ?_, kept.turns⟩
  · intro first second inFirst inSecond index index' dispatch found found'
    obtain ⟨graph, active, here⟩ := listed inFirst found
    obtain ⟨graph', active', there⟩ := listed inSecond found'
    exact orderOf_index active active' here there
  · intro first second inFirst inSecond index dispatch dispatch' found found' sameRun
    obtain ⟨graph, active, here⟩ := listed inFirst found
    obtain ⟨graph', active', there⟩ := listed inSecond found'
    rw [← sameRun] at active' there
    have sameGraph : graph = graph' := Option.some.inj (active.symm.trans active')
    subst sameGraph
    exact Option.some.inj (here.symm.trans there)

/-- When every accepted revision keeps the places, the order of a run is stable and serial. -/
theorem order_stable_serial [Sha256] (env : Environment)
    (acts : List EpicRuntime.Act)
    (keeps : ∀ event ∈ (runActs env acts).log, KeepsPlaces event) :
    StableAndSerial (runActs env acts).integration.log := by
  have kept : (∀ event ∈ (runActs env acts).log, KeepsPlaces event) →
      OrderKept (runActs env acts) := by
    refine runActs_invariant (P := fun w => (∀ event ∈ w.log, KeepsPlaces event) → OrderKept w)
      ?_ (fun _ => orderKept_start) acts
    intro w w' step holds later
    exact epicStep_orderKept step later
      (holds fun event logged => later event (epicStep_log step event logged))
  exact (kept keeps).stableAndSerial

end Order

section Samples

/-- A digest that tells a record without changes from one with changes. -/
@[reducible] def openingDigest : Sha256 where
  hex text := if (text.toByteArray.data.toList.drop 12).head? = some 93 then "first" else "next"

def sampleGraph (nodes : List TaskDagNode) (kept : String) : InitialTaskGraph where
  runId := "run"
  dag := ⟨"graph", 1, nodes, ""⟩
  requirementMappings := [⟨"item", "requirement", [], [kept], ""⟩]
  rationale := ""
  evidenceArtifactIds := []
  committedAt := ""

def sampleProposal (interrupted kept : String) (nodes : List TaskDagNode) :
    TaskGraphRevisionProposal where
  runId := "run"
  graphId := "graph"
  expectedGraphRevision := 1
  expectedRevisionSha256 := "first"
  proposedDag := ⟨"graph", 2, nodes, ""⟩
  changes := [⟨.supersede, [interrupted], ["next"], "", ["artifact"]⟩]
  requirementMappings := [⟨"item", "requirement", [kept], [kept], ""⟩]
  rationale := ""
  evidenceArtifactIds := ["artifact"]
  proposedAt := ""
  trigger := some ⟨"finding", [interrupted]⟩

def sampleReport (interrupted kept : String) (nodes : List TaskDagNode) :
    ReportHiddenDependencyInput where
  finding := ⟨"finding", "run", "graph", 1, "first", interrupted, [kept], [interrupted], "",
    ["artifact"], "now"⟩
  proposal := sampleProposal interrupted kept nodes
  trigger := ⟨"finding", [interrupted]⟩
  triggered := rfl

def sampleTick : EpicRuntimeTickInput := ⟨"run", 4, [⟨"profile", true⟩], [], 0, [], 10⟩

def sampleIntegration : TaskIntegrationDriver where
  observeBranches _ _ := .ok []
  resolve _ dispatch := .ok (some ⟨(queueInput dispatch 1).variantId⟩)
  inventory _ _ := .ok .noChanges
  prepare _ _ := .ok ⟨.prepared, []⟩
  verify _ _ _ := .ok ⟨.passed, "report"⟩
  observe _ _ _ := .ok []
  publish _ _ _ := .ok ⟨.integrated, []⟩

/-- The kept task succeeds; whatever else runs goes on until it is cancelled. -/
def sampleEnvironment (kept : String) : Environment where
  driver :=
    { start := fun _ _ => .ok ()
      tick := fun _ childRunId =>
        .ok (if childRunId = "task-run:run:1:" ++ kept then .succeeded else .running)
      status := fun calls _ => .ok (if calls < 4 then .running else .cancelled)
      cancel := fun _ _ => .ok () }
  integration := some sampleIntegration
  nowIso _ := "now"
  ids kind number := kind ++ ":" ++ toString number
  arrival _ _ := 0

def sampleActs (interrupted kept : String) : List EpicRuntime.Act :=
  [.initialized (sampleGraph [sampleNode "a" [], sampleNode "b" []] kept), .tick sampleTick,
    .reported (sampleReport interrupted kept [sampleNode "next" [kept], sampleNode kept []]),
    .tick sampleTick]

def sampleRun (interrupted kept : String) : EpicWorld :=
  @runActs openingDigest plainCollation (sampleEnvironment kept) (sampleActs interrupted kept)

def revised : EpicEvent → Bool
  | .revised .. => true
  | _ => false

/-- The later task of the wave is superseded: the order is kept. -/
theorem order_stable_serial_sample :
    ((sampleRun "b" "a").log.any revised = true ∧
      ∀ event ∈ (sampleRun "b" "a").log, @KeepsPlaces plainCollation event) ∧
      StableAndSerial (sampleRun "b" "a").integration.log := by
  have facts : (sampleRun "b" "a").log.any revised = true ∧
      ∀ event ∈ (sampleRun "b" "a").log, @KeepsPlaces plainCollation event := by
    decide +kernel
  rw [sampleRun] at facts ⊢
  exact ⟨facts, @order_stable_serial plainCollation openingDigest (sampleEnvironment "a")
    (sampleActs "b" "a") facts.2⟩

def identityConflict : Event → Bool
  | .refused _ (.identityConflict _) => true
  | _ => false

theorem StableAndSerial.no_conflict {log : List Event} (kept : StableAndSerial log) :
    log.any identityConflict = false := by
  rw [List.any_eq_false]
  intro event logged conflict
  have turn := kept.inTurn event logged
  cases event with
  | refused input error => cases error <;> simp_all [identityConflict, InTurn]
  | _ => simp_all [identityConflict]

def conflictFound : Bool :=
  (sampleRun "a" "b").integration.log.any identityConflict

/-- The earlier task of the wave is superseded: the other one loses its ordinal. -/
theorem order_unstable : ¬ ∀ [Sha256] [Collation] (env : Environment)
    (acts : List EpicRuntime.Act), StableAndSerial (runActs env acts).integration.log := by
  intro claim
  have found : conflictFound = true := by decide +kernel
  have kept := @claim openingDigest plainCollation (sampleEnvironment "b") (sampleActs "a" "b")
  have absent := kept.no_conflict
  rw [conflictFound, sampleRun, absent] at found
  exact absurd found Bool.false_ne_true

end Samples

end Heniek.IntegrationOrder
