import Heniek.DagExactness
import Heniek.FailurePropagation

/-!
Why a task that has not started is deferred. A failed, cancelled or blocked task is a
cause for the tasks it reaches through blocked tasks and tasks that have not started;
of the blocked ones only those count that have no cause of their own. The planner's
recursion collects just these.
-/

namespace Heniek.RootCauses
open KeyedTable ScriptText TaskGraph DagValidation WavePlan WaveExclusivity FailurePropagation
open DagExactness Relation
open GraphRevision (freshState)

def HasOutcome (states : List TaskPlanningState) (taskId : String)
    (outcome : TaskPlanningOutcome) : Prop :=
  ∃ state ∈ states, state.taskId = taskId ∧ state.outcome = outcome

def Passes (states : List TaskPlanningState) (taskId : String) : Prop :=
  HasOutcome states taskId .blocked ∨ HasOutcome states taskId .notStarted

/-- The source lies behind the target, with only passing tasks in between. -/
inductive Reaches (dag : TaskDag) (states : List TaskPlanningState) : String → String → Prop
  | direct {source target : String} (depends : DependsOn dag target source) :
      Reaches dag states source target
  | through {source middle target : String} (depends : DependsOn dag target middle)
      (passes : Passes states middle) (reaches : Reaches dag states source middle) :
      Reaches dag states source target

def Stops (states : List TaskPlanningState) (taskId : String) : Prop :=
  HasOutcome states taskId .failed ∨ HasOutcome states taskId .cancelled ∨
    HasOutcome states taskId .blocked

def terminalReason (code : TaskWaveBlockingCode) (source : String) : TaskWaveBlockingReason :=
  { code := code, sourceTaskId := source }

inductive RootCause (dag : TaskDag) (states : List TaskPlanningState) (taskId : String) :
    TaskWaveBlockingReason → Prop
  | failed {source : String} (reaches : Reaches dag states source taskId)
      (outcome : HasOutcome states source .failed) :
      RootCause dag states taskId (terminalReason .predecessorFailed source)
  | cancelled {source : String} (reaches : Reaches dag states source taskId)
      (outcome : HasOutcome states source .cancelled) :
      RootCause dag states taskId (terminalReason .predecessorCancelled source)
  | blocked {source : String} (reaches : Reaches dag states source taskId)
      (outcome : HasOutcome states source .blocked)
      (root : ∀ earlier, Reaches dag states earlier source → ¬ Stops states earlier) :
      RootCause dag states taskId (terminalReason .predecessorBlocked source)

section Keys

theorem separator_inj {separator : Char} {tail tail' : List Char} : {head head' : List Char} →
    separator ∉ head → separator ∉ head' →
    head ++ separator :: tail = head' ++ separator :: tail' → head = head' ∧ tail = tail'
  | [], [], _, _, same => ⟨rfl, (List.cons.inj same).2⟩
  | [], c :: head', _, free', same =>
    absurd ((List.cons.inj same).1 ▸ List.mem_cons_self) free'
  | c :: head, [], free, _, same =>
    absurd ((List.cons.inj same).1 ▸ List.mem_cons_self) free
  | c :: head, d :: head', free, free', same => by
      rw [List.mem_cons, not_or] at free free'
      obtain ⟨first, rest⟩ := List.cons.inj same
      obtain ⟨heads, tails⟩ := separator_inj free.2 free'.2 rest
      exact ⟨congrArg₂ List.cons first heads, tails⟩

theorem code_free (code : TaskWaveBlockingCode) : '\x00' ∉ code.text.toList := by
  cases code <;> decide

theorem code_text_inj {code code' : TaskWaveBlockingCode} (same : code.text = code'.text) :
    code = code' := by
  cases code <;> cases code' <;> first | rfl | simp [TaskWaveBlockingCode.text] at same

theorem toList_reasonKey (reason : TaskWaveBlockingReason) : (reasonKey reason).toList =
    reason.code.text.toList ++ '\x00' :: ((reason.sourceTaskId.getD "").toList ++
      '\x00' :: ((reason.repositoryId.getD "").toList ++ '\x00' ::
        ((reason.profileId.getD "").toList ++ '\x00' :: (reason.accountId.getD "").toList))) := by
  simp [reasonKey, joinNul]

theorem code_of_reasonKey {left right : TaskWaveBlockingReason}
    (same : reasonKey left = reasonKey right) : left.code = right.code := by
  have texts := congrArg String.toList same
  rw [toList_reasonKey, toList_reasonKey] at texts
  have heads := (separator_inj (code_free left.code) (code_free right.code) texts).1
  exact code_text_inj (String.toList_inj.mp heads)

theorem terminalReason_of_reasonKey {code code' : TaskWaveBlockingCode} {source source' : String}
    (same : reasonKey (terminalReason code source) = reasonKey (terminalReason code' source')) :
    terminalReason code source = terminalReason code' source' := by
  have codes : code = code' := code_of_reasonKey same
  have texts := congrArg String.toList same
  rw [toList_reasonKey, toList_reasonKey] at texts
  have tails := (separator_inj (code_free code) (code_free code') texts).2
  have sources : source = source' := by
    have names := List.append_cancel_right tails
    exact String.toList_inj.mp names
  rw [codes, sources]

theorem mem_canonicalReasons {values : List TaskWaveBlockingReason}
    {reason : TaskWaveBlockingReason}
    (member : reason ∈ values)
    (alone : ∀ other ∈ values, reasonKey other = reasonKey reason → other = reason) :
    reason ∈ canonicalReasons values := by
  have key : reasonKey reason ∈ (Table.empty.upsertAll values : Table reasonKey).keys :=
    Table.mem_keys_upsertAll.mpr (Or.inr (List.mem_map_of_mem member))
  obtain ⟨row, inRows, same⟩ := List.mem_map.mp key
  have own := alone row (Table.mem_of_mem_upsertAll inRows) same
  exact mem_sortBy.mpr (own ▸ inRows)

theorem mem_canonicalReasons_iff {values : List TaskWaveBlockingReason}
    {Cause : TaskWaveBlockingReason → Prop} (exactly : ∀ other, other ∈ values ↔ Cause other)
    (shape : ∀ other, Cause other → ∃ code ∈ terminalCodes, ∃ source,
      other = terminalReason code source) {reason : TaskWaveBlockingReason} :
    reason ∈ canonicalReasons values ↔ Cause reason := by
  rw [← exactly]
  refine ⟨mem_of_canonicalReasons, fun member => mem_canonicalReasons member ?_⟩
  intro other listed same
  obtain ⟨_, _, _, rfl⟩ := shape reason ((exactly reason).mp member)
  obtain ⟨_, _, _, rfl⟩ := shape other ((exactly other).mp listed)
  exact terminalReason_of_reasonKey same

theorem canonicalReasons_ascending (values : List TaskWaveBlockingReason) :
    (canonicalReasons values).Pairwise fun left right =>
      before (reasonKey left) (reasonKey right) = true := by
  have sorted : (canonicalReasons values).Pairwise fun left right =>
      before (reasonKey right) (reasonKey left) = false :=
    StableOrder.pairwise_sorted (fun left right => before_total (reasonKey left) (reasonKey right))
      (fun _ _ _ => before_trans) _
  have apart : (canonicalReasons values).Pairwise fun left right =>
      reasonKey left ≠ reasonKey right := by
    have keys : ((canonicalReasons values).map reasonKey).Nodup :=
      ((sortBy_perm reasonKey _).map reasonKey).nodup_iff.mpr
        (Table.empty.upsertAll values : Table reasonKey).distinct
    exact List.pairwise_map.mp keys
  refine (sorted.and apart).imp ?_
  intro left right order
  by_contra other
  exact order.2 (before_antisymm order.1 (by simpa using other))

end Keys

section Causes

variable {dag : TaskDag} {states : List TaskPlanningState}
variable {taskId source : String} {reason : TaskWaveBlockingReason}

theorem RootCause.shape (cause : RootCause dag states taskId reason) :
    ∃ code ∈ terminalCodes, ∃ source, reason = terminalReason code source := by
  cases cause with
  | failed => exact ⟨_, by decide, _, rfl⟩
  | cancelled => exact ⟨_, by decide, _, rfl⟩
  | blocked => exact ⟨_, by decide, _, rfl⟩

theorem Reaches.trans {middle target : String} (first : Reaches dag states source middle)
    (passes : Passes states middle) (second : Reaches dag states middle target) :
    Reaches dag states source target := by
  induction second with
  | direct depends => exact .through depends passes first
  | through depends held _ ih => exact .through depends held ih

theorem Reaches.depends {target : String} (reaches : Reaches dag states source target) :
    TransGen (DependsOn dag) target source := by
  induction reaches with
  | direct depends => exact .single depends
  | through depends _ _ ih => exact .head depends ih

theorem RootCause.pass {middle : String} (depends : DependsOn dag taskId middle)
    (passes : Passes states middle) (cause : RootCause dag states middle reason) :
    RootCause dag states taskId reason := by
  cases cause with
  | failed reaches outcome => exact .failed (.through depends passes reaches) outcome
  | cancelled reaches outcome => exact .cancelled (.through depends passes reaches) outcome
  | blocked reaches outcome root => exact .blocked (.through depends passes reaches) outcome root

theorem rank_lt (sound : SoundGraph dag) (path : TransGen (DependsOn dag) taskId source) :
    (buildTopologicalOrder dag (firstNodes dag)).1.idxOf source <
      (buildTopologicalOrder dag (firstNodes dag)).1.idxOf taskId := by
  induction path with
  | single depends => exact sound.rank depends
  | tail _ depends ih => exact (sound.rank depends).trans ih

theorem exists_rootCause (sound : SoundGraph dag) (reaches : Reaches dag states source taskId)
    (stops : Stops states source) : ∃ reason, RootCause dag states taskId reason := by
  induction rank : (buildTopologicalOrder dag (firstNodes dag)).1.idxOf source
    using Nat.strong_induction_on generalizing source with
  | _ rank' ih =>
    rcases stops with failed | cancelled | blocked
    · exact ⟨_, .failed reaches failed⟩
    · exact ⟨_, .cancelled reaches cancelled⟩
    · by_cases root : ∀ earlier, Reaches dag states earlier source → ¬ Stops states earlier
      · exact ⟨_, .blocked reaches blocked root⟩
      · simp only [not_forall, not_not] at root
        obtain ⟨earlier, behind, stopped⟩ := root
        have lower := rank_lt sound behind.depends
        rw [rank] at lower
        exact ih _ lower (behind.trans (.inl blocked) reaches) stopped rfl

theorem rootCause_free_iff (sound : SoundGraph dag) :
    (∀ reason, ¬ RootCause dag states taskId reason) ↔
      ∀ earlier, Reaches dag states earlier taskId → ¬ Stops states earlier := by
  constructor
  · intro free earlier reaches stops
    obtain ⟨reason, cause⟩ := exists_rootCause sound reaches stops
    exact free reason cause
  · intro free reason cause
    cases cause with
    | failed reaches outcome => exact free _ reaches (.inl outcome)
    | cancelled reaches outcome => exact free _ reaches (.inr (.inl outcome))
    | blocked reaches outcome => exact free _ reaches (.inr (.inr outcome))

/-- What a direct predecessor contributes. -/
inductive Offers (dag : TaskDag) (states : List TaskPlanningState) (predecessor : String) :
    TaskWaveBlockingReason → Prop
  | failed (outcome : HasOutcome states predecessor .failed) :
      Offers dag states predecessor (terminalReason .predecessorFailed predecessor)
  | cancelled (outcome : HasOutcome states predecessor .cancelled) :
      Offers dag states predecessor (terminalReason .predecessorCancelled predecessor)
  | blocked (outcome : HasOutcome states predecessor .blocked)
      (free : ∀ reason, ¬ RootCause dag states predecessor reason) :
      Offers dag states predecessor (terminalReason .predecessorBlocked predecessor)
  | inherited {reason : TaskWaveBlockingReason} (passes : Passes states predecessor)
      (cause : RootCause dag states predecessor reason) : Offers dag states predecessor reason

theorem rootCause_iff (sound : SoundGraph dag) : RootCause dag states taskId reason ↔
      ∃ predecessor, DependsOn dag taskId predecessor ∧ Offers dag states predecessor reason := by
  constructor
  · intro cause
    cases cause with
    | failed reaches outcome =>
      cases reaches with
      | direct depends => exact ⟨_, depends, .failed outcome⟩
      | through depends passes reaches =>
        exact ⟨_, depends, .inherited passes (.failed reaches outcome)⟩
    | cancelled reaches outcome =>
      cases reaches with
      | direct depends => exact ⟨_, depends, .cancelled outcome⟩
      | through depends passes reaches =>
        exact ⟨_, depends, .inherited passes (.cancelled reaches outcome)⟩
    | blocked reaches outcome root =>
      cases reaches with
      | direct depends => exact ⟨_, depends, .blocked outcome ((rootCause_free_iff sound).mpr root)⟩
      | through depends passes reaches =>
        exact ⟨_, depends, .inherited passes (.blocked reaches outcome root)⟩
  · rintro ⟨predecessor, depends, offers⟩
    cases offers with
    | failed outcome => exact .failed (.direct depends) outcome
    | cancelled outcome => exact .cancelled (.direct depends) outcome
    | blocked outcome free =>
      exact .blocked (.direct depends) outcome ((rootCause_free_iff sound).mp free)
    | inherited passes cause => exact cause.pass depends passes

end Causes

section Recursion

variable {dag : TaskDag} {states : List TaskPlanningState}

theorem hasOutcome_iff (single : (states.map TaskPlanningState.taskId).Nodup) {taskId : String}
    {outcome : TaskPlanningOutcome} : HasOutcome states taskId outcome ↔
      ((stateMap states).find? taskId).map TaskPlanningState.outcome = some outcome := by
  constructor
  · rintro ⟨state, listed, rfl, rfl⟩
    rw [find?_stateMap single listed]
    rfl
  · intro found
    obtain ⟨state, there, rfl⟩ := Option.map_eq_some_iff.mp found
    obtain ⟨listed, named⟩ := mem_of_stateMap there
    exact ⟨state, listed, named, rfl⟩

theorem offers_iff {predecessor : String} {reason : TaskWaveBlockingReason} :
    Offers dag states predecessor reason ↔
      HasOutcome states predecessor .failed ∧
        reason = terminalReason .predecessorFailed predecessor ∨
      HasOutcome states predecessor .cancelled ∧
        reason = terminalReason .predecessorCancelled predecessor ∨
      HasOutcome states predecessor .blocked ∧
        ((∀ other, ¬ RootCause dag states predecessor other) ∧
            reason = terminalReason .predecessorBlocked predecessor ∨
          RootCause dag states predecessor reason) ∨
      HasOutcome states predecessor .notStarted ∧ RootCause dag states predecessor reason := by
  constructor
  · intro offers
    cases offers with
    | failed outcome => exact .inl ⟨outcome, rfl⟩
    | cancelled outcome => exact .inr (.inl ⟨outcome, rfl⟩)
    | blocked outcome free => exact .inr (.inr (.inl ⟨outcome, .inl ⟨free, rfl⟩⟩))
    | inherited passes cause =>
      rcases passes with blocked | fresh
      · exact .inr (.inr (.inl ⟨blocked, .inr cause⟩))
      · exact .inr (.inr (.inr ⟨fresh, cause⟩))
  · rintro (⟨outcome, rfl⟩ | ⟨outcome, rfl⟩ | ⟨outcome, ⟨free, rfl⟩ | cause⟩ | ⟨outcome, cause⟩)
    · exact .failed outcome
    · exact .cancelled outcome
    · exact .blocked outcome free
    · exact .inherited (.inl outcome) cause
    · exact .inherited (.inr outcome) cause

theorem mem_terminalReasons (sound : SoundGraph dag)
    (single : (states.map TaskPlanningState.taskId).Nodup) {fuel : Nat} {visiting : List String}
    {taskId : String} (known : taskId ∈ (firstNodes dag).keys) (distinct : visiting.Nodup)
    (within : visiting ⊆ (firstNodes dag).keys)
    (onward : ∀ earlier ∈ visiting, TransGen (DependsOn dag) earlier taskId)
    (enough : (firstNodes dag).keys.length < fuel + visiting.length)
    {reason : TaskWaveBlockingReason} :
    reason ∈ terminalReasons (nodeMap dag) (stateMap states) fuel visiting taskId ↔
      RootCause dag states taskId reason := by
  induction fuel generalizing visiting taskId reason with
  | zero =>
    have bound := (List.subperm_of_subset distinct within).length_le
    omega
  | succ fuel ih =>
    have fresh : taskId ∉ visiting := by
      intro back
      exact Nat.lt_irrefl _ (rank_lt sound (onward taskId back))
    have behind : ∀ predecessor, DependsOn dag taskId predecessor → ∀ other,
        other ∈ terminalReasons (nodeMap dag) (stateMap states) fuel (taskId :: visiting)
          predecessor ↔ RootCause dag states predecessor other := by
      intro predecessor depends other
      obtain ⟨node, listed, named, direct⟩ := depends
      refine ih (sound.known node listed predecessor direct).1
        (List.nodup_cons.mpr ⟨fresh, distinct⟩) (List.cons_subset.mpr ⟨known, within⟩) ?_
        (by rw [List.length_cons]; omega)
      have step : DependsOn dag taskId predecessor := ⟨node, listed, named, direct⟩
      intro earlier member
      rcases List.mem_cons.mp member with rfl | member
      · exact .single step
      · exact (onward earlier member).tail step
    rw [terminalReasons, if_neg fresh]
    refine mem_canonicalReasons_iff (fun other => ?_) fun _ cause => cause.shape
    rw [rootCause_iff sound, List.mem_flatMap]
    refine exists_congr fun predecessor => ?_
    rw [dependsOn_iff sound]
    refine and_congr_right fun depends => ?_
    have inherited := behind predecessor depends
    have empty : terminalReasons (nodeMap dag) (stateMap states) fuel (taskId :: visiting)
        predecessor = [] ↔ ∀ other, ¬ RootCause dag states predecessor other := by
      rw [List.eq_nil_iff_forall_not_mem]
      exact forall_congr' fun other => not_congr (inherited other)
    rw [offers_iff]
    simp only [hasOutcome_iff single]
    cases outcome : ((stateMap states).find? predecessor).map TaskPlanningState.outcome with
    | none => simp
    | some held =>
      cases held <;> simp only [Option.some.injEq, reduceCtorEq, false_and, true_and,
        false_or, or_false, List.mem_singleton, List.not_mem_nil, inherited, terminalReason]
      by_cases none : terminalReasons (nodeMap dag) (stateMap states) fuel (taskId :: visiting)
          predecessor = []
      · have free := empty.mp none
        simp [none, free]
      · rw [if_neg none, inherited]
        refine ⟨.inr, fun held => held.resolve_left fun root => none (empty.mpr root.1)⟩

theorem mem_terminalReasons_node (sound : SoundGraph dag)
    (single : (states.map TaskPlanningState.taskId).Nodup) {node : TaskDagNode}
    (listed : node ∈ dag.nodes) {reason : TaskWaveBlockingReason} :
    reason ∈ terminalReasons (nodeMap dag) (stateMap states) ((nodeMap dag).rows.length + 1) []
        node.taskId ↔ RootCause dag states node.taskId reason := by
  refine mem_terminalReasons sound single (keys_firstNodes listed) List.nodup_nil
    (List.nil_subset _) (by simp) ?_
  have covered : (firstNodes dag).keys ⊆ (nodeMap dag).keys := by
    intro taskId known
    obtain ⟨row, inRows, rfl⟩ := List.mem_map.mp known
    exact Table.mem_keys_upsertAll.mpr (Or.inr (List.mem_map_of_mem (mem_firstNodes inRows)))
  have bound : (firstNodes dag).keys.length ≤ (nodeMap dag).keys.length :=
    (List.subperm_of_subset (firstNodes dag).distinct covered).length_le
  have size : (nodeMap dag).keys.length = (nodeMap dag).rows.length := List.length_map ..
  omega

end Recursion

/-- The reasons that a dependency is not settled yet. -/
def pendingGateCodes : List TaskWaveBlockingCode :=
  [.predecessorPending, .completionContractPending, .completionContractFailed,
    .integrationPending, .integrationReconciliationRequired, .combinedVerificationPending,
    .combinedVerificationFailed]

section Decision

variable {snapshot : TaskWavePlanningSnapshot} {selection : Selection} {node : TaskDagNode}

theorem gates_capacityReasons {reason : TaskWaveBlockingReason}
    (member : reason ∈ capacityReasons snapshot selection node) :
    reason.code ∉ pendingGateCodes := by
  simp only [capacityReasons, List.mem_append, List.mem_map, List.mem_flatMap] at member
  rcases member with ((profile | ⟨_, _, rfl⟩) | ⟨_, _, account⟩) | slots
  · split at profile <;> simp_all [pendingGateCodes]
  · simp [pendingGateCodes]
  · split_ifs at account <;> simp_all [pendingGateCodes]
  · split_ifs at slots <;> simp_all [pendingGateCodes]

theorem mem_dependencyReasons {nodes : NodeTable} {states : StateTable}
    {reason : TaskWaveBlockingReason} :
    reason ∈ dependencyReasons nodes states node ∧ reason.code ∈ terminalCodes ↔
      reason ∈ terminalReasons nodes states (nodes.rows.length + 1) [] node.taskId ∧
        reason.code ∈ terminalCodes := by
  refine and_congr_left fun terminal => ?_
  by_cases none : terminalReasons nodes states (nodes.rows.length + 1) [] node.taskId = []
  · rw [none]
    refine ⟨fun member => absurd terminal (codes_dependencyReasons none member), ?_⟩
    exact fun member => absurd member List.not_mem_nil
  · simp only [dependencyReasons, ne_eq, none, not_false_eq_true, if_true]

theorem mem_blockingReasons (sound : SoundGraph snapshot.dag)
    (single : (snapshot.tasks.map TaskPlanningState.taskId).Nodup)
    (listed : node ∈ snapshot.dag.nodes) {reason : TaskWaveBlockingReason} :
    reason ∈ blockingReasons snapshot selection node ∧ reason.code ∈ terminalCodes ↔
      RootCause snapshot.dag snapshot.tasks node.taskId reason := by
  have found := @mem_terminalReasons_node _ _ sound single _ listed
  have parts : ∀ other, other.code ∈ terminalCodes →
      (other ∈ (if snapshot.unresolvedGraphRevision then
          [({ code := .graphRevisionPending } : TaskWaveBlockingReason)] else []) ++
        dependencyReasons (nodeMap snapshot.dag) (stateMap snapshot.tasks) node ++
        capacityReasons snapshot selection node ↔
          RootCause snapshot.dag snapshot.tasks node.taskId other) := by
    intro other terminal
    have dependency := @mem_dependencyReasons node (nodeMap snapshot.dag) (stateMap snapshot.tasks)
      other
    rw [found] at dependency
    rw [List.mem_append, List.mem_append]
    constructor
    · rintro ((pending | depends) | capacity)
      · split_ifs at pending <;> simp_all [terminalCodes]
      · exact (dependency.mp ⟨depends, terminal⟩).1
      · exact absurd terminal (codes_capacityReasons capacity)
    · intro cause
      exact .inl (.inr (dependency.mpr ⟨cause, terminal⟩).1)
  constructor
  · rintro ⟨member, terminal⟩
    exact (parts reason terminal).mp (mem_of_canonicalReasons member)
  · intro cause
    obtain ⟨code, terminal, source, rfl⟩ := cause.shape
    refine ⟨mem_canonicalReasons
      ((parts _ terminal).mpr cause) fun other present same => ?_, terminal⟩
    have codes : other.code = code := code_of_reasonKey same
    obtain ⟨_, _, _, rfl⟩ := ((parts other (codes ▸ terminal)).mp present).shape
    exact terminalReason_of_reasonKey same

theorem gates_blockingReasons (sound : SoundGraph snapshot.dag)
    (single : (snapshot.tasks.map TaskPlanningState.taskId).Nodup)
    (listed : node ∈ snapshot.dag.nodes) {reason other : TaskWaveBlockingReason}
    (member : reason ∈ blockingReasons snapshot selection node)
    (terminal : reason.code ∈ terminalCodes)
    (present : other ∈ blockingReasons snapshot selection node) :
    other.code ∉ pendingGateCodes := by
  have deferred : terminalReasons (nodeMap snapshot.dag) (stateMap snapshot.tasks)
      ((nodeMap snapshot.dag).rows.length + 1) [] node.taskId ≠ [] :=
    fun none => undeferred_blockingReasons none member terminal
  have parts := mem_of_canonicalReasons present
  simp only [List.mem_append] at parts
  rcases parts with (pending | depends) | capacity
  · split_ifs at pending <;> simp_all [pendingGateCodes]
  · rw [dependencyReasons, if_pos deferred] at depends
    have codes : ∀ code ∈ terminalCodes, code ∉ pendingGateCodes := by decide
    obtain ⟨code, held, _, rfl⟩ := ((mem_terminalReasons_node sound single listed).mp depends).shape
    exact codes code held
  · exact gates_capacityReasons capacity

def Explained (snapshot : TaskWavePlanningSnapshot) (node : TaskDagNode)
    (decision : TaskWaveDecision) : Prop :=
  ∃ selection, decision.blockingReasons = blockingReasons snapshot selection node

theorem considerTask_decisions (valid : (snapshotValidation snapshot).valid = true)
    {taskId : String} (found : (nodeMap snapshot.dag).find? taskId = some node) :
    ∃ decision : TaskWaveDecision, decision.taskId = taskId ∧
      (considerTask snapshot selection taskId).decisions = selection.decisions ++ [decision] ∧
      (HasOutcome snapshot.tasks taskId .notStarted →
        (snapshot.tasks.map TaskPlanningState.taskId).Nodup →
          Explained snapshot node decision) := by
  have named : node.taskId = taskId := Table.key_of_find? found
  unfold considerTask
  rw [found]
  dsimp only
  rw [if_neg (by rw [valid]; exact Bool.true_eq_false.mp)]
  split_ifs with started blocked
  · refine ⟨_, rfl, rfl, fun fresh single => ?_⟩
    exact absurd ((hasOutcome_iff single).mp fresh) started
  · exact ⟨_, rfl, rfl, fun _ _ => ⟨selection, rfl⟩⟩
  · exact ⟨_, named, rfl, fun _ _ => ⟨selection, (not_not.mp blocked).symm⟩⟩

theorem decisions_considerAll (valid : (snapshotValidation snapshot).valid = true)
    {order : List String} (known : ∀ taskId ∈ order, taskId ∈ (nodeMap snapshot.dag).keys)
    {taskId : String} (absent : taskId ∉ order) :
    (order.foldl (considerTask snapshot) selection).decisions.filter
        (fun decision => decision.taskId = taskId) =
      selection.decisions.filter fun decision => decision.taskId = taskId := by
  induction order generalizing selection with
  | nil => rfl
  | cons next order ih =>
    rw [List.mem_cons, not_or] at absent
    obtain ⟨row, found⟩ := Table.exists_find? (known next List.mem_cons_self)
    obtain ⟨decision, named, added, _⟩ :=
      @considerTask_decisions snapshot selection row valid next found
    rw [List.foldl_cons, ih (fun other listed => known other (List.mem_cons_of_mem _ listed))
      absent.2, added]
    simp [named, Ne.symm absent.1]

theorem decision_considerAll (valid : (snapshotValidation snapshot).valid = true)
    (single : (snapshot.tasks.map TaskPlanningState.taskId).Nodup) {order : List String}
    (distinct : order.Nodup) (known : ∀ taskId ∈ order, taskId ∈ (nodeMap snapshot.dag).keys)
    {taskId : String} (listed : taskId ∈ order)
    (found : (nodeMap snapshot.dag).find? taskId = some node)
    (fresh : HasOutcome snapshot.tasks taskId .notStarted)
    (unseen : (selection.decisions.filter fun decision => decision.taskId = taskId) = []) :
    ∃ decision, (order.foldl (considerTask snapshot) selection).decisions.filter
        (fun decision => decision.taskId = taskId) = [decision] ∧
      Explained snapshot node decision := by
  induction order generalizing selection with
  | nil => cases listed
  | cons next order ih =>
    rw [List.nodup_cons] at distinct
    have later : ∀ taskId ∈ order, taskId ∈ (nodeMap snapshot.dag).keys :=
      fun other member => known other (List.mem_cons_of_mem _ member)
    rw [List.foldl_cons]
    by_cases here : taskId = next
    · subst here
      obtain ⟨decision, named, added, explained⟩ :=
        @considerTask_decisions snapshot selection node valid taskId found
      refine ⟨decision, ?_, explained fresh single⟩
      rw [decisions_considerAll valid later distinct.1, added, List.filter_append, unseen]
      simp [named]
    · obtain ⟨row, there⟩ := Table.exists_find? (known next List.mem_cons_self)
      obtain ⟨decision, named, added, _⟩ :=
        @considerTask_decisions snapshot selection row valid next there
      refine ih distinct.2 later ((List.mem_cons.mp listed).resolve_left here) ?_
      rw [added, List.filter_append, unseen]
      simp [named, Ne.symm here]

/-- The one decision on a task that has not started names its root causes, each once and in the
order of the keys, and waits for no dependency besides. -/
theorem root_causes_exact (valid : (snapshotValidation snapshot).valid = true)
    {state : TaskPlanningState} (listed : state ∈ snapshot.tasks)
    (fresh : state.outcome = .notStarted) :
    ∃ decision, ((planTaskWave snapshot).decisions.filter
        fun decision => decision.taskId = state.taskId) = [decision] ∧
      (∀ reason, reason ∈ decision.blockingReasons ∧ reason.code ∈ terminalCodes ↔
        RootCause snapshot.dag snapshot.tasks state.taskId reason) ∧
      (decision.blockingReasons.Pairwise fun left right =>
        before (reasonKey left) (reasonKey right) = true) ∧
      ∀ reason ∈ decision.blockingReasons, reason.code ∈ terminalCodes →
        ∀ other ∈ decision.blockingReasons, other.code ∉ pendingGateCodes := by
  obtain ⟨base, resources⟩ := Bool.and_eq_true_iff.mp valid
  have quiet : dagDiagnostics snapshot.dag (some snapshot.tasks) = [] := List.isEmpty_iff.mp base
  have free : resourceDiagnostics snapshot = [] := List.isEmpty_iff.mp resources
  have sound := soundGraph_of_dagDiagnostics quiet
  have formed := (dagDiagnostics_nil.mp quiet).1
  have single : (snapshot.tasks.map TaskPlanningState.taskId).Nodup :=
    formed.covered.nodup_iff.mpr formed.distinct
  have order : (snapshotValidation snapshot).topologicalOrder =
      (buildTopologicalOrder snapshot.dag (firstNodes snapshot.dag)).1 := by
    simp [snapshotValidation, validateTaskDag, free, quiet]
  have keys := keys_firstNodes_eq formed.distinct
  have named : state.taskId ∈ snapshot.dag.taskIds :=
    formed.covered.mem_iff.mp (List.mem_map_of_mem listed)
  obtain ⟨node, inNodes, same⟩ := List.mem_map.mp named
  have distinct : (buildTopologicalOrder snapshot.dag (firstNodes snapshot.dag)).1.Nodup :=
    sound.order.nodup_iff.mpr (firstNodes snapshot.dag).distinct
  have known : ∀ taskId ∈ (buildTopologicalOrder snapshot.dag (firstNodes snapshot.dag)).1,
      taskId ∈ (nodeMap snapshot.dag).keys := by
    intro taskId placed
    have member := sound.order.mem_iff.mp placed
    rw [keys] at member
    exact Table.mem_keys_upsertAll.mpr (Or.inr member)
  have placed : state.taskId ∈
      (buildTopologicalOrder snapshot.dag (firstNodes snapshot.dag)).1 := by
    rw [sound.order.mem_iff, keys]
    exact named
  have found : (nodeMap snapshot.dag).find? state.taskId = some node := by
    rw [← same]
    exact find?_nodeMap formed.distinct inNodes
  obtain ⟨decision, alone, selection, reasons⟩ :=
    @decision_considerAll snapshot (initialSelection snapshot) node valid single _ distinct known _
      placed found ⟨state, listed, rfl, fresh⟩ rfl
  refine ⟨decision, ?_, ?_, ?_, ?_⟩
  · simp only [planTaskWave, valid, order]
    exact alone
  · intro reason
    rw [reasons, ← same]
    exact mem_blockingReasons sound single inNodes
  · rw [reasons]
    exact canonicalReasons_ascending _
  · rw [reasons]
    exact fun reason member terminal other present =>
      gates_blockingReasons sound single inNodes member terminal present

/-- A task that waits for a blocked one, which waits for a failed one. -/
def waitingSnapshot : TaskWavePlanningSnapshot where
  dag := writersDag [writerNode "last" ["second"] 0, writerNode "second" ["first"] 0,
    writerNode "first" [] 0]
  waveOrdinal := 1
  unresolvedGraphRevision := false
  tasks := [{ freshState "first" with outcome := .failed },
    { freshState "second" with outcome := .blocked }, freshState "last"]
  profiles := []
  accounts := []
  writerLeases := []
  activeWorkers := 0
  maxConcurrentWorkers := 1
  recordedAt := "now"

theorem root_causes_exact_sample : ∃ decision ∈ (planTaskWave waitingSnapshot).decisions,
    decision.taskId = "last" ∧
      terminalReason .predecessorFailed "first" ∈ decision.blockingReasons := by
  have fresh : freshState "last" ∈ waitingSnapshot.tasks := by simp [waitingSnapshot]
  obtain ⟨decision, alone, causes, _⟩ :=
    @root_causes_exact waitingSnapshot (by decide +kernel) _ fresh rfl
  have listed := List.mem_filter.mp (alone ▸ List.mem_singleton_self decision)
  refine ⟨decision, listed.1, of_decide_eq_true listed.2, ((causes _).mpr (.failed ?_ ?_)).1⟩
  · have second : DependsOn waitingSnapshot.dag "last" "second" :=
      ⟨writerNode "last" ["second"] 0, by simp [waitingSnapshot, writersDag], rfl, by
        simp [writerNode]⟩
    have first : DependsOn waitingSnapshot.dag "second" "first" :=
      ⟨writerNode "second" ["first"] 0, by simp [waitingSnapshot, writersDag], rfl, by
        simp [writerNode]⟩
    have blocked : HasOutcome waitingSnapshot.tasks "second" .blocked :=
      ⟨{ freshState "second" with outcome := .blocked }, by simp [waitingSnapshot], rfl, rfl⟩
    exact .through second (.inl blocked) (.direct first)
  · exact ⟨{ freshState "first" with outcome := .failed }, by simp [waitingSnapshot], rfl, rfl⟩

end Decision

end Heniek.RootCauses
