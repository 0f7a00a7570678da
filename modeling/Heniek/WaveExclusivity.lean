import Heniek.TopologicalOrder
import Heniek.WavePlan

/-!
The tasks of one wave can run side by side. Two writers of one repository are ordered
by their dependencies in a valid graph, and a task that was started or is selected has
all the tasks it depends on behind it, so of two such writers only one can be at work.
-/

namespace Heniek.WaveExclusivity
open KeyedTable ScriptText TaskGraph DagValidation TopologicalOrder WavePlan

def DependsOn (dag : TaskDag) (taskId predecessor : String) : Prop :=
  ∃ node ∈ dag.nodes, node.taskId = taskId ∧ predecessor ∈ node.task.dependencies

/-- What the graph and the task states of a valid snapshot promise. -/
structure Coherent (dag : TaskDag) (states : List TaskPlanningState) : Prop where
  distinct : dag.taskIds.Nodup
  single : (states.map TaskPlanningState.taskId).Nodup
  order : (buildTopologicalOrder dag (firstNodes dag)).1.Perm (firstNodes dag).keys
  writers : ∀ first ∈ dag.nodes, ∀ second ∈ dag.nodes, first.taskId ≠ second.taskId →
    ∀ repositoryId ∈ first.task.writeSet, repositoryId ∈ second.task.writeSet →
      Relation.TransGen (DependsOn dag) first.taskId second.taskId ∨
        Relation.TransGen (DependsOn dag) second.taskId first.taskId
  settled : ∀ state ∈ states, state.outcome = .active ∨ state.outcome = .succeeded →
    ∀ predecessor, DependsOn dag state.taskId predecessor →
      ∃ earlier ∈ states, earlier.taskId = predecessor ∧ earlier.satisfied = true

section Diagnostics

theorem repeated_eq_nil {seen items : List String} (none : repeated seen items = []) :
    items.Nodup ∧ ∀ item ∈ items, item ∉ seen := by
  induction items generalizing seen with
  | nil => exact ⟨List.nodup_nil, fun _ member => nomatch member⟩
  | cons item items ih =>
    unfold repeated at none
    split at none
    · cases none
    · rename_i fresh
      obtain ⟨distinct, apart⟩ := ih none
      refine ⟨List.nodup_cons.mpr ⟨?_, distinct⟩, ?_⟩
      · intro member
        exact apart item member (List.mem_append_right _ List.mem_cons_self)
      · intro other member
        rcases List.mem_cons.mp member with rfl | later
        · exact fresh
        · exact fun earlier => apart other later (List.mem_append_left _ earlier)

variable {dag : TaskDag}

theorem find?_firstNodes (distinct : dag.taskIds.Nodup) {node : TaskDagNode}
    (member : node ∈ dag.nodes) : (firstNodes dag).find? node.taskId = some node := by
  have found := Table.find?_foldl_insertOrIgnore (Table.empty : NodeTable) dag.nodes node.taskId
  refine found.trans ?_
  have stored : (⟨dag.nodes, distinct⟩ : NodeTable).find? node.taskId = some node :=
    Table.find?_key member
  exact stored

theorem find?_nodeMap (distinct : dag.taskIds.Nodup) {node : TaskDagNode}
    (member : node ∈ dag.nodes) : (nodeMap dag).find? node.taskId = some node :=
  Table.find?_upsertAll_of_nodup distinct member

theorem mem_firstNodes {node : TaskDagNode} (member : node ∈ (firstNodes dag).rows) :
    node ∈ dag.nodes := by
  have found := Table.find?_foldl_insertOrIgnore (Table.empty : NodeTable) dag.nodes node.taskId
  exact List.mem_of_find?_eq_some (found.symm.trans (Table.find?_key member))

theorem keys_firstNodes {node : TaskDagNode} (member : node ∈ dag.nodes) :
    node.taskId ∈ (firstNodes dag).keys := by
  have found := Table.find?_foldl_insertOrIgnore (Table.empty : NodeTable) dag.nodes node.taskId
  rw [Table.find?_empty, Option.none_or] at found
  refine Table.find?_isSome.mp ?_
  change ((dag.nodes.foldl Table.insertOrIgnore Table.empty).find? node.taskId).isSome = true
  rw [found, List.find?_isSome]
  exact ⟨node, member, by simp⟩

theorem mem_dependenciesOf {taskId predecessor : String}
    (member : predecessor ∈ dependenciesOf (firstNodes dag) taskId) :
    DependsOn dag taskId predecessor := by
  unfold dependenciesOf at member
  cases found : (firstNodes dag).find? taskId with
  | none => simp [found] at member
  | some node =>
    simp only [found, Option.map_some] at member
    exact ⟨node, mem_firstNodes (Table.mem_of_find? found), Table.key_of_find? found, member⟩

end Diagnostics

/-- What the diagnostics of a graph promise without any task states. -/
structure SoundGraph (dag : TaskDag) : Prop where
  distinct : dag.taskIds.Nodup
  known : ∀ node ∈ dag.nodes, ∀ predecessor ∈ node.task.dependencies,
    predecessor ∈ (firstNodes dag).keys ∧ predecessor ≠ node.taskId
  order : (buildTopologicalOrder dag (firstNodes dag)).1.Perm (firstNodes dag).keys

section Sound

variable {dag : TaskDag}

theorem soundGraph_of_dagDiagnostics {states : Option (List TaskPlanningState)}
    (none : dagDiagnostics dag states = []) : SoundGraph dag := by
  simp only [dagDiagnostics, List.append_eq_nil_iff] at none
  obtain ⟨⟨⟨⟨⟨_, duplicates⟩, dependencies⟩, cycle⟩, _⟩, _⟩ := none
  have acyclic : (buildTopologicalOrder dag (firstNodes dag)).2 = [] := by
    by_contra some
    simp [cycleDiagnostics, some] at cycle
  refine ⟨(repeated_eq_nil (List.map_eq_nil_iff.mp duplicates)).1, ?_,
    order_complete (fun node => keys_firstNodes) acyclic⟩
  intro node listed predecessor depends
  have quiet := List.flatMap_eq_nil_iff.mp dependencies node listed
  simp only [dependencyDiagnostics, List.append_eq_nil_iff] at quiet
  have here := List.flatMap_eq_nil_iff.mp quiet.1 predecessor depends
  by_cases own : predecessor = node.taskId
  · simp [own] at here
  · refine ⟨?_, own⟩
    by_contra missing
    simp [own, missing] at here

theorem SoundGraph.rank (sound : SoundGraph dag) {taskId predecessor : String}
    (depends : DependsOn dag taskId predecessor) :
    (buildTopologicalOrder dag (firstNodes dag)).1.idxOf predecessor <
      (buildTopologicalOrder dag (firstNodes dag)).1.idxOf taskId := by
  obtain ⟨node, listed, rfl, depends⟩ := depends
  have known := sound.known node listed predecessor depends
  have arrow : (predecessor, node.taskId) ∈ edges dag (firstNodes dag) := by
    simp only [edges, List.mem_flatMap, List.mem_map, List.mem_filter]
    exact ⟨node, listed, predecessor, ⟨depends, decide_eq_true known⟩, rfl⟩
  have placed : node.taskId ∈ (buildTopologicalOrder dag (firstNodes dag)).1 :=
    sound.order.mem_iff.mpr (keys_firstNodes listed)
  exact (ranked_order (fun _ => keys_firstNodes) _ arrow placed).2

theorem dependsOn_iff (sound : SoundGraph dag) {taskId predecessor : String} :
    predecessor ∈ dependenciesOf (nodeMap dag) taskId ↔ DependsOn dag taskId predecessor := by
  unfold dependenciesOf
  constructor
  · intro member
    cases found : (nodeMap dag).find? taskId with
    | none => simp [found] at member
    | some node =>
      simp only [found, Option.map_some] at member
      exact ⟨node, Table.mem_of_mem_upsertAll (Table.mem_of_find? found),
        Table.key_of_find? found, member⟩
  · rintro ⟨node, listed, rfl, depends⟩
    simp only [find?_nodeMap sound.distinct listed, Option.map_some]
    exact depends

end Sound

section Writers

variable {dag : TaskDag}

theorem ancestorsOf_upsert (ancestors : AncestorTable) (item : String × List String)
    (taskId : String) : ancestorsOf (ancestors.upsert item) taskId =
      if taskId = item.1 then item.2 else ancestorsOf ancestors taskId := by
  unfold ancestorsOf
  rw [Table.find?_upsert]
  split <;> simp

variable {taskId repositoryId : String} {writers : AncestorTable}

theorem computeAncestors_sound (order : List String) {ancestor : String}
    (member : ancestor ∈ ancestorsOf (computeAncestors order (firstNodes dag)) taskId) :
    Relation.TransGen (DependsOn dag) taskId ancestor := by
  let place := fun (ancestors : AncestorTable) (taskId : String) =>
    ancestors.upsert (taskId, (dependenciesOf (firstNodes dag) taskId).flatMap fun predecessor =>
      predecessor :: ancestorsOf ancestors predecessor)
  have fold : ∀ (order : List String) (ancestors : AncestorTable),
      (∀ taskId, ∀ ancestor ∈ ancestorsOf ancestors taskId,
        Relation.TransGen (DependsOn dag) taskId ancestor) →
      ∀ taskId, ∀ ancestor ∈ ancestorsOf (order.foldl place ancestors) taskId,
        Relation.TransGen (DependsOn dag) taskId ancestor := by
    intro order
    induction order with
    | nil => exact fun _ sound => sound
    | cons next order ih =>
      intro ancestors sound
      refine ih _ fun other ancestor member => ?_
      rw [ancestorsOf_upsert] at member
      split at member
      · rename_i same
        obtain ⟨predecessor, direct, member⟩ := List.mem_flatMap.mp member
        have first := mem_dependenciesOf direct
        rw [← show other = next from same] at first
        rcases List.mem_cons.mp member with rfl | indirect
        · exact Relation.TransGen.single first
        · exact Relation.TransGen.head first (sound predecessor ancestor indirect)
      · exact sound other ancestor member
  exact fold order Table.empty (fun _ _ member => nomatch member) taskId ancestor member

theorem mem_addWriter {other writer : String} (listed : writer ∈ ancestorsOf writers other) :
    writer ∈ ancestorsOf (addWriter writers repositoryId taskId) other := by
  unfold addWriter
  rw [ancestorsOf_upsert]
  split
  · rename_i same
    rw [show other = repositoryId from same] at listed
    exact List.mem_append_left _ listed
  · exact listed

theorem addWriter_mem (writers : AncestorTable) (repositoryId taskId : String) :
    taskId ∈ ancestorsOf (addWriter writers repositoryId taskId) repositoryId := by
  unfold addWriter
  rw [ancestorsOf_upsert]
  simp

theorem mem_addWriters {repositories : List String} {other writer : String}
    (listed : writer ∈ ancestorsOf writers other) :
    writer ∈ ancestorsOf (repositories.foldl (fun writers repositoryId =>
      addWriter writers repositoryId taskId) writers) other := by
  induction repositories generalizing writers with
  | nil => exact listed
  | cons repository repositories ih => exact ih (mem_addWriter listed)

theorem addWriters_mem {repositories : List String} (member : repositoryId ∈ repositories) :
    taskId ∈ ancestorsOf (repositories.foldl (fun writers repositoryId =>
      addWriter writers repositoryId taskId) writers) repositoryId := by
  induction repositories generalizing writers with
  | nil => cases member
  | cons repository repositories ih =>
    rcases List.mem_cons.mp member with rfl | later
    · rw [List.foldl_cons]
      exact mem_addWriters (addWriter_mem _ _ _)
    · exact ih later

theorem mem_writersOf {nodes : NodeTable} {node : TaskDagNode} (member : node ∈ nodes.rows)
    (writes : repositoryId ∈ node.task.writeSet) :
    node.taskId ∈ ancestorsOf (writersOf nodes) repositoryId := by
  have fold : ∀ (rows : List TaskDagNode) (writers : AncestorTable),
      node ∈ rows ∨ node.taskId ∈ ancestorsOf writers repositoryId →
      node.taskId ∈ ancestorsOf (rows.foldl (fun writers node =>
        node.task.writeSet.foldl (fun writers repositoryId =>
          addWriter writers repositoryId node.taskId) writers) writers) repositoryId := by
    intro rows
    induction rows with
    | nil => exact fun _ listed => listed.resolve_left (by simp)
    | cons row rows ih =>
      intro writers listed
      refine ih _ ?_
      rcases listed with inRows | listed
      · rcases List.mem_cons.mp inRows with rfl | later
        · exact Or.inr (addWriters_mem writes)
        · exact Or.inl later
      · exact Or.inr (mem_addWriters listed)
  exact fold nodes.rows Table.empty (Or.inl member)

theorem mem_pairs {items : List String} {a b : String} (different : a ≠ b) (first : a ∈ items)
    (second : b ∈ items) : (a, b) ∈ pairs items ∨ (b, a) ∈ pairs items := by
  induction items with
  | nil => cases first
  | cons item items ih =>
    simp only [pairs, List.mem_append, List.mem_map, Prod.mk.injEq]
    rcases List.mem_cons.mp first with rfl | earlier
    · rcases List.mem_cons.mp second with rfl | later
      · exact absurd rfl different
      · exact Or.inl (Or.inl ⟨b, later, rfl, rfl⟩)
    · rcases List.mem_cons.mp second with rfl | later
      · exact Or.inr (Or.inl ⟨a, earlier, rfl, rfl⟩)
      · exact (ih earlier later).imp Or.inr Or.inr

theorem ordered_of_conflictingWrites {order : List String}
    (none : conflictingWrites order (firstNodes dag) = []) {a b : String} (different : a ≠ b)
    (first : a ∈ ancestorsOf (writersOf (firstNodes dag)) repositoryId)
    (second : b ∈ ancestorsOf (writersOf (firstNodes dag)) repositoryId) :
    Relation.TransGen (DependsOn dag) a b ∨ Relation.TransGen (DependsOn dag) b a := by
  unfold ancestorsOf at first second
  cases found : (writersOf (firstNodes dag)).find? repositoryId with
  | none => simp [found] at first
  | some item =>
    simp only [found, Option.map_some] at first second
    have listed : item ∈ sortBy Prod.fst (writersOf (firstNodes dag)).rows :=
      mem_sortBy.mpr (Table.mem_of_find? found)
    have quiet := List.map_eq_nil_iff.mp (List.flatMap_eq_nil_iff.mp none item listed)
    have ordered : ∀ pair ∈ pairs (sortTexts item.2),
        Relation.TransGen (DependsOn dag) pair.1 pair.2 ∨
          Relation.TransGen (DependsOn dag) pair.2 pair.1 := by
      intro pair member
      have kept := List.filter_eq_nil_iff.mp quiet pair member
      simp only [Bool.not_eq_true', Bool.not_eq_false, Bool.or_eq_true, decide_eq_true_eq] at kept
      exact kept.imp (computeAncestors_sound order) (computeAncestors_sound order)
    rcases mem_pairs different (mem_sortTexts.mpr first) (mem_sortTexts.mpr second) with pair | pair
    · exact ordered _ pair
    · exact (ordered _ pair).symm

end Writers

section Valid

variable {dag : TaskDag} {states : List TaskPlanningState}
variable {state : TaskPlanningState}

theorem find?_stateMap (single : (states.map TaskPlanningState.taskId).Nodup)
    (member : state ∈ states) : (stateMap states).find? state.taskId = some state :=
  Table.find?_upsertAll_of_nodup single member

theorem mem_of_stateMap {taskId : String} (found : (stateMap states).find? taskId = some state) :
    state ∈ states ∧ state.taskId = taskId := by
  refine ⟨?_, Table.key_of_find? found⟩
  rcases Table.mem_of_find?_upsertAll found with member | stored
  · exact member
  · cases stored

theorem settled_of_validateTerminalDependencies
    (none : validateTerminalDependencies dag (firstNodes dag) states = [])
    (single : (states.map TaskPlanningState.taskId).Nodup)
    (known : ∀ node ∈ dag.nodes, ∀ predecessor ∈ node.task.dependencies,
      predecessor ∈ (firstNodes dag).keys)
    (member : state ∈ states) (started : state.outcome = .active ∨ state.outcome = .succeeded)
    {predecessor : String} (depends : DependsOn dag state.taskId predecessor) :
    ∃ earlier ∈ states, earlier.taskId = predecessor ∧ earlier.satisfied = true := by
  obtain ⟨node, listed, named, depends⟩ := depends
  have quiet := List.flatMap_eq_nil_iff.mp none node listed
  rw [named, find?_stateMap single member] at quiet
  simp only [if_pos started, List.map_eq_nil_iff, List.filter_eq_nil_iff] at quiet
  have kept := quiet predecessor depends
  simp only [known node listed predecessor depends, decide_true, Bool.true_and,
    Bool.not_eq_true', Bool.not_eq_false, Option.any_eq_true] at kept
  obtain ⟨earlier, found, satisfied⟩ := kept
  obtain ⟨inStates, here⟩ := mem_of_stateMap found
  exact ⟨earlier, inStates, here, satisfied⟩

theorem coherent_of_dagDiagnostics (none : dagDiagnostics dag (some states) = []) :
    Coherent dag states := by
  have sound := soundGraph_of_dagDiagnostics none
  simp only [dagDiagnostics, List.append_eq_nil_iff, Option.toList_some, List.flatMap_cons] at none
  obtain ⟨⟨_, conflicts⟩, ⟨stateless, terminal⟩, _⟩ := none
  have single : (states.map TaskPlanningState.taskId).Nodup := by
    simp only [stateDiagnostics, List.append_eq_nil_iff] at stateless
    exact (repeated_eq_nil (List.map_eq_nil_iff.mp stateless.1.1)).1
  have complete : (buildTopologicalOrder dag (firstNodes dag)).1.length =
      (firstNodes dag).rows.length := sound.order.length_eq.trans (List.length_map ..)
  rw [if_pos complete] at conflicts
  refine ⟨sound.distinct, single, sound.order, ?_, ?_⟩
  · intro first inFirst second inSecond different repositoryId writes writes'
    exact ordered_of_conflictingWrites conflicts different
      (mem_writersOf (Table.mem_of_find? (find?_firstNodes sound.distinct inFirst)) writes)
      (mem_writersOf (Table.mem_of_find? (find?_firstNodes sound.distinct inSecond)) writes')
  · intro state member started predecessor depends
    exact settled_of_validateTerminalDependencies terminal single
      (fun node listed predecessor depends => (sound.known node listed predecessor depends).1)
      member started depends

theorem states_cover (none : dagDiagnostics dag (some states) = []) {node : TaskDagNode}
    (member : node ∈ dag.nodes) : ∃ state ∈ states, state.taskId = node.taskId := by
  simp only [dagDiagnostics, List.append_eq_nil_iff, Option.toList_some, List.flatMap_cons,
    stateDiagnostics, List.map_eq_nil_iff] at none
  have covered := List.filter_eq_nil_iff.mp none.2.1.1.2 node.taskId (keys_firstNodes member)
  rw [decide_eq_true_eq, not_not] at covered
  exact List.mem_map.mp covered

theorem Coherent.prerequisites (coherent : Coherent dag states) {taskId : String}
    (direct : ∀ predecessor, DependsOn dag taskId predecessor →
      ∃ state ∈ states, state.taskId = predecessor ∧ state.satisfied = true)
    {predecessor : String} (depends : Relation.TransGen (DependsOn dag) taskId predecessor) :
    ∃ state ∈ states, state.taskId = predecessor ∧ state.satisfied = true := by
  induction depends with
  | single depends => exact direct _ depends
  | tail _ depends ih =>
    obtain ⟨state, member, rfl, satisfied⟩ := ih
    have succeeded : state.outcome = .succeeded := (of_decide_eq_true satisfied).1
    exact coherent.settled state member (Or.inr succeeded) _ depends

end Valid

def accountOf (dag : TaskDag) (taskId : String) : Option String :=
  ((nodeMap dag).find? taskId).bind TaskDagNode.accountId

/-- The runs that the snapshot leaves to an account; none for an account it does not show. -/
def freeRuns (accounts : List AccountCapacity) (accountId : String) : Nat :=
  ((accounts.find? fun account => account.accountId = accountId).map fun account =>
    account.maxConcurrentRuns - account.activeRuns).getD 0

def takenBy (dag : TaskDag) (taskIds : List String) (accountId : String) : Nat :=
  taskIds.countP fun taskId => decide (accountOf dag taskId = some accountId)

structure Eligible (snapshot : TaskWavePlanningSnapshot) (taskId : String) : Prop where
  known : ∃ node ∈ snapshot.dag.nodes, node.taskId = taskId
  fresh : ∃ state ∈ snapshot.tasks, state.taskId = taskId ∧ state.outcome = .notStarted
  direct : ∀ predecessor, DependsOn snapshot.dag taskId predecessor →
    ∃ state ∈ snapshot.tasks, state.taskId = predecessor ∧ state.satisfied = true

/-- What the loop over the order keeps, with `rest` still to consider. -/
structure Admitting (snapshot : TaskWavePlanningSnapshot) (rest : List String)
    (selection : Selection) : Prop where
  eligible : ∀ taskId ∈ selection.selectedTaskIds, Eligible snapshot taskId
  distinct : (selection.selectedTaskIds ++ rest).Nodup
  workers : selection.selectedTaskIds.length + selection.workerSlots =
    snapshot.maxConcurrentWorkers - snapshot.activeWorkers
  accounts : ∀ accountId, takenBy snapshot.dag selection.selectedTaskIds accountId +
    remainingOf selection accountId = freeRuns snapshot.accounts accountId

section Selection

variable {snapshot : TaskWavePlanningSnapshot} {selection : Selection} {node : TaskDagNode}

theorem satisfied_of_gateReasons {state : TaskPlanningState}
    (succeeded : state.outcome = .succeeded)
    (none : gateReasons state = []) : state.satisfied = true := by
  refine decide_eq_true ⟨succeeded, ?_, ?_, ?_⟩
  · cases gate : state.completionContract <;> simp [gateReasons, gate] at none ⊢
  · cases gate : state.integration <;> simp [gateReasons, gate] at none ⊢
  · cases gate : state.combinedVerification <;> simp [gateReasons, gate] at none ⊢

theorem satisfied_of_dependencyReasons {nodes : NodeTable} {states : List TaskPlanningState}
    (none : dependencyReasons nodes (stateMap states) node = []) {predecessor : String}
    (depends : predecessor ∈ node.task.dependencies) :
    ∃ state ∈ states, state.taskId = predecessor ∧ state.satisfied = true := by
  simp only [dependencyReasons] at none
  split at none
  · rename_i terminal
    exact absurd none terminal
  · have quiet :=
      List.flatMap_eq_nil_iff.mp (by_contra fun some => canonicalReasons_ne_nil some none)
      predecessor (mem_sortTexts.mpr depends)
    cases found : (stateMap states).find? predecessor with
    | none => simp [found] at quiet
    | some state =>
      simp only [found] at quiet
      obtain ⟨member, named⟩ := mem_of_stateMap found
      split at quiet
      · rename_i succeeded
        exact ⟨state, member, named, satisfied_of_gateReasons succeeded quiet⟩
      · cases quiet

theorem unblocked_dependencies (none : blockingReasons snapshot selection node = []) :
    dependencyReasons (nodeMap snapshot.dag) (stateMap snapshot.tasks) node = [] ∧
      capacityReasons snapshot selection node = [] := by
  have quiet := by_contra fun some => canonicalReasons_ne_nil some none
  simp only [List.append_eq_nil_iff] at quiet
  exact ⟨quiet.1.2, quiet.2⟩

theorem capacity_left (none : capacityReasons snapshot selection node = []) :
    0 < selection.workerSlots ∧
      ∀ accountId, node.accountId = some accountId → 0 < remainingOf selection accountId := by
  simp only [capacityReasons, List.append_eq_nil_iff] at none
  obtain ⟨⟨_, accounts⟩, slots⟩ := none
  constructor
  · by_contra exhausted
    simp [Nat.eq_zero_of_not_pos exhausted] at slots
  · intro accountId named
    rw [named] at accounts
    simp only [Option.toList_some, List.flatMap_cons, List.flatMap_nil] at accounts
    by_contra exhausted
    rw [if_pos (Nat.eq_zero_of_not_pos exhausted)] at accounts
    split at accounts <;> cases accounts

theorem remainingOf_selectTask (accountId : String) :
    remainingOf (selectTask selection node) accountId =
      if node.accountId = some accountId then remainingOf selection accountId - 1
      else remainingOf selection accountId := by
  cases account : node.accountId with
  | none => simp [remainingOf, selectTask, account]
  | some charged =>
    simp only [remainingOf, selectTask, account, Option.toList_some, List.foldl_cons,
      List.foldl_nil, Table.find?_upsert]
    by_cases same : accountId = charged
    · simp [same]
    · simp [same, Ne.symm same]

theorem takenBy_append (dag : TaskDag) (taskIds : List String) (taskId accountId : String) :
    takenBy dag (taskIds ++ [taskId]) accountId = takenBy dag taskIds accountId +
      if accountOf dag taskId = some accountId then 1 else 0 := by
  simp [takenBy]

variable {rest : List String} {taskId : String}

theorem Admitting.skip (admitting : Admitting snapshot (taskId :: rest) selection) :
    Admitting snapshot rest selection :=
  { admitting with
    distinct := admitting.distinct.sublist
      (List.Sublist.append_left (List.sublist_cons_self taskId rest) _) }

theorem Admitting.defer {classification : TaskWaveClassification}
    {reasons : List TaskWaveBlockingReason}
    (admitting : Admitting snapshot (taskId :: rest) selection) :
    Admitting snapshot rest (defer selection taskId classification reasons) :=
  { admitting.skip with }

theorem Admitting.select (admitting : Admitting snapshot (node.taskId :: rest) selection)
    (found : (nodeMap snapshot.dag).find? node.taskId = some node)
    (eligible : Eligible snapshot node.taskId) (slots : 0 < selection.workerSlots)
    (capacity : ∀ accountId, node.accountId = some accountId →
      0 < remainingOf selection accountId) :
    Admitting snapshot rest (selectTask selection node) where
  eligible := by
    intro taskId member
    rcases List.mem_append.mp member with earlier | here
    · exact admitting.eligible taskId earlier
    · rw [List.mem_singleton.mp here]
      exact eligible
  distinct := by
    change ((selection.selectedTaskIds ++ [node.taskId]) ++ rest).Nodup
    rw [List.append_assoc]
    exact admitting.distinct
  workers := by
    have workers := admitting.workers
    simp only [selectTask, List.length_append, List.length_singleton]
    omega
  accounts := by
    intro accountId
    have accounts := admitting.accounts accountId
    change takenBy snapshot.dag (selection.selectedTaskIds ++ [node.taskId]) accountId + _ = _
    rw [takenBy_append, remainingOf_selectTask,
      show accountOf snapshot.dag node.taskId = node.accountId by simp [accountOf, found]]
    split
    · rename_i charged
      have left := capacity accountId charged
      omega
    · exact accounts

theorem Admitting.consider (coherent : Coherent snapshot.dag snapshot.tasks)
    (admitting : Admitting snapshot (taskId :: rest) selection) :
    Admitting snapshot rest (considerTask snapshot selection taskId) := by
  unfold considerTask
  split
  · exact admitting.skip
  · rename_i node found
    obtain rfl := Table.key_of_find? found
    split_ifs with invalid settled blocked
    · exact admitting.defer
    · exact admitting.defer
    · exact admitting.defer
    · obtain ⟨dependencies, capacity⟩ := unblocked_dependencies (not_not.mp blocked)
      obtain ⟨slots, left⟩ := capacity_left capacity
      obtain ⟨state, held, fresh⟩ := Option.map_eq_some_iff.mp (not_not.mp settled)
      have listed : node ∈ snapshot.dag.nodes := by
        rcases Table.mem_of_find?_upsertAll found with member | stored
        · exact member
        · cases stored
      obtain ⟨member, named⟩ := mem_of_stateMap held
      refine admitting.select found
        ⟨⟨node, listed, rfl⟩, ⟨state, member, named, fresh⟩, ?_⟩ slots left
      rintro predecessor ⟨other, inNodes, same, depends⟩
      have own : other = node := by
        have stored := find?_nodeMap coherent.distinct inNodes
        rw [same, show (nodeMap snapshot.dag).find? node.taskId = some node from found] at stored
        exact (Option.some.inj stored).symm
      exact satisfied_of_dependencyReasons dependencies (own ▸ depends)

theorem Admitting.considerAll {order : List String}
    (coherent : Coherent snapshot.dag snapshot.tasks)
    (admitting : Admitting snapshot order selection) :
    Admitting snapshot [] (order.foldl (considerTask snapshot) selection) := by
  induction order generalizing selection with
  | nil => exact admitting
  | cons taskId order ih => exact ih (admitting.consider coherent)

theorem remainingOf_initial (distinct : (snapshot.accounts.map AccountCapacity.accountId).Nodup)
    (accountId : String) :
    remainingOf (initialSelection snapshot) accountId = freeRuns snapshot.accounts accountId := by
  have keys : ((snapshot.accounts.map fun account =>
      (account.accountId, account.maxConcurrentRuns - account.activeRuns)).map fun item => item.1) =
      snapshot.accounts.map AccountCapacity.accountId := by simp
  unfold remainingOf initialSelection freeRuns
  cases found : snapshot.accounts.find? fun account => account.accountId = accountId with
  | none =>
    have absent : accountId ∉ (snapshot.accounts.map fun account =>
        (account.accountId, account.maxConcurrentRuns - account.activeRuns)).map fun item =>
          item.1 := by
      simpa using found
    rw [Table.find?_upsertAll_of_not_mem absent]
    rfl
  | some account =>
    have named : account.accountId = accountId := by simpa using List.find?_some found
    let item := (account.accountId, account.maxConcurrentRuns - account.activeRuns)
    have stored : (Table.empty.upsertAll (snapshot.accounts.map fun account =>
        (account.accountId, account.maxConcurrentRuns - account.activeRuns)) :
        Table fun item : String × Nat => item.1).find? item.1 = some item :=
      Table.find?_upsertAll_of_nodup (keys ▸ distinct)
        (List.mem_map_of_mem (List.mem_of_find?_eq_some found))
    subst named
    rw [stored]
    rfl

end Selection

theorem planTaskWave_invalid {snapshot : TaskWavePlanningSnapshot}
    (invalid : (snapshotValidation snapshot).valid = false) :
    (planTaskWave snapshot).selectedTaskIds = [] := by
  have fold : ∀ (order : List String) (selection : Selection), selection.selectedTaskIds = [] →
      (order.foldl (considerTask snapshot) selection).selectedTaskIds = [] := by
    intro order
    induction order with
    | nil => exact fun _ none => none
    | cons taskId order ih =>
      intro selection none
      refine ih _ ?_
      unfold considerTask
      split
      · exact none
      · rw [if_pos invalid]
        exact none
  exact fold _ _ rfl

theorem planTaskWave_admitting {snapshot : TaskWavePlanningSnapshot}
    (valid : (snapshotValidation snapshot).valid = true) :
    Coherent snapshot.dag snapshot.tasks ∧ ∃ selection, Admitting snapshot [] selection ∧
      (planTaskWave snapshot).selectedTaskIds = selection.selectedTaskIds := by
  obtain ⟨base, resources⟩ := Bool.and_eq_true_iff.mp valid
  have quiet : dagDiagnostics snapshot.dag (some snapshot.tasks) = [] := List.isEmpty_iff.mp base
  have free : resourceDiagnostics snapshot = [] := List.isEmpty_iff.mp resources
  have coherent := coherent_of_dagDiagnostics quiet
  have distinct : (snapshot.accounts.map AccountCapacity.accountId).Nodup := by
    have none := (sortBy_perm TaskDagDiagnostic.code _).symm.trans (List.Perm.of_eq free)
    rw [List.perm_nil] at none
    simp only [List.append_eq_nil_iff] at none
    exact (repeated_eq_nil (List.map_eq_nil_iff.mp none.1.2)).1
  have order : (snapshotValidation snapshot).topologicalOrder =
      (buildTopologicalOrder snapshot.dag (firstNodes snapshot.dag)).1 := by
    simp [snapshotValidation, validateTaskDag, free, quiet]
  have start : Admitting snapshot (snapshotValidation snapshot).topologicalOrder
      (initialSelection snapshot) := by
    refine ⟨?_, ?_, Nat.zero_add _, ?_⟩
    · intro taskId member
      cases member
    · rw [order]
      exact coherent.order.nodup_iff.mpr (firstNodes snapshot.dag).distinct
    · intro accountId
      rw [remainingOf_initial distinct]
      exact Nat.zero_add _
  refine ⟨coherent, _, start.considerAll coherent, ?_⟩
  simp only [planTaskWave, valid, if_true]

/-- The tasks of a wave neither write what another of them or a running task writes, nor
start before what they depend on is done, nor take more capacity than there is. -/
structure ExclusiveWave (snapshot : TaskWavePlanningSnapshot) (selected : List String) : Prop where
  distinct : selected.Nodup
  apart : ∀ first ∈ snapshot.dag.nodes, ∀ second ∈ snapshot.dag.nodes,
    first.taskId ∈ selected → second.taskId ∈ selected → first.taskId ≠ second.taskId →
      List.Disjoint first.task.writeSet second.task.writeSet
  active : ∀ node ∈ snapshot.dag.nodes, node.taskId ∈ selected →
    ∀ other ∈ snapshot.dag.nodes, ∀ state ∈ snapshot.tasks, state.taskId = other.taskId →
      state.outcome = .active → List.Disjoint node.task.writeSet other.task.writeSet
  fresh : ∀ taskId ∈ selected,
    (∃ node ∈ snapshot.dag.nodes, node.taskId = taskId) ∧
    (∃ state ∈ snapshot.tasks, state.taskId = taskId) ∧
    ∀ state ∈ snapshot.tasks, state.taskId = taskId → state.outcome = .notStarted
  prerequisites : ∀ taskId ∈ selected, ∀ predecessor,
    Relation.TransGen (DependsOn snapshot.dag) taskId predecessor →
      ∃ state ∈ snapshot.tasks, state.taskId = predecessor ∧ state.outcome = .succeeded ∧
        state.completionContract = .passed ∧ state.integration = .passed ∧
        state.combinedVerification = .passed
  workers : selected.length ≤ snapshot.maxConcurrentWorkers - snapshot.activeWorkers
  accounts : ∀ accountId,
    takenBy snapshot.dag selected accountId ≤ freeRuns snapshot.accounts accountId

theorem exclusive_nil (snapshot : TaskWavePlanningSnapshot) : ExclusiveWave snapshot [] where
  distinct := List.nodup_nil
  apart := by simp
  active := by simp
  fresh := by simp
  prerequisites := by simp
  workers := Nat.zero_le _
  accounts := fun _ => Nat.zero_le _

section Exclusive

variable {dag : TaskDag} {states : List TaskPlanningState} {first second : TaskPlanningState}

theorem Coherent.same (coherent : Coherent dag states) (inFirst : first ∈ states)
    (inSecond : second ∈ states) (named : first.taskId = second.taskId) : first = second :=
  List.inj_on_of_nodup_map coherent.single inFirst inSecond named

theorem Coherent.unordered (coherent : Coherent dag states) (inSecond : second ∈ states)
    (unfinished : second.outcome ≠ .succeeded)
    (direct : ∀ predecessor, DependsOn dag first.taskId predecessor →
      ∃ state ∈ states, state.taskId = predecessor ∧ state.satisfied = true) :
    ¬ Relation.TransGen (DependsOn dag) first.taskId second.taskId := by
  intro depends
  obtain ⟨state, member, named, satisfied⟩ := coherent.prerequisites direct depends
  rw [coherent.same member inSecond named] at satisfied
  exact unfinished (of_decide_eq_true satisfied).1

theorem Coherent.disjoint
    (coherent : Coherent dag states) {node other : TaskDagNode} (inNodes : node ∈ dag.nodes)
    (otherIn : other ∈ dag.nodes) (different : node.taskId ≠ other.taskId)
    (unordered : ¬ Relation.TransGen (DependsOn dag) node.taskId other.taskId)
    (unordered' : ¬ Relation.TransGen (DependsOn dag) other.taskId node.taskId) :
    List.Disjoint node.task.writeSet other.task.writeSet := by
  intro repositoryId writes writes'
  exact (coherent.writers node inNodes other otherIn different repositoryId writes writes').elim
    unordered unordered'

end Exclusive

theorem wave_exclusive (snapshot : TaskWavePlanningSnapshot) :
    ExclusiveWave snapshot (planTaskWave snapshot).selectedTaskIds := by
  cases valid : (snapshotValidation snapshot).valid with
  | false =>
    rw [planTaskWave_invalid valid]
    exact exclusive_nil snapshot
  | true =>
    obtain ⟨coherent, selection, admitting, same⟩ := planTaskWave_admitting valid
    rw [same]
    refine ⟨?_, ?_, ?_, ?_, ?_, ?_, ?_⟩
    · have distinct := admitting.distinct
      rwa [List.append_nil] at distinct
    · intro first inFirst second inSecond chosen chosen' different
      have eligible := admitting.eligible _ chosen
      have eligible' := admitting.eligible _ chosen'
      obtain ⟨state, member, named, fresh⟩ := eligible.fresh
      obtain ⟨state', member', named', fresh'⟩ := eligible'.fresh
      refine coherent.disjoint inFirst inSecond different ?_ ?_
      · rw [← named, ← named']
        exact coherent.unordered member' (by simp [fresh']) (named ▸ eligible.direct)
      · rw [← named, ← named']
        exact coherent.unordered member (by simp [fresh]) (named' ▸ eligible'.direct)
    · intro node inNodes chosen other otherIn running held named active
      have eligible := admitting.eligible _ chosen
      obtain ⟨state, member, mine, fresh⟩ := eligible.fresh
      have different : node.taskId ≠ other.taskId := by
        intro together
        have one := coherent.same member held (mine.trans (together.trans named.symm))
        rw [one, active] at fresh
        cases fresh
      refine coherent.disjoint inNodes otherIn different ?_ ?_
      · rw [← mine, ← named]
        exact coherent.unordered held (by simp [active]) (mine ▸ eligible.direct)
      · rw [← mine, ← named]
        exact coherent.unordered member (by simp [fresh])
          (coherent.settled running held (Or.inl active))
    · intro taskId chosen
      have eligible := admitting.eligible _ chosen
      obtain ⟨state, member, mine, fresh⟩ := eligible.fresh
      refine ⟨eligible.known, ⟨state, member, mine⟩, ?_⟩
      intro other otherIn named
      rw [coherent.same otherIn member (named.trans mine.symm)]
      exact fresh
    · intro taskId chosen predecessor depends
      obtain ⟨state, member, named, satisfied⟩ :=
        coherent.prerequisites (admitting.eligible _ chosen).direct depends
      exact ⟨state, member, named, of_decide_eq_true satisfied⟩
    · have workers := admitting.workers
      omega
    · intro accountId
      have accounts := admitting.accounts accountId
      omega

end Heniek.WaveExclusivity
