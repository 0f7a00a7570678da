import Heniek.IntegrationOrder
import Heniek.Propagation
import Heniek.WaveExclusivity
import Mathlib.Data.List.Chain

/-!
What propagation leaves for the planner. A task that it blocks has a path of dependencies
from a task that failed or was cancelled, as far as the reasons it inherits are such paths
themselves, and no task that still has not started is behind such a task. So the planner
never defers a task on account of a predecessor that ended badly.
-/

namespace Heniek.FailurePropagation
open KeyedTable ScriptText IntegrationStore TaskGraph DagValidation WavePlan WaveStore EpicStore
  WaveScheduler WaveSteps TaskLifecycles WaveExclusivity Propagation

def EndedBadly (tasks : TaskTable) (runId taskId : String) : Prop :=
  ∃ row, tasks.find? (runId, taskId) = some row ∧ (row.phase = .failed ∨ row.phase = .cancelled)

/-- The path runs from a task that ended badly over dependencies to the task. -/
structure Grounded (dag : TaskDag) (tasks : TaskTable) (runId taskId : String)
    (reason : TaskPropagationReason) : Prop where
  root : EndedBadly tasks runId reason.rootTaskId
  first : reason.path.head? = some reason.rootTaskId
  last : ∃ front, reason.path = front ++ [reason.immediateTaskId, taskId]
  chain : reason.path.IsChain fun earlier later => DependsOn dag later earlier

def Trusted (dag : TaskDag) (tasks : TaskTable) (runId taskId : String) : Prop :=
  ∀ row ∈ tasks.rows, row.runId = runId → Relation.TransGen (DependsOn dag) taskId row.taskId →
    ∀ reason, row.blockReason = some reason → Grounded dag tasks runId row.taskId reason

/-- `CHECK ((phase = 'blocked') = (block_reason_json IS NOT NULL))`. -/
def Reasoned (tasks : TaskTable) : Prop :=
  ∀ row ∈ tasks.rows, row.phase = .blocked ↔ row.blockReason ≠ none

inductive Became (dag : TaskDag) (tasks : TaskTable) (runId : String)
    (row : TaskLifecycleProjection) : TaskLifecycleProjection → Prop where
  | unchanged : Became dag tasks runId row row
  | blocked (reason : TaskPropagationReason) (sameRun : row.runId = runId)
      (fresh : row.phase = .notStarted)
      (grounded : Trusted dag tasks runId row.taskId →
        Grounded dag tasks runId row.taskId reason) :
      Became dag tasks runId row (blockedTask row reason)

def Advanced (dag : TaskDag) (runId : String) (tasks later : TaskTable) : Prop :=
  ∀ key, Option.Rel (Became dag tasks runId) (tasks.find? key) (later.find? key)

section Grounds

variable {dag : TaskDag} {tasks : TaskTable} {runId taskId predecessorId : String}
variable {reason : TaskPropagationReason}

theorem Trusted.behind (trusted : Trusted dag tasks runId taskId)
    (depends : DependsOn dag taskId predecessorId) : Trusted dag tasks runId predecessorId :=
  fun row member sameRun further => trusted row member sameRun (.head depends further)

theorem Grounded.not_mem (sound : SoundGraph dag)
    (grounded : Grounded dag tasks runId predecessorId reason)
    (depends : DependsOn dag taskId predecessorId) : taskId ∉ reason.path := by
  obtain ⟨front, path⟩ := grounded.last
  let rank := (buildTopologicalOrder dag (firstNodes dag)).1.idxOf
  have ordered : reason.path.Pairwise fun earlier later => rank earlier < rank later := by
    refine @List.IsChain.pairwise _ _ _ ⟨Nat.lt_trans⟩ ?_
    exact grounded.chain.imp fun _ _ => sound.rank
  have bounded : ∀ earlier ∈ reason.path, rank earlier ≤ rank predecessorId := by
    have split : reason.path = (front ++ [reason.immediateTaskId]) ++ [predecessorId] := by
      simp [path]
    rw [split, List.pairwise_append] at ordered
    intro earlier member
    rw [split] at member
    rcases List.mem_append.mp member with before | here
    · exact Nat.le_of_lt (ordered.2.2 earlier before predecessorId List.mem_cons_self)
    · rw [List.mem_singleton.mp here]
  intro member
  have back := bounded taskId member
  have further : rank predecessorId < rank taskId := sound.rank depends
  omega

theorem grounded_root (depends : DependsOn dag taskId predecessorId) (code : PropagationCode)
    (root : EndedBadly tasks runId predecessorId) : Grounded dag tasks runId taskId
      ⟨code, predecessorId, predecessorId, [predecessorId, taskId]⟩ where
  root := root
  first := rfl
  last := ⟨[], rfl⟩
  chain := by simpa using depends

theorem Grounded.inherit (sound : SoundGraph dag)
    (grounded : Grounded dag tasks runId predecessorId reason)
    (depends : DependsOn dag taskId predecessorId) :
    Grounded dag tasks runId taskId (inheritReason reason predecessorId taskId) := by
  have path : (inheritReason reason predecessorId taskId).path = reason.path ++ [taskId] :=
    if_neg (grounded.not_mem sound depends)
  obtain ⟨front, last⟩ := grounded.last
  refine ⟨grounded.root, ?_, ⟨front ++ [reason.immediateTaskId], ?_⟩, ?_⟩
  · rw [path, List.head?_append, grounded.first]
    rfl
  · rw [path, last]
    simp [inheritReason]
  · rw [path]
    refine List.isChain_append.mpr ⟨grounded.chain, List.isChain_singleton _, ?_⟩
    rw [last]
    simpa using depends

end Grounds

section Rounds

variable [Collation] {dag : TaskDag} {tasks : TaskTable} {runId : String} {w : EpicWorld}

omit [Collation] in
theorem Advanced.refl : Advanced dag runId tasks tasks := by
  intro key
  cases tasks.find? key with
  | none => exact .none
  | some row => exact .some .unchanged

omit [Collation] in
theorem Advanced.earlier {later : TaskTable} (advanced : Advanced dag runId tasks later)
    {row : TaskLifecycleProjection} (member : row ∈ later.rows) :
    ∃ origin, tasks.find? (row.runId, row.taskId) = some origin ∧
      Became dag tasks runId origin row := by
  have related := advanced (row.runId, row.taskId)
  rw [Table.find?_key member] at related
  cases found : tasks.find? (row.runId, row.taskId) with
  | none =>
    rw [found] at related
    cases related
  | some origin =>
    rw [found] at related
    cases related with
    | some became => exact ⟨origin, rfl, became⟩

variable {taskId : String}

omit [Collation] in
theorem EndedBadly.origin (advanced : Advanced dag runId tasks w.tasks)
    (ended : EndedBadly w.tasks runId taskId) : EndedBadly tasks runId taskId := by
  obtain ⟨row, found, phase⟩ := ended
  obtain ⟨origin, there, became⟩ := advanced.earlier (Table.mem_of_find? found)
  rw [Table.key_of_find? found] at there
  cases became with
  | unchanged => exact ⟨row, there, phase⟩
  | blocked => simp [blockedTask] at phase

omit [Collation] in
theorem find?_of_taskNamed {row : TaskLifecycleProjection}
    (named : taskNamed (projectionsOf w runId) taskId = some row) :
    w.tasks.find? (runId, taskId) = some row := by
  obtain ⟨stored, sameRun, sameTask⟩ := taskNamed_eq_some.mp named
  exact Table.find?_eq_some.mpr ⟨stored, Prod.ext sameRun sameTask⟩

theorem grounded_of_propagationReason (sound : SoundGraph dag)
    (advanced : Advanced dag runId tasks w.tasks) {fuel : Nat} {visiting : List String}
    {reason : TaskPropagationReason}
    (found : propagationReason (nodeMap dag)
      (projectionsOf w runId) fuel visiting taskId = some reason)
    (trusted : Trusted dag tasks runId taskId) : Grounded dag tasks runId taskId reason := by
  induction fuel generalizing visiting taskId reason with
  | zero => cases found
  | succ fuel ih =>
    obtain ⟨predecessorId, member, row, named, offered⟩ := offered_of_propagationReason found
    have depends := (dependsOn_iff sound).mp member
    cases offered with
    | root code ended =>
      have root : EndedBadly w.tasks runId predecessorId :=
        ⟨row, find?_of_taskNamed named, ended⟩
      exact grounded_root depends code (root.origin advanced)
    | stored inherited blocked held =>
      refine Grounded.inherit sound ?_ depends
      obtain ⟨stored, sameRun, rfl⟩ := taskNamed_eq_some.mp named
      obtain ⟨origin, there, became⟩ := advanced.earlier stored
      cases became with
      | unchanged =>
        exact trusted row (Table.mem_of_find? there) sameRun (.single depends) inherited held
      | blocked reason _ _ grounded =>
        cases held
        exact grounded (trusted.behind depends)
    | found inherited fresh behind =>
      exact (ih behind (trusted.behind depends)).inherit sound depends

omit [Collation] in
theorem Advanced.blockWorld (advanced : Advanced dag runId tasks w.tasks)
    {item : TaskLifecycleProjection × TaskPropagationReason} (member : item.1 ∈ w.tasks.rows)
    (sameRun : item.1.runId = runId) (fresh : item.1.phase = .notStarted)
    (grounded : Trusted dag tasks runId item.1.taskId →
      Grounded dag tasks runId item.1.taskId item.2) :
    Advanced dag runId tasks (WaveSteps.blockWorld runId w item).tasks := by
  obtain ⟨task, reason⟩ := item
  intro key
  change Option.Rel _ _ ((w.tasks.upsert (blockedTask task reason)).find? key)
  by_cases same : key = (task.runId, task.taskId)
  · subst same
    obtain ⟨origin, there, became⟩ := advanced.earlier member
    have stored : (w.tasks.upsert (blockedTask task reason)).find? (task.runId, task.taskId) =
        some (blockedTask task reason) :=
      Table.find?_upsert_self w.tasks (blockedTask task reason)
    rw [there, stored]
    cases became with
    | unchanged => exact .some (.blocked reason sameRun fresh grounded)
    | blocked => cases fresh
  · have kept : (w.tasks.upsert (blockedTask task reason)).find? key = w.tasks.find? key :=
      Table.find?_upsert_of_ne w.tasks same
    rw [kept]
    exact advanced key

theorem Advanced.blockRound (sound : SoundGraph dag) (advanced : Advanced dag runId tasks w.tasks) :
    Advanced dag runId tasks (Propagation.blockRound runId dag w).tasks := by
  refine blockAll_keep (I := fun _ v => Advanced dag runId tasks v.tasks)
    (fun item listed => (mem_blockRound listed).1) blockedTasks_distinct ?_ advanced
  intro _ v item listed member kept
  obtain ⟨_, sameRun, fresh⟩ := mem_blockRound listed
  refine kept.blockWorld member sameRun fresh fun trusted => ?_
  exact grounded_of_propagationReason sound advanced (mem_blockedTasks.mp listed).2.2 trusted

theorem advanced_propagated (sound : SoundGraph dag) :
    Advanced dag runId w.tasks (propagated runId dag w).tasks :=
  rounds_keep (I := fun v => Advanced dag runId w.tasks v.tasks)
    (fun _ advanced => advanced.blockRound sound) Advanced.refl

omit [Collation] in
theorem Reasoned.advanced {later : TaskTable} (reasoned : Reasoned tasks)
    (advanced : Advanced dag runId tasks later) : Reasoned later := by
  intro row member
  obtain ⟨origin, there, became⟩ := advanced.earlier member
  cases became with
  | unchanged => exact reasoned row (Table.mem_of_find? there)
  | blocked => simp [blockedTask]

end Rounds

/-- A task behind one that ended badly, with only blocked and waiting tasks in between. -/
inductive Doomed (dag : TaskDag) (tasks : TaskTable) (runId : String) : String → Prop where
  | direct {taskId predecessorId : String} (depends : DependsOn dag taskId predecessorId)
      (ended : EndedBadly tasks runId predecessorId) : Doomed dag tasks runId taskId
  | through {taskId predecessorId : String} {row : TaskLifecycleProjection}
      (depends : DependsOn dag taskId predecessorId)
      (found : tasks.find? (runId, predecessorId) = some row)
      (waiting : row.phase = .blocked ∨ row.phase = .notStarted)
      (doomed : Doomed dag tasks runId predecessorId) : Doomed dag tasks runId taskId

/-- No task that has not started waits for one that will not succeed. -/
def Quiet (dag : TaskDag) (tasks : TaskTable) (runId : String) : Prop :=
  ∀ row ∈ tasks.rows, row.runId = runId → row.phase = .notStarted →
    ∀ predecessor ∈ tasks.rows, predecessor.runId = runId →
      DependsOn dag row.taskId predecessor.taskId →
        predecessor.phase ∉ [.failed, .cancelled, .blocked]

section Settled

variable {dag : TaskDag} {tasks : TaskTable} {runId : String}

theorem quiet_of_blockedTasks [Collation] {w : EpicWorld} (sound : SoundGraph dag)
    (reasoned : Reasoned w.tasks) (empty : blockedTasks dag (projectionsOf w runId) = []) :
    Quiet dag w.tasks runId := by
  intro row member sameRun fresh predecessor stored otherRun depends bad
  have found : propagationReason (nodeMap dag) (projectionsOf w runId)
      ((nodeMap dag).rows.length + 1) [] row.taskId ≠ none := by
    rw [propagationReason_ne_none]
    refine ⟨List.not_mem_nil, predecessor.taskId, (dependsOn_iff sound).mpr depends, predecessor,
      taskNamed_eq_some.mpr ⟨stored, otherRun, rfl⟩, ?_⟩
    simp only [List.mem_cons, List.not_mem_nil, or_false] at bad
    rcases bad with failed | cancelled | blocked
    · exact Or.inl failed
    · exact Or.inr (Or.inl cancelled)
    · exact Or.inr (Or.inr (Or.inl ⟨blocked, (reasoned predecessor stored).mp blocked⟩))
  obtain ⟨reason, chosen⟩ := Option.ne_none_iff_exists'.mp found
  have listed : (row, reason) ∈ blockedTasks dag (projectionsOf w runId) :=
    mem_blockedTasks.mpr ⟨mem_projections.mpr ⟨member, sameRun⟩, fresh, chosen⟩
  rw [empty] at listed
  cases listed

theorem stored_of_find? {taskId : String} {row : TaskLifecycleProjection}
    (found : tasks.find? (runId, taskId) = some row) :
    row ∈ tasks.rows ∧ row.runId = runId ∧ row.taskId = taskId := by
  obtain ⟨member, same⟩ := Table.find?_eq_some.mp found
  exact ⟨member, Prod.mk.inj same⟩

theorem Quiet.not_doomed (quiet : Quiet dag tasks runId) {taskId : String}
    (doomed : Doomed dag tasks runId taskId) {row : TaskLifecycleProjection}
    (found : tasks.find? (runId, taskId) = some row) : row.phase ≠ .notStarted := by
  induction doomed generalizing row with
  | direct depends ended =>
    intro fresh
    obtain ⟨predecessor, there, phase⟩ := ended
    obtain ⟨member, sameRun, rfl⟩ := stored_of_find? found
    obtain ⟨stored, otherRun, rfl⟩ := stored_of_find? there
    refine quiet row member sameRun fresh predecessor stored otherRun depends ?_
    rcases phase with failed | cancelled
    · simp [failed]
    · simp [cancelled]
  | through depends there waiting _ ih =>
    intro fresh
    obtain ⟨member, sameRun, rfl⟩ := stored_of_find? found
    rcases waiting with blocked | notYet
    · obtain ⟨stored, otherRun, rfl⟩ := stored_of_find? there
      exact quiet row member sameRun fresh _ stored otherRun depends (by simp [blocked])
    · exact ih there notYet

end Settled

def terminalCodes : List TaskWaveBlockingCode :=
  [.predecessorFailed, .predecessorCancelled, .predecessorBlocked]

/-- The decision does not hold a predecessor's end against the task. -/
def Undeferred (decision : TaskWaveDecision) : Prop :=
  ∀ reason ∈ decision.blockingReasons, reason.code ∉ terminalCodes

section Planner

variable {dag : TaskDag} {tasks : TaskTable} {runId : String}
variable {nodes : NodeTable} {states : StateTable}
variable {reason : TaskWaveBlockingReason} {snapshot : TaskWavePlanningSnapshot}
  {selection : Selection}

theorem mem_of_canonicalReasons {values : List TaskWaveBlockingReason}
    (member : reason ∈ canonicalReasons values) : reason ∈ values :=
  Table.mem_of_mem_upsertAll (mem_sortBy.mp member)

theorem canonicalReasons_eq_nil {values : List TaskWaveBlockingReason} (none : values = []) :
    canonicalReasons values = [] := by
  rw [none]
  rfl

def QuietStates (nodes : NodeTable) (states : StateTable) : Prop :=
  ∀ taskId state, states.find? taskId = some state → state.outcome = .notStarted →
    ∀ predecessorId ∈ dependenciesOf nodes taskId, ∀ predecessor,
      states.find? predecessorId = some predecessor →
        predecessor.outcome ∉ [.failed, .cancelled, .blocked]

theorem QuietStates.terminalReasons (quiet : QuietStates nodes states) {fuel : Nat}
    {visiting : List String} {taskId : String} {state : TaskPlanningState}
    (found : states.find? taskId = some state) (fresh : state.outcome = .notStarted) :
    terminalReasons nodes states fuel visiting taskId = [] := by
  induction fuel generalizing visiting taskId state with
  | zero => rfl
  | succ fuel ih =>
    unfold WavePlan.terminalReasons
    split
    · rfl
    · refine canonicalReasons_eq_nil (List.flatMap_eq_nil_iff.mpr fun predecessorId depends => ?_)
      cases there : states.find? predecessorId with
      | none => rfl
      | some predecessor =>
        have calm := quiet taskId state found fresh predecessorId depends predecessor there
        cases outcome : predecessor.outcome <;> simp [outcome] at calm ⊢
        exact ih there outcome

theorem codes_gateReasons {predecessor : TaskPlanningState}
    (member : reason ∈ gateReasons predecessor) : reason.code ∉ terminalCodes := by
  unfold gateReasons at member
  simp only [List.mem_append] at member
  rcases member with (contract | integration) | verification
  · split at contract <;> simp_all [terminalCodes]
  · split at integration <;> simp_all [terminalCodes]
  · split at verification <;> simp_all [terminalCodes]

theorem codes_dependencyReasons {node : TaskDagNode}
    (empty : terminalReasons nodes states (nodes.rows.length + 1) [] node.taskId = [])
    (member : reason ∈ dependencyReasons nodes states node) : reason.code ∉ terminalCodes := by
  simp only [dependencyReasons, empty, ne_eq, not_true_eq_false] at member
  obtain ⟨predecessorId, _, offered⟩ := List.mem_flatMap.mp (mem_of_canonicalReasons member)
  split at offered
  · simp_all [terminalCodes]
  · split at offered
    · exact codes_gateReasons offered
    · simp_all [terminalCodes]

theorem codes_capacityReasons {node : TaskDagNode}
    (member : reason ∈ capacityReasons snapshot selection node) : reason.code ∉ terminalCodes := by
  simp only [capacityReasons, List.mem_append, List.mem_map, List.mem_flatMap] at member
  rcases member with ((profile | ⟨_, _, rfl⟩) | ⟨_, _, account⟩) | slots
  · split at profile <;> simp_all [terminalCodes]
  · simp [terminalCodes]
  · split_ifs at account <;> simp_all [terminalCodes]
  · split_ifs at slots <;> simp_all [terminalCodes]

theorem undeferred_blockingReasons {node : TaskDagNode}
    (empty : terminalReasons (nodeMap snapshot.dag) (stateMap snapshot.tasks)
      ((nodeMap snapshot.dag).rows.length + 1) [] node.taskId = [])
    (member : reason ∈ blockingReasons snapshot selection node) : reason.code ∉ terminalCodes := by
  have parts := mem_of_canonicalReasons member
  simp only [List.mem_append] at parts
  rcases parts with (pending | dependency) | capacity
  · split_ifs at pending <;> simp_all [terminalCodes]
  · exact codes_dependencyReasons empty dependency
  · exact codes_capacityReasons capacity

theorem undeferred_considerTask
    (quiet : QuietStates (nodeMap snapshot.dag) (stateMap snapshot.tasks))
    (undeferred : ∀ decision ∈ selection.decisions, Undeferred decision) (taskId : String) :
    ∀ decision ∈ (considerTask snapshot selection taskId).decisions, Undeferred decision := by
  have added : ∀ {decision : TaskWaveDecision}, Undeferred decision →
      ∀ other ∈ selection.decisions ++ [decision], Undeferred other := by
    intro decision new other member
    rcases List.mem_append.mp member with before | here
    · exact undeferred other before
    · rw [List.mem_singleton.mp here]
      exact new
  unfold considerTask
  split
  · exact undeferred
  · rename_i node found
    split_ifs with invalid started blocked
    · exact added (by simp [Undeferred, terminalCodes])
    · exact added (by simp [Undeferred, terminalCodes])
    · refine added fun reason listed => ?_
      have named : node.taskId = taskId := Table.key_of_find? found
      obtain ⟨state, there, fresh⟩ := Option.map_eq_some_iff.mp (not_not.mp started)
      rw [← named] at there
      exact undeferred_blockingReasons (quiet.terminalReasons there fresh) listed
    · exact added (by simp [Undeferred])

theorem undeferred_planTaskWave
    (quiet : QuietStates (nodeMap snapshot.dag) (stateMap snapshot.tasks)) :
    ∀ decision ∈ (planTaskWave snapshot).decisions, Undeferred decision := by
  have fold : ∀ (order : List String) (selection : Selection),
      (∀ decision ∈ selection.decisions, Undeferred decision) →
      ∀ decision ∈ (order.foldl (considerTask snapshot) selection).decisions,
        Undeferred decision := by
    intro order
    induction order with
    | nil => exact fun _ undeferred => undeferred
    | cons taskId order ih =>
      exact fun selection undeferred => ih _ (undeferred_considerTask quiet undeferred taskId)
  exact fold _ _ fun _ member => nomatch member

theorem Quiet.planningStates (sound : SoundGraph dag) (quiet : Quiet dag tasks runId) :
    QuietStates (nodeMap dag) (stateMap (WaveStore.planningStates tasks runId dag.taskIds)) := by
  have origin : ∀ {taskId state},
      (stateMap (WaveStore.planningStates tasks runId dag.taskIds)).find? taskId = some state →
        ∃ row ∈ tasks.rows, row.runId = runId ∧ row.taskId = taskId ∧
          state = planningState row := by
    intro taskId state found
    obtain ⟨member, rfl⟩ := mem_of_stateMap found
    simp only [WaveStore.planningStates, List.mem_map, List.mem_filter] at member
    obtain ⟨row, ⟨listed, _⟩, rfl⟩ := member
    obtain ⟨stored, sameRun⟩ := mem_projections.mp listed
    exact ⟨row, stored, sameRun, rfl, rfl⟩
  intro taskId state found fresh predecessorId depends predecessor there
  obtain ⟨row, member, sameRun, rfl, rfl⟩ := origin found
  obtain ⟨other, stored, otherRun, rfl, rfl⟩ := origin there
  have phase : row.phase = .notStarted := by
    cases phase : row.phase <;> simp [planningState, planningOutcome, phase] at fresh ⊢
  have calm := quiet row member sameRun phase other stored otherRun
    ((dependsOn_iff sound).mp depends)
  cases phase : other.phase <;> simp [planningState, planningOutcome, phase] at calm ⊢

end Planner

structure Agrees (dag : TaskDag) (runId : String) (w w' : EpicWorld) : Prop where
  advanced : Advanced dag runId w.tasks w'.tasks
  undoomed : ∀ row ∈ w'.tasks.rows, row.runId = runId → row.phase = .notStarted →
    ¬ Doomed dag w'.tasks runId row.taskId
  undeferred : ∀ snapshot : TaskWavePlanningSnapshot, snapshot.dag = dag →
    snapshot.tasks = planningStates w'.tasks runId dag.taskIds →
      ∀ decision ∈ (planTaskWave snapshot).decisions, Undeferred decision

/-- Propagation ends, whatever the number of rounds it may take. -/
theorem propagation_agrees [Collation] {runId : String} {dag : TaskDag} {w : EpicWorld}
    (valid : (validateTaskDag dag none).valid = true) (reasoned : Reasoned w.tasks) :
    ∃ w', propagate runId dag w = (.ok (), w') ∧
      (∀ fuel, (projectionsOf w runId).length < fuel →
        propagateRounds runId dag fuel w = (.ok (), w')) ∧
      Agrees dag runId w w' := by
  have sound : SoundGraph dag := soundGraph_of_dagDiagnostics (List.isEmpty_iff.mp valid)
  have advanced : Advanced dag runId w.tasks (propagated runId dag w).tasks :=
    advanced_propagated sound
  have quiet : Quiet dag (propagated runId dag w).tasks runId :=
    quiet_of_blockedTasks sound (reasoned.advanced advanced) propagated_settled
  refine ⟨propagated runId dag w, propagate_eq w, fun fuel enough => ?_, advanced, ?_, ?_⟩
  · rw [propagateRounds_eq, rounds_enough unstarted_lt enough]
    rfl
  · intro row member sameRun fresh doomed
    have found : (propagated runId dag w).tasks.find? (runId, row.taskId) = some row :=
      Table.find?_eq_some.mpr ⟨member, Prod.ext sameRun rfl⟩
    exact quiet.not_doomed doomed found fresh
  · intro snapshot sameDag sameTasks
    refine undeferred_planTaskWave ?_
    rw [sameDag, sameTasks]
    exact quiet.planningStates sound

section Samples

open IntegrationOrder EpicRuntime

def lineDag : TaskDag :=
  ⟨"graph", 1, [sampleNode "a" [], sampleNode "b" ["a"], sampleNode "c" ["b"]], ""⟩

def lineWorld (phase : TaskLifecyclePhase) : EpicWorld :=
  let task := freshTask "run" 1
  start.setWaves { start.waves with
    tasks := Table.empty.upsertAll [{ task "a" with phase := phase },
      blockedTask (task "b") ⟨.predecessorFailed, "a", "a", ["a", "b"]⟩, task "c"] }

theorem propagation_agrees_line :
    ((validateTaskDag lineDag none).valid = true ∧ Reasoned (lineWorld .failed).tasks) ∧
      ∃ w', @propagate plainCollation "run" lineDag (lineWorld .failed) = (.ok (), w') ∧
        (∀ fuel, (projectionsOf (lineWorld .failed) "run").length < fuel →
          @propagateRounds plainCollation "run" lineDag fuel (lineWorld .failed) = (.ok (), w')) ∧
        Agrees lineDag "run" (lineWorld .failed) w' := by
  have facts : (validateTaskDag lineDag none).valid = true ∧
      Reasoned (lineWorld .failed).tasks := by
    unfold Reasoned
    decide +kernel
  exact ⟨facts,
    @propagation_agrees plainCollation "run" lineDag (lineWorld .failed) facts.1 facts.2⟩

/-- The second task is still blocked on account of the first, which has succeeded since. -/
theorem stale_reason_inherited : ¬ ∀ [Collation] (runId : String) (dag : TaskDag) (w : EpicWorld),
    (validateTaskDag dag none).valid = true → Reasoned w.tasks →
      ∃ w', propagate runId dag w = (.ok (), w') ∧
        ∀ row ∈ w.tasks.rows, ∀ next ∈ w'.tasks.rows, row.phase ≠ .blocked →
          next.runId = row.runId → next.taskId = row.taskId → next.phase = .blocked →
            ∃ reason, next.blockReason = some reason ∧
              Grounded dag w.tasks runId row.taskId reason := by
  intro claim
  have facts : (validateTaskDag lineDag none).valid = true ∧
      Reasoned (lineWorld .succeeded).tasks := by
    unfold Reasoned
    decide +kernel
  have blocked : ∃ next ∈ (@propagated plainCollation "run" lineDag
      (lineWorld .succeeded)).tasks.rows, next = blockedTask (freshTask "run" 1 "c")
        ⟨.predecessorBlocked, "b", "a", ["a", "b", "c"]⟩ := by
    decide +kernel
  have fresh : freshTask "run" 1 "c" ∈ (lineWorld .succeeded).tasks.rows := by decide +kernel
  have root : ¬ ∃ row ∈ (lineWorld .succeeded).tasks.rows, row.taskId = "a" ∧
      (row.phase = .failed ∨ row.phase = .cancelled) := by
    decide +kernel
  obtain ⟨w', ran, holds⟩ := @claim plainCollation "run" lineDag (lineWorld .succeeded)
    facts.1 facts.2
  cases ran
  obtain ⟨next, member, rfl⟩ := blocked
  obtain ⟨reason, held, grounded⟩ := holds _ fresh _ member (by decide) rfl rfl rfl
  cases held
  obtain ⟨row, found, phase⟩ := grounded.root
  obtain ⟨stored, _, sameTask⟩ := stored_of_find? found
  exact root ⟨row, stored, sameTask, phase⟩

end Samples

end Heniek.FailurePropagation
