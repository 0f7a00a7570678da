import Heniek.IntegrationOrder
import Heniek.Propagation

/-!
The tasks that depend on an interrupted one while its replan goes on. The scheduler
blocks them as soon as the interrupted task is cancelled, although the revision that
would give them another predecessor has yet to be submitted. They are left alone only
if none of them is waiting for an interrupted task in the first place.
-/

namespace Heniek.ReplannedDependants
open KeyedTable ScriptText FallibleRun RecoveryPolicy IntegrationStore IntegrationService
  TaskGraph DagValidation WaveStore EpicStore WaveScheduler EpicRuntime WaveSteps EpicSteps
  TaskLifecycles Propagation

section Propagation

variable [Collation] {nodes : NodeTable} {states : List TaskLifecycleProjection}

/-- A task that waits for a predecessor which did not succeed. -/
def WaitsFor (nodes : NodeTable) (states : List TaskLifecycleProjection) (taskId root : String) :
    Prop :=
  root ∈ dependenciesOf nodes taskId ∧ ∃ row, taskNamed states root = some row ∧
    (row.phase = .failed ∨ row.phase = .cancelled)

def RootFound (nodes : NodeTable) (states : List TaskLifecycleProjection) (taskId root : String) :
    Prop :=
  (∃ waiting, (waiting = taskId ∨ ∃ row, taskNamed states waiting = some row ∧
      row.phase = .notStarted) ∧ WaitsFor nodes states waiting root) ∨
    ∃ row ∈ states, ∃ reason, row.blockReason = some reason ∧ reason.rootTaskId = root

omit [Collation] in
theorem RootFound.inherit {taskId predecessorId root : String} {row : TaskLifecycleProjection}
    (named : taskNamed states predecessorId = some row) (fresh : row.phase = .notStarted)
    (found : RootFound nodes states predecessorId root) : RootFound nodes states taskId root := by
  rcases found with ⟨waiting, rfl | started, waits⟩ | blocked
  · exact Or.inl ⟨waiting, Or.inr ⟨row, named, fresh⟩, waits⟩
  · exact Or.inl ⟨waiting, Or.inr started, waits⟩
  · exact Or.inr blocked

theorem propagationReason_root {fuel : Nat} {visiting : List String} {taskId : String}
    {reason : TaskPropagationReason}
    (found : propagationReason nodes states fuel visiting taskId = some reason) :
    RootFound nodes states taskId reason.rootTaskId := by
  induction fuel generalizing visiting taskId reason with
  | zero => cases found
  | succ fuel ih =>
    obtain ⟨predecessorId, depends, row, named, offered⟩ := offered_of_propagationReason found
    cases offered with
    | root code ended => exact Or.inl ⟨taskId, Or.inl rfl, depends, row, named, ended⟩
    | stored inherited blocked held =>
      exact Or.inr ⟨row, List.mem_of_find?_eq_some named, inherited, held, rfl⟩
    | found inherited fresh behind => exact (ih behind).inherit named fresh

end Propagation

def RootsSettled (tasks : TaskTable) : Prop :=
  ∀ row ∈ tasks.rows, ∀ reason, row.blockReason = some reason →
    ∃ root ∈ tasks.rows, root.runId = row.runId ∧ root.taskId = reason.rootTaskId ∧
      (root.phase = .failed ∨ root.phase = .cancelled)

def Unblocked (tasks : TaskTable) (runId : String) (interrupted : List String) : Prop :=
  ∀ row ∈ tasks.rows, row.runId = runId → ∀ reason, row.blockReason = some reason →
    reason.rootTaskId ∉ interrupted

/-- No task that has not started depends on the given ones. -/
def Spared (dag : TaskDag) (tasks : TaskTable) (runId : String)
    (interrupted : List String) : Prop :=
  ∀ taskId, (∀ row ∈ tasks.rows, row.runId = runId → row.taskId = taskId →
      row.phase = .notStarted) →
    ∀ dependency ∈ dependenciesOf (nodeMap dag) taskId, dependency ∉ interrupted

variable {tasks later : TaskTable} {runId : String} {interrupted : List String}

theorem RootsSettled.evolve (settled : RootsSettled tasks) (evolved : TasksEvolve tasks later) :
    RootsSettled later := by
  intro next member reason reasoned
  obtain ⟨row, there, same⟩ := evolved.origin next member (by simp [reasoned])
  obtain ⟨root, stored, sameRun, named, phase⟩ := settled row there reason
    (same.reason.symm.trans reasoned)
  obtain ⟨root', stored', kept⟩ := evolved.kept root stored
  refine ⟨root', stored', ?_, ?_, ?_⟩
  · have run := congrArg Prod.fst kept.key
    have run' := congrArg Prod.fst same.key
    exact run.trans (sameRun.trans run'.symm)
  · exact (congrArg Prod.snd kept.key).trans named
  · have terminal : root.phase ∈ settledPhases := by rcases phase with h | h <;> rw [h] <;> decide
    rw [kept.settled terminal]
    exact phase

theorem Unblocked.evolve (unblocked : Unblocked tasks runId interrupted)
    (evolved : TasksEvolve tasks later) : Unblocked later runId interrupted := by
  intro next member sameRun reason reasoned
  obtain ⟨row, there, same⟩ := evolved.origin next member (by simp [reasoned])
  have run : row.runId = next.runId := (congrArg Prod.fst same.key).symm
  exact unblocked row there (run.trans sameRun) reason (same.reason.symm.trans reasoned)

theorem Spared.evolve {dag : TaskDag} (spared : Spared dag tasks runId interrupted)
    (kept : ∀ row ∈ tasks.rows, ∃ next ∈ later.rows, (next.runId, next.taskId) =
      (row.runId, row.taskId) ∧ (next.phase = .notStarted → row.phase = .notStarted)) :
    Spared dag later runId interrupted := by
  intro taskId fresh
  refine spared taskId fun row member sameRun sameTask => ?_
  obtain ⟨next, there, key, back⟩ := kept row member
  refine back (fresh next there ?_ ?_)
  · exact (congrArg Prod.fst key).trans sameRun
  · exact (congrArg Prod.snd key).trans sameTask

section Blocking

variable {tasks : TaskTable} {row : TaskLifecycleProjection} {reason : TaskPropagationReason}

theorem mem_blocked {other : TaskLifecycleProjection} :
    other ∈ (tasks.upsert (blockedTask row reason)).rows ↔ other = blockedTask row reason ∨
      other ∈ tasks.rows ∧ (other.runId, other.taskId) ≠ (row.runId, row.taskId) := Table.mem_upsert

theorem RootsSettled.block (settled : RootsSettled tasks) (member : row ∈ tasks.rows)
    (fresh : row.phase = .notStarted)
    (rooted : ∃ root ∈ tasks.rows, root.runId = row.runId ∧ root.taskId = reason.rootTaskId ∧
      (root.phase = .failed ∨ root.phase = .cancelled)) :
    RootsSettled (tasks.upsert (blockedTask row reason)) := by
  have stays : ∀ root ∈ tasks.rows, (root.phase = .failed ∨ root.phase = .cancelled) →
      root ∈ (tasks.upsert (blockedTask row reason)).rows := by
    intro root stored phase
    refine mem_blocked.mpr (Or.inr ⟨stored, fun same => ?_⟩)
    rw [Table.eq_of_key_eq stored member same, fresh] at phase
    simp at phase
  intro other there cause reasoned
  rcases mem_blocked.mp there with rfl | ⟨stored, _⟩
  · cases reasoned
    obtain ⟨root, inRows, sameRun, named, phase⟩ := rooted
    exact ⟨root, stays root inRows phase, sameRun, named, phase⟩
  · obtain ⟨root, inRows, sameRun, named, phase⟩ := settled other stored cause reasoned
    exact ⟨root, stays root inRows phase, sameRun, named, phase⟩

theorem Unblocked.block {runId : String} {interrupted : List String}
    (unblocked : Unblocked tasks runId interrupted)
    (spared : row.runId = runId → reason.rootTaskId ∉ interrupted) :
    Unblocked (tasks.upsert (blockedTask row reason)) runId interrupted := by
  intro other there sameRun cause reasoned
  rcases mem_blocked.mp there with rfl | ⟨stored, _⟩
  · cases reasoned
    exact spared sameRun
  · exact unblocked other stored sameRun cause reasoned

theorem Spared.block {dag : TaskDag} {runId : String} {interrupted : List String}
    (spared : Spared dag tasks runId interrupted) :
    Spared dag (tasks.upsert (blockedTask row reason)) runId interrupted := by
  refine spared.evolve fun other there => ?_
  by_cases same : (other.runId, other.taskId) = (row.runId, row.taskId)
  · exact ⟨_, mem_blocked.mpr (Or.inl rfl), same.symm, nofun⟩
  · exact ⟨other, mem_blocked.mpr (Or.inr ⟨there, same⟩), rfl, fun fresh => fresh⟩

end Blocking

def SparedBy (dag : TaskDag) (tasks : List TaskLifecycleProjection) (interrupted : List String) :
    Prop :=
  ∀ node ∈ dag.nodes, (∀ task ∈ tasks, task.taskId = node.taskId → task.phase = .notStarted) →
    ∀ dependency ∈ node.task.dependencies, dependency ∉ interrupted

instance (dag : TaskDag) (tasks : List TaskLifecycleProjection) (interrupted : List String) :
    Decidable (SparedBy dag tasks interrupted) := by
  unfold SparedBy
  infer_instance

/-- Where a replan begins, and where the graph changes under it, no task waits for an
interrupted one. -/
def SparesDependants : EpicEvent → Prop
  | .recorded replan graph tasks => SparedBy graph.dag tasks replan.interruptedTaskIds
  | .revised _ record tasks _ replan =>
    ∀ found ∈ replan, SparedBy record.dag tasks found.interruptedTaskIds
  | _ => True

/-- No task is blocked for a cancellation of the replan, and none has been at a submission. -/
def KeepsReplannable : EpicEvent → Prop
  | .blocked _ reason root replan => ∀ found ∈ replan, ¬ (
      reason.rootTaskId ∈ found.interruptedTaskIds ∧ ∃ row ∈ root, row.phase = .cancelled)
  | .submitted replan tasks => ∀ task ∈ tasks, ∀ reason ∈ task.blockReason,
      reason.rootTaskId ∉ replan.interruptedTaskIds
  | _ => True

theorem SparedBy.spared {w : EpicWorld} {dag : TaskDag}
    (spared : SparedBy dag (projectionsOf w runId) interrupted) :
    Spared dag w.tasks runId interrupted := by
  intro taskId fresh dependency depends
  unfold dependenciesOf at depends
  cases found : (nodeMap dag).find? taskId with
  | none =>
    rw [found] at depends
    cases depends
  | some node =>
    rw [found] at depends
    have named : node.taskId = taskId := Table.key_of_find? found
    rcases Table.mem_of_find?_upsertAll found with member | absent
    · refine spared node member ?_ dependency depends
      intro row listed same
      obtain ⟨stored, sameRun⟩ := mem_projections.mp listed
      exact fresh row stored sameRun (same.trans named)
    · cases absent

structure Replannable (w : EpicWorld) : Prop where
  roots : RootsSettled w.tasks
  single : ∀ replan ∈ w.replanning.replans.rows, ∀ other ∈ w.replanning.replans.rows,
    ongoing replan = true → ongoing other = true →
      replan.finding.runId = other.finding.runId → replan = other
  graphed : ∀ replan ∈ w.replanning.replans.rows,
    activeGraph w.graphs replan.finding.runId ≠ none
  unblocked : ∀ replan ∈ w.replanning.replans.rows, ongoing replan = true →
    Unblocked w.tasks replan.finding.runId replan.interruptedTaskIds
  spared : ∀ replan ∈ w.replanning.replans.rows, ongoing replan = true →
    ∀ graph, activeGraph w.graphs replan.finding.runId = some graph →
      Spared graph.dag w.tasks replan.finding.runId replan.interruptedTaskIds
  kept : ∀ event ∈ w.log, KeepsReplannable event

theorem replannable_start : Replannable start where
  roots := fun _ member => absurd member List.not_mem_nil
  single := fun _ member => absurd member List.not_mem_nil
  graphed := fun _ member => absurd member List.not_mem_nil
  unblocked := fun _ member => absurd member List.not_mem_nil
  spared := fun _ member => absurd member List.not_mem_nil
  kept := fun _ logged => absurd logged List.not_mem_nil

section Worlds

variable {w w' : EpicWorld}

theorem Replannable.evolve (replannable : Replannable w) (evolved : TasksEvolve w.tasks w'.tasks)
    (graphs : w'.graphs = w.graphs) (replanning : w'.replanning = w.replanning)
    (log : w'.log = w.log) : Replannable w' where
  roots := replannable.roots.evolve evolved
  single := by rw [replanning]; exact replannable.single
  graphed := by rw [replanning, graphs]; exact replannable.graphed
  unblocked := by
    rw [replanning]
    exact fun replan member going => (replannable.unblocked replan member going).evolve evolved
  spared := by
    rw [replanning, graphs]
    intro replan member going graph active
    refine (replannable.spared replan member going graph active).evolve fun row stored => ?_
    obtain ⟨next, there, same⟩ := evolved.kept row stored
    exact ⟨next, there, same.key, same.fresh⟩
  kept := by rw [log]; exact replannable.kept

theorem Replannable.logged (replannable : Replannable w) {events : List EpicEvent}
    (keeps : ∀ event ∈ events, KeepsReplannable event) :
    Replannable { w with log := w.log ++ events } where
  roots := replannable.roots
  single := replannable.single
  graphed := replannable.graphed
  unblocked := replannable.unblocked
  spared := replannable.spared
  kept := by
    intro event logged
    rcases List.mem_append.mp logged with before | new
    · exact replannable.kept event before
    · exact keeps event new

theorem Replannable.active (replannable : Replannable w) {replan : HiddenDependencyReplan}
    (member : replan ∈ w.replanning.replans.rows) (going : ongoing replan = true) :
    activeReplan w.replanning replan.finding.runId = some replan := by
  cases found : activeReplan w.replanning replan.finding.runId with
  | none =>
    have never := List.find?_eq_none.mp found replan member
    rw [going] at never
    simp at never
  | some other =>
    obtain ⟨stored, alsoGoing, sameRun⟩ := mem_activeReplan found
    rw [replannable.single other stored replan member alsoGoing going sameRun]

/-- A task that a round may block, with the reason it gives. -/
structure Blockable (w : EpicWorld) (runId : String)
    (item : TaskLifecycleProjection × TaskPropagationReason) : Prop where
  member : item.1 ∈ w.tasks.rows
  sameRun : item.1.runId = runId
  fresh : item.1.phase = .notStarted
  rooted : ∃ root ∈ w.tasks.rows, root.runId = runId ∧ root.taskId = item.2.rootTaskId ∧
    (root.phase = .failed ∨ root.phase = .cancelled)
  spared : ∀ replan ∈ w.replanning.replans.rows, ongoing replan = true →
    replan.finding.runId = runId → item.2.rootTaskId ∉ replan.interruptedTaskIds

variable {runId : String} {item other : TaskLifecycleProjection × TaskPropagationReason}

theorem Blockable.block (first : Blockable w runId item) (second : Blockable w runId other)
    (different : item.1.taskId ≠ other.1.taskId) :
      Blockable (blockWorld runId w item) runId other where
  member :=
    mem_blocked.mpr (Or.inr ⟨second.member, fun same => different (Prod.ext_iff.mp same).2.symm⟩)
  sameRun := second.sameRun
  fresh := second.fresh
  rooted := by
    obtain ⟨root, stored, sameRun, named, phase⟩ := second.rooted
    refine ⟨root, mem_blocked.mpr (Or.inr ⟨stored, fun same => ?_⟩), sameRun, named, phase⟩
    rw [Table.eq_of_key_eq stored first.member same, first.fresh] at phase
    simp at phase
  spared := second.spared

theorem Replannable.block (replannable : Replannable w) (blockable : Blockable w runId item) :
    Replannable (blockWorld runId w item) where
  roots := by
    refine replannable.roots.block blockable.member blockable.fresh ?_
    obtain ⟨root, stored, sameRun, named, phase⟩ := blockable.rooted
    exact ⟨root, stored, sameRun.trans blockable.sameRun.symm, named, phase⟩
  single := replannable.single
  graphed := replannable.graphed
  unblocked := by
    intro replan member going
    refine (replannable.unblocked replan member going).block fun sameRun => ?_
    exact blockable.spared replan member going (sameRun.symm.trans blockable.sameRun)
  spared := fun replan member going graph active =>
    (replannable.spared replan member going graph active).block
  kept := by
    intro event logged
    rcases List.mem_append.mp logged with before | new
    · exact replannable.kept event before
    · rw [List.mem_singleton.mp new]
      rintro found active ⟨named, _⟩
      obtain ⟨member, going, sameRun⟩ := mem_activeReplan active
      exact blockable.spared found member going sameRun named

theorem Replannable.blockAll {items : List (TaskLifecycleProjection × TaskPropagationReason)}
    (replannable : Replannable w) (blockable : ∀ item ∈ items, Blockable w runId item)
    (distinct : items.Pairwise fun left right => left.1.taskId ≠ right.1.taskId) :
    Replannable (WaveSteps.blockAll runId w items) := by
  induction items generalizing w with
  | nil => exact replannable
  | cons item items ih =>
    rw [List.pairwise_cons] at distinct
    have first := blockable item List.mem_cons_self
    refine ih (replannable.block first) (fun other member => ?_) distinct.2
    exact first.block (blockable other (List.mem_cons_of_mem item member))
      (distinct.1 other member)

end Worlds

section Steps

variable [Collation] {w : EpicWorld} {runId : String} {graph : TaskGraphRevisionRecord}
variable {item : TaskLifecycleProjection × TaskPropagationReason}

theorem Replannable.blockable (replannable : Replannable w)
    (active : activeGraph w.graphs runId = some graph)
    (listed : item ∈ blockedTasks graph.dag (projectionsOf w runId)) : Blockable w runId item := by
  obtain ⟨inStates, fresh, reasoned⟩ := mem_blockedTasks.mp listed
  obtain ⟨member, sameRun⟩ := mem_projections.mp inStates
  rcases propagationReason_root reasoned with ⟨waiting, early, depends, root, named, phase⟩ |
    ⟨row, there, reason, held, same⟩
  · obtain ⟨stored, rootRun, rootTask⟩ := taskNamed_eq_some.mp named
    refine ⟨member, sameRun, fresh, ⟨root, stored, rootRun, rootTask, phase⟩, ?_⟩
    rintro replan inRows going rfl
    refine replannable.spared replan inRows going graph active waiting ?_ _ depends
    intro row here rowRun rowTask
    rcases early with rfl | ⟨started, found, notYet⟩
    · have equal := Table.eq_of_key_eq here member (Prod.ext (rowRun.trans sameRun.symm) rowTask)
      rw [equal, fresh]
    · obtain ⟨startedStored, startedRun, startedTask⟩ := taskNamed_eq_some.mp found
      have equal := Table.eq_of_key_eq here startedStored
        (Prod.ext (rowRun.trans startedRun.symm) (rowTask.trans startedTask.symm))
      rw [equal, notYet]
  · obtain ⟨stored, rowRun⟩ := mem_projections.mp there
    obtain ⟨root, rootStored, rootRun, rootTask, phase⟩ := replannable.roots row stored reason held
    refine ⟨member, sameRun, fresh,
      ⟨root, rootStored, rootRun.trans rowRun, rootTask.trans same, phase⟩, ?_⟩
    rintro replan inRows going rfl
    rw [← same]
    exact replannable.unblocked replan inRows going row stored rowRun reason held

theorem Replannable.waveStep {w' : EpicWorld} {env : Environment} {suspended : Bool}
    (replannable : Replannable w) (active : activeGraph w.graphs runId = some graph)
    (step : WaveStep env suspended runId graph.dag w w') : Replannable w' := by
  obtain ⟨graphs, replanning⟩ := waveStep_frame step
  rcases waveStep_evolve step with ⟨evolved, log⟩ | rfl
  · exact replannable.evolve evolved graphs replanning log
  · exact replannable.blockAll (fun item listed => replannable.blockable active listed)
      blockedTasks_distinct

variable {graphs : GraphDatabase} {replanning : ReplanDatabase} {replan : HiddenDependencyReplan}

omit [Collation] in
theorem Replannable.regraph (replannable : Replannable w)
    (present : ∀ runId, activeGraph w.graphs runId ≠ none → activeGraph graphs runId ≠ none)
    (spared : ∀ replan ∈ w.replanning.replans.rows, ongoing replan = true → ∀ graph,
      activeGraph graphs replan.finding.runId = some graph →
        activeGraph w.graphs replan.finding.runId ≠ some graph →
          Spared graph.dag w.tasks replan.finding.runId replan.interruptedTaskIds) :
    Replannable { w with graphs := graphs } where
  roots := replannable.roots
  single := replannable.single
  graphed := fun replan member => present _ (replannable.graphed replan member)
  unblocked := replannable.unblocked
  spared := by
    intro replan member going graph active
    by_cases same : activeGraph w.graphs replan.finding.runId = some graph
    · exact replannable.spared replan member going graph same
    · exact spared replan member going graph active same
  kept := replannable.kept

omit [Collation] in
theorem Replannable.initialized (replannable : Replannable w)
    {record result : TaskGraphRevisionRecord}
    (ok : initializeGraph w.graphs record = .ok (result, graphs)) :
    Replannable { w with graphs := graphs } := by
  obtain ⟨_, absent, after⟩ := initializeGraph_ok ok
  refine replannable.regraph ?_ ?_
  · intro runId present
    rw [after]
    split_ifs
    · simp
    · exact present
  · intro replan member going graph active different
    rw [after] at active
    split_ifs at active with same
    · rw [← same] at absent
      exact absurd absent (replannable.graphed replan member)
    · exact absurd active different

omit [Collation] in
theorem Replannable.proposed [Sha256] (replannable : Replannable w)
    {input : ProposeTaskGraphRevisionInput} {outcome : RevisionOutcome}
    (ok : propose w.graphs input = .ok (outcome, graphs))
    (spares : ∀ event ∈ revisedEvent w input.proposal.runId outcome.2, SparesDependants event) :
    Replannable { w with
      graphs := graphs
      log := w.log ++ revisedEvent w input.proposal.runId outcome.2 } := by
  have harmless : ∀ event ∈ revisedEvent w input.proposal.runId outcome.2,
      KeepsReplannable event := by
    intro event logged
    unfold revisedEvent at logged
    split at logged
    · rw [List.mem_singleton.mp logged]
      trivial
    · cases logged
  refine Replannable.logged (w := { w with graphs := graphs }) ?_ harmless
  obtain ⟨current, active, ⟨_, same⟩ | ⟨record, accepted, follows, after⟩⟩ := propose_ok ok
  · refine replannable.regraph (fun runId present => by rw [same]; exact present) ?_
    intro replan _ _ graph found different
    rw [same] at found
    exact absurd found different
  · have event : revisedEvent w input.proposal.runId outcome.2 = [.revised current record
        (projectionsOf w input.proposal.runId) (dispatchesOf w.dispatches input.proposal.runId)
        (activeReplan w.replanning input.proposal.runId)] := by
      simp only [revisedEvent, active, accepted]
    rw [event] at spares
    have sparedBy := spares _ List.mem_cons_self
    have run : record.runId = input.proposal.runId :=
      follows.sameRun.trans (runId_of_activeGraph active)
    refine replannable.regraph ?_ ?_
    · intro runId present
      rw [after]
      split_ifs
      · simp
      · exact present
    · intro replan member going graph found different
      rw [after, run] at found
      split_ifs at found with same
      · cases found
        rw [← same] at sparedBy
        exact (sparedBy replan (replannable.active member going)).spared
      · exact absurd found different

omit [Collation] in
theorem Replannable.began (replannable : Replannable w)
    (present : activeGraph w.graphs replan.finding.runId ≠ none)
    (admissible : replanAdmissible w.replanning replan = true)
    (replans : replanning.replans = w.replanning.replans.upsert replan)
    (going : ongoing replan = true)
    (running : ∀ taskId ∈ replan.interruptedTaskIds, ∃ row ∈ w.tasks.rows,
      row.runId = replan.finding.runId ∧ row.taskId = taskId ∧ interruptible row.phase = true)
    (spared : ∀ graph, activeGraph w.graphs replan.finding.runId = some graph →
      Spared graph.dag w.tasks replan.finding.runId replan.interruptedTaskIds) :
    Replannable { w with replanning := replanning } := by
  have alone : ∀ other ∈ w.replanning.replans.rows, ongoing other = true →
      other.finding.runId ≠ replan.finding.runId := by
    intro other member otherGoing sameRun
    have refused := List.all_eq_true.mp admissible other member
    simp [otherGoing, going, sameRun] at refused
  have cases : ∀ other ∈ replanning.replans.rows,
      other = replan ∨ other ∈ w.replanning.replans.rows := by
    intro other member
    rw [replans] at member
    rcases Table.mem_upsert.mp member with new | ⟨old, _⟩
    · exact Or.inl new
    · exact Or.inr old
  refine ⟨replannable.roots, ?_, ?_, ?_, ?_, replannable.kept⟩
  · intro first member second member' firstGoing secondGoing sameRun
    rcases cases first member with rfl | old <;> rcases cases second member' with rfl | old'
    · rfl
    · exact absurd sameRun.symm (alone second old' secondGoing)
    · exact absurd sameRun (alone first old firstGoing)
    · exact replannable.single first old second old' firstGoing secondGoing sameRun
  · intro other member
    rcases cases other member with rfl | old
    · exact present
    · exact replannable.graphed other old
  · intro other member otherGoing
    rcases cases other member with rfl | old
    · intro row stored sameRun reason held interrupted
      obtain ⟨root, there, rootRun, rootTask, phase⟩ := replannable.roots row stored reason held
      obtain ⟨task, taskStored, taskRun, taskNamed, active⟩ := running _ interrupted
      have equal := Table.eq_of_key_eq there taskStored
        (Prod.ext ((rootRun.trans sameRun).trans taskRun.symm) (rootTask.trans taskNamed.symm))
      rw [← equal] at active
      rcases phase with failed | cancelled
      · simp [interruptible, failed] at active
      · simp [interruptible, cancelled] at active
    · exact replannable.unblocked other old otherGoing
  · intro other member otherGoing graph active
    rcases cases other member with rfl | old
    · exact spared graph active
    · exact replannable.spared other old otherGoing graph active

omit [Collation] in
theorem checkReport_running {active : TaskGraphRevisionRecord} {input : ReportHiddenDependencyInput}
    (checked : checkReport w active input = .ok ())
    (new : replanOfFinding w.replanning input.finding.findingId = none) :
    ∀ taskId ∈ input.trigger.interruptedTaskIds, ∃ row ∈ w.tasks.rows,
      row.runId = input.finding.runId ∧ row.taskId = taskId ∧ interruptible row.phase = true := by
  intro taskId listed
  obtain ⟨_, _, rest⟩ := bind_eq_ok.mp checked
  have unknown : (replansOf w.replanning input.finding.runId).any (fun replan =>
      decide (replan.finding.findingId = input.finding.findingId)) = false := by
    rw [List.any_eq_false]
    intro replan member same
    have stored : replan ∈ w.replanning.replans.rows :=
      (List.mem_filter.mp ((List.mem_insertionSort _).mp member)).1
    exact List.find?_eq_none.mp new replan stored same
  rw [unknown, if_neg Bool.false_ne_true] at rest
  have each := forM_ok rest taskId listed
  unfold checkInterrupted at each
  split at each
  · rename_i running
    obtain ⟨row, named, phase⟩ := (Option.any_eq_true _ _).mp running
    obtain ⟨stored, sameRun, sameTask⟩ := taskNamed_eq_some.mp named
    exact ⟨row, stored, sameRun, sameTask, phase⟩
  · cases each

omit [Collation] in
theorem Replannable.recorded (replannable : Replannable w) {active : TaskGraphRevisionRecord}
    {input : ReportHiddenDependencyInput}
    (current : activeGraph w.graphs input.finding.runId = some active)
    (checked : checkReport w active input = .ok ())
    (ok : record w.replanning (recordInput input) = .ok (replan, replanning))
    (spares : ∀ event ∈ recordedEvent w active replan, SparesDependants event) :
    Replannable { w with
      replanning := replanning
      log := w.log ++ recordedEvent w active replan } := by
  have harmless : ∀ event ∈ recordedEvent w active replan, KeepsReplannable event := by
    intro event logged
    unfold recordedEvent at logged
    split_ifs at logged
    · rw [List.mem_singleton.mp logged]
      trivial
    · cases logged
  refine Replannable.logged (w := { w with replanning := replanning }) ?_ harmless
  rcases record_ok ok with ⟨_, _, same⟩ | ⟨⟨cited, made⟩, new, admissible, _, replans⟩
  · refine ⟨replannable.roots, ?_, ?_, ?_, ?_, replannable.kept⟩
    · rw [same]
      exact replannable.single
    · rw [same]
      exact replannable.graphed
    · rw [same]
      exact replannable.unblocked
    · rw [same]
      exact replannable.spared
  · have finding : replan.finding = input.finding := by rw [made]; rfl
    have interrupted : replan.interruptedTaskIds = sortTexts input.trigger.interruptedTaskIds := by
      rw [made]
      rfl
    have going : ongoing replan = true := by rw [made]; rfl
    refine replannable.began ?_ admissible replans going ?_ ?_
    · rw [finding, current]
      simp
    · intro taskId listed
      rw [interrupted, mem_sortTexts] at listed
      rw [finding]
      exact checkReport_running checked new taskId listed
    · intro graph found
      have event : recordedEvent w active replan =
          [.recorded replan active (projectionsOf w replan.finding.runId)] := by
        rw [recordedEvent, finding]
        exact if_pos new
      rw [event] at spares
      rw [finding, current] at found
      cases found
      exact (spares _ List.mem_cons_self).spared

omit [Collation] in
theorem Replannable.advanced (replannable : Replannable w) {input : AdvanceReplanInput}
    (ok : advance w.replanning input = .ok (replan, replanning)) :
    Replannable { w with replanning := replanning } := by
  obtain ⟨current, moved⟩ := advance_ok ok
  rcases moved.moved with ⟨rfl, _⟩ | ⟨going, _, sameId, replans⟩
  · exact replannable
  · have stored := Table.mem_of_find? moved.found
    have cases : ∀ other ∈ replanning.replans.rows, other = replan ∨
        other ∈ w.replanning.replans.rows ∧ other.replanId ≠ current.replanId := by
      intro other member
      rw [replans] at member
      rcases Table.mem_upsert.mp member with new | ⟨old, different⟩
      · exact Or.inl new
      · exact Or.inr ⟨old, fun same => different (same.trans sameId.symm)⟩
    have apart : ∀ other ∈ w.replanning.replans.rows, other.replanId ≠ current.replanId →
        ongoing other = true → replan.finding.runId ≠ other.finding.runId := by
      intro other old different otherGoing sameRun
      rw [moved.finding] at sameRun
      exact different (replannable.single current stored other old going otherGoing sameRun ▸ rfl)
    refine ⟨replannable.roots, ?_, ?_, ?_, ?_, replannable.kept⟩
    · intro first member second member' firstGoing secondGoing sameRun
      rcases cases first member with rfl | ⟨old, different⟩ <;>
        rcases cases second member' with rfl | ⟨old', different'⟩
      · rfl
      · exact absurd sameRun (apart second old' different' secondGoing)
      · exact absurd sameRun.symm (apart first old different firstGoing)
      · exact replannable.single first old second old' firstGoing secondGoing sameRun
    · intro other member
      rcases cases other member with rfl | ⟨old, _⟩
      · rw [moved.finding]
        exact replannable.graphed current stored
      · exact replannable.graphed other old
    · intro other member otherGoing
      rcases cases other member with rfl | ⟨old, _⟩
      · rw [moved.finding, moved.interrupted]
        exact replannable.unblocked current stored going
      · exact replannable.unblocked other old otherGoing
    · intro other member otherGoing
      rcases cases other member with rfl | ⟨old, _⟩
      · rw [moved.finding, moved.interrupted]
        exact replannable.spared current stored going
      · exact replannable.spared other old otherGoing

theorem Replannable.epicStep [Sha256] {w' : EpicWorld} {env : Environment}
    (replannable : Replannable w) (step : EpicStep env w w')
    (spares : ∀ event ∈ w'.log, SparesDependants event) : Replannable w' := by
  cases step with
  | waved _ suspended runId graph active stepped => exact replannable.waveStep active stepped
  | changed runId taskId change row db requested ok =>
    exact replannable.evolve (changePhase_evolve requested ok) rfl rfl rfl
  | initialized input record result graphs created ok => exact replannable.initialized ok
  | proposed input outcome graphs ok =>
    exact replannable.proposed ok fun event new => spares event (List.mem_append_right _ new)
  | recorded active input replan replanning current checked ok =>
    exact replannable.recorded current checked ok fun event new =>
      spares event (List.mem_append_right _ new)
  | submitted replan member going =>
    refine replannable.logged fun event new => ?_
    rw [List.mem_singleton.mp new]
    intro task listed reason held
    obtain ⟨stored, sameRun⟩ := mem_projections.mp listed
    exact replannable.unblocked replan member going task stored sameRun reason held
  | advanced input replan replanning ok => exact replannable.advanced ok
  | _ => exact replannable.evolve (.refl _) rfl rfl rfl

/-- If no task is waiting for an interrupted one where a replan begins or the graph changes
under it, no task is blocked for the sake of the replan. -/
theorem dependants_replannable [Sha256] (env : Environment) (acts : List EpicRuntime.Act)
    (spares : ∀ event ∈ (runActs env acts).log, SparesDependants event) :
    ∀ event ∈ (runActs env acts).log, KeepsReplannable event := by
  have run : (∀ event ∈ (runActs env acts).log, SparesDependants event) →
      Replannable (runActs env acts) := by
    refine runActs_invariant (P := fun w => (∀ event ∈ w.log, SparesDependants event) →
      Replannable w) ?_ (fun _ => replannable_start) acts
    intro w w' step holds later
    exact (holds fun event logged =>
      later event (epicStep_log step event logged)).epicStep step later
  exact (run spares).kept

end Steps

section Samples

open IntegrationOrder

instance (event : EpicEvent) : Decidable (SparesDependants event) := by
  cases event <;> unfold SparesDependants <;> infer_instance

instance (event : EpicEvent) : Decidable (KeepsReplannable event) := by
  cases event <;> unfold KeepsReplannable <;> infer_instance

theorem dependants_replannable_sample :
    ((sampleRun "b" "a").log.any revised = true ∧
      ∀ event ∈ (sampleRun "b" "a").log, SparesDependants event) ∧
      ∀ event ∈ (sampleRun "b" "a").log, KeepsReplannable event := by
  have facts : (sampleRun "b" "a").log.any revised = true ∧
      ∀ event ∈ (sampleRun "b" "a").log, SparesDependants event := by
    decide +kernel
  exact ⟨facts, @dependants_replannable plainCollation openingDigest (sampleEnvironment "a")
    (sampleActs "b" "a") facts.2⟩

/-- The third task is to wait for the replacement of the first. -/
def dependantActs : List EpicRuntime.Act :=
  [.initialized (sampleGraph [sampleNode "a" [], sampleNode "b" [], sampleNode "c" ["a"]] "b"),
    .tick sampleTick,
    .reported (sampleReport "a" "b"
      [sampleNode "b" [], sampleNode "c" ["next"], sampleNode "next" ["b"]]),
    .tick sampleTick]

def dependantRun : EpicWorld :=
  @runActs openingDigest plainCollation (sampleEnvironment "b") dependantActs

/-- It is blocked before the revision is submitted. -/
theorem dependants_blocked : ¬ ∀ [Sha256] [Collation] (env : Environment)
    (acts : List EpicRuntime.Act), ∀ event ∈ (runActs env acts).log, KeepsReplannable event := by
  intro claim
  have broken : ¬ ∀ event ∈ dependantRun.log, KeepsReplannable event := by decide +kernel
  exact broken (@claim openingDigest plainCollation (sampleEnvironment "b") dependantActs)

end Samples

end Heniek.ReplannedDependants
