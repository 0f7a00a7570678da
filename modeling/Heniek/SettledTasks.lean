import Heniek.LastingRows
import Heniek.Propagation

/-!
What an epic run never takes back. Whatever acts follow, a recorded task keeps a row, one that
has settled keeps its phase and the reason it is blocked for, none goes back to not having
started, and every dispatch stays as it was recorded.
-/

namespace Heniek.SettledTasks
open KeyedTable ScriptText RecoveryPolicy IntegrationStore TaskGraph WaveStore WaveScheduler
  EpicRuntime WaveSteps EpicSteps TaskLifecycles Propagation

section Rows

variable {row next : TaskLifecycleProjection}

/-- A row of a task and a later one, with propagation among what may come between them. -/
structure Outlives (row next : TaskLifecycleProjection) : Prop where
  key : (next.runId, next.taskId) = (row.runId, row.taskId)
  settled : row.phase ∈ settledPhases → next.phase = row.phase ∧ next.blockReason = row.blockReason
  fresh : next.phase = .notStarted → row.phase = .notStarted

theorem outlives_of_evolves (evolved : Evolves row next) : Outlives row next where
  key := evolved.key
  settled := fun settled => ⟨evolved.settled settled, evolved.reason⟩
  fresh := evolved.fresh

theorem Outlives.refl (row : TaskLifecycleProjection) : Outlives row row :=
  outlives_of_evolves (.refl row)

theorem Outlives.trans {last : TaskLifecycleProjection} (first : Outlives row next)
    (second : Outlives next last) : Outlives row last where
  key := second.key.trans first.key
  settled := by
    intro settled
    obtain ⟨phase, reason⟩ := first.settled settled
    obtain ⟨phase', reason'⟩ := second.settled (phase ▸ settled)
    exact ⟨phase'.trans phase, reason'.trans reason⟩
  fresh := fun fresh => first.fresh (second.fresh fresh)

theorem outlives_blockedTask (reason : TaskPropagationReason) (fresh : row.phase = .notStarted) :
    Outlives row (blockedTask row reason) := by
  refine ⟨rfl, fun settled => ?_, fun _ => fresh⟩
  rw [fresh] at settled
  exact absurd settled (by decide)

end Rows

/-- What the later of two worlds still has. -/
structure Keeps (w w' : EpicWorld) : Prop where
  tasks : Lasting Outlives w.tasks.rows w'.tasks.rows
  dispatches : ∀ dispatch ∈ w.dispatches.rows, dispatch ∈ w'.dispatches.rows

theorem Keeps.refl (w : EpicWorld) : Keeps w w := ⟨.refl .refl _, fun _ member => member⟩

theorem Keeps.trans {w w' last : EpicWorld} (first : Keeps w w') (second : Keeps w' last) :
    Keeps w last where
  tasks := first.tasks.trans .trans second.tasks
  dispatches := fun dispatch member => second.dispatches dispatch (first.dispatches dispatch member)

theorem lasting_of_evolve {tasks later : TaskTable} (evolved : TasksEvolve tasks later) :
    Lasting Outlives tasks.rows later.rows := by
  intro row member
  obtain ⟨next, there, evolves⟩ := evolved.kept row member
  exact ⟨next, there, outlives_of_evolves evolves⟩

section Steps

variable [Collation] {env : Environment} {suspended : Bool} {runId : String} {dag : TaskDag}
  {w w' : EpicWorld}

theorem blockAll_keeps :
    Keeps w (blockAll runId w (blockedTasks dag (projectionsOf w runId))) where
  tasks := by
    refine blockAll_keep (I := fun _ v => Lasting Outlives w.tasks.rows v.tasks.rows)
      (fun item listed => (mem_blockRound listed).1) blockedTasks_distinct ?_ (.refl .refl _)
    intro _ v item listed member kept
    refine kept.trans .trans (.upsert .refl fun row stored same => ?_)
    rw [Table.eq_of_key_eq stored member same]
    exact outlives_blockedTask item.2 (mem_blockRound listed).2.2
  dispatches := by
    rw [blockAll_frame.dispatches]
    exact fun _ member => member

theorem waveStep_dispatches (step : WaveStep env suspended runId dag w w') :
    ∀ dispatch ∈ w.dispatches.rows, dispatch ∈ w'.dispatches.rows := by
  cases step with
  | initialized db ok =>
    obtain ⟨tasks, _, rfl⟩ := initializeTasks_ok ok
    exact fun _ member => member
  | changed phase observation taskId change row db cause ok =>
    obtain ⟨tasks, leases, _, rfl⟩ := changePhase_ok ok
    exact fun _ member => member
  | propagated => exact blockAll_keeps.dispatches
  | dispatched input now dispatches accepted db sameRun sameDag unresolved made selected ok =>
    rcases dispatchWave_ok ok with rfl | ⟨_, _, dispatched, _⟩
    · exact fun _ member => member
    · exact dispatched.kept
  | _ => exact fun _ member => member

theorem waveStep_keeps (step : WaveStep env suspended runId dag w w') : Keeps w w' := by
  rcases waveStep_evolve step with ⟨evolved, _⟩ | rfl
  · exact ⟨lasting_of_evolve evolved, waveStep_dispatches step⟩
  · exact blockAll_keeps

variable [Sha256]

theorem epicStep_keeps (step : EpicStep env w w') : Keeps w w' := by
  cases step with
  | waved _ suspended runId graph active stepped => exact waveStep_keeps stepped
  | changed runId taskId change row db requested ok =>
    refine ⟨lasting_of_evolve (changePhase_evolve requested ok), ?_⟩
    obtain ⟨tasks, leases, _, rfl⟩ := changePhase_ok ok
    exact fun _ member => member
  | _ => exact ⟨.refl .refl _, fun _ member => member⟩

theorem epicReach_keeps (reached : EpicReach env w w') : Keeps w w' := by
  induction reached with
  | refl => exact .refl w
  | tail _ step ih => exact ih.trans (epicStep_keeps step)

/-- Tasks and dispatches outlive every further act. -/
theorem runs_keep (env : Environment) (before after : List Act) :
    Keeps (runActs env before) (runActs env (before ++ after)) := by
  unfold runActs
  rw [List.foldl_append]
  generalize before.foldl (perform env) start = w
  induction after generalizing w with
  | nil => exact .refl w
  | cons act after ih => exact (epicReach_keeps (perform_steps env w act)).trans (ih _)

end Steps

end Heniek.SettledTasks
