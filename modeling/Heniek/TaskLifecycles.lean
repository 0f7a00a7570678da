import Heniek.EpicSteps

/-!
What the steps of an epic run do to the lifecycle rows of its tasks. No row is removed,
a task that has settled stays as it is, and none goes back to not having started. Only a
round of propagation gives a row a reason for being blocked.
-/

namespace Heniek.TaskLifecycles
open KeyedTable ScriptText FallibleRun IntegrationStore IntegrationService TaskGraph WavePlan
  WaveStore WaveScheduler WaveSteps EpicSteps

def settledPhases : List TaskLifecyclePhase := [.succeeded, .failed, .cancelled, .blocked]

structure Evolves (row next : TaskLifecycleProjection) : Prop where
  key : (next.runId, next.taskId) = (row.runId, row.taskId)
  reason : next.blockReason = row.blockReason
  settled : row.phase ∈ settledPhases → next.phase = row.phase
  fresh : next.phase = .notStarted → row.phase = .notStarted

theorem Evolves.refl (row : TaskLifecycleProjection) : Evolves row row :=
  ⟨rfl, rfl, fun _ => rfl, fun fresh => fresh⟩

variable {row next : TaskLifecycleProjection} {tasks tasks' : TaskTable} {runId taskId : String}
  {change : PhaseChange}

theorem Evolves.trans {last : TaskLifecycleProjection} (first : Evolves row next)
    (second : Evolves next last) : Evolves row last where
  key := second.key.trans first.key
  reason := second.reason.trans first.reason
  settled := by
    intro settled
    have same := first.settled settled
    rw [second.settled (same ▸ settled), same]
  fresh := fun fresh => first.fresh (second.fresh fresh)

structure TasksEvolve (tasks later : TaskTable) : Prop where
  kept : ∀ row ∈ tasks.rows, ∃ next ∈ later.rows, Evolves row next
  origin : ∀ next ∈ later.rows, next.blockReason ≠ none → ∃ row ∈ tasks.rows, Evolves row next

theorem TasksEvolve.refl (tasks : TaskTable) : TasksEvolve tasks tasks :=
  ⟨fun row member => ⟨row, member, .refl row⟩, fun row member _ => ⟨row, member, .refl row⟩⟩

theorem TasksEvolve.of_eq {later : TaskTable} (same : later = tasks) : TasksEvolve tasks later := by
  rw [same]
  exact .refl tasks

theorem TasksEvolve.trans {later last : TaskTable} (first : TasksEvolve tasks later)
    (second : TasksEvolve later last) : TasksEvolve tasks last where
  kept := by
    intro row member
    obtain ⟨next, there, evolved⟩ := first.kept row member
    obtain ⟨final, stored, evolved'⟩ := second.kept next there
    exact ⟨final, stored, evolved.trans evolved'⟩
  origin := by
    intro final stored reasoned
    obtain ⟨next, there, evolved'⟩ := second.origin final stored reasoned
    obtain ⟨row, member, evolved⟩ := first.origin next there (evolved'.reason ▸ reasoned)
    exact ⟨row, member, evolved.trans evolved'⟩

theorem TasksEvolve.upsert (member : row ∈ tasks.rows) (evolved : Evolves row next) :
    TasksEvolve tasks (tasks.upsert next) where
  kept := by
    intro other there
    by_cases same : (other.runId, other.taskId) = (next.runId, next.taskId)
    · have equal := Table.eq_of_key_eq there member (same.trans evolved.key)
      exact ⟨next, Table.mem_upsert.mpr (Or.inl rfl), equal ▸ evolved⟩
    · exact ⟨other, Table.mem_upsert.mpr (Or.inr ⟨there, same⟩), .refl other⟩
  origin := by
    intro other there _
    rcases Table.mem_upsert.mp there with rfl | ⟨stored, _⟩
    · exact ⟨row, member, evolved⟩
    · exact ⟨other, stored, .refl other⟩

theorem TasksEvolve.added (absent : tasks.find? (next.runId, next.taskId) = none)
    (open' : next.blockReason = none) : TasksEvolve tasks (tasks.upsert next) where
  kept := by
    intro other there
    exact ⟨other, Table.mem_upsert_of_fresh (Table.find?_eq_none.mp absent) there, .refl other⟩
  origin := by
    intro other there reasoned
    rcases Table.mem_upsert.mp there with rfl | ⟨stored, _⟩
    · exact absurd open' reasoned
    · exact ⟨other, stored, .refl other⟩

theorem taskNamed_eq_some {w : EpicWorld} : taskNamed (projectionsOf w runId) taskId = some row ↔
      row ∈ w.tasks.rows ∧ row.runId = runId ∧ row.taskId = taskId := by
  constructor
  · intro named
    obtain ⟨stored, sameRun⟩ := mem_projections.mp (List.mem_of_find?_eq_some named)
    exact ⟨stored, sameRun, by simpa using List.find?_some named⟩
  · rintro ⟨stored, sameRun, sameTask⟩
    have listed : row ∈ projectionsOf w runId := mem_projections.mpr ⟨stored, sameRun⟩
    cases found : taskNamed (projectionsOf w runId) taskId with
    | none => exact absurd sameTask (by simpa using List.find?_eq_none.mp found row listed)
    | some other =>
      obtain ⟨there, otherRun⟩ := mem_projections.mp (List.mem_of_find?_eq_some found)
      have otherTask : other.taskId = taskId := by simpa using List.find?_some found
      have key : (other.runId, other.taskId) = (row.runId, row.taskId) :=
        Prod.ext (otherRun.trans sameRun.symm) (otherTask.trans sameTask.symm)
      rw [Table.eq_of_key_eq there stored key]

theorem initializeTask_ok {graphRevision : Nat}
    (ok : initializeTask runId graphRevision tasks taskId = .ok tasks') :
    (tasks.find? (runId, taskId) = none ∧
        tasks' = tasks.upsert (freshTask runId graphRevision taskId)) ∨
      ∃ row ∈ tasks.rows, row.runId = runId ∧ row.taskId = taskId ∧ (tasks' = tasks ∨
        row.phase = .notStarted ∧ tasks' = tasks.upsert { row with
          graphRevision := graphRevision
          revision := row.revision + 1 }) := by
  unfold initializeTask at ok
  split at ok
  · rename_i absent
    cases ok
    exact Or.inl ⟨absent, rfl⟩
  · rename_i row found
    have key := Table.key_of_find? found
    refine Or.inr ⟨row, Table.mem_of_find? found, congrArg Prod.fst key, congrArg Prod.snd key, ?_⟩
    split_ifs at ok with stale
    · cases ok
      exact Or.inr ⟨stale.1, rfl⟩
    · cases ok
      exact Or.inl rfl

theorem updatePhase_ok {origins : List TaskLifecyclePhase} {phase : TaskLifecyclePhase}
    {change : TaskLifecycleProjection → TaskLifecycleProjection}
    (ok : updatePhase tasks runId taskId origins phase change = .ok (next, tasks')) :
    tasks' = tasks ∨ ∃ row ∈ tasks.rows, row.runId = runId ∧ row.taskId = taskId ∧
      row.phase ∈ origins ∧
      tasks' = tasks.upsert { change row with phase := phase, revision := row.revision + 1 } := by
  unfold updatePhase at ok
  split at ok
  · cases ok
  · rename_i row found
    have key := Table.key_of_find? found
    split_ifs at ok with origin already
    · cases ok
      refine Or.inr ⟨row, Table.mem_of_find? found, ?_, ?_, origin, rfl⟩
      · exact congrArg Prod.fst key
      · exact congrArg Prod.snd key
    · cases ok
      exact Or.inl rfl

theorem setGates_ok {gates : IntegrationGates}
    (ok : setGates tasks runId taskId gates = .ok tasks') :
    ∃ row ∈ tasks.rows, row.runId = runId ∧ row.taskId = taskId ∧ row.phase = .succeeded ∧
      tasks' = tasks.upsert { row with
        completionContract := gates.completionContract
        integration := gates.integration
        combinedVerification := gates.combinedVerification
        revision := row.revision + 1 } := by
  unfold setGates at ok
  split at ok
  · cases ok
  · rename_i row found
    have key := Table.key_of_find? found
    split_ifs at ok with succeeded
    cases ok
    exact ⟨row, Table.mem_of_find? found, congrArg Prod.fst key, congrArg Prod.snd key, succeeded,
      rfl⟩

/-- No operation but a dispatch takes a task from where it has not started to where it runs. -/
theorem requested_running (requested : Requested change) : change.phase ≠ .notStarted ∧
      ∀ phase ∈ change.origins, phase ∉ settledPhases := by
  have targets : change = .cancelPending ∨ change = .markActive ∨ change = .markRetrying ∨
      change = .requestCancellation ∨ change = .markRecoveryRequired ∨
      change = .settle .succeeded ∨ change = .settle .failed ∨ change = .settle .cancelled := by
    rcases requested with pending | ⟨phase, observation, cause⟩
    · exact Or.inl pending
    · cases observation <;> simp only [statusChange] at cause <;>
        (try split_ifs at cause) <;> cases cause <;> simp
  rcases targets with rfl | rfl | rfl | rfl | rfl | rfl | rfl | rfl <;> decide

theorem evolves_moved (requested : Requested change) (origin : row.phase ∈ change.origins) :
    Evolves row { change.columns row with
      phase := change.phase
      revision := row.revision + 1 } := by
  obtain ⟨target, origins⟩ := requested_running requested
  have columns : (change.columns row).runId = row.runId ∧
      (change.columns row).taskId = row.taskId ∧
      (change.columns row).blockReason = row.blockReason := by
    cases change <;> exact ⟨rfl, rfl, rfl⟩
  refine ⟨?_, columns.2.2, ?_, fun fresh => absurd fresh target⟩
  · exact Prod.ext columns.1 columns.2.1
  · exact fun settled => absurd settled (origins _ origin)

theorem initializeTasks_evolve {db db' : WaveDatabase} {graphRevision : Nat} {taskIds : List String}
    (ok : initializeTasks db runId graphRevision taskIds = .ok db') :
    TasksEvolve db.tasks db'.tasks := by
  obtain ⟨tasks, folded, rfl⟩ := initializeTasks_ok ok
  refine foldlM_invariant (P := TasksEvolve db.tasks) ?_ (.refl db.tasks) folded
  intro taskId _ before after evolved ran
  refine evolved.trans ?_
  rcases initializeTask_ok ran with ⟨absent, rfl⟩ | ⟨row, member, _, _, rfl | ⟨fresh, rfl⟩⟩
  · exact .added absent rfl
  · exact .refl _
  · exact .upsert member ⟨rfl, rfl, fun _ => rfl, fun _ => fresh⟩

theorem changePhase_evolve {db db' : WaveDatabase} (requested : Requested change)
    (ok : changePhase db runId taskId change = .ok (row, db')) :
    TasksEvolve db.tasks db'.tasks := by
  obtain ⟨tasks, leases, updated, rfl⟩ := changePhase_ok ok
  rcases updatePhase_ok updated with same | ⟨row, member, _, _, origin, same⟩
  · exact .of_eq same
  · subst same
    exact .upsert member (evolves_moved requested origin)

theorem setGates_evolve {gates : IntegrationGates}
    (ok : setGates tasks runId taskId gates = .ok tasks') : TasksEvolve tasks tasks' := by
  obtain ⟨row, member, _, _, succeeded, rfl⟩ := setGates_ok ok
  exact .upsert member ⟨rfl, rfl, fun _ => rfl, fun fresh => fresh⟩

section Collated

variable [Collation]

theorem mem_canonical {values : List String} {value : String} :
    value ∈ canonical values ↔ value ∈ values := by
  simp [canonical, localeSort]

theorem dispatchWave_evolve {ids : Nat → String} {db db' : WaveDatabase} {plan : TaskWavePlan}
    {dispatches accepted : List TaskDispatchRecord} {limits : TaskCapacityLimits}
    (ok : dispatchWave ids db plan dispatches limits = .ok (accepted, db')) :
    TasksEvolve db.tasks db'.tasks := by
  unfold dispatchWave at ok
  split at ok
  · cases ok
    exact .refl _
  · obtain ⟨planned, recorded, folded⟩ := bind_eq_ok.mp ok
    refine foldlM_invariant (P := fun state : List TaskDispatchRecord × WaveDatabase =>
      TasksEvolve db.tasks state.2.tasks) ?_ ?_ folded
    · intro dispatch _ state state' evolved ran
      rcases dispatchTask_ok ran with same | ⟨row, found, fresh, dispatched⟩
      · rw [same]
        exact evolved
      · rw [(dispatchFresh_ok dispatched).1]
        refine evolved.trans (.upsert (Table.mem_of_find? found) ⟨rfl, rfl, ?_, nofun⟩)
        rw [fresh]
        exact fun settled => absurd settled (by decide)
    · exact .of_eq (recordPlan_ok recorded).1

omit [Collation] in
theorem integrationStep_evolve {driver : TaskIntegrationDriver} {order : List TaskDispatchRecord}
    {w w' : World} (step : IntegrationSteps.Step driver order w w') :
    TasksEvolve w.db.tasks w'.db.tasks := by
  cases step with
  | enqueued item entry db listed accepted =>
    rcases enqueue_ok accepted with ⟨_, rfl⟩ | ⟨_, _, rfl⟩ <;> exact .refl _
  | noted db tasks branches ledger => exact .of_eq tasks
  | transitioned entry input commit db member cause written =>
    have gated := (writeTransition_ok written).tasks
    unfold gatedTasks at gated
    split at gated
    · exact .of_eq (Except.ok.inj gated).symm
    · exact setGates_evolve gated
  | resolved entry moves db member waiting complete ledger branches tasks =>
    exact setGates_evolve tasks
  | _ => exact .refl _

theorem waveStep_evolve {env : Environment} {suspended : Bool} {runId : String} {dag : TaskDag}
    {w w' : EpicWorld} (step : WaveStep env suspended runId dag w w') :
    (TasksEvolve w.tasks w'.tasks ∧ w'.log = w.log) ∨
      w' = blockAll runId w (blockedTasks dag (projectionsOf w runId)) := by
  cases step with
  | initialized db ok => exact Or.inl ⟨initializeTasks_evolve ok, rfl⟩
  | changed phase observation taskId change row db cause ok =>
    exact Or.inl ⟨changePhase_evolve (Or.inr ⟨phase, observation, cause⟩) ok, rfl⟩
  | propagated => exact Or.inr rfl
  | dispatched input now dispatches accepted db sameRun sameDag unresolved made selected ok =>
    exact Or.inl ⟨dispatchWave_evolve ok, rfl⟩
  | integrated driver integration configured stepped =>
    exact Or.inl ⟨integrationStep_evolve stepped, rfl⟩
  | _ => exact Or.inl ⟨.refl _, rfl⟩

end Collated

end Heniek.TaskLifecycles
