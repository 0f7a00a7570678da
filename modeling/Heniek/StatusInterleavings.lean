import Heniek.CapacityLeases
import Heniek.IntegrationOrder

/-!
The wave scheduler between its awaits. A call of the service is cut where it waits for
the pipeline driver: what it does up to there is one act, what it waits for is kept with
the row it has read, and the answer is an act of its own. The acts of several calls
follow each other in any order, so a row may have changed when its status comes in.
The order of the acts of one call is left open, as are the plans and the gates.
-/

namespace Heniek.StatusInterleavings
open KeyedTable ScriptText FallibleRun IntegrationStore TaskGraph WavePlan WaveStore WaveScheduler
  CapacityLeases

/-- What a call waits for: a status that may be missing, a start, or a status to apply. -/
inductive Awaited where
  | observing (task : TaskLifecycleProjection)
  | restarting (task : TaskLifecycleProjection)
  | starting (dispatch : TaskDispatchRecord)
  | applying (task : TaskLifecycleProjection)
  deriving DecidableEq

structure Service where
  db : WaveDatabase
  awaited : List Awaited

/-- The driver has started a child run, has told its status, or has thrown. -/
inductive Reply where
  | started
  | observed (observation : TaskPipelineStatus)
  | failed
  deriving DecidableEq

inductive Act where
  | reconciled (runId : String) (graphRevision : Nat) (taskIds : List String)
  | propagated (runId taskId : String) (reason : TaskPropagationReason)
  | integrated (runId taskId : String) (gates : IntegrationGates)
  | dispatched (ids : Nat → String) (plan : TaskWavePlan) (dispatches : List TaskDispatchRecord)
      (limits : TaskCapacityLimits)
  | ticked (runId : String)
  | cancelled (runId taskId : String)
  | answered (index : Nat) (reply : Reply)

def idle : Service := ⟨emptyDatabase, []⟩

/-- `applyDriverStatus`, on the row that was read before the status was asked for. -/
def applyStatus (db : WaveDatabase) (task : TaskLifecycleProjection)
    (observation : TaskPipelineStatus) : WaveResult WaveDatabase :=
  match statusChange task.phase observation with
  | none => .ok db
  | some change => (changePhase db task.runId task.taskId change).map Prod.snd

def observedTasks (db : WaveDatabase) (runId : String) : List TaskLifecycleProjection :=
  (projections db.tasks runId).filter fun task =>
    decide (task.phase ∈ runningPhases ∧ task.childRunId ≠ none)

def runnableTasks (db : WaveDatabase) (runId : String) : List TaskLifecycleProjection :=
  (projections db.tasks runId).filter fun task =>
    decide (task.childRunId ≠ none ∧
      (task.phase = .active ∨ task.phase = .retrying ∨ task.phase = .cancelling))

def restarts (task : TaskLifecycleProjection) (observation : TaskPipelineStatus) : Bool :=
  decide (observation = .missing ∧ task.phase = .dispatching)

def restart (db : WaveDatabase) (task : TaskLifecycleProjection) :
    WaveResult (List Awaited × WaveDatabase) :=
  if (dispatchesOf db.dispatches task.runId).any fun dispatch => dispatch.taskId = task.taskId then
    .ok ([.restarting task], db)
  else
    (changePhase db task.runId task.taskId .markRecoveryRequired).map fun result => ([], result.2)

/-- What a call does from an answer to the next await. -/
def resume (db : WaveDatabase) : Awaited → Reply → WaveResult (List Awaited × WaveDatabase)
  | .observing task, .observed observation =>
    if restarts task observation then restart db task
    else (applyStatus db task observation).map fun db => ([], db)
  | .restarting task, .started => .ok ([.applying task], db)
  | .starting dispatch, .started =>
    match taskNamed (projections db.tasks dispatch.runId) dispatch.taskId with
    | none => .ok ([], db)
    | some task => .ok ([.applying task], db)
  | .applying task, .observed observation =>
    (applyStatus db task observation).map fun db => ([], db)
  | _, _ => .ok ([], db)

/-- What `cancel` does before it calls the driver. -/
def cancelTask (db : WaveDatabase) (runId taskId : String) : WaveResult WaveDatabase :=
  match taskNamed (projections db.tasks runId) taskId with
  | none => .error (.unknownTask runId taskId)
  | some task =>
    match task.phase with
    | .notStarted => (cancelPending db runId taskId).map Prod.snd
    | .dispatching | .active | .retrying => (requestCancellation db runId taskId).map Prod.snd
    | _ => .ok db

section Collated

variable [Collation]

def attempt (service : Service) : Act → WaveResult (List Awaited × WaveDatabase)
  | .reconciled runId graphRevision taskIds =>
    (initializeTasks service.db runId graphRevision taskIds).map fun db =>
      ((observedTasks db runId).map .observing, db)
  | .propagated runId taskId reason =>
    (block service.db runId taskId reason).map fun result => ([], result.2)
  | .integrated runId taskId gates =>
    match setGates service.db.tasks runId taskId gates with
    | .error _ => .ok ([], service.db)
    | .ok tasks => .ok ([], { service.db with tasks := tasks })
  | .dispatched ids plan dispatches limits =>
    (dispatchWave ids service.db plan dispatches limits).map fun result =>
      (result.1.map .starting, result.2)
  | .ticked runId => .ok ((runnableTasks service.db runId).map .applying, service.db)
  | .cancelled runId taskId => (cancelTask service.db runId taskId).map fun db => ([], db)
  | .answered index reply =>
    match service.awaited[index]? with
    | none => .ok ([], service.db)
    | some awaited => resume service.db awaited reply

def waiting (service : Service) : Act → List Awaited
  | .answered index _ => service.awaited.eraseIdx index
  | _ => service.awaited

/-- An act that fails ends its call and leaves the database alone. -/
def serve (service : Service) (act : Act) : Service :=
  match attempt service act with
  | .error _ => ⟨service.db, waiting service act⟩
  | .ok (awaited, db) => ⟨db, waiting service act ++ awaited⟩

def serveAll (acts : List Act) : Service := acts.foldl serve idle

end Collated

/-- The row that was read and the status that has come in for it. -/
def applied (service : Service) : Act → Option (TaskLifecycleProjection × TaskPipelineStatus)
  | .answered index (.observed observation) =>
    match service.awaited[index]? with
    | some (.observing task) => if restarts task observation then none else some (task, observation)
    | some (.applying task) => some (task, observation)
    | _ => none
  | _ => none

/-- Whether a row in phase `now`, read when it was in phase `read`, can take the status. -/
def fits (read now : TaskLifecyclePhase) : TaskPipelineStatus → Bool
  | .missing => decide (read = .dispatching ∨ read = .recoveryRequired ∨ now ∈ runningPhases)
  | .queued | .running | .waitingOnUser =>
    decide (read ≠ .dispatching ∧ read ≠ .retrying ∨
      now = .dispatching ∨ now = .active ∨ now = .retrying)
  | .retrying _ => decide (read = .retrying ∨ now = .active ∨ now = .retrying)
  | .cancelling =>
    decide (read = .cancelling ∨ now = .dispatching ∨ now = .active ∨ now = .retrying ∨
      now = .cancelling)
  | .recoveryRequired => decide (read = .recoveryRequired ∨ now ∈ runningPhases)
  | .succeeded => decide (now ∈ runningPhases ∨ now = .succeeded)
  | .failed => decide (now ∈ runningPhases ∨ now = .failed)
  | .cancelled => decide (now ∈ runningPhases ∨ now = .cancelled)

/-- The stored row of the task can take the status that the act applies, if it applies one. -/
def Fits (service : Service) (act : Act) : Prop :=
  ∀ task observation, applied service act = some (task, observation) →
    ∀ row, service.db.tasks.find? (task.runId, task.taskId) = some row →
      fits task.phase row.phase observation = true

def Accepts (service : Service) (act : Act) : Prop :=
  ∀ task observation, applied service act = some (task, observation) →
    ∃ db, applyStatus service.db task observation = .ok db

def Throughout [Collation] (P : Service → Act → Prop) (acts : List Act) : Prop :=
  ∀ earlier act later, acts = earlier ++ act :: later → P (serveAll earlier) act

variable {db db' : WaveDatabase} {runId taskId : String} {change : PhaseChange}
  {row task : TaskLifecycleProjection} {observation : TaskPipelineStatus} {tasks : TaskTable}

theorem changePhase_accepted (found : db.tasks.find? (runId, taskId) = some row) :
    (∃ result, changePhase db runId taskId change = .ok result) ↔
      row.phase ∈ change.origins ∨ row.phase = change.phase := by
  constructor
  · rintro ⟨⟨next, db'⟩, ok⟩
    obtain ⟨tasks, leases, updated, _⟩ := changePhase_ok ok
    simp only [updatePhase, found] at updated
    split_ifs at updated with origin same
    · exact Or.inl origin
    · exact Or.inr same
  · intro allowed
    have updated : ∃ result, updatePhase db.tasks runId taskId change.origins change.phase
        change.columns = .ok result := by
      simp only [updatePhase, found]
      by_cases origin : row.phase ∈ change.origins
      · exact ⟨_, if_pos origin⟩
      · rw [if_neg origin, if_pos (allowed.resolve_left origin)]
        exact ⟨_, rfl⟩
    obtain ⟨⟨next, tasks⟩, ok⟩ := updated
    cases change <;> exact ⟨_, bind_eq_ok.mpr ⟨_, ok, rfl⟩⟩

theorem applyStatus_accepted (found : db.tasks.find? (task.runId, task.taskId) = some row) :
    (∃ db', applyStatus db task observation = .ok db') ↔
      fits task.phase row.phase observation = true := by
  have asked : (∃ db', applyStatus db task observation = .ok db') ↔
      ∀ change, statusChange task.phase observation = some change →
        row.phase ∈ change.origins ∨ row.phase = change.phase := by
    unfold applyStatus
    cases statusChange task.phase observation with
    | none => simp
    | some change =>
      simp only [map_eq_ok, Option.some.injEq, forall_eq', ← changePhase_accepted found]
      constructor
      · rintro ⟨_, result, ok, _⟩
        exact ⟨result, ok⟩
      · rintro ⟨result, ok⟩
        exact ⟨result.2, result, ok, rfl⟩
  rw [asked]
  generalize task.phase = read
  generalize row.phase = now
  cases observation <;> cases read <;> simp [statusChange, fits, PhaseChange.origins,
    PhaseChange.phase, runningPhases] <;> cases now <;> simp

def Keeps (tasks later : TaskTable) : Prop := ∀ key ∈ tasks.keys, key ∈ later.keys

theorem Keeps.refl (tasks : TaskTable) : Keeps tasks tasks := fun _ known => known

theorem Keeps.trans {later last : TaskTable}
    (first : Keeps tasks later) (second : Keeps later last) :
    Keeps tasks last :=
  fun key known => second key (first key known)

theorem keeps_upsert (tasks : TaskTable) (task : TaskLifecycleProjection) :
    Keeps tasks (tasks.upsert task) :=
  fun _ known => Table.mem_keys_upsert.mpr (Or.inl known)

theorem storeStep_keeps {P : TaskCapacityLimits → Prop} (step : StoreStep P db db') :
    Keeps db.tasks db'.tasks := by
  cases step with
  | planned | released => exact .refl _
  | registered | moved | settled => exact keeps_upsert _ _
  | dispatched _ ids limits now row dispatch limited found pending ran =>
    rw [(dispatchFresh_ok ran).1]
    exact keeps_upsert _ _

theorem steps_keep (steps : Steps (fun _ => True) db db') : Keeps db.tasks db'.tasks := by
  induction steps with
  | refl => exact .refl _
  | tail _ step ih => exact ih.trans (storeStep_keeps step)

theorem changePhase_keeps (typed : PhaseChange.typed change = true)
    (ok : changePhase db runId taskId change = .ok (row, db')) : Keeps db.tasks db'.tasks :=
  steps_keep (changePhase_steps typed ok)

theorem statusChange_typed {phase : TaskLifecyclePhase}
    (asked : statusChange phase observation = some change) : PhaseChange.typed change = true := by
  cases observation <;> simp only [statusChange] at asked <;> (try split_ifs at asked) <;>
    cases asked <;> rfl

theorem applyStatus_keeps (ok : applyStatus db task observation = .ok db') :
    Keeps db.tasks db'.tasks := by
  unfold applyStatus at ok
  split at ok
  · cases ok
    exact .refl _
  · rename_i change asked
    obtain ⟨result, changed, rfl⟩ := map_eq_ok.mp ok
    exact changePhase_keeps (statusChange_typed asked) changed

/-- The row that is kept with what a call waits for. -/
def Awaited.task? : Awaited → Option TaskLifecycleProjection
  | .observing task | .restarting task | .applying task => some task
  | .starting _ => none

/-- Every row that a call has read is still stored, if no longer as it was. -/
def Known (tasks : TaskTable) (awaited : List Awaited) : Prop :=
  ∀ item ∈ awaited, ∀ task, item.task? = some task → (task.runId, task.taskId) ∈ tasks.keys

theorem Known.later {later : TaskTable} {awaited : List Awaited} (known : Known tasks awaited)
    (keeps : Keeps tasks later) : Known later awaited :=
  fun item listed task read => keeps _ (known item listed task read)

theorem known_nil (tasks : TaskTable) : Known tasks [] := fun _ listed => nomatch listed

theorem known_projections {read : List TaskLifecycleProjection}
    {await : TaskLifecycleProjection → Awaited}
    (from_ : ∀ task ∈ read, task ∈ projections tasks runId)
    (keeps : ∀ task, (await task).task? = some task) : Known tasks (read.map await) := by
  intro item listed task held
  obtain ⟨row, member, rfl⟩ := List.mem_map.mp listed
  obtain rfl := Option.some.inj ((keeps row).symm.trans held)
  exact Table.mem_keys_of_mem (WaveSteps.mem_projections.mp (from_ row member)).1

theorem known_row {item : Awaited} (read : item.task? = some task)
    (stored : (task.runId, task.taskId) ∈ tasks.keys) : Known tasks [item] := by
  intro other listed row held
  obtain rfl := List.mem_singleton.mp listed
  obtain rfl := Option.some.inj (read.symm.trans held)
  exact stored

theorem restart_known {awaited : List Awaited} (stored : (task.runId, task.taskId) ∈ db.tasks.keys)
    (ok : restart db task = .ok (awaited, db')) :
    Keeps db.tasks db'.tasks ∧ Known db'.tasks awaited := by
  unfold restart at ok
  split at ok
  · cases ok
    exact ⟨.refl _, known_row rfl stored⟩
  · obtain ⟨result, changed, same⟩ := map_eq_ok.mp ok
    cases same
    exact ⟨changePhase_keeps rfl changed, known_nil _⟩

theorem applied_known {awaited : List Awaited}
    (ok : (applyStatus db task observation).map (fun db => (([] : List Awaited), db)) =
      .ok (awaited, db')) :
    Keeps db.tasks db'.tasks ∧ Known db'.tasks awaited := by
  obtain ⟨next, changed, same⟩ := map_eq_ok.mp ok
  cases same
  exact ⟨applyStatus_keeps changed, known_nil _⟩

theorem resume_known {item : Awaited} {reply : Reply} {awaited : List Awaited}
    (known : Known db.tasks [item]) (ok : resume db item reply = .ok (awaited, db')) :
    Keeps db.tasks db'.tasks ∧ Known db'.tasks awaited := by
  have stored := known item (List.mem_singleton.mpr rfl)
  unfold resume at ok
  split at ok
  · rename_i task observation
    split at ok
    · exact restart_known (stored task rfl) ok
    · exact applied_known ok
  · rename_i task
    cases ok
    exact ⟨.refl _, known_row rfl (stored task rfl)⟩
  · split at ok
    · cases ok
      exact ⟨.refl _, known_nil _⟩
    · rename_i task named
      cases ok
      have listed := WaveSteps.mem_projections.mp (List.mem_of_find?_eq_some named)
      exact ⟨.refl _, known_row rfl (Table.mem_keys_of_mem listed.1)⟩
  · exact applied_known ok
  · cases ok
    exact ⟨.refl _, known_nil _⟩

theorem cancelTask_keeps (ok : cancelTask db runId taskId = .ok db') :
    Keeps db.tasks db'.tasks := by
  unfold cancelTask at ok
  split at ok
  · cases ok
  · split at ok
    · obtain ⟨result, changed, rfl⟩ := map_eq_ok.mp ok
      exact changePhase_keeps rfl changed
    · obtain ⟨result, changed, rfl⟩ := map_eq_ok.mp ok
      exact changePhase_keeps rfl changed
    · obtain ⟨result, changed, rfl⟩ := map_eq_ok.mp ok
      exact changePhase_keeps rfl changed
    · obtain ⟨result, changed, rfl⟩ := map_eq_ok.mp ok
      exact changePhase_keeps rfl changed
    · cases ok
      exact .refl _

theorem setGates_keeps {tasks' : TaskTable} {gates : IntegrationGates}
    (ok : setGates tasks runId taskId gates = .ok tasks') : Keeps tasks tasks' := by
  unfold setGates at ok
  split at ok
  · cases ok
  · split_ifs at ok
    cases ok
    exact keeps_upsert _ _

section Runs

variable [Collation]
variable {service : Service}

theorem attempt_known {act : Act} {db : WaveDatabase} {awaited : List Awaited}
    (known : Known service.db.tasks service.awaited)
    (ok : attempt service act = .ok (awaited, db)) :
    Keeps service.db.tasks db.tasks ∧ Known db.tasks awaited := by
  unfold attempt at ok
  split at ok
  · obtain ⟨next, ran, same⟩ := map_eq_ok.mp ok
    cases same
    exact ⟨steps_keep (initializeTasks_steps ran),
      known_projections (fun _ listed => List.mem_of_mem_filter listed) fun _ => rfl⟩
  · obtain ⟨result, ran, same⟩ := map_eq_ok.mp ok
    cases same
    exact ⟨steps_keep (block_steps ran), known_nil _⟩
  · split at ok
    · cases ok
      exact ⟨.refl _, known_nil _⟩
    · rename_i tasks gated
      cases ok
      exact ⟨setGates_keeps gated, known_nil _⟩
  · obtain ⟨result, ran, same⟩ := map_eq_ok.mp ok
    cases same
    refine ⟨steps_keep (dispatchWave_steps trivial ran), ?_⟩
    intro item listed task held
    obtain ⟨dispatch, _, rfl⟩ := List.mem_map.mp listed
    cases held
  · cases ok
    exact ⟨.refl _, known_projections (fun _ listed => List.mem_of_mem_filter listed) fun _ => rfl⟩
  · obtain ⟨next, ran, same⟩ := map_eq_ok.mp ok
    cases same
    exact ⟨cancelTask_keeps ran, known_nil _⟩
  · split at ok
    · cases ok
      exact ⟨.refl _, known_nil _⟩
    · rename_i item found
      refine resume_known ?_ ok
      intro other listed
      obtain rfl := List.mem_singleton.mp listed
      exact known other (List.mem_of_getElem? found)

omit [Collation] in
theorem waiting_known (act : Act) (known : Known service.db.tasks service.awaited) :
    Known service.db.tasks (waiting service act) := by
  cases act with
  | answered index reply => exact fun item listed => known item (List.mem_of_mem_eraseIdx listed)
  | _ => exact known

theorem serve_known (act : Act) (known : Known service.db.tasks service.awaited) :
    Known (serve service act).db.tasks (serve service act).awaited := by
  unfold serve
  split
  · exact waiting_known act known
  · rename_i awaited db ok
    obtain ⟨keeps, fresh⟩ := attempt_known known ok
    intro item listed
    rcases List.mem_append.mp listed with old | new
    · exact (waiting_known act known).later keeps item old
    · exact fresh item new

theorem serveAll_known (acts : List Act) :
    Known (serveAll acts).db.tasks (serveAll acts).awaited := by
  refine List.foldlRecOn (motive := fun service => Known service.db.tasks service.awaited)
    acts serve (known_nil idle.db.tasks) ?_
  intro service known act _
  exact serve_known act known

omit [Collation] in
theorem applied_row {act : Act} {task : TaskLifecycleProjection} {observation : TaskPipelineStatus}
    (known : Known service.db.tasks service.awaited)
    (status : applied service act = some (task, observation)) :
    ∃ row, service.db.tasks.find? (task.runId, task.taskId) = some row := by
  unfold applied at status
  split at status
  · split at status
    · rename_i held found
      split_ifs at status
      cases status
      exact Table.exists_find? (known _ (List.mem_of_getElem? found) _ rfl)
    · rename_i held found
      cases status
      exact Table.exists_find? (known _ (List.mem_of_getElem? found) _ rfl)
    · cases status
  · cases status

omit [Collation] in
theorem fits_iff_accepts (known : Known service.db.tasks service.awaited) (act : Act) :
    Fits service act ↔ Accepts service act := by
  constructor
  · intro fit task observation status
    obtain ⟨row, found⟩ := applied_row known status
    exact (applyStatus_accepted found).mpr (fit task observation status row found)
  · intro accepts task observation status row found
    exact (applyStatus_accepted found).mp (accepts task observation status)

/-- No status is rejected in a run exactly if every status that is applied fits the row of its
task as it is stored by then. -/
theorem statuses_accepted (acts : List Act) : Throughout Fits acts ↔ Throughout Accepts acts := by
  refine forall_congr' fun earlier => forall_congr' fun act => forall_congr' fun later =>
    imp_congr_right fun _ => ?_
  exact fits_iff_accepts (serveAll_known earlier) act

end Runs

section Samples

def retryingEnvironment : Environment where
  driver :=
    { start := fun _ _ => .ok ()
      tick := fun _ _ => .ok .running
      status := fun _ _ => .ok (.retrying 2)
      cancel := fun _ _ => .ok () }
  integration := none
  nowIso _ := "now"
  ids kind number := kind ++ ":" ++ toString number
  arrival _ _ := 0

def sampleDispatch : TaskDispatchRecord :=
  @dispatchRecord plainCollation
    ⟨"run", ⟨"graph", 1, [], ""⟩, 4, [], [], false, 0, []⟩ (sampleNode "a" []) "a" 1
    "now"

def samplePlan : TaskWavePlan :=
  planTaskWave ⟨⟨"graph", 1, [], ""⟩, 1, false, [], [], [], [], 0, 4, "now"⟩

/-- The acts of a tick that dispatches a task, up to the first status of its child. -/
def retryingActs : List Act :=
  [.reconciled "run" 1 ["a"], .dispatched (fun number => toString number) samplePlan
    [sampleDispatch] ⟨4, []⟩, .answered 0 .started, .answered 0 (.observed (.retrying 2))]

def rejects (service : Service) (act : Act) : Bool :=
  (applied service act).any fun status => !(applyStatus service.db status.1 status.2).isOk

theorem Accepts.rejects_eq {service : Service} {act : Act} (accepts : Accepts service act) :
    rejects service act = false := by
  unfold rejects
  cases status : applied service act with
  | none => rfl
  | some item =>
    obtain ⟨db, ok⟩ := accepts item.1 item.2 status
    simp [ok, Except.toBool]

/-- The first status of a child is that it retries: the store rejects the transition, and the
tick of the epic fails with it. -/
theorem retrying_rejected :
    (∃ acts, ¬ @Throughout plainCollation Accepts acts) ∧
      (@EpicRuntime.program IntegrationOrder.openingDigest plainCollation retryingEnvironment
        (.tick IntegrationOrder.sampleTick)
        (@EpicRuntime.runActs IntegrationOrder.openingDigest plainCollation retryingEnvironment
          [.initialized (IntegrationOrder.sampleGraph
            [sampleNode "a" [], sampleNode "b" []] "a")])).1 =
        .error (.waves (.invalidTransition .dispatching .retrying)) := by
  refine ⟨⟨retryingActs, fun accepted => ?_⟩, by decide +kernel⟩
  have taken := (accepted (retryingActs.take 3) (.answered 0 (.observed (.retrying 2))) []
    rfl).rejects_eq
  exact absurd taken (by decide +kernel)

end Samples

end Heniek.StatusInterleavings
