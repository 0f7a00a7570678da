import Heniek.EpicStore
import Heniek.IntegrationService
import Heniek.WaveStore

/-!
The service that runs the tasks of an epic run in waves. Its tick takes in what the
child pipelines report, integrates what has succeeded, blocks what depends on a task
that has not, and dispatches the next wave. A call of the pipeline driver is numbered
and may answer anything or throw. Calls that are awaited together come back in any
order, and the first that throws ends the tick; an answer that comes back after that
is an act of its own. The log says what was blocked, replanned and revised; no
operation reads it.
-/

namespace Heniek.WaveScheduler
open EffectfulRun ScriptText IntegrationStore IntegrationService TaskGraph DagValidation
  GraphRevision WavePlan WaveStore EpicStore

inductive TaskPipelineStatus where
  | missing | queued | running | waitingOnUser
  | retrying (attemptOrdinal : Nat)
  | cancelling | recoveryRequired | succeeded | failed | cancelled
  deriving DecidableEq

structure TaskPipelineDriver where
  start : Nat → TaskDispatchRecord → Answer Unit
  tick : Nat → String → Answer TaskPipelineStatus
  status : Nat → String → Answer TaskPipelineStatus
  cancel : Nat → String → Answer Unit

/-- The drivers, the clock, the ids, and the order in which concurrent answers come back. -/
structure Environment where
  driver : TaskPipelineDriver
  integration : Option TaskIntegrationDriver
  nowIso : Nat → String
  ids : String → Nat → String
  arrival : Nat → String → Nat

inductive EpicEvent where
  | blocked (task : TaskLifecycleProjection) (reason : TaskPropagationReason)
      (root : Option TaskLifecycleProjection) (replan : Option HiddenDependencyReplan)
  | recorded (replan : HiddenDependencyReplan) (graph : TaskGraphRevisionRecord)
      (tasks : List TaskLifecycleProjection)
  | revised (previous record : TaskGraphRevisionRecord) (tasks : List TaskLifecycleProjection)
      (dispatches : List TaskDispatchRecord) (replan : Option HiddenDependencyReplan)
  | submitted (replan : HiddenDependencyReplan) (tasks : List TaskLifecycleProjection)
  deriving DecidableEq

/-- The lifecycle rows of the tasks are those of the integration database. -/
structure EpicWorld where
  integration : World
  plans : PlanTable
  dispatches : DispatchTable
  leases : LeaseTable
  issued : Nat
  graphs : GraphDatabase
  replanning : ReplanDatabase
  calls : Nat
  readings : Nat
  log : List EpicEvent

inductive EpicAbort where
  | driver (fault : DriverFault)
  | waves (error : WaveStoreError)
  | integration (abort : IntegrationService.Abort)
  | graphs (error : GraphStoreError)
  | replans (error : ReplanStoreError)
  | initial (error : InitialGraphError)
  | unknownTask (taskId : String)
  | unknownSelection (taskId : String)
  | notInitialized (runId : String)
  | staleFinding
  | reporterNotAffected
  | interruptedNotAffected
  | unknownPrerequisite
  | interruptedNotActive (taskId : String)
  | interruptedNotReplaced (taskId : String)
  deriving DecidableEq

abbrev EpicProgram (α : Type) := Effect EpicAbort EpicWorld α

def EpicWorld.tasks (w : EpicWorld) : TaskTable := w.integration.db.tasks

def EpicWorld.waves (w : EpicWorld) : WaveDatabase :=
  ⟨w.tasks, w.plans, w.dispatches, w.leases, w.issued⟩

def EpicWorld.setWaves (w : EpicWorld) (db : WaveDatabase) : EpicWorld :=
  { w with
    integration := { w.integration with db := { w.integration.db with tasks := db.tasks } }
    plans := db.plans
    dispatches := db.dispatches
    leases := db.leases
    issued := db.issued }

def ask {α : Type} (request : Nat → Answer α) : EpicProgram α := fun w =>
  ((request w.calls).mapError .driver, { w with calls := w.calls + 1 })

def readClock (env : Environment) : EpicProgram String := fun w =>
  (.ok (env.nowIso w.readings), { w with readings := w.readings + 1 })

def nextId (env : Environment) (kind : String) : EpicProgram String := fun w =>
  (.ok (env.ids kind w.issued), { w with issued := w.issued + 1 })

def waved {α : Type} (operation : WaveDatabase → WaveResult (α × WaveDatabase)) :
    EpicProgram α :=
  Effect.transact fun w =>
    match operation w.waves with
    | .error error => .error (.waves error)
    | .ok (a, db) => .ok (a, w.setWaves db)

def projectionsOf (w : EpicWorld) (runId : String) : List TaskLifecycleProjection :=
  projections w.tasks runId

def taskNamed (tasks : List TaskLifecycleProjection) (taskId : String) :
    Option TaskLifecycleProjection := tasks.find? fun task => task.taskId = taskId

/-- `Promise.all` over the items, each of which ends in its turn. -/
def together {α : Type} (env : Environment) (name : α → String) (each : α → EpicProgram Unit)
    (items : List α) : EpicProgram Unit := do
  let calls ← Effect.read EpicWorld.calls
  Effect.forEach each
    (items.insertionSort fun left right =>
      env.arrival calls (name left) ≤ env.arrival calls (name right))

/-- The change that `applyDriverStatus` asks for, from the phase that was read before the call. -/
def statusChange (phase : TaskLifecyclePhase) : TaskPipelineStatus → Option PhaseChange
  | .missing =>
    if phase = .dispatching ∨ phase = .recoveryRequired then none else some .markRecoveryRequired
  | .queued | .running | .waitingOnUser =>
    if phase = .dispatching ∨ phase = .retrying then some .markActive else none
  | .retrying _ => if phase = .retrying then none else some .markRetrying
  | .cancelling => if phase = .cancelling then none else some .requestCancellation
  | .recoveryRequired => if phase = .recoveryRequired then none else some .markRecoveryRequired
  | .succeeded => some (.settle .succeeded)
  | .failed => some (.settle .failed)
  | .cancelled => some (.settle .cancelled)

def changeTask (runId taskId : String) (change : PhaseChange) :
    EpicProgram TaskLifecycleProjection :=
  waved fun db => changePhase db runId taskId change

def applyDriverStatus (runId : String) (task : TaskLifecycleProjection)
    (observation : TaskPipelineStatus) : EpicProgram TaskLifecycleProjection :=
  match statusChange task.phase observation with
  | none => pure task
  | some change => changeTask runId task.taskId change

def dispatchFor (w : EpicWorld) (runId taskId : String) : Option TaskDispatchRecord :=
  (dispatchesOf w.dispatches runId).find? fun dispatch => dispatch.taskId = taskId

def restartTask (env : Environment) (runId : String) (task : TaskLifecycleProjection)
    (childRunId : String) : EpicProgram Unit := do
  match ← Effect.read fun w => dispatchFor w runId task.taskId with
  | none => do
      let _ ← changeTask runId task.taskId .markRecoveryRequired
      pure ()
  | some dispatch => do
      ask fun n => env.driver.start n dispatch
      let observation ← ask fun n => env.driver.status n childRunId
      let _ ← applyDriverStatus runId task observation
      pure ()

def observeTask (env : Environment) (runId : String) (task : TaskLifecycleProjection) :
    EpicProgram Unit :=
  match task.childRunId with
  | none => pure ()
  | some childRunId => do
      let observation ← ask fun n => env.driver.status n childRunId
      if observation = .missing ∧ task.phase = .dispatching then
        restartTask env runId task childRunId
      else do
        let _ ← applyDriverStatus runId task observation
        pure ()

def reconcileTasks (env : Environment) (runId : String) : EpicProgram Unit := do
  let tasks ← Effect.read fun w => projectionsOf w runId
  together env TaskLifecycleProjection.taskId (observeTask env runId)
    (tasks.filter fun task => decide (task.phase ∈ runningPhases))

section Collated

variable [Collation]

/-- `canonical` of the service. -/
def canonical (values : List String) : List String := localeSort id values.eraseDups

def appendPath (path : List String) (taskId : String) : List String :=
  if taskId ∈ path then path else path ++ [taskId]

def inheritReason (reason : TaskPropagationReason) (predecessorId taskId : String) :
    TaskPropagationReason where
  code := .predecessorBlocked
  immediateTaskId := predecessorId
  rootTaskId := reason.rootTaskId
  path := appendPath reason.path taskId

def reasonLe (left right : TaskPropagationReason) : Bool :=
  !Collation.precedes right.rootTaskId left.rootTaskId &&
    (Collation.precedes left.rootTaskId right.rootTaskId ||
      !Collation.precedes right.immediateTaskId left.immediateTaskId)

/-- The recursion visits a task at most once on a path, so the fuel is the number of nodes. -/
def propagationReason (nodes : NodeTable) (states : List TaskLifecycleProjection) :
    Nat → List String → String → Option TaskPropagationReason
  | 0, _, _ => none
  | fuel + 1, visiting, taskId =>
    if taskId ∈ visiting then none
    else
      (((canonical (dependenciesOf nodes taskId)).flatMap fun predecessorId =>
        match taskNamed states predecessorId with
        | none => []
        | some predecessor =>
          match predecessor.phase with
          | .failed =>
            [⟨.predecessorFailed, predecessorId, predecessorId, [predecessorId, taskId]⟩]
          | .cancelled =>
            [⟨.predecessorCancelled, predecessorId, predecessorId, [predecessorId, taskId]⟩]
          | .blocked =>
            predecessor.blockReason.toList.map fun reason =>
              inheritReason reason predecessorId taskId
          | .notStarted =>
            (propagationReason nodes states fuel (taskId :: visiting)
              predecessorId).toList.map fun reason =>
              inheritReason reason predecessorId taskId
          | _ => []).insertionSort fun left right => reasonLe left right = true).head?

/-- The tasks that a round of propagation blocks, in its order. -/
def blockedTasks (dag : TaskDag) (states : List TaskLifecycleProjection) :
    List (TaskLifecycleProjection × TaskPropagationReason) :=
  (localeSort TaskLifecycleProjection.taskId states).filterMap fun task =>
    if task.phase = .notStarted then
      (propagationReason (nodeMap dag) states ((nodeMap dag).rows.length + 1) []
        task.taskId).map fun reason => (task, reason)
    else none

def blockTask (runId : String) (item : TaskLifecycleProjection × TaskPropagationReason) :
    EpicProgram Unit :=
  Effect.transact fun w =>
    match block w.waves runId item.1.taskId item.2 with
    | .error error => .error (.waves error)
    | .ok (_, db) =>
      .ok ((), { w.setWaves db with
        log := w.log ++ [.blocked item.1 item.2
          (w.tasks.find? (runId, item.2.rootTaskId)) (activeReplan w.replanning runId)] })

/-- The loop of rounds, of which each but the last blocks a task that had not started. -/
def propagateRounds (runId : String) (dag : TaskDag) : Nat → EpicProgram Unit
  | 0 => pure ()
  | fuel + 1 => do
      let states ← Effect.read fun w => projectionsOf w runId
      Effect.forEach (blockTask runId) (blockedTasks dag states)
      if blockedTasks dag states = [] then pure () else propagateRounds runId dag fuel

def propagate (runId : String) (dag : TaskDag) : EpicProgram Unit := do
  let states ← Effect.read fun w => projectionsOf w runId
  propagateRounds runId dag (states.length + 1)

def integrationInput (w : EpicWorld) (runId : String) (dag : TaskDag) :
    TaskIntegrationTickInput where
  runId := runId
  dag := dag.taskIds
  tasks := projectionsOf w runId
  dispatches := dispatchesOf w.dispatches runId

def integrateTasks (env : Environment) (runId : String) (dag : TaskDag) : EpicProgram Unit :=
  match env.integration with
  | none => pure ()
  | some driver => do
      let input ← Effect.read fun w => integrationInput w runId dag
      Effect.within EpicWorld.integration
        (fun w integration => { w with integration := integration })
        .integration (IntegrationService.tick driver input)

structure TaskWaveSchedulerTickInput where
  runId : String
  dag : TaskDag
  maxConcurrentWorkers : Nat
  profiles : List ProfileCapacity
  accounts : List AccountCapacity
  unresolvedGraphRevision : Bool
  externalActiveWorkers : Nat
  unavailableRepositoryIds : List String

def activeLeases (w : EpicWorld) (runId : String) : List TaskCapacityLease :=
  (leasesOf w.leases runId).filter TaskCapacityLease.active

def leasesIn (leases : List TaskCapacityLease) (scope : TaskCapacityScope) :
    List TaskCapacityLease := leases.filter fun lease => lease.scope = scope

def holderOf (leases : List TaskCapacityLease) (repositoryId : String) : Option String :=
  ((leasesIn leases .repository).reverse.find? fun lease => lease.resourceId = repositoryId).map
    TaskCapacityLease.taskId

def countedAccount (leases : List TaskCapacityLease) (account : AccountCapacity) :
    AccountCapacity :=
  { account with
    activeRuns := account.activeRuns +
      (leasesIn leases .account).countP fun lease => lease.resourceId = account.accountId }

def writerLease (leases : List TaskCapacityLease) (unavailable : List String)
    (repositoryId : String) : WriterLease where
  repositoryId := repositoryId
  available := decide (repositoryId ∉ unavailable ∧ holderOf leases repositoryId = none)
  holderTaskId := holderOf leases repositoryId

def nextOrdinal (w : EpicWorld) (runId : String) : Nat :=
  (((plansOf w.plans runId).getLast?).map TaskWavePlan.waveOrdinal).getD 0 + 1

def planningSnapshot (w : EpicWorld) (input : TaskWaveSchedulerTickInput) (now : String) :
    TaskWavePlanningSnapshot :=
  let leases := activeLeases w input.runId
  { dag := input.dag
    waveOrdinal := nextOrdinal w input.runId
    unresolvedGraphRevision := input.unresolvedGraphRevision
    tasks := planningStates w.tasks input.runId input.dag.taskIds
    profiles := input.profiles
    accounts := input.accounts.map (countedAccount leases)
    writerLeases := (canonical (input.dag.nodes.flatMap fun node => node.task.writeSet)).map
      (writerLease leases input.unavailableRepositoryIds)
    activeWorkers := input.externalActiveWorkers + (leasesIn leases .global).length
    maxConcurrentWorkers := input.maxConcurrentWorkers
    recordedAt := now }

/-- The coordinates that the ids of a dispatch share. -/
def dispatchSuffix (runId : String) (graphRevision : Nat) (taskId : String) : String :=
  runId ++ ":" ++ toString graphRevision ++ ":" ++ taskId

def dispatchRecord (input : TaskWaveSchedulerTickInput) (node : TaskDagNode) (taskId : String)
    (waveOrdinal : Nat) (now : String) : TaskDispatchRecord where
  dispatchId := "task-dispatch:" ++ dispatchSuffix input.runId input.dag.graphRevision taskId
  runId := input.runId
  taskId := taskId
  graphRevision := input.dag.graphRevision
  waveOrdinal := waveOrdinal
  childRunId := "task-run:" ++ dispatchSuffix input.runId input.dag.graphRevision taskId
  pipelineId := node.pipelineId
  profileId := node.profileId
  accountId := node.accountId
  workspaceId := "task-workspace:" ++ dispatchSuffix input.runId input.dag.graphRevision taskId
  repositoryIds := canonical node.task.writeSet
  recordedAt := now

def makeDispatch (env : Environment) (input : TaskWaveSchedulerTickInput) (waveOrdinal : Nat)
    (taskId : String) : EpicProgram TaskDispatchRecord :=
  match input.dag.nodes.find? fun candidate => candidate.taskId = taskId with
  | none => Effect.throw (.unknownSelection taskId)
  | some node => do
      let now ← readClock env
      pure (dispatchRecord input node taskId waveOrdinal now)

def capacityLimits (input : TaskWaveSchedulerTickInput) : TaskCapacityLimits where
  maxConcurrentWorkers := input.maxConcurrentWorkers
  accountLimits := input.accounts.map fun account => (account.accountId, account.maxConcurrentRuns)

def startDispatch (env : Environment) (runId : String) (dispatch : TaskDispatchRecord) :
    EpicProgram Unit := do
  ask fun n => env.driver.start n dispatch
  match ← Effect.read fun w => taskNamed (projectionsOf w runId) dispatch.taskId with
  | none => pure ()
  | some task => do
      let observation ← ask fun n => env.driver.status n dispatch.childRunId
      let _ ← applyDriverStatus runId task observation
      pure ()

def dispatchPlan (env : Environment) (input : TaskWaveSchedulerTickInput) (plan : TaskWavePlan) :
    EpicProgram Unit :=
  if plan.selectedTaskIds = [] then pure ()
  else do
    let dispatches ← Effect.mapEach (makeDispatch env input plan.waveOrdinal) plan.selectedTaskIds
    let accepted ← waved fun db =>
      dispatchWave (env.ids "task-capacity") db plan dispatches (capacityLimits input)
    together env TaskDispatchRecord.taskId (startDispatch env input.runId) accepted

def initializeDag (runId : String) (dag : TaskDag) : EpicProgram Unit :=
  waved fun db => (initializeTasks db runId dag.graphRevision dag.taskIds).map fun db => ((), db)

def tickTask (env : Environment) (runId : String) (task : TaskLifecycleProjection) :
    EpicProgram Unit :=
  match task.childRunId with
  | none => pure ()
  | some childRunId => do
      let observation ← ask fun n => env.driver.tick n childRunId
      let _ ← applyDriverStatus runId task observation
      pure ()

def tickTasks (env : Environment) (runId : String) : EpicProgram Unit := do
  let tasks ← Effect.read fun w => projectionsOf w runId
  together env TaskLifecycleProjection.taskId (tickTask env runId)
    (tasks.filter fun task => decide (task.childRunId ≠ none ∧
      (task.phase = .active ∨ task.phase = .retrying ∨ task.phase = .cancelling)))

/-- What `tick` and `reconcile` begin with. -/
def settleTasks (env : Environment) (runId : String) (dag : TaskDag) : EpicProgram Unit := do
  initializeDag runId dag
  reconcileTasks env runId
  integrateTasks env runId dag
  propagate runId dag

/-- The tick, which returns the tasks of its status. -/
def tick (env : Environment) (input : TaskWaveSchedulerTickInput) :
    EpicProgram (List TaskLifecycleProjection) := do
  settleTasks env input.runId input.dag
  let now ← readClock env
  let plan ← Effect.read fun w => planTaskWave (planningSnapshot w input now)
  dispatchPlan env input plan
  tickTasks env input.runId
  integrateTasks env input.runId input.dag
  propagate input.runId input.dag
  Effect.read fun w => projectionsOf w input.runId

def reconcile (env : Environment) (runId : String) (dag : TaskDag) : EpicProgram Unit :=
  settleTasks env runId dag

def cancelChild (env : Environment) (cancelling : TaskLifecycleProjection) : EpicProgram Unit :=
  match cancelling.childRunId with
  | none => pure ()
  | some childRunId => ask fun n => env.driver.cancel n childRunId

def cancel (env : Environment) (runId taskId : String) : EpicProgram Unit := do
  match ← Effect.read fun w => taskNamed (projectionsOf w runId) taskId with
  | none => Effect.throw (.unknownTask taskId)
  | some task =>
    match task.phase with
    | .notStarted => do
        let _ ← changeTask runId taskId .cancelPending
        pure ()
    | .dispatching | .active | .retrying => do
        let cancelling ← changeTask runId taskId .requestCancellation
        cancelChild env cancelling
    | _ => pure ()

end Collated

end Heniek.WaveScheduler
