import Heniek.WaveScheduler

/-!
The coordinator of an epic run: it ticks the wave scheduler on the active graph, takes
hidden dependencies in, and revises the graph once the tasks they interrupt have come to
rest. The runs of the daemon are sequences of acts, each of which ends before the next
begins: ticks, reports, revisions submitted from outside, cancellations, and statuses
that come back after the tick that asked for them has failed.
-/

namespace Heniek.EpicRuntime
open EffectfulRun ScriptText RecoveryPolicy IntegrationStore IntegrationService TaskGraph
  GraphRevision WavePlan WaveStore EpicStore WaveScheduler

section Hashed

variable [Sha256] [Collation]

def activeGraphOf (runId : String) : EpicProgram TaskGraphRevisionRecord := do
  match ← Effect.read fun w => activeGraph w.graphs runId with
  | none => Effect.throw (.notInitialized runId)
  | some graph => pure graph

def initializeRun (env : Environment) (input : InitialTaskGraph) : EpicProgram Unit := do
  let now ← readClock env
  Effect.transact fun w =>
    match createInitialTaskGraphRevision { input with committedAt := now } with
    | .error error => .error (.initial error)
    | .ok record =>
      match initializeGraph w.graphs record with
      | .error error => .error (.graphs error)
      | .ok (_, graphs) => .ok ((), { w with graphs := graphs })

structure SubmitTaskGraphRevisionInput where
  proposal : TaskGraphRevisionProposal
  taskStates : List TaskPlanningState
  maxGraphRevisions : Nat
  hiddenDependencyFinding : Option HiddenDependencyFinding

def proposeInput (input : SubmitTaskGraphRevisionInput) (decisionId decidedAt : String) :
    ProposeTaskGraphRevisionInput where
  proposal := input.proposal
  taskStates := input.taskStates
  maxGraphRevisions := input.maxGraphRevisions
  decisionId := decisionId
  decidedAt := decidedAt
  hiddenDependencyFinding := input.hiddenDependencyFinding

def revisedEvent (w : EpicWorld) (runId : String) (record : Option TaskGraphRevisionRecord) :
    List EpicEvent :=
  match activeGraph w.graphs runId, record with
  | some previous, some record =>
    [.revised previous record (projectionsOf w runId) (dispatchesOf w.dispatches runId)
      (activeReplan w.replanning runId)]
  | _, _ => []

def submit (env : Environment) (input : SubmitTaskGraphRevisionInput) :
    EpicProgram RevisionOutcome := do
  let decisionId ← nextId env "task-graph-revision-decision"
  let decidedAt ← readClock env
  Effect.transact fun w =>
    match propose w.graphs (proposeInput input decisionId decidedAt) with
    | .error error => .error (.graphs error)
    | .ok (outcome, graphs) =>
      .ok (outcome, { w with
        graphs := graphs
        log := w.log ++ revisedEvent w input.proposal.runId outcome.2 })

structure ReportHiddenDependencyInput where
  finding : HiddenDependencyFinding
  proposal : TaskGraphRevisionProposal
  trigger : HiddenDependencyRevisionTrigger
  triggered : proposal.trigger = some trigger

def checkFinding (active : TaskGraphRevisionRecord) (input : ReportHiddenDependencyInput) :
    Except EpicAbort Unit :=
  let finding := input.finding
  if active.graphId ≠ finding.graphId ∨ active.graphRevision ≠ finding.graphRevision ∨
      active.revisionSha256 ≠ finding.revisionSha256 then .error .staleFinding
  else if finding.reporterTaskId ∉ finding.affectedTaskIds then .error .reporterNotAffected
  else if input.trigger.interruptedTaskIds.length ≠ finding.affectedTaskIds.length ∨
      ∃ taskId ∈ input.trigger.interruptedTaskIds, taskId ∉ finding.affectedTaskIds then
    .error .interruptedNotAffected
  else if ∃ taskId ∈ finding.prerequisiteTaskIds, taskId ∉ active.dag.taskIds then
    .error .unknownPrerequisite
  else .ok ()

def interruptible (phase : TaskLifecyclePhase) : Bool :=
  decide (phase ∈ [.dispatching, .active, .retrying, .cancelling])

def checkInterrupted (tasks : List TaskLifecycleProjection) (changes : List TaskGraphChange)
    (taskId : String) : Except EpicAbort Unit :=
  if (taskNamed tasks taskId).any fun task => interruptible task.phase then
    if supersedeOf changes taskId = none then .error (.interruptedNotReplaced taskId) else .ok ()
  else .error (.interruptedNotActive taskId)

/-- The checks of the interrupted tasks, which a report that is made again does not repeat. -/
def checkReport (w : EpicWorld) (active : TaskGraphRevisionRecord)
    (input : ReportHiddenDependencyInput) : Except EpicAbort Unit := do
  checkFinding active input
  if (replansOf w.replanning input.finding.runId).any fun replan =>
      decide (replan.finding.findingId = input.finding.findingId) then .ok ()
  else
    input.trigger.interruptedTaskIds.forM
      (checkInterrupted (projectionsOf w input.finding.runId) input.proposal.changes)

def recordInput (input : ReportHiddenDependencyInput) : RecordReplanInput where
  replanId := "hidden-dependency-replan:" ++ input.finding.runId ++ ":" ++ input.finding.findingId
  finding := input.finding
  proposal := input.proposal
  trigger := input.trigger
  triggered := input.triggered
  replacementTaskIds := (input.proposal.changes.filter fun change =>
    change.kind = .supersede).flatMap TaskGraphChange.afterTaskIds

def recordedEvent (w : EpicWorld) (active : TaskGraphRevisionRecord)
    (replan : HiddenDependencyReplan) : List EpicEvent :=
  if replanOfFinding w.replanning replan.finding.findingId = none then
    [.recorded replan active (projectionsOf w replan.finding.runId)]
  else []

def recordReport (active : TaskGraphRevisionRecord) (input : ReportHiddenDependencyInput) :
    EpicProgram HiddenDependencyReplan :=
  Effect.transact fun w =>
    match checkReport w active input with
    | .error error => .error error
    | .ok () =>
      match record w.replanning (recordInput input) with
      | .error error => .error (.replans error)
      | .ok (replan, replanning) =>
        .ok (replan, { w with
          replanning := replanning
          log := w.log ++ recordedEvent w active replan })

def reportHiddenDependency (env : Environment) (input : ReportHiddenDependencyInput) :
    EpicProgram Unit := do
  let active ← activeGraphOf input.finding.runId
  let replan ← recordReport active input
  Effect.forEach (cancel env input.finding.runId) replan.interruptedTaskIds

structure EpicRuntimeTickInput where
  runId : String
  maxConcurrentWorkers : Nat
  profiles : List ProfileCapacity
  accounts : List AccountCapacity
  externalActiveWorkers : Nat
  unavailableRepositoryIds : List String
  maxGraphRevisions : Nat

def schedulerInput (input : EpicRuntimeTickInput) (dag : TaskDag)
    (unresolvedGraphRevision : Bool) : TaskWaveSchedulerTickInput where
  runId := input.runId
  dag := dag
  maxConcurrentWorkers := input.maxConcurrentWorkers
  profiles := input.profiles
  accounts := input.accounts
  unresolvedGraphRevision := unresolvedGraphRevision
  externalActiveWorkers := input.externalActiveWorkers
  unavailableRepositoryIds := input.unavailableRepositoryIds

def advanceReplan (input : AdvanceReplanInput) : EpicProgram HiddenDependencyReplan :=
  Effect.transact fun w =>
    match advance w.replanning input with
    | .error error => .error (.replans error)
    | .ok (replan, replanning) => .ok (replan, { w with replanning := replanning })

def blockReplan (replan : HiddenDependencyReplan) (blocker : ReplanBlocker) : EpicProgram Unit := do
  let _ ← advanceReplan
    { replanId := replan.replanId
      expectedLifecycle := replan.lifecycle
      lifecycle := .blocked
      blocker := some (some blocker) }
  pure ()

/-- What the coordinator makes of a replan whose tasks are coming to rest. -/
inductive Quiescence where
  | blocked (blocker : ReplanBlocker)
  | ready
  | waiting
  deriving DecidableEq

/-- `options.integration?.status(runId)` needs reconciliation. -/
def reconciliationPending (env : Environment) (db : IntegrationDatabase) (runId : String) : Bool :=
  env.integration.isSome &&
    ((entries db runId).any (fun entry => decide (entry.lifecycle = .reconciliationRequired)) ||
      db.reconciliations.rows.any fun candidate => decide (candidate.runId = runId ∧
        (candidate.lifecycle = .blocked ∨ candidate.lifecycle = .forwarding)))

def unconfirmed : Option TaskLifecycleProjection → Bool
  | none => true
  | some task => decide (task.phase = .recoveryRequired ∨ task.phase = .failed)

def unsatisfied : Option TaskLifecycleProjection → Bool
  | none => true
  | some task => decide (task.phase ∈ [.failed, .cancelled, .blocked, .recoveryRequired])

def awaited (task : TaskLifecycleProjection) : Bool :=
  decide (task.phase ≠ .succeeded ∨ task.completionContract ≠ .passed ∨
    task.integration ≠ .passed ∨ task.combinedVerification ≠ .passed)

def quiescence (env : Environment) (w : EpicWorld) (runId : String)
    (replan : HiddenDependencyReplan) (tasks : List TaskLifecycleProjection) : Quiescence :=
  let interrupted := replan.interruptedTaskIds.map (taskNamed tasks)
  let prerequisites := replan.finding.prerequisiteTaskIds.map (taskNamed tasks)
  if interrupted.any unconfirmed then .blocked .cancellationUnconfirmed
  else if reconciliationPending env w.integration.db runId then
    .blocked .integrationReconciliationRequired
  else if prerequisites.any unsatisfied then .blocked .prerequisiteUnsatisfied
  else if (interrupted.all fun task => task.any fun task => decide (task.phase = .cancelled)) &&
      !prerequisites.any fun task => task.any awaited then .ready
  else .waiting

/-- The replan that the rest of the tick goes on with, none when it has been blocked. -/
def quiesce (env : Environment) (runId : String) (replan : HiddenDependencyReplan)
    (tasks : List TaskLifecycleProjection) : EpicProgram (Option HiddenDependencyReplan) :=
  if replan.lifecycle = .quiescing then do
    match ← Effect.read fun w => quiescence env w runId replan tasks with
    | .blocked blocker => do
        blockReplan replan blocker
        pure none
    | .ready => do
        let revising ← advanceReplan
          { replanId := replan.replanId
            expectedLifecycle := .quiescing
            lifecycle := .revising }
        pure (some revising)
    | .waiting => pure (some replan)
  else pure (some replan)

def resume (env : Environment) (input : EpicRuntimeTickInput) (replan : HiddenDependencyReplan)
    (graph : TaskGraphRevisionRecord) (decisionId : Option String) : EpicProgram Unit := do
  let _ ← advanceReplan
    { replanId := replan.replanId
      expectedLifecycle := .revising
      lifecycle := .resumed
      decisionId := some decisionId
      resultingGraphRevision := some (some graph.graphRevision) }
  let _ ← tick env (schedulerInput input graph.dag false)
  pure ()

def missingEvidence (diagnostics : List TaskDagDiagnostic) : Bool :=
  diagnostics.any fun found =>
    "task-graph-revision.hidden-dependency-evidence".toList.isPrefixOf found.code.toList

def submission (replan : HiddenDependencyReplan) (graph : TaskGraphRevisionRecord)
    (tasks : List TaskLifecycleProjection) (maxGraphRevisions : Nat) :
    SubmitTaskGraphRevisionInput where
  proposal := replan.proposal
  taskStates := (tasks.filter fun task => decide (task.taskId ∈ graph.dag.taskIds)).map
    planningState
  maxGraphRevisions := maxGraphRevisions
  hiddenDependencyFinding := some replan.finding

def submitReplan (env : Environment) (input : EpicRuntimeTickInput)
    (replan : HiddenDependencyReplan) (graph : TaskGraphRevisionRecord)
    (tasks : List TaskLifecycleProjection) : EpicProgram Unit := do
  Effect.modify fun w => { w with log := w.log ++ [.submitted replan tasks] }
  let outcome ← submit env (submission replan graph tasks input.maxGraphRevisions)
  match outcome.2 with
  | none =>
    blockReplan replan
      (if missingEvidence outcome.1.diagnostics then .missingEvidence else .revisionRejected)
  | some record => resume env input replan record (some outcome.1.decisionId)

def alreadyRevised (graph : TaskGraphRevisionRecord) (replan : HiddenDependencyReplan) : Bool :=
  decide (graph.graphRevision = replan.proposal.proposedDag.graphRevision) &&
    graph.trigger.any fun trigger => decide (trigger.findingId = replan.finding.findingId)

def revise (env : Environment) (input : EpicRuntimeTickInput) (replan : HiddenDependencyReplan)
    (tasks : List TaskLifecycleProjection) : EpicProgram Unit :=
  if replan.lifecycle = .revising then do
    let graph ← activeGraphOf input.runId
    if alreadyRevised graph replan then resume env input replan graph graph.decisionId
    else submitReplan env input replan graph tasks
  else pure ()

def replanRun (env : Environment) (input : EpicRuntimeTickInput)
    (tasks : List TaskLifecycleProjection) (replan : HiddenDependencyReplan) :
    EpicProgram Unit := do
  match ← quiesce env input.runId replan tasks with
  | none => pure ()
  | some replan => revise env input replan tasks

def tickRun (env : Environment) (input : EpicRuntimeTickInput) : EpicProgram Unit := do
  let graph ← activeGraphOf input.runId
  let replan ← Effect.read fun w => activeReplan w.replanning input.runId
  let tasks ← tick env (schedulerInput input graph.dag replan.isSome)
  match replan with
  | none => pure ()
  | some replan => replanRun env input tasks replan

inductive Act where
  | initialized (input : InitialTaskGraph)
  | tick (input : EpicRuntimeTickInput)
  | reported (input : ReportHiddenDependencyInput)
  | submitted (input : SubmitTaskGraphRevisionInput)
  | reconciled (runId : String)
  | cancelled (runId taskId : String)
  | late (runId : String) (task : TaskLifecycleProjection) (observation : TaskPipelineStatus)

def program (env : Environment) : Act → EpicProgram Unit
  | .initialized input => initializeRun env input
  | .tick input => tickRun env input
  | .reported input => reportHiddenDependency env input
  | .submitted input => do
      let _ ← submit env input
      pure ()
  | .reconciled runId => do
      let graph ← activeGraphOf runId
      reconcile env runId graph.dag
  | .cancelled runId taskId => cancel env runId taskId
  | .late runId task observation => do
      let _ ← applyDriverStatus runId task observation
      pure ()

def perform (env : Environment) (w : EpicWorld) (act : Act) : EpicWorld := (program env act w).2

def start : EpicWorld :=
  { integration := IntegrationService.start
    plans := .empty
    dispatches := .empty
    leases := .empty
    issued := 0
    graphs := emptyGraphs
    replanning := emptyReplans
    calls := 0
    readings := 0
    log := [] }

def runActs (env : Environment) (acts : List Act) : EpicWorld := acts.foldl (perform env) start

end Hashed

end Heniek.EpicRuntime
