import Heniek.RecoveryPolicy
import Heniek.StageTransitions

/-!
One tick of the deterministic pipeline scheduler, phase by phase as the source
runs it. A value thrown by the source is an `Except` error: an undeclared
transition, an access through an undefined value, a call-stack overflow in a
cyclic expression. The release loop has fuel; exhausting it is an error too, and
`SchedulerRelease` shows that it never happens.

`recorded` is a history variable: it keeps every call of `recordDecision`, also
the calls whose id is already in the tick's decision list. Nothing reads it.
Fields of the input that no phase reads (observation schema version, signature,
approved flag, duration and revision limits) are left out.
-/

namespace Heniek.SchedulerTick
open KeyedTable PipelineVocabulary ExpressionEvaluation PipelineDocument
open RecoveryPolicy SchedulerIds StageTransitions ScriptText

structure StageSnapshot where
  runId : String
  stageId : String
  graphRevision : Nat
  generation : Nat
  state : StageState
  attemptOrdinal : Nat
  currentAttemptId : Option String := none
  lastTransitionReason : Option TransitionReason := none
  blockReason : Option String := none
  selected : Bool
  updatedAt : String
  deriving DecidableEq

structure SchedulerObservation where
  observationId : String
  kind : ObservationKind
  stageId : Option String := none
  attemptId : Option String := none
  retryable : Option Bool := none
  edgeKey : Option String := none
  selected : Option Bool := none
  recordedAt : String
  failure : Option PipelineFailure := none
  proposalId : Option String := none
  classification : Option String := none
  phase : Option String := none
  code : Option String := none
  backendClassification : Option String := none
  validationFailures : Option (List String) := none
  resumeAvailable : Option Bool := none
  priorBackendExecutionId : Option String := none
  deriving DecidableEq

structure SchedulerDecision where
  schemaVersion : Nat
  decisionId : String
  runId : String
  stageId : String
  graphRevision : Nat
  generation : Nat
  attemptOrdinal : Nat
  action : DecisionAction
  reason : TransitionReason
  fromState : Option StageState
  toState : Option StageState
  attemptId : Option String
  intentId : Option String
  detail : Option String
  recordedAt : String
  recoveryDecisionId : Option String
  signatureDigest : Option String
  deriving DecidableEq

inductive IntentPayload where
  | dispatch (stageId : String) (stageType : StageType) (attemptId : String)
      (generation attemptOrdinal : Nat) (retryDirective : Option RetryDirective)
  | cancel (stageId attemptId : String) (generation attemptOrdinal : Nat)
  | evaluator (fromStageId toStageId profile question edgeKey : String)
  deriving DecidableEq

structure SchedulerIntent where
  schemaVersion : Nat
  intentId : String
  runId : String
  graphRevision : Nat
  kind : IntentKind
  payload : IntentPayload
  createdAt : String
  deriving DecidableEq

structure StageAttempt where
  schemaVersion : Nat
  attemptId : String
  runId : String
  pipelineId : String
  stageId : String
  graphRevision : Nat
  generation : Nat
  attemptOrdinal : Nat
  stageType : StageType
  createdAt : String
  sessionPolicy : Option SessionPolicy := none
  priorAttemptId : Option String := none
  recoveryDecisionId : Option String := none
  delegatedProfileId : Option String := none
  retryDirective : Option RetryDirective := none
  deriving DecidableEq

structure StageTransition where
  stageId : String
  fromState : StageState
  toState : StageState
  reason : TransitionReason
  attemptId : Option String
  generation : Nat
  blockReason : Option String
  deriving DecidableEq

structure ScheduleTerminal where
  outcome : TerminalOutcome
  reason : String
  blockedStageId : Option String := none
  deriving DecidableEq

/-- A stored proposal: an object with a `mode` member, read as a directive, or any other JSON. -/
inductive ProposalJson where
  | directive (value : RetryDirective)
  | other
  deriving DecidableEq

structure StageRecoveryState where
  stageId : String
  generation : Nat
  repairsUsed : Nat
  lastSignatureDigest : Option String := none
  identicalSignatureCount : Nat
  pendingProposalId : Option String := none
  pendingProposalJson : Option ProposalJson := none
  pendingDirective : Option RetryDirective := none
  deriving DecidableEq

structure EffectiveLimits where
  maxRepairAttempts : Option Nat := none
  maxConcurrentWorkers : Option Nat := none
  deriving DecidableEq

structure EvaluatorDecision where
  edgeKey : String
  selected : Bool
  recordedAt : String
  deriving DecidableEq

structure SchedulerInput where
  schemaVersion : Nat := 1
  runId : String
  pipelineId : String
  graphRevision : Nat
  scheduleRevision : Nat
  graph : PipelineGraph
  now : String
  deadlineAt : Option String := none
  stages : List StageSnapshot
  observations : List SchedulerObservation
  canonicalState : JsonValue
  pendingEvaluatorEdgeKeys : List String := []
  evaluatorDecisions : List EvaluatorDecision := []
  recoveryState : Option (List StageRecoveryState) := none
  effectiveLimits : Option EffectiveLimits := none
  executionMode : Option ExecutionMode := none

structure SchedulerPlan where
  schemaVersion : Nat
  runId : String
  graphRevision : Nat
  expectedScheduleRevision : Nat
  nextScheduleRevision : Nat
  recordedAt : String
  transitions : List StageTransition
  decisions : List SchedulerDecision
  intents : List SchedulerIntent
  attempts : List StageAttempt
  stagePatches : List StageSnapshot
  consumedObservationIds : List String
  terminal : Option ScheduleTerminal
  recoveryDecisions : Option (List RecoveryDecision)
  recoveryState : Option (List StageRecoveryState)
  deriving DecidableEq

inductive SchedulerError where
  | undeclaredTransition (fromState toState : StageState) (reason : TransitionReason)
  | undefinedAccess
  | stackOverflow
  | releaseDiverged
  deriving DecidableEq

structure EdgeSelection where
  edgeKey : String
  selected : Bool
  deriving DecidableEq

structure RecoveryEntry where
  key : String
  generation : Nat
  counters : StageRecoveryCounters
  deriving DecidableEq

structure TickContext where
  input : SchedulerInput
  v2 : Bool
  working : Table StageSnapshot.stageId
  evaluatorDecisions : Table EdgeSelection.edgeKey
  pendingEvaluators : List String
  recoveryByKey : Table RecoveryEntry.key
  transitions : List StageTransition := []
  decisions : List SchedulerDecision := []
  intents : List SchedulerIntent := []
  attempts : List StageAttempt := []
  recoveryDecisions : List RecoveryDecision := []
  consumedObservationIds : List String := []
  cancelRequested : Bool := false
  deadlineExceeded : Bool
  recorded : List SchedulerDecision := []

abbrev Tick (α : Type) := Except SchedulerError α

def require {α : Type} : Option α → Tick α
  | some value => .ok value
  | none => .error .undefinedAccess

namespace TickContext

def graph (ctx : TickContext) : PipelineGraph := ctx.input.graph

def schemaVersion (ctx : TickContext) : Nat := if ctx.v2 then 2 else 1

def stage? (ctx : TickContext) (stageId : String) : Option StageSnapshot :=
    ctx.working.find? stageId

def setStage (ctx : TickContext) (stage : StageSnapshot) : TickContext :=
  { ctx with working := ctx.working.upsert stage }

def stopping (ctx : TickContext) : Bool := ctx.cancelRequested || ctx.deadlineExceeded

def sortedStageIds (ctx : TickContext) : List String := sortTexts ctx.working.keys

end TickContext

def recoveryKey (stageId : String) (generation : Nat) : String :=
  stageId ++ ":" ++ toString generation

def recoveryCounters (ctx : TickContext) (stage : StageSnapshot) : StageRecoveryCounters :=
  match ctx.recoveryByKey.find? (recoveryKey stage.stageId stage.generation) with
  | some entry => entry.counters
  | none => {}

def setRecoveryCounters (ctx : TickContext) (stage : StageSnapshot)
    (counters : StageRecoveryCounters) : TickContext :=
  { ctx with
    recoveryByKey := ctx.recoveryByKey.upsert
      ⟨recoveryKey stage.stageId stage.generation, stage.generation, counters⟩ }

def getRecoveryCounters (ctx : TickContext) (stage : StageSnapshot) :
    StageRecoveryCounters × TickContext :=
  match ctx.recoveryByKey.find? (recoveryKey stage.stageId stage.generation) with
  | some entry => (entry.counters, ctx)
  | none => ({}, setRecoveryCounters ctx stage {})

structure DecisionRequest where
  stageId : String
  action : DecisionAction
  reason : TransitionReason
  fromState : Option StageState := none
  toState : Option StageState := none
  attemptId : Option String := none
  intentId : Option String := none
  detail : Option String := none
  generation : Nat
  attemptOrdinal : Nat
  recoveryDecisionId : Option String := none
  signatureDigest : Option String := none

def decisionOf (ctx : TickContext) (request : DecisionRequest) : SchedulerDecision where
  schemaVersion := ctx.schemaVersion
  decisionId := deriveDecisionId ctx.input.runId ctx.input.graphRevision request.stageId
    request.generation request.attemptOrdinal request.action
  runId := ctx.input.runId
  stageId := request.stageId
  graphRevision := ctx.input.graphRevision
  generation := request.generation
  attemptOrdinal := request.attemptOrdinal
  action := request.action
  reason := request.reason
  fromState := request.fromState
  toState := request.toState
  attemptId := request.attemptId
  intentId := request.intentId
  detail := request.detail
  recordedAt := ctx.input.now
  recoveryDecisionId := request.recoveryDecisionId
  signatureDigest := request.signatureDigest

def recordDecision (ctx : TickContext) (request : DecisionRequest) : TickContext :=
  let decision := decisionOf ctx request
  { ctx with
    recorded := ctx.recorded ++ [decision]
    decisions :=
      if ctx.decisions.any fun earlier => decide (earlier.decisionId = decision.decisionId) then
        ctx.decisions
      else ctx.decisions ++ [decision] }

structure TransitionOptions where
  action : DecisionAction
  attemptId : Option String := none
  intentId : Option String := none
  detail : Option String := none
  blockReason : Option String := none
  clearAttempt : Bool := false
  selected : Option Bool := none
  decisionReason : Option TransitionReason := none
  recoveryDecisionId : Option String := none
  signatureDigest : Option String := none

def movedStage (now : String) (stage : StageSnapshot) (toState : StageState)
    (reason : TransitionReason) (options : TransitionOptions) : StageSnapshot :=
  { stage with
    state := toState
    lastTransitionReason := some reason
    updatedAt := now
    blockReason :=
      match options.blockReason with
      | some text => some text
      | none => if toState = .blocked then stage.blockReason else none
    selected := options.selected.getD stage.selected
    currentAttemptId :=
      if options.clearAttempt then none
      else match options.attemptId with
        | some attemptId => some attemptId
        | none => stage.currentAttemptId }

/-- The effect of `applyTransition` once the transition is known to be declared. -/
def moveStage (ctx : TickContext) (stage : StageSnapshot) (toState : StageState)
    (reason : TransitionReason) (options : TransitionOptions) : TickContext :=
  let moved := movedStage ctx.input.now stage toState reason options
  let ctx := ctx.setStage moved
  let ctx := { ctx with
    transitions := ctx.transitions ++
      [⟨stage.stageId, stage.state, toState, reason, options.attemptId, stage.generation,
        options.blockReason⟩] }
  recordDecision ctx
    { stageId := stage.stageId
      action := options.action
      reason := options.decisionReason.getD reason
      fromState := some stage.state
      toState := some toState
      attemptId :=
        match options.attemptId with
        | some attemptId => some attemptId
        | none => moved.currentAttemptId
      intentId := options.intentId
      detail :=
        match options.detail with
        | some detail => some detail
        | none => options.blockReason
      recoveryDecisionId := options.recoveryDecisionId
      signatureDigest := options.signatureDigest
      generation := stage.generation
      attemptOrdinal := stage.attemptOrdinal }

def applyTransition (ctx : TickContext) (stage : StageSnapshot) (toState : StageState)
    (reason : TransitionReason) (options : TransitionOptions) : Tick TickContext :=
  if isPermittedTransition stage.state toState reason then
    .ok (moveStage ctx stage toState reason options)
  else .error (.undeclaredTransition stage.state toState reason)

def maxRepairAttemptsFor (stage : PipelineStage) (graph : PipelineGraph)
    (effectiveLimits : Option EffectiveLimits) : Nat :=
  resolveRepairBudget
    { effectiveMaxRepairAttempts := effectiveLimits.bind EffectiveLimits.maxRepairAttempts
      stageMaxRepairAttempts := stage.maxRepairAttempts
      pipelineMaxRepairAttempts := graph.limits.maxRepairAttempts
      validationMaxAttempts := stage.onValidationFailure.bind OnValidationFailure.maxAttempts }

def producedWrites (ctx : TickContext) (excludingStageId : String) : List String :=
  ctx.graph.stages.flatMap fun stage =>
    if stage.id = excludingStageId then []
    else match ctx.stage? stage.id with
      | some projection => if projection.state = .succeeded then stage.writes else []
      | none => []

inductive EdgeResolution where
  | pending
  | selected
  | rejected
  | blocked (reason : String)
  | waived
  deriving DecidableEq

def requestEvaluator (ctx : TickContext) (edge : PipelineEdge) (profile question : String)
    (target : StageSnapshot) : TickContext :=
  let key := edgeKey edge.fromStageId edge.toStageId
  let intentId := deriveIntentId ctx.input.runId ctx.input.graphRevision .evaluator key
  let ctx := { ctx with
    intents := ctx.intents ++
      [{ schemaVersion := ctx.schemaVersion
         intentId := intentId
         runId := ctx.input.runId
         graphRevision := ctx.input.graphRevision
         kind := .evaluator
         payload := .evaluator edge.fromStageId edge.toStageId profile question key
         createdAt := ctx.input.now }]
    pendingEvaluators :=
      if key ∈ ctx.pendingEvaluators then ctx.pendingEvaluators
        else ctx.pendingEvaluators ++ [key] }
  recordDecision ctx
    { stageId := edge.toStageId
      action := .requestEvaluator
      reason := .dependenciesSatisfied
      intentId := some intentId
      detail := some key
      generation := target.generation
      attemptOrdinal := target.attemptOrdinal }

/-- The part of `resolveIncomingEdge` that reads the edge's condition. -/
def resolveCondition (ctx : TickContext) (edge : PipelineEdge) :
    Tick (EdgeResolution × TickContext) :=
  match edge.condition with
  | none => .ok (.selected, ctx)
  | some (.expression condition) =>
    match evaluateExpressionCondition condition ctx.input.canonicalState with
    | none => .error .stackOverflow
    | some (.failure reason) => .ok (.blocked (reason.code.text ++ ":" ++ reason.message), ctx)
    | some (.ok value) => .ok (if value then .selected else .rejected, ctx)
  | some (.evaluator profile question) =>
    let key := edgeKey edge.fromStageId edge.toStageId
    match ctx.evaluatorDecisions.find? key with
    | some decision => .ok (if decision.selected then .selected else .rejected, ctx)
    | none =>
      if key ∈ ctx.pendingEvaluators then .ok (.pending, ctx)
      else
        let intentId := deriveIntentId ctx.input.runId ctx.input.graphRevision .evaluator key
        if ctx.intents.any fun intent => decide (intent.intentId = intentId) then
          .ok (.pending, ctx)
        else do
          let target ← require (ctx.stage? edge.toStageId)
          .ok (.pending, requestEvaluator ctx edge profile question target)

def resolveIncomingEdge (ctx : TickContext) (edge : PipelineEdge) :
    Tick (EdgeResolution × TickContext) := do
  let predecessor ← require (ctx.stage? edge.fromStageId)
  match predecessor.state with
  | .blocked => .ok (.blocked (predecessor.blockReason.getD "predecessor_blocked"), ctx)
  | .failed =>
    let predecessorStage ← require ((stagesById ctx.graph).find? edge.fromStageId)
    if predecessorStage.optional then .ok (.waived, ctx)
    else .ok (.blocked ("required predecessor " ++ edge.fromStageId ++ " failed"), ctx)
  | .cancelled =>
    if predecessor.selected = false ∨
        predecessor.lastTransitionReason = some .conditionNotSelected then .ok (.rejected, ctx)
    else .ok (.blocked ("predecessor " ++ edge.fromStageId ++ " cancelled"), ctx)
  | .succeeded => resolveCondition ctx edge
  | _ => .ok (.pending, ctx)

def resolveEdges : (edges : List PipelineEdge) → TickContext →
    Tick (List EdgeResolution × TickContext)
  | [], ctx => .ok ([], ctx)
  | edge :: edges, ctx => do
      let (resolution, ctx) ← resolveIncomingEdge ctx edge
      let (resolutions, ctx) ← resolveEdges edges ctx
      .ok (resolution :: resolutions, ctx)

def EdgeResolution.blockedReason? : EdgeResolution → Option String
  | .blocked reason => some reason
  | _ => none

def unsatisfiedReads (ctx : TickContext) (stage : PipelineStage) : Option String :=
  stage.reads.find? fun read =>
    (ctx.graph.stages.any fun candidate =>
      decide (candidate.id ≠ stage.id) && decide (read ∈ candidate.writes)) &&
    decide (read ∉ producedWrites ctx stage.id)

/-- The part of `maybeReleaseStage` after every incoming edge is resolved. -/
def settleRelease (ctx : TickContext) (stage : StageSnapshot) (resolutions : List EdgeResolution) :
    Tick TickContext :=
  if .pending ∈ resolutions then .ok ctx
  else
    match resolutions.findSome? EdgeResolution.blockedReason? with
    | some reason =>
      applyTransition ctx stage .blocked .dependencyUnsatisfied
        { action := .block, blockReason := some reason }
    | none =>
      if .selected ∉ resolutions then
        applyTransition ctx stage .cancelled .conditionNotSelected
          { action := .cancel, selected := some false, clearAttempt := true }
      else do
        let definition ← require ((stagesById ctx.graph).find? stage.stageId)
        match unsatisfiedReads ctx definition with
        | some read =>
          applyTransition ctx stage .blocked .dependencyUnsatisfied
            { action := .block, blockReason := some ("unsatisfied read " ++ read) }
        | none =>
          applyTransition ctx stage .ready .dependenciesSatisfied { action := .release }

def maybeReleaseStage (ctx : TickContext) (stageId : String) : Tick TickContext := do
  let stage ← require (ctx.stage? stageId)
  if stage.selected = false ∨ stage.state ≠ .pending then .ok ctx
  else if ctx.stopping then .ok ctx
  else
    match incoming ctx.graph stageId with
    | [] => applyTransition ctx stage .ready .rootEligible { action := .release }
    | edges => do
        let (resolutions, ctx) ← resolveEdges edges ctx
        settleRelease ctx stage resolutions

def releaseSweep (ctx : TickContext) : Tick TickContext :=
  ctx.sortedStageIds.foldlM maybeReleaseStage ctx

def progressCount (ctx : TickContext) : Nat := ctx.transitions.length + ctx.intents.length

/-- `while (progressed)`. -/
def releaseLoop : (fuel : Nat) → TickContext → Tick TickContext
  | 0, _ => .error .releaseDiverged
  | fuel + 1, ctx => do
      let swept ← releaseSweep ctx
      if progressCount ctx < progressCount swept then releaseLoop fuel swept else .ok swept

def releaseFuel (ctx : TickContext) : Nat :=
  ctx.working.rows.length + ctx.graph.edges.length + 1

def cancelInactiveStage (ctx : TickContext) (stage : StageSnapshot) (reason : TransitionReason) :
    Tick TickContext :=
  if stage.state.inactive then
    applyTransition ctx stage .cancelled reason { action := .cancel, clearAttempt := true }
  else .ok ctx

def requestCancel (ctx : TickContext) (stage : StageSnapshot) (attemptId : String) : TickContext :=
  let intentId := deriveIntentId ctx.input.runId ctx.input.graphRevision .cancel
    (attemptKey stage.stageId stage.generation stage.attemptOrdinal)
  let ctx := { ctx with
    intents := ctx.intents ++
      [{ schemaVersion := ctx.schemaVersion
         intentId := intentId
         runId := ctx.input.runId
         graphRevision := ctx.input.graphRevision
         kind := .cancel
         payload := .cancel stage.stageId attemptId stage.generation stage.attemptOrdinal
         createdAt := ctx.input.now }] }
  recordDecision ctx
    { stageId := stage.stageId
      action := .requestCancel
      reason := .cancelRequested
      attemptId := some attemptId
      intentId := some intentId
      generation := stage.generation
      attemptOrdinal := stage.attemptOrdinal }

def requestCancelForActive (ctx : TickContext) (stage : StageSnapshot) : TickContext :=
  if stage.state.inFlight then
    match stage.currentAttemptId with
    | none => ctx
    | some attemptId =>
      let intentId := deriveIntentId ctx.input.runId ctx.input.graphRevision .cancel
        (attemptKey stage.stageId stage.generation stage.attemptOrdinal)
      if ctx.intents.any fun intent => decide (intent.intentId = intentId) then ctx
      else requestCancel ctx stage attemptId
  else ctx

def cancelReason (ctx : TickContext) : TransitionReason :=
  if ctx.deadlineExceeded then .deadlineExceeded else .pipelineCancelled

def cancelStage (ctx : TickContext) (stageId : String) : Tick TickContext := do
  let stage ← require (ctx.stage? stageId)
  let ctx ← cancelInactiveStage ctx stage (cancelReason ctx)
  let stage ← require (ctx.stage? stageId)
  .ok (requestCancelForActive ctx stage)

def cancelPass (ctx : TickContext) : Tick TickContext :=
  if ctx.stopping then ctx.sortedStageIds.foldlM cancelStage ctx else .ok ctx

def rerunStage (now : String) (stage : StageSnapshot) : StageSnapshot :=
  { stage with
    generation := stage.generation + 1
    attemptOrdinal := 0
    currentAttemptId := none
    blockReason := none
    selected := true
    lastTransitionReason := some .manualRerun
    updatedAt := now
    state := .pending }

def rerunTarget (ctx : TickContext) (targetId : String) : Tick TickContext := do
  let stage ← require (ctx.stage? targetId)
  if stage.state.isTerminal = false ∧ stage.state ≠ .pending then .ok ctx
  else
    let rerun := rerunStage ctx.input.now stage
    let ctx := setRecoveryCounters (ctx.setStage rerun) rerun {}
    let ctx ←
      if stage.state ≠ .pending then
        if isPermittedTransition stage.state .pending .manualRerun then
          .ok { ctx with
            transitions := ctx.transitions ++
              [⟨stage.stageId, stage.state, .pending, .manualRerun, none, rerun.generation, none⟩] }
        else .error (.undeclaredTransition stage.state .pending .manualRerun)
      else .ok ctx
    .ok (recordDecision ctx
      { stageId := stage.stageId
        action := .rerun
        reason := .manualRerun
        fromState := some stage.state
        toState := some .pending
        generation := rerun.generation
        attemptOrdinal := 0 })

def processManualRerun (ctx : TickContext) (stageId : String) : Tick TickContext :=
  match ctx.stage? stageId with
  | none => .ok ctx
  | some _ => (sortTexts (stageId :: descendants ctx.graph stageId)).foldlM rerunTarget ctx

def resolveFailureFromObservation (observation : SchedulerObservation) : Option PipelineFailure :=
  match observation.failure with
  | some failure => some failure
  | none => do
      let classification ← observation.classification
      let phase ← observation.phase
      let code ← observation.code
      some (classifyFailure
        { classification := classification
          phase := phase
          code := code
          retryable := decide (observation.retryable = some true)
          backendClassification := observation.backendClassification
          validationFailures := observation.validationFailures })

def observedAttemptId (stage : StageSnapshot)
    (observation : SchedulerObservation) : Option String :=
  match observation.attemptId with
  | some attemptId => some attemptId
  | none => stage.currentAttemptId

def applyRecoveryDecision (ctx : TickContext) (stage : StageSnapshot)
    (observation : SchedulerObservation) (result : DecideRecoveryResult) : Tick TickContext :=
  let ctx := { ctx with recoveryDecisions := ctx.recoveryDecisions ++ [result.recoveryDecision] }
  let ctx := setRecoveryCounters ctx stage result.nextCounters
  let attemptId := observedAttemptId stage observation
  let signatureDigest := result.recoveryDecision.signature.map FailureSignature.digest
  let decisionId := result.recoveryDecision.decisionId
  match result.verdict with
  | .fail reason =>
    let transitionReason : TransitionReason :=
      if reason = .repairExhausted ∨ reason = .unchangedFailureExhausted then .retryExhausted
      else .attemptFailed
    let decisionReason : TransitionReason :=
      match reason with
      | .repairExhausted => .repairExhausted
      | .unchangedFailureExhausted => .unchangedFailureExhausted
      | .attemptFailed => .attemptFailed
    applyTransition ctx stage .failed transitionReason
      { action := .fail, attemptId := attemptId, decisionReason := some decisionReason,
        recoveryDecisionId := some decisionId, signatureDigest := signatureDigest }
  | .block blockReason =>
    applyTransition ctx stage .blocked .conditionBlocked
      { action := .block, attemptId := attemptId, blockReason := some blockReason,
        decisionReason := some .conditionBlocked, recoveryDecisionId := some decisionId,
        signatureDigest := signatureDigest }
  | .propose _ =>
    applyTransition ctx stage .waiting .attemptWaiting
      { action := .proposeRecovery, attemptId := attemptId,
        decisionReason := some .recoveryProposed, recoveryDecisionId := some decisionId,
        signatureDigest := signatureDigest }
  | .retry _ =>
    applyTransition ctx stage .retrying .retryScheduled
      { action := .retry, attemptId := attemptId, decisionReason := some .retryScheduled,
        recoveryDecisionId := some decisionId, signatureDigest := signatureDigest }

def recoveryInput (ctx : TickContext) (stage : StageSnapshot) (definition : PipelineStage)
    (observation : SchedulerObservation) (failure : PipelineFailure) : DecideRecoveryInput where
  runId := ctx.input.runId
  stageId := stage.stageId
  graphRevision := ctx.input.graphRevision
  generation := stage.generation
  attemptOrdinal := stage.attemptOrdinal
  now := ctx.input.now
  failure := failure
  stageType := definition.type
  sessionPolicy := definition.session
  onValidationFailure := definition.onValidationFailure
  executionMode := ctx.input.executionMode.getD definition.mode
  counters := recoveryCounters ctx stage
  repairBudget := maxRepairAttemptsFor definition ctx.graph ctx.input.effectiveLimits
  priorAttemptId := observedAttemptId stage observation
  priorBackendExecutionId := observation.priorBackendExecutionId
  resumeAvailable := decide (observation.resumeAvailable = some true)

def processUnclassifiedFailure (ctx : TickContext) (stage : StageSnapshot)
    (definition : PipelineStage) (observation : SchedulerObservation) : Tick TickContext :=
  let maxRepairs := maxRepairAttemptsFor definition ctx.graph ctx.input.effectiveLimits
  let repairsUsed := stage.attemptOrdinal - 1
  let attemptId := observedAttemptId stage observation
  if observation.retryable = some true ∧ repairsUsed < maxRepairs then
    applyTransition ctx stage .retrying .retryScheduled { action := .retry, attemptId := attemptId }
  else
    applyTransition ctx stage .failed
      (if maxRepairs ≤ repairsUsed ∧ observation.retryable = some true then .retryExhausted
        else .attemptFailed)
      { action := .fail, attemptId := attemptId }

def processAttemptFailed [Sha256] (ctx : TickContext) (stage : StageSnapshot)
    (observation : SchedulerObservation) : Tick TickContext :=
  if stage.state ≠ .running ∧ stage.state ≠ .waiting then .ok ctx
  else do
    let definition ← require ((stagesById ctx.graph).find? stage.stageId)
    match resolveFailureFromObservation observation with
    | some failure =>
      let result := decideRecovery (recoveryInput ctx stage definition observation failure)
      applyRecoveryDecision (getRecoveryCounters ctx stage).2 stage observation result
    | none => processUnclassifiedFailure ctx stage definition observation

def answeredDecision (ctx : TickContext) (stage : StageSnapshot) (definition : PipelineStage)
    (action : RecoveryAction) (outcome : RecoveryOutcome) (directive : Option RetryDirective)
    (proposalId : Option String) (counters : StageRecoveryCounters) : RecoveryDecision where
  decisionId := deriveRecoveryDecisionId ctx.input.runId ctx.input.graphRevision stage.stageId
    stage.generation stage.attemptOrdinal action.text
  runId := ctx.input.runId
  stageId := stage.stageId
  graphRevision := ctx.input.graphRevision
  generation := stage.generation
  attemptOrdinal := stage.attemptOrdinal
  action := action
  outcome := outcome
  directive := directive
  proposalId := proposalId
  repairsUsed := counters.repairsUsed
  repairBudget := maxRepairAttemptsFor definition ctx.graph ctx.input.effectiveLimits
  identicalSignatureCount := counters.identicalSignatureCount
  recordedAt := ctx.input.now

def approvedCounters (counters : StageRecoveryCounters) (directive : RetryDirective) :
    StageRecoveryCounters where
  repairsUsed := counters.repairsUsed + 1
  identicalSignatureCount := counters.identicalSignatureCount
  lastSignatureDigest := counters.lastSignatureDigest
  pendingDirective := some directive

def approvedOutcome (directive : RetryDirective) : RecoveryOutcome :=
  match directive.mode with
  | .delegate => .delegate
  | .resume => .repair
  | .fresh => .repairFresh

/-- `processRecoveryApproved` once the observation is known to answer the pending proposal. -/
def approveRecovery (ctx : TickContext) (stage : StageSnapshot) (observation : SchedulerObservation)
    (definition : PipelineStage) (directive : RetryDirective) : Tick TickContext :=
  let nextCounters := approvedCounters (recoveryCounters ctx stage) directive
  let decision := answeredDecision ctx stage definition .approve (approvedOutcome directive)
    (some directive) observation.proposalId nextCounters
  let ctx := { ctx with recoveryDecisions := ctx.recoveryDecisions ++ [decision] }
  applyTransition (setRecoveryCounters ctx stage nextCounters) stage .retrying .retryScheduled
    { action := .approveRecovery, attemptId := observedAttemptId stage observation,
      decisionReason := some .recoveryApproved, recoveryDecisionId := some decision.decisionId }

def processRecoveryApproved (ctx : TickContext) (stage : StageSnapshot)
    (observation : SchedulerObservation) : Tick TickContext :=
  if stage.state ≠ .waiting then .ok ctx
  else
    let (counters, ctx) := getRecoveryCounters ctx stage
    if observation.proposalId = none ∨ counters.pendingProposalId = none ∨
        observation.proposalId ≠ counters.pendingProposalId then .ok ctx
    else
      match counters.pendingDirective with
      | none => .ok ctx
      | some directive => do
          let definition ← require ((stagesById ctx.graph).find? stage.stageId)
          approveRecovery ctx stage observation definition directive

/-- The counters without their pending proposal and directive. -/
def settledCounters (counters : StageRecoveryCounters) : StageRecoveryCounters where
  repairsUsed := counters.repairsUsed
  identicalSignatureCount := counters.identicalSignatureCount
  lastSignatureDigest := counters.lastSignatureDigest

/-- `processRecoveryRejected` once the observation is known to concern this proposal. -/
def rejectRecovery (ctx : TickContext) (stage : StageSnapshot) (observation : SchedulerObservation)
    (definition : PipelineStage) : Tick TickContext :=
  let counters := recoveryCounters ctx stage
  let decision := answeredDecision ctx stage definition .reject .rejected none
    observation.proposalId counters
  let ctx := { ctx with recoveryDecisions := ctx.recoveryDecisions ++ [decision] }
  applyTransition (setRecoveryCounters ctx stage (settledCounters counters)) stage .failed
    .attemptFailed
    { action := .rejectRecovery, attemptId := observedAttemptId stage observation,
      decisionReason := some .recoveryRejected, recoveryDecisionId := some decision.decisionId }

def processRecoveryRejected (ctx : TickContext) (stage : StageSnapshot)
    (observation : SchedulerObservation) : Tick TickContext :=
  if stage.state ≠ .waiting then .ok ctx
  else
    let (counters, ctx) := getRecoveryCounters ctx stage
    if observation.proposalId ≠ none ∧ counters.pendingProposalId ≠ none ∧
        observation.proposalId ≠ counters.pendingProposalId then .ok ctx
    else do
      let definition ← require ((stagesById ctx.graph).find? stage.stageId)
      rejectRecovery ctx stage observation definition

def decidedStageId (key : String) (observation : SchedulerObservation) : String :=
  match (splitArrow key.toList)[1]? with
  | some target => String.ofList target
  | none => observation.stageId.getD "unknown"

def decideEdge (ctx : TickContext) (observation : SchedulerObservation) (key : String)
    (selected : Bool) : TickContext :=
  let ctx := { ctx with
    evaluatorDecisions := ctx.evaluatorDecisions.upsert ⟨key, selected⟩
    pendingEvaluators := ctx.pendingEvaluators.filter fun pending => pending ≠ key }
  let stageId := decidedStageId key observation
  let stage := ctx.stage? stageId
  recordDecision ctx
    { stageId := stageId
      action := if selected then .selectEdge else .rejectEdge
      reason := if selected then .dependenciesSatisfied else .conditionNotSelected
      detail := some key
      generation := (stage.map StageSnapshot.generation).getD 1
      attemptOrdinal := (stage.map StageSnapshot.attemptOrdinal).getD 0 }

def processStageObservation [Sha256] (ctx : TickContext) (stage : StageSnapshot)
    (observation : SchedulerObservation) : Tick TickContext :=
  let attemptId := observedAttemptId stage observation
  match observation.kind with
  | .attemptStarted =>
    if stage.state = .queued ∨ stage.state = .waiting then
      applyTransition ctx stage .running .attemptStarted
        { action := .start, attemptId := attemptId }
    else .ok ctx
  | .attemptWaiting =>
    if stage.state = .running then
      applyTransition ctx stage .waiting .attemptWaiting
        { action := .wait, attemptId := attemptId }
    else .ok ctx
  | .attemptSucceeded =>
    if stage.state = .running ∨ stage.state = .waiting then
      applyTransition ctx stage .succeeded .attemptSucceeded
        { action := .succeed, attemptId := attemptId }
    else .ok ctx
  | .attemptFailed => processAttemptFailed ctx stage observation
  | .recoveryApproved => processRecoveryApproved ctx stage observation
  | .recoveryRejected => processRecoveryRejected ctx stage observation
  | .cancellationSettled =>
    if stage.state.inFlight then
      applyTransition ctx stage .cancelled .cancellationSettled
        { action := .cancel, attemptId := attemptId }
    else .ok ctx
  | _ => .ok ctx

def consumeObservation (ctx : TickContext) (observation : SchedulerObservation) : TickContext :=
  { ctx with
    consumedObservationIds := ctx.consumedObservationIds ++ [observation.observationId] }

def processObservation [Sha256] (ctx : TickContext) (observation : SchedulerObservation) :
    Tick TickContext :=
  let ctx := consumeObservation ctx observation
  match observation.kind with
  | .cancelRequested => .ok { ctx with cancelRequested := true }
  | .manualRerun =>
    match observation.stageId with
    | some stageId => processManualRerun ctx stageId
    | none => .ok ctx
  | .evaluatorDecided =>
    match observation.edgeKey, observation.selected with
    | some key, some selected => .ok (decideEdge ctx observation key selected)
    | _, _ => .ok ctx
  | _ =>
    match observation.stageId.bind ctx.stage? with
    | some stage => processStageObservation ctx stage observation
    | none => .ok ctx

def rearmRetry (ctx : TickContext) (stageId : String) : Tick TickContext := do
  let stage ← require (ctx.stage? stageId)
  if stage.state ≠ .retrying then .ok ctx
  else if ctx.stopping then .ok ctx
  else
    applyTransition ctx stage .ready .retryScheduled { action := .rearm, clearAttempt := true }

def rearmRetries (ctx : TickContext) (retryingAtTickStart : List String) : Tick TickContext :=
  (sortTexts retryingAtTickStart).foldlM rearmRetry ctx

def maxConcurrent (ctx : TickContext) : Option Nat :=
  resolveEffectiveConcurrency (ctx.input.effectiveLimits.bind EffectiveLimits.maxConcurrentWorkers)
    ctx.graph.limits.maxConcurrentWorkers

def inFlightCount (ctx : TickContext) : Nat :=
  ctx.working.rows.countP fun stage => stage.state.inFlight

def stageAttempt (ctx : TickContext) (stage : StageSnapshot) (definition : PipelineStage) :
    StageAttempt :=
  let attempt : StageAttempt :=
    { schemaVersion := ctx.schemaVersion
      attemptId := deriveAttemptId ctx.input.runId ctx.input.graphRevision stage.stageId
        stage.generation stage.attemptOrdinal
      runId := ctx.input.runId
      pipelineId := ctx.input.pipelineId
      stageId := stage.stageId
      graphRevision := ctx.input.graphRevision
      generation := stage.generation
      attemptOrdinal := stage.attemptOrdinal
      stageType := definition.type
      createdAt := ctx.input.now }
  match (recoveryCounters ctx stage).pendingDirective with
  | none => attempt
  | some directive =>
    { attempt with
      schemaVersion := 2
      retryDirective := some directive
      sessionPolicy := some directive.sessionPolicy
      priorAttemptId := directive.priorAttemptId
      delegatedProfileId := directive.delegateTo
      recoveryDecisionId :=
        (ctx.recoveryDecisions.reverse.find? fun decision =>
          decision.stageId = stage.stageId).map RecoveryDecision.decisionId }

/-- Dispatch leaves the counters in the map, without a pending directive or proposal. -/
def settleDirective (ctx : TickContext) (stage : StageSnapshot) : TickContext :=
  let (counters, ctx) := getRecoveryCounters ctx stage
  match counters.pendingDirective with
  | none => ctx
  | some _ => setRecoveryCounters ctx stage (settledCounters counters)

def dispatchIntent (ctx : TickContext) (stage : StageSnapshot) (definition : PipelineStage) :
    SchedulerIntent :=
  let attempt := stageAttempt ctx stage definition
  { schemaVersion := ctx.schemaVersion
    intentId := deriveIntentId ctx.input.runId ctx.input.graphRevision .dispatch
      (attemptKey stage.stageId stage.generation stage.attemptOrdinal)
    runId := ctx.input.runId
    graphRevision := ctx.input.graphRevision
    kind := .dispatch
    payload := .dispatch stage.stageId definition.type attempt.attemptId stage.generation
      stage.attemptOrdinal attempt.retryDirective
    createdAt := ctx.input.now }

/-- One turn of the queue loop, for a stage that passed its guards. -/
def queueStage (ctx : TickContext) (ready : StageSnapshot) (definition : PipelineStage) :
    Tick TickContext :=
  let stage := { ready with attemptOrdinal := ready.attemptOrdinal + 1 }
  let attempt := stageAttempt ctx stage definition
  let intent := dispatchIntent ctx stage definition
  let ctx := settleDirective ctx stage
  let ctx := { ctx with
    attempts := ctx.attempts ++ [attempt]
    intents := ctx.intents ++ [intent] }
  applyTransition ctx stage .queued .dispatchIntent
    { action := .queue, attemptId := some attempt.attemptId, intentId := some intent.intentId }

def queueLoop : (stageIds : List String) → (inFlight : Nat) → TickContext → Tick TickContext
  | [], _, ctx => .ok ctx
  | stageId :: stageIds, inFlight, ctx => do
      let stage ← require (ctx.stage? stageId)
      if stage.state ≠ .ready ∨ stage.selected = false then queueLoop stageIds inFlight ctx
      else if ctx.stopping then queueLoop stageIds inFlight ctx
      else if (maxConcurrent ctx).any fun cap => decide (cap ≤ inFlight) then .ok ctx
      else
        let definition ← require ((stagesById ctx.graph).find? stageId)
        let ctx ← queueStage ctx stage definition
        queueLoop stageIds (inFlight + 1) ctx

def queueReadyStages (ctx : TickContext) : Tick TickContext :=
  queueLoop ctx.sortedStageIds (inFlightCount ctx) ctx

def requiredFailure (graph : PipelineGraph) (stage : StageSnapshot) : Tick Bool :=
  if stage.state = .failed then do
    let definition ← require ((stagesById graph).find? stage.stageId)
    .ok (!definition.optional)
  else .ok false

def anyRequiredFailure (graph : PipelineGraph) : List StageSnapshot → Tick Bool
  | [] => .ok false
  | stage :: stages => do
      if ← requiredFailure graph stage then .ok true else anyRequiredFailure graph stages

def computeTerminal (ctx : TickContext) : Tick (Option ScheduleTerminal) :=
  let stages := ctx.working.rows
  if stages.any fun stage => !stage.state.isTerminal then .ok none
  else
    match stages.find? fun stage => decide (stage.state = .blocked) with
    | some stage =>
      .ok (some ⟨.blocked, stage.blockReason.getD "stage_blocked", some stage.stageId⟩)
    | none =>
      let allCancelled := stages.all fun stage => decide (stage.state = .cancelled)
      if ctx.cancelRequested || allCancelled then
        .ok (some ⟨.cancelled,
          if ctx.deadlineExceeded then "deadline_exceeded" else "cancel_requested", none⟩)
      else do
        if ← anyRequiredFailure ctx.graph stages then
          .ok (some ⟨.failed, "required_stage_failed", none⟩)
        else
          let anySucceeded := stages.any fun stage => decide (stage.state = .succeeded)
          if !anySucceeded && allCancelled then
            .ok (some ⟨.cancelled, "all_stages_cancelled", none⟩)
          else .ok (some ⟨.succeeded, "graph_complete", none⟩)

def observationBefore (left right : SchedulerObservation) : Bool :=
  if left.recordedAt ≠ right.recordedAt then before left.recordedAt right.recordedAt
  else before left.observationId right.observationId

def sortObservations (observations : List SchedulerObservation) : List SchedulerObservation :=
  observations.insertionSort fun left right => observationBefore right left = false

def decisionBefore (left right : SchedulerDecision) : Bool :=
  if left.stageId ≠ right.stageId then before left.stageId right.stageId
  else before left.decisionId right.decisionId

def sortDecisions (decisions : List SchedulerDecision) : List SchedulerDecision :=
  decisions.insertionSort fun left right => decisionBefore right left = false

def freezeRecoveryEntry (entry : RecoveryEntry) : StageRecoveryState where
  stageId := String.ofList (beforeLast ':' entry.key.toList)
  generation := entry.generation
  repairsUsed := entry.counters.repairsUsed
  lastSignatureDigest := entry.counters.lastSignatureDigest
  identicalSignatureCount := entry.counters.identicalSignatureCount
  pendingProposalId := entry.counters.pendingProposalId
  pendingProposalJson := entry.counters.pendingDirective.map ProposalJson.directive
  pendingDirective := entry.counters.pendingDirective

def recoveryStateBefore (left right : StageRecoveryState) : Bool :=
  if left.stageId ≠ right.stageId then before left.stageId right.stageId
  else decide (left.generation < right.generation)

def freezeRecoveryState (ctx : TickContext) : List StageRecoveryState :=
  (ctx.recoveryByKey.rows.map freezeRecoveryEntry).insertionSort fun left right =>
    recoveryStateBefore right left = false

def initialStage (runId : String) (graphRevision : Nat) (now : String) (stageId : String) :
    StageSnapshot where
  runId := runId
  stageId := stageId
  graphRevision := graphRevision
  generation := 1
  state := .pending
  attemptOrdinal := 0
  selected := true
  updatedAt := now

def initialStageSnapshots (runId : String) (graphRevision : Nat) (graph : PipelineGraph)
    (now : String) : List StageSnapshot :=
  sortBy StageSnapshot.stageId
    (graph.stages.map fun stage => initialStage runId graphRevision now stage.id)

/-- The stage map of a tick: the input's snapshots, then every missing stage of the graph. -/
def workingStages (input : SchedulerInput) : Table StageSnapshot.stageId :=
  input.graph.stages.foldl
    (fun working stage =>
      if stage.id ∈ working.keys then working
      else working.upsert (initialStage input.runId input.graphRevision input.now stage.id))
    (Table.empty.upsertAll input.stages)

def thawRecoveryEntry (entry : StageRecoveryState) : RecoveryEntry where
  key := recoveryKey entry.stageId entry.generation
  generation := entry.generation
  counters :=
    { repairsUsed := entry.repairsUsed
      identicalSignatureCount := entry.identicalSignatureCount
      lastSignatureDigest := entry.lastSignatureDigest
      pendingProposalId := entry.pendingProposalId
      pendingDirective :=
        match entry.pendingDirective, entry.pendingProposalJson with
        | some directive, _ => some directive
        | none, some (.directive directive) => some directive
        | none, _ => none }

def createTickContext (input : SchedulerInput) (v2 : Bool) : Tick TickContext :=
  if edgesResolved input.graph then
    .ok
      { input := input
        v2 := v2
        working := workingStages input
        evaluatorDecisions := Table.empty.upsertAll
          (input.evaluatorDecisions.map fun entry => ⟨entry.edgeKey, entry.selected⟩)
        pendingEvaluators := input.pendingEvaluatorEdgeKeys
        recoveryByKey := Table.empty.upsertAll
          ((input.recoveryState.getD []).map thawRecoveryEntry)
        deadlineExceeded := input.deadlineAt.any fun deadline => !before input.now deadline }
  else .error .undefinedAccess

def retryingStageIds (ctx : TickContext) : List String :=
  (ctx.working.rows.filter fun stage => stage.state = .retrying).map StageSnapshot.stageId

/-- Everything `runTick` does to the stages before it computes the terminal outcome. -/
def runPhases [Sha256] (ctx : TickContext) : Tick TickContext := do
  let observed ← (sortObservations ctx.input.observations).foldlM processObservation ctx
  let ctx₁ ← cancelPass observed
  let ctx₂ ← rearmRetries ctx₁ (retryingStageIds ctx)
  let ctx₃ ← releaseLoop (releaseFuel ctx₂) ctx₂
  let ctx₄ ← queueReadyStages ctx₃
  cancelPass ctx₄

def terminalReason : TerminalOutcome → TransitionReason
  | .blocked => .dependencyUnsatisfied
  | .cancelled => .pipelineCancelled
  | .failed => .attemptFailed
  | .succeeded => .attemptSucceeded

def terminalStageId (graph : PipelineGraph) (terminal : ScheduleTerminal) : Tick String :=
  match terminal.blockedStageId with
  | some stageId => .ok stageId
  | none => (require graph.stages.head?).map PipelineStage.id

def recordTerminal (ctx : TickContext) : Option ScheduleTerminal → Tick TickContext
  | none => .ok ctx
  | some terminal => do
      let stageId ← terminalStageId ctx.graph terminal
      .ok (recordDecision ctx
        { stageId := stageId
          action := .terminal
          reason := terminalReason terminal.outcome
          detail := some terminal.reason
          generation := 1
          attemptOrdinal := 0 })

def planOf (ctx : TickContext) (terminal : Option ScheduleTerminal) : SchedulerPlan :=
  let carriesRecovery := ctx.v2 || !ctx.recoveryDecisions.isEmpty
  { schemaVersion := ctx.schemaVersion
    runId := ctx.input.runId
    graphRevision := ctx.input.graphRevision
    expectedScheduleRevision := ctx.input.scheduleRevision
    nextScheduleRevision := ctx.input.scheduleRevision + 1
    recordedAt := ctx.input.now
    transitions := ctx.transitions
    decisions := sortDecisions ctx.decisions
    intents := sortBy SchedulerIntent.intentId ctx.intents
    attempts := sortBy StageAttempt.attemptId ctx.attempts
    stagePatches := sortBy StageSnapshot.stageId ctx.working.rows
    consumedObservationIds := sortTexts ctx.consumedObservationIds
    terminal := terminal
    recoveryDecisions :=
      if carriesRecovery then some (sortBy RecoveryDecision.decisionId ctx.recoveryDecisions)
      else none
    recoveryState := if carriesRecovery then some (freezeRecoveryState ctx) else none }

/-- `runTick`, keeping the final context beside the plan. -/
def runTick [Sha256] (ctx : TickContext) : Tick (TickContext × SchedulerPlan) := do
  let ctx ← runPhases ctx
  let terminal ← computeTerminal ctx
  let ctx ← recordTerminal ctx terminal
  .ok (ctx, planOf ctx terminal)

def carriesRecoveryFields (observation : SchedulerObservation) : Bool :=
  observation.failure.isSome || decide (observation.kind = .recoveryApproved) ||
    decide (observation.kind = .recoveryRejected) || decide (observation.kind = .recoveryProposed)

def inferredV2 (input : SchedulerInput) : Bool :=
  decide (input.schemaVersion = 2) || input.recoveryState.isSome || input.effectiveLimits.isSome ||
    input.executionMode.isSome || input.observations.any carriesRecoveryFields

/-- A tick with a given version flag. -/
def tickWith [Sha256] (v2 : Bool) (input : SchedulerInput) :
    Tick (TickContext × SchedulerPlan) := do
  runTick (← createTickContext input v2)

def tickScheduler [Sha256] (input : SchedulerInput) : Tick SchedulerPlan :=
  (tickWith (inferredV2 input) input).map Prod.snd

/-- The V2 entry point: the version is forced and the recovery decisions are present. -/
def tickSchedulerV2 [Sha256] (input : SchedulerInput) : Tick SchedulerPlan := do
  let (_, plan) ← tickWith true { input with schemaVersion := 2 }
  .ok { plan with
    schemaVersion := 2
    recoveryDecisions := some (plan.recoveryDecisions.getD []) }

end Heniek.SchedulerTick
