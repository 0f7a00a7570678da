import Heniek.FallibleRun
import Heniek.SchedulerTick

/-!
What a tick can do, said once. `ObservedCause`, `RecoveryCause` and `PhaseCause`
list the call sites of `applyTransition` with their guards: observations of a
stage, observations that also rewrite its recovery counters, and the phases that
read no observation. `Step` lists every change a phase makes to the context.
Each phase runs along `Step`, so an invariant of the scheduler is a case
analysis on it.

An observation is `admitted` at the context in which it is handled; properties
of the observation list, or of the state an observation meets, enter there.
-/

namespace Heniek.SchedulerSteps
open KeyedTable PipelineVocabulary PipelineDocument RecoveryPolicy SchedulerIds StageTransitions
open ScriptText SchedulerTick FallibleRun

/-- The state an outcome of an attempt is accepted in. -/
def Executing (stage : StageSnapshot) : Prop := stage.state = .running ∨ stage.state = .waiting

def budgetOf (ctx : TickContext) (definition : PipelineStage) : Nat :=
  maxRepairAttemptsFor definition ctx.graph ctx.input.effectiveLimits

/-- A selected pending stage in a tick that neither cancels nor is past its deadline. -/
structure Releasable (ctx : TickContext) (stage : StageSnapshot) : Prop where
  pending : stage.state = .pending
  selected : stage.selected = true
  going : ctx.stopping = false

inductive ObservedCause (ctx : TickContext) (stage : StageSnapshot)
    (observation : SchedulerObservation) :
    StageState → TransitionReason → TransitionOptions → Prop
  | start (kind : observation.kind = .attemptStarted)
      (state : stage.state = .queued ∨ stage.state = .waiting) :
      ObservedCause ctx stage observation .running .attemptStarted
        { action := .start, attemptId := observedAttemptId stage observation }
  | wait (kind : observation.kind = .attemptWaiting) (state : stage.state = .running) :
      ObservedCause ctx stage observation .waiting .attemptWaiting
        { action := .wait, attemptId := observedAttemptId stage observation }
  | succeed (kind : observation.kind = .attemptSucceeded) (executing : Executing stage) :
      ObservedCause ctx stage observation .succeeded .attemptSucceeded
        { action := .succeed, attemptId := observedAttemptId stage observation }
  | settle (kind : observation.kind = .cancellationSettled)
      (state : stage.state.inFlight = true) :
      ObservedCause ctx stage observation .cancelled .cancellationSettled
        { action := .cancel, attemptId := observedAttemptId stage observation }
  | retry (definition : PipelineStage) (kind : observation.kind = .attemptFailed)
      (executing : Executing stage)
      (defined : (stagesById ctx.graph).find? stage.stageId = some definition)
      (unclassified : resolveFailureFromObservation observation = none)
      (retryable : observation.retryable = some true)
      (budget : stage.attemptOrdinal - 1 < budgetOf ctx definition) :
      ObservedCause ctx stage observation .retrying .retryScheduled
        { action := .retry, attemptId := observedAttemptId stage observation }
  | fail (reason : TransitionReason) (kind : observation.kind = .attemptFailed)
      (executing : Executing stage)
      (unclassified : resolveFailureFromObservation observation = none)
      (reasons : reason = .retryExhausted ∨ reason = .attemptFailed) :
      ObservedCause ctx stage observation .failed reason
        { action := .fail, attemptId := observedAttemptId stage observation }

inductive PhaseCause (retrying : List String) (ctx : TickContext) (stage : StageSnapshot) :
    StageState → TransitionReason → TransitionOptions → Prop
  | cancelInactive (stopping : ctx.stopping = true) (inactive : stage.state.inactive = true) :
      PhaseCause retrying ctx stage .cancelled (cancelReason ctx)
        { action := .cancel, clearAttempt := true }
  | rearm (armed : stage.stageId ∈ retrying) (state : stage.state = .retrying)
      (going : ctx.stopping = false) :
      PhaseCause retrying ctx stage .ready .retryScheduled
        { action := .rearm, clearAttempt := true }
  | releaseRoot (releasable : Releasable ctx stage) :
      PhaseCause retrying ctx stage .ready .rootEligible { action := .release }
  | releaseReady (releasable : Releasable ctx stage) :
      PhaseCause retrying ctx stage .ready .dependenciesSatisfied { action := .release }
  | releaseBlocked (blockReason : String) (releasable : Releasable ctx stage) :
      PhaseCause retrying ctx stage .blocked .dependencyUnsatisfied
        { action := .block, blockReason := some blockReason }
  | releaseDeselected (releasable : Releasable ctx stage) :
      PhaseCause retrying ctx stage .cancelled .conditionNotSelected
        { action := .cancel, selected := some false, clearAttempt := true }

def verdictState : RecoveryVerdict → StageState
  | .fail _ => .failed
  | .block _ => .blocked
  | .propose _ => .waiting
  | .retry _ => .retrying

def verdictReason : RecoveryVerdict → TransitionReason
  | .fail .attemptFailed => .attemptFailed
  | .fail _ => .retryExhausted
  | .block _ => .conditionBlocked
  | .propose _ => .attemptWaiting
  | .retry _ => .retryScheduled

def verdictAction : RecoveryVerdict → DecisionAction
  | .fail _ => .fail
  | .block _ => .block
  | .propose _ => .proposeRecovery
  | .retry _ => .retry

structure KeepsStage (action : DecisionAction) (attemptId : Option String)
    (options : TransitionOptions) : Prop where
  action_eq : options.action = action
  attempt_eq : options.attemptId = attemptId
  selected_eq : options.selected = none
  clear_eq : options.clearAttempt = false

inductive RecoveryCause [Sha256] (ctx : TickContext) (stage : StageSnapshot)
    (observation : SchedulerObservation) :
    RecoveryDecision → StageRecoveryCounters → StageState → TransitionReason →
      TransitionOptions → Prop
  | classified (definition : PipelineStage) (failure : PipelineFailure)
      (result : DecideRecoveryResult) (options : TransitionOptions)
      (kind : observation.kind = .attemptFailed) (executing : Executing stage)
      (defined : (stagesById ctx.graph).find? stage.stageId = some definition)
      (classifies : resolveFailureFromObservation observation = some failure)
      (decided : result = decideRecovery (recoveryInput ctx stage definition observation failure))
      (keeps : KeepsStage (verdictAction result.verdict) (observedAttemptId stage observation)
        options) :
      RecoveryCause ctx stage observation result.recoveryDecision result.nextCounters
        (verdictState result.verdict) (verdictReason result.verdict) options
  | approved (definition : PipelineStage) (directive : RetryDirective)
      (decision : RecoveryDecision) (options : TransitionOptions)
      (kind : observation.kind = .recoveryApproved) (state : stage.state = .waiting)
      (answers : observation.proposalId = (recoveryCounters ctx stage).pendingProposalId)
      (proposed : (recoveryCounters ctx stage).pendingProposalId ≠ none)
      (directed : (recoveryCounters ctx stage).pendingDirective = some directive)
      (defined : (stagesById ctx.graph).find? stage.stageId = some definition)
      (action : decision.action = .approve)
      (keeps : KeepsStage .approveRecovery (observedAttemptId stage observation) options)
      (made : decision = answeredDecision ctx stage definition .approve
        (approvedOutcome directive) (some directive) observation.proposalId
        (approvedCounters (recoveryCounters ctx stage) directive)) :
      RecoveryCause ctx stage observation decision
        (approvedCounters (recoveryCounters ctx stage) directive) .retrying .retryScheduled options
  | rejected (decision : RecoveryDecision) (options : TransitionOptions)
      (kind : observation.kind = .recoveryRejected) (state : stage.state = .waiting)
      (action : decision.action = .reject)
      (keeps : KeepsStage .rejectRecovery (observedAttemptId stage observation) options)
      (definition : PipelineStage)
      (made : decision = answeredDecision ctx stage definition .reject .rejected none
        observation.proposalId (recoveryCounters ctx stage))
      (concerns : observation.proposalId = none ∨
        (recoveryCounters ctx stage).pendingProposalId = none ∨
        observation.proposalId = (recoveryCounters ctx stage).pendingProposalId) :
      RecoveryCause ctx stage observation decision
        (settledCounters (recoveryCounters ctx stage)) .failed .attemptFailed options

structure Repairs [Sha256] (ctx : TickContext) (observation : SchedulerObservation)
    (stage : StageSnapshot) (definition : PipelineStage) (failure : PipelineFailure) : Prop where
  kind : observation.kind = .attemptFailed
  executing : Executing stage
  classifies : resolveFailureFromObservation observation = some failure
  recoverable : Recoverable (recoveryInput ctx stage definition observation failure)
  autonomous : (recoveryInput ctx stage definition observation failure).executionMode = .autonomous

structure Approves (ctx : TickContext) (observation : SchedulerObservation)
    (stage : StageSnapshot) : Prop where
  kind : observation.kind = .recoveryApproved
  waiting : stage.state = .waiting
  proposed : (recoveryCounters ctx stage).pendingProposalId ≠ none
  answers : observation.proposalId = (recoveryCounters ctx stage).pendingProposalId
  directed : (recoveryCounters ctx stage).pendingDirective ≠ none

def withRecovery (ctx : TickContext) (stage : StageSnapshot) (decision : RecoveryDecision)
    (counters : StageRecoveryCounters) : TickContext :=
  setRecoveryCounters { ctx with recoveryDecisions := ctx.recoveryDecisions ++ [decision] } stage
    counters

def rerunMove (ctx : TickContext) (stage : StageSnapshot) : TickContext :=
  let rerun := rerunStage ctx.input.now stage
  let ctx := setRecoveryCounters (ctx.setStage rerun) rerun {}
  let ctx := { ctx with
    transitions := ctx.transitions ++
      if stage.state ≠ .pending then
        [⟨stage.stageId, stage.state, .pending, .manualRerun, none, rerun.generation, none⟩]
      else [] }
  recordDecision ctx
    { stageId := stage.stageId
      action := .rerun
      reason := .manualRerun
      fromState := some stage.state
      toState := some .pending
      generation := rerun.generation
      attemptOrdinal := 0 }

def bumped (stage : StageSnapshot) : StageSnapshot :=
  { stage with attemptOrdinal := stage.attemptOrdinal + 1 }

def queueMove (ctx : TickContext) (ready : StageSnapshot) (definition : PipelineStage) :
    TickContext :=
  let stage := bumped ready
  let attempt := stageAttempt ctx stage definition
  let intent := dispatchIntent ctx stage definition
  let ctx := settleDirective ctx stage
  let ctx := { ctx with
    attempts := ctx.attempts ++ [attempt]
    intents := ctx.intents ++ [intent] }
  moveStage ctx stage .queued .dispatchIntent
    { action := .queue, attemptId := some attempt.attemptId, intentId := some intent.intentId }

/-- What a stretch of a tick may do besides handling observations: the stages it may rearm,
whether it dispatches, and whether it requests cancellations and evaluators. -/
structure Scope where
  armed : List String
  queues : Bool
  requests : Bool

def Scope.quiet : Scope := ⟨[], false, true⟩

def Scope.reading : Scope := ⟨[], false, false⟩

def tickScope (ctx : TickContext) : Scope := ⟨retryingStageIds ctx, true, true⟩

def evaluatorIntentId (ctx : TickContext) (edge : PipelineEdge) : String :=
  deriveIntentId ctx.input.runId ctx.input.graphRevision .evaluator
    (edgeKey edge.fromStageId edge.toStageId)

def asked (ctx : TickContext) (edge : PipelineEdge) : Bool :=
  ctx.intents.any fun intent => decide (intent.intentId = evaluatorIntentId ctx edge)

/-- Why an incoming edge holds its stage back: its predecessor is not done, or its evaluator has
been asked and has not answered. -/
inductive Awaits (ctx : TickContext) (edge : PipelineEdge) : Prop
  | predecessor (stage : StageSnapshot) (found : ctx.stage? edge.fromStageId = some stage)
      (active : stage.state.isTerminal = false)
  | evaluator (stage : StageSnapshot) (profile question : String)
      (found : ctx.stage? edge.fromStageId = some stage) (succeeded : stage.state = .succeeded)
      (condition : edge.condition = some (.evaluator profile question))
      (undecided : ctx.evaluatorDecisions.find? (edgeKey edge.fromStageId edge.toStageId) = none)
      (awaited : edgeKey edge.fromStageId edge.toStageId ∈ ctx.pendingEvaluators ∨
        asked ctx edge = true)

/-- The predecessor of an edge has succeeded, and its evaluator has not been asked. -/
structure Asks (ctx : TickContext) (edge : PipelineEdge) (profile question : String)
    (target : StageSnapshot) : Prop where
  condition : edge.condition = some (.evaluator profile question)
  succeeded : ∃ stage, ctx.stage? edge.fromStageId = some stage ∧ stage.state = .succeeded
  target : ctx.stage? edge.toStageId = some target
  undecided : ctx.evaluatorDecisions.find? (edgeKey edge.fromStageId edge.toStageId) = none
  unlisted : edgeKey edge.fromStageId edge.toStageId ∉ ctx.pendingEvaluators
  fresh : asked ctx edge = false

/-- The results of `resolveIncomingEdge`. -/
inductive EdgeResolved (ctx : TickContext) (edge : PipelineEdge) :
    EdgeResolution → TickContext → Prop
  | decided (resolution : EdgeResolution) (known : resolution ≠ .pending) :
      EdgeResolved ctx edge resolution ctx
  | held (awaits : Awaits ctx edge) : EdgeResolved ctx edge .pending ctx
  | requested (profile question : String) (target : StageSnapshot)
      (asks : Asks ctx edge profile question target) :
      EdgeResolved ctx edge .pending (requestEvaluator ctx edge profile question target)

section Relations

variable (admits : TickContext → SchedulerObservation → Prop) (scope : Scope)

inductive Step [Sha256] : TickContext → TickContext → Prop
  | consume (ctx : TickContext) (observation : SchedulerObservation)
      (admitted : admits (consumeObservation ctx observation) observation) :
      Step ctx (consumeObservation ctx observation)
  | cancelFlag (ctx : TickContext) (observation : SchedulerObservation)
      (admitted : admits ctx observation) (kind : observation.kind = .cancelRequested) :
      Step ctx { ctx with cancelRequested := true }
  | decideEdge (ctx : TickContext) (observation : SchedulerObservation) (key : String)
      (selected : Bool) (admitted : admits ctx observation)
      (kind : observation.kind = .evaluatorDecided) (edge : observation.edgeKey = some key)
      (choice : observation.selected = some selected) :
      Step ctx (decideEdge ctx observation key selected)
  | touch (ctx : TickContext) (stage : StageSnapshot)
      (found : ctx.stage? stage.stageId = some stage) : Step ctx (getRecoveryCounters ctx stage).2
  | requestCancel (ctx : TickContext) (stage : StageSnapshot) (attemptId : String)
      (found : ctx.stage? stage.stageId = some stage) (stopping : ctx.stopping = true)
      (active : stage.state.inFlight = true) (requests : scope.requests = true) :
      Step ctx (requestCancel ctx stage attemptId)
  | requestEvaluator (ctx : TickContext) (edge : PipelineEdge) (profile question : String)
      (target : StageSnapshot) (member : edge ∈ ctx.graph.edges)
      (asks : Asks ctx edge profile question target) (releasable : Releasable ctx target)
      (requests : scope.requests = true) :
      Step ctx (requestEvaluator ctx edge profile question target)
  | observe (ctx : TickContext) (stage : StageSnapshot) (observation : SchedulerObservation)
      (toState : StageState) (reason : TransitionReason) (options : TransitionOptions)
      (found : ctx.stage? stage.stageId = some stage) (admitted : admits ctx observation)
      (named : observation.stageId = some stage.stageId)
      (cause : ObservedCause ctx stage observation toState reason options) :
      Step ctx (moveStage ctx stage toState reason options)
  | recover (ctx : TickContext) (stage : StageSnapshot) (observation : SchedulerObservation)
      (decision : RecoveryDecision) (counters : StageRecoveryCounters) (toState : StageState)
      (reason : TransitionReason) (options : TransitionOptions)
      (found : ctx.stage? stage.stageId = some stage) (admitted : admits ctx observation)
      (named : observation.stageId = some stage.stageId)
      (cause : RecoveryCause ctx stage observation decision counters toState reason options) :
      Step ctx (moveStage (withRecovery ctx stage decision counters) stage toState reason options)
  | phase (ctx : TickContext) (stage : StageSnapshot) (toState : StageState)
      (reason : TransitionReason) (options : TransitionOptions)
      (found : ctx.stage? stage.stageId = some stage)
      (cause : PhaseCause scope.armed ctx stage toState reason options) :
      Step ctx (moveStage ctx stage toState reason options)
  | rerun (ctx origin : TickContext) (observation : SchedulerObservation) (stage : StageSnapshot)
      (admitted : admits origin observation) (kind : observation.kind = .manualRerun)
      (found : ctx.stage? stage.stageId = some stage)
      (eligible : stage.state.isTerminal = true ∨ stage.state = .pending) :
      Step ctx (rerunMove ctx stage)
  | queue (ctx : TickContext) (stage : StageSnapshot) (definition : PipelineStage)
      (found : ctx.stage? stage.stageId = some stage) (state : stage.state = .ready)
      (selected : stage.selected = true) (going : ctx.stopping = false)
      (defined : (stagesById ctx.graph).find? stage.stageId = some definition)
      (queues : scope.queues = true) :
      Step ctx (queueMove ctx stage definition)

abbrev Steps [Sha256] := Relation.ReflTransGen (Step admits scope)

end Relations

theorem retries_of_inactive [Sha256] {input : DecideRecoveryInput} {result : DecideRecoveryResult}
    (decided : result = decideRecovery input)
    (inactive : (verdictState result.verdict).inactive = true) :
    Recoverable input ∧ input.executionMode = .autonomous := by
  rw [decided] at inactive
  rcases decideRecovery_verdict input with ⟨recoverable, directive, verdict⟩ | ⟨_, settles⟩
  · refine ⟨recoverable, ?_⟩
    rw [verdict] at inactive
    cases mode : input.executionMode with
    | autonomous => rfl
    | hitl =>
      rw [mode] at inactive
      cases inactive
  · revert settles inactive
    cases (decideRecovery input).verdict <;> simp [RecoveryVerdict.settles, verdictState,
      StageState.inactive]

section Context

variable {ctx ctx' : TickContext} {stage : StageSnapshot}

theorem require_eq_ok {α : Type} {value : Option α} {a : α} :
    require value = .ok a ↔ value = some a := by
  cases value <;> simp [require]

theorem applyTransition_eq_ok {toState : StageState} {reason : TransitionReason}
    {options : TransitionOptions} :
    applyTransition ctx stage toState reason options = .ok ctx' ↔
      isPermittedTransition stage.state toState reason = true ∧
        moveStage ctx stage toState reason options = ctx' := by
  unfold applyTransition
  split
  · rename_i permitted
    simp [permitted]
  · rename_i undeclared
    simp [undeclared]

theorem stageId_of_stage? {id : String} (found : ctx.stage? id = some stage) : stage.stageId = id :=
  Table.key_of_find? found

theorem found_self {id : String} (found : ctx.stage? id = some stage) :
    ctx.stage? stage.stageId = some stage := by
  rw [stageId_of_stage? found]
  exact found

theorem touch_cases (ctx : TickContext) (stage : StageSnapshot) :
    (getRecoveryCounters ctx stage).2 = ctx ∨
      recoveryCounters ctx stage = {} ∧
        (getRecoveryCounters ctx stage).2 = setRecoveryCounters ctx stage {} := by
  unfold getRecoveryCounters recoveryCounters
  cases ctx.recoveryByKey.find? (recoveryKey stage.stageId stage.generation) with
  | none => exact Or.inr ⟨rfl, rfl⟩
  | some entry => exact Or.inl rfl

theorem getRecoveryCounters_fst (ctx : TickContext) (stage : StageSnapshot) :
    (getRecoveryCounters ctx stage).1 = recoveryCounters ctx stage := by
  unfold getRecoveryCounters recoveryCounters
  cases ctx.recoveryByKey.find? (recoveryKey stage.stageId stage.generation) <;> rfl

theorem recoveryCounters_set (ctx : TickContext) (stage : StageSnapshot)
    (counters : StageRecoveryCounters) :
    recoveryCounters (setRecoveryCounters ctx stage counters) stage = counters := by
  unfold recoveryCounters setRecoveryCounters
  rw [Table.find?_upsert, if_pos rfl]

theorem recoveryCounters_touch (ctx : TickContext) (stage : StageSnapshot) :
    recoveryCounters (getRecoveryCounters ctx stage).2 stage = recoveryCounters ctx stage := by
  rcases touch_cases ctx stage with same | ⟨fresh, created⟩
  · rw [same]
  · rw [created, recoveryCounters_set, fresh]

theorem withRecovery_touch (ctx : TickContext) (stage : StageSnapshot) (decision : RecoveryDecision)
    (counters : StageRecoveryCounters) :
    withRecovery (getRecoveryCounters ctx stage).2 stage decision counters =
      withRecovery ctx stage decision counters := by
  rcases touch_cases ctx stage with same | ⟨_, created⟩
  · rw [same]
  · rw [created]
    simp [withRecovery, setRecoveryCounters, Table.upsert_upsert]

theorem touch_input (ctx : TickContext) (stage : StageSnapshot) :
    (getRecoveryCounters ctx stage).2.input = ctx.input := by
  rcases touch_cases ctx stage with same | ⟨_, created⟩
  · rw [same]
  · rw [created]
    rfl

theorem answeredDecision_touch (ctx : TickContext) (stage : StageSnapshot)
    (definition : PipelineStage) (action : RecoveryAction) (outcome : RecoveryOutcome)
    (directive : Option RetryDirective) (proposalId : Option String)
    (counters : StageRecoveryCounters) :
    answeredDecision (getRecoveryCounters ctx stage).2 stage definition action outcome directive
        proposalId counters =
      answeredDecision ctx stage definition action outcome directive proposalId counters := by
  simp only [answeredDecision, TickContext.graph, touch_input]

theorem applyRecoveryDecision_eq (ctx : TickContext) (stage : StageSnapshot)
    (observation : SchedulerObservation) (result : DecideRecoveryResult) :
    ∃ options, KeepsStage (verdictAction result.verdict) (observedAttemptId stage observation)
        options ∧
      applyRecoveryDecision ctx stage observation result =
        applyTransition (withRecovery ctx stage result.recoveryDecision result.nextCounters) stage
          (verdictState result.verdict) (verdictReason result.verdict) options := by
  obtain ⟨verdict, decision, counters⟩ := result
  cases verdict with
  | fail reason => cases reason <;> exact ⟨_, by constructor <;> rfl, rfl⟩
  | block blockReason => exact ⟨_, by constructor <;> rfl, rfl⟩
  | propose directive => exact ⟨_, by constructor <;> rfl, rfl⟩
  | retry directive => exact ⟨_, by constructor <;> rfl, rfl⟩

theorem approveRecovery_touch (ctx : TickContext) (stage : StageSnapshot)
    (observation : SchedulerObservation) (definition : PipelineStage) (directive : RetryDirective) :
    approveRecovery (getRecoveryCounters ctx stage).2 stage observation definition directive =
      applyTransition
        (withRecovery ctx stage
          (answeredDecision ctx stage definition .approve (approvedOutcome directive)
            (some directive) observation.proposalId
            (approvedCounters (recoveryCounters ctx stage) directive))
          (approvedCounters (recoveryCounters ctx stage) directive))
        stage .retrying .retryScheduled
        { action := .approveRecovery, attemptId := observedAttemptId stage observation,
          decisionReason := some .recoveryApproved,
          recoveryDecisionId := some (deriveRecoveryDecisionId ctx.input.runId
            ctx.input.graphRevision stage.stageId stage.generation stage.attemptOrdinal
            RecoveryAction.approve.text) } := by
  simp only [approveRecovery, recoveryCounters_touch, answeredDecision_touch]
  rw [← withRecovery_touch]
  rfl

theorem rejectRecovery_touch (ctx : TickContext) (stage : StageSnapshot)
    (observation : SchedulerObservation) (definition : PipelineStage) :
    rejectRecovery (getRecoveryCounters ctx stage).2 stage observation definition =
      applyTransition
        (withRecovery ctx stage
          (answeredDecision ctx stage definition .reject .rejected none observation.proposalId
            (recoveryCounters ctx stage))
          (settledCounters (recoveryCounters ctx stage)))
        stage .failed .attemptFailed
        { action := .rejectRecovery, attemptId := observedAttemptId stage observation,
          decisionReason := some .recoveryRejected,
          recoveryDecisionId := some (deriveRecoveryDecisionId ctx.input.runId
            ctx.input.graphRevision stage.stageId stage.generation stage.attemptOrdinal
            RecoveryAction.reject.text) } := by
  simp only [rejectRecovery, recoveryCounters_touch, answeredDecision_touch]
  rw [← withRecovery_touch]
  rfl

theorem cancelStage_eq_ok {stageId : String} (cancelled : cancelStage ctx stageId = .ok ctx') :
    ∃ stage mid current, ctx.stage? stageId = some stage ∧
      (stage.state.inactive = true ∧
          mid = moveStage ctx stage .cancelled (cancelReason ctx)
            { action := .cancel, clearAttempt := true } ∨
        stage.state.inactive = false ∧ mid = ctx) ∧
      mid.stage? stageId = some current ∧
      (ctx' = mid ∨
        ∃ attemptId, current.state.inFlight = true ∧
          ctx' = requestCancel mid current attemptId) := by
  obtain ⟨stage, found, cancelled⟩ := bind_eq_ok.mp cancelled
  obtain ⟨mid, inactive, cancelled⟩ := bind_eq_ok.mp cancelled
  obtain ⟨current, located, requested⟩ := bind_eq_ok.mp cancelled
  rw [require_eq_ok] at found located
  refine ⟨stage, mid, current, found, ?_, located, ?_⟩
  · unfold cancelInactiveStage at inactive
    split at inactive
    · rename_i state
      exact Or.inl ⟨state, (applyTransition_eq_ok.mp inactive).2.symm⟩
    · rename_i state
      cases inactive
      exact Or.inr ⟨Bool.eq_false_iff.mpr state, rfl⟩
  · cases requested
    simp only [requestCancelForActive]
    split
    · rename_i active
      split
      · exact Or.inl rfl
      · rename_i attemptId _
        split
        · exact Or.inl rfl
        · exact Or.inr ⟨attemptId, active, rfl⟩
    · exact Or.inl rfl

theorem cancelStage_stopping {stageId : String} (cancelled : cancelStage ctx stageId = .ok ctx') :
    ctx'.stopping = ctx.stopping := by
  obtain ⟨stage, mid, current, _, halted, _, requested⟩ := cancelStage_eq_ok cancelled
  rcases halted with ⟨_, rfl⟩ | ⟨_, rfl⟩ <;> rcases requested with rfl | ⟨_, _, rfl⟩ <;> rfl

/-- What resolving edges leaves alone. -/
structure Asked (ctx ctx' : TickContext) : Prop where
  input_eq : ctx'.input = ctx.input
  working_eq : ctx'.working = ctx.working
  transitions_eq : ctx'.transitions = ctx.transitions
  answers_eq : ctx'.evaluatorDecisions = ctx.evaluatorDecisions
  stopping_eq : ctx'.stopping = ctx.stopping

theorem Asked.refl (ctx : TickContext) : Asked ctx ctx := ⟨rfl, rfl, rfl, rfl, rfl⟩

theorem Asked.trans {first second third : TickContext} (left : Asked first second)
    (right : Asked second third) : Asked first third :=
  ⟨right.input_eq.trans left.input_eq, right.working_eq.trans left.working_eq,
    right.transitions_eq.trans left.transitions_eq, right.answers_eq.trans left.answers_eq,
    right.stopping_eq.trans left.stopping_eq⟩

theorem resolveIncomingEdge_eq_ok {edge : PipelineEdge} {resolution : EdgeResolution}
    (resolved : resolveIncomingEdge ctx edge = .ok (resolution, ctx')) :
    EdgeResolved ctx edge resolution ctx' := by
  obtain ⟨predecessor, located, resolved⟩ := bind_eq_ok.mp resolved
  rw [require_eq_ok] at located
  split at resolved
  case h_1 =>
    cases resolved
    exact .decided _ nofun
  case h_2 =>
    obtain ⟨definition, _, resolved⟩ := bind_eq_ok.mp resolved
    split at resolved <;> cases resolved <;> exact .decided _ nofun
  case h_3 => split at resolved <;> cases resolved <;> exact .decided _ nofun
  case h_4 succeeded =>
    unfold resolveCondition at resolved
    split at resolved
    · cases resolved
      exact .decided _ nofun
    · split at resolved
      · cases resolved
      · cases resolved
        exact .decided _ nofun
      · cases resolved
        exact .decided _ (by split <;> nofun)
    · rename_i profile question condition
      simp only at resolved
      split at resolved
      · cases resolved
        exact .decided _ (by split <;> nofun)
      rename_i undecided
      split at resolved
      · rename_i listed
        cases resolved
        exact .held (.evaluator predecessor profile question located succeeded condition undecided
          (Or.inl listed))
      rename_i unlisted
      split at resolved
      · rename_i already
        cases resolved
        exact .held (.evaluator predecessor profile question located succeeded condition undecided
          (Or.inr already))
      · rename_i fresh
        obtain ⟨target, found, resolved⟩ := bind_eq_ok.mp resolved
        cases resolved
        exact .requested profile question target ⟨condition, ⟨predecessor, located, succeeded⟩,
          require_eq_ok.mp found, undecided, unlisted, Bool.eq_false_iff.mpr fresh⟩
  case h_5 =>
    rename_i notBlocked notFailed notCancelled notSucceeded
    cases resolved
    refine .held (.predecessor predecessor located ?_)
    revert notBlocked notFailed notCancelled notSucceeded
    cases predecessor.state <;> simp [StageState.isTerminal]

theorem requestEvaluator_asked (ctx : TickContext) (edge : PipelineEdge) (profile question : String)
    (target : StageSnapshot) : Asked ctx (requestEvaluator ctx edge profile question target) :=
  ⟨rfl, rfl, rfl, rfl, rfl⟩

theorem resolveIncomingEdge_asked {edge : PipelineEdge} {resolution : EdgeResolution}
    (resolved : resolveIncomingEdge ctx edge = .ok (resolution, ctx')) : Asked ctx ctx' := by
  cases resolveIncomingEdge_eq_ok resolved with
  | decided => exact Asked.refl ctx
  | held => exact Asked.refl ctx
  | requested profile question target =>
    exact requestEvaluator_asked ctx edge profile question target

theorem resolveEdges_asked {edges : List PipelineEdge} {resolutions : List EdgeResolution}
    (resolved : resolveEdges edges ctx = .ok (resolutions, ctx')) : Asked ctx ctx' := by
  induction edges generalizing ctx resolutions with
  | nil =>
    cases resolved
    exact Asked.refl _
  | cons edge edges ih =>
    obtain ⟨⟨resolution, mid⟩, first, resolved⟩ := bind_eq_ok.mp resolved
    obtain ⟨⟨others, last⟩, rest, resolved⟩ := bind_eq_ok.mp resolved
    cases resolved
    exact (resolveIncomingEdge_asked first).trans (ih rest)

end Context

section Phases

variable [Sha256] {admits : TickContext → SchedulerObservation → Prop} {scope : Scope}
variable {ctx ctx' : TickContext} {stage : StageSnapshot} {observation : SchedulerObservation}
variable {toState : StageState} {reason : TransitionReason} {options : TransitionOptions}
  {stageId : String}

theorem observe_steps (found : ctx.stage? stage.stageId = some stage)
    (admitted : admits ctx observation) (named : observation.stageId = some stage.stageId)
    (cause : ObservedCause ctx stage observation toState reason options)
    (applied : applyTransition ctx stage toState reason options = .ok ctx') :
    Steps admits scope ctx ctx' := by
  obtain ⟨_, rfl⟩ := applyTransition_eq_ok.mp applied
  exact Relation.ReflTransGen.single
    (.observe ctx stage observation toState reason options found admitted named cause)

theorem phase_steps (found : ctx.stage? stage.stageId = some stage)
    (cause : PhaseCause scope.armed ctx stage toState reason options)
    (applied : applyTransition ctx stage toState reason options = .ok ctx') :
    Steps admits scope ctx ctx' := by
  obtain ⟨_, rfl⟩ := applyTransition_eq_ok.mp applied
  exact Relation.ReflTransGen.single (.phase ctx stage toState reason options found cause)

theorem steps_of_eq (same : (.ok ctx : Tick TickContext) = .ok ctx') :
    Steps admits scope ctx ctx' := by
  cases same
  exact Relation.ReflTransGen.refl

theorem touch_steps (found : ctx.stage? stage.stageId = some stage)
    (same : (.ok (getRecoveryCounters ctx stage).2 : Tick TickContext) = .ok ctx') :
    Steps admits scope ctx ctx' := by
  cases same
  exact Relation.ReflTransGen.single (.touch ctx stage found)

theorem recover_steps {decision : RecoveryDecision} {counters : StageRecoveryCounters}
    (found : ctx.stage? stage.stageId = some stage) (admitted : admits ctx observation)
    (named : observation.stageId = some stage.stageId)
    (cause : RecoveryCause ctx stage observation decision counters toState reason options)
    (applied :
      applyTransition (withRecovery ctx stage decision counters) stage
      toState reason options = .ok ctx') :
    Steps admits scope ctx ctx' := by
  obtain ⟨_, rfl⟩ := applyTransition_eq_ok.mp applied
  exact Relation.ReflTransGen.single
    (.recover ctx stage observation decision counters toState reason options found admitted named
      cause)

theorem processAttemptFailed_steps (found : ctx.stage? stage.stageId = some stage)
    (admitted : admits ctx observation) (named : observation.stageId = some stage.stageId)
    (kind : observation.kind = .attemptFailed)
    (processed : processAttemptFailed ctx stage observation = .ok ctx') :
    Steps admits scope ctx ctx' := by
  unfold processAttemptFailed at processed
  split at processed
  · exact steps_of_eq processed
  have executing : Executing stage := by
    tauto
  obtain ⟨definition, defined, processed⟩ := bind_eq_ok.mp processed
  rw [require_eq_ok] at defined
  split at processed
  · rename_i failure classifies
    obtain ⟨options, keeps, applied⟩ := applyRecoveryDecision_eq (getRecoveryCounters ctx stage).2
      stage observation (decideRecovery (recoveryInput ctx stage definition observation failure))
    rw [applied, withRecovery_touch] at processed
    exact recover_steps found admitted named
      (.classified definition failure _ options kind executing defined classifies rfl keeps)
      processed
  · rename_i unclassified
    simp only [processUnclassifiedFailure] at processed
    split at processed
    · rename_i retry
      exact observe_steps found admitted named (.retry definition kind executing defined
        unclassified retry.1 retry.2) processed
    · refine observe_steps found admitted named (.fail _ kind executing unclassified ?_) processed
      split
      · exact Or.inl rfl
      · exact Or.inr rfl

theorem processRecoveryApproved_steps (found : ctx.stage? stage.stageId = some stage)
    (admitted : admits ctx observation) (named : observation.stageId = some stage.stageId)
    (kind : observation.kind = .recoveryApproved)
    (processed : processRecoveryApproved ctx stage observation = .ok ctx') :
    Steps admits scope ctx ctx' := by
  unfold processRecoveryApproved at processed
  split at processed
  · exact steps_of_eq processed
  rename_i waiting
  rw [not_not] at waiting
  simp only [getRecoveryCounters_fst] at processed
  split at processed
  · exact touch_steps found processed
  rename_i answered
  rw [not_or, not_or, not_not] at answered
  obtain ⟨_, proposed, answers⟩ := answered
  split at processed
  · exact touch_steps found processed
  rename_i directive directed
  obtain ⟨definition, defined, processed⟩ := bind_eq_ok.mp processed
  rw [require_eq_ok, TickContext.graph, touch_input] at defined
  rw [approveRecovery_touch] at processed
  exact recover_steps found admitted named (.approved definition directive _ _ kind waiting answers
    proposed directed defined rfl (by constructor <;> rfl) rfl) processed

theorem processRecoveryRejected_steps (found : ctx.stage? stage.stageId = some stage)
    (admitted : admits ctx observation) (named : observation.stageId = some stage.stageId)
    (kind : observation.kind = .recoveryRejected)
    (processed : processRecoveryRejected ctx stage observation = .ok ctx') :
    Steps admits scope ctx ctx' := by
  unfold processRecoveryRejected at processed
  split at processed
  · exact steps_of_eq processed
  rename_i waiting
  rw [not_not] at waiting
  simp only [getRecoveryCounters_fst] at processed
  split at processed
  · exact touch_steps found processed
  rename_i other
  rw [not_and_or, not_and_or, not_not, not_not, not_not] at other
  obtain ⟨definition, _, processed⟩ := bind_eq_ok.mp processed
  rw [rejectRecovery_touch] at processed
  exact recover_steps found admitted named
    (.rejected _ _ kind waiting rfl (by constructor <;> rfl) definition rfl other) processed

theorem processStageObservation_steps (found : ctx.stage? stage.stageId = some stage)
    (admitted : admits ctx observation) (named : observation.stageId = some stage.stageId)
    (processed : processStageObservation ctx stage observation = .ok ctx') :
    Steps admits scope ctx ctx' := by
  simp only [processStageObservation] at processed
  split at processed
  case h_1 kind =>
    split at processed
    · rename_i state
      exact observe_steps found admitted named (.start kind state) processed
    · exact steps_of_eq processed
  case h_2 kind =>
    split at processed
    · rename_i state
      exact observe_steps found admitted named (.wait kind state) processed
    · exact steps_of_eq processed
  case h_3 kind =>
    split at processed
    · rename_i state
      exact observe_steps found admitted named (.succeed kind state) processed
    · exact steps_of_eq processed
  case h_4 kind => exact processAttemptFailed_steps found admitted named kind processed
  case h_5 kind => exact processRecoveryApproved_steps found admitted named kind processed
  case h_6 kind => exact processRecoveryRejected_steps found admitted named kind processed
  case h_7 kind =>
    split at processed
    · rename_i state
      exact observe_steps found admitted named (.settle kind state) processed
    · exact steps_of_eq processed
  case h_8 => exact steps_of_eq processed

omit [Sha256] in
theorem rerunTarget_eq_ok {targetId : String} (processed : rerunTarget ctx targetId = .ok ctx') :
    ctx' = ctx ∨ ∃ stage, ctx.stage? targetId = some stage ∧
      (stage.state.isTerminal = true ∨ stage.state = .pending) ∧ ctx' = rerunMove ctx stage := by
  obtain ⟨stage, found, processed⟩ := bind_eq_ok.mp processed
  rw [require_eq_ok] at found
  split at processed
  · cases processed
    exact Or.inl rfl
  rename_i excluded
  have eligible : stage.state.isTerminal = true ∨ stage.state = .pending := by
    cases terminal : stage.state.isTerminal with
    | true => exact Or.inl rfl
    | false => exact Or.inr (not_not.mp fun other => excluded ⟨terminal, other⟩)
  have moved : rerunMove ctx stage = ctx' := by
    simp only [rerunMove]
    by_cases pending : stage.state = .pending
    · simpa [pending, bind, Except.bind] using processed
    · have permitted := permitted_manualRerun (eligible.resolve_right pending)
      simpa [pending, permitted, bind, Except.bind] using processed
  exact Or.inr ⟨stage, found, eligible, moved.symm⟩

theorem rerunTarget_steps (origin : TickContext) {targetId : String}
    (admitted : admits origin observation) (kind : observation.kind = .manualRerun)
    (processed : rerunTarget ctx targetId = .ok ctx') : Steps admits scope ctx ctx' := by
  rcases rerunTarget_eq_ok processed with rfl | ⟨stage, found, eligible, rfl⟩
  · exact Relation.ReflTransGen.refl
  · exact Relation.ReflTransGen.single
      (.rerun ctx origin observation stage admitted kind (found_self found) eligible)

theorem processObservation_steps
    (admitted : admits (consumeObservation ctx observation) observation)
    (processed : processObservation ctx observation = .ok ctx') :
    Steps admits scope ctx ctx' := by
  refine Relation.ReflTransGen.head (.consume ctx observation admitted) ?_
  simp only [processObservation] at processed
  split at processed
  case h_1 kind =>
    cases processed
    exact Relation.ReflTransGen.single (.cancelFlag _ observation admitted kind)
  case h_2 kind =>
    split at processed
    · unfold processManualRerun at processed
      split at processed
      · exact steps_of_eq processed
      · exact foldlM_steps (fun _ _ _ _ => rerunTarget_steps _ admitted kind) processed
    · exact steps_of_eq processed
  case h_3 kind =>
    split at processed
    · rename_i key selected edge choice
      cases processed
      exact Relation.ReflTransGen.single
        (.decideEdge _ observation key selected admitted kind edge choice)
    · exact steps_of_eq processed
  case h_4 =>
    split at processed
    · rename_i stage located
      obtain ⟨stageId, named, found⟩ := Option.bind_eq_some_iff.mp located
      have same := stageId_of_stage? found
      exact processStageObservation_steps (found_self found) admitted (same ▸ named) processed
    · exact steps_of_eq processed

theorem observations_steps {observations : List SchedulerObservation}
    (admitted : ∀ done observation rest mid, observations = done ++ observation :: rest →
      done.foldlM processObservation ctx = .ok mid →
        admits (consumeObservation mid observation) observation)
    (processed : observations.foldlM processObservation ctx = .ok ctx') :
    Steps admits scope ctx ctx' := by
  refine foldlM_steps_prefix ?_ processed
  intro done observation rest mid after split folded handled
  exact processObservation_steps (admitted done observation rest mid split folded) handled

theorem cancelStage_steps (requests : scope.requests = true) (stopping : ctx.stopping = true)
    (cancelled : cancelStage ctx stageId = .ok ctx') : Steps admits scope ctx ctx' := by
  obtain ⟨stage, mid, current, found, halted, located, requested⟩ := cancelStage_eq_ok cancelled
  have first : Steps admits scope ctx mid ∧ mid.stopping = true := by
    rcases halted with ⟨inactive, rfl⟩ | ⟨_, rfl⟩
    · exact ⟨Relation.ReflTransGen.single
        (.phase _ _ _ _ _ (found_self found) (.cancelInactive stopping inactive)), stopping⟩
    · exact ⟨Relation.ReflTransGen.refl, stopping⟩
  rcases requested with rfl | ⟨attemptId, active, rfl⟩
  · exact first.1
  · exact first.1.tail
      (.requestCancel mid current attemptId (found_self located) first.2 active requests)

theorem cancelStages_steps {stageIds : List String} (requests : scope.requests = true)
    (stopping : ctx.stopping = true)
    (passed : stageIds.foldlM cancelStage ctx = .ok ctx') : Steps admits scope ctx ctx' := by
  induction stageIds generalizing ctx with
  | nil => exact steps_of_eq passed
  | cons stageId stageIds ih =>
    obtain ⟨mid, first, rest⟩ := foldlM_cons_eq_ok.mp passed
    have still : mid.stopping = true := (cancelStage_stopping first).trans stopping
    exact (cancelStage_steps requests stopping first).trans (ih still rest)

theorem cancelPass_steps (requests : scope.requests = true)
    (passed : cancelPass ctx = .ok ctx') : Steps admits scope ctx ctx' := by
  unfold cancelPass at passed
  split at passed
  · rename_i stopping
    exact cancelStages_steps requests stopping passed
  · exact steps_of_eq passed

theorem rearmRetry_steps (armed : stageId ∈ scope.armed)
    (rearmed : rearmRetry ctx stageId = .ok ctx') : Steps admits scope ctx ctx' := by
  obtain ⟨stage, found, rearmed⟩ := bind_eq_ok.mp rearmed
  rw [require_eq_ok] at found
  split at rearmed
  · exact steps_of_eq rearmed
  rename_i state
  split at rearmed
  · exact steps_of_eq rearmed
  rename_i going
  have listed : stage.stageId ∈ scope.armed := by
    rw [stageId_of_stage? found]
    exact armed
  exact phase_steps (found_self found)
    (.rearm listed (not_not.mp state) (Bool.eq_false_iff.mpr going)) rearmed

theorem rearmRetries_steps (rearmed : rearmRetries ctx scope.armed = .ok ctx') :
    Steps admits scope ctx ctx' := by
  refine foldlM_steps ?_ rearmed
  intro stageId member before after
  exact rearmRetry_steps (mem_sortTexts.mp member)

/-- The stages that an edge leads to are releasable. -/
def Holds (ctx : TickContext) (edge : PipelineEdge) : Prop :=
  ∀ target, ctx.stage? edge.toStageId = some target → Releasable ctx target

theorem resolveIncomingEdge_steps {edge : PipelineEdge} {resolution : EdgeResolution}
    (requests : scope.requests = true) (member : edge ∈ ctx.graph.edges) (holds : Holds ctx edge)
    (resolved : resolveIncomingEdge ctx edge = .ok (resolution, ctx')) :
    Steps admits scope ctx ctx' := by
  cases resolveIncomingEdge_eq_ok resolved with
  | decided => exact Relation.ReflTransGen.refl
  | held => exact Relation.ReflTransGen.refl
  | requested profile question target asks =>
    exact Relation.ReflTransGen.single
      (.requestEvaluator ctx edge _ _ target member asks (holds target asks.target) requests)

theorem resolveEdges_steps {edges : List PipelineEdge} {resolutions : List EdgeResolution}
    (requests : scope.requests = true) (members : ∀ edge ∈ edges, edge ∈ ctx.graph.edges)
    (holds : ∀ edge ∈ edges, Holds ctx edge)
    (resolved : resolveEdges edges ctx = .ok (resolutions, ctx')) :
    Steps admits scope ctx ctx' := by
  induction edges generalizing ctx resolutions with
  | nil =>
    cases resolved
    exact Relation.ReflTransGen.refl
  | cons edge edges ih =>
    obtain ⟨⟨resolution, mid⟩, first, resolved⟩ := bind_eq_ok.mp resolved
    obtain ⟨⟨others, last⟩, rest, resolved⟩ := bind_eq_ok.mp resolved
    cases resolved
    have asked := resolveIncomingEdge_asked first
    have remaining : ∀ edge ∈ edges, edge ∈ mid.graph.edges := by
      intro edge member
      rw [TickContext.graph, asked.input_eq]
      exact members edge (List.mem_cons_of_mem _ member)
    have still : ∀ edge ∈ edges, Holds mid edge := by
      intro edge member target found
      rw [TickContext.stage?, asked.working_eq] at found
      have releasable := holds edge (List.mem_cons_of_mem _ member) target found
      exact ⟨releasable.pending, releasable.selected, asked.stopping_eq.trans releasable.going⟩
    exact (resolveIncomingEdge_steps requests (members edge List.mem_cons_self)
      (holds edge List.mem_cons_self) first).trans (ih remaining still rest)

theorem settleRelease_steps {resolutions : List EdgeResolution}
    (found : ctx.stage? stage.stageId = some stage) (releasable : Releasable ctx stage)
    (settled : settleRelease ctx stage resolutions = .ok ctx') : Steps admits scope ctx ctx' := by
  unfold settleRelease at settled
  split at settled
  · exact steps_of_eq settled
  split at settled
  · exact phase_steps found (.releaseBlocked _ releasable) settled
  split at settled
  · exact phase_steps found (.releaseDeselected releasable) settled
  obtain ⟨definition, _, settled⟩ := bind_eq_ok.mp settled
  split at settled
  · exact phase_steps found (.releaseBlocked _ releasable) settled
  · exact phase_steps found (.releaseReady releasable) settled

theorem maybeReleaseStage_steps (requests : scope.requests = true)
    (released : maybeReleaseStage ctx stageId = .ok ctx') :
    Steps admits scope ctx ctx' := by
  obtain ⟨stage, located, released⟩ := bind_eq_ok.mp released
  rw [require_eq_ok] at located
  have found := found_self located
  split at released
  · exact steps_of_eq released
  rename_i candidate
  split at released
  · exact steps_of_eq released
  rename_i going
  have going : ctx.stopping = false := Bool.eq_false_iff.mpr going
  have releasable : Releasable ctx stage := by
    rw [not_or, not_not] at candidate
    exact ⟨candidate.2, by simpa using candidate.1, going⟩
  split at released
  · exact phase_steps found (.releaseRoot releasable) released
  · obtain ⟨⟨resolutions, mid⟩, resolved, settled⟩ := bind_eq_ok.mp released
    have holds : ∀ edge ∈ incoming ctx.graph stageId, Holds ctx edge := by
      intro edge member target reached
      have here : edge.toStageId = stageId := of_decide_eq_true (List.mem_filter.mp member).2
      rw [here, located] at reached
      exact Option.some.inj reached ▸ releasable
    have asking : Steps admits scope ctx mid :=
      resolveEdges_steps requests (fun edge member => (List.mem_filter.mp member).1) holds resolved
    have asked := resolveEdges_asked resolved
    have still : mid.stage? stage.stageId = some stage := by
      rw [TickContext.stage?, asked.working_eq]
      exact found
    exact asking.trans (settleRelease_steps still
      ⟨releasable.pending, releasable.selected, asked.stopping_eq.trans going⟩ settled)

theorem releaseLoop_steps {fuel : Nat} (requests : scope.requests = true)
    (released : releaseLoop fuel ctx = .ok ctx') :
    Steps admits scope ctx ctx' := by
  induction fuel generalizing ctx with
  | zero => cases released
  | succ fuel ih =>
    obtain ⟨swept, sweep, released⟩ := bind_eq_ok.mp released
    have first : Steps admits scope ctx swept :=
      foldlM_steps (fun _ _ _ _ => maybeReleaseStage_steps requests) sweep
    split at released
    · exact first.trans (ih released)
    · exact first.trans (steps_of_eq released)

/-- One turn of the queue loop: the stage is passed over, the cap ends the loop, or the stage is
dispatched. -/
inductive QueueTurn (ctx : TickContext) (stageIds : List String) (inFlight : Nat)
    (stage : StageSnapshot) (ctx' : TickContext) : Prop
  | skip (passed : (stage.state ≠ .ready ∨ stage.selected = false) ∨ ctx.stopping = true)
      (rest : queueLoop stageIds inFlight ctx = .ok ctx')
  | full (going : ctx.stopping = false) (cap : Nat) (limit : maxConcurrent ctx = some cap)
      (reached : cap ≤ inFlight) (same : ctx' = ctx)
  | dispatch (ready : stage.state = .ready) (selected : stage.selected = true)
      (going : ctx.stopping = false) (room : ∀ cap, maxConcurrent ctx = some cap → inFlight < cap)
      (definition : PipelineStage)
      (defined : (stagesById ctx.graph).find? stage.stageId = some definition)
      (rest : queueLoop stageIds (inFlight + 1) (queueMove ctx stage definition) = .ok ctx')

omit [Sha256] in
theorem queueLoop_cons_eq_ok {stageIds : List String} {inFlight : Nat}
    (queued : queueLoop (stageId :: stageIds) inFlight ctx = .ok ctx') :
    ∃ stage, ctx.stage? stageId = some stage ∧ QueueTurn ctx stageIds inFlight stage ctx' := by
  obtain ⟨stage, located, queued⟩ := bind_eq_ok.mp queued
  rw [require_eq_ok] at located
  refine ⟨stage, located, ?_⟩
  split at queued
  · rename_i passed
    exact .skip (Or.inl passed) queued
  rename_i candidate
  split at queued
  · rename_i stopping
    exact .skip (Or.inr stopping) queued
  rename_i going
  split at queued
  · rename_i full
    obtain ⟨cap, limit, reached⟩ := Option.any_eq_true _ _ |>.mp full
    cases queued
    exact .full (by simpa using going) cap limit (of_decide_eq_true reached) rfl
  rename_i room
  obtain ⟨definition, defined, queued⟩ := bind_eq_ok.mp queued
  obtain ⟨mid, first, rest⟩ := bind_eq_ok.mp queued
  rw [require_eq_ok, ← stageId_of_stage? located] at defined
  obtain ⟨_, rfl⟩ := applyTransition_eq_ok.mp first
  simp only [not_or, not_not, Bool.not_eq_false] at candidate
  refine .dispatch candidate.1 candidate.2 (by simpa using going) ?_ definition defined rest
  intro cap limit
  simpa [limit] using room

theorem queueLoop_steps {stageIds : List String} {inFlight : Nat} (queues : scope.queues = true)
    (queued : queueLoop stageIds inFlight ctx = .ok ctx') : Steps admits scope ctx ctx' := by
  induction stageIds generalizing inFlight ctx with
  | nil => exact steps_of_eq queued
  | cons stageId stageIds ih =>
    obtain ⟨stage, located, turn⟩ := queueLoop_cons_eq_ok queued
    cases turn with
    | skip _ rest => exact ih rest
    | full _ _ _ _ same =>
      subst same
      exact .refl
    | dispatch ready selected going _ definition defined rest =>
      exact .head (.queue ctx stage definition (found_self located) ready selected going defined
        queues) (ih rest)

/-- The phases of a tick. After the observations a tick no longer reads them: what follows runs
along `Step` whatever is admitted. -/
theorem runPhases_eq_ok (ran : runPhases ctx = .ok ctx') :
    ∃ observed cut released queued,
      (sortObservations ctx.input.observations).foldlM processObservation ctx = .ok observed ∧
      cancelPass observed = .ok cut ∧
      (∀ admits queues, Steps admits ⟨retryingStageIds ctx, queues, true⟩ cut released) ∧
      (∃ armed, releaseLoop (releaseFuel armed) armed = .ok released) ∧
      queueReadyStages released = .ok queued ∧ cancelPass queued = .ok ctx' := by
  obtain ⟨observed, processed, ran⟩ := bind_eq_ok.mp ran
  obtain ⟨cut, passed, ran⟩ := bind_eq_ok.mp ran
  obtain ⟨armed, rearmed, ran⟩ := bind_eq_ok.mp ran
  obtain ⟨released, looped, ran⟩ := bind_eq_ok.mp ran
  obtain ⟨queued, loop, ran⟩ := bind_eq_ok.mp ran
  refine ⟨observed, cut, released, queued, processed, passed, ?_, ⟨armed, looped⟩, loop, ran⟩
  intro admits queues
  have arming : Steps admits ⟨retryingStageIds ctx, queues, true⟩ cut armed :=
    rearmRetries_steps rearmed
  exact arming.trans (releaseLoop_steps rfl looped)

theorem runPhases_split (ran : runPhases ctx = .ok ctx') :
    ∃ observed cut,
      (sortObservations ctx.input.observations).foldlM processObservation ctx = .ok observed ∧
      cancelPass observed = .ok cut ∧ ∀ admits, Steps admits (tickScope ctx) cut ctx' := by
  obtain ⟨observed, cut, released, queued, processed, passed, releasing, _, loop, cutting⟩ :=
    runPhases_eq_ok ran
  refine ⟨observed, cut, processed, passed, ?_⟩
  intro admits
  calc Steps admits (tickScope ctx) cut released := releasing admits true
    Steps admits (tickScope ctx) released queued := queueLoop_steps rfl loop
    Steps admits (tickScope ctx) queued ctx' := cancelPass_steps rfl cutting

theorem runPhases_steps
    (admitted : ∀ done observation rest mid,
      sortObservations ctx.input.observations = done ++ observation :: rest →
      done.foldlM processObservation ctx = .ok mid →
        admits (consumeObservation mid observation) observation)
    (ran : runPhases ctx = .ok ctx') : Steps admits (tickScope ctx) ctx ctx' := by
  obtain ⟨observed, cut, processed, passed, rest⟩ := runPhases_split ran
  calc Steps admits (tickScope ctx) ctx observed := observations_steps admitted processed
    Steps admits (tickScope ctx) observed cut := cancelPass_steps rfl passed
    Steps admits (tickScope ctx) cut ctx' := rest admits

end Phases

end Heniek.SchedulerSteps
