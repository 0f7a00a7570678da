import Heniek.SchedulerSteps

/-!
What a step does to the stage map. At most one stage changes, by an observation
of it, by one that also rewrites its recovery counters, by a phase, by a manual
rerun or by a dispatch. The keys of the map and the input of the tick stay, so a
property of single stages holds along a tick once each change keeps it.
-/

namespace Heniek.StageChanges
open KeyedTable PipelineVocabulary PipelineDocument RecoveryPolicy SchedulerIds StageTransitions
open SchedulerTick SchedulerSteps

def queuedStage (ctx : TickContext) (stage : StageSnapshot) : StageSnapshot :=
  { stage with
    attemptOrdinal := stage.attemptOrdinal + 1
    state := .queued
    lastTransitionReason := some .dispatchIntent
    updatedAt := ctx.input.now
    blockReason := none
    currentAttemptId := some (deriveAttemptId ctx.input.runId ctx.input.graphRevision stage.stageId
      stage.generation (stage.attemptOrdinal + 1)) }

theorem stageAttempt_attemptId (ctx : TickContext) (stage : StageSnapshot)
    (definition : PipelineStage) :
    (stageAttempt ctx stage definition).attemptId =
      deriveAttemptId ctx.input.runId ctx.input.graphRevision stage.stageId stage.generation
        stage.attemptOrdinal := by
  unfold stageAttempt
  split <;> rfl

theorem stageAttempt_stageId (ctx : TickContext) (stage : StageSnapshot)
    (definition : PipelineStage) : (stageAttempt ctx stage definition).stageId = stage.stageId := by
  unfold stageAttempt
  split <;> rfl

theorem settleDirective_cases (ctx : TickContext) (stage : StageSnapshot) :
    settleDirective ctx stage = ctx ∨
      ∃ counters, settleDirective ctx stage = setRecoveryCounters ctx stage counters := by
  simp only [settleDirective, getRecoveryCounters_fst]
  have touched := touch_cases ctx stage
  split
  · rcases touched with same | ⟨_, created⟩
    · exact Or.inl same
    · exact Or.inr ⟨{}, created⟩
  · right
    rcases touched with same | ⟨_, created⟩
    · exact ⟨_, by rw [same]⟩
    · refine ⟨settledCounters (recoveryCounters ctx stage), ?_⟩
      rw [created]
      simp [setRecoveryCounters, Table.upsert_upsert]

theorem queueMove_eq (ctx : TickContext) (stage : StageSnapshot) (definition : PipelineStage) :
    ∃ base options,
      (base = ctx ∨ ∃ counters, base = setRecoveryCounters ctx (bumped stage) counters) ∧
      options = { action := .queue
                  attemptId := some (stageAttempt ctx (bumped stage) definition).attemptId
                  intentId := some (dispatchIntent ctx (bumped stage) definition).intentId } ∧
      queueMove ctx stage definition =
        moveStage { base with
          attempts := base.attempts ++ [stageAttempt ctx (bumped stage) definition]
          intents := base.intents ++ [dispatchIntent ctx (bumped stage) definition] }
          (bumped stage) .queued .dispatchIntent options :=
  ⟨_, _, settleDirective_cases ctx (bumped stage), rfl, rfl⟩

theorem queueMove_working (ctx : TickContext) (stage : StageSnapshot) (definition : PipelineStage) :
    (queueMove ctx stage definition).working = ctx.working.upsert (queuedStage ctx stage) := by
  obtain ⟨base, options, settled, rfl, moved⟩ := queueMove_eq ctx stage definition
  rw [moved, stageAttempt_attemptId]
  rcases settled with rfl | ⟨counters, rfl⟩ <;> rfl

def queuedTransition (ctx : TickContext) (stage : StageSnapshot) : StageTransition where
  stageId := stage.stageId
  fromState := stage.state
  toState := .queued
  reason := .dispatchIntent
  attemptId := some (deriveAttemptId ctx.input.runId ctx.input.graphRevision stage.stageId
    stage.generation (stage.attemptOrdinal + 1))
  generation := stage.generation
  blockReason := none

theorem queueMove_transitions (ctx : TickContext) (stage : StageSnapshot)
    (definition : PipelineStage) :
    (queueMove ctx stage definition).transitions = ctx.transitions ++
      [queuedTransition ctx stage] := by
  obtain ⟨base, options, settled, rfl, moved⟩ := queueMove_eq ctx stage definition
  rw [moved, stageAttempt_attemptId]
  rcases settled with rfl | ⟨counters, rfl⟩ <;> rfl

theorem queueMove_dispatch (ctx : TickContext) (stage : StageSnapshot)
    (definition : PipelineStage) :
    (queueMove ctx stage definition).attempts =
        ctx.attempts ++ [stageAttempt ctx (bumped stage) definition] ∧
      (queueMove ctx stage definition).intents =
        ctx.intents ++ [dispatchIntent ctx (bumped stage) definition] := by
  obtain ⟨base, options, settled, _, moved⟩ := queueMove_eq ctx stage definition
  rw [moved]
  rcases settled with rfl | ⟨counters, rfl⟩ <;> exact ⟨rfl, rfl⟩

theorem queueMove_input (ctx : TickContext) (stage : StageSnapshot) (definition : PipelineStage) :
    (queueMove ctx stage definition).input = ctx.input := by
  obtain ⟨base, options, settled, _, moved⟩ := queueMove_eq ctx stage definition
  rw [moved]
  rcases settled with rfl | ⟨counters, rfl⟩ <;> rfl

theorem maxConcurrent_queueMove (ctx : TickContext) (stage : StageSnapshot)
    (definition : PipelineStage) :
    maxConcurrent (queueMove ctx stage definition) = maxConcurrent ctx := by
  simp only [maxConcurrent, TickContext.graph, queueMove_input]

theorem queueMove_evaluators (ctx : TickContext) (stage : StageSnapshot)
    (definition : PipelineStage) :
    (queueMove ctx stage definition).evaluatorDecisions = ctx.evaluatorDecisions ∧
      (queueMove ctx stage definition).pendingEvaluators = ctx.pendingEvaluators ∧
      (queueMove ctx stage definition).stopping = ctx.stopping := by
  obtain ⟨base, options, settled, _, moved⟩ := queueMove_eq ctx stage definition
  rw [moved]
  rcases settled with rfl | ⟨counters, rfl⟩ <;> exact ⟨rfl, rfl, rfl⟩

theorem moveStage_stage? (ctx : TickContext) (stage : StageSnapshot) (toState : StageState)
    (reason : TransitionReason) (options : TransitionOptions) (id : String) :
    (moveStage ctx stage toState reason options).stage? id =
      if id = stage.stageId then some (movedStage ctx.input.now stage toState reason options)
      else ctx.stage? id :=
  Table.find?_upsert _ _ _

variable {stage : StageSnapshot} {toState : StageState} {reason : TransitionReason}
  {ctx : TickContext} {observation : SchedulerObservation} {options : TransitionOptions}

theorem executing_permitted (executing : Executing stage)
    (running : isPermittedTransition .running toState reason = true)
    (waiting : isPermittedTransition .waiting toState reason = true) :
    isPermittedTransition stage.state toState reason = true := by
  rcases executing with state | state
  · rw [state]
    exact running
  · rw [state]
    exact waiting

theorem observedCause_permitted
    (cause : ObservedCause ctx stage observation toState reason options) :
    isPermittedTransition stage.state toState reason = true := by
  cases cause with
  | start _ state => rcases state with state | state <;> rw [state] <;> decide
  | wait _ state => rw [state]; decide
  | succeed _ executing => exact executing_permitted executing (by decide) (by decide)
  | settle _ state =>
    revert state
    cases stage.state <;> decide
  | retry _ _ executing => exact executing_permitted executing (by decide) (by decide)
  | fail _ _ executing _ reasons =>
    rcases reasons with rfl | rfl <;> exact executing_permitted executing (by decide) (by decide)

theorem phaseCause_permitted {retrying : List String}
    (cause : PhaseCause retrying ctx stage toState reason options) :
    isPermittedTransition stage.state toState reason = true := by
  cases cause with
  | cancelInactive stopping inactive =>
    unfold cancelReason
    revert inactive
    cases stage.state <;> cases ctx.deadlineExceeded <;> decide
  | rearm armed state going => rw [state]; decide
  | releaseRoot releasable => rw [releasable.pending]; decide
  | releaseReady releasable => rw [releasable.pending]; decide
  | releaseBlocked blockReason releasable => rw [releasable.pending]; decide
  | releaseDeselected releasable => rw [releasable.pending]; decide

theorem verdict_permitted (executing : Executing stage) (verdict : RecoveryVerdict) :
    isPermittedTransition stage.state (verdictState verdict) (verdictReason verdict) = true := by
  cases verdict with
  | fail reason => cases reason <;> exact executing_permitted executing rfl rfl
  | block blockReason => exact executing_permitted executing rfl rfl
  | propose directive => exact executing_permitted executing rfl rfl
  | retry directive => exact executing_permitted executing rfl rfl

theorem inFlight_of_executing (executing : Executing stage) : stage.state.inFlight = true := by
  rcases executing with state | state <;> rw [state] <;> rfl

theorem observedCause_source (cause : ObservedCause ctx stage observation toState reason options) :
    stage.state.inFlight = true := by
  cases cause with
  | start _ state => rcases state with state | state <;> rw [state] <;> rfl
  | wait _ state => rw [state]; rfl
  | succeed _ executing => exact inFlight_of_executing executing
  | settle _ state => exact state
  | retry _ _ executing => exact inFlight_of_executing executing
  | fail _ _ executing => exact inFlight_of_executing executing

theorem phaseCause_source {retrying : List String}
    (cause : PhaseCause retrying ctx stage toState reason options) :
    stage.state.inactive = true := by
  cases cause with
  | cancelInactive _ inactive => exact inactive
  | rearm _ state => rw [state]; rfl
  | releaseRoot releasable => rw [releasable.pending]; rfl
  | releaseReady releasable => rw [releasable.pending]; rfl
  | releaseBlocked _ releasable => rw [releasable.pending]; rfl
  | releaseDeselected releasable => rw [releasable.pending]; rfl

/-- The transitions a change records: one from the stage's state to its new one, except that the
rerun of a pending stage records none. -/
inductive Recorded (stage next : StageSnapshot) : List StageTransition → Prop
  | moved (transition : StageTransition) (stageId_eq : transition.stageId = stage.stageId)
      (from_eq : transition.fromState = stage.state) (to_eq : transition.toState = next.state)
      (generation_eq : transition.generation = next.generation)
      (kept : next.generation = stage.generation) (active : stage.state.isTerminal = false)
      (permitted : isPermittedTransition stage.state next.state transition.reason = true) :
      Recorded stage next [transition]
  | rerun (transition : StageTransition) (stageId_eq : transition.stageId = stage.stageId)
      (from_eq : transition.fromState = stage.state) (to_eq : transition.toState = next.state)
      (generation_eq : transition.generation = next.generation)
      (raised : next.generation = stage.generation + 1)
      (terminal : stage.state.isTerminal = true) (pending : next.state = .pending)
      (reason : transition.reason = .manualRerun) : Recorded stage next [transition]
  | again (raised : next.generation = stage.generation + 1) (before : stage.state = .pending)
      (after : next.state = .pending) : Recorded stage next []

theorem not_terminal_of_active {state : StageState}
    (active : state.inFlight = true ∨ state.inactive = true) : state.isTerminal = false := by
  revert active
  cases state <;> decide

theorem recorded_rerun (now : String)
    (eligible : stage.state.isTerminal = true ∨ stage.state = .pending) :
    Recorded stage (rerunStage now stage)
      (if stage.state ≠ .pending then
        [⟨stage.stageId, stage.state, .pending, .manualRerun, none,
          (rerunStage now stage).generation,
          none⟩]
      else []) := by
  by_cases pending : stage.state = .pending
  · rw [if_neg (not_not.mpr pending)]
    exact .again rfl pending rfl
  · rw [if_pos pending]
    exact .rerun _ rfl rfl rfl rfl rfl (eligible.resolve_right pending) rfl rfl

variable [Sha256] {admits : TickContext → SchedulerObservation → Prop} {scope : Scope}
variable {ctx ctx' : TickContext} {stage next : StageSnapshot}

inductive Change (admits : TickContext → SchedulerObservation → Prop) (scope : Scope)
    (ctx : TickContext) (stage : StageSnapshot) : StageSnapshot → Prop
  | observed (observation : SchedulerObservation) (toState : StageState)
      (reason : TransitionReason) (options : TransitionOptions)
      (admitted : admits ctx observation) (named : observation.stageId = some stage.stageId)
      (cause : ObservedCause ctx stage observation toState reason options) :
      Change admits scope ctx stage (movedStage ctx.input.now stage toState reason options)
  | recovered (observation : SchedulerObservation) (decision : RecoveryDecision)
      (counters : StageRecoveryCounters) (toState : StageState) (reason : TransitionReason)
      (options : TransitionOptions) (admitted : admits ctx observation)
      (named : observation.stageId = some stage.stageId)
      (cause : RecoveryCause ctx stage observation decision counters toState reason options) :
      Change admits scope ctx stage (movedStage ctx.input.now stage toState reason options)
  | phased (toState : StageState) (reason : TransitionReason) (options : TransitionOptions)
      (cause : PhaseCause scope.armed ctx stage toState reason options) :
      Change admits scope ctx stage (movedStage ctx.input.now stage toState reason options)
  | rerun (origin : TickContext) (observation : SchedulerObservation)
      (admitted : admits origin observation) (kind : observation.kind = .manualRerun)
      (eligible : stage.state.isTerminal = true ∨ stage.state = .pending) :
      Change admits scope ctx stage (rerunStage ctx.input.now stage)
  | queued (state : stage.state = .ready) (selected : stage.selected = true)
      (going : ctx.stopping = false) (queues : scope.queues = true) :
      Change admits scope ctx stage (queuedStage ctx stage)

theorem Change.stageId_eq (change : Change admits scope ctx stage next) :
    next.stageId = stage.stageId := by
  cases change <;> rfl

theorem step_input (step : Step admits scope ctx ctx') : ctx'.input = ctx.input := by
  cases step with
  | touch stage found => exact touch_input ctx stage
  | queue stage definition => exact queueMove_input ctx stage definition
  | _ => rfl

theorem step_deadline (step : Step admits scope ctx ctx') :
    ctx'.deadlineExceeded = ctx.deadlineExceeded := by
  cases step with
  | touch stage found =>
    rcases touch_cases ctx stage with same | ⟨_, created⟩
    · rw [same]
    · rw [created]
      rfl
  | queue stage definition =>
    obtain ⟨base, options, settled, _, moved⟩ := queueMove_eq ctx stage definition
    rw [moved]
    rcases settled with rfl | ⟨counters, rfl⟩ <;> rfl
  | _ => rfl

theorem step_cancelRequested (step : Step admits scope ctx ctx') :
    ctx'.cancelRequested = ctx.cancelRequested ∨
      ctx'.cancelRequested = true ∧
        ∃ observation, admits ctx observation ∧ observation.kind = .cancelRequested := by
  cases step with
  | cancelFlag observation admitted kind => exact Or.inr ⟨rfl, observation, admitted, kind⟩
  | touch stage found =>
    rcases touch_cases ctx stage with same | ⟨_, created⟩
    · rw [same]
      exact Or.inl rfl
    · rw [created]
      exact Or.inl rfl
  | queue stage definition =>
    obtain ⟨base, options, settled, _, moved⟩ := queueMove_eq ctx stage definition
    rw [moved]
    rcases settled with rfl | ⟨counters, rfl⟩ <;> exact Or.inl rfl
  | _ => exact Or.inl rfl

theorem recoveryCause_source {decision : RecoveryDecision} {counters : StageRecoveryCounters}
    (cause : RecoveryCause ctx stage observation decision counters toState reason options) :
    stage.state.inFlight = true := by
  cases cause with
  | classified _ _ _ _ _ executing => exact inFlight_of_executing executing
  | approved _ _ _ _ _ state => rw [state]; rfl
  | rejected _ _ _ state => rw [state]; rfl

theorem recoveryCause_target {decision : RecoveryDecision} {counters : StageRecoveryCounters}
    (cause : RecoveryCause ctx stage observation decision counters toState reason options) :
    toState ≠ .cancelled ∧ ¬ (toState = .ready ∨ toState = .pending) := by
  cases cause with
  | classified _ _ result => cases result.verdict <;> simp [verdictState]
  | approved | rejected => simp

theorem recoveryCause_permitted {decision : RecoveryDecision} {counters : StageRecoveryCounters}
    (cause : RecoveryCause ctx stage observation decision counters toState reason options) :
    isPermittedTransition stage.state toState reason = true := by
  cases cause with
  | classified definition failure result _ _ executing =>
    exact verdict_permitted executing result.verdict
  | approved definition directive _ _ _ state => rw [state]; decide
  | rejected _ _ _ state => rw [state]; decide

theorem step_recorded (step : Step admits scope ctx ctx') :
    (ctx'.working = ctx.working ∧ ctx'.transitions = ctx.transitions) ∨
      ∃ stage next added, ctx.stage? stage.stageId = some stage ∧
        Change admits scope ctx stage next ∧ ctx'.working = ctx.working.upsert next ∧
        ctx'.transitions = ctx.transitions ++ added ∧ Recorded stage next added := by
  cases step with
  | touch stage found =>
    rcases touch_cases ctx stage with same | ⟨_, created⟩
    · rw [same]
      exact Or.inl ⟨rfl, rfl⟩
    · rw [created]
      exact Or.inl ⟨rfl, rfl⟩
  | observe stage observation toState reason options found admitted named cause =>
    exact Or.inr ⟨stage, _, _, found, .observed observation toState reason options admitted named
      cause, rfl, rfl, .moved _ rfl rfl rfl rfl rfl
        (not_terminal_of_active (Or.inl (observedCause_source cause)))
        (observedCause_permitted cause)⟩
  | recover stage observation decision counters toState reason options found admitted named cause =>
    exact Or.inr ⟨stage, _, _, found, .recovered observation decision counters toState reason
      options admitted named cause, rfl, rfl,
      .moved _ rfl rfl rfl rfl rfl (not_terminal_of_active (Or.inl (recoveryCause_source cause)))
        (recoveryCause_permitted cause)⟩
  | phase stage toState reason options found cause =>
    exact Or.inr ⟨stage, _, _, found, .phased toState reason options cause, rfl, rfl,
      .moved _ rfl rfl rfl rfl rfl (not_terminal_of_active (Or.inr (phaseCause_source cause)))
        (phaseCause_permitted cause)⟩
  | rerun origin observation stage admitted kind found eligible =>
    exact Or.inr ⟨stage, _, _, found, .rerun origin observation admitted kind eligible, rfl, rfl,
      recorded_rerun _ eligible⟩
  | queue stage definition found state selected going defined queues =>
    refine Or.inr ⟨stage, _, _, found, .queued state selected going queues,
      queueMove_working ctx stage definition, queueMove_transitions ctx stage definition,
      .moved _ rfl rfl rfl rfl rfl ?_ ?_⟩
    all_goals
      rw [state]
      rfl
  | _ => exact Or.inl ⟨rfl, rfl⟩

theorem step_working (step : Step admits scope ctx ctx') :
    ctx'.working = ctx.working ∨
      ∃ stage next, ctx.stage? stage.stageId = some stage ∧
        Change admits scope ctx stage next ∧ ctx'.working = ctx.working.upsert next := by
  rcases step_recorded step with ⟨same, _⟩ | ⟨stage, next, _, found, change, updated, _⟩
  · exact Or.inl same
  · exact Or.inr ⟨stage, next, found, change, updated⟩

theorem step_dispatch (step : Step admits scope ctx ctx') :
    (ctx'.attempts = ctx.attempts ∧ ∃ added, ctx'.intents = ctx.intents ++ added ∧
        ∀ intent ∈ added, intent.kind ≠ .dispatch) ∨
      ∃ stage definition, scope.queues = true ∧ ctx.stage? stage.stageId = some stage ∧
        stage.state = .ready ∧ ctx'.working = ctx.working.upsert (queuedStage ctx stage) ∧
        ctx'.attempts = ctx.attempts ++ [stageAttempt ctx (bumped stage) definition] ∧
        ctx'.intents = ctx.intents ++ [dispatchIntent ctx (bumped stage) definition] := by
  have same : ∀ {other : TickContext}, other.attempts = ctx.attempts →
      other.intents = ctx.intents → other.attempts = ctx.attempts ∧
        ∃ added, other.intents = ctx.intents ++ added ∧
          ∀ intent ∈ added, intent.kind ≠ .dispatch := by
    intro other attempts intents
    exact ⟨attempts, [], by rw [intents, List.append_nil], by simp⟩
  cases step with
  | touch stage found =>
    left
    rcases touch_cases ctx stage with unchanged | ⟨_, created⟩
    · rw [unchanged]
      exact same rfl rfl
    · rw [created]
      exact same rfl rfl
  | requestCancel stage attemptId => exact Or.inl ⟨rfl, _, rfl, by simp⟩
  | requestEvaluator edge profile question target => exact Or.inl ⟨rfl, _, rfl, by simp⟩
  | queue stage definition found state selected going defined queues =>
    exact Or.inr ⟨stage, definition, queues, found, state, queueMove_working ctx stage definition,
      queueMove_dispatch ctx stage definition⟩
  | _ => exact Or.inl (same rfl rfl)

theorem steps_input (steps : Steps admits scope ctx ctx') : ctx'.input = ctx.input := by
  induction steps with
  | refl => rfl
  | tail _ last ih => rw [step_input last, ih]

theorem steps_deadline (steps : Steps admits scope ctx ctx') :
    ctx'.deadlineExceeded = ctx.deadlineExceeded := by
  induction steps with
  | refl => rfl
  | tail _ last ih => rw [step_deadline last, ih]

theorem steps_stopping (steps : Steps admits scope ctx ctx') (stopping : ctx.stopping = true) :
    ctx'.stopping = true := by
  induction steps with
  | refl => exact stopping
  | tail _ last ih =>
    unfold TickContext.stopping at ih ⊢
    rw [step_deadline last]
    rcases step_cancelRequested last with same | ⟨raised, _⟩
    · rw [same]
      exact ih
    · rw [raised, Bool.true_or]

theorem step_keys (step : Step admits scope ctx ctx') :
    ctx'.working.keys = ctx.working.keys := by
  rcases step_working step with same | ⟨stage, next, found, change, updated⟩
  · rw [same]
  · have present : next.stageId ∈ ctx.working.keys := by
      rw [change.stageId_eq, ← Table.find?_isSome, ← TickContext.stage?, found]
      rfl
    rw [updated, Table.keys_upsert_of_mem present]

theorem steps_keys (steps : Steps admits scope ctx ctx') :
    ctx'.working.keys = ctx.working.keys := by
  induction steps with
  | refl => rfl
  | tail _ last ih => rw [step_keys last, ih]

theorem steps_stages {P : StageSnapshot → Prop} (steps : Steps admits scope ctx ctx')
    (initial : ∀ stage ∈ ctx.working.rows, P stage)
    (changes : ∀ mid stage next, Steps admits scope ctx mid →
      mid.stage? stage.stageId = some stage → P stage → Change admits scope mid stage next →
      P next) :
    ∀ stage ∈ ctx'.working.rows, P stage := by
  induction steps with
  | refl => exact initial
  | @tail mid last before step ih =>
    rcases step_working step with same | ⟨stage, next, found, change, updated⟩
    · rw [same]
      exact ih
    · rw [updated]
      intro row member
      rcases Table.mem_upsert.mp member with rfl | ⟨kept, _⟩
      · exact changes mid stage _ before found (ih stage (Table.mem_of_find? found)) change
      · exact ih row kept

theorem change_of_terminal (change : Change admits scope ctx stage next)
    (terminal : stage.state.isTerminal = true) :
    next = rerunStage ctx.input.now stage ∧
      ∃ origin observation, admits origin observation ∧ observation.kind = .manualRerun := by
  have active : stage.state.inFlight = true ∨ stage.state.inactive = true → False := by
    intro active
    rw [not_terminal_of_active active] at terminal
    cases terminal
  cases change with
  | observed _ _ _ _ _ _ cause => exact (active (Or.inl (observedCause_source cause))).elim
  | recovered _ _ _ _ _ _ _ _ cause => exact (active (Or.inl (recoveryCause_source cause))).elim
  | phased _ _ _ cause => exact (active (Or.inr (phaseCause_source cause))).elim
  | rerun origin observation admitted kind => exact ⟨rfl, origin, observation, admitted, kind⟩
  | queued state =>
    rw [state] at terminal
    cases terminal

theorem steps_terminal (steps : Steps admits scope ctx ctx')
    (unrerun : ∀ ctx observation, admits ctx observation → observation.kind ≠ .manualRerun)
    (found : ctx.stage? stage.stageId = some stage) (terminal : stage.state.isTerminal = true) :
    ctx'.stage? stage.stageId = some stage := by
  induction steps with
  | refl => exact found
  | tail _ last ih =>
    rcases step_working last with same | ⟨other, next, located, change, updated⟩
    · rw [TickContext.stage?, same]
      exact ih
    · rw [TickContext.stage?, updated, Table.find?_upsert_of_ne]
      · exact ih
      · rw [change.stageId_eq]
        intro same
        rw [← same, ih] at located
        cases located
        obtain ⟨_, origin, observation, admitted, kind⟩ := change_of_terminal change terminal
        exact unrerun origin observation admitted kind

end Heniek.StageChanges
