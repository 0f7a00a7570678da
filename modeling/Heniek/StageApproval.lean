import Heniek.PipelineRunner

/-!
Human approval of recoveries. A stage carries its own mode, and `decideRecovery`
lets a failure of a `hitl` stage be retried only on an approval. The mode it is
given, however, is the tick-wide one when there is one, and the service hands
over the mode of the graph with every V2 tick. The stage's own mode is honoured
exactly while no recoverable failure of a `hitl` stage meets a V2 tick of an
autonomous graph.
-/

namespace Heniek.StageApproval
open KeyedTable PipelineDocument RecoveryPolicy ScriptText FallibleRun
open SchedulerTick SchedulerSteps StageChanges SchedulerRun PipelineStore PipelineRunner
open StageTransitions

structure RetriesUnclassified (ctx : TickContext) (observation : SchedulerObservation)
    (stage : StageSnapshot) (definition : PipelineStage) : Prop where
  kind : observation.kind = .attemptFailed
  executing : Executing stage
  unclassified : resolveFailureFromObservation observation = none
  retryable : observation.retryable = some true
  budget : stage.attemptOrdinal - 1 < budgetOf ctx definition

section Observations

variable [Sha256] {ctx ctx' : TickContext} {observation : SchedulerObservation}
variable {stage : StageSnapshot}

structure Retries (ctx : TickContext) (observation : SchedulerObservation)
    (stage : StageSnapshot) : Prop where
  found : ctx.stage? stage.stageId = some stage
  awake : stage.state ≠ .retrying
  moves : ∃ ctx' next, processObservation ctx observation = .ok ctx' ∧
    ctx'.stage? stage.stageId = some next ∧ next.state = .retrying

/-- What can move a stage to `retrying`. -/
inductive RetryCause (ctx : TickContext) (observation : SchedulerObservation)
    (stage : StageSnapshot) (definition : PipelineStage) : Prop
  | unclassified (cause : RetriesUnclassified ctx observation stage definition)
  | repair (failure : PipelineFailure) (cause : Repairs ctx observation stage definition failure)
  | approval (cause : Approves ctx observation stage)

theorem change_retrying {admits : TickContext → SchedulerObservation → Prop} {scope : Scope}
    {next : StageSnapshot} (change : Change admits scope ctx stage next)
    (retrying : next.state = .retrying) :
    ∃ observation definition, admits ctx observation ∧
      observation.stageId = some stage.stageId ∧
      (stagesById ctx.graph).find? stage.stageId = some definition ∧
      RetryCause ctx observation stage definition := by
  cases change with
  | observed observation toState reason options admitted named cause =>
    cases cause with
    | retry definition kind executing defined unclassified retryable budget =>
      exact ⟨observation, definition, admitted, named, defined,
        .unclassified ⟨kind, executing, unclassified, retryable, budget⟩⟩
    | _ => cases retrying
  | recovered observation decision counters toState reason options admitted named cause =>
    cases cause with
    | classified definition failure result _ kind executing defined classifies decided =>
      have inactive : (verdictState result.verdict).inactive = true := by
        rw [show verdictState result.verdict = .retrying from retrying]
        rfl
      obtain ⟨recoverable, autonomous⟩ := retries_of_inactive decided inactive
      exact ⟨observation, definition, admitted, named, defined,
        .repair failure ⟨kind, executing, classifies, recoverable, autonomous⟩⟩
    | approved definition directive _ _ kind waiting answers proposed directed defined =>
      exact ⟨observation, definition, admitted, named, defined,
        .approval ⟨kind, waiting, proposed, answers, by rw [directed]; nofun⟩⟩
    | rejected => cases retrying
  | phased toState reason options cause => cases cause <;> cases retrying
  | rerun => cases retrying
  | queued => cases retrying

theorem RetryCause.of_consumed {definition : PipelineStage}
    (cause : RetryCause (consumeObservation ctx observation) observation stage definition) :
    RetryCause ctx observation stage definition := by
  cases cause with
  | unclassified cause =>
    exact .unclassified ⟨cause.kind, cause.executing, cause.unclassified, cause.retryable,
      cause.budget⟩
  | repair failure cause =>
    exact .repair failure ⟨cause.kind, cause.executing, cause.classifies, cause.recoverable,
      cause.autonomous⟩
  | approval cause =>
    exact .approval ⟨cause.kind, cause.waiting, cause.proposed, cause.answers, cause.directed⟩

theorem RetryCause.executing {definition : PipelineStage}
    (cause : RetryCause ctx observation stage definition) : Executing stage := by
  cases cause with
  | unclassified cause => exact cause.executing
  | repair failure cause => exact cause.executing
  | approval cause => exact Or.inr cause.waiting

theorem Retries.cause (retries : Retries ctx observation stage) :
    observation.stageId = some stage.stageId ∧ ∃ definition,
      (stagesById ctx.graph).find? stage.stageId = some definition ∧
        RetryCause ctx observation stage definition := by
  obtain ⟨found, awake, ctx', next, processed, located, retrying⟩ := retries
  have steps : Steps (fun mid other => mid = consumeObservation ctx observation ∧
      other = observation) .quiet ctx ctx' := processObservation_steps ⟨rfl, rfl⟩ processed
  have caused : ∀ row ∈ ctx'.working.rows, row.stageId = stage.stageId → row.state = .retrying →
      observation.stageId = some stage.stageId ∧ ∃ definition,
        (stagesById ctx.graph).find? stage.stageId = some definition ∧
          RetryCause ctx observation stage definition := by
    refine steps_stages steps ?_ ?_
    · intro row member same state
      have here := Table.find?_key member
      rw [same] at here
      rw [TickContext.stage?, here] at found
      cases found
      exact absurd state awake
    · intro mid row next _ here _ change same state
      obtain ⟨other, definition, ⟨rfl, rfl⟩, named, defined, cause⟩ := change_retrying change state
      rw [change.stageId_eq] at same
      have met : ctx.stage? row.stageId = some row := here
      rw [same, found] at met
      cases met
      exact ⟨named, definition, defined, cause.of_consumed⟩
  exact caused next (Table.mem_of_find? located) (Table.key_of_find? located) retrying

theorem processObservation_attemptFailed (found : ctx.stage? stage.stageId = some stage)
    (named : observation.stageId = some stage.stageId)
    (kind : observation.kind = .attemptFailed) :
    processObservation ctx observation =
      processAttemptFailed (consumeObservation ctx observation) stage observation := by
  have located : observation.stageId.bind (consumeObservation ctx observation).stage? =
      some stage := by
    rw [named]
    exact found
  simp only [processObservation, kind, located, processStageObservation]

theorem processObservation_recoveryApproved (found : ctx.stage? stage.stageId = some stage)
    (named : observation.stageId = some stage.stageId)
    (kind : observation.kind = .recoveryApproved) :
    processObservation ctx observation =
      processRecoveryApproved (consumeObservation ctx observation) stage observation := by
  have located : observation.stageId.bind (consumeObservation ctx observation).stage? =
      some stage := by
    rw [named]
    exact found
  simp only [processObservation, kind, located, processStageObservation]

omit [Sha256] in
theorem not_idle_of_executing (executing : Executing stage) :
    ¬ (stage.state ≠ .running ∧ stage.state ≠ .waiting) := by
  rintro ⟨running, waiting⟩
  exact executing.elim running waiting

section Grants

variable {definition : PipelineStage} (found : ctx.stage? stage.stageId = some stage)
variable (named : observation.stageId = some stage.stageId)
variable (defined : (stagesById ctx.graph).find? stage.stageId = some definition)

include found named defined

theorem processObservation_unclassified
    (cause : RetriesUnclassified ctx observation stage definition) :
    ∃ base options, processObservation ctx observation =
      .ok (moveStage base stage .retrying .retryScheduled options) := by
  refine ⟨consumeObservation ctx observation,
    { action := .retry, attemptId := observedAttemptId stage observation }, ?_⟩
  have allowed : observation.retryable = some true ∧ stage.attemptOrdinal - 1 <
      maxRepairAttemptsFor definition (consumeObservation ctx observation).graph
        (consumeObservation ctx observation).input.effectiveLimits :=
    ⟨cause.retryable, cause.budget⟩
  have permitted := observedCause_permitted (.retry definition cause.kind cause.executing defined
    cause.unclassified cause.retryable cause.budget)
  rw [processObservation_attemptFailed found named cause.kind, processAttemptFailed,
    if_neg (not_idle_of_executing cause.executing)]
  refine bind_eq_ok.mpr ⟨definition, require_eq_ok.mpr defined, ?_⟩
  simp only [cause.unclassified, processUnclassifiedFailure, if_pos allowed]
  exact applyTransition_eq_ok.mpr ⟨permitted, rfl⟩

theorem processObservation_repair {failure : PipelineFailure}
    (cause : Repairs ctx observation stage definition failure) :
    ∃ base options, processObservation ctx observation =
      .ok (moveStage base stage .retrying .retryScheduled options) := by
  have verdict : ∃ directive,
      (decideRecovery (recoveryInput ctx stage definition observation failure)).verdict =
        .retry directive := by
    rcases decideRecovery_verdict (recoveryInput ctx stage definition observation failure) with
      ⟨_, directive, verdict⟩ | ⟨refused, _⟩
    · rw [cause.autonomous] at verdict
      exact ⟨directive, verdict⟩
    · exact absurd cause.recoverable refused
  obtain ⟨directive, verdict⟩ := verdict
  obtain ⟨options, _, applied⟩ := applyRecoveryDecision_eq
    (getRecoveryCounters (consumeObservation ctx observation) stage).2 stage observation
    (decideRecovery (recoveryInput ctx stage definition observation failure))
  rw [verdict] at applied
  refine ⟨withRecovery (getRecoveryCounters (consumeObservation ctx observation) stage).2 stage
    (decideRecovery (recoveryInput ctx stage definition observation failure)).recoveryDecision
    (decideRecovery (recoveryInput ctx stage definition observation failure)).nextCounters,
    options, ?_⟩
  rw [processObservation_attemptFailed found named cause.kind, processAttemptFailed,
    if_neg (not_idle_of_executing cause.executing)]
  refine bind_eq_ok.mpr ⟨definition, require_eq_ok.mpr defined, ?_⟩
  simp only [cause.classifies]
  refine applied.trans ?_
  exact applyTransition_eq_ok.mpr ⟨verdict_permitted cause.executing (.retry directive), rfl⟩

theorem processObservation_approval (cause : Approves ctx observation stage) :
    ∃ base options, processObservation ctx observation =
      .ok (moveStage base stage .retrying .retryScheduled options) := by
  obtain ⟨directive, directed⟩ := Option.ne_none_iff_exists'.mp cause.directed
  have answered : ¬ (observation.proposalId = none ∨
      (recoveryCounters (consumeObservation ctx observation) stage).pendingProposalId = none ∨
      observation.proposalId ≠
        (recoveryCounters (consumeObservation ctx observation) stage).pendingProposalId) := by
    rw [cause.answers]
    rintro (none | none | different)
    · exact cause.proposed none
    · exact cause.proposed none
    · exact different rfl
  have kept : (recoveryCounters (consumeObservation ctx observation) stage).pendingDirective =
      some directive := directed
  have permitted : isPermittedTransition stage.state .retrying .retryScheduled = true := by
    rw [cause.waiting]
    rfl
  have known : require ((stagesById (getRecoveryCounters (consumeObservation ctx observation)
      stage).2.graph).find? stage.stageId) = .ok definition := by
    rw [require_eq_ok, TickContext.graph, touch_input]
    exact defined
  have approved : processObservation ctx observation = approveRecovery
      (getRecoveryCounters (consumeObservation ctx observation) stage).2 stage observation
      definition directive := by
    rw [processObservation_recoveryApproved found named cause.kind, processRecoveryApproved,
      if_neg (not_not.mpr cause.waiting)]
    simp only [getRecoveryCounters_fst, if_neg answered, kept, known]
    rfl
  rw [approveRecovery_touch] at approved
  exact ⟨_, _, approved.trans (applyTransition_eq_ok.mpr ⟨permitted, rfl⟩)⟩

theorem retries_of_cause (cause : RetryCause ctx observation stage definition) :
    Retries ctx observation stage := by
  refine ⟨found, ?_, ?_⟩
  · intro retrying
    rcases cause.executing with state | state <;> rw [state] at retrying <;> cases retrying
  · have processed : ∃ base options, processObservation ctx observation =
        .ok (moveStage base stage .retrying .retryScheduled options) := by
      cases cause with
      | unclassified cause => exact processObservation_unclassified found named defined cause
      | repair failure cause => exact processObservation_repair found named defined cause
      | approval cause => exact processObservation_approval found named defined cause
    obtain ⟨base, options, processed⟩ := processed
    have moved := moveStage_stage? base stage .retrying .retryScheduled options stage.stageId
    rw [if_pos rfl] at moved
    exact ⟨_, _, processed, moved, rfl⟩

end Grants

end Observations

section Ticks

variable [Sha256]

/-- A stage in mode `hitl` moves to `retrying` on an unclassified failure or on an approval of its
pending proposal, and every move to `retrying` is made by an observation. -/
structure HumanApproved (tick : TickRecord) : Prop where
  approved : ∀ ctx observation stage definition, Handled tick ctx observation →
    Retries ctx observation stage →
    (stagesById tick.input.graph).find? stage.stageId = some definition →
    definition.mode = .hitl →
    (observation.kind = .attemptFailed ∧ resolveFailureFromObservation observation = none) ∨
      Approves ctx observation stage
  accounted : ∀ transition ∈ tick.plan.transitions, transition.toState = .retrying →
    ∃ ctx observation stage, Handled tick ctx observation ∧ Retries ctx observation stage ∧
      stage.stageId = transition.stageId

omit [Sha256] in
theorem Recorded.target {stage next : StageSnapshot} {added : List StageTransition}
    (recorded : Recorded stage next added) {transition : StageTransition}
    (member : transition ∈ added) :
    transition.stageId = stage.stageId ∧ transition.toState = next.state := by
  cases recorded with
  | moved made stageId_eq from_eq to_eq =>
    rw [List.mem_singleton.mp member]
    exact ⟨stageId_eq, to_eq⟩
  | rerun made stageId_eq from_eq to_eq =>
    rw [List.mem_singleton.mp member]
    exact ⟨stageId_eq, to_eq⟩
  | again => cases member

theorem steps_retrying {admits : TickContext → SchedulerObservation → Prop} {scope : Scope}
    {ctx ctx' : TickContext} (steps : Steps admits scope ctx ctx') (fresh : ctx.transitions = []) :
    ∀ transition ∈ ctx'.transitions, transition.toState = .retrying →
      ∃ mid observation stage definition, admits mid observation ∧
        mid.stage? stage.stageId = some stage ∧ stage.stageId = transition.stageId ∧
        observation.stageId = some stage.stageId ∧
        (stagesById mid.graph).find? stage.stageId = some definition ∧
        RetryCause mid observation stage definition := by
  induction steps with
  | refl => simp [fresh]
  | @tail mid last reached step ih =>
    intro transition member retrying
    rcases step_recorded step with ⟨_, same⟩ | ⟨stage, next, added, found, change, _, appended,
      recorded⟩
    · rw [same] at member
      exact ih transition member retrying
    · rw [appended] at member
      rcases List.mem_append.mp member with earlier | new
      · exact ih transition earlier retrying
      · obtain ⟨ids, states⟩ := Recorded.target recorded new
        rw [states] at retrying
        obtain ⟨observation, definition, admitted, named, defined, cause⟩ :=
          change_retrying change retrying
        exact ⟨mid, observation, stage, definition, admitted, found, ids.symm, named, defined,
          cause⟩

theorem transitions_accounted {tick : TickRecord} (ticked : Ticked tick) :
    ∀ transition ∈ tick.plan.transitions, transition.toState = .retrying →
      ∃ ctx observation stage, Handled tick ctx observation ∧ Retries ctx observation stage ∧
        stage.stageId = transition.stageId := by
  obtain ⟨trace⟩ := ticked.trace
  have steps : Steps (fun mid observation => ∃ ctx, mid = consumeObservation ctx observation ∧
      Handled tick ctx observation) (tickScope trace.start) trace.start trace.settled :=
    trace.steps_handled fun ctx observation handled => ⟨ctx, rfl, handled⟩
  have fresh : trace.start.transitions = [] :=
    (createTickContext_eq_ok trace.created).2.2.2.2.2.1
  intro transition member retrying
  rw [trace.transitions_eq, trace.final_fields.2.2] at member
  obtain ⟨_, observation, stage, definition, ⟨ctx, rfl, handled⟩, found, ids, named, defined,
    cause⟩ := steps_retrying steps fresh transition member retrying
  exact ⟨ctx, observation, stage, handled,
    retries_of_cause found named defined cause.of_consumed, ids⟩

/-- No recovery counters are stored for the run and no pending observation carries recovery
fields: what makes the service choose a V1 tick. -/
def withoutRecovery (db : StateDatabase) (runId : String) : Bool :=
  (listStageRecoveryStates db runId).isEmpty &&
    (readPendingPipelineObservations db runId).all fun row => !carriesRecoveryFields row.observation

/-- A classified failure of a `hitl` stage that could be recovered meets a V1 tick or a graph that
is itself in mode `hitl`. -/
def ModesAgree (tick : DaemonTick) : Prop :=
  ∀ ctx observation stage definition failure, Handled tick.record ctx observation →
    observation.stageId = some stage.stageId → ctx.stage? stage.stageId = some stage →
    (stagesById tick.input.graph).find? stage.stageId = some definition →
    definition.mode = .hitl → observation.kind = .attemptFailed → Executing stage →
    resolveFailureFromObservation observation = some failure →
    Recoverable (recoveryInput ctx stage definition observation failure) →
    tick.input.graph.mode = .hitl ∨ withoutRecovery tick.before tick.runId = true

variable {tick : DaemonTick}

theorem Committed.executionMode (committed : Committed tick) :
    tick.input.executionMode =
      if withoutRecovery tick.before tick.runId then none else some tick.input.graph.mode := by
  obtain ⟨result, ran⟩ := committed
  obtain ⟨loaded, _, _⟩ := tickAttempt_eq_ok.mp ran
  obtain ⟨schedule, graph, _, _, given⟩ := toSchedulerInput_eq_ok loaded
  have version : useV2 (inputParts tick.before tick.runId schedule graph) =
      !withoutRecovery tick.before tick.runId := by
    simp only [useV2, withoutRecovery, inputParts, toSchedulerObservations, List.any_map,
      Bool.not_and, List.not_all_eq_any_not, Bool.not_not, Function.comp_def]
  rw [given]
  simp only [schedulerInput, version]
  cases withoutRecovery tick.before tick.runId <;> rfl

theorem humanApproved_iff (committed : Committed tick) :
    HumanApproved tick.record ↔ ModesAgree tick := by
  have mode := Committed.executionMode committed
  constructor
  · intro approved ctx observation stage definition failure handled named found defined hitl kind
      executing classifies recoverable
    obtain ⟨version, input⟩ := handled.input
    by_contra disagree
    rw [not_or, Bool.not_eq_true] at disagree
    obtain ⟨graph, recovery⟩ := disagree
    have autonomous : (recoveryInput ctx stage definition observation failure).executionMode =
        .autonomous := by
      change ctx.input.executionMode.getD definition.mode = .autonomous
      rw [input]
      change tick.input.executionMode.getD definition.mode = .autonomous
      rw [mode, recovery]
      cases chosen : tick.input.graph.mode with
      | autonomous => rfl
      | hitl => exact absurd chosen graph
    have known : (stagesById ctx.graph).find? stage.stageId = some definition := by
      rw [TickContext.graph, input]
      exact defined
    have retries := retries_of_cause found named known
      (.repair failure ⟨kind, executing, classifies, recoverable, autonomous⟩)
    rcases approved.approved ctx observation stage definition handled retries defined hitl with
      ⟨_, unclassified⟩ | approves
    · rw [unclassified] at classifies
      cases classifies
    · rw [approves.kind] at kind
      cases kind
  · intro agree
    refine ⟨?_, transitions_accounted committed.ticked⟩
    intro ctx observation stage definition handled retries defined hitl
    obtain ⟨version, input⟩ := handled.input
    obtain ⟨named, given, known, cause⟩ := retries.cause
    have same : (stagesById tick.record.input.graph).find? stage.stageId = some given := by
      rw [TickContext.graph, input] at known
      exact known
    rw [defined] at same
    cases same
    cases cause with
    | unclassified cause => exact Or.inl ⟨cause.kind, cause.unclassified⟩
    | approval cause => exact Or.inr cause
    | repair failure cause =>
      have autonomous : ctx.input.executionMode.getD definition.mode = .autonomous :=
        cause.autonomous
      rw [input, hitl] at autonomous
      change tick.input.executionMode.getD .hitl = .autonomous at autonomous
      rw [mode] at autonomous
      rcases agree ctx observation stage definition failure handled named retries.found defined
        hitl cause.kind cause.executing cause.classifies cause.recoverable with graph | recovery
      · rw [graph] at autonomous
        split at autonomous <;> cases autonomous
      · rw [recovery] at autonomous
        cases autonomous

theorem stage_mode_honoured {ticks : List DaemonTick} (run : ServiceRun ticks) :
    (∀ tick ∈ ticks, HumanApproved tick.record) ↔ ∀ tick ∈ ticks, ModesAgree tick := by
  constructor
  · intro approved tick member
    exact (humanApproved_iff (run.committed tick member)).mp (approved tick member)
  · intro agree tick member
    exact (humanApproved_iff (run.committed tick member)).mpr (agree tick member)

def modesSettled (tick : DaemonTick) : Bool :=
  decide (tick.input.graph.mode = .hitl) || withoutRecovery tick.before tick.runId ||
    tick.input.observations.all fun observation => decide (observation.kind ≠ .attemptFailed)

theorem modesAgree_of_settled (settled : modesSettled tick = true) : ModesAgree tick := by
  intro ctx observation stage definition failure handled _ _ _ _ kind _ _ _
  rw [modesSettled, Bool.or_eq_true, Bool.or_eq_true, decide_eq_true_eq] at settled
  rcases settled with agrees | calm
  · exact agrees
  · have other := List.all_eq_true.mp calm observation handled.mem
    rw [decide_eq_true_eq] at other
    exact absurd kind other

end Ticks

/-- An autonomous graph whose only stage asks for approval. -/
def supervised : PipelineGraph :=
  { repairable with
    stages := [{ id := "build", type := .agent, mode := .hitl, optional := false }] }

def failedAttempt (failed : SchedulerObservation) : List Visit :=
  [{ operations := [.create
      { runId := "run", pipelineId := "pipeline", graph := supervised, now := "t0" }]
     runId := "run", now := "t0" },
    { operations :=
        [.observe "run" (stageObservation "o1" "build" "t1" .attemptStarted),
          .observe "run" failed]
      runId := "run", now := "t1" }]

def failedObservation : SchedulerObservation :=
  { stageObservation "o2" "build" "t1" .attemptFailed with retryable := some true }

/-- The failure is classified by its words, the proposal approved and the stage dispatched again. -/
def approvedTicks : List DaemonTick :=
  @serve timeoutDigest
    (failedAttempt { failedObservation with
        classification := some "timeout", phase := some "start", code := some "attempt_timeout" } ++
      [{ operations := [.observe "run"
          { stageObservation "o3" "build" "t2" .recoveryApproved with
            proposalId := some "prp:run:1:build:1:1" }]
         runId := "run", now := "t2" },
        { runId := "run", now := "t3" }])
    emptyDatabase

def unapprovedTicks : List DaemonTick :=
  @serve timeoutDigest
    (failedAttempt { failedObservation with failure := some timeoutFailure }) emptyDatabase

theorem stage_mode_honoured_sample :
    approvedTicks.map (fun tick => tick.after.stages.rows.map StageSnapshot.state) =
        [[.queued], [.waiting], [.retrying], [.queued]] ∧
      ∀ tick ∈ approvedTicks, @HumanApproved timeoutDigest tick.record := by
  refine ⟨by decide +kernel, ?_⟩
  let _ : Sha256 := timeoutDigest
  have settled : ∀ tick ∈ approvedTicks, modesSettled tick = true := by decide +kernel
  exact (stage_mode_honoured (serve_run _)).mpr fun tick member =>
    modesAgree_of_settled (settled tick member)

theorem stage_mode_overridden :
    ¬ ∀ [Sha256] (ticks : List DaemonTick), ServiceRun ticks →
      ∀ tick ∈ ticks, HumanApproved tick.record := by
  intro claim
  let _ : Sha256 := timeoutDigest
  have approved := claim unapprovedTicks (serve_run _)
  have retried : (unapprovedTicks.any fun tick =>
      (tick.plan.transitions.any fun transition => decide (transition.toState = .retrying) &&
        ((stagesById tick.input.graph).find? transition.stageId).any fun definition =>
          decide (definition.mode = .hitl)) &&
      tick.input.observations.all fun observation =>
        decide (observation.kind ≠ .recoveryApproved) &&
          (decide (observation.kind ≠ .attemptFailed) ||
            (resolveFailureFromObservation observation).isSome)) = true := by decide +kernel
  obtain ⟨tick, member, facts⟩ := List.any_eq_true.mp retried
  rw [Bool.and_eq_true] at facts
  obtain ⟨moved, observed⟩ := facts
  obtain ⟨transition, listed, facts⟩ := List.any_eq_true.mp moved
  rw [Bool.and_eq_true, decide_eq_true_eq, Option.any_eq_true] at facts
  obtain ⟨retrying, definition, defined, hitl⟩ := facts
  obtain ⟨ctx, observation, stage, handled, retries, same⟩ :=
    (approved tick member).accounted transition listed retrying
  have known := List.all_eq_true.mp observed observation handled.mem
  simp only [Bool.and_eq_true, Bool.or_eq_true, decide_eq_true_eq] at known
  rcases (approved tick member).approved ctx observation stage definition handled retries
    (same ▸ defined) (of_decide_eq_true hitl) with ⟨kind, unclassified⟩ | approves
  · rcases known.2 with other | classified
    · exact other kind
    · rw [unclassified] at classified
      cases classified
  · exact known.1 approves.kind

end Heniek.StageApproval
