import Heniek.SchedulerRun

/-!
Observations of an attempt that is no longer the stage's current one. The
handlers look at the state of the stage and not at the attempt an observation
names, so a stale observation is ignored exactly when any observation of its
kind would be; otherwise the stage takes over the stale attempt.
-/

namespace Heniek.StaleObservations
open KeyedTable PipelineVocabulary RecoveryPolicy SchedulerIds
open SchedulerTick SchedulerSteps StageChanges SchedulerRun FallibleRun

/-- The states in which the handler of an attempt observation acts. -/
def accepts : ObservationKind → StageState → Bool
  | .attemptStarted, state => decide (state = .queued ∨ state = .waiting)
  | .attemptWaiting, state => decide (state = .running)
  | .attemptSucceeded, state | .attemptFailed, state =>
    decide (state = .running ∨ state = .waiting)
  | .cancellationSettled, state => state.inFlight
  | _, _ => false

def attemptKinds : List ObservationKind :=
  [.attemptStarted, .attemptWaiting, .attemptSucceeded, .attemptFailed, .cancellationSettled]

structure Met (ctx : TickContext) (stage : StageSnapshot) (observation : SchedulerObservation) :
    Prop where
  found : ctx.stage? stage.stageId = some stage
  named : observation.stageId = some stage.stageId
  attempted : observation.kind ∈ attemptKinds

/-- The observation names another attempt than the one the stage has when it is handled. -/
structure Stale (ctx : TickContext) (stage : StageSnapshot) (observation : SchedulerObservation) :
    Prop extends Met ctx stage observation where
  differs : ∃ attemptId, observation.attemptId = some attemptId ∧
    stage.currentAttemptId ≠ some attemptId

/-- The observation names an attempt of an earlier generation or ordinal. -/
structure Superseded (ctx : TickContext) (stage : StageSnapshot)
    (observation : SchedulerObservation) : Prop extends Met ctx stage observation where
  earlier : ∃ generation attemptOrdinal,
    observation.attemptId = some (deriveAttemptId ctx.input.runId ctx.input.graphRevision
      stage.stageId generation attemptOrdinal) ∧
    (generation < stage.generation ∨
      generation = stage.generation ∧ attemptOrdinal < stage.attemptOrdinal)

/-- The stage keeps its state, attempt, generation, ordinal and recovery counters. -/
structure Inert (ctx after : TickContext) (stage : StageSnapshot) : Prop where
  stage_eq : ∃ kept, after.stage? stage.stageId = some kept ∧ kept.state = stage.state ∧
    kept.currentAttemptId = stage.currentAttemptId ∧ kept.generation = stage.generation ∧
    kept.attemptOrdinal = stage.attemptOrdinal
  counters_eq : recoveryCounters after stage = recoveryCounters ctx stage

variable {stage : StageSnapshot}

theorem observedCause_accepts {ctx : TickContext} {observation : SchedulerObservation}
    {toState : StageState} {reason : TransitionReason} {options : TransitionOptions}
    (cause : ObservedCause ctx stage observation toState reason options) :
    observation.kind ∈ attemptKinds ∧ accepts observation.kind stage.state = true ∧
      options.attemptId = observedAttemptId stage observation ∧ options.clearAttempt = false := by
  cases cause with
  | start kind state => simp [attemptKinds, accepts, kind, state]
  | wait kind state => simp [attemptKinds, accepts, kind, state]
  | succeed kind executing => simpa [attemptKinds, accepts, kind, Executing] using executing
  | settle kind state => simp [attemptKinds, accepts, kind, state]
  | retry _ kind executing => simpa [attemptKinds, accepts, kind, Executing] using executing
  | fail _ kind executing => simpa [attemptKinds, accepts, kind, Executing] using executing

section Handling

variable [Sha256] {ctx after : TickContext} {stage : StageSnapshot}
variable {observation : SchedulerObservation}

theorem processObservation_eq_stage (met : Met ctx stage observation) :
    processObservation ctx observation =
      processStageObservation (consumeObservation ctx observation) stage observation := by
  have located : (some stage.stageId).bind (consumeObservation ctx observation).stage? =
      some stage := met.found
  have attempted := met.attempted
  simp only [attemptKinds, List.mem_cons, List.not_mem_nil, or_false] at attempted
  simp only [processObservation, met.named]
  rcases attempted with kind | kind | kind | kind | kind <;> simp only [kind, located]

theorem ignored_of_not_accepts (met : Met ctx stage observation)
    (ignores : accepts observation.kind stage.state = false) :
    processObservation ctx observation = .ok (consumeObservation ctx observation) := by
  rw [processObservation_eq_stage met]
  have attempted := met.attempted
  simp only [attemptKinds, List.mem_cons, List.not_mem_nil, or_false] at attempted
  rcases attempted with kind | kind | kind | kind | kind
  all_goals
    rw [kind] at ignores
    simp only [accepts, decide_eq_false_iff_not] at ignores
    simp [processStageObservation, kind, ignores]
  rw [not_or] at ignores
  simp [processAttemptFailed, ignores]

theorem inert_of_not_accepts (met : Met ctx stage observation)
    (ignores : accepts observation.kind stage.state = false) :
    ∃ after, processObservation ctx observation = .ok after ∧ Inert ctx after stage :=
  ⟨_, ignored_of_not_accepts met ignores, ⟨⟨stage, met.found, rfl, rfl, rfl, rfl⟩, rfl⟩⟩

theorem accepted_moves (attempted : observation.kind ∈ attemptKinds)
    (accepted : accepts observation.kind stage.state = true)
    (processed : processStageObservation ctx stage observation = .ok after) :
    ∃ base toState reason options, options.attemptId = observedAttemptId stage observation ∧
      options.clearAttempt = false ∧ after = moveStage base stage toState reason options := by
  have moves : ∀ {base : TickContext} {toState : StageState} {reason : TransitionReason}
      {options : TransitionOptions}, options.attemptId = observedAttemptId stage observation →
      options.clearAttempt = false →
      applyTransition base stage toState reason options = .ok after →
      ∃ base toState reason options, options.attemptId = observedAttemptId stage observation ∧
        options.clearAttempt = false ∧ after = moveStage base stage toState reason options := by
    intro base toState reason options attempt keeps applied
    exact ⟨base, toState, reason, options, attempt, keeps,
      (applyTransition_eq_ok.mp applied).2.symm⟩
  simp only [attemptKinds, List.mem_cons, List.not_mem_nil, or_false] at attempted
  rcases attempted with kind | kind | kind | kind | kind
  all_goals
    rw [kind] at accepted
    simp only [accepts, decide_eq_true_eq] at accepted
    simp only [processStageObservation, kind] at processed
  · rw [if_pos accepted] at processed
    exact moves rfl rfl processed
  · rw [if_pos accepted] at processed
    exact moves rfl rfl processed
  · rw [if_pos accepted] at processed
    exact moves rfl rfl processed
  · rw [processAttemptFailed, if_neg (by tauto)] at processed
    obtain ⟨definition, _, processed⟩ := bind_eq_ok.mp processed
    split at processed
    · rename_i failure _
      obtain ⟨options, keeps, applied⟩ := applyRecoveryDecision_eq (getRecoveryCounters ctx stage).2
        stage observation (decideRecovery (recoveryInput ctx stage definition observation failure))
      rw [applied] at processed
      exact moves keeps.attempt_eq keeps.clear_eq processed
    · simp only [processUnclassifiedFailure] at processed
      split at processed <;> exact moves rfl rfl processed
  · rw [if_pos accepted] at processed
    exact moves rfl rfl processed

theorem inert_iff_not_accepts (stale : Stale ctx stage observation) :
    (∃ after, processObservation ctx observation = .ok after ∧ Inert ctx after stage) ↔
      accepts observation.kind stage.state = false := by
  constructor
  · rintro ⟨after, processed, inert⟩
    by_contra accepted
    rw [Bool.not_eq_false] at accepted
    rw [processObservation_eq_stage stale.toMet] at processed
    obtain ⟨base, toState, reason, options, attempt, keeps, rfl⟩ :=
      accepted_moves stale.attempted accepted processed
    obtain ⟨attemptId, names, differs⟩ := stale.differs
    obtain ⟨kept, located, _, same, _⟩ := inert.stage_eq
    have moved : (moveStage base stage toState reason options).stage? stage.stageId =
        some (movedStage base.input.now stage toState reason options) :=
      Table.find?_upsert_self _ _
    rw [moved] at located
    cases located
    simp only [movedStage, keeps, attempt, observedAttemptId, names] at same
    exact differs same.symm
  · exact inert_of_not_accepts stale.toMet

end Handling

section Runs

variable [Sha256]

def OwnAttempt (runId : String) (graphRevision : Nat) (stage : StageSnapshot) : Prop :=
  stage.state.inFlight = true → stage.currentAttemptId =
    some (deriveAttemptId runId graphRevision stage.stageId stage.generation stage.attemptOrdinal)

/-- No stale observation of the tick meets a stage that accepts it. -/
def IgnoresStale (tick : TickRecord) : Prop :=
  ∀ ctx stage observation, Handled tick ctx observation → Stale ctx stage observation →
    accepts observation.kind stage.state = false

def HandledIn (tick : TickRecord) (ctx : TickContext) (observation : SchedulerObservation) : Prop :=
  ∃ before, Handled tick before observation ∧ ctx = consumeObservation before observation

variable {ctx : TickContext} {stage : StageSnapshot} {observation : SchedulerObservation}
  {ticks : List TickRecord}

theorem observedAttemptId_eq {tick : TickRecord} (ignores : IgnoresStale tick)
    (handled : HandledIn tick ctx observation) (found : ctx.stage? stage.stageId = some stage)
    (named : observation.stageId = some stage.stageId) (attempted : observation.kind ∈ attemptKinds)
    (accepted : accepts observation.kind stage.state = true) :
    observedAttemptId stage observation = stage.currentAttemptId := by
  unfold observedAttemptId
  cases names : observation.attemptId with
  | none => rfl
  | some attemptId =>
    by_contra differs
    obtain ⟨before, handled, rfl⟩ := handled
    have stale : Stale before stage observation :=
      ⟨⟨found, named, attempted⟩, attemptId, names, fun same => differs same.symm⟩
    rw [ignores before stage observation handled stale] at accepted
    cases accepted

theorem change_ownAttempt {tick : TickRecord} {scope : Scope} {next : StageSnapshot}
    (ignores : IgnoresStale tick) (found : ctx.stage? stage.stageId = some stage)
    (own : OwnAttempt ctx.input.runId ctx.input.graphRevision stage)
    (change : Change (HandledIn tick) scope ctx stage next) :
    OwnAttempt ctx.input.runId ctx.input.graphRevision next := by
  have keeps : ∀ {toState : StageState} {reason : TransitionReason} {options : TransitionOptions},
      stage.state.inFlight = true → options.attemptId = stage.currentAttemptId →
      options.clearAttempt = false →
      OwnAttempt ctx.input.runId ctx.input.graphRevision
        (movedStage ctx.input.now stage toState reason options) := by
    intro toState reason options active attempt uncleared _
    have current := own active
    simp only [movedStage, uncleared, attempt, current]
    rfl
  cases change with
  | observed observation toState reason options admitted named cause =>
    obtain ⟨attempted, accepted, attempt, uncleared⟩ := observedCause_accepts cause
    rw [observedAttemptId_eq ignores admitted found named attempted accepted] at attempt
    exact keeps (observedCause_source cause) attempt uncleared
  | recovered observation _ _ _ _ _ admitted named cause =>
    cases cause with
    | classified _ _ _ _ kind executing _ _ _ kept =>
      have attempted : observation.kind ∈ attemptKinds := by simp [attemptKinds, kind]
      have accepted : accepts observation.kind stage.state = true := by
        simpa [accepts, kind, Executing] using executing
      have attempt := kept.attempt_eq
      rw [observedAttemptId_eq ignores admitted found named attempted accepted] at attempt
      exact keeps (inFlight_of_executing executing) attempt kept.clear_eq
    | approved => exact nofun
    | rejected => exact nofun
  | phased _ _ _ cause => cases cause <;> exact nofun
  | rerun => exact nofun
  | queued => exact fun _ => rfl

theorem start_ownAttempt (run : FullRun ticks) (ignores : ∀ tick ∈ ticks, IgnoresStale tick)
    {tick : TickRecord} (member : tick ∈ ticks) (trace : Trace tick) :
    ∀ stage ∈ trace.start.working.rows,
      OwnAttempt tick.input.runId tick.input.graphRevision stage := by
  refine run.stages_invariant ?_ ?_ tick member trace
  · intro _ _ _ _ _
    exact nofun
  · intro other listed trace begins
    obtain ⟨runs, revisions, _⟩ := run.toRun.constant listed member
    rw [trace.final_working]
    have steps : Steps (HandledIn other) (tickScope trace.start) trace.start trace.settled :=
      trace.steps_handled fun ctx _ handled => ⟨ctx, handled, rfl⟩
    refine steps_stages steps begins ?_
    intro mid stage next before found own change
    obtain ⟨version, same⟩ := trace.input_eq
    have inputs : mid.input.runId = tick.input.runId ∧
        mid.input.graphRevision = tick.input.graphRevision := by
      rw [steps_input before, trace.start_input, same]
      exact ⟨runs, revisions⟩
    rw [← inputs.1, ← inputs.2] at own ⊢
    exact change_ownAttempt (ignores other listed) found own change

theorem handled_ownAttempt (run : FullRun ticks) (ignores : ∀ tick ∈ ticks, IgnoresStale tick)
    {tick : TickRecord} (member : tick ∈ ticks) (handled : Handled tick ctx observation)
    (found : ctx.stage? stage.stageId = some stage) :
    OwnAttempt ctx.input.runId ctx.input.graphRevision stage := by
  obtain ⟨trace, steps⟩ : ∃ trace : Trace tick, Steps (HandledIn tick) .quiet trace.start ctx :=
    handled.steps fun ctx _ handled => ⟨ctx, handled, rfl⟩
  obtain ⟨version, same⟩ := trace.input_eq
  have inputs : ∀ {mid}, Steps (HandledIn tick) .quiet trace.start mid →
      mid.input.runId = tick.input.runId ∧
        mid.input.graphRevision = tick.input.graphRevision := by
    intro mid before
    rw [steps_input before, trace.start_input, same]
    exact ⟨rfl, rfl⟩
  have own : ∀ stage ∈ ctx.working.rows,
      OwnAttempt tick.input.runId tick.input.graphRevision stage := by
    refine steps_stages steps (start_ownAttempt run ignores member trace) ?_
    intro mid stage next before found own change
    rw [← (inputs before).1, ← (inputs before).2] at own ⊢
    exact change_ownAttempt (ignores tick member) found own change
  rw [(inputs steps).1, (inputs steps).2]
  exact own stage (Table.mem_of_find? found)

theorem superseded_inert (run : FullRun ticks) (ignores : ∀ tick ∈ ticks, IgnoresStale tick)
    {tick : TickRecord} (member : tick ∈ ticks) (handled : Handled tick ctx observation)
    (superseded : Superseded ctx stage observation) :
    ∃ after, processObservation ctx observation = .ok after ∧ Inert ctx after stage := by
  apply inert_of_not_accepts superseded.toMet
  cases active : stage.state.inFlight with
  | false =>
    revert active
    cases observation.kind <;> cases stage.state <;> decide
  | true =>
    obtain ⟨generation, attemptOrdinal, names, earlier⟩ := superseded.earlier
    have own := handled_ownAttempt run ignores member handled superseded.found active
    refine ignores tick member ctx stage observation handled ⟨superseded.toMet, _, names, ?_⟩
    rw [own]
    intro same
    obtain ⟨_, generations, ordinals⟩ := deriveAttemptId_inj (Option.some.inj same)
    omega

/-- A stale observation is inert exactly when its stage does not accept its kind; and in a schedule
where that is so for all of them, no outcome of a superseded attempt touches its successor. -/
theorem stale_observations_inert :
    (∀ {ctx : TickContext} {stage : StageSnapshot} {observation : SchedulerObservation},
      Stale ctx stage observation →
      ((∃ after, processObservation ctx observation = .ok after ∧ Inert ctx after stage) ↔
        accepts observation.kind stage.state = false)) ∧
    ∀ {ticks : List TickRecord}, FullRun ticks → (∀ tick ∈ ticks, IgnoresStale tick) →
      ∀ tick ∈ ticks, ∀ {ctx stage observation}, Handled tick ctx observation →
        Superseded ctx stage observation →
        ∃ after, processObservation ctx observation = .ok after ∧ Inert ctx after stage := by
  refine ⟨fun stale => inert_iff_not_accepts stale, ?_⟩
  intro ticks run ignores tick member ctx stage observation handled superseded
  exact superseded_inert run ignores member handled superseded

theorem ignoresStale_of_unnamed {tick : TickRecord}
    (unnamed : ∀ observation ∈ tick.input.observations, observation.attemptId = none) :
    IgnoresStale tick := by
  intro ctx stage observation handled stale
  obtain ⟨attemptId, names, _⟩ := stale.differs
  rw [unnamed observation handled.mem] at names
  cases names

theorem handled_single {tick : TickRecord} (single : tick.input.observations = [observation])
    {other : SchedulerObservation} :
    Handled tick ctx other ↔ other = observation ∧ ∃ trace : Trace tick, ctx = trace.start := by
  have sorted : ∀ trace : Trace tick,
      sortObservations trace.start.input.observations = [observation] := by
    intro trace
    obtain ⟨version, same⟩ := trace.input_eq
    rw [trace.start_input, same]
    rw [single]
    rfl
  constructor
  · rintro ⟨trace, done, rest, split, folded⟩
    rw [sorted trace] at split
    cases done with
    | nil =>
      cases folded
      exact ⟨(List.cons.inj split).1.symm, trace, rfl⟩
    | cons first done => simp at split
  · rintro ⟨rfl, trace, rfl⟩
    exact ⟨trace, [], [], sorted trace, rfl⟩

end Runs

def retriedCalls : List Call :=
  [{ now := "t1", observations := [stageObservation "o1" "build" "t1" .attemptStarted] },
    { now := "t2"
      observations :=
        [{ stageObservation "o2" "build" "t2" .attemptFailed with retryable := some true }] },
    { now := "t3" }]

/-- The success of the first attempt, observed late. -/
def lateSuccess : SchedulerObservation :=
  { stageObservation "o4" "build" "t5" .attemptSucceeded with
    attemptId := some "pa:run:1:build:1:1" }

/-- The late success meets a second attempt that is queued. -/
def ignoredTicks : List TickRecord :=
  @drive blankDigest (retriedCalls ++ [{ now := "t5", observations := [lateSuccess] }])
    (initialInput repairable "run" "pipeline" "t0")

def settledTicks : List TickRecord :=
  @drive blankDigest (retriedCalls ++
      [{ now := "t4", observations := [stageObservation "o3" "build" "t4" .attemptStarted] },
        { now := "t5", observations := [lateSuccess] }])
    (initialInput repairable "run" "pipeline" "t0")

structure SecondAttempt (tick : TickRecord) (stage : StageSnapshot) : Prop where
  runId_eq : tick.input.runId = "run"
  graphRevision_eq : tick.input.graphRevision = 1
  observations_eq : tick.input.observations = [lateSuccess]
  found : (workingStages tick.input).find? "build" = some stage
  generation_eq : stage.generation = 1
  attemptOrdinal_eq : stage.attemptOrdinal = 2
  current_eq : stage.currentAttemptId = some "pa:run:1:build:1:2"

theorem SecondAttempt.met [Sha256] {tick : TickRecord} (second : SecondAttempt tick stage)
    (trace : Trace tick) : Met trace.start stage lateSuccess := by
  have id : stage.stageId = "build" := Table.key_of_find? second.found
  refine ⟨?_, by rw [id]; rfl, by decide⟩
  rw [trace.start_stage?, id]
  exact second.found

theorem SecondAttempt.stale [Sha256] {tick : TickRecord} (second : SecondAttempt tick stage)
    (trace : Trace tick) : Stale trace.start stage lateSuccess :=
  ⟨second.met trace, _, rfl, by rw [second.current_eq]; decide⟩

theorem SecondAttempt.superseded [Sha256] {tick : TickRecord} (second : SecondAttempt tick stage)
    (trace : Trace tick) : Superseded trace.start stage lateSuccess := by
  refine ⟨second.met trace, 1, 1, ?_, Or.inr ⟨second.generation_eq.symm, ?_⟩⟩
  · obtain ⟨runs, revisions, _⟩ := trace.start_ids
    rw [runs, revisions, second.runId_eq, second.graphRevision_eq,
      Table.key_of_find? second.found]
    decide +kernel
  · rw [second.attemptOrdinal_eq]
    decide

def endsWith (ticks : List TickRecord) (state : StageState) : Bool :=
  ticks.getLast?.any fun tick =>
    decide (tick.input.runId = "run") && decide (tick.input.graphRevision = 1) &&
    decide (tick.input.observations = [lateSuccess]) &&
    ((workingStages tick.input).find? "build").any fun stage =>
      decide (stage.generation = 1) && decide (stage.attemptOrdinal = 2) &&
      decide (stage.currentAttemptId = some "pa:run:1:build:1:2") && decide (stage.state = state)

theorem endsWith_second {ticks : List TickRecord} {state : StageState}
    (ends : endsWith ticks state = true) :
    ∃ tick stage, ticks.getLast? = some tick ∧ SecondAttempt tick stage ∧ stage.state = state := by
  simp only [endsWith, Option.any_eq_true, Bool.and_eq_true, decide_eq_true_eq] at ends
  obtain ⟨tick, last, ⟨⟨runs, revisions⟩, observations⟩, stage, found, facts⟩ := ends
  obtain ⟨⟨⟨generation, ordinal⟩, current⟩, state⟩ := facts
  exact ⟨tick, stage, last, ⟨runs, revisions, observations, found, generation, ordinal, current⟩,
    state⟩

theorem stale_observations_inert_sample :
    ∃ tick ∈ ignoredTicks, ∃ ctx stage, Superseded ctx stage lateSuccess ∧
      accepts lateSuccess.kind stage.state = false ∧
      ∃ after, @processObservation blankDigest ctx lateSuccess = .ok after ∧
        Inert ctx after stage := by
  let _ : Sha256 := blankDigest
  have run : FullRun ignoredTicks :=
    drive_fullRun (initialInput_starts _ _ _ _) (by decide +kernel)
  obtain ⟨tick, stage, last, second, queued⟩ := endsWith_second
    (show endsWith ignoredTicks .queued = true by decide +kernel)
  have member : tick ∈ ignoredTicks := List.mem_of_getLast? last
  have ignored : accepts lateSuccess.kind stage.state = false := by
    rw [queued]
    rfl
  obtain ⟨trace⟩ := (run.ticked tick member).trace
  have handled : Handled tick trace.start lateSuccess :=
    (handled_single second.observations_eq).mpr ⟨rfl, trace, rfl⟩
  have unnamed : ∀ tick ∈ ignoredTicks.dropLast, ∀ observation ∈ tick.input.observations,
      observation.attemptId = none := by decide +kernel
  have ignores : ∀ tick ∈ ignoredTicks, IgnoresStale tick := by
    intro other listed
    rw [← List.dropLast_append_getLast? tick last, List.mem_append, List.mem_singleton] at listed
    rcases listed with earlier | rfl
    · exact ignoresStale_of_unnamed (unnamed other earlier)
    · intro ctx met observation handled stale
      obtain ⟨rfl, trace, rfl⟩ := (handled_single second.observations_eq).mp handled
      have same : met = stage := by
        have located := stale.found
        have id : met.stageId = "build" := Option.some.inj stale.named.symm
        rw [trace.start_stage?, id, second.found] at located
        exact (Option.some.inj located).symm
      rw [same]
      exact ignored
  have inert := stale_observations_inert.2 run ignores tick member handled (second.superseded trace)
  refine ⟨tick, member, trace.start, stage, second.superseded trace, ?_, inert⟩
  exact (stale_observations_inert.1 (second.stale trace)).mp inert

theorem stale_observation_settles_successor :
    ¬ ∀ [Sha256] (ticks : List TickRecord), FullRun ticks → ∀ tick ∈ ticks,
      ∀ ctx stage observation, Handled tick ctx observation → Stale ctx stage observation →
        ∃ after, processObservation ctx observation = .ok after ∧ Inert ctx after stage := by
  intro claim
  let _ : Sha256 := blankDigest
  have run : FullRun settledTicks :=
    drive_fullRun (initialInput_starts _ _ _ _) (by decide +kernel)
  obtain ⟨tick, stage, last, second, running⟩ := endsWith_second
    (show endsWith settledTicks .running = true by decide +kernel)
  have member : tick ∈ settledTicks := List.mem_of_getLast? last
  obtain ⟨trace⟩ := (run.ticked tick member).trace
  have handled : Handled tick trace.start lateSuccess :=
    (handled_single second.observations_eq).mpr ⟨rfl, trace, rfl⟩
  have inert := claim settledTicks run tick member trace.start stage lateSuccess handled
    (second.stale trace)
  have ignored := (inert_iff_not_accepts (second.stale trace)).mp inert
  rw [running] at ignored
  cases ignored

end Heniek.StaleObservations
