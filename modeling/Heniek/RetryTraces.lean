import Heniek.CounterSteps
import Heniek.PipelineRunner

/-!
The link from a repaired attempt to the decision that asked for it. A directive is issued
in one tick and dispatched in a later one, while the decision is looked for among those of
the dispatching tick. A stage that is rearmed has been retrying since the tick began, so
no decision of the tick is about it; and one that was rerun after a decision has fresh
counters. No attempt that carries a directive finds its decision.
-/

namespace Heniek.RetryTraces
open KeyedTable PipelineVocabulary PipelineDocument RecoveryPolicy ScriptText FallibleRun
open SchedulerTick SchedulerSteps StageChanges SchedulerRun CounterSteps PipelineStore
open PipelineRunner

/-- A stage that a decision of the tick is about is not one to rearm, and holds no directive when
it is next dispatched. -/
structure Untraced (armed : List String) (ctx : TickContext) : Prop where
  unarmed : ∀ decision ∈ ctx.recoveryDecisions, decision.stageId ∉ armed
  undirected : ∀ decision ∈ ctx.recoveryDecisions, ∀ stage ∈ ctx.working.rows,
    stage.stageId = decision.stageId → (stage.state = .ready ∨ stage.state = .pending) →
      (recoveryCounters ctx stage).pendingDirective = none
  attempts : ∀ attempt ∈ ctx.attempts, attempt.recoveryDecisionId = none

def Resting (armed : List String) (ctx : TickContext) : Prop :=
  ∀ stage ∈ ctx.working.rows, stage.stageId ∈ armed → stage.state.inFlight = false

theorem decideStrategy_stageId (input : DecideRecoveryInput) (signature : FailureSignature)
    (counters : StageRecoveryCounters) (strategy : Strategy) :
    (decideStrategy input signature counters strategy).recoveryDecision.stageId =
      input.stageId := by
  unfold decideStrategy
  split
  · rfl
  · cases input.executionMode <;> rfl

theorem planValidationStrategy_stageId {input : DecideRecoveryInput} {signature : FailureSignature}
    {counters : StageRecoveryCounters} {result : DecideRecoveryResult}
    (planned : planValidationStrategy input signature counters = .inr result) :
    result.recoveryDecision.stageId = input.stageId := by
  simp only [planValidationStrategy] at planned
  split at planned
  · cases planned
    rfl
  · split at planned
    · cases planned
      rfl
    · cases planned
      rfl
    · cases planned
    · cases planned
    · split at planned
      · cases planned
        rfl
      · split at planned
        · cases planned
          rfl
        · cases planned

theorem observedCause_target {ctx : TickContext} {stage : StageSnapshot}
    {observation : SchedulerObservation} {toState : StageState} {reason : TransitionReason}
    {options : TransitionOptions}
    (cause : ObservedCause ctx stage observation toState reason options) :
    ¬ (toState = .ready ∨ toState = .pending) := by
  cases cause <;> simp

section Hashed

variable [Sha256]

theorem decideRecovery_stageId (input : DecideRecoveryInput) :
    (decideRecovery input).recoveryDecision.stageId = input.stageId := by
  simp only [decideRecovery]
  split
  · rfl
  split
  · rfl
  split
  · rfl
  split
  · split
    · rename_i planned
      exact planValidationStrategy_stageId planned
    · exact decideStrategy_stageId _ _ _ _
  · exact decideStrategy_stageId _ _ _ _

section Steps

variable {admits : TickContext → SchedulerObservation → Prop} {scope : Scope}
variable {ctx ctx' : TickContext} {stage : StageSnapshot} {armed : List String}

theorem recoveryCause_stageId {observation : SchedulerObservation} {decision : RecoveryDecision}
    {counters : StageRecoveryCounters} {toState : StageState} {reason : TransitionReason}
    {options : TransitionOptions}
    (cause : RecoveryCause ctx stage observation decision counters toState reason options) :
    decision.stageId = stage.stageId := by
  cases cause with
  | classified definition failure result options _ _ _ _ decided =>
    rw [decided]
    exact decideRecovery_stageId _
  | approved definition directive _ _ _ _ _ _ _ _ _ _ made =>
    rw [made]
    rfl
  | rejected _ _ _ _ _ _ definition made =>
    rw [made]
    rfl

theorem step_resting (step : Step admits scope ctx ctx') (still : scope.queues = false)
    (resting : Resting armed ctx) : Resting armed ctx' := by
  rcases step_working step with same | ⟨stage, next, found, change, updated⟩
  · unfold Resting
    rw [same]
    exact resting
  · intro row member listed
    rw [updated] at member
    rcases Table.mem_upsert.mp member with rfl | ⟨kept, _⟩
    · have idle := resting stage (Table.mem_of_find? found) (change.stageId_eq ▸ listed)
      cases change with
      | observed _ _ _ _ _ _ cause =>
        rw [observedCause_source cause] at idle
        cases idle
      | recovered _ _ _ _ _ _ _ _ cause =>
        rw [recoveryCause_source cause] at idle
        cases idle
      | phased toState reason options cause => cases cause <;> rfl
      | rerun => rfl
      | queued _ _ _ queues =>
        rw [still] at queues
        cases queues
    · exact resting row kept listed

theorem steps_resting (steps : Steps admits scope ctx ctx') (still : scope.queues = false)
    (resting : Resting armed ctx) : Resting armed ctx' := by
  induction steps with
  | refl => exact resting
  | tail _ step ih => exact step_resting step still ih

omit [Sha256] in
theorem Untraced.moved (untraced : Untraced armed ctx) (stage : StageSnapshot)
    {next : StageSnapshot}
    (working_eq : ctx'.working = ctx.working.upsert next) (named : next.stageId = stage.stageId)
    (elsewhere : ∀ id number, id ≠ stage.stageId →
      countersAt ctx' id number = countersAt ctx id number)
    (decisions : ∀ decision ∈ ctx'.recoveryDecisions, decision ∈ ctx.recoveryDecisions ∨
      decision.stageId = stage.stageId ∧ stage.stageId ∉ armed)
    (here : (next.state = .ready ∨ next.state = .pending) →
      (∃ decision ∈ ctx'.recoveryDecisions, decision.stageId = stage.stageId) →
        (recoveryCounters ctx' next).pendingDirective = none)
    (attempts : ∀ attempt ∈ ctx'.attempts, attempt.recoveryDecisionId = none) :
    Untraced armed ctx' where
  unarmed := by
    intro decision made
    rcases decisions decision made with earlier | ⟨same, unarmed⟩
    · exact untraced.unarmed decision earlier
    · rw [same]
      exact unarmed
  undirected := by
    intro decision made row member about halted
    rw [working_eq] at member
    rcases Table.mem_upsert.mp member with rfl | ⟨kept, other⟩
    · exact here halted ⟨decision, made, about.symm.trans named⟩
    · rw [named] at other
      rw [recoveryCounters_eq, elsewhere _ _ other, ← recoveryCounters_eq]
      rcases decisions decision made with earlier | ⟨same, _⟩
      · exact untraced.undirected decision earlier row kept about halted
      · exact absurd (about.trans same) other
  attempts := attempts

omit [Sha256] in
theorem stageAttempt_untraced (untraced : Untraced armed ctx)
    (found : ctx.stage? stage.stageId = some stage) (ready : stage.state = .ready)
    (definition : PipelineStage) :
    (stageAttempt ctx (bumped stage) definition).recoveryDecisionId = none := by
  have same : recoveryCounters ctx (bumped stage) = recoveryCounters ctx stage := rfl
  simp only [stageAttempt, same]
  cases pending : (recoveryCounters ctx stage).pendingDirective with
  | none => rfl
  | some directive =>
    simp only [Option.map_eq_none_iff, List.find?_eq_none, List.mem_reverse, decide_eq_true_eq]
    intro decision made about
    have settled := untraced.undirected decision made stage (Table.mem_of_find? found)
      about.symm (Or.inl ready)
    rw [pending] at settled
    cases settled

theorem step_untraced (step : Step admits scope ctx ctx') (covered : ∀ id ∈ scope.armed, id ∈ armed)
    (resting : (∀ ctx observation, ¬ admits ctx observation) ∨ Resting armed ctx)
    (untraced : Untraced armed ctx) : Untraced armed ctx' := by
  have unarmed : ∀ {stage : StageSnapshot} {observation : SchedulerObservation},
      ctx.stage? stage.stageId = some stage → admits ctx observation →
        stage.state.inFlight = true → stage.stageId ∉ armed := by
    intro stage observation found admitted active listed
    rcases resting with silent | resting
    · exact silent ctx observation admitted
    · rw [resting stage (Table.mem_of_find? found) listed] at active
      cases active
  cases step_counters step with
  | idle working_eq counters decisions attempts =>
    refine ⟨?_, ?_, ?_⟩
    · rw [decisions]
      exact untraced.unarmed
    · rw [decisions, working_eq]
      intro decision made row member about halted
      rw [recoveryCounters_eq, counters]
      exact untraced.undirected decision made row member about halted
    · rw [attempts]
      exact untraced.attempts
  | observed stage observation toState reason options found admitted named cause working_eq counters
      decisions attempts =>
      refine untraced.moved stage working_eq rfl (fun id number _ => counters id number)
        ?_ (fun halted => absurd halted (observedCause_target cause)) ?_
      · rw [decisions]
        exact fun decision made => Or.inl made
      · rw [attempts]
        exact untraced.attempts
  | recovered stage observation decision next toState reason options found admitted named cause
      working_eq counters decisions attempts =>
      refine untraced.moved stage working_eq rfl
        (fun id number other => counters.elsewhere id number fun same => other same.1) ?_
        (fun halted => absurd halted (recoveryCause_target cause).2) ?_
      · rw [decisions]
        intro made listed
        rcases List.mem_append.mp listed with earlier | new
        · exact Or.inl earlier
        · rw [List.mem_singleton.mp new]
          exact Or.inr ⟨recoveryCause_stageId cause,
            unarmed found admitted (recoveryCause_source cause)⟩
      · rw [attempts]
        exact untraced.attempts
  | phased stage toState reason options found cause working_eq counters decisions attempts =>
    refine untraced.moved stage working_eq rfl (fun id number _ => counters id number)
      ?_ ?_ ?_
    · rw [decisions]
      exact fun decision made => Or.inl made
    · rintro halted ⟨decision, made, about⟩
      rw [decisions] at made
      have pending : stage.state = .pending := by
        cases cause with
        | rearm listed => exact absurd (covered _ listed) (about ▸ untraced.unarmed decision made)
        | releaseRoot releasable | releaseReady releasable => exact releasable.pending
        | cancelInactive | releaseBlocked | releaseDeselected =>
          rcases halted with state | state <;> cases state
      rw [recoveryCounters_eq, counters]
      exact untraced.undirected decision made stage (Table.mem_of_find? found) about.symm
        (Or.inr pending)
    · rw [attempts]
      exact untraced.attempts
  | rerun stage found working_eq counters decisions attempts =>
    refine untraced.moved stage working_eq rfl
      (fun id number other => counters.elsewhere id number fun same => other same.1) ?_ ?_ ?_
    · rw [decisions]
      exact fun decision made => Or.inl made
    · intro _ _
      rw [recoveryCounters_eq]
      exact congrArg StageRecoveryCounters.pendingDirective counters.here
    · rw [attempts]
      exact untraced.attempts
  | queued stage definition found ready queues working_eq counters decisions attempts =>
    refine untraced.moved stage working_eq rfl
      (fun id number other => counters.elsewhere id number fun same => other same.1) ?_ ?_ ?_
    · rw [decisions]
      exact fun decision made => Or.inl made
    · rintro (state | state) <;> cases state
    · rw [attempts]
      intro attempt listed
      rcases List.mem_append.mp listed with earlier | new
      · exact untraced.attempts attempt earlier
      · rw [List.mem_singleton.mp new]
        exact stageAttempt_untraced untraced found ready definition

theorem steps_untraced (steps : Steps admits scope ctx ctx')
    (covered : ∀ id ∈ scope.armed, id ∈ armed)
    (resting : (∀ ctx observation, ¬ admits ctx observation) ∨
      scope.queues = false ∧ Resting armed ctx)
    (untraced : Untraced armed ctx) : Untraced armed ctx' := by
  induction steps with
  | refl => exact untraced
  | tail earlier step ih =>
    refine step_untraced step covered ?_ ih
    rcases resting with silent | ⟨still, resting⟩
    · exact Or.inl silent
    · exact Or.inr (steps_resting earlier still resting)

end Steps

theorem attempts_unlinked {tick : TickRecord} (trace : Trace tick) :
    ∀ attempt ∈ tick.plan.attempts, attempt.recoveryDecisionId = none := by
  obtain ⟨observed, cut, processed, passed, rest⟩ := runPhases_split trace.phases
  have fresh : trace.start.recoveryDecisions = [] ∧ trace.start.attempts = [] := by
    have created := trace.created
    rw [createTickContext, if_pos (createTickContext_eq_ok created).1] at created
    rw [← Except.ok.inj created]
    exact ⟨rfl, rfl⟩
  have resting : Resting (retryingStageIds trace.start) trace.start := by
    intro stage member listed
    obtain ⟨other, kept, same⟩ := List.mem_map.mp listed
    obtain ⟨stored, retrying⟩ := List.mem_filter.mp kept
    obtain rfl := Table.eq_of_key_eq stored member same
    rw [of_decide_eq_true retrying]
    rfl
  have start : Untraced (retryingStageIds trace.start) trace.start := by
    refine ⟨?_, ?_, ?_⟩
    · rw [fresh.1]
      exact fun _ made => absurd made List.not_mem_nil
    · rw [fresh.1]
      exact fun _ made => absurd made List.not_mem_nil
    · rw [fresh.2]
      exact fun _ made => absurd made List.not_mem_nil
  have handled : Steps (fun _ _ => True) .quiet trace.start cut :=
    (observations_steps (fun _ _ _ _ _ _ => trivial) processed).trans (cancelPass_steps rfl passed)
  have middle : Untraced (retryingStageIds trace.start) cut :=
    steps_untraced handled (fun _ listed => absurd listed List.not_mem_nil)
      (Or.inr ⟨rfl, resting⟩) start
  have last : Untraced (retryingStageIds trace.start) trace.settled :=
    steps_untraced (rest fun _ _ => False) (fun _ listed => listed)
      (Or.inl fun _ _ admitted => admitted) middle
  intro attempt made
  rw [trace.attempts_eq, mem_sortBy, trace.final_fields.1] at made
  exact last.attempts attempt made

omit [Sha256] in
theorem retryDirectiveRows_nil {attempts : List StageAttempt}
    (unlinked : ∀ attempt ∈ attempts, attempt.recoveryDecisionId = none) :
    retryDirectiveRows attempts [] = [] := by
  induction attempts with
  | nil => rfl
  | cons attempt attempts ih =>
    have none_eq := unlinked attempt List.mem_cons_self
    have row : retryDirectiveRow attempt = none := by
      unfold retryDirectiveRow
      rw [none_eq]
      cases attempt.retryDirective <;> rfl
    rw [retryDirectiveRows, row]
    exact ih fun other listed => unlinked other (List.mem_cons_of_mem _ listed)

theorem committed_retryDirectives {tick : DaemonTick} (committed : Committed tick) :
    tick.after.retryDirectives = tick.before.retryDirectives := by
  obtain ⟨trace⟩ := committed.trace
  obtain ⟨_, _, inserted⟩ := committed.wrote.1.retryDirectives
  have none_written : retryDirectiveRows tick.plan.attempts [] = [] :=
    retryDirectiveRows_nil (attempts_unlinked trace)
  rw [none_written] at inserted
  exact (congrArg Prod.fst (Except.ok.inj inserted)).symm

theorem chain_retryDirectives {ticks : List DaemonTick} {db : StateDatabase}
    (committed : ∀ tick ∈ ticks, Committed tick)
    (starts : ∀ tick ∈ ticks.head?, Operates db tick.before)
    (chained : ticks.IsChain fun tick next => Operates tick.after next.before) :
    ∀ tick ∈ ticks, tick.after.retryDirectives = db.retryDirectives := by
  induction ticks generalizing db with
  | nil => exact fun _ listed => nomatch listed
  | cons first later ih =>
    have here : first.after.retryDirectives = db.retryDirectives :=
      (committed_retryDirectives (committed first List.mem_cons_self)).trans
        (operates_planned (starts first rfl)).retryDirectives_eq
    obtain ⟨follows, rest⟩ := List.isChain_cons.mp chained
    have tail := ih (fun tick listed => committed tick (List.mem_cons_of_mem _ listed)) follows rest
    intro tick listed
    rcases List.mem_cons.mp listed with rfl | listed
    · exact here
    · exact (tail tick listed).trans here

structure Issues (decision : RecoveryDecision) (attempt : StageAttempt) : Prop where
  action : decision.action = .dispatch ∨ decision.action = .approve
  stageId_eq : decision.stageId = attempt.stageId
  generation_eq : decision.generation = attempt.generation
  directive_eq : decision.directive = attempt.retryDirective

/-- The attempt names the decision that issued its directive, and the store holds its row. -/
structure Traceable (tick : DaemonTick) (attempt : StageAttempt) : Prop where
  decided : ∃ decision ∈ tick.after.recoveryDecisions.rows,
    attempt.recoveryDecisionId = some decision.decisionId ∧ Issues decision attempt
  stored : ∃ row ∈ tick.after.retryDirectives.rows, row.attemptId = attempt.attemptId

/-- In no run of the service is a repaired attempt traceable: none names a recovery decision, and
the table of the directives stays empty. -/
theorem repairs_untraceable {ticks : List DaemonTick} (run : ServiceRun ticks) :
    ∀ tick ∈ ticks, (∀ attempt ∈ tick.plan.attempts, attempt.retryDirective ≠ none →
      attempt.recoveryDecisionId = none ∧ ¬ Traceable tick attempt) ∧
        tick.after.retryDirectives.rows = [] := by
  intro tick listed
  obtain ⟨trace⟩ := (run.committed tick listed).trace
  have rows := chain_retryDirectives run.committed run.starts run.chained tick listed
  refine ⟨fun attempt made _ => ?_, by rw [rows]; rfl⟩
  have unlinked := attempts_unlinked trace attempt made
  refine ⟨unlinked, fun traceable => ?_⟩
  obtain ⟨decision, _, named, _⟩ := traceable.decided
  rw [unlinked] at named
  cases named

end Hashed

section Samples

def repairVisits : List Visit :=
  [{ operations := [.create
      { runId := "run", pipelineId := "pipeline", graph := repairable, now := "t0" }]
     runId := "run", now := "t0" },
    { operations :=
        [.observe "run" (stageObservation "o1" "build" "t1" .attemptStarted),
          .observe "run"
            { stageObservation "o2" "build" "t1" .attemptFailed with
              failure := some timeoutFailure }]
      runId := "run", now := "t1" },
    { runId := "run", now := "t2" }]

def repairTicks : List DaemonTick := @serve timeoutDigest repairVisits emptyDatabase

def directed (tick : DaemonTick) : List (Option String) :=
  (tick.plan.attempts.filter fun attempt => attempt.retryDirective.isSome).map
    StageAttempt.recoveryDecisionId

theorem repairs_untraceable_sample :
    repairTicks.map directed = [[], [], [none]] ∧
      ∀ tick ∈ repairTicks, tick.after.retryDirectives.rows = [] := by
  refine ⟨by decide +kernel, fun tick listed => ?_⟩
  exact (@repairs_untraceable timeoutDigest _ (@serve_run timeoutDigest repairVisits) tick listed).2

/-- The repaired attempt of the run names no decision. -/
theorem repair_unlinked : ¬ ∀ [Sha256] (ticks : List DaemonTick), ServiceRun ticks →
    ∀ tick ∈ ticks, ∀ attempt ∈ tick.plan.attempts, attempt.retryDirective ≠ none →
      Traceable tick attempt := by
  intro claim
  have found : ∃ tick ∈ repairTicks, ∃ attempt ∈ tick.plan.attempts,
      attempt.retryDirective ≠ none ∧ attempt.recoveryDecisionId = none := by decide +kernel
  obtain ⟨tick, listed, attempt, made, directed, unlinked⟩ := found
  have traceable := @claim timeoutDigest repairTicks (@serve_run timeoutDigest repairVisits) tick
    listed attempt made directed
  obtain ⟨decision, _, named, _⟩ := traceable.decided
  rw [unlinked] at named
  cases named

end Samples

end Heniek.RetryTraces
