import Heniek.DispatchOnce

/-!
The repair budget of a stage. A retry of an unclassified failure is granted on
the stage's ordinal, a repair of a classified one on the repairs its recovery
counters know of, and those do not count the unclassified retries. While every
granted repair finds the ordinal within the budget, a generation dispatches one
attempt and then at most the budget's number of repairs.
-/

namespace Heniek.RepairBudget
open KeyedTable PipelineVocabulary PipelineDocument RecoveryPolicy ScriptText
open SchedulerTick SchedulerSteps StageChanges SchedulerRun DispatchOnce

/-- A stage's attempts stay within its budget, with one left to dispatch while it is not in
flight. -/
structure Bounded (budget : Nat) (stage : StageSnapshot) : Prop where
  ordinal : stage.attemptOrdinal ≤ 1 + budget
  spare : stage.state.inactive = true → stage.attemptOrdinal ≤ budget

def BoundedIn (graph : PipelineGraph) (limits : Option EffectiveLimits) (stage : StageSnapshot) :
    Prop :=
  ∀ definition, (stagesById graph).find? stage.stageId = some definition →
    Bounded (maxRepairAttemptsFor definition graph limits) stage

section Repairs

variable [Sha256]

def RepairsWithinBudget (ctx : TickContext) (observation : SchedulerObservation) : Prop :=
  ∀ stage definition, observation.stageId = some stage.stageId →
    ctx.stage? stage.stageId = some stage →
    (stagesById ctx.graph).find? stage.stageId = some definition →
    ((∃ failure, Repairs ctx observation stage definition failure) ∨
      Approves ctx observation stage) →
    stage.attemptOrdinal ≤ budgetOf ctx definition

theorem RepairsWithinBudget.consumed {ctx : TickContext} {observation : SchedulerObservation}
    (within : RepairsWithinBudget ctx observation) :
    RepairsWithinBudget (consumeObservation ctx observation) observation := by
  intro stage definition named found defined grants
  refine within stage definition named found defined ?_
  rcases grants with ⟨failure, repairs⟩ | approves
  · exact Or.inl ⟨failure, repairs.kind, repairs.executing, repairs.classifies,
      repairs.recoverable, repairs.autonomous⟩
  · exact Or.inr ⟨approves.kind, approves.waiting, approves.proposed, approves.answers,
      approves.directed⟩

end Repairs

section Changes

variable {graph : PipelineGraph} {limits : Option EffectiveLimits} {stage : StageSnapshot}

theorem boundedIn_initial (runId now id : String) (graphRevision : Nat) :
    BoundedIn graph limits (initialStage runId graphRevision now id) := by
  intro definition _
  exact ⟨Nat.zero_le _, fun _ => Nat.zero_le _⟩

theorem Bounded.moved {budget : Nat} {now : String} {toState : StageState}
    {reason : TransitionReason} {options : TransitionOptions} (bounded : Bounded budget stage)
    (spare : toState.inactive = true → stage.attemptOrdinal ≤ budget) :
    Bounded budget (movedStage now stage toState reason options) :=
  ⟨bounded.ordinal, spare⟩

variable [Sha256] {scope : Scope} {ctx : TickContext} {next : StageSnapshot}

theorem change_bounded (change : Change RepairsWithinBudget scope ctx stage next)
    (found : ctx.stage? stage.stageId = some stage)
    (bounded : BoundedIn ctx.graph ctx.input.effectiveLimits stage) :
    BoundedIn ctx.graph ctx.input.effectiveLimits next := by
  intro definition defined
  rw [change.stageId_eq] at defined
  have before := bounded definition defined
  cases change with
  | observed observation toState reason options admitted named cause =>
    refine before.moved ?_
    cases cause with
    | retry given _ _ located _ _ budget =>
      rw [defined] at located
      cases located
      have granted : stage.attemptOrdinal - 1 <
        maxRepairAttemptsFor definition ctx.graph ctx.input.effectiveLimits := budget
      omega
    | _ => nofun
  | recovered observation decision counters toState reason options admitted named cause =>
    refine before.moved ?_
    cases cause with
    | classified given failure result _ kind executing located classifies decided =>
      intro inactive
      rw [defined] at located
      cases located
      refine admitted stage definition named found defined (Or.inl ⟨failure, ?_⟩)
      obtain ⟨recoverable, autonomous⟩ := retries_of_inactive decided inactive
      exact ⟨kind, executing, classifies, recoverable, autonomous⟩
    | approved given directive _ _ kind waiting answers proposed directed =>
      intro _
      refine admitted stage definition named found defined (Or.inr ?_)
      exact ⟨kind, waiting, proposed, answers, by rw [directed]; nofun⟩
    | rejected => nofun
  | phased toState reason options cause =>
    refine before.moved ?_
    intro _
    exact before.spare (phaseCause_source cause)
  | rerun => exact ⟨Nat.zero_le _, fun _ => Nat.zero_le _⟩
  | queued state =>
    have spare := before.spare (by rw [state]; rfl)
    refine ⟨?_, nofun⟩
    change stage.attemptOrdinal + 1 ≤ _
    omega

def AttemptWithin (graph : PipelineGraph) (limits : Option EffectiveLimits)
    (attempt : StageAttempt) : Prop :=
  ∀ definition, (stagesById graph).find? attempt.stageId = some definition →
    1 ≤ attempt.attemptOrdinal ∧
      attempt.attemptOrdinal ≤ 1 + maxRepairAttemptsFor definition graph limits

variable {ctx' : TickContext}

theorem steps_bounded (steps : Steps RepairsWithinBudget scope ctx ctx')
    (before : ∀ stage ∈ ctx.working.rows, BoundedIn ctx.graph ctx.input.effectiveLimits stage) :
    ∀ stage ∈ ctx'.working.rows, BoundedIn ctx.graph ctx.input.effectiveLimits stage := by
  refine steps_stages steps before ?_
  intro mid stage next reached found bounded change
  have input := steps_input reached
  rw [TickContext.graph, ← input] at bounded ⊢
  exact change_bounded change found bounded

theorem steps_attemptsWithin (steps : Steps RepairsWithinBudget scope ctx ctx')
    (before : ∀ stage ∈ ctx.working.rows, BoundedIn ctx.graph ctx.input.effectiveLimits stage)
    (fresh : ctx.attempts = []) :
    ∀ attempt ∈ ctx'.attempts, AttemptWithin ctx.graph ctx.input.effectiveLimits attempt := by
  induction steps with
  | refl => simp [fresh]
  | @tail mid last reached step ih =>
    rcases step_dispatch step with ⟨same, _⟩ | ⟨stage, definition, _, found, ready, _, made, _⟩
    · rw [same]
      exact ih
    · rw [made]
      intro attempt member
      rcases List.mem_append.mp member with earlier | new
      · exact ih attempt earlier
      · obtain ⟨id, _, ordinal, _⟩ := stageAttempt_fields mid (bumped stage) definition
        rw [List.mem_singleton.mp new]
        intro given defined
        rw [id] at defined
        have spare := (steps_bounded reached before stage (Table.mem_of_find? found) given
          defined).spare (by rw [ready]; rfl)
        rw [ordinal]
        change 1 ≤ stage.attemptOrdinal + 1 ∧ stage.attemptOrdinal + 1 ≤ _
        omega

end Changes

section Runs

variable [Sha256] {ticks : List TickRecord} {tick : TickRecord} {limits : Option EffectiveLimits}

theorem tick_bounded (trace : Trace tick)
    (within : ∀ ctx observation, Handled tick ctx observation →
      RepairsWithinBudget ctx observation)
    (before : ∀ stage ∈ trace.start.working.rows,
      BoundedIn tick.input.graph tick.input.effectiveLimits stage) :
    (∀ stage ∈ trace.final.working.rows,
        BoundedIn tick.input.graph tick.input.effectiveLimits stage) ∧
      ∀ attempt ∈ tick.plan.attempts,
        AttemptWithin tick.input.graph tick.input.effectiveLimits attempt := by
  have steps : Steps RepairsWithinBudget (tickScope trace.start) trace.start trace.settled :=
    trace.steps_handled fun ctx observation handled => (within ctx observation handled).consumed
  have graph : trace.start.graph = tick.input.graph := trace.start_ids.2.2
  have limits : trace.start.input.effectiveLimits = tick.input.effectiveLimits := by
    obtain ⟨version, same⟩ := trace.input_eq
    rw [trace.start_input, same]
  have fresh : trace.start.attempts = [] :=
    (createTickContext_eq_ok trace.created).2.2.2.2.2.2.2.2.1
  rw [← graph, ← limits] at before ⊢
  refine ⟨by rw [trace.final_working]; exact steps_bounded steps before, ?_⟩
  intro attempt made
  rw [trace.attempts_eq, mem_sortBy, trace.final_fields.1] at made
  exact steps_attemptsWithin steps before fresh attempt made

theorem run_bounded (run : FullRun ticks)
    (fixed : ∀ tick ∈ ticks, tick.input.effectiveLimits = limits)
    (within : ∀ tick ∈ ticks, ∀ ctx observation, Handled tick ctx observation →
      RepairsWithinBudget ctx observation) :
    ∀ tick ∈ ticks, (∀ stage ∈ tick.plan.stagePatches, BoundedIn tick.input.graph limits stage) ∧
      ∀ attempt ∈ tick.plan.attempts, AttemptWithin tick.input.graph limits attempt := by
  cases ticks with
  | nil => simp
  | cons first later =>
    have graphs : ∀ tick ∈ first :: later, tick.input.graph = first.input.graph :=
      fun tick member => (run.toRun.constant member List.mem_cons_self).2.2
    have keeps : ∀ tick ∈ first :: later, ∀ trace : Trace tick,
        (∀ stage ∈ trace.start.working.rows, BoundedIn first.input.graph limits stage) →
          (∀ stage ∈ trace.final.working.rows, BoundedIn first.input.graph limits stage) ∧
            ∀ attempt ∈ tick.plan.attempts, AttemptWithin first.input.graph limits attempt := by
      intro tick member trace before
      have kept := tick_bounded trace (within tick member)
      rw [fixed tick member, graphs tick member] at kept
      exact kept before
    have starts := run.stages_invariant (P := BoundedIn first.input.graph limits)
      (fun _ _ now id _ => boundedIn_initial _ now id _)
      (fun tick member trace before => (keeps tick member trace before).1)
    intro tick member
    obtain ⟨trace⟩ := (run.toRun.ticked tick member).trace
    obtain ⟨stages, attempts⟩ := keeps tick member trace (starts tick member trace)
    rw [graphs tick member]
    exact ⟨fun stage patched => stages stage (trace.stagePatches_perm.mem_iff.mp patched), attempts⟩

def attemptsIn (ticks : List TickRecord) (stageId : String) (generation : Nat) :
    List StageAttempt :=
  (attemptsOf ticks).filter fun attempt =>
    decide (attempt.stageId = stageId) && decide (attempt.generation = generation)

theorem length_attemptsIn_le (run : Run ticks) {stageId : String} {generation bound : Nat}
    (within : ∀ attempt ∈ attemptsIn ticks stageId generation,
      1 ≤ attempt.attemptOrdinal ∧ attempt.attemptOrdinal ≤ bound) :
    (attemptsIn ticks stageId generation).length ≤ bound := by
  have distinct :
      ((attemptsIn ticks stageId generation).map StageAttempt.attemptOrdinal).Nodup := by
    rw [List.Nodup, List.pairwise_map]
    refine ((attempts_increasing run).filter _).imp_of_mem ?_
    intro a b ha hb increasing same
    obtain ⟨_, here⟩ := List.mem_filter.mp ha
    obtain ⟨_, there⟩ := List.mem_filter.mp hb
    simp only [Bool.and_eq_true, decide_eq_true_eq] at here there
    have below := increasing (here.1.trans there.1.symm)
    rw [attemptCoordinates, attemptCoordinates, here.2, there.2, same] at below
    exact lt_irrefl _ below
  have inside : (attemptsIn ticks stageId generation).map StageAttempt.attemptOrdinal ⊆
      List.range' 1 bound := by
    intro ordinal member
    obtain ⟨attempt, listed, rfl⟩ := List.mem_map.mp member
    have range := within attempt listed
    rw [List.mem_range'_1]
    omega
  have counted := distinct.length_le_of_subset inside
  rw [List.length_map, List.length_range'] at counted
  exact counted

def BoundedRepair (limits : Option EffectiveLimits) (ticks : List TickRecord) : Prop :=
  ∀ tick ∈ ticks, ∀ stage ∈ tick.plan.stagePatches, ∀ definition,
    (stagesById tick.input.graph).find? stage.stageId = some definition →
      stage.attemptOrdinal ≤ 1 + maxRepairAttemptsFor definition tick.input.graph limits ∧
        ∀ generation, (attemptsIn ticks stage.stageId generation).length ≤
          1 + maxRepairAttemptsFor definition tick.input.graph limits

def plain (observation : SchedulerObservation) : Bool :=
  decide (observation.kind ≠ .recoveryApproved) &&
    (decide (observation.kind ≠ .attemptFailed) ||
      (resolveFailureFromObservation observation).isNone)

def entersWithin (input : SchedulerInput) : Bool :=
  (workingStages input).rows.all fun stage =>
    ((stagesById input.graph).find? stage.stageId).all fun definition =>
      decide (stage.attemptOrdinal ≤ maxRepairAttemptsFor definition input.graph
        input.effectiveLimits)

theorem within_of_entering
    (enters : tick.input.observations.all plain = true ∨ entersWithin tick.input = true) :
    ∀ ctx observation, Handled tick ctx observation → RepairsWithinBudget ctx observation := by
  intro ctx observation handled stage definition named found defined grants
  rcases enters with unclassified | entering
  · have ordinary := List.all_eq_true.mp unclassified observation handled.mem
    rcases grants with ⟨failure, repairs⟩ | approves
    · simp [plain, repairs.kind, repairs.classifies] at ordinary
    · simp [plain, approves.kind] at ordinary
  · have reached : ∃ trace : Trace tick, Steps (fun _ _ => True) .quiet trace.start ctx :=
      handled.steps fun _ _ _ => trivial
    obtain ⟨trace, steps⟩ := reached
    obtain ⟨version, same⟩ := trace.input_eq
    have kept : ∀ stage ∈ ctx.working.rows, ∀ definition,
        (stagesById tick.input.graph).find? stage.stageId = some definition →
          stage.attemptOrdinal ≤
            maxRepairAttemptsFor definition tick.input.graph tick.input.effectiveLimits := by
      refine steps_stages steps ?_ ?_
      · intro stage member definition defined
        rw [trace.start_working, same] at member
        have bound := List.all_eq_true.mp entering stage member
        rw [defined] at bound
        exact of_decide_eq_true bound
      · intro mid stage next _ _ before change definition defined
        cases change with
        | rerun => exact Nat.zero_le _
        | queued _ _ _ queues => cases queues
        | _ => exact before definition defined
    have input : ctx.input = trace.input := by rw [steps_input steps, trace.start_input]
    rw [TickContext.graph, input, same] at defined
    rw [budgetOf, TickContext.graph, input, same]
    exact kept stage (Table.mem_of_find? found) definition defined

end Runs

def twoRepairs : PipelineGraph :=
  { repairable with limits := { maxRepairAttempts := some 2 } }

/-- The attempt starts and fails; only the runner's word says that it may be retried. -/
def unclassifiedFailure (now : String) : Call where
  now := now
  observations :=
    [stageObservation "a" "build" now .attemptStarted,
      { stageObservation "b" "build" now .attemptFailed with retryable := some true }]

def classifiedFailure (now : String) : Call where
  now := now
  observations :=
    [stageObservation "a" "build" now .attemptStarted,
      { stageObservation "b" "build" now .attemptFailed with
        retryable := some true
        failure := some timeoutFailure }]

/-- A retry and a repair, as many as the budget allows. -/
def repairedTicks : List TickRecord :=
  @drive timeoutDigest
    [unclassifiedFailure "t1", { now := "t2" }, classifiedFailure "t3", { now := "t4" }]
    (initialInput twoRepairs "run" "pipeline" "t0")

def overspentTicks : List TickRecord :=
  @drive timeoutDigest
    [unclassifiedFailure "t1", { now := "t2" }, unclassifiedFailure "t3", { now := "t4" },
      classifiedFailure "t5", { now := "t6" }]
    (initialInput twoRepairs "run" "pipeline" "t0")

end Heniek.RepairBudget
