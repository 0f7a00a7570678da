import Heniek.StageChanges

/-!
What a step does to the recovery counters and the recovery decisions of a tick. A
classified failure or an answer to a proposal writes one decision and rewrites the
counters of its stage, a rerun gives the next generation fresh ones, a dispatch takes the
pending directive off them, and no other step changes the counters a stage has.
-/

namespace Heniek.CounterSteps
open KeyedTable PipelineVocabulary PipelineDocument RecoveryPolicy ScriptText
open SchedulerTick SchedulerSteps StageChanges

theorem recoveryKey_inj {s s' : String} {g g' : Nat}
    (same : recoveryKey s g = recoveryKey s' g') : s = s' ∧ g = g' :=
  colon_decimal_inj same

/-- The counters of a stage in a generation. -/
def countersAt (ctx : TickContext) (stageId : String) (generation : Nat) : StageRecoveryCounters :=
  match ctx.recoveryByKey.find? (recoveryKey stageId generation) with
  | some entry => entry.counters
  | none => {}

theorem recoveryCounters_eq (ctx : TickContext) (stage : StageSnapshot) :
    recoveryCounters ctx stage = countersAt ctx stage.stageId stage.generation := rfl

theorem countersAt_set (ctx : TickContext) (stage : StageSnapshot)
    (counters : StageRecoveryCounters) (stageId : String) (generation : Nat) :
    countersAt (setRecoveryCounters ctx stage counters) stageId generation =
      if stageId = stage.stageId ∧ generation = stage.generation then counters
      else countersAt ctx stageId generation := by
  unfold countersAt setRecoveryCounters
  by_cases same : stageId = stage.stageId ∧ generation = stage.generation
  · obtain ⟨rfl, rfl⟩ := same
    rw [Table.find?_upsert, if_pos rfl, if_pos ⟨rfl, rfl⟩]
  · rw [Table.find?_upsert_of_ne, if_neg same]
    intro keys
    exact same (recoveryKey_inj keys)

theorem countersAt_touch (ctx : TickContext) (stage : StageSnapshot) (stageId : String)
    (generation : Nat) :
    countersAt (getRecoveryCounters ctx stage).2 stageId generation =
      countersAt ctx stageId generation := by
  rcases touch_cases ctx stage with same | ⟨fresh, created⟩
  · rw [same]
  · rw [created, countersAt_set]
    split
    · rename_i here
      rw [here.1, here.2, ← recoveryCounters_eq, fresh]
    · rfl

def dispatchedCounters (counters : StageRecoveryCounters) : StageRecoveryCounters :=
  match counters.pendingDirective with
  | none => counters
  | some _ => settledCounters counters

theorem countersAt_settle (ctx : TickContext) (stage : StageSnapshot) (stageId : String)
    (generation : Nat) :
    countersAt (settleDirective ctx stage) stageId generation =
      if stageId = stage.stageId ∧ generation = stage.generation then
        dispatchedCounters (countersAt ctx stageId generation)
      else countersAt ctx stageId generation := by
  simp only [settleDirective, getRecoveryCounters_fst, dispatchedCounters, recoveryCounters_eq]
  by_cases same : stageId = stage.stageId ∧ generation = stage.generation
  · obtain ⟨rfl, rfl⟩ := same
    rw [if_pos ⟨rfl, rfl⟩]
    cases (countersAt ctx stage.stageId stage.generation).pendingDirective with
    | none => exact countersAt_touch ctx stage _ _
    | some directive =>
      rw [countersAt_set, if_pos ⟨rfl, rfl⟩]
  · rw [if_neg same]
    cases (countersAt ctx stage.stageId stage.generation).pendingDirective with
    | none => exact countersAt_touch ctx stage _ _
    | some directive =>
      rw [countersAt_set, if_neg same]
      exact countersAt_touch ctx stage _ _

structure SetsCounters (ctx ctx' : TickContext) (stageId : String) (generation : Nat)
    (counters : StageRecoveryCounters) : Prop where
  here : countersAt ctx' stageId generation = counters
  elsewhere : ∀ id number, ¬ (id = stageId ∧ number = generation) →
    countersAt ctx' id number = countersAt ctx id number

theorem setsCounters_of_eq {ctx ctx' : TickContext} {stageId : String} {generation : Nat}
    {counters : StageRecoveryCounters}
    (same : ∀ id number, countersAt ctx' id number =
      if id = stageId ∧ number = generation then counters else countersAt ctx id number) :
    SetsCounters ctx ctx' stageId generation counters where
  here := by rw [same, if_pos ⟨rfl, rfl⟩]
  elsewhere := fun id number other => by rw [same, if_neg other]

theorem queueMove_recovery (ctx : TickContext) (stage : StageSnapshot)
    (definition : PipelineStage) :
    SetsCounters ctx (queueMove ctx stage definition) stage.stageId stage.generation
        (dispatchedCounters (recoveryCounters ctx stage)) ∧
      (queueMove ctx stage definition).recoveryDecisions = ctx.recoveryDecisions := by
  constructor
  · refine setsCounters_of_eq fun id number => ?_
    have settled := countersAt_settle ctx (bumped stage) id number
    change countersAt (settleDirective ctx (bumped stage)) id number = _
    rw [settled]
    split
    · rename_i here
      rw [here.1, here.2, if_pos ⟨rfl, rfl⟩]
      rfl
    · rename_i other
      exact (if_neg other).symm
  · change (settleDirective ctx (bumped stage)).recoveryDecisions = _
    rcases settleDirective_cases ctx (bumped stage) with same | ⟨counters, same⟩ <;> rw [same]
    rfl

variable [Sha256]

inductive CounterStep (admits : TickContext → SchedulerObservation → Prop) (scope : Scope)
    (ctx ctx' : TickContext) : Prop
  | idle (working_eq : ctx'.working = ctx.working)
      (counters : ∀ id number, countersAt ctx' id number = countersAt ctx id number)
      (decisions : ctx'.recoveryDecisions = ctx.recoveryDecisions)
      (attempts : ctx'.attempts = ctx.attempts)
  | observed (stage : StageSnapshot) (observation : SchedulerObservation) (toState : StageState)
      (reason : TransitionReason) (options : TransitionOptions)
      (found : ctx.stage? stage.stageId = some stage) (admitted : admits ctx observation)
      (named : observation.stageId = some stage.stageId)
      (cause : ObservedCause ctx stage observation toState reason options)
      (working_eq : ctx'.working =
        ctx.working.upsert (movedStage ctx.input.now stage toState reason options))
      (counters : ∀ id number, countersAt ctx' id number = countersAt ctx id number)
      (decisions : ctx'.recoveryDecisions = ctx.recoveryDecisions)
      (attempts : ctx'.attempts = ctx.attempts)
  | recovered (stage : StageSnapshot) (observation : SchedulerObservation)
      (decision : RecoveryDecision) (next : StageRecoveryCounters) (toState : StageState)
      (reason : TransitionReason) (options : TransitionOptions)
      (found : ctx.stage? stage.stageId = some stage) (admitted : admits ctx observation)
      (named : observation.stageId = some stage.stageId)
      (cause : RecoveryCause ctx stage observation decision next toState reason options)
      (working_eq : ctx'.working =
        ctx.working.upsert (movedStage ctx.input.now stage toState reason options))
      (counters : SetsCounters ctx ctx' stage.stageId stage.generation next)
      (decisions : ctx'.recoveryDecisions = ctx.recoveryDecisions ++ [decision])
      (attempts : ctx'.attempts = ctx.attempts)
  | phased (stage : StageSnapshot) (toState : StageState) (reason : TransitionReason)
      (options : TransitionOptions) (found : ctx.stage? stage.stageId = some stage)
      (cause : PhaseCause scope.armed ctx stage toState reason options)
      (working_eq : ctx'.working =
        ctx.working.upsert (movedStage ctx.input.now stage toState reason options))
      (counters : ∀ id number, countersAt ctx' id number = countersAt ctx id number)
      (decisions : ctx'.recoveryDecisions = ctx.recoveryDecisions)
      (attempts : ctx'.attempts = ctx.attempts)
  | rerun (stage : StageSnapshot) (found : ctx.stage? stage.stageId = some stage)
      (working_eq : ctx'.working = ctx.working.upsert (rerunStage ctx.input.now stage))
      (counters : SetsCounters ctx ctx' stage.stageId (stage.generation + 1) {})
      (decisions : ctx'.recoveryDecisions = ctx.recoveryDecisions)
      (attempts : ctx'.attempts = ctx.attempts)
  | queued (stage : StageSnapshot) (definition : PipelineStage)
      (found : ctx.stage? stage.stageId = some stage) (ready : stage.state = .ready)
      (queues : scope.queues = true)
      (working_eq : ctx'.working = ctx.working.upsert (queuedStage ctx stage))
      (counters : SetsCounters ctx ctx' stage.stageId stage.generation
        (dispatchedCounters (recoveryCounters ctx stage)))
      (decisions : ctx'.recoveryDecisions = ctx.recoveryDecisions)
      (attempts : ctx'.attempts = ctx.attempts ++ [stageAttempt ctx (bumped stage) definition])

variable {admits : TickContext → SchedulerObservation → Prop} {scope : Scope}
variable {ctx ctx' : TickContext}

theorem step_counters (step : Step admits scope ctx ctx') : CounterStep admits scope ctx ctx' := by
  cases step with
  | touch stage found =>
    refine .idle ?_ (countersAt_touch ctx stage) ?_ ?_
    all_goals
      rcases touch_cases ctx stage with same | ⟨_, created⟩
      · rw [same]
      · rw [created]
        rfl
  | observe stage observation toState reason options found admitted named cause =>
    exact .observed stage observation toState reason options found admitted named cause rfl
      (fun _ _ => rfl) rfl rfl
  | recover stage observation decision counters toState reason options found admitted named cause =>
    refine .recovered stage observation decision counters toState reason options found admitted
      named cause rfl (setsCounters_of_eq fun id number => ?_) rfl rfl
    exact countersAt_set { ctx with recoveryDecisions := ctx.recoveryDecisions ++ [decision] }
      stage counters id number
  | phase stage toState reason options found cause =>
    exact .phased stage toState reason options found cause rfl (fun _ _ => rfl) rfl rfl
  | rerun origin observation stage admitted kind found eligible =>
    refine .rerun stage found rfl (setsCounters_of_eq fun id number => ?_) rfl rfl
    exact countersAt_set (ctx.setStage (rerunStage ctx.input.now stage))
      (rerunStage ctx.input.now stage) {} id number
  | queue stage definition found state selected going defined queues =>
    obtain ⟨counters, decisions⟩ := queueMove_recovery ctx stage definition
    exact .queued stage definition found state queues (queueMove_working ctx stage definition)
      counters decisions (queueMove_dispatch ctx stage definition).1
  | _ => exact .idle rfl (fun _ _ => rfl) rfl rfl

end Heniek.CounterSteps
