import Heniek.SchedulerRun

/-!
Dispatch after a cancellation. The cancel flag lives in the tick that consumed
the request, so what a cancelled schedule may still do is read off the stages:
the cancel pass leaves no pending, ready or retrying stage. A later tick can
dispatch only what it rearms, and it rearms a stage that was retrying in its
input unless the tick stops by itself.
-/

namespace Heniek.CancellationRuns
open KeyedTable PipelineDocument RecoveryPolicy ScriptText
open SchedulerTick SchedulerSteps StageChanges SchedulerRun FallibleRun

def requestsCancel (input : SchedulerInput) : Prop :=
  ∃ observation ∈ input.observations, observation.kind = .cancelRequested

def requestsRerun (input : SchedulerInput) : Prop :=
  ∃ observation ∈ input.observations, observation.kind = .manualRerun

def pastDeadline (input : SchedulerInput) : Prop :=
  ∃ deadline, input.deadlineAt = some deadline ∧ before input.now deadline = false

/-- No stage enters the tick retrying, or the tick itself stops the schedule. -/
def RearmsNothing (input : SchedulerInput) : Prop :=
  (∀ stage ∈ input.stages, stage.state ≠ .retrying) ∨ requestsCancel input ∨ pastDeadline input

def DispatchFree (plan : SchedulerPlan) : Prop :=
  plan.attempts = [] ∧ ∀ intent ∈ plan.intents, intent.kind ≠ .dispatch

instance (input : SchedulerInput) : Decidable (requestsCancel input) :=
  inferInstanceAs (Decidable (∃ _ ∈ input.observations, _))

instance (input : SchedulerInput) : Decidable (requestsRerun input) :=
  inferInstanceAs (Decidable (∃ _ ∈ input.observations, _))

instance (input : SchedulerInput) : Decidable (pastDeadline input) :=
  decidable_of_iff ((input.deadlineAt.any fun deadline => !before input.now deadline) = true)
    (by simp [pastDeadline, Option.any_eq_true])

instance (input : SchedulerInput) : Decidable (RearmsNothing input) :=
  inferInstanceAs (Decidable (_ ∨ _))

instance (plan : SchedulerPlan) : Decidable (DispatchFree plan) :=
  inferInstanceAs (Decidable (_ ∧ _))

section CancelPass

variable {ctx ctx' : TickContext} {stageId id : String} {stage : StageSnapshot}

theorem cancelStage_inactive (cancelled : cancelStage ctx stageId = .ok ctx')
    (found : ctx'.stage? id = some stage) (inactive : stage.state.inactive = true) :
    id ≠ stageId ∧ ctx.stage? id = some stage := by
  obtain ⟨target, mid, current, located, halted, _, requested⟩ := cancelStage_eq_ok cancelled
  have found : mid.stage? id = some stage := by
    rcases requested with rfl | ⟨_, _, rfl⟩ <;> exact found
  rcases halted with ⟨_, rfl⟩ | ⟨active, rfl⟩
  · rw [moveStage_stage?, stageId_of_stage? located] at found
    split at found
    · cases found
      cases inactive
    · rename_i other
      exact ⟨other, found⟩
  · refine ⟨?_, found⟩
    rintro rfl
    rw [located] at found
    cases found
    rw [active] at inactive
    cases inactive

theorem cancelStages_inactive {stageIds : List String}
    (passed : stageIds.foldlM cancelStage ctx = .ok ctx') (found : ctx'.stage? id = some stage)
    (inactive : stage.state.inactive = true) : id ∉ stageIds ∧ ctx.stage? id = some stage := by
  induction stageIds generalizing ctx with
  | nil =>
    cases passed
    exact ⟨List.not_mem_nil, found⟩
  | cons stageId stageIds ih =>
    obtain ⟨mid, first, rest⟩ := foldlM_cons_eq_ok.mp passed
    obtain ⟨unhandled, middle⟩ := ih rest
    obtain ⟨other, found⟩ := cancelStage_inactive first middle inactive
    exact ⟨by simp [other, unhandled], found⟩

theorem cancelPass_inactive (passed : cancelPass ctx = .ok ctx') (stopping : ctx.stopping = true) :
    ∀ stage ∈ ctx'.working.rows, stage.state.inactive = false := by
  intro stage member
  rw [cancelPass, if_pos stopping] at passed
  by_contra active
  have inactive : stage.state.inactive = true := by simpa using active
  obtain ⟨unhandled, found⟩ := cancelStages_inactive passed (Table.find?_key member) inactive
  apply unhandled
  rw [TickContext.sortedStageIds, mem_sortTexts]
  exact Table.find?_isSome.mp (by rw [← TickContext.stage?, found]; rfl)

theorem retryingStageIds_eq_nil {ctx : TickContext}
    (none : ∀ stage ∈ ctx.working.rows, stage.state ≠ .retrying) : retryingStageIds ctx = [] := by
  rw [retryingStageIds, List.map_eq_nil_iff, List.filter_eq_nil_iff]
  intro stage member
  simp [none stage member]

end CancelPass

section Ticks

variable [Sha256]
variable {admits : TickContext → SchedulerObservation → Prop} {scope : Scope}
  {ctx ctx' : TickContext}

theorem steps_cancelRequested (steps : Steps admits scope ctx ctx')
    (raised : ctx.cancelRequested = true) : ctx'.cancelRequested = true := by
  induction steps with
  | refl => exact raised
  | tail _ last ih =>
    rcases step_cancelRequested last with same | ⟨again, _⟩
    · rw [same, ih]
    · exact again

theorem observations_cancelRequested {observations : List SchedulerObservation}
    (processed : observations.foldlM processObservation ctx = .ok ctx')
    (cancels : ∃ observation ∈ observations, observation.kind = .cancelRequested) :
    ctx'.cancelRequested = true := by
  induction observations generalizing ctx with
  | nil => simp at cancels
  | cons first observations ih =>
    obtain ⟨mid, head, rest⟩ := foldlM_cons_eq_ok.mp processed
    by_cases request : first.kind = .cancelRequested
    · have raised : mid.cancelRequested = true := by
        simp only [processObservation, request] at head
        cases head
        rfl
      have later : Steps (fun _ _ => True) .quiet mid ctx' :=
        foldlM_steps (fun _ _ _ _ => processObservation_steps trivial) rest
      exact steps_cancelRequested later raised
    · apply ih rest
      obtain ⟨observation, member, kind⟩ := cancels
      rcases List.mem_cons.mp member with rfl | member
      · exact absurd kind request
      · exact ⟨observation, member, kind⟩

theorem steps_uncancelled (steps : Steps admits scope ctx ctx')
    (unrequested : ∀ ctx observation, admits ctx observation → observation.kind ≠ .cancelRequested)
    (lowered : ctx.cancelRequested = false) : ctx'.cancelRequested = false := by
  induction steps with
  | refl => exact lowered
  | tail _ last ih =>
    rcases step_cancelRequested last with same | ⟨_, observation, admitted, kind⟩
    · rw [same, ih]
    · exact absurd kind (unrequested _ observation admitted)

theorem observed_stopping {tick : TickRecord} (trace : Trace tick) {observed : TickContext}
    (processed : (sortObservations trace.start.input.observations).foldlM processObservation
      trace.start = .ok observed)
    (stops : requestsCancel tick.input ∨ pastDeadline tick.input) : observed.stopping = true := by
  obtain ⟨version, same⟩ := trace.input_eq
  rcases stops with ⟨observation, member, kind⟩ | ⟨deadline, given, passed⟩
  · have raised : observed.cancelRequested = true := by
      refine observations_cancelRequested processed ⟨observation, ?_, kind⟩
      rw [sortObservations, List.mem_insertionSort, trace.start_input, same]
      exact member
    rw [TickContext.stopping, raised, Bool.true_or]
  · have exceeded : trace.start.deadlineExceeded = true := by
      rw [(createTickContext_eq_ok trace.created).2.2.2.2.1, same]
      simp [given, passed]
    have steps : Steps (fun _ _ => True) .quiet trace.start observed :=
      foldlM_steps (fun _ _ _ _ => processObservation_steps trivial) processed
    rw [TickContext.stopping, steps_deadline steps, exceeded, Bool.or_true]

theorem settled_cancelRequested {tick : TickRecord} (trace : Trace tick)
    (cancels : requestsCancel tick.input) : trace.settled.cancelRequested = true := by
  obtain ⟨version, same⟩ := trace.input_eq
  obtain ⟨observed, cut, processed, passed, rest⟩ := runPhases_split trace.phases
  obtain ⟨observation, member, kind⟩ := cancels
  have raised : observed.cancelRequested = true := by
    refine observations_cancelRequested processed ⟨observation, ?_, kind⟩
    rw [sortObservations, List.mem_insertionSort, trace.start_input, same]
    exact member
  have cutting : Steps (fun _ _ => True) (tickScope trace.start) observed cut :=
    cancelPass_steps rfl passed
  exact steps_cancelRequested (cutting.trans (rest _)) raised

theorem start_stopping {tick : TickRecord} (trace : Trace tick) :
    trace.start.stopping = true ↔ pastDeadline tick.input := by
  obtain ⟨version, same⟩ := trace.input_eq
  obtain ⟨_, _, _, lowered, exceeded, _⟩ := createTickContext_eq_ok trace.created
  rw [TickContext.stopping, lowered, exceeded, same]
  simp [pastDeadline, Option.any_eq_true]

theorem steps_going {tick : TickRecord} {trace : Trace tick}
    (steps : Steps admits scope trace.start ctx)
    (unrequested : ∀ ctx observation, admits ctx observation → observation.kind ≠ .cancelRequested)
    (timely : ¬ pastDeadline tick.input) : ctx.stopping = false := by
  have going : trace.start.stopping = false := by
    simpa using mt (start_stopping trace).mp timely
  rw [TickContext.stopping, Bool.or_eq_false_iff] at going ⊢
  exact ⟨steps_uncancelled steps unrequested going.1, (steps_deadline steps).trans going.2⟩

theorem stopped_inactive {tick : TickRecord} (trace : Trace tick)
    (stops : requestsCancel tick.input ∨ pastDeadline tick.input) :
    ∀ stage ∈ trace.final.working.rows, stage.state.inactive = false := by
  obtain ⟨observed, cut, processed, passed, rest⟩ := runPhases_split trace.phases
  have stopping := observed_stopping trace processed stops
  have cleared := cancelPass_inactive passed stopping
  have halted : cut.stopping = true :=
    steps_stopping
      (cancelPass_steps rfl passed : Steps (fun _ _ => True) .quiet observed cut) stopping
  rw [trace.final_working]
  refine steps_stages (rest fun _ _ => False) cleared ?_
  intro mid stage next before _ active change
  have stopping : mid.stopping = true := steps_stopping before halted
  have impossible : mid.stopping = false → next.state.inactive = false := by
    intro going
    rw [stopping] at going
    cases going
  cases change with
  | observed _ _ _ _ admitted => exact admitted.elim
  | recovered _ _ _ _ _ _ admitted => exact admitted.elim
  | phased toState reason options cause =>
    cases cause with
    | cancelInactive _ _ => rfl
    | rearm _ _ going => exact impossible going
    | releaseRoot releasable => exact impossible releasable.going
    | releaseReady releasable => exact impossible releasable.going
    | releaseBlocked _ releasable => exact impossible releasable.going
    | releaseDeselected releasable => exact impossible releasable.going
  | rerun _ _ admitted => exact admitted.elim
  | queued _ _ going => exact impossible going

/-- Neither waiting for its dependencies nor waiting for dispatch. -/
def Undispatchable (stage : StageSnapshot) : Prop :=
  stage.state ≠ .pending ∧ stage.state ≠ .ready

def NoRerun (_ : TickContext) (observation : SchedulerObservation) : Prop :=
  observation.kind ≠ .manualRerun

theorem change_undispatchable {stage next : StageSnapshot}
    (change : Change NoRerun scope ctx stage next) (idle : Undispatchable stage)
    (unarmed : scope.armed = [] ∨ ctx.stopping = true) : Undispatchable next := by
  cases change with
  | observed _ _ _ _ _ _ cause => cases cause <;> exact ⟨by rintro ⟨⟩, by rintro ⟨⟩⟩
  | recovered _ _ _ _ _ _ _ _ cause =>
    cases cause with
    | classified _ _ result =>
      constructor <;> cases verdict : result.verdict <;> simp [movedStage, verdictState]
    | approved => exact ⟨by rintro ⟨⟩, by rintro ⟨⟩⟩
    | rejected => exact ⟨by rintro ⟨⟩, by rintro ⟨⟩⟩
  | phased toState reason options cause =>
    cases cause with
    | cancelInactive _ _ => exact ⟨by rintro ⟨⟩, by rintro ⟨⟩⟩
    | rearm armed _ going =>
      rcases unarmed with none | stopping
      · rw [none] at armed
        cases armed
      · rw [going] at stopping
        cases stopping
    | releaseRoot releasable => exact absurd releasable.pending idle.1
    | releaseReady releasable => exact absurd releasable.pending idle.1
    | releaseBlocked _ releasable => exact absurd releasable.pending idle.1
    | releaseDeselected releasable => exact absurd releasable.pending idle.1
  | rerun _ _ admitted kind => exact absurd kind admitted
  | queued state => exact absurd state idle.2

/-- No stage can be dispatched and none has been. -/
structure Idle (ctx : TickContext) : Prop where
  stages : ∀ stage ∈ ctx.working.rows, Undispatchable stage
  attempts : ctx.attempts = []
  intents : ∀ intent ∈ ctx.intents, intent.kind ≠ .dispatch

theorem steps_idle (steps : Steps NoRerun scope ctx ctx') (idle : Idle ctx)
    (unarmed : scope.armed = [] ∨ ctx.stopping = true) : Idle ctx' := by
  induction steps with
  | refl => exact idle
  | @tail mid last before step ih =>
    have stages : ∀ stage ∈ last.working.rows, Undispatchable stage := by
      refine steps_stages (before.tail step) idle.stages ?_
      intro mid stage next before _ idle change
      refine change_undispatchable change idle ?_
      exact unarmed.imp_right (steps_stopping before)
    rcases step_dispatch step with ⟨attempts, added, intents, others⟩ | dispatch
    · refine ⟨stages, attempts.trans ih.attempts, ?_⟩
      intro intent member
      rw [intents] at member
      rcases List.mem_append.mp member with old | new
      · exact ih.intents intent old
      · exact others intent new
    · obtain ⟨stage, definition, _, found, ready, _⟩ := dispatch
      exact absurd ready (ih.stages stage (Table.mem_of_find? found)).2

theorem start_idle {tick : TickRecord} (trace : Trace tick)
    (stages : ∀ stage ∈ trace.start.working.rows, Undispatchable stage) : Idle trace.start := by
  obtain ⟨_, _, _, _, _, _, _, intents, attempts, _⟩ := createTickContext_eq_ok trace.created
  exact ⟨stages, attempts, by simp [intents]⟩

theorem settled_idle {tick : TickRecord} (trace : Trace tick)
    (stages : ∀ stage ∈ trace.start.working.rows, Undispatchable stage)
    (unrerun : ¬ requestsRerun tick.input) (unarmed : RearmsNothing tick.input) :
    Idle trace.settled := by
  obtain ⟨version, same⟩ := trace.input_eq
  obtain ⟨observed, cut, processed, passed, rest⟩ := runPhases_split trace.phases
  have first : Steps NoRerun .quiet trace.start observed := by
    refine observations_steps ?_ processed
    intro done observation rest mid split _ kind
    refine unrerun ⟨observation, ?_, kind⟩
    have listed : observation ∈ sortObservations trace.start.input.observations := by
      rw [split]
      exact List.mem_append_right _ List.mem_cons_self
    rw [sortObservations, List.mem_insertionSort, trace.start_input, same] at listed
    exact listed
  have middle : Idle observed := steps_idle first (start_idle trace stages) (Or.inl rfl)
  have cutting : Steps NoRerun (tickScope trace.start) observed cut := cancelPass_steps rfl passed
  refine steps_idle (cutting.trans (rest NoRerun)) middle ?_
  rcases unarmed with none | stops
  · left
    apply retryingStageIds_eq_nil
    intro stage member
    rw [trace.start_working, same] at member
    rcases mem_workingStages member with given | fresh
    · exact none stage given
    · rw [fresh]
      rintro ⟨⟩
  · exact Or.inr (observed_stopping trace processed stops)

theorem final_dispatchFree {tick : TickRecord} (trace : Trace tick) (idle : Idle trace.settled) :
    DispatchFree tick.plan := by
  have attempts : trace.final.attempts = [] ∧ trace.final.intents = trace.settled.intents := by
    rcases trace.final_eq with same | ⟨request, _, same⟩ <;>
      rw [same] <;> exact ⟨idle.attempts, rfl⟩
  refine ⟨by rw [trace.attempts_eq, attempts.1]; rfl, ?_⟩
  intro intent member
  rw [trace.intents_eq, mem_sortBy, attempts.2] at member
  exact idle.intents intent member

/-- After a cancel request, and until a manual rerun, no tick dispatches as long as none enters
with a retrying stage and lets it go on. -/
theorem no_dispatch_after_cancellation {earlier later : List TickRecord} {cancelled : TickRecord}
    (run : Run (earlier ++ cancelled :: later)) (cancels : requestsCancel cancelled.input)
    (unrerun : ∀ tick ∈ later, ¬ requestsRerun tick.input)
    (unarmed : ∀ tick ∈ later, RearmsNothing tick.input) :
    ∀ tick ∈ later, DispatchFree tick.plan := by
  have tail : Run (cancelled :: later) := run.suffix
  have stages : ∀ tick ∈ later, ∀ trace : Trace tick,
      ∀ stage ∈ trace.start.working.rows, Undispatchable stage := by
    refine tail.stages_invariant ?_ ?_
    · intro trace stage member
      have active := stopped_inactive trace (Or.inl cancels) stage member
      constructor <;> intro state <;> rw [state] at active <;> cases active
    · intro tick member trace begins stage final
      rw [trace.final_working] at final
      exact (settled_idle trace begins (unrerun tick member)
        (unarmed tick member)).stages stage final
  intro tick member
  obtain ⟨trace⟩ := (run.ticked tick (by simp [member])).trace
  exact final_dispatchFree trace
    (settled_idle trace (stages tick member trace) (unrerun tick member) (unarmed tick member))

end Ticks

def cancelledCalls : List Call :=
  [{ now := "t1"
     observations :=
      [stageObservation "o1" "build" "t1" .attemptStarted,
        { observationId := "o2", kind := .cancelRequested, recordedAt := "t1" }] },
    { now := "t2"
      observations :=
      [{ stageObservation "o3" "build" "t2" .attemptFailed with retryable := some true }] }]

def cancelledTicks : List TickRecord :=
  @drive blankDigest cancelledCalls (initialInput repairable "run" "pipeline" "t0")

/-- The same schedule with one more tick, which observes nothing. -/
def redispatchedTicks : List TickRecord :=
  @drive blankDigest (cancelledCalls ++ [{ now := "t3" }])
    (initialInput repairable "run" "pipeline" "t0")

theorem no_dispatch_after_cancellation_sample :
    ∃ first cancelled failed, cancelledTicks = [first, cancelled, failed] ∧
      DispatchFree failed.plan := by
  obtain ⟨first, cancelled, failed, ticks⟩ :
      ∃ first cancelled failed, cancelledTicks = [first, cancelled, failed] :=
    ⟨_, _, _, rfl⟩
  have run : @Run blankDigest ([first] ++ cancelled :: [failed]) := by
    rw [List.singleton_append, ← ticks]
    exact @drive_run blankDigest _ _ (by decide +kernel)
  have facts : cancelledTicks.map (fun tick =>
      (decide (requestsCancel tick.input), decide (requestsRerun tick.input),
        decide (RearmsNothing tick.input))) =
      [(false, false, true), (true, false, true), (false, false, true)] := by decide +kernel
  rw [ticks] at facts
  simp only [List.map_cons, List.cons.injEq, Prod.mk.injEq, decide_eq_true_eq] at facts
  refine ⟨first, cancelled, failed, ticks, ?_⟩
  refine @no_dispatch_after_cancellation blankDigest _ _ _ run facts.2.1.1 ?_ ?_ failed (by simp)
  · simpa using facts.2.2.1.2.1
  · simpa using facts.2.2.1.2.2

theorem cancellation_not_final :
    ¬ ∀ [Sha256] (earlier later : List TickRecord) (cancelled : TickRecord),
      Run (earlier ++ cancelled :: later) → requestsCancel cancelled.input →
      (∀ tick ∈ later, ¬ requestsRerun tick.input) → ∀ tick ∈ later, DispatchFree tick.plan := by
  intro claim
  obtain ⟨first, cancelled, failed, last, ticks⟩ :
      ∃ first cancelled failed last,
        redispatchedTicks = [first, cancelled, failed, last] := ⟨_, _, _, _, rfl⟩
  have run : @Run blankDigest ([first] ++ cancelled :: [failed, last]) := by
    rw [List.singleton_append, ← ticks]
    exact @drive_run blankDigest _ _ (by decide +kernel)
  have facts : redispatchedTicks.map (fun tick =>
      (decide (requestsCancel tick.input), decide (requestsRerun tick.input),
        decide (DispatchFree tick.plan))) =
      [(false, false, false), (true, false, true),
        (false, false, true), (false, false, false)] := by
    decide +kernel
  rw [ticks] at facts
  simp only [List.map_cons, List.cons.injEq, Prod.mk.injEq, decide_eq_true_eq,
    decide_eq_false_iff_not] at facts
  have free := @claim blankDigest [first] [failed, last] cancelled run facts.2.1.1
    (by simp [facts.2.2.1.2.1, facts.2.2.2.1.2.1]) last (by simp)
  exact facts.2.2.2.1.2.2 free

end Heniek.CancellationRuns
