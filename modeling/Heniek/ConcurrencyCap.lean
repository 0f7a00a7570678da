import Heniek.CancellationRuns

/-!
The concurrency cap of a tick. No phase but the queue phase puts a stage in flight,
and the queue phase does so only while fewer stages than the cap are in flight, for
the ready stages in the order of their ids.
-/

namespace Heniek.ConcurrencyCap
open KeyedTable PipelineVocabulary PipelineDocument RecoveryPolicy ScriptText
open SchedulerTick SchedulerSteps StageChanges SchedulerRun CancellationRuns

def inFlightStages (stages : List StageSnapshot) : Nat :=
  stages.countP fun stage => stage.state.inFlight

/-- The cap that a tick resolves from the effective limits and the limits of the graph. -/
def resolvedCap (input : SchedulerInput) : Option Nat :=
  resolveEffectiveConcurrency (input.effectiveLimits.bind EffectiveLimits.maxConcurrentWorkers)
    input.graph.limits.maxConcurrentWorkers

section Ticks

variable [Sha256] {admits : TickContext → SchedulerObservation → Prop} {scope : Scope}
variable {ctx ctx' : TickContext} {stage next : StageSnapshot} {cap : Nat}

theorem change_inFlight (change : Change admits scope ctx stage next)
    (flies : next.state.inFlight = true) :
    stage.state.inFlight = true ∨ stage.state = .ready ∧ scope.queues = true := by
  cases change with
  | observed _ _ _ _ _ _ cause => exact Or.inl (observedCause_source cause)
  | recovered _ _ _ _ _ _ _ _ cause => exact Or.inl (recoveryCause_source cause)
  | phased toState _ _ cause => cases cause <;> simp [movedStage, StageState.inFlight] at flies
  | rerun => simp [rerunStage, StageState.inFlight] at flies
  | queued state _ _ queues => exact Or.inr ⟨state, queues⟩

theorem inFlightCount_step (quiet : scope.queues = false) (step : Step admits scope ctx ctx') :
    inFlightCount ctx' ≤ inFlightCount ctx := by
  rcases step_working step with same | ⟨stage, next, found, change, updated⟩
  · simp [inFlightCount, same]
  · have counted := Table.countP_upsert (fun stage : StageSnapshot => stage.state.inFlight)
      (Table.mem_of_find? found) change.stageId_eq.symm
    have grounded : next.state.inFlight = true → stage.state.inFlight = true := by
      intro flies
      simpa [quiet] using change_inFlight change flies
    simp only [inFlightCount, updated]
    split_ifs at counted with before after after
    · omega
    · omega
    · exact absurd (grounded after) before
    · omega

omit [Sha256] in
theorem inFlightCount_queueMove {definition : PipelineStage}
    (found : ctx.stage? stage.stageId = some stage) (ready : stage.state = .ready) :
    inFlightCount (queueMove ctx stage definition) = inFlightCount ctx + 1 := by
  have counted := Table.countP_upsert (fun stage : StageSnapshot => stage.state.inFlight)
    (a := queuedStage ctx stage) (Table.mem_of_find? found) rfl
  simp only [inFlightCount, queueMove_working]
  simpa [ready, queuedStage, StageState.inFlight] using counted

/-- A step that creates an attempt only while fewer stages than the cap are in flight. -/
structure CappedStep (cap : Nat) (ctx ctx' : TickContext) : Prop where
  step : ∃ scope, Step (fun _ _ => True) scope ctx ctx'
  room : ctx'.attempts ≠ ctx.attempts → inFlightCount ctx < cap

abbrev CappedSteps (cap : Nat) := Relation.ReflTransGen (CappedStep cap)

theorem quiet_or_queued (step : Step admits scope ctx ctx') :
    Step admits ⟨scope.armed, false, scope.requests⟩ ctx ctx' ∨
      ∃ stage definition, ctx.stage? stage.stageId = some stage ∧ stage.state = .ready ∧
        ctx' = queueMove ctx stage definition := by
  cases step with
  | consume observation admitted => exact Or.inl (.consume ctx observation admitted)
  | cancelFlag observation admitted kind => exact Or.inl (.cancelFlag ctx observation admitted kind)
  | decideEdge observation key selected admitted kind edge choice =>
    exact Or.inl (.decideEdge ctx observation key selected admitted kind edge choice)
  | touch stage found => exact Or.inl (.touch ctx stage found)
  | requestCancel stage attemptId found stopping active requests =>
    exact Or.inl (.requestCancel ctx stage attemptId found stopping active requests)
  | requestEvaluator edge profile question target member asks releasable requests =>
    exact Or.inl
      (.requestEvaluator ctx edge profile question target member asks releasable requests)
  | observe stage observation toState reason options found admitted named cause =>
    exact Or.inl (.observe ctx stage observation toState reason options found admitted named cause)
  | recover stage observation decision counters toState reason options found admitted named cause =>
    exact Or.inl (.recover ctx stage observation decision counters toState reason options found
      admitted named cause)
  | phase stage toState reason options found cause =>
    exact Or.inl (.phase ctx stage toState reason options found cause)
  | rerun origin observation stage admitted kind found eligible =>
    exact Or.inl (.rerun ctx origin observation stage admitted kind found eligible)
  | queue stage definition found state =>
    exact Or.inr ⟨stage, definition, found, state, rfl⟩

theorem attempts_step (quiet : scope.queues = false) (step : Step admits scope ctx ctx') :
    ctx'.attempts = ctx.attempts := by
  rcases step_dispatch step with ⟨same, _⟩ | ⟨_, _, queues, _⟩
  · exact same
  · simp [quiet] at queues

theorem attempts_steps (quiet : scope.queues = false) (steps : Steps admits scope ctx ctx') :
    ctx'.attempts = ctx.attempts := by
  induction steps with
  | refl => rfl
  | tail _ last ih => rw [attempts_step quiet last, ih]

theorem capped_of_quiet (quiet : scope.queues = false)
    (steps : Steps (fun _ _ => True) scope ctx ctx') : CappedSteps cap ctx ctx' := by
  induction steps with
  | refl => exact .refl
  | tail _ last ih =>
    exact ih.tail ⟨⟨scope, last⟩, fun grown => absurd (attempts_step quiet last) grown⟩

theorem inFlightCount_cappedStep (step : CappedStep cap ctx ctx') :
    inFlightCount ctx' ≤ max cap (inFlightCount ctx) := by
  obtain ⟨⟨scope, step⟩, room⟩ := step
  rcases quiet_or_queued step with still | ⟨stage, definition, found, ready, rfl⟩
  · have falls := inFlightCount_step rfl still
    omega
  · have below := room (by simp [(queueMove_dispatch ctx stage definition).1])
    rw [inFlightCount_queueMove found ready]
    omega

theorem inFlightCount_cappedSteps (steps : CappedSteps cap ctx ctx') :
    inFlightCount ctx' ≤ max cap (inFlightCount ctx) := by
  induction steps with
  | refl => omega
  | tail _ last ih =>
    have later := inFlightCount_cappedStep last
    omega

section Queue

/-- What a queue loop over some ids leaves ready. -/
structure Drained (cap : Nat) (ids : List String) (ctx ctx' : TickContext) : Prop where
  kept : ∀ id stage, ctx'.stage? id = some stage → stage.state = .ready → ctx.stage? id = some stage
  full : ∀ id ∈ ids, ∀ stage, ctx'.stage? id = some stage → stage.state = .ready →
    stage.selected = true → cap ≤ inFlightCount ctx'
  first : ∀ id ∈ ids, ∀ stage, ctx'.stage? id = some stage → stage.state = .ready →
    stage.selected = true → ∀ attempt ∈ ctx'.attempts, before attempt.stageId id = true

theorem queueLoop_capped {ids : List String} {inFlight : Nat} (limit : maxConcurrent ctx = some cap)
    (counted : inFlight = inFlightCount ctx) (queued : queueLoop ids inFlight ctx = .ok ctx') :
    CappedSteps cap ctx ctx' := by
  induction ids generalizing inFlight ctx with
  | nil =>
    cases queued
    exact .refl
  | cons id ids ih =>
    obtain ⟨stage, located, turn⟩ := queueLoop_cons_eq_ok queued
    have found := found_self located
    cases turn with
    | skip _ rest => exact ih limit counted rest
    | full _ _ _ _ same =>
      subst same
      exact .refl
    | dispatch ready selected going room definition defined rest =>
      have below := room cap limit
      refine .head ⟨⟨⟨[], true, true⟩, ?_⟩, fun _ => by omega⟩ (ih ?_ ?_ rest)
      · exact .queue ctx stage definition found ready selected going defined rfl
      · rw [maxConcurrent_queueMove, limit]
      · rw [inFlightCount_queueMove found ready, counted]

omit [Sha256] in
theorem ready_of_queueMove {definition : PipelineStage} {id : String} {row : StageSnapshot}
    (found : (queueMove ctx stage definition).stage? id = some row) (ready : row.state = .ready) :
    id ≠ stage.stageId ∧ ctx.stage? id = some row := by
  rw [TickContext.stage?, queueMove_working, Table.find?_upsert] at found
  split_ifs at found with same
  · cases found
    simp [queuedStage] at ready
  · exact ⟨same, found⟩

omit [Sha256] in
theorem queueLoop_drained {ids : List String} {inFlight : Nat} (going : ctx.stopping = false)
    (limit : maxConcurrent ctx = some cap) (counted : inFlight = inFlightCount ctx)
    (sorted : ids.Pairwise fun a b => before a b = true)
    (earlier : ∀ attempt ∈ ctx.attempts, ∀ id ∈ ids, before attempt.stageId id = true)
    (queued : queueLoop ids inFlight ctx = .ok ctx') : Drained cap ids ctx ctx' := by
  induction ids generalizing inFlight ctx with
  | nil =>
    cases queued
    exact ⟨fun _ _ found _ => found, by simp, by simp⟩
  | cons id ids ih =>
    obtain ⟨stage, located, turn⟩ := queueLoop_cons_eq_ok queued
    rw [List.pairwise_cons] at sorted
    cases turn with
    | skip passed rest =>
      have later := ih going limit counted sorted.2
        (fun attempt made other member => earlier attempt made other (by simp [member])) rest
      have unready : ∀ row, ctx'.stage? id = some row → row.state = .ready →
          row.selected = true → False := by
        intro row found ready selected
        have same : stage = row := by simpa [located] using later.kept id row found ready
        subst same
        simp [selected, ready, going] at passed
      refine ⟨later.kept, ?_, ?_⟩
      · simp only [List.forall_mem_cons]
        exact ⟨fun row found ready selected => (unready row found ready selected).elim, later.full⟩
      · simp only [List.forall_mem_cons]
        exact ⟨fun row found ready selected => (unready row found ready selected).elim,
          later.first⟩
    | full _ most reaches reached same =>
      subst same
      have most_eq : most = cap := by simpa [limit] using reaches.symm
      refine ⟨fun _ _ found _ => found, ?_, ?_⟩
      · intro other _ row _ _ _
        omega
      · intro other member row _ _ _ attempt made
        exact earlier attempt made other member
    | dispatch ready selected _ _ definition _ rest =>
      have found := found_self located
      have key := stageId_of_stage? located
      have made := (queueMove_dispatch ctx stage definition).1
      have later := ih ((queueMove_evaluators ctx stage definition).2.2.trans going)
        (by rw [maxConcurrent_queueMove, limit])
        (by rw [inFlightCount_queueMove found ready, counted]) sorted.2 (by
          intro attempt member other listed
          rw [made, List.mem_append, List.mem_singleton] at member
          rcases member with old | rfl
          · exact earlier attempt old other (by simp [listed])
          · rw [stageAttempt_stageId]
            simpa [bumped, key] using sorted.1 other listed) rest
      have moved : ∀ row, ctx'.stage? id = some row → row.state ≠ .ready := by
        intro row found ready
        exact (ready_of_queueMove (later.kept id row found ready) ready).1 key.symm
      refine ⟨?_, ?_, ?_⟩
      · intro other row found ready
        exact (ready_of_queueMove (later.kept other row found ready) ready).2
      · simp only [List.forall_mem_cons]
        exact ⟨fun row found ready => absurd ready (moved row found), later.full⟩
      · simp only [List.forall_mem_cons]
        exact ⟨fun row found ready => absurd ready (moved row found), later.first⟩

end Queue

theorem start_count {tick : TickRecord} (trace : Trace tick) :
    inFlightCount trace.start = inFlightStages (workingStages tick.input).rows := by
  obtain ⟨version, same⟩ := trace.input_eq
  rw [inFlightCount, trace.start_working, same]
  rfl

theorem patches_count {tick : TickRecord} (trace : Trace tick) :
    inFlightStages tick.plan.stagePatches = inFlightCount trace.settled := by
  rw [trace.stagePatches_eq, trace.final_working]
  exact (sortBy_perm _ _).countP_eq _

theorem mem_patches {tick : TickRecord} (trace : Trace tick) :
    stage ∈ tick.plan.stagePatches ↔ trace.settled.stage? stage.stageId = some stage := by
  rw [trace.stagePatches_eq, trace.final_working, TickContext.stage?,
    Table.find?_eq_some]
  simp

theorem mem_attempts {tick : TickRecord} (trace : Trace tick) {attempt : StageAttempt} :
    attempt ∈ tick.plan.attempts ↔ attempt ∈ trace.settled.attempts := by
  rw [trace.attempts_eq, mem_sortBy, trace.final_fields.1]

theorem limit_of_steps {tick : TickRecord} (trace : Trace tick)
    (steps : Steps admits scope trace.start ctx) : maxConcurrent ctx = resolvedCap tick.input := by
  obtain ⟨version, same⟩ := trace.input_eq
  rw [maxConcurrent, TickContext.graph, steps_input steps, trace.start_input, same]
  rfl

theorem queue_phase {tick : TickRecord} (trace : Trace tick) :
    ∃ released queued,
      Steps (fun _ _ => True) ⟨retryingStageIds trace.start, false, true⟩ trace.start released ∧
      queueReadyStages released = .ok queued ∧ cancelPass queued = .ok trace.settled ∧
      (¬ requestsCancel tick.input → ¬ pastDeadline tick.input →
        released.stopping = false ∧ queued = trace.settled) := by
  obtain ⟨observed, cut, released, queued, processed, passed, releasing, _, loop, cutting⟩ :=
    runPhases_eq_ok trace.phases
  refine ⟨released, queued, ?_, loop, cutting, ?_⟩
  · refine ((observations_steps ?_ processed).trans (cancelPass_steps rfl passed)).trans
      (releasing _ _)
    intros
    trivial
  · intro uncancelled timely
    have observing : ∀ scope, Steps (fun _ observation => observation ∈ tick.input.observations)
        scope trace.start observed := by
      intro scope
      refine observations_steps ?_ processed
      intro done observation rest mid split folded
      exact Handled.mem ⟨trace, done, rest, split, folded⟩
    have reaching := ((observing _).trans (cancelPass_steps rfl passed)).trans (releasing _ true)
    have uncancelling : ∀ (_ : TickContext), ∀ observation ∈ tick.input.observations,
        observation.kind ≠ .cancelRequested :=
      fun _ observation listed kind => uncancelled ⟨observation, listed, kind⟩
    refine ⟨steps_going reaching uncancelling timely, ?_⟩
    have going := steps_going (reaching.trans (queueLoop_steps rfl loop)) uncancelling timely
    simpa [cancelPass, going] using cutting

/-- The number of stages in flight after a tick is within the cap or no larger than before, the
attempts are made one by one while it is below the cap, and a tick that is not stopped leaves a
selected stage ready only when the cap is reached, by stages of which those just dispatched come
first. -/
theorem cap_held_and_used {tick : TickRecord} (ticked : Ticked tick)
    (resolved : resolvedCap tick.input = some cap) :
    inFlightStages tick.plan.stagePatches ≤
        max cap (inFlightStages (workingStages tick.input).rows) ∧
      (∃ trace : Trace tick, trace.start.attempts = [] ∧
        CappedSteps cap trace.start trace.settled ∧
        ∀ attempt, attempt ∈ tick.plan.attempts ↔ attempt ∈ trace.settled.attempts) ∧
      (¬ requestsCancel tick.input → ¬ pastDeadline tick.input →
        ∀ stage ∈ tick.plan.stagePatches, stage.state = .ready → stage.selected = true →
          cap ≤ inFlightStages tick.plan.stagePatches ∧
          ∀ attempt ∈ tick.plan.attempts, before attempt.stageId stage.stageId = true) := by
  obtain ⟨trace⟩ := ticked.trace
  obtain ⟨released, queued, reaching, loop, cutting, unstopped⟩ := queue_phase trace
  have limit : maxConcurrent released = some cap := by rw [limit_of_steps trace reaching, resolved]
  have cut : Steps (fun _ _ => True) .quiet queued trace.settled := cancelPass_steps rfl cutting
  have run : CappedSteps cap trace.start trace.settled :=
    ((capped_of_quiet rfl reaching).trans (queueLoop_capped limit rfl loop)).trans
      (capped_of_quiet rfl cut)
  have empty : trace.start.attempts = [] :=
    (createTickContext_eq_ok trace.created).2.2.2.2.2.2.2.2.1
  refine ⟨?_, ⟨trace, empty, run, fun _ => mem_attempts trace⟩, ?_⟩
  · rw [patches_count trace, ← start_count trace]
    exact inFlightCount_cappedSteps run
  · intro uncancelled timely stage listed ready selected
    obtain ⟨going, rfl⟩ := unstopped uncancelled timely
    have none_made : released.attempts = [] := by rw [attempts_steps rfl reaching, empty]
    have drained := queueLoop_drained going limit rfl
      (sortTexts_ascending released.working.distinct) (by simp [none_made]) loop
    rw [mem_patches trace] at listed
    have found : released.working.find? stage.stageId = some stage := drained.kept _ _ listed ready
    have id : stage.stageId ∈ released.sortedStageIds := by
      simp [TickContext.sortedStageIds, ← Table.find?_isSome, found]
    rw [patches_count trace]
    refine ⟨drained.full _ id stage listed ready selected, fun attempt made => ?_⟩
    exact drained.first _ id stage listed ready selected attempt ((mem_attempts trace).mp made)

end Ticks

/-- Two stages that may start at once, one at a time. -/
def narrow : PipelineGraph where
  mode := .autonomous
  limits := { maxConcurrentWorkers := some 1 }
  stages :=
    [{ id := "build", type := .agent, mode := .autonomous, optional := false },
      { id := "lint", type := .agent, mode := .autonomous, optional := false }]
  edges := []

def narrowTicks : List TickRecord :=
  @drive blankDigest [] (initialInput narrow "run" "pipeline" "t0")

theorem cap_held_and_used_narrow :
    ∃ tick, narrowTicks = [tick] ∧ inFlightStages tick.plan.stagePatches = 1 ∧
      ∃ stage ∈ tick.plan.stagePatches, stage.stageId = "lint" ∧
        ∀ attempt ∈ tick.plan.attempts, before attempt.stageId stage.stageId = true := by
  obtain ⟨tick, ticks⟩ : ∃ tick, narrowTicks = [tick] := ⟨_, rfl⟩
  have run : @Run blankDigest narrowTicks := @drive_run blankDigest _ _ (by decide +kernel)
  have ticked : @Ticked blankDigest tick := @Run.ticked blankDigest _ run tick (by simp [ticks])
  have inputs : narrowTicks.map (fun tick =>
      (resolvedCap tick.input, decide (requestsCancel tick.input),
        decide (pastDeadline tick.input), inFlightStages (workingStages tick.input).rows)) =
      [(some 1, false, false, 0)] := by decide +kernel
  have plans : narrowTicks.map (fun tick =>
      tick.plan.stagePatches.map fun stage => (stage.stageId, stage.state, stage.selected)) =
      [[("build", .queued, true), ("lint", .ready, true)]] := by decide +kernel
  rw [ticks] at inputs plans
  simp only [List.map_cons, List.map_nil, List.cons.injEq, Prod.mk.injEq, and_true,
    decide_eq_false_iff_not] at inputs plans
  obtain ⟨resolved, uncancelled, timely, idle⟩ := inputs
  obtain ⟨held, _, used⟩ := @cap_held_and_used blankDigest 1 tick ticked resolved
  obtain ⟨lint, listed, same⟩ : ∃ stage ∈ tick.plan.stagePatches,
      (stage.stageId, stage.state, stage.selected) = ("lint", .ready, true) := by
    rw [← List.mem_map, plans]
    simp
  simp only [Prod.mk.injEq] at same
  have full := used uncancelled timely lint listed same.2.1 same.2.2
  refine ⟨tick, ticks, ?_, lint, listed, same.1, full.2⟩
  omega

end Heniek.ConcurrencyCap
