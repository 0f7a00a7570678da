import Heniek.SchedulerRun
import Mathlib.Data.List.Perm.Basic
import Mathlib.Data.Prod.Lex

/-!
At-most-once dispatch. The coordinates of a stage, its generation and then its
ordinal, never go back: a rerun raises the generation, a dispatch the ordinal,
and nothing else touches them. An attempt takes the coordinates its stage has
just reached, so the attempts of one stage are strictly increasing over a run,
and their ids differ because the ids spell the coordinates out.
-/

namespace Heniek.DispatchOnce
open KeyedTable PipelineDocument RecoveryPolicy SchedulerIds ScriptText
open SchedulerTick SchedulerSteps StageChanges SchedulerRun FallibleRun

def coordinates (stage : StageSnapshot) : ℕ ×ₗ ℕ := toLex (stage.generation, stage.attemptOrdinal)

def attemptCoordinates (attempt : StageAttempt) : ℕ ×ₗ ℕ :=
  toLex (attempt.generation, attempt.attemptOrdinal)

def Carries (intent : SchedulerIntent) (attempt : StageAttempt) : Prop :=
  intent.kind = .dispatch ∧ intent.payload = .dispatch attempt.stageId attempt.stageType
    attempt.attemptId attempt.generation attempt.attemptOrdinal attempt.retryDirective

theorem Carries.stageId_eq {intent : SchedulerIntent} {attempt other : StageAttempt}
    (carries : Carries intent attempt) (again : Carries intent other) :
    attempt.stageId = other.stageId :=
  (IntentPayload.dispatch.inj (carries.2.symm.trans again.2)).1

def dispatchIntents (plan : SchedulerPlan) : List SchedulerIntent :=
  plan.intents.filter fun intent => intent.kind = .dispatch

def attemptsOf (ticks : List TickRecord) : List StageAttempt :=
  ticks.flatMap fun tick => tick.plan.attempts

section Coordinates

variable [Sha256] {admits : TickContext → SchedulerObservation → Prop} {scope : Scope}
variable {ctx ctx' : TickContext} {stage next : StageSnapshot}

theorem change_coordinates (change : Change admits scope ctx stage next) :
    coordinates stage ≤ coordinates next := by
  cases change with
  | observed => exact le_rfl
  | recovered => exact le_rfl
  | phased => exact le_rfl
  | rerun =>
    apply le_of_lt
    rw [coordinates, coordinates, Prod.Lex.toLex_lt_toLex]
    exact Or.inl (Nat.lt_succ_self _)
  | queued =>
    apply le_of_lt
    rw [coordinates, coordinates, Prod.Lex.toLex_lt_toLex]
    exact Or.inr ⟨rfl, Nat.lt_succ_self _⟩

theorem step_coordinates (step : Step admits scope ctx ctx') {id : String}
    (found : ctx.stage? id = some stage) :
    ∃ next, ctx'.stage? id = some next ∧ coordinates stage ≤ coordinates next := by
  rcases step_working step with same | ⟨changed, next, located, change, updated⟩
  · exact ⟨stage, by rw [TickContext.stage?, same]; exact found, le_rfl⟩
  · by_cases here : id = next.stageId
    · refine ⟨next, by rw [TickContext.stage?, updated, here, Table.find?_upsert_self], ?_⟩
      rw [here, change.stageId_eq, located] at found
      cases found
      exact change_coordinates change
    · exact ⟨stage, by
        rw [TickContext.stage?, updated, Table.find?_upsert_of_ne _ here]; exact found,
        le_rfl⟩

theorem steps_coordinates (steps : Steps admits scope ctx ctx') {id : String}
    (found : ctx.stage? id = some stage) :
    ∃ next, ctx'.stage? id = some next ∧ coordinates stage ≤ coordinates next := by
  induction steps with
  | refl => exact ⟨stage, found, le_rfl⟩
  | tail _ last ih =>
    obtain ⟨middle, located, before⟩ := ih
    obtain ⟨next, reached, after⟩ := step_coordinates last located
    exact ⟨next, reached, before.trans after⟩

theorem steps_transitions (steps : Steps admits scope ctx ctx') {transition : StageTransition}
    (member : transition ∈ ctx.transitions) : transition ∈ ctx'.transitions := by
  induction steps with
  | refl => exact member
  | tail _ last ih =>
    rcases step_recorded last with ⟨_, same⟩ | ⟨_, _, added, _, _, _, appended, _⟩
    · rw [same]
      exact ih
    · rw [appended]
      exact List.mem_append_left added ih

theorem steps_undispatched (steps : Steps admits scope ctx ctx') (quiet : scope.queues = false) :
    ctx'.attempts = ctx.attempts ∧ ∃ added, ctx'.intents = ctx.intents ++ added ∧
      ∀ intent ∈ added, intent.kind ≠ .dispatch := by
  induction steps with
  | refl => exact ⟨rfl, [], by simp, by simp⟩
  | tail _ last ih =>
    obtain ⟨attempts, added, intents, others⟩ := ih
    rcases step_dispatch last with ⟨same, more, grown, rest⟩ | ⟨_, _, queues, _⟩
    · refine ⟨same.trans attempts, added ++ more, by rw [grown, intents, List.append_assoc], ?_⟩
      intro intent member
      rcases List.mem_append.mp member with member | member
      · exact others intent member
      · exact rest intent member
    · rw [quiet] at queues
      cases queues

end Coordinates

structure Made (ctx ctx' : TickContext) (attempt : StageAttempt) (intent : SchedulerIntent) :
    Prop where
  attemptId_eq : attempt.attemptId = deriveAttemptId ctx.input.runId ctx.input.graphRevision
    attempt.stageId attempt.generation attempt.attemptOrdinal
  intentId_eq : intent.intentId = deriveIntentId ctx.input.runId ctx.input.graphRevision .dispatch
    (attemptKey attempt.stageId attempt.generation attempt.attemptOrdinal)
  carries : Carries intent attempt
  entered : ∃ stage, ctx.stage? attempt.stageId = some stage ∧
    coordinates stage < attemptCoordinates attempt
  left : ∃ stage, ctx'.stage? attempt.stageId = some stage ∧
    attemptCoordinates attempt ≤ coordinates stage
  queued : ∃ transition ∈ ctx'.transitions, transition.stageId = attempt.stageId ∧
    transition.fromState = .ready ∧ transition.toState = .queued ∧
    transition.generation = attempt.generation ∧ transition.attemptId = some attempt.attemptId

theorem stageAttempt_fields (ctx : TickContext) (stage : StageSnapshot)
    (definition : PipelineStage) :
    (stageAttempt ctx stage definition).stageId = stage.stageId ∧
      (stageAttempt ctx stage definition).generation = stage.generation ∧
      (stageAttempt ctx stage definition).attemptOrdinal = stage.attemptOrdinal ∧
      (stageAttempt ctx stage definition).stageType = definition.type := by
  unfold stageAttempt
  split <;> exact ⟨rfl, rfl, rfl, rfl⟩

theorem queueMove_stage? (ctx : TickContext) (stage : StageSnapshot) (definition : PipelineStage)
    (id : String) : (queueMove ctx stage definition).stage? id =
      if id = stage.stageId then some (queuedStage ctx stage) else ctx.stage? id := by
  rw [TickContext.stage?, queueMove_working, Table.find?_upsert]
  rfl

section Queue

variable {ctx mid ctx' : TickContext} {stage : StageSnapshot} {definition : PipelineStage}

theorem made_of_queueMove (found : ctx.stage? stage.stageId = some stage)
    (ready : stage.state = .ready)
    (rest : ∃ next, ctx'.stage? stage.stageId = some next ∧
      coordinates (queuedStage ctx stage) ≤ coordinates next)
    (kept : queuedTransition ctx stage ∈ ctx'.transitions) :
    Made ctx ctx' (stageAttempt ctx (bumped stage) definition)
      (dispatchIntent ctx (bumped stage) definition) := by
  obtain ⟨id, generation, ordinal, type⟩ := stageAttempt_fields ctx (bumped stage) definition
  have attemptId := stageAttempt_attemptId ctx (bumped stage) definition
  refine ⟨?_, ?_, ⟨rfl, ?_⟩, ⟨stage, ?_, ?_⟩, ?_, ⟨_, kept, ?_⟩⟩
  · rw [attemptId, id, generation, ordinal]
  · rw [id, generation, ordinal]
    rfl
  · rw [id, generation, ordinal, type]
    rfl
  · rw [id]
    exact found
  · rw [coordinates, attemptCoordinates, generation, ordinal, Prod.Lex.toLex_lt_toLex]
    exact Or.inr ⟨rfl, Nat.lt_succ_self _⟩
  · obtain ⟨next, located, above⟩ := rest
    refine ⟨next, by rw [id]; exact located, ?_⟩
    rw [attemptCoordinates, generation, ordinal]
    exact above
  · rw [id, generation, attemptId]
    exact ⟨rfl, ready, rfl, rfl, rfl⟩

theorem Made.of_later {attempt : StageAttempt} {intent : SchedulerIntent}
    (input : mid.input = ctx.input)
    (grows : ∀ id next, mid.stage? id = some next →
      ∃ stage, ctx.stage? id = some stage ∧ coordinates stage ≤ coordinates next)
    (made : Made mid ctx' attempt intent) : Made ctx ctx' attempt intent := by
  obtain ⟨next, located, above⟩ := made.entered
  obtain ⟨stage, found, below⟩ := grows _ next located
  exact ⟨input ▸ made.attemptId_eq, input ▸ made.intentId_eq, made.carries,
    ⟨stage, found, below.trans_lt above⟩, made.left, made.queued⟩

theorem queueLoop_made [Sha256] {stageIds : List String} {inFlight : Nat}
    (loop : queueLoop stageIds inFlight ctx = .ok ctx') :
    ∃ made : List (StageAttempt × SchedulerIntent),
      ctx'.attempts = ctx.attempts ++ made.map Prod.fst ∧
      ctx'.intents = ctx.intents ++ made.map Prod.snd ∧
      (made.map fun pair => pair.1.stageId).Sublist stageIds ∧
      ∀ pair ∈ made, Made ctx ctx' pair.1 pair.2 := by
  induction stageIds generalizing inFlight ctx with
  | nil =>
    cases loop
    exact ⟨[], by simp, by simp, by simp, by simp⟩
  | cons stageId stageIds ih =>
    have skip : ∀ {inFlight}, queueLoop stageIds inFlight ctx = .ok ctx' →
        ∃ made : List (StageAttempt × SchedulerIntent),
          ctx'.attempts = ctx.attempts ++ made.map Prod.fst ∧
          ctx'.intents = ctx.intents ++ made.map Prod.snd ∧
          (made.map fun pair => pair.1.stageId).Sublist (stageId :: stageIds) ∧
          ∀ pair ∈ made, Made ctx ctx' pair.1 pair.2 := by
      intro inFlight loop
      obtain ⟨made, attempts, intents, listed, facts⟩ := ih loop
      exact ⟨made, attempts, intents, listed.cons stageId, facts⟩
    obtain ⟨stage, located, loop⟩ := bind_eq_ok.mp loop
    rw [require_eq_ok] at located
    split at loop
    · exact skip loop
    rename_i candidate
    split at loop
    · exact skip loop
    split at loop
    · cases loop
      exact ⟨[], by simp, by simp, by simp, by simp⟩
    obtain ⟨definition, defined, loop⟩ := bind_eq_ok.mp loop
    obtain ⟨mid, first, rest⟩ := bind_eq_ok.mp loop
    obtain ⟨_, rfl⟩ := applyTransition_eq_ok.mp first
    rw [not_or, not_not] at candidate
    have found := found_self located
    have id : stage.stageId = stageId := stageId_of_stage? located
    change queueLoop stageIds _ (queueMove ctx stage definition) = .ok ctx' at rest
    obtain ⟨made, attempts, intents, listed, facts⟩ := ih rest
    obtain ⟨attempted, intended⟩ := queueMove_dispatch ctx stage definition
    have later : Steps (fun _ _ => True) ⟨[], true, true⟩ (queueMove ctx stage definition) ctx' :=
      queueLoop_steps rfl rest
    have moved := queueMove_stage? ctx stage definition
    refine ⟨(stageAttempt ctx (bumped stage) definition,
      dispatchIntent ctx (bumped stage) definition) :: made, ?_, ?_, ?_, ?_⟩
    · rw [attempts, attempted, List.append_assoc]
      rfl
    · rw [intents, intended, List.append_assoc]
      rfl
    · rw [List.map_cons, (stageAttempt_fields ctx (bumped stage) definition).1]
      exact id ▸ listed.cons_cons stage.stageId
    · intro pair member
      rcases List.mem_cons.mp member with rfl | member
      · refine made_of_queueMove found candidate.1 ?_ ?_
        · exact steps_coordinates later (by rw [moved, if_pos rfl])
        · refine steps_transitions later ?_
          rw [queueMove_transitions]
          exact List.mem_append_right _ List.mem_cons_self
      · refine Made.of_later (queueMove_input ctx stage definition) ?_ (facts pair member)
        intro other next reached
        rw [moved] at reached
        split at reached
        · rename_i same
          cases reached
          refine ⟨stage, by rw [same]; exact found, le_of_lt ?_⟩
          rw [coordinates, coordinates, Prod.Lex.toLex_lt_toLex]
          exact Or.inr ⟨rfl, Nat.lt_succ_self _⟩
        · exact ⟨next, reached, le_rfl⟩

theorem Made.of_earlier {attempt : StageAttempt} {intent : SchedulerIntent}
    (grows : ∀ id stage, mid.stage? id = some stage →
      ∃ next, ctx'.stage? id = some next ∧ coordinates stage ≤ coordinates next)
    (transitions : ∀ transition ∈ mid.transitions, transition ∈ ctx'.transitions)
    (made : Made ctx mid attempt intent) : Made ctx ctx' attempt intent := by
  obtain ⟨stage, located, above⟩ := made.left
  obtain ⟨next, found, below⟩ := grows _ stage located
  obtain ⟨transition, member, facts⟩ := made.queued
  exact ⟨made.attemptId_eq, made.intentId_eq, made.carries, made.entered,
    ⟨next, found, above.trans below⟩, ⟨transition, transitions transition member, facts⟩⟩

end Queue

theorem sortedStageIds_nodup (ctx : TickContext) : ctx.sortedStageIds.Nodup :=
  (sortBy_perm id ctx.working.keys).nodup_iff.mpr ctx.working.distinct

section Ticks

variable [Sha256] {tick : TickRecord}

theorem tick_made (trace : Trace tick) :
    ∃ made : List (StageAttempt × SchedulerIntent),
      tick.plan.attempts.Perm (made.map Prod.fst) ∧
      (dispatchIntents tick.plan).Perm (made.map Prod.snd) ∧
      (made.map fun pair => pair.1.stageId).Nodup ∧
      ∀ pair ∈ made, Made trace.start trace.final pair.1 pair.2 := by
  obtain ⟨observed, cut, released, queued, processed, passed, releasing, _, loop, cutting⟩ :=
    runPhases_eq_ok trace.phases
  obtain ⟨_, _, _, _, _, _, _, noIntents, noAttempts, _⟩ := createTickContext_eq_ok trace.created
  obtain ⟨finalAttempts, finalIntents, finalTransitions⟩ := trace.final_fields
  have observing : Steps (fun _ _ => True) ⟨retryingStageIds trace.start, false, true⟩
      trace.start observed := observations_steps (fun _ _ _ _ _ _ => trivial) processed
  have early := (observing.trans (cancelPass_steps rfl passed)).trans (releasing _ false)
  have late : Steps (fun _ _ => True) .quiet queued trace.settled := cancelPass_steps rfl cutting
  obtain ⟨attempts, before, intents, others⟩ := steps_undispatched early rfl
  obtain ⟨attempts', after, intents', others'⟩ := steps_undispatched late rfl
  obtain ⟨made, grownAttempts, grownIntents, listed, facts⟩ := queueLoop_made loop
  refine ⟨made, ?_, ?_, (sortedStageIds_nodup released).sublist listed, ?_⟩
  · have creation : trace.final.attempts = made.map Prod.fst := by
      rw [finalAttempts, attempts', grownAttempts, attempts, noAttempts, List.nil_append]
    rw [trace.attempts_eq, ← creation]
    exact sortBy_perm _ _
  · have creation : trace.final.intents = before ++ made.map Prod.snd ++ after := by
      rw [finalIntents, intents', grownIntents, intents, noIntents, List.nil_append]
    have keep : ∀ intent ∈ made.map Prod.snd, decide (intent.kind = .dispatch) = true := by
      intro intent member
      obtain ⟨pair, listed, rfl⟩ := List.mem_map.mp member
      exact decide_eq_true (facts pair listed).carries.1
    have selected : trace.final.intents.filter (fun intent => decide (intent.kind = .dispatch)) =
        made.map Prod.snd := by
      rw [creation, List.filter_append, List.filter_append, List.filter_eq_self.mpr keep,
        List.filter_eq_nil_iff.mpr (by simpa using others),
        List.filter_eq_nil_iff.mpr (by simpa using others'), List.nil_append, List.append_nil]
    rw [dispatchIntents, trace.intents_eq, ← selected]
    exact (sortBy_perm _ _).filter _
  · intro pair member
    have whole : Made trace.start queued pair.1 pair.2 := by
      refine Made.of_later (steps_input early) ?_ (facts pair member)
      intro id next reached
      have present : id ∈ trace.start.working.keys := by
        rw [← steps_keys early]
        exact Table.find?_isSome.mp (Option.isSome_iff_exists.mpr ⟨next, reached⟩)
      obtain ⟨stage, found⟩ := Table.exists_find? present
      obtain ⟨other, located, below⟩ := steps_coordinates early found
      rw [reached] at located
      cases located
      exact ⟨stage, found, below⟩
    refine whole.of_earlier ?_ ?_
    · intro id stage found
      obtain ⟨next, located, below⟩ := steps_coordinates late found
      refine ⟨next, ?_, below⟩
      rw [TickContext.stage?, trace.final_working]
      exact located
    · intro transition recorded
      rw [finalTransitions]
      exact steps_transitions late recorded

def Paired (plan : SchedulerPlan) : Prop :=
  (∀ attempt ∈ plan.attempts, ∃! intent, intent ∈ plan.intents ∧ Carries intent attempt) ∧
    ∀ intent ∈ plan.intents, intent.kind = .dispatch →
      ∃! attempt, attempt ∈ plan.attempts ∧ Carries intent attempt

def CreatedIdle (plan : SchedulerPlan) : Prop :=
  ∀ attempt ∈ plan.attempts, ∃ transition ∈ plan.transitions,
    transition.stageId = attempt.stageId ∧ transition.fromState = .ready ∧
    transition.toState = .queued ∧ transition.generation = attempt.generation ∧
    transition.attemptId = some attempt.attemptId

theorem tick_paired (trace : Trace tick) : Paired tick.plan := by
  obtain ⟨made, attempts, intents, distinct, facts⟩ := tick_made trace
  have dispatches : ∀ intent, intent ∈ made.map Prod.snd ↔
      intent ∈ tick.plan.intents ∧ intent.kind = .dispatch := by
    intro intent
    rw [← intents.mem_iff, dispatchIntents, List.mem_filter, decide_eq_true_eq]
  have single : ∀ pair ∈ made, ∀ other ∈ made, pair.1.stageId = other.1.stageId → pair = other :=
    fun pair hpair other hother same => List.inj_on_of_nodup_map distinct hpair hother same
  constructor
  · intro attempt member
    obtain ⟨pair, listed, rfl⟩ := List.mem_map.mp (attempts.mem_iff.mp member)
    have carried := (facts pair listed).carries
    refine ⟨pair.2, ⟨((dispatches _).mp (List.mem_map_of_mem listed)).1, carried⟩, ?_⟩
    rintro intent ⟨present, carries⟩
    obtain ⟨other, there, rfl⟩ := List.mem_map.mp ((dispatches intent).mpr ⟨present, carries.1⟩)
    rw [single other there pair listed ((facts other there).carries.stageId_eq carries)]
  · intro intent member kind
    obtain ⟨pair, listed, rfl⟩ := List.mem_map.mp ((dispatches intent).mpr ⟨member, kind⟩)
    have carried := (facts pair listed).carries
    refine ⟨pair.1, ⟨attempts.mem_iff.mpr (List.mem_map_of_mem listed), carried⟩, ?_⟩
    rintro attempt ⟨present, carries⟩
    obtain ⟨other, there, rfl⟩ := List.mem_map.mp (attempts.mem_iff.mp present)
    rw [single other there pair listed (carries.stageId_eq carried)]

theorem tick_createdIdle (trace : Trace tick) : CreatedIdle tick.plan := by
  obtain ⟨made, attempts, _, _, facts⟩ := tick_made trace
  intro attempt member
  obtain ⟨pair, listed, rfl⟩ := List.mem_map.mp (attempts.mem_iff.mp member)
  obtain ⟨transition, recorded, moved⟩ := (facts pair listed).queued
  exact ⟨transition, by rw [trace.transitions_eq]; exact recorded, moved⟩

theorem tick_attempt (trace : Trace tick) {attempt : StageAttempt}
    (member : attempt ∈ tick.plan.attempts) :
    ∃ intent, Made trace.start trace.final attempt intent := by
  obtain ⟨made, attempts, _, _, facts⟩ := tick_made trace
  obtain ⟨pair, listed, rfl⟩ := List.mem_map.mp (attempts.mem_iff.mp member)
  exact ⟨pair.2, facts pair listed⟩

theorem tick_attempts_distinct (trace : Trace tick) :
    (tick.plan.attempts.map StageAttempt.stageId).Nodup := by
  obtain ⟨made, attempts, _, distinct, _⟩ := tick_made trace
  rw [(attempts.map StageAttempt.stageId).nodup_iff, List.map_map]
  exact distinct

end Ticks

section Runs

variable [Sha256] {ticks : List TickRecord} {tick : TickRecord}

theorem attempts_above (run : Run (tick :: ticks)) (trace : Trace tick) :
    ∀ later ∈ ticks, ∀ attempt ∈ later.plan.attempts, ∀ stage,
      trace.final.stage? attempt.stageId = some stage →
      coordinates stage < attemptCoordinates attempt := by
  induction ticks generalizing tick with
  | nil => simp
  | cons next ticks ih =>
    have follows : Follows tick next := (List.isChain_cons_cons.mp run.chained).1
    obtain ⟨following⟩ := (run.ticked next (by simp)).trace
    intro later member attempt made stage found
    have carried : following.start.stage? attempt.stageId = some stage := by
      rw [TickContext.stage?, trace.start_find? following follows]
      exact found
    rcases List.mem_cons.mp member with rfl | member
    · obtain ⟨_, facts⟩ := tick_attempt following made
      obtain ⟨entered, located, above⟩ := facts.entered
      rw [carried] at located
      cases located
      exact above
    · have steps : Steps (fun _ _ => True) (tickScope following.start) following.start
          following.settled := following.steps fun _ _ _ => trivial
      obtain ⟨reached, located, below⟩ := steps_coordinates steps carried
      have final : following.final.stage? attempt.stageId = some reached := by
        rw [TickContext.stage?, following.final_working]
        exact located
      exact below.trans_lt (ih run.tail following later member attempt made reached final)

theorem attempts_increasing (run : Run ticks) :
    (attemptsOf ticks).Pairwise fun earlier later =>
      earlier.stageId = later.stageId → attemptCoordinates earlier < attemptCoordinates later := by
  induction ticks with
  | nil => exact List.Pairwise.nil
  | cons tick ticks ih =>
    obtain ⟨trace⟩ := (run.ticked tick List.mem_cons_self).trace
    rw [attemptsOf, List.flatMap_cons, List.pairwise_append]
    refine ⟨?_, ih run.tail, ?_⟩
    · have distinct := List.pairwise_map.mp (tick_attempts_distinct trace)
      exact distinct.imp fun different same => absurd same different
    · intro earlier made later member same
      obtain ⟨other, listed, present⟩ := List.mem_flatMap.mp member
      obtain ⟨_, facts⟩ := tick_attempt trace made
      obtain ⟨stage, found, below⟩ := facts.left
      rw [same] at found
      exact below.trans_lt (attempts_above run trace other listed later present stage found)

theorem attempt_derived (run : Run ticks) (first : tick ∈ ticks) {attempt : StageAttempt}
    (member : attempt ∈ attemptsOf ticks) :
    attempt.attemptId = deriveAttemptId tick.input.runId tick.input.graphRevision attempt.stageId
      attempt.generation attempt.attemptOrdinal := by
  obtain ⟨other, listed, present⟩ := List.mem_flatMap.mp member
  obtain ⟨trace⟩ := (run.ticked other listed).trace
  obtain ⟨_, facts⟩ := tick_attempt trace present
  obtain ⟨runs, revisions, _⟩ := run.constant listed first
  obtain ⟨startRun, startRevision, _⟩ := trace.start_ids
  have derived := facts.attemptId_eq
  rw [startRun, startRevision, runs, revisions] at derived
  exact derived

theorem distinct_over_run {α : Type} (run : Run ticks) (f : StageAttempt → α)
    (separates : ∀ a ∈ attemptsOf ticks, ∀ b ∈ attemptsOf ticks, f a = f b →
      a.stageId = b.stageId ∧ attemptCoordinates a = attemptCoordinates b) :
    ((attemptsOf ticks).map f).Nodup := by
  rw [List.Nodup, List.pairwise_map]
  refine (attempts_increasing run).imp_of_mem ?_
  intro a b ha hb increasing same
  obtain ⟨stages, equal⟩ := separates a ha b hb same
  exact (increasing stages).ne equal

theorem attemptIds_distinct (run : Run ticks) :
    ((attemptsOf ticks).map StageAttempt.attemptId).Nodup := by
  refine distinct_over_run run _ ?_
  intro a ha b hb same
  obtain ⟨tick, listed, _⟩ := List.mem_flatMap.mp ha
  rw [attempt_derived run listed ha, attempt_derived run listed hb] at same
  obtain ⟨stages, generations, ordinals⟩ := deriveAttemptId_inj same
  exact ⟨stages, by rw [attemptCoordinates, attemptCoordinates, generations, ordinals]⟩

def dispatchId (tick : TickRecord) (attempt : StageAttempt) : String :=
  deriveIntentId tick.input.runId tick.input.graphRevision .dispatch
    (attemptKey attempt.stageId attempt.generation attempt.attemptOrdinal)

theorem tick_dispatchIds (trace : Trace tick) :
    ((dispatchIntents tick.plan).map SchedulerIntent.intentId).Perm
      (tick.plan.attempts.map (dispatchId tick)) := by
  obtain ⟨made, attempts, intents, _, facts⟩ := tick_made trace
  obtain ⟨runs, revisions, _⟩ := trace.start_ids
  have ids : made.map (fun pair => pair.2.intentId) = made.map fun pair =>
      dispatchId tick pair.1 := by
    apply List.map_congr_left
    intro pair member
    rw [(facts pair member).intentId_eq, runs, revisions]
    rfl
  calc ((dispatchIntents tick.plan).map SchedulerIntent.intentId).Perm
        ((made.map Prod.snd).map SchedulerIntent.intentId) := intents.map _
    _ = (made.map Prod.fst).map (dispatchId tick) := by
        rw [List.map_map, List.map_map]
        exact ids
    List.Perm _ (tick.plan.attempts.map (dispatchId tick)) := (attempts.map _).symm

theorem dispatchIds_distinct (run : Run ticks) :
    (ticks.flatMap fun tick => (dispatchIntents tick.plan).map SchedulerIntent.intentId).Nodup := by
  cases ticks with
  | nil => exact List.nodup_nil
  | cons first ticks =>
    have perm : ((first :: ticks).flatMap fun tick =>
        (dispatchIntents tick.plan).map SchedulerIntent.intentId).Perm
        ((attemptsOf (first :: ticks)).map (dispatchId first)) := by
      rw [attemptsOf, List.map_flatMap]
      apply List.Perm.flatMap_left
      intro tick member
      obtain ⟨trace⟩ := (run.ticked tick member).trace
      obtain ⟨runs, revisions, _⟩ := run.constant member List.mem_cons_self
      have same : dispatchId tick = dispatchId first := by
        funext attempt
        rw [dispatchId, dispatchId, runs, revisions]
      rw [← same]
      exact tick_dispatchIds trace
    rw [perm.nodup_iff]
    refine distinct_over_run run _ ?_
    intro a _ b _ same
    obtain ⟨stages, generations, ordinals⟩ := attemptKey_inj (deriveIntentId_inj same)
    exact ⟨stages, by rw [attemptCoordinates, attemptCoordinates, generations, ordinals]⟩

/-- At-most-once dispatch over a list of ticks. -/
structure DispatchesOnce (ticks : List TickRecord) : Prop where
  attemptIds : ((attemptsOf ticks).map StageAttempt.attemptId).Nodup
  intentIds :
    (ticks.flatMap fun tick => (dispatchIntents tick.plan).map SchedulerIntent.intentId).Nodup
  increasing : (attemptsOf ticks).Pairwise fun earlier later =>
    earlier.stageId = later.stageId → attemptCoordinates earlier < attemptCoordinates later
  paired : ∀ tick ∈ ticks, Paired tick.plan
  idle : ∀ tick ∈ ticks, CreatedIdle tick.plan

/-- Every run dispatches every attempt once, from whatever input it starts. -/
theorem run_dispatches_once (run : Run ticks) : DispatchesOnce ticks where
  attemptIds := attemptIds_distinct run
  intentIds := dispatchIds_distinct run
  increasing := attempts_increasing run
  paired := by
    intro tick member
    obtain ⟨trace⟩ := (run.ticked tick member).trace
    exact tick_paired trace
  idle := by
    intro tick member
    obtain ⟨trace⟩ := (run.ticked tick member).trace
    exact tick_createdIdle trace

end Runs

/-- An attempt that is retried, and a manual rerun of its stage. -/
def rerunTicks : List TickRecord :=
  @drive blankDigest
    [{ now := "t1", observations := [stageObservation "o1" "build" "t1" .attemptStarted] },
      { now := "t2"
        observations :=
          [{ stageObservation "o2" "build" "t2" .attemptFailed with retryable := some true }] },
      { now := "t3" },
      { now := "t4"
        observations :=
          [stageObservation "o3" "build" "t4" .attemptStarted,
            stageObservation "o4" "build" "t4" .attemptSucceeded,
            stageObservation "o5" "build" "t4" .manualRerun] }]
    (initialInput repairable "run" "pipeline" "t0")

theorem run_dispatches_once_sample :
    (attemptsOf rerunTicks).map (fun attempt => (attempt.generation, attempt.attemptOrdinal)) =
      [(1, 1), (1, 2), (2, 1)] ∧ DispatchesOnce rerunTicks := by
  refine ⟨by decide +kernel, ?_⟩
  exact @run_dispatches_once blankDigest _ (@drive_run blankDigest _ _ (by decide +kernel))

end Heniek.DispatchOnce
