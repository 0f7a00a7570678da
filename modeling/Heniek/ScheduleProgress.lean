import Heniek.CancellationRuns
import Heniek.SchedulerRelease
import Mathlib.Order.WellFoundedSet

/-!
No tick leaves a schedule stuck. The release loop ends with every pending stage
held back by an edge that awaits its predecessor or its evaluator; the queue
phase leaves a ready stage behind only while another is in flight; and along an
acyclic graph a pending stage that is held back by pending stages only leads to
one that is not.
-/

namespace Heniek.ScheduleProgress
open KeyedTable PipelineVocabulary PipelineDocument RecoveryPolicy SchedulerIds ScriptText
open SchedulerTick SchedulerSteps StageChanges SchedulerRun SchedulerRelease CancellationRuns
open FallibleRun

def Linked (graph : PipelineGraph) (source target : String) : Prop :=
  ∃ edge ∈ graph.edges, edge.fromStageId = source ∧ edge.toStageId = target

def Acyclic (graph : PipelineGraph) : Prop := ∀ id, ¬ Relation.TransGen (Linked graph) id id

/-- The tick has no answer for the edge's evaluator, and one was asked for. -/
structure Awaiting (input : SchedulerInput) (plan : SchedulerPlan)
    (edge : PipelineEdge) : Prop where
  condition : ∃ profile question, edge.condition = some (.evaluator profile question)
  reached : ∃ stage ∈ plan.stagePatches, stage.stageId = edge.fromStageId ∧
    stage.state = .succeeded
  unanswered : ∀ answer ∈ input.evaluatorDecisions,
    answer.edgeKey ≠ edgeKey edge.fromStageId edge.toStageId
  unobserved : ∀ observation ∈ input.observations, observation.kind = .evaluatorDecided →
    observation.edgeKey = some (edgeKey edge.fromStageId edge.toStageId) →
      observation.selected = none
  requested : edgeKey edge.fromStageId edge.toStageId ∈ input.pendingEvaluatorEdgeKeys ∨
    ∃ intent ∈ plan.intents, intent.intentId = deriveIntentId input.runId input.graphRevision
      .evaluator (edgeKey edge.fromStageId edge.toStageId)

structure Unstuck (input : SchedulerInput) (plan : SchedulerPlan) : Prop where
  moves : plan.terminal ≠ none ∨
    (∃ stage ∈ plan.stagePatches, stage.state.inFlight = true ∨ stage.state = .retrying) ∨
    ∃ edge ∈ input.graph.edges, Awaiting input plan edge
  held : ∀ stage ∈ plan.stagePatches, stage.state = .pending →
    ∃ edge ∈ input.graph.edges, edge.toStageId = stage.stageId ∧
      ((∃ predecessor ∈ plan.stagePatches, predecessor.stageId = edge.fromStageId ∧
          predecessor.state.isTerminal = false) ∨
        Awaiting input plan edge)

theorem exists_source {r : String → String → Prop} (acyclic : ∀ id, ¬ Relation.TransGen r id id)
    {ids : List String} (nonempty : ids ≠ []) : ∃ id ∈ ids, ∀ other ∈ ids, ¬ r other id := by
  have irreflexive : Std.Irrefl (Relation.TransGen r) := ⟨acyclic⟩
  have strict : IsStrictOrder String (Relation.TransGen r) := {}
  have founded : {id | id ∈ ids}.WellFoundedOn (Relation.TransGen r) :=
    (List.finite_toSet ids).wellFoundedOn
  obtain ⟨first, listed⟩ := List.exists_mem_of_ne_nil ids nonempty
  obtain ⟨⟨id, member⟩, _, least⟩ :=
    WellFounded.has_min founded Set.univ ⟨⟨first, listed⟩, trivial⟩
  refine ⟨id, member, ?_⟩
  intro other inside link
  exact least ⟨other, inside⟩ trivial (Relation.TransGen.single link)

def Held (ctx : TickContext) : Prop :=
  ∀ stage ∈ ctx.working.rows, stage.state = .pending →
    ∃ edge ∈ incoming ctx.graph stage.stageId, Awaits ctx edge

section Queue

variable {ctx ctx' : TickContext} {stage : StageSnapshot} {definition : PipelineStage}

theorem asked_queueMove {edge : PipelineEdge} (asks : asked ctx edge = true) :
    asked (queueMove ctx stage definition) edge = true := by
  unfold asked evaluatorIntentId at asks ⊢
  rw [queueMove_input, (queueMove_dispatch ctx stage definition).2, List.any_append, asks,
    Bool.true_or]

theorem awaits_queueMove {edge : PipelineEdge} (found : ctx.stage? stage.stageId = some stage)
    (ready : stage.state = .ready) (awaits : Awaits ctx edge) :
    Awaits (queueMove ctx stage definition) edge := by
  have located : ∀ id, (queueMove ctx stage definition).stage? id =
      if id = stage.stageId then some (queuedStage ctx stage) else ctx.stage? id := by
    intro id
    rw [TickContext.stage?, queueMove_working, Table.find?_upsert]
    rfl
  obtain ⟨decisions, pending, _⟩ := queueMove_evaluators ctx stage definition
  cases awaits with
  | predecessor before here active =>
    by_cases same : edge.fromStageId = stage.stageId
    · exact .predecessor (queuedStage ctx stage) (by rw [located, if_pos same]) rfl
    · exact .predecessor before (by rw [located, if_neg same, here]) active
  | evaluator before profile question here succeeded condition undecided awaited =>
    have other : edge.fromStageId ≠ stage.stageId := by
      intro same
      rw [same, found] at here
      cases here
      rw [ready] at succeeded
      cases succeeded
    refine .evaluator before profile question (by rw [located, if_neg other, here]) succeeded
      condition (by rw [decisions]; exact undecided) ?_
    rw [pending]
    exact awaited.imp id asked_queueMove

theorem held_queueMove (found : ctx.stage? stage.stageId = some stage)
    (ready : stage.state = .ready) (held : Held ctx) : Held (queueMove ctx stage definition) := by
  intro row member pending
  rw [queueMove_working] at member
  rcases Table.mem_upsert.mp member with rfl | ⟨kept, _⟩
  · cases pending
  · obtain ⟨edge, listed, awaits⟩ := held row kept pending
    rw [TickContext.graph, queueMove_input]
    exact ⟨edge, listed, awaits_queueMove found ready awaits⟩

theorem queueLoop_rests {ids : List String} {inFlight : Nat} (going : ctx.stopping = false)
    (positive : maxConcurrent ctx ≠ some 0)
    (counted : 0 < inFlight → ∃ stage ∈ ctx.working.rows, stage.state.inFlight = true)
    (held : Held ctx) (queued : queueLoop ids inFlight ctx = .ok ctx') :
    Held ctx' ∧ ctx'.stopping = false ∧
      ((∃ stage ∈ ctx'.working.rows, stage.state.inFlight = true) ∨
        ctx' = ctx ∧ ∀ id ∈ ids, ∀ stage, ctx.stage? id = some stage → stage.selected = true →
          stage.state ≠ .ready) := by
  induction ids generalizing inFlight ctx with
  | nil =>
    cases queued
    exact ⟨held, going, Or.inr ⟨rfl, by simp⟩⟩
  | cons id ids ih =>
    obtain ⟨stage, located, turn⟩ := queueLoop_cons_eq_ok queued
    cases turn with
    | skip passed rest =>
      obtain ⟨later, still, rests⟩ := ih going positive counted held rest
      refine ⟨later, still, rests.imp_right ?_⟩
      rintro ⟨same, unready⟩
      refine ⟨same, List.forall_mem_cons.mpr ⟨?_, unready⟩⟩
      intro other found selected ready
      rw [located] at found
      cases found
      simp [selected, ready, going] at passed
    | full _ cap limit reached same =>
      subst same
      have nonzero : cap ≠ 0 := fun zero => positive (by rw [limit, zero])
      exact ⟨held, going, Or.inl (counted (by omega))⟩
    | dispatch ready _ _ _ definition _ rest =>
      have found := found_self located
      have flies : ∃ row ∈ (queueMove ctx stage definition).working.rows,
          row.state.inFlight = true := by
        refine ⟨queuedStage ctx stage, ?_, rfl⟩
        rw [queueMove_working]
        exact Table.mem_upsert.mpr (Or.inl rfl)
      obtain ⟨later, still, rests⟩ := ih
        ((queueMove_evaluators ctx stage definition).2.2.trans going)
        (maxConcurrent_queueMove ctx stage definition ▸ positive)
        (fun _ => flies) (held_queueMove found ready held) rest
      refine ⟨later, still, Or.inl ?_⟩
      rcases rests with flying | ⟨same, _⟩
      · exact flying
      · rw [same]
        exact flies

end Queue

section Evaluators

variable [Sha256] {admits : TickContext → SchedulerObservation → Prop} {scope : Scope}
variable {ctx ctx' : TickContext}

/-- An answer stays, and an evaluator that is pending anew has its intent. -/
structure KeepsEvaluator (key : String) (ctx ctx' : TickContext) : Prop where
  answered : key ∈ ctx.evaluatorDecisions.keys → key ∈ ctx'.evaluatorDecisions.keys
  pending : key ∈ ctx'.pendingEvaluators → key ∈ ctx.pendingEvaluators ∨
    ∃ intent ∈ ctx'.intents, intent.intentId = deriveIntentId ctx.input.runId
      ctx.input.graphRevision .evaluator key
  intents : ∀ intent ∈ ctx.intents, intent ∈ ctx'.intents

theorem step_evaluators (key : String) (step : Step admits scope ctx ctx') :
    KeepsEvaluator key ctx ctx' := by
  have same : ∀ {other : TickContext}, other.evaluatorDecisions = ctx.evaluatorDecisions →
      other.pendingEvaluators = ctx.pendingEvaluators →
      (∃ added, other.intents = ctx.intents ++ added) → KeepsEvaluator key ctx other := by
    rintro other decisions pending ⟨added, intents⟩
    exact ⟨fun known => decisions ▸ known, fun listed => Or.inl (pending ▸ listed),
      fun intent member => intents ▸ List.mem_append_left _ member⟩
  cases step with
  | decideEdge observation decided selected =>
    refine ⟨fun known => Table.mem_keys_upsert.mpr (Or.inl known), ?_, fun _ member => member⟩
    intro pending
    exact Or.inl (List.mem_filter.mp pending).1
  | touch stage found =>
    rcases touch_cases ctx stage with unchanged | ⟨_, created⟩
    · rw [unchanged]
      exact same rfl rfl ⟨[], by simp⟩
    · rw [created]
      exact same rfl rfl ⟨[], by simp [setRecoveryCounters]⟩
  | requestCancel stage attemptId => exact same rfl rfl ⟨_, rfl⟩
  | requestEvaluator edge profile question target =>
    refine ⟨id, ?_, fun intent member => List.mem_append_left _ member⟩
    intro pending
    simp only [requestEvaluator] at pending
    split at pending
    · exact Or.inl pending
    · rcases List.mem_append.mp pending with earlier | new
      · exact Or.inl earlier
      · refine Or.inr ⟨_, List.mem_append_right _ List.mem_cons_self, ?_⟩
        rw [List.mem_singleton.mp new]
  | queue stage definition =>
    obtain ⟨decisions, pending, _⟩ := queueMove_evaluators ctx stage definition
    exact same decisions pending ⟨_, (queueMove_dispatch ctx stage definition).2⟩
  | _ => exact same rfl rfl ⟨[], (List.append_nil _).symm⟩

theorem steps_evaluators (key : String) (steps : Steps admits scope ctx ctx') :
    KeepsEvaluator key ctx ctx' := by
  induction steps with
  | refl => exact ⟨id, Or.inl, fun _ => id⟩
  | @tail mid last before step ih =>
    obtain ⟨decided, pending, intents⟩ := ih
    obtain ⟨decided', pending', intents'⟩ := step_evaluators key step
    rw [steps_input before] at pending'
    refine ⟨decided' ∘ decided, ?_, fun intent member => intents' _ (intents _ member)⟩
    intro listed
    rcases pending' listed with earlier | new
    · rcases pending earlier with first | ⟨intent, member, same⟩
      · exact Or.inl first
      · exact Or.inr ⟨intent, intents' _ member, same⟩
    · exact Or.inr new

theorem observations_decided {observations : List SchedulerObservation} {key : String}
    (processed : observations.foldlM processObservation ctx = .ok ctx')
    (answered : ∃ observation ∈ observations, observation.kind = .evaluatorDecided ∧
      observation.edgeKey = some key ∧ observation.selected ≠ none) :
    key ∈ ctx'.evaluatorDecisions.keys := by
  induction observations generalizing ctx with
  | nil => simp at answered
  | cons first rest ih =>
    obtain ⟨mid, handled, later⟩ := foldlM_cons_eq_ok.mp processed
    obtain ⟨observation, member, kind, edge, choice⟩ := answered
    rcases List.mem_cons.mp member with rfl | listed
    · obtain ⟨selected, chosen⟩ := Option.ne_none_iff_exists'.mp choice
      have decides : mid = decideEdge (consumeObservation ctx observation) observation key
          selected := by
        simp only [processObservation, kind, edge, chosen] at handled
        exact (Except.ok.inj handled).symm
      have steps : Steps (fun _ _ => True) .quiet mid ctx' :=
        observations_steps (fun _ _ _ _ _ _ => trivial) later
      refine (steps_evaluators key steps).answered ?_
      rw [decides]
      exact Table.mem_keys_upsert.mpr (Or.inr rfl)
    · exact ih later ⟨observation, listed, kind, edge, choice⟩

end Evaluators

section Ticks

variable [Sha256] {ticks : List TickRecord} {tick : TickRecord}

def Deselected (stage : StageSnapshot) : Prop := stage.selected = false → stage.state = .cancelled

omit [Sha256] in
theorem moved_deselected {stage : StageSnapshot} {now : String} {toState : StageState}
    {reason : TransitionReason} {options : TransitionOptions} (before : Deselected stage)
    (active : stage.state.inFlight = true ∨ stage.state.inactive = true)
    (keeps : options.selected = none) :
    Deselected (movedStage now stage toState reason options) := by
  intro deselected
  have same : stage.selected = false := by simpa [movedStage, keeps] using deselected
  rw [before same] at active
  rcases active with impossible | impossible <;> cases impossible

theorem change_deselected {admits : TickContext → SchedulerObservation → Prop} {scope : Scope}
    {ctx : TickContext} {stage next : StageSnapshot} (change : Change admits scope ctx stage next)
    (before : Deselected stage) : Deselected next := by
  cases change with
  | observed observation toState reason options admitted named cause =>
    refine moved_deselected before (Or.inl (observedCause_source cause)) ?_
    cases cause <;> rfl
  | recovered observation decision counters toState reason options admitted named cause =>
    refine moved_deselected before (Or.inl (recoveryCause_source cause)) ?_
    cases cause with
    | classified _ _ _ _ _ _ _ _ _ keeps => exact keeps.selected_eq
    | approved _ _ _ _ _ _ _ _ _ _ _ keeps => exact keeps.selected_eq
    | rejected _ _ _ _ _ keeps => exact keeps.selected_eq
  | phased toState reason options cause =>
    have active := phaseCause_source cause
    cases cause with
    | releaseDeselected => exact fun _ => rfl
    | _ => exact moved_deselected before (Or.inr active) rfl
  | rerun => nofun
  | queued state selected =>
    intro deselected
    change stage.selected = false at deselected
    rw [selected] at deselected
    cases deselected

theorem run_deselected (run : FullRun ticks) (member : tick ∈ ticks) (trace : Trace tick) :
    ∀ stage ∈ trace.start.working.rows, Deselected stage := by
  refine run.stages_invariant ?_ ?_ tick member trace
  · intro tick _ now id _ deselected
    cases deselected
  · intro tick _ trace before
    rw [trace.final_working]
    refine steps_stages trace.free_steps before ?_
    intro mid stage next _ _ deselected change
    exact change_deselected change deselected

/-- Where a tick that does not stop comes to rest. -/
structure Rested (trace : Trace tick) : Prop where
  held : Held trace.settled
  queued : (∃ stage ∈ trace.settled.working.rows, stage.state.inFlight = true) ∨
    ∀ stage ∈ trace.settled.working.rows, stage.state ≠ .ready

theorem tick_rested (run : FullRun ticks) (member : tick ∈ ticks) (trace : Trace tick)
    (cap : resolveEffectiveConcurrency
      (tick.input.effectiveLimits.bind EffectiveLimits.maxConcurrentWorkers)
      tick.input.graph.limits.maxConcurrentWorkers ≠ some 0)
    (uncancelled : ¬ requestsCancel tick.input) (timely : ¬ pastDeadline tick.input) :
    Rested trace := by
  obtain ⟨observed, cut, released, queued, processed, passed, releasing, ⟨armed, looped⟩, loop,
    cutting⟩ := runPhases_eq_ok trace.phases
  have observing : Steps (fun _ observation => observation.kind ≠ .cancelRequested)
      ⟨retryingStageIds trace.start, false, true⟩ trace.start observed := by
    refine observations_steps ?_ processed
    intro done observation rest mid split folded kind
    exact uncancelled ⟨observation, Handled.mem ⟨trace, done, rest, split, folded⟩, kind⟩
  have reaching := (observing.trans (cancelPass_steps rfl passed)).trans (releasing _ false)
  have going : released.stopping = false := steps_going reaching (fun _ _ other => other) timely
  have deselected : ∀ stage ∈ released.working.rows, Deselected stage := by
    refine steps_stages reaching (run_deselected run member trace) ?_
    intro mid stage next _ _ before change
    exact change_deselected change before
  have selected : ∀ stage ∈ released.working.rows, stage.state ≠ .cancelled →
      stage.selected = true := by
    intro stage listed other
    cases choice : stage.selected with
    | true => rfl
    | false => exact absurd (deselected stage listed choice) other
  have held : Held released := by
    intro stage listed pending
    have fixed := releaseLoop_fixed looped stage.stageId (Table.mem_keys_of_mem listed)
    refine (progressed_maybeReleaseStage fixed).2 rfl going stage (Table.find?_key listed)
      (selected stage listed ?_) pending
    rw [pending]
    rintro ⟨⟩
  have limited : maxConcurrent released ≠ some 0 := by
    obtain ⟨version, same⟩ := trace.input_eq
    rw [maxConcurrent, TickContext.graph, steps_input reaching, trace.start_input, same]
    exact cap
  have counted : 0 < inFlightCount released →
      ∃ stage ∈ released.working.rows, stage.state.inFlight = true := List.countP_pos_iff.mp
  obtain ⟨later, still, rests⟩ := queueLoop_rests going limited counted held loop
  have settled : trace.settled = queued := by
    rw [cancelPass, if_neg (by rw [still]; rintro ⟨⟩)] at cutting
    exact (Except.ok.inj cutting).symm
  rw [← settled] at later rests
  refine ⟨later, rests.imp_right ?_⟩
  rintro ⟨same, unready⟩ stage listed ready
  rw [same] at listed
  refine unready stage.stageId (mem_sortTexts.mpr (Table.mem_keys_of_mem listed)) stage
    (Table.find?_key listed) (selected stage listed ?_) ready
  rw [ready]
  rintro ⟨⟩

theorem awaiting_of_awaits (trace : Trace tick) {edge : PipelineEdge}
    (awaits : Awaits trace.settled edge) :
    (∃ predecessor ∈ tick.plan.stagePatches, predecessor.stageId = edge.fromStageId ∧
        predecessor.state.isTerminal = false) ∨
      Awaiting tick.input tick.plan edge := by
  have patched : ∀ {id : String} {stage : StageSnapshot},
      trace.settled.stage? id = some stage → stage ∈ tick.plan.stagePatches := by
    intro id stage found
    rw [trace.stagePatches_perm.mem_iff, trace.final_working]
    exact Table.mem_of_find? found
  cases awaits with
  | predecessor stage found active =>
    exact Or.inl ⟨stage, patched found, stageId_of_stage? found, active⟩
  | evaluator stage profile question found succeeded condition undecided awaited =>
    right
    have steps := trace.free_steps
    have absent := Table.find?_eq_none.mp undecided
    obtain ⟨answers, pending, _⟩ :=
      steps_evaluators (edgeKey edge.fromStageId edge.toStageId) steps
    obtain ⟨given, listed⟩ := trace.start_evaluators
    obtain ⟨run_eq, revision_eq, _⟩ := trace.start_ids
    have intents : ∀ intent, intent ∈ tick.plan.intents ↔ intent ∈ trace.settled.intents := by
      intro intent
      rw [trace.intents_eq, mem_sortBy, trace.final_fields.2.1]
    refine ⟨⟨profile, question, condition⟩,
      ⟨stage, patched found, stageId_of_stage? found, succeeded⟩, ?_, ?_, ?_⟩
    · intro answer member same
      refine absent (answers ?_)
      rw [given]
      refine Table.mem_keys_upsertAll.mpr (Or.inr ?_)
      rw [List.map_map, ← same]
      exact List.mem_map_of_mem member
    · intro observation member kind edge
      by_contra choice
      refine absent ?_
      obtain ⟨observed, cut, processed, passed, rest⟩ := runPhases_split trace.phases
      have cutting : Steps (fun _ _ => True) (tickScope trace.start) observed cut :=
        cancelPass_steps rfl passed
      refine (steps_evaluators _ (cutting.trans (rest _))).answered ?_
      refine observations_decided processed ⟨observation, ?_, kind, edge, choice⟩
      rw [sortObservations, List.mem_insertionSort, trace.start_input]
      obtain ⟨version, same⟩ := trace.input_eq
      rw [same]
      exact member
    · rw [run_eq, revision_eq, listed] at pending
      rcases awaited with waits | asks
      · rcases pending waits with before | ⟨intent, member, same⟩
        · exact Or.inl before
        · exact Or.inr ⟨intent, (intents intent).mpr member, same⟩
      · obtain ⟨intent, member, same⟩ := List.any_eq_true.mp asks
        have same := of_decide_eq_true same
        rw [evaluatorIntentId, steps_input steps, run_eq, revision_eq] at same
        exact Or.inr ⟨intent, (intents intent).mpr member, same⟩

omit [Sha256] in
theorem computeTerminal_none {ctx : TickContext} (computed : computeTerminal ctx = .ok none) :
    ∃ stage ∈ ctx.working.rows, stage.state.isTerminal = false := by
  simp only [computeTerminal] at computed
  split at computed
  · rename_i unfinished
    simpa using unfinished
  split at computed
  · cases computed
  split at computed
  · cases computed
  obtain ⟨failed, _, computed⟩ := bind_eq_ok.mp computed
  split at computed
  · cases computed
  · split at computed <;> cases computed

theorem no_stuck_schedule (run : FullRun ticks) (member : tick ∈ ticks)
    (acyclic : Acyclic tick.input.graph)
    (cap : resolveEffectiveConcurrency
      (tick.input.effectiveLimits.bind EffectiveLimits.maxConcurrentWorkers)
      tick.input.graph.limits.maxConcurrentWorkers ≠ some 0)
    (uncancelled : ¬ requestsCancel tick.input) (timely : ¬ pastDeadline tick.input) :
    Unstuck tick.input tick.plan := by
  obtain ⟨trace⟩ := (run.ticked tick member).trace
  obtain ⟨held, queued⟩ := tick_rested run member trace cap uncancelled timely
  have patched : ∀ stage, stage ∈ tick.plan.stagePatches ↔ stage ∈ trace.settled.working.rows := by
    intro stage
    rw [trace.stagePatches_perm.mem_iff, trace.final_working]
  have steps := trace.free_steps
  have graph : trace.settled.graph = tick.input.graph := by
    rw [TickContext.graph, steps_input steps, trace.start_ids.2.2]
  have waits : ∀ stage ∈ tick.plan.stagePatches, stage.state = .pending →
      ∃ edge ∈ tick.input.graph.edges, edge.toStageId = stage.stageId ∧
        ((∃ predecessor ∈ tick.plan.stagePatches, predecessor.stageId = edge.fromStageId ∧
            predecessor.state.isTerminal = false) ∨
          Awaiting tick.input tick.plan edge) := by
    intro stage listed pending
    obtain ⟨edge, comes, awaits⟩ := held stage ((patched stage).mp listed) pending
    obtain ⟨member, target⟩ := List.mem_filter.mp comes
    exact ⟨edge, graph ▸ member, of_decide_eq_true target, awaiting_of_awaits trace awaits⟩
  refine ⟨?_, waits⟩
  by_contra stuck
  simp only [not_or, not_exists, not_and] at stuck
  obtain ⟨unfinished, idle, answered⟩ := stuck
  have pendingOnly : ∀ stage ∈ tick.plan.stagePatches, stage.state.isTerminal = false →
      stage.state = .pending := by
    intro stage listed active
    have unqueued : stage.state ≠ .ready := by
      rcases queued with ⟨flying, member, flies⟩ | unready
      · exact absurd flies (idle flying ((patched flying).mpr member)).1
      · exact unready stage ((patched stage).mp listed)
    have unmoved := idle stage listed
    revert active unqueued unmoved
    cases stage.state <;> simp [StageState.isTerminal, StageState.inFlight]
  obtain ⟨last, lastListed, lastActive⟩ : ∃ stage ∈ tick.plan.stagePatches,
      stage.state.isTerminal = false := by
    have computed := trace.terminal_eq
    rw [not_not.mp unfinished] at computed
    obtain ⟨stage, member, active⟩ := computeTerminal_none computed
    exact ⟨stage, (patched stage).mpr member, active⟩
  have mem_pendingIds : ∀ stage ∈ tick.plan.stagePatches, stage.state.isTerminal = false →
      stage.stageId ∈ (tick.plan.stagePatches.filter fun stage => stage.state = .pending).map
        StageSnapshot.stageId := by
    intro stage listed active
    refine List.mem_map_of_mem (List.mem_filter.mpr ⟨listed, ?_⟩)
    exact decide_eq_true (pendingOnly stage listed active)
  obtain ⟨id, member, least⟩ := exists_source acyclic
    (List.ne_nil_of_mem (mem_pendingIds last lastListed lastActive))
  obtain ⟨stage, chosen, rfl⟩ := List.mem_map.mp member
  obtain ⟨listed, pending⟩ := List.mem_filter.mp chosen
  obtain ⟨edge, edgeMember, target, cause⟩ := waits stage listed (of_decide_eq_true pending)
  rcases cause with ⟨predecessor, before, source, active⟩ | awaiting
  · refine least predecessor.stageId (mem_pendingIds predecessor before active) ?_
    exact ⟨edge, edgeMember, source.symm, target⟩
  · exact answered edge edgeMember awaiting

end Ticks

def gated : PipelineGraph where
  mode := .autonomous
  limits := { maxConcurrentWorkers := some 1 }
  stages :=
    [{ id := "build", type := .agent, mode := .autonomous, optional := false },
      { id := "ship", type := .agent, mode := .autonomous, optional := false }]
  edges := [{ fromStageId := "build", toStageId := "ship", condition := some (.evaluator "" "") }]

theorem gated_acyclic : Acyclic gated := by
  have ends : ∀ {source target : String}, Relation.TransGen (Linked gated) source target →
      source = "build" ∧ target = "ship" := by
    intro source target path
    induction path with
    | single link =>
      obtain ⟨edge, member, rfl, rfl⟩ := link
      rw [List.mem_singleton.mp member]
      exact ⟨rfl, rfl⟩
    | tail _ link ih =>
      obtain ⟨edge, member, _, rfl⟩ := link
      rw [List.mem_singleton.mp member]
      exact ⟨ih.1, rfl⟩
  intro id cycle
  obtain ⟨first, last⟩ := ends cycle
  rw [first] at last
  exact absurd last (by decide)

/-- The first stage succeeds and the second waits for its evaluator. -/
def gatedTicks : List TickRecord :=
  @drive blankDigest
    [{ now := "t1"
       observations :=
        [stageObservation "o1" "build" "t1" .attemptStarted,
          stageObservation "o2" "build" "t1" .attemptSucceeded] }]
    (initialInput gated "run" "pipeline" "t0")

theorem no_stuck_schedule_gated :
    gatedTicks.map (fun tick => tick.plan.stagePatches.map StageSnapshot.state) =
        [[.queued, .pending], [.succeeded, .pending]] ∧
      ∀ tick ∈ gatedTicks, Unstuck tick.input tick.plan := by
  refine ⟨by decide +kernel, ?_⟩
  intro tick member
  have run : @FullRun blankDigest gatedTicks :=
    @drive_fullRun blankDigest _ _ (initialInput_starts gated "run" "pipeline" "t0")
      (by decide +kernel)
  obtain ⟨first, second, ticks⟩ : ∃ first second, gatedTicks = [first, second] := ⟨_, _, rfl⟩
  have graph : tick.input.graph = gated := by
    have same :=
      (@Run.constant blankDigest _ (@FullRun.toRun blankDigest _ run) _ first member
      (by rw [ticks]; simp)).2.2
    have head := @drive_head blankDigest _ _ first (by rw [gatedTicks] at ticks; rw [ticks]; rfl)
    rw [same, head]
    rfl
  have timely : ∀ tick ∈ gatedTicks, ¬ requestsCancel tick.input ∧ ¬ pastDeadline tick.input ∧
      tick.input.effectiveLimits = none := by decide +kernel
  obtain ⟨uncancelled, early, unlimited⟩ := timely tick member
  refine @no_stuck_schedule blankDigest _ _ run member (graph ▸ gated_acyclic) ?_ uncancelled early
  rw [graph, unlimited]
  decide

end Heniek.ScheduleProgress
