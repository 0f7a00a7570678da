import Heniek.CancellationRuns
import Heniek.EvaluatorDecisions
import Heniek.SchedulerRelease

/-!
Joins behind optional stages. While the release loop runs, no stage succeeds or
fails and no evaluator answers, so an incoming edge that resolves to selected or
waived when the loop starts does so at every turn. The join rule counts selected
edges only: a stage all of whose predecessors are optional and failed finds
nothing selected and is cancelled like a branch that was not taken.
-/

namespace Heniek.OptionalFailures
open KeyedTable PipelineVocabulary PipelineDocument ExpressionEvaluation SchedulerIds RecoveryPolicy
open SchedulerTick SchedulerSteps StageChanges SchedulerRun SchedulerRelease CancellationRuns
open EvaluatorDecisions FallibleRun ScriptText

def Turn (ctx ctx' : TickContext) : Prop := ∃ stageId, maybeReleaseStage ctx stageId = .ok ctx'

abbrev Turns := Relation.ReflTransGen Turn

section Turns

variable {ctx ctx' : TickContext}

theorem releaseLoop_turns {fuel : Nat} (released : releaseLoop fuel ctx = .ok ctx') :
    Turns ctx ctx' := by
  induction fuel generalizing ctx with
  | zero => cases released
  | succ fuel ih =>
    obtain ⟨swept, sweep, released⟩ := bind_eq_ok.mp released
    have first : Turns ctx swept := by
      refine foldlM_steps ?_ sweep
      intro stageId _ before after turn
      exact Relation.ReflTransGen.single ⟨stageId, turn⟩
    split at released
    · exact first.trans (ih released)
    · cases released
      exact first

theorem maybeReleaseStage_eq_ok {stageId : String}
    (turn : maybeReleaseStage ctx stageId = .ok ctx') :
    ctx' = ctx ∨ ∃ stage, ctx.stage? stageId = some stage ∧ Releasable ctx stage ∧
      (incoming ctx.graph stageId = [] ∧
          applyTransition ctx stage .ready .rootEligible { action := .release } = .ok ctx' ∨
        incoming ctx.graph stageId ≠ [] ∧ ∃ resolutions mid,
          resolveEdges (incoming ctx.graph stageId) ctx = .ok (resolutions, mid) ∧
          settleRelease mid stage resolutions = .ok ctx') := by
  obtain ⟨stage, located, turn⟩ := bind_eq_ok.mp turn
  rw [require_eq_ok] at located
  split at turn
  · cases turn
    exact Or.inl rfl
  rename_i candidate
  rw [not_or, not_not] at candidate
  split at turn
  · cases turn
    exact Or.inl rfl
  rename_i going
  refine Or.inr
    ⟨stage, located, ⟨candidate.2, by simpa using candidate.1, by simpa using going⟩, ?_⟩
  split at turn
  · rename_i root
    exact Or.inl ⟨root, turn⟩
  · rename_i joined
    obtain ⟨⟨resolutions, mid⟩, resolved, settled⟩ := bind_eq_ok.mp turn
    exact Or.inr ⟨joined, resolutions, mid, resolved, settled⟩

end Turns

/-- No observation is handled any more. -/
def Closed (_ : TickContext) (_ : SchedulerObservation) : Prop := False

/-- What stays as it is while the release loop runs. -/
structure Stable (armed ctx : TickContext) : Prop where
  input_eq : ctx.input = armed.input
  answers_eq : ctx.evaluatorDecisions = armed.evaluatorDecisions
  stopping_eq : ctx.stopping = armed.stopping
  ended : ∀ id stage, armed.stage? id = some stage → stage.state.isTerminal = true →
    ctx.stage? id = some stage
  succeeded : ∀ id stage, ctx.stage? id = some stage → stage.state = .succeeded →
    armed.stage? id = some stage

theorem turn_steps [Sha256] {ctx ctx' : TickContext} (turn : Turn ctx ctx') :
    Steps Closed .quiet ctx ctx' := maybeReleaseStage_steps rfl turn.choose_spec

theorem change_unsucceeded [Sha256] {ctx : TickContext} {scope : Scope} {stage next : StageSnapshot}
    (change : Change Closed scope ctx stage next) : next.state ≠ .succeeded := by
  cases change with
  | observed _ _ _ _ admitted => exact admitted.elim
  | recovered _ _ _ _ _ _ admitted => exact admitted.elim
  | phased _ _ _ cause => cases cause <;> nofun
  | rerun _ _ admitted => exact admitted.elim
  | queued => nofun

theorem steps_stable [Sha256] {armed ctx : TickContext} {scope : Scope}
    (steps : Steps Closed scope armed ctx) : Stable armed ctx := by
  have unanswered := steps_unanswered steps fun _ _ impossible => impossible.elim
  refine ⟨steps_input steps, unanswered.map_eq, ?_, ?_, ?_⟩
  · have deadline := steps_deadline steps
    have cancel : ctx.cancelRequested = armed.cancelRequested := by
      refine steps_invariant
        (P := fun other => other.cancelRequested = armed.cancelRequested) ?_ rfl
        steps
      intro before after same step
      rcases step_cancelRequested step with kept | ⟨_, _, impossible, _⟩
      · exact kept.trans same
      · exact impossible.elim
    rw [TickContext.stopping, TickContext.stopping, deadline, cancel]
  · intro id stage found terminal
    have named := stageId_of_stage? found
    have kept := steps_terminal steps (fun _ _ impossible => impossible.elim) (found_self found)
      terminal
    rwa [named] at kept
  · have rows : ∀ stage ∈ ctx.working.rows, stage.state = .succeeded →
        armed.stage? stage.stageId = some stage := by
      refine steps_stages steps (fun stage member _ => Table.find?_key member) ?_
      intro mid stage next _ _ _ change state
      exact absurd state (change_unsucceeded change)
    intro id stage found state
    have named := stageId_of_stage? found
    rw [← named]
    exact rows stage (Table.mem_of_find? found) state

section Loop

variable {armed ctx : TickContext}

def Decided (resolution : EdgeResolution) : Prop := resolution = .selected ∨ resolution = .waived

variable {edge : PipelineEdge}

theorem resolveIncomingEdge_succeeded {predecessor : StageSnapshot}
    (found : ctx.stage? edge.fromStageId = some predecessor)
    (state : predecessor.state = .succeeded) :
    resolveIncomingEdge ctx edge = resolveCondition ctx edge := by
  simp [resolveIncomingEdge, found, require, state, bind, Except.bind]

theorem resolveIncomingEdge_waived {predecessor : StageSnapshot} {definition : PipelineStage}
    (found : ctx.stage? edge.fromStageId = some predecessor) (state : predecessor.state = .failed)
    (defined : (stagesById ctx.graph).find? edge.fromStageId = some definition)
    (optional : definition.optional = true) :
    resolveIncomingEdge ctx edge = .ok (.waived, ctx) := by
  simp [resolveIncomingEdge, found, require, state, defined, optional, bind, Except.bind]

theorem resolveCondition_stable {resolution : EdgeResolution} {after : TickContext}
    (resolved : resolveCondition armed edge = .ok (resolution, after))
    (decided : Decided resolution) :
    after = armed ∧ ∀ ctx, Stable armed ctx →
      resolveCondition ctx edge = .ok (resolution, ctx) := by
  have undecided : ¬ Decided .pending := by
    rintro (impossible | impossible) <;> cases impossible
  unfold resolveCondition at resolved ⊢
  cases condition : edge.condition with
  | none =>
    rw [condition] at resolved
    cases resolved
    exact ⟨rfl, fun _ _ => rfl⟩
  | some kind =>
    rw [condition] at resolved
    cases kind with
    | expression expression =>
      dsimp only at resolved ⊢
      cases evaluated : evaluateExpressionCondition expression armed.input.canonicalState with
      | none =>
        rw [evaluated] at resolved
        cases resolved
      | some outcome =>
        have same : ∀ ctx, Stable armed ctx →
            evaluateExpressionCondition expression ctx.input.canonicalState =
              some outcome := by
          intro ctx stable
          rw [stable.input_eq, evaluated]
        rw [evaluated] at resolved
        cases outcome with
        | failure reason =>
          cases resolved
          rcases decided with impossible | impossible <;> cases impossible
        | ok value =>
          cases resolved
          refine ⟨rfl, fun ctx stable => ?_⟩
          rw [same ctx stable]
    | evaluator profile question =>
      dsimp only at resolved ⊢
      cases found : armed.evaluatorDecisions.find?
          (edgeKey edge.fromStageId edge.toStageId) with
      | none =>
        rw [found] at resolved
        dsimp only at resolved
        split at resolved
        · cases resolved
          exact absurd decided undecided
        split at resolved
        · cases resolved
          exact absurd decided undecided
        · obtain ⟨target, _, resolved⟩ := bind_eq_ok.mp resolved
          cases resolved
          exact absurd decided undecided
      | some decision =>
        rw [found] at resolved
        cases resolved
        refine ⟨rfl, fun ctx stable => ?_⟩
        rw [stable.answers_eq, found]

theorem resolveIncomingEdge_stable {resolution : EdgeResolution} {after : TickContext}
    (resolved : resolveIncomingEdge armed edge = .ok (resolution, after))
    (decided : Decided resolution) : after = armed ∧ ∀ ctx, Stable armed ctx →
      resolveIncomingEdge ctx edge = .ok (resolution, ctx) := by
  obtain ⟨predecessor, located, inspected⟩ := bind_eq_ok.mp resolved
  rw [require_eq_ok] at located
  split at inspected
  case h_1 =>
    cases inspected
    rcases decided with impossible | impossible <;> cases impossible
  case h_2 state =>
    obtain ⟨definition, defined, inspected⟩ := bind_eq_ok.mp inspected
    rw [require_eq_ok] at defined
    split at inspected
    · rename_i optional
      cases inspected
      refine ⟨rfl, fun ctx stable => ?_⟩
      have graph : ctx.graph = armed.graph := congrArg SchedulerInput.graph stable.input_eq
      exact resolveIncomingEdge_waived (stable.ended _ _ located (by rw [state]; rfl)) state
        (graph ▸ defined) optional
    · cases inspected
      rcases decided with impossible | impossible <;> cases impossible
  case h_3 =>
    split at inspected <;> cases inspected <;>
      rcases decided with impossible | impossible <;> cases impossible
  case h_4 state =>
    obtain ⟨same, stays⟩ := resolveCondition_stable inspected decided
    refine ⟨same, fun ctx stable => ?_⟩
    rw [resolveIncomingEdge_succeeded (stable.ended _ _ located (by rw [state]; rfl)) state]
    exact stays ctx stable
  case h_5 =>
    cases inspected
    rcases decided with impossible | impossible <;> cases impossible

theorem resolveEdges_stable {edges : List PipelineEdge} {resolutions : List EdgeResolution}
    {after : TickContext} (resolved : resolveEdges edges armed = .ok (resolutions, after))
    (decided : ∀ resolution ∈ resolutions, Decided resolution) :
    after = armed ∧ ∀ ctx, Stable armed ctx → resolveEdges edges ctx = .ok (resolutions, ctx) := by
  induction edges generalizing resolutions with
  | nil =>
    cases resolved
    exact ⟨rfl, fun _ _ => rfl⟩
  | cons edge edges ih =>
    obtain ⟨⟨resolution, mid⟩, first, rest⟩ := bind_eq_ok.mp resolved
    obtain ⟨⟨others, last⟩, second, built⟩ := bind_eq_ok.mp rest
    cases built
    obtain ⟨rfl, head⟩ := resolveIncomingEdge_stable first (decided resolution List.mem_cons_self)
    obtain ⟨same, tail⟩ := ih second fun other member =>
      decided other (List.mem_cons_of_mem resolution member)
    refine ⟨same, fun ctx stable => ?_⟩
    simp only [resolveEdges, head ctx stable, tail ctx stable, bind, Except.bind]

theorem mem_producedWrites {stageId write : String} :
    write ∈ producedWrites ctx stageId ↔
      ∃ stage ∈ ctx.graph.stages, stage.id ≠ stageId ∧ write ∈ stage.writes ∧
        ∃ projection, ctx.stage? stage.id = some projection ∧ projection.state = .succeeded := by
  rw [producedWrites, List.mem_flatMap]
  refine exists_congr fun stage => and_congr_right fun _ => ?_
  by_cases own : stage.id = stageId
  · simp [own]
  · cases found : ctx.stage? stage.id with
    | none => simp
    | some projection => by_cases state : projection.state = .succeeded <;> simp [state]

theorem unsatisfiedReads_stable (stable : Stable armed ctx) (definition : PipelineStage) :
    unsatisfiedReads ctx definition = unsatisfiedReads armed definition := by
  have graph : ctx.graph = armed.graph := congrArg SchedulerInput.graph stable.input_eq
  have writes : ∀ write, write ∈ producedWrites ctx definition.id ↔
      write ∈ producedWrites armed definition.id := by
    intro write
    rw [mem_producedWrites, mem_producedWrites, graph]
    refine exists_congr fun stage => and_congr_right fun _ => and_congr_right fun _ =>
      and_congr_right fun _ => exists_congr fun projection => ?_
    constructor
    · rintro ⟨found, state⟩
      exact ⟨stable.succeeded _ _ found state, state⟩
    · rintro ⟨found, state⟩
      exact ⟨stable.ended _ _ found (by rw [state]; rfl), state⟩
  unfold unsatisfiedReads
  simp only [graph, writes]

end Loop

/-- A pending stage whose incoming edges all resolve to selected or waived and whose reads are
there, in a tick that neither cancels nor is past its deadline. -/
structure Joins (armed : TickContext) (stage : StageSnapshot) (definition : PipelineStage)
    (resolutions : List EdgeResolution) : Prop where
  found : armed.stage? stage.stageId = some stage
  releasable : Releasable armed stage
  joined : incoming armed.graph stage.stageId ≠ []
  resolved : ∃ after, resolveEdges (incoming armed.graph stage.stageId) armed =
    .ok (resolutions, after)
  decided : ∀ resolution ∈ resolutions, Decided resolution
  defined : (stagesById armed.graph).find? stage.stageId = some definition
  supplied : unsatisfiedReads armed definition = none

def verdict (resolutions : List EdgeResolution) : StageState :=
  if .selected ∈ resolutions then .ready else .cancelled

def Settles (ctx : TickContext) (stageId : String) (state : StageState) : Prop :=
  ∃ next, ctx.stage? stageId = some next ∧ next.state = state

section Join

variable {armed ctx ctx' : TickContext} {stage : StageSnapshot} {definition : PipelineStage}
variable {resolutions : List EdgeResolution}

theorem settles_moveStage (ctx : TickContext) (stage : StageSnapshot) (toState : StageState)
    (reason : TransitionReason) (options : TransitionOptions) :
    Settles (moveStage ctx stage toState reason options) stage.stageId toState := by
  refine ⟨movedStage ctx.input.now stage toState reason options, ?_, rfl⟩
  rw [moveStage_stage?, if_pos rfl]

theorem settleRelease_join (joins : Joins armed stage definition resolutions)
    (stable : Stable armed ctx) (settled : settleRelease ctx stage resolutions = .ok ctx') :
    Settles ctx' stage.stageId (verdict resolutions) := by
  have graph : ctx.graph = armed.graph := congrArg SchedulerInput.graph stable.input_eq
  have resolvedAll : .pending ∉ resolutions := by
    intro member
    rcases joins.decided _ member with impossible | impossible <;> cases impossible
  have unblocked : resolutions.findSome? EdgeResolution.blockedReason? = none := by
    rw [List.findSome?_eq_none_iff]
    intro resolution member
    rcases joins.decided _ member with rfl | rfl <;> rfl
  rw [settleRelease, if_neg resolvedAll, unblocked] at settled
  dsimp only at settled
  unfold verdict
  split at settled
  · rename_i unchosen
    obtain ⟨_, rfl⟩ := applyTransition_eq_ok.mp settled
    rw [if_neg unchosen]
    exact settles_moveStage _ _ _ _ _
  · rename_i chosen
    rw [graph, joins.defined] at settled
    obtain ⟨_, defined, settled⟩ := bind_eq_ok.mp settled
    cases defined
    rw [unsatisfiedReads_stable stable, joins.supplied] at settled
    obtain ⟨_, rfl⟩ := applyTransition_eq_ok.mp settled
    rw [if_pos (not_not.mp chosen)]
    exact settles_moveStage _ _ _ _ _

theorem turn_join (joins : Joins armed stage definition resolutions) (stable : Stable armed ctx)
    (pending : ctx.stage? stage.stageId = some stage)
    (turn : maybeReleaseStage ctx stage.stageId = .ok ctx') :
    Settles ctx' stage.stageId (verdict resolutions) := by
  have graph : ctx.graph = armed.graph := congrArg SchedulerInput.graph stable.input_eq
  obtain ⟨after, resolved⟩ := joins.resolved
  obtain ⟨_, stays⟩ := resolveEdges_stable resolved joins.decided
  have going : ctx.stopping = false := stable.stopping_eq.trans joins.releasable.going
  unfold maybeReleaseStage at turn
  rw [pending] at turn
  obtain ⟨_, located, turn⟩ := bind_eq_ok.mp turn
  cases located
  rw [if_neg (by simp [joins.releasable.selected, joins.releasable.pending]), going] at turn
  simp only [Bool.false_eq_true, if_false] at turn
  split at turn
  · rename_i root
    rw [graph] at root
    exact absurd root joins.joined
  · rw [graph, stays ctx stable] at turn
    exact settleRelease_join joins stable turn

theorem settleRelease_cases (settled : settleRelease ctx stage resolutions = .ok ctx') :
    ctx' = ctx ∨ ∃ toState reason options, ctx' = moveStage ctx stage toState reason options := by
  have moved : ∀ {toState : StageState} {reason : TransitionReason} {options : TransitionOptions},
      applyTransition ctx stage toState reason options = .ok ctx' →
        ∃ toState reason options, ctx' = moveStage ctx stage toState reason options :=
    fun applied => ⟨_, _, _, (applyTransition_eq_ok.mp applied).2.symm⟩
  unfold settleRelease at settled
  split at settled
  · cases settled
    exact Or.inl rfl
  right
  split at settled
  · exact moved settled
  split at settled
  · exact moved settled
  obtain ⟨_, _, settled⟩ := bind_eq_ok.mp settled
  split at settled <;> exact moved settled

theorem turn_other {stageId id : String} (other : id ≠ stageId)
    (turn : maybeReleaseStage ctx stageId = .ok ctx') : ctx'.stage? id = ctx.stage? id := by
  rcases maybeReleaseStage_eq_ok turn with rfl | ⟨stage, found, _, ⟨_, applied⟩ | ⟨_, _, mid,
    resolved, settled⟩⟩
  · rfl
  · obtain ⟨_, rfl⟩ := applyTransition_eq_ok.mp applied
    rw [moveStage_stage?, if_neg (by rwa [stageId_of_stage? found])]
  · have asks := resolveEdges_asked resolved
    have working : mid.stage? id = ctx.stage? id := by
      rw [TickContext.stage?, asks.working_eq]
      rfl
    rcases settleRelease_cases settled with rfl | ⟨toState, reason, options, rfl⟩
    · exact working
    · rw [moveStage_stage?, if_neg (by rwa [stageId_of_stage? found]), working]

theorem turn_settled {stageId : String} {next : StageSnapshot}
    (found : ctx.stage? stageId = some next) (settled : next.state ≠ .pending)
    (turn : maybeReleaseStage ctx stageId = .ok ctx') : ctx' = ctx := by
  rcases maybeReleaseStage_eq_ok turn with same | ⟨stage, located, releasable, _⟩
  · exact same
  · rw [found] at located
    cases located
    exact absurd releasable.pending settled

theorem verdict_ne_pending (resolutions : List EdgeResolution) :
    verdict resolutions ≠ .pending := by
  unfold verdict
  split <;> nofun

variable [Sha256]

/-- At the end of the loop a join is released if one of its edges is selected, else cancelled. -/
theorem loop_join (joins : Joins armed stage definition resolutions) {fuel : Nat}
    (released : releaseLoop fuel armed = .ok ctx) :
    Settles ctx stage.stageId (verdict resolutions) := by
  have fate : (ctx.stage? stage.stageId = some stage ∨
      Settles ctx stage.stageId (verdict resolutions)) ∧ Steps Closed .quiet armed ctx := by
    refine steps_invariant (P := fun ctx => (ctx.stage? stage.stageId = some stage ∨
      Settles ctx stage.stageId (verdict resolutions)) ∧ Steps Closed .quiet armed ctx) ?_
      ⟨Or.inl joins.found, Relation.ReflTransGen.refl⟩ (releaseLoop_turns released)
    rintro before after ⟨fate, steps⟩ ⟨stageId, turn⟩
    refine ⟨?_, steps.trans (turn_steps ⟨stageId, turn⟩)⟩
    by_cases own : stage.stageId = stageId
    · subst own
      rcases fate with pending | ⟨next, found, state⟩
      · exact Or.inr (turn_join joins (steps_stable steps) pending turn)
      · have settled : next.state ≠ .pending := by
          rw [state]
          exact verdict_ne_pending resolutions
        rw [turn_settled found settled turn]
        exact Or.inr ⟨next, found, state⟩
    · have kept := turn_other own turn
      unfold Settles
      rw [kept]
      exact fate
  rcases fate with ⟨pending | settles, steps⟩
  · have key : stage.stageId ∈ ctx.working.keys := by
      rw [← Table.find?_isSome, ← TickContext.stage?, pending]
      rfl
    exact turn_join joins (steps_stable steps) pending (releaseLoop_fixed released _ key)
  · exact settles

end Join

/-- The tick up to its release loop. -/
def armedContext [Sha256] (ctx : TickContext) : Tick TickContext := do
  let observed ← (sortObservations ctx.input.observations).foldlM processObservation ctx
  let cut ← cancelPass observed
  rearmRetries cut (retryingStageIds ctx)

/-- The stage leaves the tick ready, or queued after it was ready. -/
def Released (tick : TickRecord) (stageId : String) : Prop :=
  ∃ patch ∈ tick.plan.stagePatches, patch.stageId = stageId ∧
    (patch.state = .ready ∨ patch.state = .queued)

section Ticks

variable [Sha256] {tick : TickRecord} {ctx armed settled : TickContext} {stage : StageSnapshot}
variable {definition : PipelineStage} {resolutions : List EdgeResolution}

theorem runPhases_armed (prepared : armedContext ctx = .ok armed)
    (ran : runPhases ctx = .ok settled) :
    ∃ released queued, releaseLoop (releaseFuel armed) armed = .ok released ∧
      queueReadyStages released = .ok queued ∧ cancelPass queued = .ok settled := by
  obtain ⟨observed, processed, cutting⟩ := bind_eq_ok.mp ran
  obtain ⟨cut, passed, arming⟩ := bind_eq_ok.mp cutting
  obtain ⟨again, rearmed, releasing⟩ := bind_eq_ok.mp arming
  have same : armedContext ctx = .ok again :=
    bind_eq_ok.mpr ⟨observed, processed, bind_eq_ok.mpr ⟨cut, passed, rearmed⟩⟩
  rw [prepared] at same
  rw [← Except.ok.inj same] at releasing
  obtain ⟨released, looped, queueing⟩ := bind_eq_ok.mp releasing
  obtain ⟨queued, loop, last⟩ := bind_eq_ok.mp queueing
  exact ⟨released, queued, looped, loop, last⟩

theorem change_ready {scope : Scope} {next : StageSnapshot}
    (change : Change Closed scope ctx stage next) (going : ctx.stopping = false)
    (ready : stage.state = .ready ∨ stage.state = .queued) :
    next.state = .ready ∨ next.state = .queued := by
  cases change with
  | observed _ _ _ _ admitted => exact admitted.elim
  | recovered _ _ _ _ _ _ admitted => exact admitted.elim
  | phased _ _ _ cause =>
    cases cause with
    | cancelInactive stopping =>
      rw [going] at stopping
      cases stopping
    | releaseBlocked _ releasable =>
      rw [releasable.pending] at ready
      rcases ready with impossible | impossible <;> cases impossible
    | releaseDeselected releasable =>
      rw [releasable.pending] at ready
      rcases ready with impossible | impossible <;> cases impossible
    | _ => exact Or.inl rfl
  | rerun _ _ admitted => exact admitted.elim
  | queued => exact Or.inr rfl

/-- A pending stage whose incoming edges all resolve to selected or waived is released exactly when
one of them is selected. -/
theorem join_released_iff (trace : Trace tick) (prepared : armedContext trace.start = .ok armed)
    (joins : Joins armed stage definition resolutions) :
    Released tick stage.stageId ↔ .selected ∈ resolutions := by
  obtain ⟨released, queued, looped, loop, last⟩ := runPhases_armed prepared trace.phases
  obtain ⟨next, found, state⟩ := loop_join joins looped
  have first : Steps Closed .quiet armed released := releaseLoop_steps rfl looped
  have going : released.stopping = false :=
    (steps_stable first).stopping_eq.trans joins.releasable.going
  have queueing : Steps Closed ⟨[], true, true⟩ released queued := queueLoop_steps rfl loop
  have stable := steps_stable queueing
  have settled : queued = trace.settled := by
    rw [cancelPass, stable.stopping_eq, going] at last
    exact Except.ok.inj last
  rw [settled] at queueing stable
  have rows : ∀ {patch : StageSnapshot}, patch ∈ tick.plan.stagePatches ↔
      patch ∈ trace.settled.working.rows := by
    intro patch
    rw [trace.stagePatches_perm.mem_iff, trace.final_working]
  have named : next.stageId = stage.stageId := stageId_of_stage? found
  unfold verdict at state
  constructor
  · rintro ⟨patch, member, same, ready⟩
    by_contra unchosen
    rw [if_neg unchosen] at state
    have kept : trace.settled.stage? stage.stageId = some next :=
      stable.ended _ _ found (by rw [state]; rfl)
    have here : trace.settled.stage? stage.stageId = some patch := by
      rw [← same]
      exact Table.find?_key (rows.mp member)
    rw [kept] at here
    rw [← Option.some.inj here, state] at ready
    rcases ready with impossible | impossible <;> cases impossible
  · intro chosen
    rw [if_pos chosen] at state
    have ready : ∀ row ∈ trace.settled.working.rows, row.stageId = stage.stageId →
        row.state = .ready ∨ row.state = .queued := by
      refine steps_stages queueing ?_ ?_
      · intro row member same
        have here : released.stage? stage.stageId = some row := by
          rw [← same]
          exact Table.find?_key member
        rw [found] at here
        rw [← Option.some.inj here]
        exact Or.inl state
      · intro mid row changed before _ kept change same
        have unstopped : mid.stopping = false := (steps_stable before).stopping_eq.trans going
        exact change_ready change unstopped (kept (change.stageId_eq ▸ same))
    have key : stage.stageId ∈ trace.settled.working.keys := by
      rw [steps_keys queueing, ← named]
      exact Table.mem_keys_of_mem (Table.mem_of_find? found)
    obtain ⟨row, located⟩ := Table.exists_find? key
    have member := Table.mem_of_find? located
    exact ⟨row, rows.mpr member, Table.key_of_find? located,
      ready row member (Table.key_of_find? located)⟩

/-- What the join rule owes such a stage. -/
def ReleasesJoins (tick : TickRecord) : Prop :=
  ∀ (trace : Trace tick) armed stage definition resolutions,
    armedContext trace.start = .ok armed → Joins armed stage definition resolutions →
      Released tick stage.stageId

/-- The stage joins, with these resolutions, where the release loop of the call starts. -/
def joinsAt (input : SchedulerInput) (stageId : String)
    (resolutions : List EdgeResolution) : Bool :=
  match createTickContext input (inferredV2 input) >>= armedContext with
  | .error _ => false
  | .ok armed =>
    match armed.stage? stageId, (stagesById armed.graph).find? stageId,
      resolveEdges (incoming armed.graph stageId) armed with
    | some stage, some definition, .ok (resolved, _) =>
      decide (stage.state = .pending) && stage.selected && !armed.stopping &&
        !(incoming armed.graph stageId).isEmpty && decide (resolved = resolutions) &&
        (resolved.all fun resolution =>
          decide (resolution = .selected) || decide (resolution = .waived)) &&
        (unsatisfiedReads armed definition).isNone
    | _, _, _ => false

theorem joins_of_joinsAt {stageId : String}
    (ticked : (tickScheduler tick.input).toOption = some tick.plan)
    (check : joinsAt tick.input stageId resolutions = true) :
    ∃ (trace : Trace tick) (armed : TickContext) (stage : StageSnapshot)
      (definition : PipelineStage), stage.stageId = stageId ∧
        armedContext trace.start = .ok armed ∧ Joins armed stage definition resolutions := by
  obtain ⟨input, plan⟩ := tick
  have planned : tickScheduler input = .ok plan := by
    cases result : tickScheduler input with
    | error error =>
      rw [result] at ticked
      cases ticked
    | ok other =>
      rw [result] at ticked
      rw [Option.some.inj ticked]
  obtain ⟨⟨final, same⟩, ran, rfl⟩ := map_eq_ok.mp planned
  obtain ⟨start, settled, created, phases, computed, recorded, shape⟩ := trace_of_tickWith ran
  let trace : Trace ⟨input, same⟩ := ⟨input, _, start, settled, final, ⟨input.schemaVersion, rfl⟩,
    created, phases, computed, recorded, congrArg _ shape, congrArg _ shape, congrArg _ shape,
    congrArg _ shape, congrArg _ shape, congrArg _ shape, congrArg _ shape, congrArg _ shape⟩
  unfold joinsAt at check
  split at check
  · cases check
  rename_i armed reached
  obtain ⟨_, again, prepared⟩ := bind_eq_ok.mp reached
  rw [show createTickContext input (inferredV2 input) = .ok start from created] at again
  cases again
  split at check
  · rename_i stage definition resolved after found defined resolves
    simp only [Bool.and_eq_true, Bool.not_eq_eq_eq_not, Bool.not_true, decide_eq_true_eq,
      List.all_eq_true, Bool.or_eq_true, List.isEmpty_eq_false_iff, Option.isNone_iff_eq_none]
      at check
    obtain ⟨⟨⟨⟨⟨⟨pending, selected⟩, going⟩, joined⟩, rfl⟩, decided⟩, supplied⟩ := check
    have named := stageId_of_stage? found
    subst named
    exact ⟨trace, armed, stage, definition, rfl, prepared, found,
      ⟨pending, selected, going⟩, joined,
      ⟨after, resolves⟩, decided, defined, supplied⟩
  · cases check

end Ticks

def probed : PipelineGraph where
  mode := .autonomous
  stages :=
    [{ id := "build", type := .agent, mode := .autonomous, optional := false },
      { id := "probe", type := .agent, mode := .autonomous, optional := true },
      { id := "ship", type := .publish, mode := .autonomous, optional := false }]
  edges :=
    [{ fromStageId := "build", toStageId := "ship" },
      { fromStageId := "probe", toStageId := "ship" }]

def probedOnly : PipelineGraph where
  mode := .autonomous
  stages :=
    [{ id := "probe", type := .agent, mode := .autonomous, optional := true },
      { id := "ship", type := .publish, mode := .autonomous, optional := false }]
  edges := [{ fromStageId := "probe", toStageId := "ship" }]

def probeFails (others : List SchedulerObservation) : Call where
  now := "t1"
  observations := others ++
    [stageObservation "o1" "probe" "t1" .attemptStarted,
      stageObservation "o2" "probe" "t1" .attemptFailed]

def joinTicks : List TickRecord :=
  @drive blankDigest
    [probeFails [stageObservation "a1" "build" "t1" .attemptStarted,
      stageObservation "a2" "build" "t1" .attemptSucceeded]]
    (initialInput probed "run" "pipeline" "t0")

def withheldTicks : List TickRecord :=
  @drive blankDigest [probeFails []] (initialInput probedOnly "run" "pipeline" "t0")

theorem join_released_iff_sample :
    ∃ tick ∈ joinTicks, Released tick "ship" := by
  let _ : Sha256 := blankDigest
  have facts : (joinTicks.any fun tick =>
      decide ((tickScheduler tick.input).toOption = some tick.plan) &&
        joinsAt tick.input "ship" [.selected, .waived]) = true := by decide +kernel
  simp only [List.any_eq_true, Bool.and_eq_true, decide_eq_true_eq] at facts
  obtain ⟨tick, member, ticked, check⟩ := facts
  obtain ⟨trace, armed, stage, definition, named, prepared, joins⟩ := joins_of_joinsAt ticked check
  refine ⟨tick, member, ?_⟩
  rw [← named]
  exact (join_released_iff trace prepared joins).mpr List.mem_cons_self

theorem join_withheld :
    ¬ ∀ [Sha256] (ticks : List TickRecord), FullRun ticks → ∀ tick ∈ ticks, ReleasesJoins tick := by
  intro claim
  let _ : Sha256 := blankDigest
  have run : FullRun withheldTicks :=
    drive_fullRun (initialInput_starts _ _ _ _) (by decide +kernel)
  have facts : (withheldTicks.any fun tick =>
      decide ((tickScheduler tick.input).toOption = some tick.plan) &&
        joinsAt tick.input "ship" [.waived] &&
        tick.plan.stagePatches.all fun patch => decide (patch.stageId = "ship" →
          patch.state = .cancelled)) = true := by decide +kernel
  simp only [List.any_eq_true, Bool.and_eq_true, decide_eq_true_eq, List.all_eq_true] at facts
  obtain ⟨tick, member, ⟨ticked, check⟩, cancelled⟩ := facts
  obtain ⟨trace, armed, stage, definition, named, prepared, joins⟩ := joins_of_joinsAt ticked check
  obtain ⟨patch, listed, same, ready⟩ :=
    claim withheldTicks run tick member trace armed stage definition _ prepared joins
  rw [cancelled patch listed (same.trans named)] at ready
  rcases ready with impossible | impossible <;> cases impossible

end Heniek.OptionalFailures
