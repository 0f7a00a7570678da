import Heniek.StageChanges

/-!
The release loop. A sweep either leaves the tick as it is or adds a transition or
an evaluator intent, so the loop's progress test misses nothing and the loop ends
in a fixpoint. What it adds is bounded by the pending stages and the edges whose
evaluator has not been asked, so the loop ends.

`Awaits` says why a stage stays pending at the fixpoint: one of its incoming
edges has a predecessor that is not done, or an evaluator that has not answered.
-/

namespace Heniek.SchedulerRelease
open KeyedTable PipelineVocabulary PipelineDocument SchedulerTick SchedulerSteps
open ScriptText FallibleRun

/-- What the loop can still do: release a pending stage or ask an evaluator. -/
def remaining (ctx : TickContext) : Nat :=
  (ctx.working.rows.countP fun stage => decide (stage.state = .pending)) +
    ctx.graph.edges.countP fun edge => !asked ctx edge

/-- A stretch of the loop: nothing, or progress paid for by what remains. -/
def Progressed (ctx ctx' : TickContext) : Prop :=
  ctx' = ctx ∨
    progressCount ctx < progressCount ctx' ∧
      progressCount ctx' + remaining ctx' ≤ progressCount ctx + remaining ctx

section

variable {ctx mid ctx' : TickContext} {stage : StageSnapshot} {edge : PipelineEdge}

theorem Progressed.grows (progress : Progressed ctx ctx') :
    ctx' = ctx ∨ progressCount ctx < progressCount ctx' :=
  progress.imp id And.left

theorem Progressed.le (progress : Progressed ctx ctx') :
    progressCount ctx ≤ progressCount ctx' ∧
      progressCount ctx' + remaining ctx' ≤ progressCount ctx + remaining ctx := by
  rcases progress with rfl | ⟨grown, paid⟩
  · exact ⟨le_rfl, le_rfl⟩
  · exact ⟨grown.le, paid⟩

theorem Progressed.trans (first : Progressed ctx mid) (second : Progressed mid ctx') :
    Progressed ctx ctx' := by
  rcases first with rfl | ⟨grown, paid⟩
  · exact second
  · have later := second.le
    exact Or.inr ⟨by omega, by omega⟩

theorem countP_edges_lt {edges : List PipelineEdge} {p q : PipelineEdge → Bool}
    (fewer : ∀ edge, q edge = true → p edge = true) (member : edge ∈ edges) (was : p edge = true)
    (now : q edge = false) : edges.countP q < edges.countP p := by
  obtain ⟨left, right, rfl⟩ := List.append_of_mem member
  have before : left.countP q ≤ left.countP p := List.countP_mono_left fun edge _ => fewer edge
  have after : right.countP q ≤ right.countP p := List.countP_mono_left fun edge _ => fewer edge
  simp only [List.countP_append, List.countP_cons, was, now, if_true, Bool.false_eq_true, if_false]
  omega

theorem asked_requestEvaluator {profile question : String} {target : StageSnapshot}
    (other : PipelineEdge) :
    asked (requestEvaluator ctx edge profile question target) other =
      (asked ctx other || decide (evaluatorIntentId ctx edge = evaluatorIntentId ctx other)) := by
  simp only [asked, requestEvaluator, recordDecision, List.any_append, List.any_cons, List.any_nil,
    Bool.or_false]
  rfl

theorem progressed_requestEvaluator (profile question : String) (target : StageSnapshot)
    (member : edge ∈ ctx.graph.edges) (fresh : asked ctx edge = false) :
    Progressed ctx (requestEvaluator ctx edge profile question target) := by
  have transitions : (requestEvaluator ctx edge profile question target).transitions =
      ctx.transitions := rfl
  have intents : (requestEvaluator ctx edge profile question target).intents.length =
      ctx.intents.length + 1 := List.length_append
  have fewer : (ctx.graph.edges.countP fun other =>
        !asked (requestEvaluator ctx edge profile question target) other) <
      ctx.graph.edges.countP fun other => !asked ctx other := by
    refine countP_edges_lt ?_ member (by rw [fresh]; rfl) ?_
    · intro other
      rw [asked_requestEvaluator]
      cases asked ctx other <;> simp
    · rw [asked_requestEvaluator]
      simp
  have working : (requestEvaluator ctx edge profile question target).working = ctx.working := rfl
  have graph : (requestEvaluator ctx edge profile question target).graph = ctx.graph := rfl
  right
  unfold progressCount remaining
  rw [transitions, working, graph]
  omega

theorem progressed_release {toState : StageState} {reason : TransitionReason}
    {options : TransitionOptions} (found : ctx.stage? stage.stageId = some stage)
    (pending : stage.state = .pending)
    (applied : applyTransition ctx stage toState reason options = .ok ctx')
    (leaves : toState ≠ .pending) :
    Progressed ctx ctx' ∧ progressCount ctx < progressCount ctx' := by
  obtain ⟨_, rfl⟩ := applyTransition_eq_ok.mp applied
  have transitions : (moveStage ctx stage toState reason options).transitions.length =
      ctx.transitions.length + 1 := List.length_append
  have intents : (moveStage ctx stage toState reason options).intents = ctx.intents := rfl
  have same : stage.stageId =
      (movedStage ctx.input.now stage toState reason options).stageId := rfl
  have rows := Table.countP_upsert (fun stage : StageSnapshot => decide (stage.state = .pending))
    (Table.mem_of_find? found) same
  have moved : (movedStage ctx.input.now stage toState reason options).state = toState := rfl
  simp only [pending, moved, leaves, decide_true, decide_false, if_true, Bool.false_eq_true,
    if_false] at rows
  have edges : (moveStage ctx stage toState reason options).graph.edges.countP
        (fun edge => !asked (moveStage ctx stage toState reason options) edge) =
      ctx.graph.edges.countP fun edge => !asked ctx edge := rfl
  have working : (moveStage ctx stage toState reason options).working =
      ctx.working.upsert (movedStage ctx.input.now stage toState reason options) := rfl
  have grown : progressCount ctx < progressCount (moveStage ctx stage toState reason options) := by
    unfold progressCount
    rw [transitions, intents]
    omega
  refine ⟨Or.inr ⟨grown, ?_⟩, grown⟩
  unfold progressCount remaining
  rw [transitions, intents, edges, working]
  omega

theorem progressed_resolveIncomingEdge {resolution : EdgeResolution}
    (member : edge ∈ ctx.graph.edges)
    (resolved : resolveIncomingEdge ctx edge = .ok (resolution, ctx')) :
    Progressed ctx ctx' := by
  cases resolveIncomingEdge_eq_ok resolved with
  | decided => exact Or.inl rfl
  | held => exact Or.inl rfl
  | requested profile question target asks =>
    exact progressed_requestEvaluator profile question target member asks.fresh

theorem awaits_of_unchanged (resolved : EdgeResolved ctx edge .pending ctx') (same : ctx' = ctx) :
    Awaits ctx edge := by
  cases resolved with
  | decided _ known => exact absurd rfl known
  | held awaits => exact awaits
  | requested profile question target =>
    have longer := congrArg (fun other => other.intents.length) same
    simp [requestEvaluator, recordDecision] at longer

theorem progressed_resolveEdges {edges : List PipelineEdge} {resolutions : List EdgeResolution}
    (members : ∀ edge ∈ edges, edge ∈ ctx.graph.edges)
    (resolved : resolveEdges edges ctx = .ok (resolutions, ctx')) :
    Progressed ctx ctx' ∧
      (ctx' = ctx → .pending ∈ resolutions → ∃ edge ∈ edges, Awaits ctx edge) := by
  induction edges generalizing ctx resolutions with
  | nil =>
    cases resolved
    exact ⟨Or.inl rfl, by simp⟩
  | cons edge edges ih =>
    obtain ⟨⟨resolution, mid⟩, first, resolved⟩ := bind_eq_ok.mp resolved
    obtain ⟨⟨others, last⟩, rest, resolved⟩ := bind_eq_ok.mp resolved
    cases resolved
    have progress := progressed_resolveIncomingEdge (members edge List.mem_cons_self) first
    have leaves := resolveIncomingEdge_asked first
    have remain : ∀ other ∈ edges, other ∈ mid.graph.edges := by
      intro other listed
      rw [TickContext.graph, leaves.input_eq]
      exact members other (List.mem_cons_of_mem edge listed)
    obtain ⟨onward, awaits⟩ := ih remain rest
    refine ⟨progress.trans onward, ?_⟩
    rintro rfl held
    have unchanged : mid = ctx' := by
      have bound := onward.le
      exact progress.grows.resolve_right (by omega)
    subst unchanged
    rcases List.mem_cons.mp held with rfl | listed
    · refine ⟨edge, List.mem_cons_self, ?_⟩
      exact awaits_of_unchanged (resolveIncomingEdge_eq_ok first) rfl
    · obtain ⟨other, member, waiting⟩ := awaits rfl listed
      exact ⟨other, List.mem_cons_of_mem edge member, waiting⟩

theorem progressed_settleRelease {resolutions : List EdgeResolution}
    (found : ctx.stage? stage.stageId = some stage) (pending : stage.state = .pending)
    (settled : settleRelease ctx stage resolutions = .ok ctx') :
    Progressed ctx ctx' ∧ (.pending ∉ resolutions → progressCount ctx < progressCount ctx') := by
  unfold settleRelease at settled
  split at settled
  · rename_i held
    cases settled
    exact ⟨Or.inl rfl, fun free => absurd held free⟩
  have moved : Progressed ctx ctx' ∧ progressCount ctx < progressCount ctx' := by
    split at settled
    · exact progressed_release found pending settled (by rintro ⟨⟩)
    split at settled
    · exact progressed_release found pending settled (by rintro ⟨⟩)
    obtain ⟨definition, _, settled⟩ := bind_eq_ok.mp settled
    split at settled
    · exact progressed_release found pending settled (by rintro ⟨⟩)
    · exact progressed_release found pending settled (by rintro ⟨⟩)
  exact ⟨moved.1, fun _ => moved.2⟩

theorem progressed_maybeReleaseStage {stageId : String}
    (released : maybeReleaseStage ctx stageId = .ok ctx') :
    Progressed ctx ctx' ∧
      (ctx' = ctx → ctx.stopping = false → ∀ stage, ctx.stage? stageId = some stage →
        stage.selected = true → stage.state = .pending →
          ∃ edge ∈ incoming ctx.graph stageId, Awaits ctx edge) := by
  obtain ⟨stage, located, released⟩ := bind_eq_ok.mp released
  rw [require_eq_ok] at located
  have found := found_self located
  split at released
  · rename_i skipped
    cases released
    refine ⟨Or.inl rfl, ?_⟩
    intro _ _ other same selected pending
    rw [located] at same
    cases same
    rcases skipped with deselected | moved
    · rw [selected] at deselected
      cases deselected
    · exact absurd pending moved
  rename_i candidate
  rw [not_or, not_not] at candidate
  split at released
  · rename_i stopping
    cases released
    refine ⟨Or.inl rfl, ?_⟩
    intro _ going
    rw [stopping] at going
    cases going
  split at released
  · obtain ⟨progress, grown⟩ := progressed_release found candidate.2 released nofun
    refine ⟨progress, ?_⟩
    rintro rfl
    omega
  · obtain ⟨⟨resolutions, mid⟩, resolved, settled⟩ := bind_eq_ok.mp released
    obtain ⟨asking, awaits⟩ := progressed_resolveEdges
      (fun edge member => (List.mem_filter.mp member).1) resolved
    have leaves := resolveEdges_asked resolved
    have still : mid.stage? stage.stageId = some stage := by
      rw [TickContext.stage?, leaves.working_eq]
      exact found
    obtain ⟨settling, moves⟩ := progressed_settleRelease still candidate.2 settled
    refine ⟨asking.trans settling, ?_⟩
    rintro rfl _ other same _ _
    have first := asking.le
    have second := settling.le
    have unmoved : mid = ctx' := asking.grows.resolve_right (by omega)
    refine awaits unmoved ?_
    by_contra free
    have := moves free
    omega

theorem progressed_releaseSweep (swept : releaseSweep ctx = .ok ctx') : Progressed ctx ctx' := by
  refine foldlM_invariant (P := Progressed ctx) ?_ (Or.inl rfl) swept
  intro stageId _ mid after progress released
  exact progress.trans (progressed_maybeReleaseStage released).1

/-- The loop ends in a context that a further turn for any stage leaves as it is. -/
theorem releaseLoop_fixed {fuel : Nat} (released : releaseLoop fuel ctx = .ok ctx') :
    ∀ stageId ∈ ctx'.working.keys, maybeReleaseStage ctx' stageId = .ok ctx' := by
  induction fuel generalizing ctx with
  | zero => cases released
  | succ fuel ih =>
    obtain ⟨swept, sweep, released⟩ := bind_eq_ok.mp released
    split at released
    · exact ih released
    · rename_i still
      cases released
      obtain ⟨same, fixed⟩ := foldlM_fixed
        (fun _ _ _ _ turn => (progressed_maybeReleaseStage turn).1.grows) sweep (not_lt.mp still)
      intro stageId listed
      rw [same] at listed ⊢
      exact fixed stageId (mem_sortTexts.mpr listed)

theorem remaining_lt_releaseFuel (ctx : TickContext) : remaining ctx < releaseFuel ctx := by
  have rows := List.countP_le_length (l := ctx.working.rows)
    (p := fun stage : StageSnapshot => decide (stage.state = .pending))
  have edges := List.countP_le_length (l := ctx.graph.edges) (p := fun edge => !asked ctx edge)
  unfold remaining releaseFuel
  omega

end

end Heniek.SchedulerRelease
