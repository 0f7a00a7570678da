import Heniek.GraphValidation
import Heniek.OptionalFailures

/-!
The reads of a released stage. A pending stage becomes ready in the release loop
and nowhere else in a tick. There a read counts as missing only when another
stage writes the very same reference; a read that is covered by a prefix, which
the validator accepts, is not looked at.
-/

namespace Heniek.ReadAvailability
open KeyedTable PipelineVocabulary PipelineDocument RecoveryPolicy
open SchedulerTick SchedulerSteps StageChanges SchedulerRun CancellationRuns
open OptionalFailures GraphValidation FallibleRun ScriptText

def Releases (transition : StageTransition) : Prop :=
  transition.fromState = .pending ∧ transition.toState = .ready

def Quiet (ctx ctx' : TickContext) : Prop :=
  ∀ transition ∈ ctx'.transitions, Releases transition → transition ∈ ctx.transitions

section Quiet

variable {ctx mid ctx' : TickContext} {stage : StageSnapshot} {observation : SchedulerObservation}

theorem Quiet.refl (ctx : TickContext) : Quiet ctx ctx := fun _ member _ => member

theorem Quiet.trans (first : Quiet ctx mid) (second : Quiet mid ctx') : Quiet ctx ctx' :=
  fun transition member releases => first transition (second transition member releases) releases

theorem quiet_of_eq (same : ctx'.transitions = ctx.transitions) : Quiet ctx ctx' :=
  fun _ member _ => same ▸ member

theorem quiet_ok (same : (.ok ctx : Tick TickContext) = .ok ctx') : Quiet ctx ctx' := by
  cases same
  exact Quiet.refl ctx

theorem quiet_applyTransition {toState : StageState} {reason : TransitionReason}
    {options : TransitionOptions}
    (applied : applyTransition mid stage toState reason options = .ok ctx')
    (kept : mid.transitions = ctx.transitions)
    (other : toState ≠ .ready ∨ stage.state ≠ .pending) : Quiet ctx ctx' := by
  obtain ⟨_, rfl⟩ := applyTransition_eq_ok.mp applied
  intro transition member releases
  rcases List.mem_append.mp (show transition ∈ mid.transitions ++ [_] from member) with old | added
  · exact kept ▸ old
  · rw [List.mem_singleton.mp added] at releases
    exact other.elim (absurd releases.2) (absurd releases.1)

theorem quiet_foldlM {α : Type} {f : TickContext → α → Tick TickContext} {l : List α}
    (each : ∀ a before after, f before a = .ok after → Quiet before after)
    (ran : l.foldlM f ctx = .ok ctx') : Quiet ctx ctx' := by
  induction l generalizing ctx with
  | nil => exact quiet_ok ran
  | cons a l ih =>
    obtain ⟨mid, first, rest⟩ := foldlM_cons_eq_ok.mp ran
    exact (each a ctx mid first).trans (ih rest)

theorem touch_transitions (ctx : TickContext) (stage : StageSnapshot) :
    (getRecoveryCounters ctx stage).2.transitions = ctx.transitions := by
  rcases touch_cases ctx stage with same | ⟨_, created⟩
  · rw [same]
  · rw [created]
    rfl

theorem verdictState_ne_ready (verdict : RecoveryVerdict) : verdictState verdict ≠ .ready := by
  cases verdict <;> nofun

theorem quiet_processAttemptFailed [Sha256]
    (processed : processAttemptFailed ctx stage observation = .ok ctx') : Quiet ctx ctx' := by
  unfold processAttemptFailed at processed
  split at processed
  · exact quiet_ok processed
  obtain ⟨definition, _, processed⟩ := bind_eq_ok.mp processed
  split at processed
  · obtain ⟨options, _, same⟩ := applyRecoveryDecision_eq (getRecoveryCounters ctx stage).2 stage
      observation _
    rw [same] at processed
    exact quiet_applyTransition processed (touch_transitions ctx stage)
      (Or.inl (verdictState_ne_ready _))
  · unfold processUnclassifiedFailure at processed
    simp only at processed
    split at processed <;> exact quiet_applyTransition processed rfl (Or.inl (by rintro ⟨⟩))

theorem quiet_processRecoveryApproved
    (processed : processRecoveryApproved ctx stage observation = .ok ctx') : Quiet ctx ctx' := by
  unfold processRecoveryApproved at processed
  split at processed
  · exact quiet_ok processed
  have touched : Quiet ctx (getRecoveryCounters ctx stage).2 :=
    quiet_of_eq (touch_transitions ctx stage)
  simp only at processed
  split at processed
  · exact touched.trans (quiet_ok processed)
  split at processed
  · exact touched.trans (quiet_ok processed)
  · obtain ⟨definition, _, processed⟩ := bind_eq_ok.mp processed
    exact touched.trans (quiet_applyTransition processed rfl (Or.inl (by rintro ⟨⟩)))

theorem quiet_processRecoveryRejected
    (processed : processRecoveryRejected ctx stage observation = .ok ctx') : Quiet ctx ctx' := by
  unfold processRecoveryRejected at processed
  split at processed
  · exact quiet_ok processed
  have touched : Quiet ctx (getRecoveryCounters ctx stage).2 :=
    quiet_of_eq (touch_transitions ctx stage)
  simp only at processed
  split at processed
  · exact touched.trans (quiet_ok processed)
  · obtain ⟨definition, _, processed⟩ := bind_eq_ok.mp processed
    exact touched.trans (quiet_applyTransition processed rfl (Or.inl (by rintro ⟨⟩)))

theorem quiet_processStageObservation [Sha256]
    (processed : processStageObservation ctx stage observation = .ok ctx') : Quiet ctx ctx' := by
  simp only [processStageObservation] at processed
  split at processed
  case h_4 => exact quiet_processAttemptFailed processed
  case h_5 => exact quiet_processRecoveryApproved processed
  case h_6 => exact quiet_processRecoveryRejected processed
  case h_8 => exact quiet_ok processed
  all_goals
    split at processed
    · exact quiet_applyTransition processed rfl (Or.inl (by rintro ⟨⟩))
    · exact quiet_ok processed

theorem quiet_rerunTarget {targetId : String} (processed : rerunTarget ctx targetId = .ok ctx') :
    Quiet ctx ctx' := by
  rcases rerunTarget_eq_ok processed with rfl | ⟨stage, _, _, rfl⟩
  · exact Quiet.refl ctx'
  intro transition member releases
  rcases List.mem_append.mp (show transition ∈ ctx.transitions ++ _ from member) with old | added
  · exact old
  · split at added
    · rw [List.mem_singleton.mp added] at releases
      exact absurd releases.2 nofun
    · cases added

theorem quiet_processObservation [Sha256]
    (processed : processObservation ctx observation = .ok ctx') : Quiet ctx ctx' := by
  have consumed : Quiet ctx (consumeObservation ctx observation) := quiet_of_eq rfl
  refine consumed.trans ?_
  simp only [processObservation] at processed
  split at processed
  · cases processed
    exact quiet_of_eq rfl
  · split at processed
    · unfold processManualRerun at processed
      split at processed
      · exact quiet_ok processed
      · exact quiet_foldlM (fun _ _ _ => quiet_rerunTarget) processed
    · exact quiet_ok processed
  · split at processed
    · cases processed
      exact quiet_of_eq rfl
    · exact quiet_ok processed
  · split at processed
    · exact quiet_processStageObservation processed
    · exact quiet_ok processed

theorem quiet_cancelPass (passed : cancelPass ctx = .ok ctx') : Quiet ctx ctx' := by
  unfold cancelPass at passed
  split at passed
  · refine quiet_foldlM ?_ passed
    intro stageId before after cancelled
    obtain ⟨stage, mid, current, _, halted, _, requested⟩ := cancelStage_eq_ok cancelled
    have first : Quiet before mid := by
      rcases halted with ⟨inactive, rfl⟩ | ⟨_, rfl⟩
      · intro transition member releases
        rcases List.mem_append.mp (show transition ∈ before.transitions ++ [_] from member)
          with old | added
        · exact old
        · rw [List.mem_singleton.mp added] at releases
          exact absurd releases.2 nofun
      · exact Quiet.refl mid
    rcases requested with rfl | ⟨_, _, rfl⟩
    · exact first
    · exact first.trans (quiet_of_eq rfl)
  · exact quiet_ok passed

theorem quiet_rearmRetries {retrying : List String}
    (rearmed : rearmRetries ctx retrying = .ok ctx') : Quiet ctx ctx' := by
  refine quiet_foldlM ?_ rearmed
  intro stageId before after rearmed
  obtain ⟨stage, _, rearmed⟩ := bind_eq_ok.mp rearmed
  split at rearmed
  · exact quiet_ok rearmed
  rename_i state
  rw [not_not] at state
  split at rearmed
  · exact quiet_ok rearmed
  · exact quiet_applyTransition rearmed rfl (Or.inr (by rw [state]; nofun))

theorem quiet_queueLoop {stageIds : List String} {inFlight : Nat}
    (queued : queueLoop stageIds inFlight ctx = .ok ctx') : Quiet ctx ctx' := by
  induction stageIds generalizing inFlight ctx with
  | nil => exact quiet_ok queued
  | cons stageId stageIds ih =>
    obtain ⟨stage, _, queued⟩ := bind_eq_ok.mp queued
    split at queued
    · exact ih queued
    split at queued
    · exact ih queued
    split at queued
    · exact quiet_ok queued
    obtain ⟨definition, _, queued⟩ := bind_eq_ok.mp queued
    obtain ⟨mid, moved, queued⟩ := bind_eq_ok.mp queued
    refine Quiet.trans ?_ (ih queued)
    refine quiet_applyTransition moved ?_ (Or.inl (by rintro ⟨⟩))
    simp only [settleDirective]
    split <;> exact touch_transitions ctx _

end Quiet

/-- The tick makes the transition as it leaves this context, in a turn of its release loop. -/
def Moment [Sha256] (tick : TickRecord) (transition : StageTransition) (ctx : TickContext) : Prop :=
  ∃ (trace : Trace tick) (armed ctx' : TickContext), armedContext trace.start = .ok armed ∧
    Turns armed ctx ∧ maybeReleaseStage ctx transition.stageId = .ok ctx' ∧
    ctx'.transitions = ctx.transitions ++ [transition]

section Moment

variable {armed ctx ctx' : TickContext} {transition : StageTransition}

theorem turn_transitions {stageId : String} (turn : maybeReleaseStage ctx stageId = .ok ctx') :
    ctx'.transitions = ctx.transitions ∨
      ∃ transition, transition.stageId = stageId ∧
        ctx'.transitions = ctx.transitions ++ [transition] := by
  rcases maybeReleaseStage_eq_ok turn with rfl | ⟨stage, found, _, ⟨_, applied⟩ | ⟨_, _, mid,
    resolved, settled⟩⟩
  · exact Or.inl rfl
  · obtain ⟨_, rfl⟩ := applyTransition_eq_ok.mp applied
    exact Or.inr ⟨_, stageId_of_stage? found, rfl⟩
  · have asks := resolveEdges_asked resolved
    rcases settleRelease_cases settled with rfl | ⟨toState, reason, options, rfl⟩
    · exact Or.inl asks.transitions_eq
    · exact Or.inr ⟨_, stageId_of_stage? found, congrArg (· ++ [_]) asks.transitions_eq⟩

theorem turns_transitions (turns : Turns armed ctx) (member : transition ∈ ctx.transitions) :
    transition ∈ armed.transitions ∨
      ∃ before after, Turns armed before ∧
        maybeReleaseStage before transition.stageId = .ok after ∧
        after.transitions = before.transitions ++ [transition] := by
  induction turns with
  | refl => exact Or.inl member
  | tail earlier last ih =>
    obtain ⟨stageId, turn⟩ := last
    rcases turn_transitions turn with kept | ⟨added, named, grown⟩
    · exact ih (kept ▸ member)
    · rw [grown, List.mem_append, List.mem_singleton] at member
      rcases member with old | rfl
      · exact ih old
      · exact Or.inr ⟨_, _, earlier, named ▸ turn, grown⟩

theorem supplied_of_release {stageId : String} (turn : maybeReleaseStage ctx stageId = .ok ctx')
    (grown : ctx'.transitions = ctx.transitions ++ [transition])
    (ready : transition.toState = .ready) (joined : incoming ctx.graph stageId ≠ []) :
    ∃ definition, (stagesById ctx.graph).find? stageId = some definition ∧
      unsatisfiedReads ctx definition = none := by
  rcases maybeReleaseStage_eq_ok turn with rfl | ⟨stage, found, _, ⟨root, _⟩ | ⟨_, resolutions, mid,
    resolved, settled⟩⟩
  · simp at grown
  · exact absurd root joined
  have asks := resolveEdges_asked resolved
  have graph : mid.graph = ctx.graph := congrArg SchedulerInput.graph asks.input_eq
  have refused : ∀ {toState : StageState} {reason : TransitionReason} {options : TransitionOptions},
      applyTransition mid stage toState reason options = .ok ctx' → toState = .ready := by
    intro toState reason options applied
    obtain ⟨_, rfl⟩ := applyTransition_eq_ok.mp applied
    have same : mid.transitions ++ [_] = ctx.transitions ++ [transition] := grown
    rw [asks.transitions_eq] at same
    rw [← ready, ← List.cons.inj (List.append_cancel_left same) |>.1]
  unfold settleRelease at settled
  split at settled
  · cases settled
    rw [asks.transitions_eq] at grown
    simp at grown
  split at settled
  · cases refused settled
  split at settled
  · cases refused settled
  obtain ⟨definition, defined, settled⟩ := bind_eq_ok.mp settled
  rw [require_eq_ok, graph, stageId_of_stage? found] at defined
  refine ⟨definition, defined, ?_⟩
  have reads : unsatisfiedReads ctx definition = unsatisfiedReads mid definition := by
    unfold unsatisfiedReads producedWrites TickContext.stage?
    rw [graph, asks.working_eq]
  rw [reads]
  split at settled
  · cases refused settled
  · assumption

end Moment

/-- Another stage that has succeeded writes the reference or a dotted prefix of it. -/
def Covered (ctx : TickContext) (stageId read : String) : Prop :=
  ∃ producer ∈ ctx.graph.stages, producer.id ≠ stageId ∧
    (∃ write ∈ producer.writes, splitDots write <+: splitDots read) ∧
    ∃ projection, ctx.stage? producer.id = some projection ∧ projection.state = .succeeded

/-- Every join the tick releases has its reads outside the task covered when it is released. -/
def CoversReads [Sha256] (tick : TickRecord) : Prop :=
  ∀ transition ∈ tick.plan.transitions, Releases transition →
    incoming tick.input.graph transition.stageId ≠ [] →
      ∃ ctx, Moment tick transition ctx ∧
        ∀ definition, (stagesById tick.input.graph).find? transition.stageId = some definition →
          ∀ read ∈ definition.reads, namespaceOf read ≠ "task" →
            Covered ctx transition.stageId read

/-- Every read of a join outside the task is written verbatim by another stage. -/
def VerbatimReads (graph : PipelineGraph) : Prop :=
  ∀ stage ∈ graph.stages, incoming graph stage.id ≠ [] → ∀ read ∈ stage.reads,
    namespaceOf read ≠ "task" → ∃ producer ∈ graph.stages, producer.id ≠ stage.id ∧
      read ∈ producer.writes

section Runs

variable [Sha256] {tick : TickRecord} {ctx : TickContext}

theorem armed_of_phases {settled : TickContext} (ran : runPhases ctx = .ok settled) :
    ∃ armed, armedContext ctx = .ok armed ∧ Quiet ctx armed := by
  obtain ⟨observed, processed, cutting⟩ := bind_eq_ok.mp ran
  obtain ⟨cut, passed, arming⟩ := bind_eq_ok.mp cutting
  obtain ⟨armed, rearmed, _⟩ := bind_eq_ok.mp arming
  refine ⟨armed, bind_eq_ok.mpr ⟨observed, processed, bind_eq_ok.mpr ⟨cut, passed, rearmed⟩⟩, ?_⟩
  have first : Quiet ctx observed :=
    quiet_foldlM (fun _ _ _ => quiet_processObservation) processed
  exact first.trans ((quiet_cancelPass passed).trans (quiet_rearmRetries rearmed))

theorem exists_moment (trace : Trace tick) {transition : StageTransition}
    (member : transition ∈ tick.plan.transitions) (releases : Releases transition) :
    ∃ moment, Moment tick transition moment := by
  obtain ⟨armed, prepared, quiet⟩ := armed_of_phases trace.phases
  obtain ⟨released, queued, looped, loop, last⟩ := runPhases_armed prepared trace.phases
  rw [trace.transitions_eq, trace.final_fields.2.2] at member
  have after : Quiet released trace.settled :=
    (quiet_queueLoop loop).trans (quiet_cancelPass last)
  have here := after transition member releases
  rcases turns_transitions (releaseLoop_turns looped) here with early | ⟨moment, next, turns, turn,
    grown⟩
  · have fresh : trace.start.transitions = [] :=
      (createTickContext_eq_ok trace.created).2.2.2.2.2.1
    have impossible := quiet transition early releases
    rw [fresh] at impossible
    cases impossible
  · exact ⟨moment, trace, armed, next, prepared, turns, turn, grown⟩

theorem turns_steps {armed : TickContext} (turns : Turns armed ctx) :
    Steps Closed .quiet armed ctx := by
  induction turns with
  | refl => exact Relation.ReflTransGen.refl
  | tail _ turn ih => exact ih.trans (turn_steps turn)

theorem armed_steps {armed : TickContext} (prepared : armedContext ctx = .ok armed) :
    Steps (fun _ _ => True) (tickScope ctx) ctx armed := by
  obtain ⟨observed, processed, cutting⟩ := bind_eq_ok.mp prepared
  obtain ⟨cut, passed, rearmed⟩ := bind_eq_ok.mp cutting
  have first : Steps (fun _ _ => True) (tickScope ctx) ctx observed :=
    observations_steps (fun _ _ _ _ _ _ => trivial) processed
  exact first.trans ((cancelPass_steps rfl passed).trans (rearmRetries_steps rearmed))

theorem moment_graph {transition : StageTransition} (moment : Moment tick transition ctx) :
    ctx.graph = tick.input.graph := by
  obtain ⟨trace, armed, _, prepared, turns, _⟩ := moment
  have looped := steps_input (turns_steps turns)
  have started := steps_input (armed_steps prepared)
  exact (congrArg SchedulerInput.graph (looped.trans started)).trans trace.start_ids.2.2

theorem succeeded_patch {transition : StageTransition} (moment : Moment tick transition ctx)
    {id : String} {stage : StageSnapshot} (found : ctx.stage? id = some stage)
    (state : stage.state = .succeeded) : stage ∈ tick.plan.stagePatches := by
  obtain ⟨trace, armed, _, prepared, turns, _⟩ := moment
  obtain ⟨released, queued, looped, loop, last⟩ := runPhases_armed prepared trace.phases
  have terminal : stage.state.isTerminal = true := by
    rw [state]
    rfl
  have before := (steps_stable (turns_steps turns)).succeeded id stage found state
  have swept : Steps Closed .quiet armed released := releaseLoop_steps rfl looped
  have queueing : Steps Closed ⟨[], true, true⟩ released queued := queueLoop_steps rfl loop
  have cutting : Steps Closed .quiet queued trace.settled := cancelPass_steps rfl last
  have kept := (steps_stable cutting).ended id stage
    ((steps_stable queueing).ended id stage
      ((steps_stable swept).ended id stage before terminal) terminal) terminal
  rw [trace.stagePatches_perm.mem_iff, trace.final_working]
  exact Table.mem_of_find? kept

/-- Where every read of a join is written verbatim, no join is released without its reads. -/
theorem reads_covered {ticks : List TickRecord} (run : FullRun ticks)
    (verbatim : ∀ tick ∈ ticks, VerbatimReads tick.input.graph) :
    ∀ tick ∈ ticks, CoversReads tick := by
  intro tick member transition listed releases joined
  obtain ⟨trace⟩ := (run.ticked tick member).trace
  obtain ⟨ctx, moment⟩ := exists_moment trace listed releases
  refine ⟨ctx, moment, ?_⟩
  have graph := moment_graph moment
  obtain ⟨_, _, _, _, _, turn, grown⟩ := moment
  obtain ⟨supplied, found, none⟩ :=
    supplied_of_release turn grown releases.2 (by rwa [graph])
  intro definition defined read reading outside
  rw [graph, defined] at found
  rw [← Option.some.inj found] at none
  have named : definition.id = transition.stageId := Table.key_of_find? defined
  have declared : definition ∈ tick.input.graph.stages := by
    rcases Table.mem_of_find?_upsertAll defined with here | nowhere
    · exact here
    · cases nowhere
  obtain ⟨producer, there, other, writes⟩ := verbatim tick member definition declared
    (by rwa [named]) read reading outside
  have available : read ∈ producedWrites ctx definition.id := by
    have checked := List.find?_eq_none.mp none read reading
    by_contra absent
    refine checked ?_
    rw [Bool.and_eq_true, List.any_eq_true, decide_eq_true_eq]
    refine ⟨⟨producer, graph ▸ there, ?_⟩, absent⟩
    simp [other, writes]
  obtain ⟨source, listedSource, different, write, projection, located, state⟩ :=
    mem_producedWrites.mp available
  exact ⟨source, listedSource, named ▸ different, ⟨read, write, List.prefix_refl _⟩, projection,
    located, state⟩

end Runs

def draftDeclaration (read : String) : NormalizedPipeline where
  declared :=
    { mode := .autonomous
      stages :=
        [{ id := "design", type := .agent, mode := .autonomous, optional := true
           writes := ["artifacts.design"], profile := some "drafter" },
          { id := "notes", type := .agent, mode := .autonomous, optional := false
            writes := ["artifacts.notes"], profile := some "drafter" },
          { id := "ship", type := .publish, mode := .autonomous, optional := false
            reads := [read] }]
      edges :=
        [{ fromStageId := "design", toStageId := "ship" },
          { fromStageId := "notes", toStageId := "ship" }] }
  stagePointers := fun _ => none
  edgePointers := []

def draftTicks (read : String) : List TickRecord :=
  @drive blankDigest
    [{ now := "t1"
       observations :=
        [stageObservation "o1" "design" "t1" .attemptStarted,
          stageObservation "o2" "design" "t1" .attemptFailed,
          stageObservation "o3" "notes" "t1" .attemptStarted,
          stageObservation "o4" "notes" "t1" .attemptSucceeded] }]
    (initialInput (draftDeclaration read).declared.graph "run" "pipeline" "t0")

theorem drive_graph [Sha256] (calls : List Call) (input : SchedulerInput) :
    ∀ tick ∈ drive calls input, tick.input.graph = input.graph := by
  induction calls generalizing input with
  | nil =>
    intro tick member
    rw [(mem_tickRecords member).1]
  | cons call calls ih =>
    intro tick member
    obtain ⟨first, ticked, later⟩ := List.mem_flatMap.mp member
    have given := (mem_tickRecords ticked).1
    rcases List.mem_cons.mp later with rfl | rest
    · rw [given]
    · exact ih (nextInput input first.plan call) tick rest

theorem reads_covered_sample :
    let _ : Sha256 := blankDigest
    (∃ tick ∈ draftTicks "artifacts.notes", ∃ transition ∈ tick.plan.transitions,
      Releases transition ∧ incoming tick.input.graph transition.stageId ≠ []) ∧
      ∀ tick ∈ draftTicks "artifacts.notes", CoversReads tick := by
  intro digest
  have released : ((draftTicks "artifacts.notes").any fun tick => tick.plan.transitions.any
      fun transition => decide (transition.fromState = .pending ∧ transition.toState = .ready) &&
        !(incoming tick.input.graph transition.stageId).isEmpty) = true := by decide +kernel
  refine ⟨?_, ?_⟩
  · simp only [List.any_eq_true, Bool.and_eq_true, decide_eq_true_eq, Bool.not_eq_true',
      List.isEmpty_eq_false_iff] at released
    obtain ⟨tick, member, transition, listed, moved, joined⟩ := released
    exact ⟨tick, member, transition, listed, moved, joined⟩
  · refine reads_covered
      (drive_fullRun (initialInput_starts _ _ _ _) (by decide +kernel)) fun tick member => ?_
    rw [drive_graph _ _ tick member]
    have verbatim : ∀ stage ∈ (draftDeclaration "artifacts.notes").declared.graph.stages,
        ∀ read ∈ stage.reads,
          ∃ producer ∈ (draftDeclaration "artifacts.notes").declared.graph.stages,
            producer.id ≠ stage.id ∧ read ∈ producer.writes := by decide +kernel
    exact fun stage listed _ read reading _ => verbatim stage listed read reading

theorem reads_uncovered :
    ¬ ∀ [Sha256] (normalized : NormalizedPipeline) (ticks : List TickRecord), Accepted normalized →
      FullRun ticks → (∀ tick ∈ ticks, tick.input.graph = normalized.declared.graph) →
        ∀ tick ∈ ticks, CoversReads tick := by
  intro claim
  let _ : Sha256 := blankDigest
  let read := "artifacts.design.selected"
  have accepted : Accepted (draftDeclaration read) := ⟨none, by decide +kernel⟩
  have run : FullRun (draftTicks read) :=
    drive_fullRun (initialInput_starts _ _ _ _) (by decide +kernel)
  have covers := claim (draftDeclaration read) (draftTicks read) accepted run (drive_graph _ _)
  have facts : ((draftTicks read).any fun tick =>
      (tick.plan.stagePatches.all fun patch =>
        decide (patch.state = .succeeded → patch.stageId = "notes")) &&
      tick.plan.transitions.any fun transition =>
        decide (transition.stageId = "ship" ∧ transition.fromState = .pending ∧
          transition.toState = .ready)) = true := by decide +kernel
  simp only [List.any_eq_true, Bool.and_eq_true, decide_eq_true_eq, List.all_eq_true] at facts
  obtain ⟨tick, member, succeeded, transition, listed, named, moved⟩ := facts
  have graph : tick.input.graph = (draftDeclaration read).declared.graph :=
    drive_graph _ _ tick member
  have joined : incoming tick.input.graph transition.stageId ≠ [] := by
    rw [graph, named]
    decide +kernel
  obtain ⟨ctx, moment, covered⟩ := covers tick member transition listed moved joined
  obtain ⟨definition, found, reading, outside⟩ : ∃ definition,
      (stagesById tick.input.graph).find? transition.stageId = some definition ∧
        read ∈ definition.reads ∧ namespaceOf read ≠ "task" := by
    rw [graph, named]
    exact ⟨_, rfl, by decide +kernel, by decide +kernel⟩
  obtain ⟨producer, there, _, ⟨write, writes, shorter⟩, projection, located, state⟩ :=
    covered definition found read reading outside
  have notes : producer.id = "notes" :=
    (stageId_of_stage? located).symm.trans
      (succeeded _ (succeeded_patch moment located state) state)
  rw [moment_graph moment, graph] at there
  have apart : ∀ stage ∈ (draftDeclaration read).declared.graph.stages, stage.id = "notes" →
      ∀ write ∈ stage.writes, ¬ splitDots write <+: splitDots read := by decide +kernel
  exact apart producer there notes write writes shorter

end Heniek.ReadAvailability
