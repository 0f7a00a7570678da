import Heniek.SchedulerRelease
import Heniek.SchedulerRun

/-!
A tick over well-formed input returns. The stage map has exactly the stages of
the graph throughout, so no lookup is undefined; every call site of
`applyTransition` is compatible with the table under its own guard; the release
loop makes progress at most once per pending stage and once per evaluator edge.
What is left is the call stack of a cyclic condition expression.
-/

namespace Heniek.TickTotality
open KeyedTable PipelineVocabulary PipelineDocument RecoveryPolicy StageTransitions ScriptText
open SchedulerTick SchedulerSteps StageChanges SchedulerRelease SchedulerRun FallibleRun

structure Closed (ctx : TickContext) : Prop where
  stages : ∀ id, id ∈ ctx.working.keys ↔ id ∈ stageIds ctx.graph
  resolved : edgesResolved ctx.graph = true

def Overflow (error : SchedulerError) : Prop := error = .stackOverflow

abbrev Returns {α : Type} (computation : Tick α) : Prop := ThrowsOnly Overflow computation

section Lookups

variable {ctx ctx' : TickContext} {stage : StageSnapshot} {id : String}

theorem Closed.of_same (closed : Closed ctx) (keys : ctx'.working.keys = ctx.working.keys)
    (input : ctx'.input = ctx.input) : Closed ctx' := by
  constructor
  · intro id
    rw [keys, TickContext.graph, input]
    exact closed.stages id
  · rw [TickContext.graph, input]
    exact closed.resolved

theorem Closed.of_steps [Sha256]
    {admits : TickContext → SchedulerObservation → Prop} {scope : Scope}
    (closed : Closed ctx) (steps : Steps admits scope ctx ctx') : Closed ctx' :=
  closed.of_same (steps_keys steps) (steps_input steps)

theorem Closed.asked (closed : Closed ctx) (asked : Asked ctx ctx') : Closed ctx' :=
  closed.of_same (congrArg Table.keys asked.working_eq) asked.input_eq

theorem returns_stage (present : id ∈ ctx.working.keys) : Returns (require (ctx.stage? id)) := by
  obtain ⟨stage, found⟩ := Table.exists_find? present
  rw [TickContext.stage?, found]
  exact throwsOnly_ok stage

theorem returns_definition (declared : id ∈ stageIds ctx.graph) :
    Returns (require ((stagesById ctx.graph).find? id)) := by
  obtain ⟨definition, found⟩ := Table.exists_find? (mem_stagesById_keys.mpr declared)
  rw [found]
  exact throwsOnly_ok definition

theorem mem_keys_of_stage? (found : ctx.stage? id = some stage) : id ∈ ctx.working.keys :=
  Table.find?_isSome.mp (Option.isSome_iff_exists.mpr ⟨stage, found⟩)

theorem Closed.definition (closed : Closed ctx) (found : ctx.stage? stage.stageId = some stage) :
    Returns (require ((stagesById ctx.graph).find? stage.stageId)) :=
  returns_definition ((closed.stages _).mp (mem_keys_of_stage? found))

theorem returns_applyTransition {toState : StageState} {reason : TransitionReason}
    {options : TransitionOptions}
    (permitted : isPermittedTransition stage.state toState reason = true) :
    Returns (applyTransition ctx stage toState reason options) := by
  rw [applyTransition, if_pos permitted]
  exact throwsOnly_ok _

end Lookups

section Parts

variable {ctx : TickContext} {stage : StageSnapshot}

theorem returns_cancelStage {stageId : String} (present : stageId ∈ ctx.working.keys) :
    Returns (cancelStage ctx stageId) := by
  refine (returns_stage present).bind fun stage found => ?_
  have halts : Returns (cancelInactiveStage ctx stage (cancelReason ctx)) := by
    unfold cancelInactiveStage
    split
    · rename_i inactive
      apply returns_applyTransition
      unfold cancelReason
      revert inactive
      cases stage.state <;> cases ctx.deadlineExceeded <;> decide
    · exact throwsOnly_ok ctx
  refine halts.bind fun mid halted => ?_
  have kept : stageId ∈ mid.working.keys := by
    unfold cancelInactiveStage at halted
    split at halted
    · obtain ⟨_, rfl⟩ := applyTransition_eq_ok.mp halted
      exact Table.mem_keys_upsert.mpr (Or.inl present)
    · cases halted
      exact present
  exact (returns_stage kept).bind fun _ _ => throwsOnly_ok _

theorem returns_rearmRetry {stageId : String} (present : stageId ∈ ctx.working.keys) :
    Returns (rearmRetry ctx stageId) := by
  refine (returns_stage present).bind fun stage _ => ?_
  split
  · exact throwsOnly_ok ctx
  rename_i state
  split
  · exact throwsOnly_ok ctx
  · exact returns_applyTransition (by rw [not_not.mp state]; rfl)

theorem returns_resolveCondition {edge : PipelineEdge}
    (present : edge.toStageId ∈ ctx.working.keys) : Returns (resolveCondition ctx edge) := by
  unfold resolveCondition
  split
  · exact throwsOnly_ok _
  · split
    · exact throwsOnly_error rfl
    · exact throwsOnly_ok _
    · exact throwsOnly_ok _
  · simp only
    split
    · exact throwsOnly_ok _
    split
    · exact throwsOnly_ok _
    split
    · exact throwsOnly_ok _
    · exact (returns_stage present).bind fun _ _ => throwsOnly_ok _

theorem returns_resolveIncomingEdge {edge : PipelineEdge} (closed : Closed ctx)
    (member : edge ∈ ctx.graph.edges) : Returns (resolveIncomingEdge ctx edge) := by
  obtain ⟨source, target⟩ := edgesResolved_iff.mp closed.resolved edge member
  refine (returns_stage ((closed.stages _).mpr source)).bind fun predecessor _ => ?_
  split
  · exact throwsOnly_ok _
  · refine (returns_definition source).bind fun _ _ => ?_
    split <;> exact throwsOnly_ok _
  · split <;> exact throwsOnly_ok _
  · exact returns_resolveCondition ((closed.stages _).mpr target)
  · exact throwsOnly_ok _

theorem returns_settleRelease {resolutions : List EdgeResolution} (closed : Closed ctx)
    (found : ctx.stage? stage.stageId = some stage) (pending : stage.state = .pending) :
    Returns (settleRelease ctx stage resolutions) := by
  unfold settleRelease
  split
  · exact throwsOnly_ok _
  split
  · exact returns_applyTransition (by rw [pending]; rfl)
  split
  · exact returns_applyTransition (by rw [pending]; rfl)
  refine (closed.definition found).bind fun _ _ => ?_
  split
  · exact returns_applyTransition (by rw [pending]; rfl)
  · exact returns_applyTransition (by rw [pending]; rfl)

theorem returns_rerunTarget {targetId : String} (present : targetId ∈ ctx.working.keys) :
    Returns (rerunTarget ctx targetId) := by
  refine (returns_stage present).bind fun stage _ => ?_
  split
  · exact throwsOnly_ok ctx
  rename_i excluded
  split
  · rename_i left
    have terminal : stage.state.isTerminal = true := by
      cases terminal : stage.state.isTerminal with
      | true => rfl
      | false => exact absurd ⟨terminal, left⟩ excluded
    rw [if_pos (permitted_manualRerun terminal)]
    exact throwsOnly_ok _
  · exact throwsOnly_ok _

variable {observation : SchedulerObservation}

theorem returns_processUnclassifiedFailure {definition : PipelineStage}
    (executing : Executing stage) :
    Returns (processUnclassifiedFailure ctx stage definition observation) := by
  simp only [processUnclassifiedFailure]
  split
  · exact returns_applyTransition (executing_permitted executing (by decide) (by decide))
  · apply returns_applyTransition
    split <;> exact executing_permitted executing (by decide) (by decide)

theorem returns_applyRecoveryDecision {result : DecideRecoveryResult}
    (executing : Executing stage) :
    Returns (applyRecoveryDecision ctx stage observation result) := by
  obtain ⟨options, _, applied⟩ := applyRecoveryDecision_eq ctx stage observation result
  rw [applied]
  exact returns_applyTransition (verdict_permitted executing result.verdict)

theorem returns_processRecoveryApproved (closed : Closed ctx)
    (found : ctx.stage? stage.stageId = some stage) :
    Returns (processRecoveryApproved ctx stage observation) := by
  unfold processRecoveryApproved
  split
  · exact throwsOnly_ok ctx
  rename_i waiting
  rw [not_not] at waiting
  simp only
  split
  · exact throwsOnly_ok _
  split
  · exact throwsOnly_ok _
  have declared : stage.stageId ∈ stageIds (getRecoveryCounters ctx stage).2.graph := by
    rw [TickContext.graph, touch_input]
    exact (closed.stages _).mp (mem_keys_of_stage? found)
  refine (returns_definition declared).bind fun definition _ => ?_
  exact returns_applyTransition (by rw [waiting]; rfl)

theorem returns_processRecoveryRejected (closed : Closed ctx)
    (found : ctx.stage? stage.stageId = some stage) :
    Returns (processRecoveryRejected ctx stage observation) := by
  unfold processRecoveryRejected
  split
  · exact throwsOnly_ok ctx
  rename_i waiting
  rw [not_not] at waiting
  simp only
  split
  · exact throwsOnly_ok _
  have declared : stage.stageId ∈ stageIds (getRecoveryCounters ctx stage).2.graph := by
    rw [TickContext.graph, touch_input]
    exact (closed.stages _).mp (mem_keys_of_stage? found)
  refine (returns_definition declared).bind fun definition _ => ?_
  exact returns_applyTransition (by rw [waiting]; rfl)

theorem returns_anyRequiredFailure {graph : PipelineGraph} {stages : List StageSnapshot}
    (declared : ∀ stage ∈ stages, stage.stageId ∈ stageIds graph) :
    Returns (anyRequiredFailure graph stages) := by
  induction stages with
  | nil => exact throwsOnly_ok false
  | cons stage stages ih =>
    have head : Returns (requiredFailure graph stage) := by
      unfold requiredFailure
      split
      · obtain ⟨definition, found⟩ := Table.exists_find?
          (mem_stagesById_keys.mpr (declared stage List.mem_cons_self))
        rw [found]
        exact throwsOnly_ok _
      · exact throwsOnly_ok false
    refine head.bind fun failed _ => ?_
    split
    · exact throwsOnly_ok true
    · exact ih fun other listed => declared other (List.mem_cons_of_mem stage listed)

theorem returns_computeTerminal (closed : Closed ctx) : Returns (computeTerminal ctx) := by
  simp only [computeTerminal]
  split
  · exact throwsOnly_ok _
  split
  · exact throwsOnly_ok _
  split
  · exact throwsOnly_ok _
  have declared : ∀ stage ∈ ctx.working.rows, stage.stageId ∈ stageIds ctx.graph :=
    fun stage member => (closed.stages _).mp (Table.mem_keys_of_mem member)
  refine (returns_anyRequiredFailure declared).bind fun failed _ => ?_
  split
  · exact throwsOnly_ok _
  split <;> exact throwsOnly_ok _

end Parts

section Phases

variable [Sha256] {ctx : TickContext} {stage : StageSnapshot} {observation : SchedulerObservation}

theorem returns_cancelPass (ctx : TickContext) : Returns (cancelPass ctx) := by
  unfold cancelPass
  split
  · rename_i stopping
    refine ThrowsOnly.foldlM (P := fun mid => mid.working.keys = ctx.working.keys ∧
      mid.stopping = true) ?_ ?_ ⟨rfl, stopping⟩
    · intro stageId member mid facts
      rw [TickContext.sortedStageIds, mem_sortTexts, ← facts.1] at member
      exact returns_cancelStage member
    · intro stageId member mid after facts cancelled
      have steps : Steps (fun _ _ => True) .quiet mid after :=
        cancelStage_steps rfl facts.2 cancelled
      exact ⟨(steps_keys steps).trans facts.1, steps_stopping steps facts.2⟩
  · exact throwsOnly_ok ctx

theorem returns_rearmRetries {retrying : List String}
    (present : ∀ id ∈ retrying, id ∈ ctx.working.keys) : Returns (rearmRetries ctx retrying) := by
  refine ThrowsOnly.foldlM (P := fun mid => mid.working.keys = ctx.working.keys) ?_ ?_ rfl
  · intro stageId member mid same
    exact returns_rearmRetry (same ▸ present stageId (mem_sortTexts.mp member))
  · intro stageId member mid after same rearmed
    have steps : Steps (fun _ _ => True) ⟨retrying, false, true⟩ mid after :=
      rearmRetry_steps (mem_sortTexts.mp member) rearmed
    exact (steps_keys steps).trans same

omit [Sha256] in
theorem returns_resolveEdges {edges : List PipelineEdge} (closed : Closed ctx)
    (members : ∀ edge ∈ edges, edge ∈ ctx.graph.edges) :
    Returns (resolveEdges edges ctx) := by
  induction edges generalizing ctx with
  | nil => exact throwsOnly_ok _
  | cons edge edges ih =>
    have member := members edge List.mem_cons_self
    refine (returns_resolveIncomingEdge closed member).bind fun resolved first => ?_
    obtain ⟨resolution, mid⟩ := resolved
    have asked := resolveIncomingEdge_asked first
    have rest : Returns (resolveEdges edges mid) := by
      refine ih (closed.asked asked) ?_
      intro other listed
      rw [TickContext.graph, asked.input_eq]
      exact members other (List.mem_cons_of_mem _ listed)
    exact rest.bind fun _ _ => throwsOnly_ok _

omit [Sha256] in
theorem returns_maybeReleaseStage {stageId : String} (closed : Closed ctx)
    (present : stageId ∈ ctx.working.keys) : Returns (maybeReleaseStage ctx stageId) := by
  refine (returns_stage present).bind fun stage located => ?_
  rw [require_eq_ok] at located
  split
  · exact throwsOnly_ok ctx
  rename_i candidate
  rw [not_or, not_not] at candidate
  split
  · exact throwsOnly_ok ctx
  rename_i going
  have going : ctx.stopping = false := Bool.eq_false_iff.mpr going
  split
  · exact returns_applyTransition (by rw [candidate.2]; rfl)
  · have members : ∀ edge ∈ incoming ctx.graph stageId, edge ∈ ctx.graph.edges :=
      fun edge listed => (List.mem_filter.mp listed).1
    refine (returns_resolveEdges closed members).bind fun resolved edges => ?_
    obtain ⟨resolutions, mid⟩ := resolved
    have asked := resolveEdges_asked edges
    refine returns_settleRelease (closed.asked asked) ?_ candidate.2
    rw [TickContext.stage?, asked.working_eq]
    exact found_self located

theorem returns_releaseSweep (closed : Closed ctx) : Returns (releaseSweep ctx) := by
  refine ThrowsOnly.foldlM (P := fun mid => Closed mid ∧ mid.working.keys = ctx.working.keys) ?_ ?_
    ⟨closed, rfl⟩
  · intro stageId member mid facts
    rw [TickContext.sortedStageIds, mem_sortTexts, ← facts.2] at member
    exact returns_maybeReleaseStage facts.1 member
  · intro stageId member mid after facts released
    have steps : Steps (fun _ _ => True) .quiet mid after := maybeReleaseStage_steps rfl released
    exact ⟨facts.1.of_steps steps, (steps_keys steps).trans facts.2⟩

theorem returns_releaseLoop {fuel : Nat} (closed : Closed ctx) (enough : remaining ctx < fuel) :
    Returns (releaseLoop fuel ctx) := by
  induction fuel generalizing ctx with
  | zero => omega
  | succ fuel ih =>
    refine (returns_releaseSweep closed).bind fun swept sweep => ?_
    split
    · have paid := (progressed_releaseSweep sweep).le
      have steps : Steps (fun _ _ => True) .quiet ctx swept :=
        foldlM_steps (fun _ _ _ _ => maybeReleaseStage_steps rfl) sweep
      exact ih (closed.of_steps steps) (by omega)
    · exact throwsOnly_ok swept

theorem returns_queueLoop {ids : List String} {inFlight : Nat} (closed : Closed ctx)
    (present : ∀ id ∈ ids, id ∈ ctx.working.keys) : Returns (queueLoop ids inFlight ctx) := by
  induction ids generalizing inFlight ctx with
  | nil => exact throwsOnly_ok ctx
  | cons id ids ih =>
    have later : ∀ other ∈ ids, other ∈ ctx.working.keys :=
      fun other listed => present other (List.mem_cons_of_mem id listed)
    refine (returns_stage (present id List.mem_cons_self)).bind fun stage located => ?_
    rw [require_eq_ok] at located
    split
    · exact ih closed later
    rename_i candidate
    rw [not_or, not_not] at candidate
    split
    · exact ih closed later
    rename_i going
    split
    · exact throwsOnly_ok ctx
    have declared := (closed.stages id).mp (present id List.mem_cons_self)
    refine (returns_definition declared).bind fun definition defined => ?_
    rw [require_eq_ok, ← stageId_of_stage? located] at defined
    refine ThrowsOnly.bind ?_ fun queued turn => ?_
    · exact returns_applyTransition (by simp only [candidate.1]; rfl)
    · obtain ⟨_, rfl⟩ := applyTransition_eq_ok.mp turn
      have step : Steps (fun _ _ => True) ⟨[], true, true⟩ ctx (queueMove ctx stage definition) :=
        Relation.ReflTransGen.single (.queue ctx stage definition (found_self located)
          candidate.1 (by simpa using candidate.2) (Bool.eq_false_iff.mpr going) defined rfl)
      refine ih (closed.of_steps step) ?_
      intro other listed
      have kept := steps_keys step
      rw [← kept] at later
      exact later other listed

theorem returns_processManualRerun {stageId : String} (closed : Closed ctx)
    (kind : observation.kind = .manualRerun) :
    Returns (processManualRerun ctx stageId) := by
  unfold processManualRerun
  split
  · exact throwsOnly_ok ctx
  rename_i stage found
  refine ThrowsOnly.foldlM (P := fun mid => mid.working.keys = ctx.working.keys) ?_ ?_ rfl
  · intro target member mid same
    refine returns_rerunTarget (same ▸ ?_)
    rcases List.mem_cons.mp (mem_sortTexts.mp member) with rfl | below
    · exact mem_keys_of_stage? found
    · exact (closed.stages target).mpr (descendants_subset closed.resolved below)
  · intro target _ mid after same rerun
    have steps : Steps (fun _ other => other = observation) .quiet mid after :=
      rerunTarget_steps mid rfl kind rerun
    exact (steps_keys steps).trans same

theorem returns_processAttemptFailed (closed : Closed ctx)
    (found : ctx.stage? stage.stageId = some stage) :
    Returns (processAttemptFailed ctx stage observation) := by
  unfold processAttemptFailed
  split
  · exact throwsOnly_ok ctx
  have executing : Executing stage := by
    tauto
  refine (closed.definition found).bind fun definition _ => ?_
  split
  · exact returns_applyRecoveryDecision executing
  · exact returns_processUnclassifiedFailure executing

theorem returns_processStageObservation (closed : Closed ctx)
    (found : ctx.stage? stage.stageId = some stage) :
    Returns (processStageObservation ctx stage observation) := by
  simp only [processStageObservation]
  split
  case h_1 =>
    split
    · rename_i state
      exact returns_applyTransition (by rcases state with state | state <;> rw [state] <;> rfl)
    · exact throwsOnly_ok ctx
  case h_2 =>
    split
    · rename_i state
      exact returns_applyTransition (by rw [state]; rfl)
    · exact throwsOnly_ok ctx
  case h_3 =>
    split
    · rename_i executing
      exact returns_applyTransition (executing_permitted executing rfl rfl)
    · exact throwsOnly_ok ctx
  case h_4 => exact returns_processAttemptFailed closed found
  case h_5 => exact returns_processRecoveryApproved closed found
  case h_6 => exact returns_processRecoveryRejected closed found
  case h_7 =>
    split
    · rename_i active
      apply returns_applyTransition
      revert active
      cases stage.state <;> decide
    · exact throwsOnly_ok ctx
  case h_8 => exact throwsOnly_ok ctx

theorem returns_processObservation (closed : Closed ctx) :
    Returns (processObservation ctx observation) := by
  have consumed : Closed (consumeObservation ctx observation) := closed.of_same rfl rfl
  simp only [processObservation]
  split
  case h_1 => exact throwsOnly_ok _
  case h_2 kind =>
    split
    · exact returns_processManualRerun consumed kind
    · exact throwsOnly_ok _
  case h_3 => split <;> exact throwsOnly_ok _
  case h_4 =>
    split
    · rename_i stage located
      obtain ⟨stageId, named, found⟩ := Option.bind_eq_some_iff.mp located
      exact returns_processStageObservation consumed (found_self found)
    · exact throwsOnly_ok _

theorem returns_runPhases (closed : Closed ctx) : Returns (runPhases ctx) := by
  have observations : Returns ((sortObservations ctx.input.observations).foldlM processObservation
      ctx) := by
    refine ThrowsOnly.foldlM (P := Closed) ?_ ?_ closed
    · intro observation _ mid closed
      exact returns_processObservation closed
    · intro observation _ mid after closed processed
      have steps : Steps (fun _ _ => True) .quiet mid after :=
        processObservation_steps trivial processed
      exact closed.of_steps steps
  refine observations.bind fun observed folded => ?_
  have observing : Steps (fun _ _ => True) .quiet ctx observed :=
    observations_steps (fun _ _ _ _ _ _ => trivial) folded
  refine (returns_cancelPass observed).bind fun cut passed => ?_
  have cutting : Steps (fun _ _ => True) .quiet observed cut := cancelPass_steps rfl passed
  have reached := observing.trans cutting
  have retrying : ∀ id ∈ retryingStageIds ctx, id ∈ cut.working.keys := by
    intro id listed
    obtain ⟨stage, member, rfl⟩ := List.mem_map.mp listed
    rw [steps_keys reached]
    exact Table.mem_keys_of_mem (List.mem_filter.mp member).1
  refine (returns_rearmRetries retrying).bind fun armed rearmed => ?_
  have arming : Steps (fun _ _ => True) ⟨retryingStageIds ctx, false, true⟩ cut armed :=
    rearmRetries_steps rearmed
  have armedClosed := (closed.of_steps reached).of_steps arming
  refine (returns_releaseLoop armedClosed (remaining_lt_releaseFuel armed)).bind
    fun released looped => ?_
  have releasing : Steps (fun _ _ => True) .quiet armed released := releaseLoop_steps rfl looped
  have releasedClosed := armedClosed.of_steps releasing
  refine (returns_queueLoop releasedClosed ?_).bind fun queued _ => returns_cancelPass queued
  intro id listed
  exact mem_sortTexts.mp listed

end Phases

/-- The snapshots handed to a tick are of stages of its graph, and the graph's edges join them. -/
structure WellFormed (input : SchedulerInput) : Prop where
  known : ∀ stage ∈ input.stages, stage.stageId ∈ stageIds input.graph
  resolved : edgesResolved input.graph = true

variable {input : SchedulerInput}

theorem closed_of_wellFormed {v2 : Bool} {start : TickContext} (wellFormed : WellFormed input)
    (created : createTickContext input v2 = .ok start) : Closed start := by
  obtain ⟨resolved, same, working, _⟩ := createTickContext_eq_ok created
  refine ⟨?_, by rw [TickContext.graph, same]; exact resolved⟩
  intro id
  rw [working, mem_workingStages_keys, TickContext.graph, same]
  refine or_iff_right_of_imp ?_
  intro listed
  obtain ⟨stage, member, rfl⟩ := List.mem_map.mp listed
  exact wellFormed.known stage member

/-- What a tick over well-formed input can still throw: the call stack of a cyclic expression, and
the missing first stage of a graph without stages. -/
def Unavoidable (graph : PipelineGraph) (error : SchedulerError) : Prop :=
  error = .stackOverflow ∨ error = .undefinedAccess ∧ graph.stages = []

variable [Sha256]

theorem tickWith_throwsOnly {v2 : Bool} (wellFormed : WellFormed input) :
    ThrowsOnly (Unavoidable input.graph) (tickWith v2 input) := by
  have widen : ∀ {α : Type} {computation : Tick α}, Returns computation →
      ThrowsOnly (Unavoidable input.graph) computation :=
    fun returns error thrown => Or.inl (returns error thrown)
  refine ThrowsOnly.bind ?_ fun start created => ?_
  · unfold createTickContext
    rw [if_pos wellFormed.resolved]
    exact throwsOnly_ok _
  have closed := closed_of_wellFormed wellFormed created
  obtain ⟨_, given, _⟩ := createTickContext_eq_ok created
  refine (widen (returns_runPhases closed)).bind fun settled phases => ?_
  have steps : Steps (fun _ _ => True) (tickScope start) start settled :=
    runPhases_steps (fun _ _ _ _ _ _ => trivial) phases
  have graph : settled.graph = input.graph := by
    rw [TickContext.graph, steps_input steps, given]
  refine (widen (returns_computeTerminal (closed.of_steps steps))).bind fun terminal _ => ?_
  refine ThrowsOnly.bind ?_ fun _ _ => throwsOnly_ok _
  cases terminal with
  | none => exact throwsOnly_ok settled
  | some terminal =>
    refine ThrowsOnly.bind ?_ fun _ _ => throwsOnly_ok _
    unfold terminalStageId
    split
    · exact throwsOnly_ok _
    rw [graph]
    cases stages : input.graph.stages with
    | nil => exact throwsOnly_error (Or.inr ⟨rfl, stages⟩)
    | cons stage others => exact throwsOnly_ok _

theorem tickScheduler_throwsOnly (wellFormed : WellFormed input) :
    ThrowsOnly (Unavoidable input.graph) (tickScheduler input) :=
  (tickWith_throwsOnly wellFormed).map Prod.snd

theorem tickSchedulerV2_throwsOnly (wellFormed : WellFormed input) :
    ThrowsOnly (Unavoidable input.graph) (tickSchedulerV2 input) := by
  have versioned : WellFormed { input with schemaVersion := 2 } :=
    ⟨wellFormed.known, wellFormed.resolved⟩
  exact (tickWith_throwsOnly versioned).bind fun _ _ => throwsOnly_ok _

end Heniek.TickTotality
