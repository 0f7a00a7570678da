import Heniek.CancellationRuns

/-!
What a schedule reported as succeeded consists of. The terminal outcome is
computed from the final stages and from the cancel flag of the same tick alone,
so a stage that was cut in an earlier tick, or is cut by a deadline or a settled
cancellation without a cancel request beside it, counts like a deselected one.
`ReportsFaithfully` is the condition on a tick under which that cannot happen.
-/

namespace Heniek.ScheduleOutcomes
open KeyedTable PipelineVocabulary PipelineDocument RecoveryPolicy ScriptText
open SchedulerTick SchedulerSteps StageChanges SchedulerRun CancellationRuns FallibleRun

def declaredOptional (graph : PipelineGraph) (stageId : String) : Prop :=
  ∃ definition, (stagesById graph).find? stageId = some definition ∧ definition.optional = true

def Completed (graph : PipelineGraph) (stage : StageSnapshot) : Prop :=
  stage.state = .succeeded ∨ (stage.state = .failed ∧ declaredOptional graph stage.stageId) ∨
    (stage.state = .cancelled ∧ stage.lastTransitionReason = some .conditionNotSelected)

/-- Cancelled by the pipeline, by the deadline or by a settled cancellation. -/
def Cut (stage : StageSnapshot) : Prop :=
  stage.state = .cancelled ∧ stage.lastTransitionReason ≠ some .conditionNotSelected

/-- A stage with which no schedule succeeds. -/
def Fatal (graph : PipelineGraph) (stage : StageSnapshot) : Prop :=
  stage.state = .blocked ∨ (stage.state = .failed ∧ ¬ declaredOptional graph stage.stageId)

def observes (input : SchedulerInput) (kinds : List ObservationKind) : Prop :=
  ∃ observation ∈ input.observations, observation.kind ∈ kinds

/-- No stage enters the tick cut, none is settled in it, and the deadline finds none to cut. -/
structure CutsNothing (input : SchedulerInput) : Prop where
  stages : ∀ stage ∈ input.stages, ¬ Cut stage
  unsettled : ¬ observes input [.cancellationSettled]
  timely : ¬ pastDeadline input ∨
    ((∀ stage ∈ input.stages, stage.state.inactive = false) ∧
      ¬ observes input [.attemptFailed, .recoveryApproved, .manualRerun])

structure EndsNothing (input : SchedulerInput) : Prop where
  stages : ∀ stage ∈ input.stages, stage.state ≠ .succeeded ∧ stage.state ≠ .failed
  unended : ¬ observes input [.attemptSucceeded, .attemptFailed, .recoveryRejected]

structure StaysFatal (input : SchedulerInput) : Prop where
  stages : ∃ stage ∈ input.stages, Fatal input.graph stage
  unrerun : ¬ requestsRerun input

def ReportsFaithfully (input : SchedulerInput) : Prop :=
  requestsCancel input ∨ CutsNothing input ∨ EndsNothing input ∨ StaysFatal input

def SucceedsCompleted (tick : TickRecord) : Prop :=
  ∀ terminal, tick.plan.terminal = some terminal → terminal.outcome = .succeeded →
    ∀ stage ∈ tick.plan.stagePatches, Completed tick.input.graph stage

instance (graph : PipelineGraph) (stageId : String) : Decidable (declaredOptional graph stageId) :=
  decidable_of_iff (((stagesById graph).find? stageId).any PipelineStage.optional = true)
    (by simp [declaredOptional, Option.any_eq_true])

instance (graph : PipelineGraph) (stage : StageSnapshot) : Decidable (Completed graph stage) :=
  inferInstanceAs (Decidable (_ ∨ _))

instance (stage : StageSnapshot) : Decidable (Cut stage) := inferInstanceAs (Decidable (_ ∧ _))

instance (graph : PipelineGraph) (stage : StageSnapshot) : Decidable (Fatal graph stage) :=
  inferInstanceAs (Decidable (_ ∨ _))

instance (input : SchedulerInput) (kinds : List ObservationKind) :
    Decidable (observes input kinds) :=
  inferInstanceAs (Decidable (∃ _ ∈ input.observations, _))

instance (input : SchedulerInput) : Decidable (CutsNothing input) :=
  decidable_of_iff ((∀ stage ∈ input.stages, ¬ Cut stage) ∧
      ¬ observes input [.cancellationSettled] ∧ (¬ pastDeadline input ∨
        ((∀ stage ∈ input.stages, stage.state.inactive = false) ∧
          ¬ observes input [.attemptFailed, .recoveryApproved, .manualRerun])))
    ⟨fun h => ⟨h.1, h.2.1, h.2.2⟩, fun h => ⟨h.stages, h.unsettled, h.timely⟩⟩

instance (input : SchedulerInput) : Decidable (EndsNothing input) :=
  decidable_of_iff ((∀ stage ∈ input.stages, stage.state ≠ .succeeded ∧ stage.state ≠ .failed) ∧
      ¬ observes input [.attemptSucceeded, .attemptFailed, .recoveryRejected])
    ⟨fun h => ⟨h.1, h.2⟩, fun h => ⟨h.stages, h.unended⟩⟩

instance (input : SchedulerInput) : Decidable (StaysFatal input) :=
  decidable_of_iff ((∃ stage ∈ input.stages, Fatal input.graph stage) ∧ ¬ requestsRerun input)
    ⟨fun h => ⟨h.1, h.2⟩, fun h => ⟨h.stages, h.unrerun⟩⟩

instance (input : SchedulerInput) : Decidable (ReportsFaithfully input) :=
  inferInstanceAs (Decidable (_ ∨ _))

instance (tick : TickRecord) : Decidable (SucceedsCompleted tick) :=
  decidable_of_iff (tick.plan.terminal.all fun terminal =>
      decide (terminal.outcome = .succeeded →
        ∀ stage ∈ tick.plan.stagePatches, Completed tick.input.graph stage))
    (by simp only [SucceedsCompleted, Option.all_eq_true, decide_eq_true_eq])

section Terminal

variable {ctx : TickContext} {terminal : ScheduleTerminal}

theorem anyRequiredFailure_eq_false {graph : PipelineGraph} {stages : List StageSnapshot}
    (none : anyRequiredFailure graph stages = .ok false) :
    ∀ stage ∈ stages, stage.state = .failed → declaredOptional graph stage.stageId := by
  induction stages with
  | nil => simp
  | cons first stages ih =>
    obtain ⟨required, head, rest⟩ := bind_eq_ok.mp none
    cases required with
    | true => simp at rest
    | false =>
      intro stage member failed
      rcases List.mem_cons.mp member with rfl | member
      · rw [requiredFailure, if_pos failed] at head
        obtain ⟨definition, defined, optional⟩ := bind_eq_ok.mp head
        exact ⟨definition, require_eq_ok.mp defined, by simpa using Except.ok.inj optional⟩
      · exact ih (by simpa using rest) stage member failed

/-- The facts behind a succeeded outcome. -/
structure Succeeded (ctx : TickContext) : Prop where
  uncancelled : ctx.cancelRequested = false
  ended : ∀ stage ∈ ctx.working.rows, stage.state.isTerminal = true ∧ ¬ Fatal ctx.graph stage
  fruitful : ∃ stage ∈ ctx.working.rows, stage.state ≠ .cancelled

theorem computeTerminal_succeeded (computed : computeTerminal ctx = .ok (some terminal))
    (succeeded : terminal.outcome = .succeeded) : Succeeded ctx := by
  simp only [computeTerminal] at computed
  split at computed
  · cases computed
  rename_i allTerminal
  split at computed
  · cases computed
    cases succeeded
  rename_i unblocked
  split at computed
  · cases computed
    cases succeeded
  rename_i going
  obtain ⟨required, failures, computed⟩ := bind_eq_ok.mp computed
  cases required with
  | true =>
    cases computed
    cases succeeded
  | false =>
    have optional := anyRequiredFailure_eq_false failures
    simp only [Bool.or_eq_true, not_or, List.all_eq_true, decide_eq_true_eq, not_forall] at going
    refine ⟨by simpa using going.1, ?_, ?_⟩
    · intro stage member
      refine ⟨?_, ?_⟩
      · have terminal : ∀ stage ∈ ctx.working.rows, stage.state.isTerminal = true := by
          simpa using allTerminal
        exact terminal stage member
      · rintro (blocked | ⟨failed, required⟩)
        · have absent := List.find?_eq_none.mp unblocked stage member
          simp [blocked] at absent
        · exact required (optional stage member failed)
    · obtain ⟨stage, member, other⟩ := going.2
      exact ⟨stage, member, other⟩

theorem Succeeded.completed (succeeded : Succeeded ctx) {stage : StageSnapshot}
    (member : stage ∈ ctx.working.rows) (uncut : ¬ Cut stage) : Completed ctx.graph stage := by
  obtain ⟨terminal, sound⟩ := succeeded.ended stage member
  unfold Completed
  cases state : stage.state with
  | succeeded => exact Or.inl rfl
  | failed =>
    refine Or.inr (Or.inl ⟨rfl, ?_⟩)
    by_contra required
    exact sound (Or.inr ⟨state, required⟩)
  | cancelled =>
    refine Or.inr (Or.inr ⟨rfl, ?_⟩)
    by_contra other
    exact uncut ⟨state, other⟩
  | blocked => exact absurd (Or.inl state) sound
  | _ => rw [state] at terminal; cases terminal

end Terminal

section Ticks

variable [Sha256]

def Excludes (kinds : List ObservationKind) (_ : TickContext)
    (observation : SchedulerObservation) : Prop :=
  observation.kind ∉ kinds

theorem steps_excluding {tick : TickRecord} {kinds : List ObservationKind} (trace : Trace tick)
    (unobserved : ¬ observes tick.input kinds) :
    Steps (Excludes kinds) (tickScope trace.start) trace.start trace.settled :=
  trace.steps fun _ observation member listed => unobserved ⟨observation, member, listed⟩

variable {ctx : TickContext} {stage next : StageSnapshot} {scope : Scope}

theorem change_uncut
    (change : Change (Excludes [.cancellationSettled, .cancelRequested]) scope ctx stage next)
    (going : ctx.stopping = false) : ¬ Cut next := by
  rintro ⟨state, reason⟩
  cases change with
  | observed observation _ _ _ admitted _ cause =>
    cases cause with
    | settle kind => exact admitted (by simp [kind])
    | _ => cases state
  | recovered _ _ _ _ _ _ _ _ cause => exact (recoveryCause_target cause).1 state
  | phased _ _ _ cause =>
    cases cause with
    | cancelInactive stopping =>
      rw [going] at stopping
      cases stopping
    | releaseDeselected => exact reason rfl
    | _ => cases state
  | rerun => cases state
  | queued => cases state

theorem change_settled
    (change :
      Change (Excludes [.cancellationSettled, .attemptFailed, .recoveryApproved, .manualRerun])
      scope ctx stage next)
    (active : stage.state.inactive = false) : ¬ Cut next ∧ next.state.inactive = false := by
  cases change with
  | observed observation _ _ _ admitted _ cause =>
    cases cause with
    | settle kind => exact absurd (by simp [kind]) admitted
    | retry _ kind => exact absurd (by simp [kind]) admitted
    | fail _ kind => exact absurd (by simp [kind]) admitted
    | start => exact ⟨(fun cut => nomatch cut.1), rfl⟩
    | wait => exact ⟨(fun cut => nomatch cut.1), rfl⟩
    | succeed => exact ⟨(fun cut => nomatch cut.1), rfl⟩
  | recovered _ _ _ _ _ _ admitted _ cause =>
    cases cause with
    | classified _ _ _ _ kind => exact absurd (by simp [kind]) admitted
    | approved _ _ _ _ kind => exact absurd (by simp [kind]) admitted
    | rejected => exact ⟨(fun cut => nomatch cut.1), rfl⟩
  | phased _ _ _ cause =>
    rw [phaseCause_source cause] at active
    cases active
  | rerun _ _ admitted kind => exact absurd (by simp [kind]) admitted
  | queued state =>
    rw [state] at active
    cases active

theorem change_unended
    (change :
      Change
      (Excludes [.attemptSucceeded, .attemptFailed, .recoveryRejected]) scope ctx stage next) :
    next.state ≠ .succeeded ∧ next.state ≠ .failed := by
  cases change with
  | observed observation _ _ _ admitted _ cause =>
    cases cause with
    | succeed kind => exact absurd (by simp [kind]) admitted
    | fail _ kind => exact absurd (by simp [kind]) admitted
    | _ => exact ⟨nofun, nofun⟩
  | recovered _ _ _ _ _ _ admitted _ cause =>
    cases cause with
    | classified _ _ _ _ kind => exact absurd (by simp [kind]) admitted
    | approved => exact ⟨nofun, nofun⟩
    | rejected _ _ kind => exact absurd (by simp [kind]) admitted
  | phased _ _ _ cause => cases cause <;> exact ⟨nofun, nofun⟩
  | rerun => exact ⟨nofun, nofun⟩
  | queued => exact ⟨nofun, nofun⟩

variable {ticks : List TickRecord} {tick : TickRecord}

theorem settled_uncut (run : FullRun ticks) (member : tick ∈ ticks) (trace : Trace tick)
    (uncancelled : ¬ requestsCancel tick.input) (nothing : CutsNothing tick.input) :
    ∀ stage ∈ trace.settled.working.rows, ¬ Cut stage := by
  rcases nothing.timely with timely | ⟨active, quiet⟩
  · have unobserved : ¬ observes tick.input [.cancellationSettled, .cancelRequested] := by
      rintro ⟨observation, listed, kind⟩
      simp only [List.mem_cons, List.not_mem_nil, or_false] at kind
      rcases kind with kind | kind
      · exact nothing.unsettled ⟨observation, listed, by simp [kind]⟩
      · exact uncancelled ⟨observation, listed, kind⟩
    refine steps_stages (steps_excluding trace unobserved) ?_ ?_
    · intro stage row
      exact nothing.stages stage ((run.mem_working member trace).mp row)
    · intro mid stage next before _ _ change
      refine change_uncut change (steps_going before ?_ timely)
      intro _ observation admitted kind
      exact admitted (by simp [kind])
  · have unobserved : ¬ observes tick.input
        [.cancellationSettled, .attemptFailed, .recoveryApproved, .manualRerun] := by
      rintro ⟨observation, listed, kind⟩
      rcases List.mem_cons.mp kind with kind | kind
      · exact nothing.unsettled ⟨observation, listed, by simp [kind]⟩
      · exact quiet ⟨observation, listed, kind⟩
    have kept : ∀ stage ∈ trace.settled.working.rows,
        ¬ Cut stage ∧ stage.state.inactive = false := by
      refine steps_stages (steps_excluding trace unobserved) ?_ ?_
      · intro stage row
        have given := (run.mem_working member trace).mp row
        exact ⟨nothing.stages stage given, active stage given⟩
      · intro mid stage next _ _ before change
        exact change_settled change before.2
    exact fun stage row => (kept stage row).1

theorem settled_unended (run : FullRun ticks) (member : tick ∈ ticks) (trace : Trace tick)
    (nothing : EndsNothing tick.input) :
    ∀ stage ∈ trace.settled.working.rows, stage.state ≠ .succeeded ∧ stage.state ≠ .failed := by
  refine steps_stages (steps_excluding trace nothing.unended) ?_ ?_
  · intro stage row
    exact nothing.stages stage ((run.mem_working member trace).mp row)
  · intro mid stage next _ _ _ change
    exact change_unended change

theorem settled_fatal (run : FullRun ticks) (member : tick ∈ ticks) (trace : Trace tick)
    (fatal : StaysFatal tick.input) :
    ∃ stage ∈ trace.settled.working.rows, Fatal trace.settled.graph stage := by
  obtain ⟨stage, given, dead⟩ := fatal.stages
  have found : trace.start.stage? stage.stageId = some stage :=
    Table.find?_key ((run.mem_working member trace).mpr given)
  have terminal : stage.state.isTerminal = true := by
    rcases dead with state | ⟨state, _⟩ <;> rw [state] <;> rfl
  have steps : Steps NoRerun (tickScope trace.start) trace.start trace.settled :=
    trace.steps fun _ observation listed kind => fatal.unrerun ⟨observation, listed, kind⟩
  have kept := steps_terminal steps (fun _ _ admitted => admitted) found terminal
  refine ⟨stage, Table.mem_of_find? kept, ?_⟩
  obtain ⟨version, same⟩ := trace.input_eq
  rw [TickContext.graph, steps_input steps, trace.start_input, same]
  exact dead

/-- In a schedule whose ticks all report faithfully, a plan that says succeeded has only
completed stages. -/
theorem succeeded_schedule_completed (run : FullRun ticks)
    (faithful : ∀ tick ∈ ticks, ReportsFaithfully tick.input) :
    ∀ tick ∈ ticks, SucceedsCompleted tick := by
  intro tick member terminal planned outcome stage patched
  obtain ⟨trace⟩ := (run.ticked tick member).trace
  obtain ⟨version, same⟩ := trace.input_eq
  have computed := trace.terminal_eq
  rw [planned] at computed
  have succeeded := computeTerminal_succeeded computed outcome
  have row : stage ∈ trace.settled.working.rows := by
    rw [← trace.final_working, ← trace.stagePatches_perm.mem_iff]
    exact patched
  have graphs : trace.settled.graph = tick.input.graph := by
    rw [TickContext.graph, steps_input trace.free_steps, trace.start_input, same]
  rw [← graphs]
  by_cases cancels : requestsCancel tick.input
  · have raised := settled_cancelRequested trace cancels
    rw [succeeded.uncancelled] at raised
    cases raised
  rcases faithful tick member with cancels' | nothing | nothing | fatal
  · exact absurd cancels' cancels
  · exact succeeded.completed row (settled_uncut run member trace cancels nothing stage row)
  · obtain ⟨other, kept, fruitful⟩ := succeeded.fruitful
    have unended := settled_unended run member trace nothing other kept
    obtain ⟨ended, alive⟩ := succeeded.ended other kept
    have unblocked : other.state ≠ .blocked := fun blocked => alive (Or.inl blocked)
    revert ended fruitful unended unblocked
    cases other.state <;> simp [StageState.isTerminal]
  · obtain ⟨dead, kept, fatal⟩ := settled_fatal run member trace fatal
    exact absurd fatal (succeeded.ended dead kept).2

end Ticks

def twoRoots : PipelineGraph where
  mode := .autonomous
  stages :=
    [{ id := "build", type := .agent, mode := .autonomous, optional := false },
      { id := "lint", type := .agent, mode := .autonomous, optional := false }]
  edges := []

def startedCall : Call where
  now := "t1"
  observations :=
    [stageObservation "o1" "build" "t1" .attemptStarted,
      stageObservation "o2" "lint" "t1" .attemptStarted,
      stageObservation "o3" "build" "t1" .attemptSucceeded]

def completedTicks : List TickRecord :=
  @drive blankDigest
    [startedCall,
      { now := "t2", observations := [stageObservation "o4" "lint" "t2" .attemptSucceeded] }]
    (initialInput twoRoots "run" "pipeline" "t0")

theorem succeeded_schedule_completed_sample :
    (∃ tick ∈ completedTicks, ∃ terminal, tick.plan.terminal = some terminal ∧
      terminal.outcome = .succeeded) ∧ ∀ tick ∈ completedTicks, SucceedsCompleted tick := by
  have run : @FullRun blankDigest completedTicks :=
    @drive_fullRun blankDigest _ _ (initialInput_starts _ _ _ _) (by decide +kernel)
  have faithful : ∀ tick ∈ completedTicks, ReportsFaithfully tick.input := by decide +kernel
  have reported : (completedTicks.any fun tick =>
      tick.plan.terminal.any fun terminal => decide (terminal.outcome = .succeeded)) = true := by
    decide +kernel
  refine ⟨?_, @succeeded_schedule_completed blankDigest _ run faithful⟩
  simpa [Option.any_eq_true] using reported

def cutTicks : List TickRecord :=
  @drive blankDigest
    [startedCall,
      { now := "t2"
        observations :=
          [{ observationId := "o4", kind := .cancelRequested, recordedAt := "t2" }] },
      { now := "t3", observations := [stageObservation "o5" "lint" "t3" .cancellationSettled] }]
    (initialInput twoRoots "run" "pipeline" "t0")

theorem succeeded_schedule_not_completed :
    ¬ ∀ [Sha256] (ticks : List TickRecord), FullRun ticks →
      ∀ tick ∈ ticks, SucceedsCompleted tick := by
  intro claim
  have run : @FullRun blankDigest cutTicks :=
    @drive_fullRun blankDigest _ _ (initialInput_starts _ _ _ _) (by decide +kernel)
  have broken : ¬ ∀ tick ∈ cutTicks, SucceedsCompleted tick := by decide +kernel
  exact broken (@claim blankDigest cutTicks run)

end Heniek.ScheduleOutcomes
