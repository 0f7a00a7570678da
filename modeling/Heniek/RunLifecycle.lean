import Heniek.RunnerLedger
import Heniek.TerminalCoherence

/-!
What the runner service tells about a run and how it cancels one. `status` asks
whether the stored outcome is defined, but the decoder of a nullable column
returns `null`, which is: a schedule without an outcome is reported as failed,
and `cancel` takes that for the end of the run.
-/

namespace Heniek.RunLifecycle
open RecoveryPolicy SchedulerTick SchedulerRun
open PipelineStore PipelineRunner StoredStages TerminalCoherence ScriptText
open RunnerLedger (RunnerPhase StageRunnerAttempt LedgerDatabase)

def attemptBefore (left right : StageRunnerAttempt) : Bool :=
  if left.updatedAt ≠ right.updatedAt then binaryBefore left.updatedAt right.updatedAt
  else binaryBefore left.attemptId right.attemptId

def readOpenRunnerAttempts (db : LedgerDatabase) : List StageRunnerAttempt :=
  orderBy attemptBefore
    (db.attempts.rows.filter fun attempt =>
      attempt.phase ∉ [RunnerPhase.succeeded, .failed, .cancelled])

inductive PipelineRunLifecycle where
  | missing
  | running
  | retrying (attemptOrdinal : Nat)
  | recoveryRequired
  | succeeded
  | failed
  | cancelled
  deriving DecidableEq

/-- The unfinished stage with the most attempts, among those with more than one. -/
def retryingStage (stages : List StageSnapshot) : Option StageSnapshot :=
  ((stages.filter fun stage => 1 < stage.attemptOrdinal ∧
    stage.state.isTerminal = false).insertionSort
    fun left right => right.attemptOrdinal ≤ left.attemptOrdinal).head?

def status (db : LedgerDatabase) (runId : String) : PipelineRunLifecycle :=
  match readPipelineSchedule db.store runId with
  | none => .missing
  | some schedule =>
    if (toNullableText schedule.terminalOutcome).defined then
      match schedule.terminalOutcome with
      | some .succeeded => .succeeded
      | some .cancelled => .cancelled
      | _ => .failed
    else if (readOpenRunnerAttempts db).any fun attempt =>
        decide (attempt.runId = runId) && decide (attempt.phase = .recoveryRequired) then
      .recoveryRequired
    else
      match retryingStage (readPipelineStageProjections db.store runId) with
      | none => .running
      | some stage => .retrying stage.attemptOrdinal

/-- The id and the times a call of `cancel` takes from its surroundings. -/
structure CancelCall where
  observationId : String
  recordedAt : String
  clock : Nat → String

def cancelObservation (call : CancelCall) : SchedulerObservation where
  observationId := call.observationId
  kind := .cancelRequested
  recordedAt := call.recordedAt

/-- `cancel` up to its tick: the store with the request and the store after the tick, or nothing
where it returns the current state at once. -/
def cancelTick [Sha256] (db : LedgerDatabase) (runId : String) (call : CancelCall) :
    Except ServiceError (Option (StateDatabase × StateDatabase)) :=
  if status db runId ∈ [PipelineRunLifecycle.missing, .succeeded, .failed, .cancelled] then .ok none
  else do
    let recorded ←
      (recordPipelineObservation db.store runId (cancelObservation call)).mapError .store
    let ticked ← tick recorded runId call.clock
    .ok (some (recorded, ticked))

def cancel [Sha256] (drainIntents : LedgerDatabase → Except ServiceError LedgerDatabase)
    (db : LedgerDatabase) (runId : String) (call : CancelCall) :
    Except ServiceError (PipelineRunLifecycle × LedgerDatabase) := do
  match ← cancelTick db runId call with
  | none => .ok (status db runId, db)
  | some (_, ticked) =>
    let drained ← drainIntents { db with store := ticked }
    .ok (status drained runId, drained)

def AllTerminal (db : StateDatabase) (runId : String) : Prop :=
  ∀ stage ∈ readPipelineStageProjections db runId, stage.state.isTerminal = true

/-- A final state is reported of finished stages only, and `failed` of a stored failure only. -/
structure StatusAgrees (db : LedgerDatabase) (runId : String)
    (schedule : PipelineScheduleSnapshot) : Prop where
  final : status db runId ∈ [PipelineRunLifecycle.succeeded, .failed, .cancelled] →
    AllTerminal db.store runId
  failed : status db runId = .failed →
    schedule.terminalOutcome = some .failed ∨ schedule.terminalOutcome = some .blocked
  unfinished : ¬ AllTerminal db.store runId →
    status db runId = .running ∨ (∃ attemptOrdinal, status db runId = .retrying attemptOrdinal) ∨
      status db runId = .recoveryRequired

/-- The request is in the store before the tick, and the tick cuts every stage that is not in
flight and asks for the cancellation of the others. -/
structure Cancels (db : LedgerDatabase) (runId : String) (call : CancelCall)
    (recorded ticked : StateDatabase) : Prop where
  requested : ⟨runId, cancelObservation call, none⟩ ∈ recorded.observations.rows
  cut : ∀ stage ∈ readPipelineStageProjections db.store runId, stage.state.inactive = true →
    ∃ next ∈ readPipelineStageProjections ticked runId,
      next.stageId = stage.stageId ∧ next.state = .cancelled
  asked : ∀ stage ∈ readPipelineStageProjections ticked runId, stage.state.inFlight = true →
    ∃ intent ∈ ticked.intents.rows, intent.runId = runId ∧ ∃ attemptId,
      intent.payload = .cancel stage.stageId attemptId stage.generation stage.attemptOrdinal

def CancelHonoured [Sha256] (db : LedgerDatabase) (runId : String) : Prop :=
  ¬ AllTerminal db.store runId → ∀ call outcome, cancelTick db runId call = .ok outcome →
    ∃ recorded ticked, outcome = some (recorded, ticked) ∧ Cancels db runId call recorded ticked

def LifecycleAgrees [Sha256] (db : LedgerDatabase) (runId : String)
    (schedule : PipelineScheduleSnapshot) : Prop :=
  StatusAgrees db runId schedule ∧ CancelHonoured db runId

section Status

variable {db : LedgerDatabase} {runId : String} {schedule : PipelineScheduleSnapshot}

theorem defined_toNullableText {α : Type} (column : Option α) :
    (toNullableText column).defined = true := by
  cases column <;> rfl

theorem status_eq (found : readPipelineSchedule db.store runId = some schedule) :
    status db runId =
      match schedule.terminalOutcome with
      | some .succeeded => .succeeded
      | some .cancelled => .cancelled
      | _ => .failed := by
  rw [status, found]
  simp only [defined_toNullableText, if_true]

theorem status_final (found : readPipelineSchedule db.store runId = some schedule) :
    status db runId ∈ [PipelineRunLifecycle.succeeded, .failed, .cancelled] := by
  rw [status_eq found]
  split <;> simp

/-- Where a run has a schedule, what is reported and cancelled agrees with it exactly when its
outcome is stored and all its stages are terminal. -/
theorem lifecycle_agrees_iff [Sha256]
    (found : readPipelineSchedule db.store runId = some schedule) :
    LifecycleAgrees db runId schedule ↔
      schedule.terminalOutcome ≠ none ∧ AllTerminal db.store runId := by
  constructor
  · rintro ⟨agrees, _⟩
    refine ⟨?_, agrees.final (status_final found)⟩
    intro unset
    have reported : status db runId = .failed := by
      rw [status_eq found, unset]
    rcases agrees.failed reported with outcome | outcome <;> rw [unset] at outcome <;> cases outcome
  · rintro ⟨ended, terminal⟩
    refine ⟨⟨fun _ => terminal, ?_, fun unfinished => absurd terminal unfinished⟩,
      fun unfinished => absurd terminal unfinished⟩
    intro reported
    rw [status_eq found] at reported
    cases outcome : schedule.terminalOutcome with
    | none => exact absurd outcome ended
    | some outcome' =>
      rw [outcome] at reported
      cases outcome' with
      | failed => exact Or.inl rfl
      | blocked => exact Or.inr rfl
      | succeeded => cases reported
      | cancelled => cases reported

end Status

def finishedStore : StateDatabase :=
    (finishedTicks.getLast?.map DaemonTick.after).getD emptyDatabase

theorem lifecycle_agrees_iff_sample :
    ∃ schedule, readPipelineSchedule finishedStore "run" = some schedule ∧
      schedule.terminalOutcome = some .succeeded ∧
      @LifecycleAgrees blankDigest { store := finishedStore } "run" schedule := by
  let _ : Sha256 := blankDigest
  have stored : (readPipelineSchedule finishedStore "run").bind
      PipelineScheduleSnapshot.terminalOutcome = some .succeeded := by decide +kernel
  have ended : ((readPipelineStageProjections finishedStore "run").all fun stage =>
      stage.state.isTerminal) = true := by decide +kernel
  obtain ⟨schedule, found, outcome⟩ := Option.bind_eq_some_iff.mp stored
  refine ⟨schedule, found, outcome, (lifecycle_agrees_iff found).mpr ⟨?_, ?_⟩⟩
  · rw [outcome]
    nofun
  · exact List.all_eq_true.mp ended

/-- Every run is reported as failed from its creation on, and cannot be cancelled. -/
theorem lifecycle_disagrees :
    ¬ ∀ [Sha256] (ticks : List DaemonTick), AdmittedRun ticks → ∀ tick ∈ ticks,
      ∀ (db : LedgerDatabase) schedule, db.store = tick.after →
        readPipelineSchedule db.store tick.runId = some schedule →
          LifecycleAgrees db tick.runId schedule := by
  intro claim
  let _ : Sha256 := blankDigest
  have agrees := claim finishedTicks (serve_admitted (by decide))
  have broken : (finishedTicks.any fun tick =>
      (readPipelineSchedule tick.after tick.runId).any fun schedule =>
        decide (schedule.terminalOutcome = none)) = true := by decide +kernel
  simp only [List.any_eq_true, Option.any_eq_true, decide_eq_true_eq] at broken
  obtain ⟨tick, member, schedule, found, unset⟩ := broken
  have holds := agrees tick member { store := tick.after } schedule rfl found
  have reported : status { store := tick.after } tick.runId = .failed := by
    rw [status_eq found, unset]
  rcases holds.1.failed reported with outcome | outcome <;> rw [unset] at outcome <;> cases outcome

end Heniek.RunLifecycle
