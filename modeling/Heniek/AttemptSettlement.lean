import Heniek.AccountScheduling

/-!
What happens to a claimed attempt and to a schedule that is not claimed: the attempt is
prepared, started and completed under its lease, which is renewed, restored after a
restart or released, and a queued schedule is cancelled or continues as the answer to its
capacity question says.
-/

namespace Heniek.AttemptSettlement
open AccountScheduling

/-- `UPDATE` of one attempt that must meet a condition. -/
def amendAttempt (db : SchedulingDatabase) (attemptId : Nat) (ready : ExecutionAttempt → Bool)
    (change : ExecutionAttempt → ExecutionAttempt) (message : String) :
    SchedulingResult SchedulingDatabase :=
  match db.attempts.find? attemptId with
  | some attempt =>
    if ready attempt then .ok { db with attempts := db.attempts.upsert (change attempt) }
    else .error (.store message)
  | none => .error (.store message)

def assignAttemptWorkspace (db : SchedulingDatabase) (attemptId : Nat) (workspaceId : String) :
    SchedulingResult SchedulingDatabase :=
  amendAttempt db attemptId
    (fun attempt => attempt.status = .queued && attempt.workspaceId = none)
    (fun attempt => { attempt with workspaceId := some workspaceId })
    "attempt cannot accept a workspace"

def updateAttemptLimits (db : SchedulingDatabase) (attemptId : Nat) (limits : String) :
    SchedulingResult SchedulingDatabase :=
  amendAttempt db attemptId (fun attempt => attempt.status = .queued)
    (fun attempt => { attempt with limits := limits })
    "attempt cannot accept updated limits"

def recordAttemptReadonlyBaseline (db : SchedulingDatabase) (attemptId : Nat)
    (baseline : String) : SchedulingResult SchedulingDatabase :=
  amendAttempt db attemptId
    (fun attempt => attempt.status = .queued && attempt.readonlyBaseline = none)
    (fun attempt => { attempt with readonlyBaseline := some baseline })
    "attempt cannot accept a read-only baseline"

def startExecutionAttempt (db : SchedulingDatabase) (attemptId : Nat)
    (backendExecutionId : String) : SchedulingResult SchedulingDatabase := do
  let started ← amendAttempt db attemptId
    (fun attempt => attempt.status = .queued && attempt.workspaceId.isSome)
    (fun attempt =>
      { attempt with backendExecutionId := some backendExecutionId, status := .running })
    "attempt is not ready to start"
  if db.attempts.rows.any fun row =>
      decide (row.attemptId ≠ attemptId ∧ row.backendExecutionId = some backendExecutionId) then
    .error (.constraint "execution_attempt")
  else .ok started

structure LeaseGrant where
  fencingRevision : Nat
  expiresAt : Int
  deriving DecidableEq

structure RenewInput where
  attemptId : Nat
  ownerId : String
  fencingRevision : Nat
  leaseTtlMs : Option Int

/-- The condition of the renewing `UPDATE`. -/
def renewable (input : RenewInput) (now : Int) (lease : AccountConcurrencyLease) : Bool :=
  decide (lease.attemptId = input.attemptId ∧ lease.ownerId = input.ownerId ∧
    lease.fencingRevision = input.fencingRevision ∧ lease.state = .active ∧ now < lease.expiresAt)

def renewedLease (input : RenewInput) (now expiresAt : Int) (lease : AccountConcurrencyLease) :
    AccountConcurrencyLease :=
  if renewable input now lease then
    { lease with expiresAt := expiresAt, fencingRevision := input.fencingRevision + 1 }
  else lease

theorem renewedLease_leaseId (input : RenewInput) (now expiresAt : Int)
    (lease : AccountConcurrencyLease) :
    (renewedLease input now expiresAt lease).leaseId = lease.leaseId := by
  unfold renewedLease
  split <;> rfl

def renewAccountLease (db : SchedulingDatabase) (now : Int) (input : RenewInput) :
    SchedulingResult (LeaseGrant × SchedulingDatabase) :=
  let expiresAt := now + input.leaseTtlMs.getD defaultLeaseTtlMs
  let db := expireOrphanLeases db now
  if db.leases.rows.countP (renewable input now) = 1 then
    if input.attemptId ∈ db.attempts.keys then
      .ok (⟨input.fencingRevision + 1, expiresAt⟩,
        { db with
          leases := db.leases.mapAll (renewedLease input now expiresAt)
            (renewedLease_leaseId input now expiresAt) })
    else .error (.corruption "lease attempt is missing")
  else .error (.store "account lease renewal was fenced or expired")

structure RestoreInput where
  attemptId : Nat
  ownerId : String
  leaseTtlMs : Option Int
  recoveryReasonCode : Option String

def recoverableLease (db : SchedulingDatabase) (attemptId : Nat) :
    Option AccountConcurrencyLease := do
  let attempt ← db.attempts.find? attemptId
  if attempt.status.ongoing then
    db.leases.rows.find? fun lease => lease.attemptId = attemptId
  else none

def restoredLease (input : RestoreInput) (expiresAt : Int) (revision : Nat)
    (lease : AccountConcurrencyLease) : AccountConcurrencyLease :=
  if lease.attemptId = input.attemptId then
    { lease with
      ownerId := input.ownerId
      expiresAt := expiresAt
      fencingRevision := revision
      state := .active }
  else lease

theorem restoredLease_leaseId (input : RestoreInput) (expiresAt : Int) (revision : Nat)
    (lease : AccountConcurrencyLease) :
    (restoredLease input expiresAt revision lease).leaseId = lease.leaseId := by
  unfold restoredLease
  split <;> rfl

def requireRecovery (attempt : ExecutionAttempt) : ExecutionAttempt :=
  { attempt with status := .recoveryRequired }

theorem requireRecovery_attemptId (attempt : ExecutionAttempt) :
    (requireRecovery attempt).attemptId = attempt.attemptId := rfl

def recoverAttempt (db : SchedulingDatabase) (input : RestoreInput) : SchedulingDatabase :=
  match input.recoveryReasonCode with
  | none => db
  | some _ =>
    { db with
      attempts := db.attempts.modify input.attemptId requireRecovery requireRecovery_attemptId }

def restoreAccountLease (db : SchedulingDatabase) (now : Int) (input : RestoreInput) :
    SchedulingResult (LeaseGrant × SchedulingDatabase) :=
  let expiresAt := now + input.leaseTtlMs.getD defaultLeaseTtlMs
  match recoverableLease db input.attemptId with
  | none => .error (.store "recoverable account lease does not exist")
  | some lease => do
      let revision := lease.fencingRevision + 1
      let db := recoverAttempt db input
      let db ← storeLeases db (db.leases.mapAll (restoredLease input expiresAt revision)
        (restoredLease_leaseId input expiresAt revision))
      .ok (⟨revision, expiresAt⟩, db)

def releasedLease (attemptId : Nat) (lease : AccountConcurrencyLease) : AccountConcurrencyLease :=
  if lease.attemptId = attemptId ∧ lease.state = .active then
    { lease with state := .released, fencingRevision := lease.fencingRevision + 1 }
  else lease

theorem releasedLease_leaseId (attemptId : Nat) (lease : AccountConcurrencyLease) :
    (releasedLease attemptId lease).leaseId = lease.leaseId := by
  unfold releasedLease
  split <;> rfl

def releaseLease (db : SchedulingDatabase) (attemptId : Nat) : SchedulingDatabase :=
  { db with leases := db.leases.mapAll (releasedLease attemptId) (releasedLease_leaseId attemptId) }

inductive CompletedStatus where
  | succeeded
  | failed
  | cancelled
  deriving DecidableEq

def CompletedStatus.attemptStatus : CompletedStatus → AttemptStatus
  | .succeeded => .succeeded
  | .failed => .failed
  | .cancelled => .cancelled

def CompletedStatus.candidateState : CompletedStatus → CandidateState
  | .succeeded => .succeeded
  | .failed => .failed
  | .cancelled => .failed

structure CompleteInput where
  attemptId : Nat
  status : CompletedStatus
  result : Option String
  failure : Option String
  fallbackEligible : Bool

structure CompletionOutcome where
  requeued : Bool
  exhausted : Bool
  deriving DecidableEq

def finishedAttempt (input : CompleteInput) (attempt : ExecutionAttempt) : ExecutionAttempt :=
  { attempt with
    status := input.status.attemptStatus
    result := input.result
    failure := input.failure }

theorem finishedAttempt_attemptId (input : CompleteInput) (attempt : ExecutionAttempt) :
    (finishedAttempt input attempt).attemptId = attempt.attemptId := rfl

def settleCandidate (state : CandidateState) (candidate : ExecutionCandidate) :
    ExecutionCandidate :=
  { candidate with state := state }

theorem settleCandidate_key (state : CandidateState) (candidate : ExecutionCandidate) :
    ((settleCandidate state candidate).runId, (settleCandidate state candidate).candidateIndex) =
      (candidate.runId, candidate.candidateIndex) := rfl

def completable (db : SchedulingDatabase) (attemptId : Nat) :
    Option (ExecutionAttempt × ExecutionSchedule) := do
  let attempt ← db.attempts.find? attemptId
  let schedule ← db.schedules.find? attempt.runId
  if attempt.status.ongoing then some (attempt, schedule) else none

def closeAttempt (db : SchedulingDatabase) (input : CompleteInput) (attempt : ExecutionAttempt) :
    SchedulingDatabase :=
  releaseLease
    { db with
      attempts := db.attempts.modify input.attemptId (finishedAttempt input)
        (finishedAttempt_attemptId input)
      candidates := db.candidates.modify (attempt.runId, attempt.candidateIndex)
        (settleCandidate input.status.candidateState)
        (settleCandidate_key input.status.candidateState) }
    input.attemptId

def remainingIndexes (db : SchedulingDatabase) (runId : String) (candidateIndex : Nat) :
    List Nat :=
  ((db.candidates.rows.filter fun row =>
      decide (row.runId = runId ∧ candidateIndex < row.candidateIndex ∧ row.state = .pending)).map
    ExecutionCandidate.candidateIndex).insertionSort (· ≤ ·)

def requeueSchedule (schedule : ExecutionSchedule) : ExecutionSchedule :=
  { schedule with
    state := .queued
    currentCandidateIndex := none
    currentAttemptId := none
    revision := schedule.revision + 1 }

theorem requeueSchedule_runId (schedule : ExecutionSchedule) :
    (requeueSchedule schedule).runId = schedule.runId := rfl

def terminateSchedule (schedule : ExecutionSchedule) : ExecutionSchedule :=
  { schedule with state := .terminal, revision := schedule.revision + 1 }

theorem terminateSchedule_runId (schedule : ExecutionSchedule) :
    (terminateSchedule schedule).runId = schedule.runId := rfl

def fallsBack (input : CompleteInput) : Bool := input.status = .failed && input.fallbackEligible

def completeExecutionAttempt (db : SchedulingDatabase) (now : Int) (input : CompleteInput) :
    SchedulingResult (CompletionOutcome × SchedulingDatabase) :=
  match completable db input.attemptId with
  | none => .error (.store "attempt is already terminal or does not exist")
  | some (attempt, schedule) =>
    let db := closeAttempt db input attempt
    let (requeued, db) :=
      if fallsBack input then
        enqueueEach db attempt.runId schedule.requestedPriority now
          (remainingIndexes db attempt.runId attempt.candidateIndex)
      else (false, db)
    if requeued then
      .ok (⟨true, false⟩, moveSchedule db attempt.runId requeueSchedule requeueSchedule_runId)
    else
      .ok (⟨false, fallsBack input⟩,
        moveSchedule db attempt.runId terminateSchedule terminateSchedule_runId)

def cancelledAttempt (attemptId : Nat) (schedule : ExecutionSchedule)
    (candidate : ExecutionCandidate) : ExecutionAttempt where
  attemptId := attemptId
  runId := schedule.runId
  stageId := schedule.stageId
  candidateIndex := 0
  profileId := candidate.profileId
  accountId := candidate.accountId
  workspaceId := none
  backendExecutionId := none
  status := .cancelled
  limits := candidate.limits
  permissions := candidate.permissions
  readonlyBaseline := none
  result := none
  failure := none

def cancelSchedule (attemptId : Nat) (schedule : ExecutionSchedule) : ExecutionSchedule :=
  { schedule with
    state := .terminal
    currentCandidateIndex := some 0
    currentAttemptId := some attemptId
    revision := schedule.revision + 1 }

theorem cancelSchedule_runId (attemptId : Nat) (schedule : ExecutionSchedule) :
    (cancelSchedule attemptId schedule).runId = schedule.runId := rfl

def cancelQueuedInside (db : SchedulingDatabase) (schedule : ExecutionSchedule) :
    SchedulingResult SchedulingDatabase :=
  match db.candidates.find? (schedule.runId, 0) with
  | none => .error (.corruption "primary candidate missing")
  | some candidate => do
      let attemptId := db.drawn
      let db := { db with drawn := db.drawn + 1 }
      let db ← insertAttempt db (cancelledAttempt attemptId schedule candidate)
      let db := dropFromQueue db schedule.runId
      let db :=
        { db with
          candidates := db.candidates.modify (schedule.runId, 0) (settleCandidate .failed)
            (settleCandidate_key .failed) }
      .ok (moveSchedule db schedule.runId (cancelSchedule attemptId)
        (cancelSchedule_runId attemptId))

def cancelQueuedExecutionSchedule (db : SchedulingDatabase) (runId : String) :
    SchedulingResult (Bool × SchedulingDatabase) := do
  let schedule ← readExecutionScheduleRequired db runId
  if schedule.state = .terminal then .ok (false, db)
  else if schedule.state = .running then
    .error (.store "running schedules must cancel their backend attempt first")
  else
    let db ← cancelQueuedInside db schedule
    .ok (true, db)

inductive CapacityAnswer where
  | wait
  | fallback (candidateIndex : Int)
  | cancel
  deriving DecidableEq

inductive AnswerOutcome where
  | accepted
  | stale
  deriving DecidableEq

structure CapacityAnswerInput where
  runId : String
  expectedRevision : Nat
  answer : CapacityAnswer

def answeredIndex : CapacityAnswer → SchedulingResult Nat
  | .fallback candidateIndex =>
    if candidateIndex < 1 ∨ maxSafeInteger < candidateIndex then
      .error (.store "fallback answer must select a configured fallback")
    else .ok candidateIndex.toNat
  | _ => .ok 0

def resumeSchedule (schedule : ExecutionSchedule) : ExecutionSchedule :=
  { schedule with state := .queued, revision := schedule.revision + 1 }

theorem resumeSchedule_runId (schedule : ExecutionSchedule) :
    (resumeSchedule schedule).runId = schedule.runId := rfl

def resumeQueued (db : SchedulingDatabase) (now : Int) (schedule : ExecutionSchedule)
    (candidateIndex : Nat) : SchedulingResult SchedulingDatabase :=
  match enqueueCandidate db schedule.runId candidateIndex schedule.requestedPriority now with
  | (true, db) => .ok (moveSchedule db schedule.runId resumeSchedule resumeSchedule_runId)
  | (false, _) => .error (.store "capacity answer selected an unavailable candidate")

def applyCapacityAnswer (db : SchedulingDatabase) (now : Int) (input : CapacityAnswerInput) :
    SchedulingResult (AnswerOutcome × SchedulingDatabase) := do
  let schedule ← readExecutionScheduleRequired db input.runId
  if schedule.state ≠ .waitingOnUser ∨ schedule.revision ≠ input.expectedRevision then
    .ok (.stale, db)
  else if input.answer = .cancel then
    let db ← cancelQueuedInside db schedule
    .ok (.accepted, db)
  else
    let candidateIndex ← answeredIndex input.answer
    let db ← resumeQueued db now schedule candidateIndex
    .ok (.accepted, db)

structure AnswerQuestionInput where
  runId : String
  interactionId : Nat
  expectedInteractionRevision : Nat
  answers : List SubmittedAnswer
  answeredByKeyId : String

structure QuestionOutcome where
  interactionId : Nat
  interactionRevision : Nat
  scheduleRevision : Nat
  operationId : Nat
  deriving DecidableEq

def digitValue (c : Char) : Nat := c.toNat - '0'.toNat

/-- `Use fallback` with a number that has no leading zero. -/
def fallbackChoice (label : List Char) : Option CapacityAnswer :=
  let marker := "Use fallback ".toList
  let digits := label.drop marker.length
  if label.take marker.length = marker ∧ digits ≠ [] ∧ digits.head? ≠ some '0' ∧
      digits.all Char.isDigit then
    some (.fallback (digits.foldl (fun value digit => value * 10 + digitValue digit) 0 : Nat))
  else none

def chosenAnswer (label : String) : SchedulingResult CapacityAnswer :=
  if label = "Wait for primary" then .ok .wait
  else if label = "Cancel run" then .ok .cancel
  else match fallbackChoice label.toList with
    | some answer => .ok answer
    | none => .error (.store "capacity choice is not recognized")

def submittedLabel (question : CapacityQuestion) : List SubmittedAnswer → SchedulingResult String
  | [submitted] =>
    match submitted.selectedLabels with
    | some [label] =>
      if submitted.kind = "single_choice" ∧ submitted.questionId = question.questionId then
        .ok label
      else .error (.store "capacity approval needs exactly one listed choice")
    | _ => .error (.store "capacity approval needs exactly one listed choice")
  | _ => .error (.store "capacity approval needs exactly one listed choice")

def pendingQuestion (db : SchedulingDatabase) (input : AnswerQuestionInput) :
    SchedulingResult CapacityQuestion :=
  match db.questions.find? input.runId with
  | some question =>
    if question.interactionId = input.interactionId ∧ question.state = .pending ∧
        question.revision = input.expectedInteractionRevision then
      .ok question
    else .error (.store "capacity answer is stale or does not belong to this run")
  | none => .error (.store "capacity answer is stale or does not belong to this run")

def answeredQuestion (db : SchedulingDatabase) (input : AnswerQuestionInput)
    (question : CapacityQuestion) : CapacityQuestion :=
  { question with
    state := .answered
    revision := question.revision + 1
    answer := some
      { answerId := db.drawn + 1
        operationId := db.drawn
        interactionId := input.interactionId
        interactionRevision := question.revision + 1
        answers := input.answers
        answeredByKeyId := input.answeredByKeyId } }

def answerCapacityQuestion (db : SchedulingDatabase) (now : Int) (input : AnswerQuestionInput) :
    SchedulingResult (QuestionOutcome × SchedulingDatabase) := do
  if input.answeredByKeyId = "" then .error (.store "answering key is required")
  else
    let question ← pendingQuestion db input
    let label ← submittedLabel question input.answers
    let answer ← chosenAnswer label
    let schedule ← readExecutionScheduleRequired db input.runId
    let (outcome, db) ← applyCapacityAnswer db now ⟨input.runId, schedule.revision, answer⟩
    if outcome ≠ .accepted then
      .error (.store "capacity schedule changed before the answer was accepted")
    else
      let answered :=
        { db with
          questions := db.questions.upsert (answeredQuestion db input question)
          drawn := db.drawn + 2 }
      let schedule ← readExecutionScheduleRequired answered input.runId
      .ok (⟨input.interactionId, question.revision + 1, schedule.revision, db.drawn⟩, answered)

end Heniek.AttemptSettlement
