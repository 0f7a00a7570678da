import Heniek.NativeBridge

/-!
The operations of the native bridge store. A session attaches, polls for stages, raises
questions and submits; whoever may answer does so by the revision of the question alone.
A rejected call keeps what its sweep has done, and one that throws keeps nothing.
-/

namespace Heniek.NativeBridge
open ScriptText Interactions
open ProjectionTables (RunStatus)

inductive Reply (α : Type) where
  | accepted (value : α)
  | rejected (code : RejectionCode)

structure CreateNativeStageInput where
  runId : String
  stageId : String
  codebaseId : String
  request : StageRequest
  deriving DecidableEq

def commitRunCreated (db : NativeDatabase) (runId codebaseId : String) :
    NativeResult NativeDatabase :=
  match db.runs.insert? ⟨runId, codebaseId, .queued, 1⟩ with
  | none => .error (.store ("run already exists: " ++ runId))
  | some runs => .ok { appendEvent db (.runCreated runId codebaseId) with runs := runs }

def newStage (input : CreateNativeStageInput) (now : Int) : NativeStage where
  runId := input.runId
  stageId := input.stageId
  codebaseId := input.codebaseId
  request := input.request
  state := .waitingForParent
  currentAttemptId := none
  attemptCount := 0
  revision := 1
  waitingSince := some now
  createdAt := now

def insertNativeStage (db : NativeDatabase) (now : Int) (input : CreateNativeStageInput) :
    NativeResult NativeDatabase := do
  let (_, db) ← advanceRunStatus
    (appendEvent db (.statusChanged input.runId .waitingForParentSession none)) input.runId
    .waitingForParentSession
  if db.stages.rows.any fun stage => decide (stage.stageId = input.stageId) then
    .error (.constraint "native_stage")
  else do
    let stages ← insertRow "native_stage" db.stages (newStage input now)
    .ok { db with stages := stages }

/-- The run is created in a transaction of its own and stays when the second one fails. -/
def createNativeStage (db : NativeDatabase) (now : Int) (input : CreateNativeStageInput) :
    NativeResult Unit × NativeDatabase :=
  match commitRunCreated db input.runId input.codebaseId with
  | .error error => (.error error, db)
  | .ok created =>
    match insertNativeStage created now input with
    | .error error => (.error error, created)
    | .ok stored => (.ok (), stored)

def sessionLeaseTtlMs : Int := 90000

def defaultDispatchTtlMs : Int := 90000

def currentSession (db : NativeDatabase) (sessionId sessionRevision : Nat) :
    Except RejectionCode ParentSession :=
  match db.sessions.find? sessionId with
  | none => .error .sessionNotAttached
  | some session =>
    if session.live = false then .error .sessionExpired
    else if session.revision = sessionRevision then .ok session
    else .error .staleSessionRevision

structure AttachInput where
  codebaseId : String
  previousSessionId : Option Nat
  previousSessionRevision : Option Nat
  resumeDispatchIds : List Nat
  leaseTtlMs : Option Int
  witnessOf : WitnessClassifier

structure Attachment where
  sessionId : Nat
  sessionRevision : Nat
  attachedAt : Int
  expiresAt : Int
  resumedDispatchIds : List Nat
  supersededSessionId : Option Nat
  deriving DecidableEq

def newSession (sessionId : Nat) (input : AttachInput) (now : Int) : ParentSession where
  sessionId := sessionId
  codebaseId := input.codebaseId
  state := .attached
  revision := 1
  bootWitness := none
  processWitness := none
  attachedAt := now
  renewedAt := now
  expiresAt := now + input.leaseTtlMs.getD sessionLeaseTtlMs
  releasedAt := none
  supersededBy := none

def rebindDispatch (sessionId : Nat) (db : NativeDatabase) (dispatchId : Nat) : NativeDatabase :=
  match db.dispatches.find? dispatchId with
  | none => db
  | some dispatch =>
    if dispatch.state.isOpen then
      { db with
        dispatches := db.dispatches.upsert
          { dispatch with sessionId := sessionId, revision := dispatch.revision + 1 } }
    else db

def attachSession (db : NativeDatabase) (now : Int) (input : AttachInput)
    (superseded : Option Nat) (resumed : List Nat) :
    NativeResult (Reply Attachment × NativeDatabase) := do
  let session := newSession db.drawn input now
  let sessions ← insertRow "parent_session" db.sessions session
  let db := { db with sessions := sessions, drawn := db.drawn + 1 }
  let db := match superseded.bind db.sessions.find? with
    | none => db
    | some previous =>
      { db with
        sessions := db.sessions.upsert { previous with supersededBy := some session.sessionId } }
  let db := resumed.foldl (rebindDispatch session.sessionId) db
  .ok (.accepted ⟨session.sessionId, session.revision, now, session.expiresAt, resumed,
    superseded⟩, db)

def attachParentSession (db : NativeDatabase) (now : Int) (input : AttachInput) :
    NativeResult (Reply Attachment × NativeDatabase) := do
  let db ← reapExpirations db (some input.codebaseId) now input.witnessOf
  match input.previousSessionId with
  | none => attachSession db now input none []
  | some previousId =>
    match (db.sessions.find? previousId).filter fun session =>
        decide (session.codebaseId = input.codebaseId) with
    | none => .error (.store "parent_session.revision is not a number or bigint (got undefined)")
    | some previous =>
      if input.previousSessionRevision = some previous.revision ∧ previous.live = true then
        let db := { db with
          sessions := db.sessions.upsert (releasedSession previous .superseded now) }
        let resumed := (openDispatches db previousId).map NativeDispatch.dispatchId
        attachSession db now input (some previousId) (resumed.filter fun dispatchId =>
          decide (dispatchId ∈ input.resumeDispatchIds))
      else .ok (.rejected .staleSessionRevision, db)

inductive DetachOutcome where
  | notStarted | abandoned
  deriving DecidableEq

inductive Disposition where
  | redispatchable | recoveryRequired
  deriving DecidableEq

structure DetachInput where
  sessionId : Nat
  sessionRevision : Nat
  dispatches : List (Nat × DetachOutcome)
  witnessOf : WitnessClassifier

/-- A dispatch that has not started goes back to the stage. -/
def releaseDispatch (now : Int) (db : NativeDatabase) (dispatch : NativeDispatch) :
    NativeResult NativeDatabase := do
  let db := { db with
    dispatches := db.dispatches.upsert (closedDispatch dispatch .abandoned "parent_detached" now) }
  let db := updateAttempt db dispatch.attemptId fun attempt => { attempt with status := .cancelled }
  let db := appendEvent db (.statusChanged dispatch.runId .waitingForParentSession none)
  let db ← updateStage db dispatch.runId (waitingStage now)
  let (_, db) ← advanceRunStatus db dispatch.runId .waitingForParentSession
  .ok db

def detachEntry (now : Int) (sessionId : Nat)
    (progress : NativeDatabase × List (Nat × Disposition)) (entry : Nat × DetachOutcome) :
    NativeResult (NativeDatabase × List (Nat × Disposition)) :=
  match (progress.1.dispatches.find? entry.1).filter fun dispatch =>
      decide (dispatch.sessionId = sessionId) && dispatch.state.isOpen with
  | none => .ok progress
  | some dispatch =>
    if entry.2 = .notStarted ∧ firstQuestion progress.1 entry.1 = none then do
      let db ← releaseDispatch now progress.1 dispatch
      .ok (db, progress.2 ++ [(entry.1, .redispatchable)])
    else do
      let db ← abandonDispatchAndRecover "parent_detach_uncorroborated"
        "parent_detach_uncorroborated" now progress.1 dispatch
      .ok (db, progress.2 ++ [(entry.1, .recoveryRequired)])

def detachParentSession (db : NativeDatabase) (now : Int) (input : DetachInput) :
    NativeResult (Reply (List (Nat × Disposition)) × NativeDatabase) :=
  match db.sessions.find? input.sessionId with
  | none => .ok (.rejected .sessionNotAttached, db)
  | some session => do
      let db ← reapExpirations db (some session.codebaseId) now input.witnessOf
      match currentSession db input.sessionId input.sessionRevision with
      | .error code => .ok (.rejected code, db)
      | .ok current => do
          let (db, released) ← input.dispatches.foldlM (detachEntry now input.sessionId) (db, [])
          .ok (.accepted released, { db with
            sessions := db.sessions.upsert (releasedSession current .detached now) })

structure ClaimedNativeStage where
  dispatchId : Nat
  dispatchRevision : Nat
  runId : String
  stageId : String
  attemptId : Nat
  attemptOrdinal : Nat
  request : StageRequest
  issuedAt : Int
  expiresAt : Int
  deriving DecidableEq

structure PollResumeEntry where
  dispatchId : Nat
  dispatchRevision : Nat
  interactionId : String
  interactionRevision : Nat
  answer : Option BackendAnswer
  deriving DecidableEq

structure PollRevocationEntry where
  dispatchId : Nat
  dispatchRevision : Nat
  terminalReason : Option String
  deriving DecidableEq

structure PollInput where
  sessionId : Nat
  sessionRevision : Nat
  codebaseId : String
  maxDispatches : Nat
  leaseTtlMs : Option Int
  dispatchTtlMs : Option Int
  witnessOf : WitnessClassifier

structure PollResult where
  sessionRevision : Nat
  expiresAt : Int
  claimed : List ClaimedNativeStage
  resumes : List PollResumeEntry
  revocations : List PollRevocationEntry
  deriving DecidableEq

def claimBefore (left right : NativeStage) : Bool :=
  decide (left.createdAt < right.createdAt) ||
    decide (left.createdAt = right.createdAt) && binaryBefore left.runId right.runId

def claimableStages (db : NativeDatabase) (codebaseId : String) (limit : Nat) :
    List NativeStage :=
  ((db.stages.rows.filter fun stage =>
    decide (stage.codebaseId = codebaseId ∧ stage.state = .waitingForParent)).insertionSort
      fun left right => claimBefore right left = false).take limit

def newAttempt (stage : NativeStage) (attemptId : Nat) : NativeStageAttempt where
  attemptId := attemptId
  runId := stage.runId
  stageId := stage.stageId
  attemptOrdinal := stage.attemptCount + 1
  workspaceId := none
  readonlyBaseline := none
  status := .running
  failure := none

def insertAttempt (db : NativeDatabase) (attempt : NativeStageAttempt) :
    NativeResult NativeDatabase :=
  if db.attempts.rows.any fun other =>
      decide (other.runId = attempt.runId ∧ other.attemptOrdinal = attempt.attemptOrdinal) then
    .error (.constraint "native_stage_attempt")
  else do
    let attempts ← insertRow "native_stage_attempt" db.attempts attempt
    .ok { db with attempts := attempts }

def newDispatch (stage : NativeStage) (dispatchId attemptId sessionId : Nat) (now expiresAt : Int) :
    NativeDispatch where
  dispatchId := dispatchId
  runId := stage.runId
  stageId := stage.stageId
  attemptId := attemptId
  sessionId := sessionId
  state := .dispatched
  revision := 1
  terminalReason := none
  outcome := none
  submissionId := none
  submissionDigest := none
  issuedAt := now
  expiresAt := expiresAt
  settledAt := none

def insertDispatch (db : NativeDatabase) (dispatch : NativeDispatch) :
    NativeResult NativeDatabase :=
  if db.dispatches.rows.any fun other =>
      decide (other.attemptId = dispatch.attemptId) && other.state.isOpen then
    .error (.constraint "native_dispatch")
  else do
    let dispatches ← insertRow "native_dispatch" db.dispatches dispatch
    .ok { db with dispatches := dispatches }

def claimedStage (attemptId : Nat) (stage : NativeStage) : NativeStage :=
  { stage with
    state := .dispatched
    currentAttemptId := some attemptId
    attemptCount := stage.attemptCount + 1
    waitingSince := none }

def claimStage (sessionId : Nat) (now expiresAt : Int)
    (progress : NativeDatabase × List ClaimedNativeStage) (row : NativeStage) :
    NativeResult (NativeDatabase × List ClaimedNativeStage) := do
  let attemptId := progress.1.drawn
  let dispatchId := progress.1.drawn + 1
  let db := { progress.1 with drawn := progress.1.drawn + 2 }
  match (db.stages.find? row.runId).filter fun stage =>
      decide (stage.state = .waitingForParent) with
  | none => .ok (db, progress.2)
  | some stage => do
      let db ← updateStage db row.runId (claimedStage attemptId)
      let db ← insertAttempt db (newAttempt stage attemptId)
      let db ← insertDispatch db (newDispatch stage dispatchId attemptId sessionId now expiresAt)
      let (_, db) ← advanceRunStatus (appendEvent db (.statusChanged stage.runId .running none))
        stage.runId .running
      .ok (db, progress.2 ++ [⟨dispatchId, 1, stage.runId, stage.stageId, attemptId,
        stage.attemptCount + 1, stage.request, now, expiresAt⟩])

def dueResumes (db : NativeDatabase) (sessionId : Nat) : List NativeQuestion :=
  db.questions.rows.filter fun question =>
    decide (question.state = .answered ∧ question.deliveryState = .pending) &&
      (db.dispatches.find? question.dispatchId).any fun dispatch =>
        decide (dispatch.sessionId = sessionId)

def deliverAnswer (progress : NativeDatabase × List PollResumeEntry) (row : NativeQuestion) :
    NativeResult (NativeDatabase × List PollResumeEntry) := do
  let db ← advanceRunRevisionOnly
    (appendEvent progress.1 (.questionDelivered row.runId row.interactionId)) row.runId
  let db := match db.questions.find? (row.runId, row.interactionId) with
    | none => db
    | some question =>
      if question.deliveryState = .pending then
        { db with
          questions := db.questions.upsert
            { question with deliveryState := .delivered, revision := question.revision + 1 } }
      else db
  .ok (db, progress.2 ++ [⟨row.dispatchId,
    ((db.dispatches.find? row.dispatchId).map NativeDispatch.revision).getD 0, row.interactionId,
    row.revision, row.answer⟩])

def revocations (db : NativeDatabase) (sessionId : Nat) (since : Int) :
    List PollRevocationEntry :=
  (db.dispatches.rows.filter fun dispatch =>
    decide (dispatch.sessionId = sessionId ∧
      (dispatch.state = .revoked ∨ dispatch.state = .abandoned)) &&
      dispatch.settledAt.any fun settledAt => decide (since < settledAt)).map fun dispatch =>
    ⟨dispatch.dispatchId, dispatch.revision, dispatch.terminalReason⟩

def renewedSession (session : ParentSession) (now expiresAt : Int) : ParentSession :=
  { session with
    state := .attached
    renewedAt := now
    expiresAt := expiresAt
    revision := session.revision + 1 }

def pollNativeBridge (db : NativeDatabase) (now : Int) (input : PollInput) :
    NativeResult (Reply PollResult × NativeDatabase) := do
  let db ← reapExpirations db (some input.codebaseId) now input.witnessOf
  if (db.sessions.find? input.sessionId).any fun session =>
      decide (session.codebaseId ≠ input.codebaseId) then
    .ok (.rejected .sessionNotAttached, db)
  else
    match currentSession db input.sessionId input.sessionRevision with
    | .error code => .ok (.rejected code, db)
    | .ok session => do
        let renewed := renewedSession session now (now + input.leaseTtlMs.getD sessionLeaseTtlMs)
        let db := { db with sessions := db.sessions.upsert renewed }
        let (db, claimed) ← (claimableStages db input.codebaseId input.maxDispatches).foldlM
          (claimStage input.sessionId now (now + input.dispatchTtlMs.getD defaultDispatchTtlMs))
          (db, [])
        let (db, resumes) ← (dueResumes db input.sessionId).foldlM deliverAnswer (db, [])
        .ok (.accepted ⟨renewed.revision, renewed.expiresAt, claimed, resumes,
          revocations db input.sessionId session.renewedAt⟩, db)

def assignNativeAttemptWorkspace (db : NativeDatabase) (attemptId : Nat) (workspaceId : String) :
    NativeResult NativeDatabase :=
  match (db.attempts.find? attemptId).filter fun attempt => attempt.workspaceId.isNone with
  | none => .error (.store ("attempt already has a workspace or does not exist: " ++
      toString attemptId))
  | some _ => .ok (updateAttempt db attemptId fun attempt =>
    { attempt with workspaceId := some workspaceId })

def recordNativeAttemptReadonlyBaseline (db : NativeDatabase) (attemptId : Nat)
    (baseline : String) : NativeDatabase :=
  updateAttempt db attemptId fun attempt => { attempt with readonlyBaseline := some baseline }

structure WorkspaceFailureInput where
  attemptId : Nat
  runId : String
  stageId : String
  dispatchId : Nat
  reasonCode : String
  deriving DecidableEq

def workspaceFailure (reasonCode : String) : AttemptFailure :=
  ⟨"workspace_failed", "start", reasonCode,
    "Managed workspace provisioning failed for a native dispatch.", false⟩

def failAttempt (failure : AttemptFailure) (attempt : NativeStageAttempt) : NativeStageAttempt :=
  { attempt with status := .failed, failure := some failure }

def abandonUnprovisioned (db : NativeDatabase) (now : Int) (dispatchId : Nat) :
    NativeResult NativeDatabase :=
  match db.dispatches.find? dispatchId with
  | none => .ok db
  | some dispatch =>
    storeDispatch db dispatch (closedDispatch dispatch .abandoned "workspace_failed" now)

def recordNativeAttemptWorkspaceFailure (db : NativeDatabase) (now : Int)
    (input : WorkspaceFailureInput) : NativeResult NativeDatabase := do
  let db := updateAttempt db input.attemptId (failAttempt (workspaceFailure input.reasonCode))
  let db ← abandonUnprovisioned db now input.dispatchId
  let db := appendEvent db (.statusChanged input.runId .waitingForParentSession none)
  let db ← updateStage db input.runId (waitingStage now)
  let (_, db) ← advanceRunStatus db input.runId .waitingForParentSession
  .ok db

structure DispatchFence where
  sessionId : Nat
  sessionRevision : Nat
  dispatchId : Nat
  expectedDispatchRevision : Nat
  runId : String
  stageId : String
  attemptId : Nat
  deriving DecidableEq

def codebaseForSession (db : NativeDatabase) (sessionId : Nat) : Option String :=
  (db.sessions.find? sessionId).map ParentSession.codebaseId

def sweepSession (db : NativeDatabase) (sessionId : Nat) (now : Int)
    (witnessOf : WitnessClassifier) : NativeResult NativeDatabase :=
  match codebaseForSession db sessionId with
  | none => .ok db
  | some codebaseId => reapExpirations db (some codebaseId) now witnessOf

def validateDispatchFence (db : NativeDatabase) (fence : DispatchFence) (allowSettled : Bool) :
    Except RejectionCode NativeDispatch :=
  match currentSession db fence.sessionId fence.sessionRevision with
  | .error code => .error code
  | .ok _ =>
    match db.dispatches.find? fence.dispatchId with
    | none => .error .unknownDispatch
    | some dispatch =>
      if dispatch.sessionId ≠ fence.sessionId ∨ dispatch.runId ≠ fence.runId ∨
          dispatch.stageId ≠ fence.stageId ∨ dispatch.attemptId ≠ fence.attemptId then
        .error .unknownDispatch
      else if dispatch.state = .revoked ∨ dispatch.state = .abandoned then
        .error .dispatchRevoked
      else if dispatch.state = .submitted then
        if allowSettled then .ok dispatch else .error .dispatchAlreadySettled
      else if dispatch.revision = fence.expectedDispatchRevision then .ok dispatch
      else .error .staleDispatchRevision

structure RaiseInput where
  fence : DispatchFence
  interaction : BackendInteraction
  witnessOf : WitnessClassifier

def newQuestion (fence : DispatchFence) (canonical : Interaction) : NativeQuestion where
  runId := fence.runId
  interactionId := canonical.interactionId
  stageId := fence.stageId
  attemptId := fence.attemptId
  dispatchId := fence.dispatchId
  canonical := canonical
  state := .pending
  revision := 1
  deliveryState := .notApplicable
  cancellationReason := none
  answer := none
  answeredByKeyId := none
  resolvedAt := none

structure RaisedQuestion where
  interactionId : String
  interactionRevision : Nat
  dispatchRevision : Nat
  deriving DecidableEq

def raiseQuestion (db : NativeDatabase) (dispatch : NativeDispatch) (input : RaiseInput) :
    NativeResult (Reply RaisedQuestion × NativeDatabase) := do
  if (db.questions.find? (input.fence.runId, input.interaction.id)).isSome then
    .error (.store ("native question is immutable: " ++ input.interaction.id))
  else do
    let canonical ← (canonicalizeBackendInteraction input.interaction).mapError .store
    let db := appendEvent db (.questionRaised input.fence.runId input.interaction.id
      input.fence.stageId input.fence.dispatchId input.fence.attemptId)
    let questions ← insertRow "native_stage_question" db.questions
      (newQuestion input.fence canonical)
    let db := { db with
      questions := questions
      dispatches := db.dispatches.upsert
        { dispatch with state := .waitingOnUser, revision := dispatch.revision + 1 } }
    let db ← updateStage db input.fence.runId fun stage => { stage with state := .waitingOnUser }
    let (_, db) ← advanceRunStatus db input.fence.runId .waitingOnUser
    .ok (.accepted ⟨input.interaction.id, 1, dispatch.revision + 1⟩, db)

def raiseNativeQuestion (db : NativeDatabase) (now : Int) (input : RaiseInput) :
    NativeResult (Reply RaisedQuestion × NativeDatabase) := do
  let db ← sweepSession db input.fence.sessionId now input.witnessOf
  match validateDispatchFence db input.fence false with
  | .error code => .ok (.rejected code, db)
  | .ok dispatch =>
    if dispatch.state ≠ .dispatched then .ok (.rejected .unknownDispatch, db)
    else raiseQuestion db dispatch input

structure AnswerInput where
  runId : String
  submission : AnswerSubmission
  answeredByKeyId : String
  deriving DecidableEq

structure AnsweredQuestion where
  runRevision : Nat
  interactionRevision : Nat
  deriving DecidableEq

def answerable (db : NativeDatabase) (input : AnswerInput) :
    NativeResult (NativeQuestion × BackendAnswer) :=
  if input.answeredByKeyId = "" then .error (.store "authenticated key id is required")
  else if (db.stages.find? input.runId).isNone then
    .error (.store ("native stage does not exist: " ++ input.runId))
  else
    match db.questions.find? (input.runId, input.submission.interactionId) with
    | none =>
      .error (.store ("interaction does not belong to run: " ++ input.submission.interactionId))
    | some question =>
      if question.state ≠ .pending then
        .error (.store ("interaction is not pending: " ++ input.submission.interactionId))
      else if question.revision ≠ input.submission.expectedInteractionRevision then
        .error (.causality ("interaction revision is stale: expected " ++
          toString input.submission.expectedInteractionRevision))
      else
        match validateAnswer question.canonical input.submission with
        | .error message => .error (.store message)
        | .ok answer => .ok (question, answer)

def answeredQuestion (question : NativeQuestion) (answer : BackendAnswer) (keyId : String)
    (now : Int) : NativeQuestion :=
  { question with
    state := .answered
    revision := question.revision + 1
    deliveryState := .pending
    answer := some answer
    answeredByKeyId := some keyId
    resolvedAt := some now }

def continueDispatch (db : NativeDatabase) (dispatchId : Nat) : NativeDatabase :=
  match (db.dispatches.find? dispatchId).filter fun dispatch =>
      decide (dispatch.state = .waitingOnUser) with
  | none => db
  | some dispatch =>
    { db with
      dispatches := db.dispatches.upsert
        { dispatch with state := .dispatched, revision := dispatch.revision + 1 } }

def continueStage (db : NativeDatabase) (runId : String) : NativeResult NativeDatabase :=
  if (db.stages.find? runId).any fun stage => decide (stage.state = .waitingOnUser) then
    updateStage db runId fun stage => { stage with state := .dispatched }
  else .ok db

def answerNativeQuestion (db : NativeDatabase) (now : Int) (input : AnswerInput) :
    NativeResult (AnsweredQuestion × NativeDatabase) := do
  let (question, answer) ← answerable db input
  let db := appendEvent db (.questionAnswered input.runId input.submission.interactionId answer
    input.answeredByKeyId)
  let db := { db with
    questions := db.questions.upsert (answeredQuestion question answer input.answeredByKeyId now) }
  let db ← continueStage (continueDispatch db question.dispatchId) input.runId
  let (runRevision, db) ← advanceRunStatus db input.runId .running
  .ok (⟨runRevision, question.revision + 1⟩, db)

structure SettleInput where
  fence : DispatchFence
  submissionId : String
  submissionDigest : String
  outcome : SubmissionOutcome
  failure : Option AttemptFailure
  witnessOf : WitnessClassifier

structure Settlement where
  idempotentReplay : Bool
  requiresArtifactCompletion : Bool
  dispatchRevision : Nat
  status : Option SubmissionOutcome
  deriving DecidableEq

def submittedDispatch (dispatch : NativeDispatch) (input : SettleInput) (now : Int) :
    NativeDispatch :=
  { dispatch with
    state := .submitted
    outcome := some input.outcome
    submissionId := some input.submissionId
    submissionDigest := some input.submissionDigest
    settledAt := some now
    revision := dispatch.revision + 1 }

def replaySubmission (dispatch : NativeDispatch) (input : SettleInput) : Reply Settlement :=
  if dispatch.submissionId ≠ some input.submissionId then .rejected .dispatchAlreadySettled
  else if dispatch.submissionDigest ≠ some input.submissionDigest then
    .rejected .idempotencyKeyReuse
  else .accepted ⟨true, false, dispatch.revision, dispatch.outcome⟩

def settleDispatch (db : NativeDatabase) (now : Int) (dispatch : NativeDispatch)
    (input : SettleInput) : NativeResult (Reply Settlement × NativeDatabase) := do
  let db := { db with
    dispatches := db.dispatches.upsert (submittedDispatch dispatch input now) }
  if input.outcome = .succeeded then
    .ok (.accepted ⟨false, true, dispatch.revision + 1, some .succeeded⟩, db)
  else do
    let db := updateAttempt db input.fence.attemptId fun attempt =>
      { attempt with status := input.outcome.attemptStatus, failure := input.failure }
    let db ← updateStage db input.fence.runId settledStage
    let (_, db) ← advanceRunStatus
      (appendEvent db (.statusChanged input.fence.runId input.outcome.runStatus none))
      input.fence.runId input.outcome.runStatus
    .ok (.accepted ⟨false, false, dispatch.revision + 1, some input.outcome⟩, db)

def settleNativeDispatch (db : NativeDatabase) (now : Int) (input : SettleInput) :
    NativeResult (Reply Settlement × NativeDatabase) := do
  let db ← sweepSession db input.fence.sessionId now input.witnessOf
  match validateDispatchFence db input.fence true with
  | .error code => .ok (.rejected code, db)
  | .ok dispatch =>
    if dispatch.state = .submitted then .ok (replaySubmission dispatch input, db)
    else settleDispatch db now dispatch input

def completeNativeAttemptArtifactOutcome (db : NativeDatabase) (attemptId : Nat)
    (runId : String) : NativeResult NativeDatabase :=
  updateStage (updateAttempt db attemptId fun attempt => { attempt with status := .succeeded })
    runId settledStage

def artifactFailure (reasonCode message : String) : AttemptFailure :=
  ⟨"artifact_failed", "completion", reasonCode, message, false⟩

def downgradeNativeAttemptToFailed (db : NativeDatabase) (attemptId : Nat)
    (runId reasonCode message : String) : NativeResult NativeDatabase := do
  let db := updateAttempt db attemptId (failAttempt (artifactFailure reasonCode message))
  let db ← updateStage db runId settledStage
  let (_, db) ← advanceRunStatus (appendEvent db (.statusChanged runId .failed none)) runId .failed
  .ok db

def resumeNativeStage (db : NativeDatabase) (now : Int) (runId : String)
    (expectedRunRevision : Nat) : NativeResult (Nat × NativeDatabase) :=
  match db.stages.find? runId with
  | none => .error (.store ("native stage does not exist: " ++ runId))
  | some stage =>
    if stage.state ≠ .recoveryRequired then
      .error (.store "explicit resume requires recovery_required status")
    else do
      let db := appendEvent db (.statusChanged runId .waitingForParentSession none)
      let db ← updateStage db runId (waitingStage now)
      advanceRunStatus db runId .waitingForParentSession (some expectedRunRevision)

def revokeDispatch (runId : String) (now : Int) (dispatch : NativeDispatch) : NativeDispatch :=
  if dispatch.runId = runId ∧ dispatch.state.isOpen = true then
    closedDispatch dispatch .revoked "run_cancelled" now
  else dispatch

theorem revokeDispatch_dispatchId (runId : String) (now : Int) (dispatch : NativeDispatch) :
    (revokeDispatch runId now dispatch).dispatchId = dispatch.dispatchId := by
  unfold revokeDispatch
  split <;> rfl

def pendingQuestions (db : NativeDatabase) (runId : String) : List String :=
  (db.questions.rows.filter fun question =>
    decide (question.runId = runId ∧ question.state = .pending)).map NativeQuestion.interactionId

def cancelAttempt (attempt : NativeStageAttempt) : NativeStageAttempt :=
  if attempt.status = .running ∨ attempt.status = .waitingOnUser then
    { attempt with status := .cancelled }
  else attempt

def cancelCurrentAttempt (db : NativeDatabase) : Option Nat → NativeDatabase
  | none => db
  | some attemptId => updateAttempt db attemptId cancelAttempt

def cancelOpenStage (db : NativeDatabase) (now : Int) (stage : NativeStage) :
    NativeResult NativeDatabase := do
  let runId := stage.runId
  let db := { db with
    dispatches := db.dispatches.mapAll (revokeDispatch runId now)
      (revokeDispatch_dispatchId runId now) }
  let db ← (pendingQuestions db runId).foldlM
    (fun db interactionId => cancelNativeQuestion db runId interactionId .runTerminal now) db
  let db ← updateStage (cancelCurrentAttempt db stage.currentAttemptId) runId settledStage
  let (_, db) ← advanceRunStatus (appendEvent db (.statusChanged runId .cancelled none)) runId
    .cancelled
  .ok db

def cancelNativeStage (db : NativeDatabase) (now : Int) (runId : String) :
    NativeResult (Option RunStatus × NativeDatabase) :=
  match db.stages.find? runId with
  | none => .ok (none, db)
  | some stage =>
    if stage.state = .settled then
      .ok (some (((db.runs.find? runId).map NativeRun.status).getD .cancelled), db)
    else (cancelOpenStage db now stage).map fun db => (some .cancelled, db)

end Heniek.NativeBridge
