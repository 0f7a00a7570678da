import Heniek.Interactions
import Heniek.ProjectionTables

/-!
The store of the native bridge: parent sessions, the native stage of a run with its
attempts and dispatches, and the questions of a dispatch. An operation is one transaction
at one instant. Instants are milliseconds, compared as their texts are within four-digit
years; identifiers the store draws are numbers. A question is kept with its projection,
which is written with it and has its key. A constraint of the schema ends the transaction.
-/

namespace Heniek.NativeBridge
open KeyedTable ScriptText Interactions
open ProjectionTables (RunStatus)

inductive SessionState where
  | attached | stalled | detached | expired | superseded
  deriving DecidableEq

inductive StageState where
  | waitingForParent | dispatched | waitingOnUser | recoveryRequired | settled
  deriving DecidableEq

inductive AttemptStatus where
  | running | waitingOnUser | recoveryRequired | succeeded | failed | cancelled
  deriving DecidableEq

inductive DispatchState where
  | dispatched | waitingOnUser | submitted | revoked | abandoned
  deriving DecidableEq

inductive QuestionState where
  | pending | answered | cancelled
  deriving DecidableEq

inductive DeliveryState where
  | notApplicable | pending | delivered
  deriving DecidableEq

inductive CancellationReason where
  | withdrawn | timedOut | runTerminal | migrationUnresolved
  deriving DecidableEq

inductive SubmissionOutcome where
  | succeeded | failed | cancelled
  deriving DecidableEq

def SubmissionOutcome.runStatus : SubmissionOutcome → RunStatus
  | .succeeded => .succeeded
  | .failed => .failed
  | .cancelled => .cancelled

def SubmissionOutcome.attemptStatus : SubmissionOutcome → AttemptStatus
  | .succeeded => .succeeded
  | .failed => .failed
  | .cancelled => .cancelled

inductive WitnessKind where
  | process | processGroup
  deriving DecidableEq

structure ProcessWitness where
  kind : WitnessKind
  value : Int
  deriving DecidableEq

inductive Liveness where
  | alive | dead | unknown
  deriving DecidableEq

abbrev WitnessClassifier := Option String → Option ProcessWitness → Liveness

structure ParentSession where
  sessionId : Nat
  codebaseId : String
  state : SessionState
  revision : Nat
  bootWitness : Option String
  processWitness : Option ProcessWitness
  attachedAt : Int
  renewedAt : Int
  expiresAt : Int
  releasedAt : Option Int
  supersededBy : Option Nat
  deriving DecidableEq

inductive QuestionMode where
  | parentMediated | direct
  deriving DecidableEq

/-- What a stage is asked to do, which a claim hands on as it is. -/
structure StageRequest where
  repositoryId : String
  profileId : String
  prompt : String
  artifactPath : String
  instructionsPath : String
  artifactContract : String
  model : String
  effort : String
  focus : Option String
  questions : QuestionMode
  readOnly : Bool
  permissions : String
  limits : String
  hardDeadlineAt : Option Int
  deriving DecidableEq

structure NativeStage where
  runId : String
  stageId : String
  codebaseId : String
  request : StageRequest
  state : StageState
  currentAttemptId : Option Nat
  attemptCount : Nat
  revision : Nat
  waitingSince : Option Int
  createdAt : Int
  deriving DecidableEq

structure AttemptFailure where
  classification : String
  phase : String
  code : String
  message : String
  fallbackEligible : Bool
  deriving DecidableEq

structure NativeStageAttempt where
  attemptId : Nat
  runId : String
  stageId : String
  attemptOrdinal : Nat
  workspaceId : Option String
  readonlyBaseline : Option String
  status : AttemptStatus
  failure : Option AttemptFailure
  deriving DecidableEq

structure NativeDispatch where
  dispatchId : Nat
  runId : String
  stageId : String
  attemptId : Nat
  sessionId : Nat
  state : DispatchState
  revision : Nat
  terminalReason : Option String
  outcome : Option SubmissionOutcome
  submissionId : Option String
  submissionDigest : Option String
  issuedAt : Int
  expiresAt : Int
  settledAt : Option Int
  deriving DecidableEq

structure NativeQuestion where
  runId : String
  interactionId : String
  stageId : String
  attemptId : Nat
  dispatchId : Nat
  canonical : Interaction
  state : QuestionState
  revision : Nat
  deliveryState : DeliveryState
  cancellationReason : Option CancellationReason
  answer : Option BackendAnswer
  answeredByKeyId : Option String
  resolvedAt : Option Int
  deriving DecidableEq

structure NativeRun where
  runId : String
  codebaseId : String
  status : RunStatus
  revision : Nat
  deriving DecidableEq

inductive NativeEvent where
  | runCreated (runId codebaseId : String)
  | statusChanged (runId : String) (status : RunStatus) (reasonCode : Option String)
  | questionRaised (runId interactionId stageId : String) (dispatchId attemptId : Nat)
  | questionAnswered (runId interactionId : String) (answer : BackendAnswer) (keyId : String)
  | questionCancelled (runId interactionId : String) (reason : CancellationReason)
  | questionDelivered (runId interactionId : String)
  | stageCompleted (runId stageId : String)
  deriving DecidableEq

abbrev QuestionTable := Table fun row : NativeQuestion => (row.runId, row.interactionId)

structure NativeDatabase where
  runs : Table NativeRun.runId
  sessions : Table ParentSession.sessionId
  stages : Table NativeStage.runId
  attempts : Table NativeStageAttempt.attemptId
  dispatches : Table NativeDispatch.dispatchId
  questions : QuestionTable
  events : List NativeEvent
  drawn : Nat

def emptyBridge : NativeDatabase := ⟨.empty, .empty, .empty, .empty, .empty, .empty, [], 0⟩

def ParentSession.live (session : ParentSession) : Bool :=
  decide (session.state = .attached ∨ session.state = .stalled)

def StageState.engaged (state : StageState) : Bool :=
  decide (state = .dispatched ∨ state = .waitingOnUser)

def DispatchState.isOpen (state : DispatchState) : Bool :=
  decide (state = .dispatched ∨ state = .waitingOnUser)

inductive NativeBridgeError where
  | store (message : String)
  | causality (message : String)
  | constraint (table : String)
  deriving DecidableEq

abbrev NativeResult := Except NativeBridgeError

inductive RejectionCode where
  | sessionNotAttached | sessionExpired | staleSessionRevision | unknownDispatch
  | staleDispatchRevision | dispatchRevoked | dispatchAlreadySettled | idempotencyKeyReuse
  deriving DecidableEq

def insertRow {α κ : Type} [DecidableEq κ] {key : α → κ} (name : String) (table : Table key)
    (row : α) : NativeResult (Table key) :=
  match table.insert? row with
  | some table => .ok table
  | none => .error (.constraint name)

def appendEvent (db : NativeDatabase) (event : NativeEvent) : NativeDatabase :=
  { db with events := db.events ++ [event] }

def advanceRunStatus (db : NativeDatabase) (runId : String) (status : RunStatus)
    (expectedRevision : Option Nat := none) : NativeResult (Nat × NativeDatabase) :=
  match db.runs.find? runId with
  | none => .error (.causality ("native bridge event references missing run: " ++ runId))
  | some run =>
    if expectedRevision.all fun expected => decide (run.revision = expected) then
      .ok (run.revision + 1, { db with
        runs := db.runs.upsert { run with status := status, revision := run.revision + 1 } })
    else
      .error (.causality ("run revision is stale: expected " ++
        toString (expectedRevision.getD 0)))

def advanceRunRevisionOnly (db : NativeDatabase) (runId : String) :
    NativeResult NativeDatabase :=
  match db.runs.find? runId with
  | none => .error (.causality ("native bridge event references missing run: " ++ runId))
  | some run =>
    .ok { db with runs := db.runs.upsert { run with revision := run.revision + 1 } }

def storeStage (db : NativeDatabase) (stage : NativeStage) : NativeResult NativeDatabase :=
  if decide (stage.state = .waitingForParent) = stage.waitingSince.isSome then
    .ok { db with stages := db.stages.upsert stage }
  else .error (.constraint "native_stage")

def updateStage (db : NativeDatabase) (runId : String) (change : NativeStage → NativeStage) :
    NativeResult NativeDatabase :=
  match db.stages.find? runId with
  | none => .ok db
  | some stage => storeStage db { change stage with revision := stage.revision + 1 }

def updateAttempt (db : NativeDatabase) (attemptId : Nat)
    (change : NativeStageAttempt → NativeStageAttempt) : NativeDatabase :=
  match db.attempts.find? attemptId with
  | none => db
  | some attempt => { db with attempts := db.attempts.upsert (change attempt) }

/-- The trigger `native_dispatch_settlement_final` keeps a settled dispatch as it ended. -/
def storeDispatch (db : NativeDatabase) (current next : NativeDispatch) :
    NativeResult NativeDatabase :=
  if current.state.isOpen = false ∧ next.state ≠ current.state then
    .error (.constraint "native_dispatch")
  else .ok { db with dispatches := db.dispatches.upsert next }

def closedDispatch (dispatch : NativeDispatch) (state : DispatchState) (reason : String)
    (now : Int) : NativeDispatch :=
  { dispatch with
    state := state
    terminalReason := some reason
    settledAt := some now
    revision := dispatch.revision + 1 }

def releasedSession (session : ParentSession) (state : SessionState) (now : Int) : ParentSession :=
  { session with state := state, releasedAt := some now, revision := session.revision + 1 }

def waitingStage (now : Int) (stage : NativeStage) : NativeStage :=
  { stage with state := .waitingForParent, currentAttemptId := none, waitingSince := some now }

def settledStage (stage : NativeStage) : NativeStage :=
  { stage with state := .settled, currentAttemptId := none }

def cancelNativeQuestion (db : NativeDatabase) (runId interactionId : String)
    (reason : CancellationReason) (now : Int) : NativeResult NativeDatabase :=
  match db.questions.find? (runId, interactionId) with
  | none => .ok db
  | some question =>
    if question.state ≠ .pending then .ok db
    else do
      let db ← advanceRunRevisionOnly
        (appendEvent db (.questionCancelled runId interactionId reason)) runId
      .ok { db with questions := db.questions.upsert { question with
        state := .cancelled
        revision := question.revision + 1
        deliveryState := .notApplicable
        cancellationReason := some reason
        resolvedAt := some now } }

def firstQuestion (db : NativeDatabase) (dispatchId : Nat) : Option NativeQuestion :=
  db.questions.rows.find? fun question => decide (question.dispatchId = dispatchId)

def recoverAttempt (attempt : NativeStageAttempt) : NativeStageAttempt :=
  if attempt.status = .running ∨ attempt.status = .waitingOnUser then
    { attempt with status := .recoveryRequired }
  else attempt

def recoverStage (db : NativeDatabase) (runId : String) : NativeResult NativeDatabase :=
  match db.stages.find? runId with
  | none => .ok db
  | some stage =>
    if stage.state.engaged then do
      let db ← storeStage db
        { stage with state := .recoveryRequired, revision := stage.revision + 1 }
      let (_, db) ← advanceRunStatus db runId .recoveryRequired
      .ok db
    else .ok db

def abandonDispatchAndRecover (terminalReason reasonCode : String) (now : Int)
    (db : NativeDatabase) (dispatch : NativeDispatch) : NativeResult NativeDatabase :=
  match db.dispatches.find? dispatch.dispatchId with
  | none => .ok db
  | some current =>
    if current.state.isOpen then do
      let db := { db with
        dispatches := db.dispatches.upsert
          (closedDispatch current .abandoned terminalReason now) }
      let db := updateAttempt db dispatch.attemptId recoverAttempt
      let db ← match firstQuestion db dispatch.dispatchId with
        | none => .ok db
        | some question =>
          cancelNativeQuestion db dispatch.runId question.interactionId .withdrawn now
      recoverStage (appendEvent db
        (.statusChanged dispatch.runId .recoveryRequired (some reasonCode))) dispatch.runId
    else .ok db

def inScope (codebaseId : Option String) (session : ParentSession) : Bool :=
  codebaseId.all fun id => decide (session.codebaseId = id)

def expiredSessions (db : NativeDatabase) (codebaseId : Option String) (now : Int) :
    List ParentSession :=
  db.sessions.rows.filter fun session =>
    inScope codebaseId session && session.live && decide (session.expiresAt ≤ now)

def openDispatches (db : NativeDatabase) (sessionId : Nat) : List NativeDispatch :=
  db.dispatches.rows.filter fun dispatch =>
    decide (dispatch.sessionId = sessionId) && dispatch.state.isOpen

def expireSession (now : Int) (witnessOf : WitnessClassifier) (db : NativeDatabase)
    (session : ParentSession) : NativeResult NativeDatabase :=
  match witnessOf session.bootWitness session.processWitness with
  | .alive =>
    if session.state = .attached then
      .ok { db with sessions := db.sessions.upsert { session with state := .stalled } }
    else .ok db
  | verdict =>
    let db := { db with
      sessions := db.sessions.upsert (releasedSession session .expired now) }
    (openDispatches db session.sessionId).foldlM
      (abandonDispatchAndRecover
        (if verdict = .dead then "session_expired_dead" else "session_expired_unknown")
        (if verdict = .dead then "session_liveness_dead" else "session_liveness_unknown") now) db

def orphanedDispatches (db : NativeDatabase) (codebaseId : Option String) :
    List NativeDispatch :=
  db.dispatches.rows.filter fun dispatch =>
    dispatch.state.isOpen && (db.sessions.find? dispatch.sessionId).any fun session =>
      inScope codebaseId session && !session.live

def reapExpirations (db : NativeDatabase) (codebaseId : Option String) (now : Int)
    (witnessOf : WitnessClassifier) : NativeResult NativeDatabase := do
  let db ← (expiredSessions db codebaseId now).foldlM (expireSession now witnessOf) db
  (orphanedDispatches db codebaseId).foldlM
    (abandonDispatchAndRecover "session_superseded" "session_superseded" now) db

def reapAllExpiredParentSessions (db : NativeDatabase) (now : Int)
    (witnessOf : WitnessClassifier) : NativeResult NativeDatabase :=
  reapExpirations db none now witnessOf

end Heniek.NativeBridge
