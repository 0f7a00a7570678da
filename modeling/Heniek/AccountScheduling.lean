import Heniek.FallibleRun
import Heniek.KeyedTable

/-!
The store that schedules a run on the accounts of its candidate chain: the schedules,
their candidates, the queues of the accounts, the attempts with their concurrency leases
and the capacity questions. An operation is one transaction at one instant. Instants are
milliseconds, compared as their texts are within four-digit years; identifiers the store
draws are numbers; persisted JSON is carried as its canonical text.
-/

namespace Heniek.AccountScheduling
open KeyedTable

inductive CapacityPolicy where
  | queue
  | fallback
  | ask
  deriving DecidableEq

inductive ScheduleState where
  | queued
  | waitingOnUser
  | running
  | terminal
  deriving DecidableEq

inductive CandidateState where
  | pending
  | queued
  | selected
  | rejected
  | failed
  | succeeded
  deriving DecidableEq

inductive AttemptStatus where
  | queued
  | running
  | waitingOnUser
  | recoveryRequired
  | succeeded
  | failed
  | cancelled
  deriving DecidableEq

inductive LeaseState where
  | active
  | released
  | expired
  deriving DecidableEq

inductive QuestionState where
  | pending
  | answered
  deriving DecidableEq

structure ExecutionSchedule where
  runId : String
  stageId : String
  codebaseId : String
  repositoryId : String
  prompt : String
  artifactPath : String
  baseSha : List Char
  hardDeadlineAt : Option Int
  state : ScheduleState
  capacityPolicy : CapacityPolicy
  requestedPriority : Int
  currentCandidateIndex : Option Nat
  currentAttemptId : Option Nat
  revision : Nat
  chain : String
  requestedIdentifiers : List String
  capabilityRequest : Option String
  deriving DecidableEq

structure ExecutionCandidate where
  runId : String
  candidateIndex : Nat
  profileId : String
  accountId : Option String
  engine : String
  maxConcurrentRuns : Int
  profile : String
  limits : String
  permissions : String
  state : CandidateState
  capabilityDelta : Option String
  deriving DecidableEq

structure AccountCapacity where
  accountId : String
  maxConcurrentRuns : Int
  deriving DecidableEq

structure AccountQueueEntry where
  queueSequence : Nat
  runId : String
  candidateIndex : Nat
  accountId : String
  requestedPriority : Int
  enqueuedAt : Int
  deriving DecidableEq

structure ExecutionAttempt where
  attemptId : Nat
  runId : String
  stageId : String
  candidateIndex : Nat
  profileId : String
  accountId : Option String
  workspaceId : Option String
  backendExecutionId : Option String
  status : AttemptStatus
  limits : String
  permissions : String
  readonlyBaseline : Option String
  result : Option String
  failure : Option String
  deriving DecidableEq

structure AccountConcurrencyLease where
  leaseId : Nat
  accountId : String
  runId : String
  candidateIndex : Nat
  attemptId : Nat
  ownerId : String
  expiresAt : Int
  fencingRevision : Nat
  state : LeaseState
  deriving DecidableEq

structure QuestionOption where
  label : String
  description : String
  deriving DecidableEq

structure SubmittedAnswer where
  questionId : Nat
  kind : String
  selectedLabels : Option (List String)
  deriving DecidableEq

structure StoredAnswer where
  answerId : Nat
  operationId : Nat
  interactionId : Nat
  interactionRevision : Nat
  answers : List SubmittedAnswer
  answeredByKeyId : String
  deriving DecidableEq

structure CapacityQuestion where
  runId : String
  interactionId : Nat
  questionId : Nat
  options : List QuestionOption
  state : QuestionState
  revision : Nat
  answer : Option StoredAnswer
  deriving DecidableEq

abbrev CandidateTable := Table fun row : ExecutionCandidate => (row.runId, row.candidateIndex)

structure SchedulingDatabase where
  schedules : Table ExecutionSchedule.runId
  candidates : CandidateTable
  capacities : Table AccountCapacity.accountId
  queue : Table AccountQueueEntry.queueSequence
  attempts : Table ExecutionAttempt.attemptId
  leases : Table AccountConcurrencyLease.leaseId
  questions : Table CapacityQuestion.runId
  drawn : Nat

def emptyScheduling : SchedulingDatabase :=
    ⟨.empty, .empty, .empty, .empty, .empty, .empty, .empty, 0⟩

inductive SchedulingError where
  | store (message : String)
  | corruption (message : String)
  | constraint (table : String)
  deriving DecidableEq

abbrev SchedulingResult (α : Type) := Except SchedulingError α

def AttemptStatus.ongoing (status : AttemptStatus) : Bool :=
  status = .queued || status = .running || status = .waitingOnUser || status = .recoveryRequired

def defaultLeaseTtlMs : Int := 5 * 60000

def maxSafeInteger : Int := 9007199254740991

def queueSequences (db : SchedulingDatabase) : List Nat := db.queue.keys

/-- SQLite's next row id: one above the largest in the table. -/
def nextQueueSequence (db : SchedulingDatabase) : Nat := (queueSequences db).foldr max 0 + 1

def inQueue (db : SchedulingDatabase) (runId : String) (candidateIndex : Nat) : Bool :=
  db.queue.rows.any fun entry =>
    decide (entry.runId = runId ∧ entry.candidateIndex = candidateIndex)

def putInQueue (db : SchedulingDatabase) (candidate : ExecutionCandidate) (accountId : String)
    (requestedPriority now : Int) : SchedulingDatabase :=
  { db with
    queue := db.queue.upsert
      { queueSequence := nextQueueSequence db
        runId := candidate.runId
        candidateIndex := candidate.candidateIndex
        accountId := accountId
        requestedPriority := requestedPriority
        enqueuedAt := now }
    candidates := db.candidates.upsert { candidate with state := .queued } }

def enqueueCandidate (db : SchedulingDatabase) (runId : String) (candidateIndex : Nat)
    (requestedPriority now : Int) : Bool × SchedulingDatabase :=
  match db.candidates.find? (runId, candidateIndex) with
  | none => (false, db)
  | some candidate =>
    match candidate.accountId with
    | none => (false, db)
    | some accountId =>
      if candidate.state = .rejected then (false, db)
      else if inQueue db runId candidateIndex then (false, db)
      else (true, putInQueue db candidate accountId requestedPriority now)

def dropFromQueue (db : SchedulingDatabase) (runId : String) : SchedulingDatabase :=
  { db with queue := db.queue.deleteWhere fun entry => entry.runId = runId }

def moveSchedule (db : SchedulingDatabase) (runId : String)
    (change : ExecutionSchedule → ExecutionSchedule)
    (keeps : ∀ row, (change row).runId = row.runId) : SchedulingDatabase :=
  { db with schedules := db.schedules.modify runId change keeps }

structure SchedulingCandidateInput where
  profileId : String
  accountId : Option String
  engine : String
  maxConcurrentRuns : Int
  profile : String
  limits : String
  permissions : String
  compatible : Bool
  capabilityDelta : Option String

structure CreateExecutionScheduleInput where
  runId : String
  stageId : String
  codebaseId : String
  repositoryId : String
  prompt : String
  artifactPath : String
  baseSha : List Char
  hardDeadlineAt : Option Int
  capacityPolicy : CapacityPolicy
  requestedPriority : Option Int
  requestedIdentifiers : List String
  chain : String
  candidates : List SchedulingCandidateInput
  capabilityRequest : Option String

def hexDigit (c : Char) : Bool :=
  ('0' ≤ c && c ≤ '9') || ('a' ≤ c && c ≤ 'f') || ('A' ≤ c && c ≤ 'F')

def fullObjectId (sha : List Char) : Bool := sha.length = 40 && sha.all hexDigit

def newSchedule (input : CreateExecutionScheduleInput) (requestedPriority : Int) :
    ExecutionSchedule where
  runId := input.runId
  stageId := input.stageId
  codebaseId := input.codebaseId
  repositoryId := input.repositoryId
  prompt := input.prompt
  artifactPath := input.artifactPath
  baseSha := input.baseSha
  hardDeadlineAt := input.hardDeadlineAt
  state := .queued
  capacityPolicy := input.capacityPolicy
  requestedPriority := requestedPriority
  currentCandidateIndex := none
  currentAttemptId := none
  revision := 1
  chain := input.chain
  requestedIdentifiers := input.requestedIdentifiers
  capabilityRequest := input.capabilityRequest

def insertSchedule (db : SchedulingDatabase) (schedule : ExecutionSchedule) :
    SchedulingResult SchedulingDatabase :=
  if db.schedules.rows.any fun row => row.stageId = schedule.stageId then
    .error (.constraint "execution_schedule")
  else match db.schedules.insert? schedule with
    | some schedules => .ok { db with schedules := schedules }
    | none => .error (.constraint "execution_schedule")

def newCandidate (runId : String) (candidateIndex : Nat) (candidate : SchedulingCandidateInput) :
    ExecutionCandidate where
  runId := runId
  candidateIndex := candidateIndex
  profileId := candidate.profileId
  accountId := candidate.accountId
  engine := candidate.engine
  maxConcurrentRuns := candidate.maxConcurrentRuns
  profile := candidate.profile
  limits := candidate.limits
  permissions := candidate.permissions
  state := if candidate.compatible then .pending else .rejected
  capabilityDelta := candidate.capabilityDelta

def declareCapacity (db : SchedulingDatabase) (candidate : SchedulingCandidateInput) :
    SchedulingDatabase :=
  match candidate.accountId with
  | none => db
  | some accountId =>
    { db with capacities := db.capacities.upsert ⟨accountId, candidate.maxConcurrentRuns⟩ }

def insertCandidate (runId : String) (db : SchedulingDatabase)
    (indexed : SchedulingCandidateInput × Nat) : SchedulingResult SchedulingDatabase :=
  if indexed.1.maxConcurrentRuns < 1 ∨ maxSafeInteger < indexed.1.maxConcurrentRuns then
    .error (.store "max concurrent runs must be a positive integer")
  else match db.candidates.insert? (newCandidate runId indexed.2 indexed.1) with
    | some candidates => .ok (declareCapacity { db with candidates := candidates } indexed.1)
    | none => .error (.constraint "execution_candidate")

def enqueuedIndexes (input : CreateExecutionScheduleInput) : List Nat :=
  if input.capacityPolicy = .fallback then List.range input.candidates.length else [0]

def readExecutionScheduleRequired (db : SchedulingDatabase) (runId : String) :
    SchedulingResult ExecutionSchedule :=
  match db.schedules.find? runId with
  | some schedule => .ok schedule
  | none => .error (.store ("execution schedule does not exist: " ++ runId))

def validCreation (input : CreateExecutionScheduleInput) : SchedulingResult Unit :=
  if input.requestedPriority.getD 0 < 0 ∨ 9 < input.requestedPriority.getD 0 then
    .error (.store "requested priority must be an integer from 0 through 9")
  else if input.candidates.isEmpty then .error (.store "a schedule needs a candidate")
  else if ¬ input.requestedIdentifiers.Nodup then
    .error (.store "requested secret identifiers must be unique")
  else if ¬ fullObjectId input.baseSha then
    .error (.store "base SHA must be a full 40-character Git object id")
  else .ok ()

/-- A loop over `enqueueCandidate`, and whether one of the calls queued its candidate. -/
def enqueueEach (db : SchedulingDatabase) (runId : String) (requestedPriority now : Int)
    (indexes : List Nat) : Bool × SchedulingDatabase :=
  indexes.foldl
    (fun (queued, db) index =>
      let (inserted, db) := enqueueCandidate db runId index requestedPriority now
      (inserted || queued, db))
    (false, db)

def createExecutionSchedule (db : SchedulingDatabase) (now : Int)
    (input : CreateExecutionScheduleInput) :
    SchedulingResult (ExecutionSchedule × SchedulingDatabase) := do
  let requestedPriority := input.requestedPriority.getD 0
  validCreation input
  let db ← insertSchedule db (newSchedule input requestedPriority)
  let db ← input.candidates.zipIdx.foldlM (insertCandidate input.runId) db
  let (_, db) := enqueueEach db input.runId requestedPriority now (enqueuedIndexes input)
  let schedule ← readExecutionScheduleRequired db input.runId
  .ok (schedule, db)

def insertAttempt (db : SchedulingDatabase) (attempt : ExecutionAttempt) :
    SchedulingResult SchedulingDatabase :=
  if db.attempts.rows.any fun row =>
      decide (row.runId = attempt.runId ∧ row.candidateIndex = attempt.candidateIndex) then
    .error (.constraint "execution_attempt")
  else if attempt.runId ∉ db.schedules.keys ∨
      (attempt.runId, attempt.candidateIndex) ∉ db.candidates.keys then
    .error (.constraint "execution_attempt")
  else match db.attempts.insert? attempt with
    | some attempts => .ok { db with attempts := attempts }
    | none => .error (.constraint "execution_attempt")

def oneActivePerAttempt (leases : Table AccountConcurrencyLease.leaseId) : Bool :=
  decide (((leases.rows.filter fun lease => lease.state = .active).map
    AccountConcurrencyLease.attemptId).Nodup)

def storeLeases (db : SchedulingDatabase) (leases : Table AccountConcurrencyLease.leaseId) :
    SchedulingResult SchedulingDatabase :=
  if oneActivePerAttempt leases then .ok { db with leases := leases }
  else .error (.constraint "account_concurrency_lease")

def insertLease (db : SchedulingDatabase) (lease : AccountConcurrencyLease) :
    SchedulingResult SchedulingDatabase :=
  if lease.attemptId ∉ db.attempts.keys ∨
      (lease.runId, lease.candidateIndex) ∉ db.candidates.keys then
    .error (.constraint "account_concurrency_lease")
  else match db.leases.insert? lease with
    | some leases => storeLeases db leases
    | none => .error (.constraint "account_concurrency_lease")

def orphaned (db : SchedulingDatabase) (now : Int) (lease : AccountConcurrencyLease) : Bool :=
  decide (lease.state = .active ∧ lease.expiresAt ≤ now ∧
    (lease.runId, lease.candidateIndex) ∈ db.candidates.keys ∧ lease.runId ∈ db.schedules.keys)

def expiredLease (db : SchedulingDatabase) (now : Int) (lease : AccountConcurrencyLease) :
    AccountConcurrencyLease :=
  if orphaned db now lease then
    { lease with state := .expired, fencingRevision := lease.fencingRevision + 1 }
  else lease

theorem expiredLease_leaseId (db : SchedulingDatabase) (now : Int)
    (lease : AccountConcurrencyLease) : (expiredLease db now lease).leaseId = lease.leaseId := by
  unfold expiredLease
  split <;> rfl

def expireOrphanLeases (db : SchedulingDatabase) (now : Int) : SchedulingDatabase :=
  { db with leases := db.leases.mapAll (expiredLease db now) (expiredLease_leaseId db now) }

/-- What the capacity of an account is compared with. -/
def activeLeases (db : SchedulingDatabase) (accountId : String) (now : Int) : Nat :=
  db.leases.rows.countP fun lease =>
    decide (lease.accountId = accountId ∧ lease.state = .active ∧ now < lease.expiresAt)

/-- A row of the claim query: the entry with its candidate, its schedule and the maximum. -/
structure QueueRow where
  entry : AccountQueueEntry
  candidate : ExecutionCandidate
  schedule : ExecutionSchedule
  maxConcurrentRuns : Int

def claimMaximum (db : SchedulingDatabase) (entry : AccountQueueEntry)
    (candidate : ExecutionCandidate) : Int :=
  match db.capacities.find? entry.accountId with
  | some capacity => capacity.maxConcurrentRuns
  | none => candidate.maxConcurrentRuns

def queueRow (db : SchedulingDatabase) (accountId : Option String) (entry : AccountQueueEntry) :
    Option QueueRow := do
  let candidate ← db.candidates.find? (entry.runId, entry.candidateIndex)
  let schedule ← db.schedules.find? entry.runId
  if candidate.state = .queued ∧ schedule.state = .queued ∧
      (accountId = none ∨ accountId = some entry.accountId) then
    some ⟨entry, candidate, schedule, claimMaximum db entry candidate⟩
  else none

def claimRows (db : SchedulingDatabase) (accountId : Option String) : List QueueRow :=
  db.queue.rows.filterMap (queueRow db accountId)

def effectivePriority (now : Int) (row : QueueRow) : Int :=
  min 9 (row.entry.requestedPriority + max 0 (now - row.entry.enqueuedAt) / 60000)

def precedes (now : Int) (left right : QueueRow) : Bool :=
  decide (effectivePriority now right < effectivePriority now left ∨
    (effectivePriority now right = effectivePriority now left ∧
      left.entry.queueSequence ≤ right.entry.queueSequence))

def firstInOrder (now : Int) (rows : List QueueRow) : Option QueueRow :=
  (rows.insertionSort fun left right => precedes now left right = true).head?

def accountHeads (now : Int) (rows : List QueueRow) : List QueueRow :=
  let accounts := (rows.map fun row => row.entry.accountId).eraseDups
  accounts.filterMap fun accountId =>
    firstInOrder now (rows.filter fun row => row.entry.accountId = accountId)

def fallbackOptions (db : SchedulingDatabase) (runId : String) : List QuestionOption :=
  let candidates := db.candidates.rows.filter fun row =>
    decide (row.runId = runId ∧ 0 < row.candidateIndex ∧ row.state ≠ .rejected)
  (candidates.insertionSort fun left right => left.candidateIndex ≤ right.candidateIndex).map
    fun row =>
      { label := "Use fallback " ++ toString row.candidateIndex
        description := "Run with profile " ++ row.profileId ++ "." }

def newQuestion (db : SchedulingDatabase) (row : QueueRow) : CapacityQuestion where
  runId := row.entry.runId
  interactionId := db.drawn
  questionId := db.drawn + 1
  options :=
    { label := "Wait for primary", description :=
      "Wait for profile " ++ row.candidate.profileId ++ "." } ::
      fallbackOptions db row.entry.runId ++
      [{ label := "Cancel run", description := "Cancel without starting a provider attempt." }]
  state := .pending
  revision := 1
  answer := none

/-- `INSERT OR IGNORE`: a run keeps the question it has. -/
def createCapacityQuestion (db : SchedulingDatabase) (row : QueueRow) : SchedulingDatabase :=
  { db with
    questions := db.questions.insertOrIgnore (newQuestion db row)
    drawn := db.drawn + 2 }

def awaitUser (schedule : ExecutionSchedule) : ExecutionSchedule :=
  if schedule.state = .queued then
    { schedule with state := .waitingOnUser, revision := schedule.revision + 1 }
  else schedule

theorem awaitUser_runId (schedule : ExecutionSchedule) :
    (awaitUser schedule).runId = schedule.runId := by
  unfold awaitUser
  split <;> rfl

def askUser (db : SchedulingDatabase) (head : QueueRow) : SchedulingDatabase :=
  createCapacityQuestion
    (dropFromQueue (moveSchedule db head.entry.runId awaitUser awaitUser_runId) head.entry.runId)
    head

/-- One head of the loop: it is available, or at capacity and its user may be asked. -/
def weighHead (now : Int) (weighed : SchedulingDatabase × List QueueRow) (head : QueueRow) :
    SchedulingDatabase × List QueueRow :=
  if (activeLeases weighed.1 head.entry.accountId now : Int) < head.maxConcurrentRuns then
    (weighed.1, weighed.2 ++ [head])
  else if head.schedule.capacityPolicy = .ask then (askUser weighed.1 head, weighed.2)
  else weighed

abbrev EarliestTable := Table fun row : QueueRow => row.entry.runId

def keepEarliest (earliest : EarliestTable) (row : QueueRow) : EarliestTable :=
  match earliest.find? row.entry.runId with
  | none => earliest.upsert row
  | some previous =>
    if row.entry.candidateIndex < previous.entry.candidateIndex then earliest.upsert row
    else earliest

def selectRow (now : Int) (available : List QueueRow) : Option QueueRow :=
  firstInOrder now (available.foldl keepEarliest .empty).rows

def claimedState (selected : QueueRow) (candidate : ExecutionCandidate) : CandidateState :=
  if candidate.candidateIndex = selected.entry.candidateIndex then .selected
  else if candidate.state = .queued then .pending
  else candidate.state

def claimCandidate (selected : QueueRow) (candidate : ExecutionCandidate) : ExecutionCandidate :=
  if candidate.runId = selected.entry.runId then
    { candidate with state := claimedState selected candidate }
  else candidate

theorem claimCandidate_key (selected : QueueRow) (candidate : ExecutionCandidate) :
    ((claimCandidate selected candidate).runId,
      (claimCandidate selected candidate).candidateIndex) =
      (candidate.runId, candidate.candidateIndex) := by
  unfold claimCandidate
  split <;> rfl

def claimedAttempt (attemptId : Nat) (selected : QueueRow) : ExecutionAttempt where
  attemptId := attemptId
  runId := selected.entry.runId
  stageId := selected.schedule.stageId
  candidateIndex := selected.entry.candidateIndex
  profileId := selected.candidate.profileId
  accountId := some selected.entry.accountId
  workspaceId := none
  backendExecutionId := none
  status := .queued
  limits := selected.candidate.limits
  permissions := selected.candidate.permissions
  readonlyBaseline := none
  result := none
  failure := none

def claimedLease (attemptId leaseId : Nat) (ownerId : String) (expiresAt : Int)
    (selected : QueueRow) : AccountConcurrencyLease where
  leaseId := leaseId
  accountId := selected.entry.accountId
  runId := selected.entry.runId
  candidateIndex := selected.entry.candidateIndex
  attemptId := attemptId
  ownerId := ownerId
  expiresAt := expiresAt
  fencingRevision := 1
  state := .active

def runAttempt (candidateIndex attemptId : Nat) (schedule : ExecutionSchedule) :
    ExecutionSchedule :=
  { schedule with
    state := .running
    currentCandidateIndex := some candidateIndex
    currentAttemptId := some attemptId
    revision := schedule.revision + 1 }

theorem runAttempt_runId (candidateIndex attemptId : Nat) (schedule : ExecutionSchedule) :
    (runAttempt candidateIndex attemptId schedule).runId = schedule.runId := rfl

structure ClaimInput where
  ownerId : String
  leaseTtlMs : Option Int
  accountId : Option String

structure SchedulingClaim where
  runId : String
  stageId : String
  codebaseId : String
  repositoryId : String
  prompt : String
  artifactPath : String
  attemptId : Nat
  candidateIndex : Nat
  profileId : String
  accountId : String
  fencingRevision : Nat
  leaseExpiresAt : Int
  baseSha : List Char
  hardDeadlineAt : Option Int
  profile : String
  limits : String
  permissions : String
  capabilityDelta : Option String
  deriving DecidableEq

def schedulingClaim (attemptId : Nat) (expiresAt : Int) (selected : QueueRow) :
    SchedulingClaim where
  runId := selected.entry.runId
  stageId := selected.schedule.stageId
  codebaseId := selected.schedule.codebaseId
  repositoryId := selected.schedule.repositoryId
  prompt := selected.schedule.prompt
  artifactPath := selected.schedule.artifactPath
  attemptId := attemptId
  candidateIndex := selected.entry.candidateIndex
  profileId := selected.candidate.profileId
  accountId := selected.entry.accountId
  fencingRevision := 1
  leaseExpiresAt := expiresAt
  baseSha := selected.schedule.baseSha
  hardDeadlineAt := selected.schedule.hardDeadlineAt
  profile := selected.candidate.profile
  limits := selected.candidate.limits
  permissions := selected.candidate.permissions
  capabilityDelta := selected.candidate.capabilityDelta

def grantSelected (db : SchedulingDatabase) (ownerId : String) (expiresAt : Int)
    (selected : QueueRow) : SchedulingResult (SchedulingClaim × SchedulingDatabase) := do
  let attemptId := db.drawn
  let leaseId := db.drawn + 1
  let db := { db with drawn := db.drawn + 2 }
  let db := dropFromQueue db selected.entry.runId
  let db := { db with candidates :=
    db.candidates.mapAll (claimCandidate selected) (claimCandidate_key selected) }
  let db ← insertAttempt db (claimedAttempt attemptId selected)
  let db ← insertLease db (claimedLease attemptId leaseId ownerId expiresAt selected)
  let db := moveSchedule db selected.entry.runId
    (runAttempt selected.entry.candidateIndex attemptId)
    (runAttempt_runId selected.entry.candidateIndex attemptId)
  .ok (schedulingClaim attemptId expiresAt selected, db)

def granted (db : SchedulingDatabase) (ownerId : String) (expiresAt : Int) (selected : QueueRow) :
    SchedulingDatabase where
  schedules := db.schedules.modify selected.entry.runId
    (runAttempt selected.entry.candidateIndex db.drawn)
    (runAttempt_runId selected.entry.candidateIndex db.drawn)
  candidates := db.candidates.mapAll (claimCandidate selected) (claimCandidate_key selected)
  capacities := db.capacities
  queue := db.queue.deleteWhere fun entry => entry.runId = selected.entry.runId
  attempts := db.attempts.upsert (claimedAttempt db.drawn selected)
  leases := db.leases.upsert (claimedLease db.drawn (db.drawn + 1) ownerId expiresAt selected)
  questions := db.questions
  drawn := db.drawn + 2

def weighHeads (db : SchedulingDatabase) (now : Int) (accountId : Option String) :
    SchedulingDatabase × List QueueRow :=
  (accountHeads now (claimRows db accountId)).foldl (weighHead now) (db, [])

def claimNextExecutionCandidate (db : SchedulingDatabase) (now : Int) (input : ClaimInput) :
    SchedulingResult (Option SchedulingClaim × SchedulingDatabase) :=
  let ttl := input.leaseTtlMs.getD defaultLeaseTtlMs
  if ttl < 1 ∨ maxSafeInteger < ttl then .error (.store "lease TTL must be positive")
  else
    let weighed := weighHeads (expireOrphanLeases db now) now input.accountId
    match selectRow now weighed.2 with
    | none => .ok (none, weighed.1)
    | some selected => do
        let (claim, db) ← grantSelected weighed.1 input.ownerId (now + ttl) selected
        .ok (some claim, db)

end Heniek.AccountScheduling
