import Heniek.PipelineStore

/-!
The ledger of task integrations, the epic branches it moves and the gates it sets
on the tasks. An operation is one transaction: it throws without an effect. A
`Commit` records what a transaction did to an entry, with the branches it moved;
no operation reads it.

Times and the trace stream are left out: no decision reads them.
-/

namespace Heniek.IntegrationStore
open KeyedTable FallibleRun ScriptText

inductive TaskLifecyclePhase where
  | notStarted | dispatching | active | retrying | cancelling | recoveryRequired
  | succeeded | failed | cancelled | blocked
  deriving DecidableEq

inductive CompletionGate where
  | pending | passed | failed
  deriving DecidableEq

inductive IntegrationGate where
  | pending | passed | reconciliationRequired
  deriving DecidableEq

inductive PropagationCode where
  | predecessorFailed | predecessorCancelled | predecessorBlocked
  deriving DecidableEq

structure TaskPropagationReason where
  code : PropagationCode
  immediateTaskId : String
  rootTaskId : String
  path : List String
  deriving DecidableEq

structure TaskLifecycleProjection where
  runId : String
  taskId : String
  graphRevision : Nat
  phase : TaskLifecyclePhase
  childRunId : Option String := none
  attemptOrdinal : Nat := 0
  retryCount : Nat := 0
  blockReason : Option TaskPropagationReason := none
  completionContract : CompletionGate := .pending
  integration : IntegrationGate := .pending
  combinedVerification : CompletionGate := .pending
  revision : Nat := 1
  deriving DecidableEq

structure TaskDispatchRecord where
  dispatchId : String
  runId : String
  taskId : String
  graphRevision : Nat
  waveOrdinal : Nat
  childRunId : String
  pipelineId : String
  profileId : String
  accountId : Option String
  workspaceId : String
  repositoryIds : List String
  recordedAt : String
  deriving DecidableEq

inductive BranchLifecycle where
  | ready | reconciliationRequired
  deriving DecidableEq

structure EpicRepositoryBranch where
  runId : String
  repositoryId : String
  branchRef : String
  remote : String
  remoteBaseRef : String
  remoteBaseSha : String
  expectedLocalSha : String
  observedRemoteSha : Option String
  lifecycle : BranchLifecycle
  revision : Nat
  deriving DecidableEq

structure EpicBranchObservation where
  runId : String
  repositoryId : String
  branchRef : String
  remote : String
  remoteBaseRef : String
  remoteBaseSha : String
  observedLocalSha : String
  observedRemoteSha : Option String
  deriving DecidableEq

structure TaskIntegrationRepository where
  repositoryId : String
  sourceSha : String
  expectedTargetSha : String
  candidateSha : Option String
  resultSha : Option String
  classification : Option String
  deriving DecidableEq

inductive EntryLifecycle where
  | queued | prepared | verified | integrated | failed | reconciliationRequired
  deriving DecidableEq

structure TaskIntegrationLedgerEntry where
  integrationId : String
  runId : String
  taskId : String
  graphRevision : Nat
  waveOrdinal : Nat
  integrationOrdinal : Nat
  variantId : String
  lifecycle : EntryLifecycle
  repositories : List TaskIntegrationRepository
  verificationReportId : Option String
  verification : CompletionGate
  revision : Nat
  deriving DecidableEq

inductive ReconciliationTrigger where
  | interruptedPublish | partialPublish | branchDrift | recoveryRequired
  deriving DecidableEq

inductive ReconciliationLifecycle where
  | observing | forwarding | integrated | blocked
  deriving DecidableEq

inductive ReconciliationResolution where
  | forwardPublished | adoptedPublished | mixedForwardAndAdopt | blocked
  deriving DecidableEq

inductive ReconciliationBlocker where
  | externalMutation | missingEvidence | observationFailed | identityMismatch | ambiguousState
  deriving DecidableEq

inductive ReconciliationClassification where
  | pending | applied | missingCandidate | missingRef | observationFailed | externalMutation
  | identityMismatch
  deriving DecidableEq

inductive ReconciliationAction where
  | publish | adopt | block
  deriving DecidableEq

structure ReconciliationRepository where
  repositoryId : String
  expectedSha : String
  candidateSha : Option String
  observedSha : Option String
  classification : ReconciliationClassification
  action : ReconciliationAction
  detail : Option String
  deriving DecidableEq

def reconciliationIdOf (integrationId : String) : String := integrationId ++ ":reconciliation"

theorem reconciliationIdOf_inj {left right : String}
    (same : reconciliationIdOf left = reconciliationIdOf right) : left = right :=
  String.append_left_inj _ |>.mp same

structure TaskIntegrationReconciliation where
  reconciliationId : String
  integrationId : String
  runId : String
  taskId : String
  trigger : ReconciliationTrigger
  lifecycle : ReconciliationLifecycle
  resolution : Option ReconciliationResolution
  blocker : Option ReconciliationBlocker
  pass : Nat
  repositories : List ReconciliationRepository
  verificationReportId : Option String
  revision : Nat
  identified : reconciliationId = reconciliationIdOf integrationId
  deriving DecidableEq

structure ReconciliationObservation where
  observationId : String
  reconciliationId : String
  integrationId : String
  runId : String
  taskId : String
  pass : Nat
  sequence : Nat
  repository : ReconciliationRepository
  deriving DecidableEq

abbrev TaskTable := Table fun row : TaskLifecycleProjection => (row.runId, row.taskId)

abbrev BranchTable := Table fun row : EpicRepositoryBranch => (row.runId, row.repositoryId)

structure IntegrationDatabase where
  tasks : TaskTable
  branches : BranchTable
  ledger : Table TaskIntegrationLedgerEntry.integrationId
  reconciliations : Table TaskIntegrationReconciliation.reconciliationId
  observations : Table ReconciliationObservation.observationId

def emptyIntegrations : IntegrationDatabase := ⟨.empty, .empty, .empty, .empty, .empty⟩

inductive IntegrationStoreError where
  | constraint
  | identityConflict (integrationId : String)
  | unknownIntegration (integrationId : String)
  | unexpectedLifecycle (integrationId : String) (expected observed : EntryLifecycle)
  | branchChanged (repositoryId : String)
  | gatesRequireSucceeded (taskId : String)
  | unknownReconciliation (reconciliationId : String)
  | unexpectedReconciliation (reconciliationId : String)
      (expected observed : ReconciliationLifecycle)
  | blockedReconciliation (reconciliationId : String)
  | unprovenCandidate (repositoryId : String)
  | evidenceChanged (repositoryId : String)
  deriving DecidableEq

abbrev StoreResult (α : Type) := Except IntegrationStoreError α

structure IntegrationGates where
  completionContract : CompletionGate
  integration : IntegrationGate
  combinedVerification : CompletionGate
  deriving DecidableEq

/-- An update of a branch that set its expected commit. -/
structure BranchMove where
  runId : String
  repository : TaskIntegrationRepository
  fromSha : String
  toSha : String
  deriving DecidableEq

structure Commit where
  before : TaskIntegrationLedgerEntry
  after : TaskIntegrationLedgerEntry
  moves : List BranchMove
  gates : Option IntegrationGates
  deriving DecidableEq

def initialBranch (input : EpicBranchObservation) : EpicRepositoryBranch where
  runId := input.runId
  repositoryId := input.repositoryId
  branchRef := input.branchRef
  remote := input.remote
  remoteBaseRef := input.remoteBaseRef
  remoteBaseSha := input.remoteBaseSha
  expectedLocalSha := input.observedLocalSha
  observedRemoteSha := input.observedRemoteSha
  lifecycle :=
    if input.observedLocalSha = input.remoteBaseSha ∧
        input.observedRemoteSha.all (fun sha => decide (sha = input.observedLocalSha)) = true then
      .ready
    else .reconciliationRequired
  revision := 1

def branchMatches (existing : EpicRepositoryBranch) (input : EpicBranchObservation) : Bool :=
  decide (existing.branchRef = input.branchRef ∧ existing.remote = input.remote ∧
    existing.remoteBaseRef = input.remoteBaseRef ∧ existing.remoteBaseSha = input.remoteBaseSha ∧
    existing.expectedLocalSha = input.observedLocalSha) &&
    input.observedRemoteSha.all fun sha => decide (sha = existing.expectedLocalSha)

def driftedBranch (existing : EpicRepositoryBranch) (input : EpicBranchObservation) :
    EpicRepositoryBranch :=
  { existing with
    observedRemoteSha := input.observedRemoteSha
    lifecycle := .reconciliationRequired
    revision := existing.revision + 1 }

def initializeBranch (db : IntegrationDatabase) (input : EpicBranchObservation) :
    EpicRepositoryBranch × IntegrationDatabase :=
  match db.branches.find? (input.runId, input.repositoryId) with
  | none =>
    (initialBranch input, { db with branches := db.branches.upsert (initialBranch input) })
  | some existing =>
    if branchMatches existing input then (existing, db)
    else if existing.lifecycle = .reconciliationRequired then (existing, db)
    else
      (driftedBranch existing input,
        { db with branches := db.branches.upsert (driftedBranch existing input) })

structure QueueTaskIntegrationInput where
  integrationId : String
  runId : String
  taskId : String
  graphRevision : Nat
  waveOrdinal : Nat
  integrationOrdinal : Nat
  variantId : String
  deriving DecidableEq

def queuedEntry (input : QueueTaskIntegrationInput) : TaskIntegrationLedgerEntry where
  integrationId := input.integrationId
  runId := input.runId
  taskId := input.taskId
  graphRevision := input.graphRevision
  waveOrdinal := input.waveOrdinal
  integrationOrdinal := input.integrationOrdinal
  variantId := input.variantId
  lifecycle := .queued
  repositories := []
  verificationReportId := none
  verification := .pending
  revision := 1

def sameIdentity (entry : TaskIntegrationLedgerEntry) (input : QueueTaskIntegrationInput) : Bool :=
  decide (entry.runId = input.runId ∧ entry.taskId = input.taskId ∧
    entry.graphRevision = input.graphRevision ∧ entry.waveOrdinal = input.waveOrdinal ∧
    entry.integrationOrdinal = input.integrationOrdinal ∧ entry.variantId = input.variantId)

def entryAdmissible (db : IntegrationDatabase) (entry : TaskIntegrationLedgerEntry) : Bool :=
  decide ((entry.runId, entry.taskId) ∈ db.tasks.keys) &&
    decide (1 ≤ entry.graphRevision ∧ 1 ≤ entry.waveOrdinal ∧ 1 ≤ entry.integrationOrdinal) &&
    db.ledger.rows.all fun other =>
      decide (other.runId = entry.runId →
        ¬ (other.graphRevision = entry.graphRevision ∧ other.taskId = entry.taskId) ∧
        other.integrationOrdinal ≠ entry.integrationOrdinal)

def enqueue (db : IntegrationDatabase) (input : QueueTaskIntegrationInput) :
    StoreResult (TaskIntegrationLedgerEntry × IntegrationDatabase) :=
  match db.ledger.find? input.integrationId with
  | some existing =>
    if sameIdentity existing input then .ok (existing, db)
    else .error (.identityConflict input.integrationId)
  | none =>
    if entryAdmissible db (queuedEntry input) then
      .ok (queuedEntry input, { db with ledger := db.ledger.upsert (queuedEntry input) })
    else .error .constraint

variable {db db' : IntegrationDatabase} {entry : TaskIntegrationLedgerEntry}

theorem enqueue_ok {input : QueueTaskIntegrationInput} (ok : enqueue db input = .ok (entry, db')) :
    (db.ledger.find? input.integrationId = some entry ∧ db' = db) ∨
      (db.ledger.find? input.integrationId = none ∧
        entryAdmissible db (queuedEntry input) = true ∧
        db' = { db with ledger := db.ledger.upsert (queuedEntry input) }) := by
  unfold enqueue at ok
  split at ok
  · rename_i existing found
    split_ifs at ok
    cases ok
    exact Or.inl ⟨found, rfl⟩
  · rename_i absent
    split_ifs at ok with admissible
    cases ok
    exact Or.inr ⟨absent, admissible, rfl⟩

def entries (db : IntegrationDatabase) (runId : String) : List TaskIntegrationLedgerEntry :=
  (db.ledger.rows.filter fun entry => entry.runId = runId).insertionSort fun left right =>
    left.integrationOrdinal ≤ right.integrationOrdinal

structure TaskIntegrationTransitionInput where
  integrationId : String
  expectedLifecycle : EntryLifecycle
  lifecycle : EntryLifecycle
  repositories : Option (List TaskIntegrationRepository) := none
  verificationReportId : Option (Option String) := none
  verification : Option CompletionGate := none
  gates : Option IntegrationGates := none

def transitioned (existing : TaskIntegrationLedgerEntry) (input : TaskIntegrationTransitionInput) :
    TaskIntegrationLedgerEntry :=
  { existing with
    lifecycle := input.lifecycle
    repositories := input.repositories.getD existing.repositories
    verificationReportId := input.verificationReportId.getD existing.verificationReportId
    verification := input.verification.getD existing.verification
    revision := existing.revision + 1 }

def appliedClassifications : List String := ["integrated", "already-applied", "already_applied"]

def provenSha (repository : TaskIntegrationRepository) : Option String :=
  match repository.resultSha with
  | none => none
  | some sha =>
    if repository.candidateSha = some sha ∧
        repository.classification.any (fun text => decide (text ∈ appliedClassifications)) = true
    then some sha
    else none

def movedBranch (branch : EpicRepositoryBranch) (sha : String) (lifecycle : BranchLifecycle) :
    EpicRepositoryBranch :=
  { branch with expectedLocalSha := sha, lifecycle := lifecycle, revision := branch.revision + 1 }

/-- The loop of `transition`: a repository without a proof is passed over. -/
def advanceBranches (runId : String) : List TaskIntegrationRepository → BranchTable →
    StoreResult (List BranchMove × BranchTable)
  | [], branches => .ok ([], branches)
  | repository :: repositories, branches =>
    match provenSha repository with
    | none => advanceBranches runId repositories branches
    | some sha =>
      match branches.find? (runId, repository.repositoryId) with
      | none => .error (.branchChanged repository.repositoryId)
      | some branch =>
        if branch.expectedLocalSha = repository.expectedTargetSha ∧
            branch.lifecycle = .ready then do
          let (moves, branches) ← advanceBranches runId repositories
            (branches.upsert (movedBranch branch sha branch.lifecycle))
          .ok (⟨runId, repository, branch.expectedLocalSha, sha⟩ :: moves, branches)
        else .error (.branchChanged repository.repositoryId)

/-- `UPDATE task_lifecycle_projection ... AND phase = 'succeeded'`. -/
def setGates (tasks : TaskTable) (runId taskId : String) (gates : IntegrationGates) :
    StoreResult TaskTable :=
  match tasks.find? (runId, taskId) with
  | none => .error (.gatesRequireSucceeded taskId)
  | some task =>
    if task.phase = .succeeded then
      .ok (tasks.upsert { task with
        completionContract := gates.completionContract
        integration := gates.integration
        combinedVerification := gates.combinedVerification
        revision := task.revision + 1 })
    else .error (.gatesRequireSucceeded taskId)

def terminalEntry (lifecycle : EntryLifecycle) : Bool :=
  decide (lifecycle = .integrated ∨ lifecycle = .failed)

def movedBranches (branches : BranchTable) (next : TaskIntegrationLedgerEntry) :
    StoreResult (List BranchMove × BranchTable) :=
  if next.lifecycle = .integrated ∨ next.lifecycle = .reconciliationRequired then
    advanceBranches next.runId next.repositories branches
  else .ok ([], branches)

def gatedTasks (tasks : TaskTable) (entry : TaskIntegrationLedgerEntry) :
    Option IntegrationGates → StoreResult TaskTable
  | none => .ok tasks
  | some gates => setGates tasks entry.runId entry.taskId gates

def writeTransition (db : IntegrationDatabase) (existing : TaskIntegrationLedgerEntry)
    (input : TaskIntegrationTransitionInput) : StoreResult (Commit × IntegrationDatabase) :=
  if terminalEntry existing.lifecycle then .error .constraint
  else do
    let next := transitioned existing input
    let (moves, branches) ← movedBranches db.branches next
    let tasks ← gatedTasks db.tasks existing input.gates
    .ok (⟨existing, next, moves, input.gates⟩,
      { db with ledger := db.ledger.upsert next, branches := branches, tasks := tasks })

/-- The entry after the call, and the commit unless the entry was already there. -/
def transition (db : IntegrationDatabase) (input : TaskIntegrationTransitionInput) :
    StoreResult ((TaskIntegrationLedgerEntry × Option Commit) × IntegrationDatabase) :=
  match db.ledger.find? input.integrationId with
  | none => .error (.unknownIntegration input.integrationId)
  | some existing =>
    if existing.lifecycle ≠ input.expectedLifecycle then
      if existing.lifecycle = input.lifecycle then .ok ((existing, none), db)
      else .error (.unexpectedLifecycle input.integrationId input.expectedLifecycle
        existing.lifecycle)
    else do
      let (commit, db) ← writeTransition db existing input
      .ok ((commit.after, some commit), db)

structure Written (db : IntegrationDatabase) (existing : TaskIntegrationLedgerEntry)
    (input : TaskIntegrationTransitionInput) (commit : Commit) (db' : IntegrationDatabase) :
    Prop where
  ongoing : terminalEntry existing.lifecycle = false
  before : commit.before = existing
  after : commit.after = transitioned existing input
  gates : commit.gates = input.gates
  ledger : db'.ledger = db.ledger.upsert (transitioned existing input)
  branches : movedBranches db.branches (transitioned existing input) =
    .ok (commit.moves, db'.branches)
  tasks : gatedTasks db.tasks existing input.gates = .ok db'.tasks

theorem writeTransition_ok {existing : TaskIntegrationLedgerEntry}
    {input : TaskIntegrationTransitionInput} {commit : Commit}
    (ok : writeTransition db existing input = .ok (commit, db')) :
    Written db existing input commit db' := by
  unfold writeTransition at ok
  split at ok
  · cases ok
  · rename_i ongoing
    obtain ⟨⟨moves, branches⟩, movedTo, ok⟩ := bind_eq_ok.mp ok
    obtain ⟨tasks, gated, ok⟩ := bind_eq_ok.mp ok
    cases ok
    exact ⟨by simpa using ongoing, rfl, rfl, rfl, rfl, movedTo, gated⟩

theorem transition_ok {input : TaskIntegrationTransitionInput} {result : TaskIntegrationLedgerEntry}
    {commit : Option Commit} (found : db.ledger.find? input.integrationId = some entry)
    (expected : entry.lifecycle = input.expectedLifecycle)
    (ok : transition db input = .ok ((result, commit), db')) :
    ∃ written, writeTransition db entry input = .ok (written, db') ∧
      result = transitioned entry input ∧ commit = some written := by
  unfold transition at ok
  rw [found] at ok
  simp only [expected, ne_eq, not_true_eq_false] at ok
  obtain ⟨⟨written, written'⟩, wrote, ok⟩ := bind_eq_ok.mp ok
  cases ok
  exact ⟨written, wrote, (writeTransition_ok wrote).after, rfl⟩

def startReconciliation (db : IntegrationDatabase) (entry : TaskIntegrationLedgerEntry)
    (trigger : ReconciliationTrigger) :
    StoreResult (TaskIntegrationReconciliation × IntegrationDatabase) :=
  match db.reconciliations.find? (reconciliationIdOf entry.integrationId) with
  | some existing => .ok (existing, db)
  | none =>
    let reconciliation : TaskIntegrationReconciliation :=
      { reconciliationId := reconciliationIdOf entry.integrationId
        integrationId := entry.integrationId
        runId := entry.runId
        taskId := entry.taskId
        trigger := trigger
        lifecycle := .observing
        resolution := none
        blocker := none
        pass := 0
        repositories := []
        verificationReportId := entry.verificationReportId
        revision := 1
        identified := rfl }
    if entry.integrationId ∈ db.ledger.keys then
      .ok (reconciliation,
        { db with reconciliations := db.reconciliations.upsert reconciliation })
    else .error .constraint

structure AdvanceReconciliationInput where
  reconciliationId : String
  expectedLifecycle : ReconciliationLifecycle
  lifecycle : ReconciliationLifecycle
  pass : Option Nat := none
  repositories : Option (List ReconciliationRepository) := none
  resolution : Option ReconciliationResolution := none
  blocker : Option ReconciliationBlocker := none

def advancedReconciliation (existing : TaskIntegrationReconciliation)
    (input : AdvanceReconciliationInput) : TaskIntegrationReconciliation :=
  { existing with
    lifecycle := input.lifecycle
    pass := input.pass.getD existing.pass
    repositories := input.repositories.getD existing.repositories
    resolution := input.resolution.or existing.resolution
    blocker := input.blocker.or existing.blocker
    revision := existing.revision + 1 }

def terminalReconciliation (lifecycle : ReconciliationLifecycle) : Bool :=
  decide (lifecycle = .integrated ∨ lifecycle = .blocked)

def advanceReconciliation (db : IntegrationDatabase) (input : AdvanceReconciliationInput) :
    StoreResult (TaskIntegrationReconciliation × IntegrationDatabase) :=
  match db.reconciliations.find? input.reconciliationId with
  | none => .error (.unknownReconciliation input.reconciliationId)
  | some existing =>
    if existing.lifecycle ≠ input.expectedLifecycle then
      if existing.lifecycle = input.lifecycle then .ok (existing, db)
      else .error (.unexpectedReconciliation input.reconciliationId input.expectedLifecycle
        existing.lifecycle)
    else if terminalReconciliation existing.lifecycle then .error .constraint
    else
      .ok (advancedReconciliation existing input, { db with
        reconciliations := db.reconciliations.upsert (advancedReconciliation existing input) })

/-- The loop of `resolveReconciliation`: every repository has to be proven. -/
def resolveBranches (runId : String) : List TaskIntegrationRepository → BranchTable →
    StoreResult (List BranchMove × BranchTable)
  | [], branches => .ok ([], branches)
  | repository :: repositories, branches =>
    match repository.candidateSha with
    | none => .error (.unprovenCandidate repository.repositoryId)
    | some sha =>
      if repository.resultSha ≠ some sha then
        .error (.unprovenCandidate repository.repositoryId)
      else
        match branches.find? (runId, repository.repositoryId) with
        | none => .error (.evidenceChanged repository.repositoryId)
        | some branch =>
          if branch.expectedLocalSha = repository.expectedTargetSha ∨
              branch.expectedLocalSha = sha then do
            let (moves, branches) ← resolveBranches runId repositories
              (branches.upsert (movedBranch branch sha .ready))
            .ok (⟨runId, repository, branch.expectedLocalSha, sha⟩ :: moves, branches)
          else .error (.evidenceChanged repository.repositoryId)

def passedGates : IntegrationGates := ⟨.passed, .passed, .passed⟩

def resolvedEntry (entry : TaskIntegrationLedgerEntry)
    (repositories : List TaskIntegrationRepository) : TaskIntegrationLedgerEntry :=
  { entry with
    lifecycle := .integrated
    repositories := repositories
    revision := entry.revision + 1 }

def resolveReconciliation (db : IntegrationDatabase) (reconciliationId : String)
    (repositories : List TaskIntegrationRepository) (resolution : ReconciliationResolution) :
    StoreResult (Option Commit × IntegrationDatabase) :=
  match db.reconciliations.find? reconciliationId with
  | none => .error (.unknownReconciliation reconciliationId)
  | some existing =>
    if existing.lifecycle = .integrated then .ok (none, db)
    else if existing.lifecycle = .blocked then
      .error (.blockedReconciliation reconciliationId)
    else
      match db.ledger.find? existing.integrationId with
      | none => .error (.unknownIntegration existing.integrationId)
      | some entry => do
          let (moves, branches) ← resolveBranches entry.runId repositories db.branches
          let next := resolvedEntry entry repositories
          if terminalEntry entry.lifecycle then .error .constraint
          else
            let tasks ← setGates db.tasks entry.runId entry.taskId passedGates
            let resolved : TaskIntegrationReconciliation :=
              { existing with
                lifecycle := .integrated
                resolution := some resolution
                blocker := none
                revision := existing.revision + 1 }
            .ok (some ⟨entry, next, moves, some passedGates⟩, { db with
              ledger := db.ledger.upsert next
              branches := branches
              tasks := tasks
              reconciliations := db.reconciliations.upsert resolved })

theorem startReconciliation_ok {trigger : ReconciliationTrigger}
    {result : TaskIntegrationReconciliation}
    (ok : startReconciliation db entry trigger = .ok (result, db')) :
    result.integrationId = entry.integrationId ∧ db'.tasks = db.tasks ∧
      db'.branches = db.branches ∧ db'.ledger = db.ledger := by
  unfold startReconciliation at ok
  split at ok
  · rename_i existing found
    cases ok
    have same := Table.key_of_find? found
    rw [result.identified] at same
    exact ⟨reconciliationIdOf_inj same, rfl, rfl, rfl⟩
  · split at ok
    · cases ok
      exact ⟨rfl, rfl, rfl, rfl⟩
    · cases ok

theorem advanceReconciliation_ok {input : AdvanceReconciliationInput}
    {result : TaskIntegrationReconciliation}
    (ok : advanceReconciliation db input = .ok (result, db')) :
    result.reconciliationId = input.reconciliationId ∧ db'.tasks = db.tasks ∧
      db'.branches = db.branches ∧ db'.ledger = db.ledger := by
  unfold advanceReconciliation at ok
  split at ok
  · cases ok
  · rename_i existing found
    have same := Table.key_of_find? found
    split_ifs at ok
    · cases ok
      exact ⟨same, rfl, rfl, rfl⟩
    · cases ok
      exact ⟨same, rfl, rfl, rfl⟩

theorem resolveReconciliation_ok {reconciliationId : String}
    {repositories : List TaskIntegrationRepository} {resolution : ReconciliationResolution}
    {commit : Option Commit}
    (ok : resolveReconciliation db reconciliationId repositories resolution = .ok (commit, db')) :
    commit = none ∧ db' = db ∨
      ∃ entry moves, entry ∈ db.ledger.rows ∧
        reconciliationId = reconciliationIdOf entry.integrationId ∧
        commit = some ⟨entry, resolvedEntry entry repositories, moves, some passedGates⟩ ∧
        db'.ledger = db.ledger.upsert (resolvedEntry entry repositories) ∧
        resolveBranches entry.runId repositories db.branches = .ok (moves, db'.branches) ∧
        setGates db.tasks entry.runId entry.taskId passedGates = .ok db'.tasks := by
  unfold resolveReconciliation at ok
  split at ok
  · cases ok
  · rename_i existing found
    split_ifs at ok
    · cases ok
      exact Or.inl ⟨rfl, rfl⟩
    · split at ok
      · cases ok
      · rename_i entry stored
        obtain ⟨⟨moves, branches⟩, movedTo, ok⟩ := bind_eq_ok.mp ok
        split_ifs at ok
        obtain ⟨tasks, gated, ok⟩ := bind_eq_ok.mp ok
        cases ok
        have key := Table.key_of_find? found
        have sameId : entry.integrationId = existing.integrationId := Table.key_of_find? stored
        refine Or.inr ⟨entry, moves, Table.mem_of_find? stored, ?_, rfl, rfl, movedTo, gated⟩
        rw [← key, existing.identified, sameId]

def reconciliationObservations (db : IntegrationDatabase) (runId : String) :
    List ReconciliationObservation :=
  db.observations.rows.filter fun row => row.runId = runId

/-- The unique keys besides the primary key are the sequence and the repository in its pass. -/
def appendReconciliationObservation (db : IntegrationDatabase) (row : ReconciliationObservation) :
    StoreResult (Unit × IntegrationDatabase) :=
  if db.observations.rows.any fun other =>
      decide (other.reconciliationId = row.reconciliationId ∧ (other.sequence = row.sequence ∨
        other.pass = row.pass ∧ other.repository.repositoryId = row.repository.repositoryId)) then
    .error .constraint
  else
    match db.observations.insert? row with
    | some observations => .ok ((), { db with observations := observations })
    | none => .error .constraint

theorem appendReconciliationObservation_ok {row : ReconciliationObservation}
    (ok : appendReconciliationObservation db row = .ok ((), db')) :
    db'.tasks = db.tasks ∧ db'.branches = db.branches ∧ db'.ledger = db.ledger := by
  unfold appendReconciliationObservation at ok
  split_ifs at ok
  split at ok
  · cases ok
    exact ⟨rfl, rfl, rfl⟩
  · cases ok

end Heniek.IntegrationStore
