import Heniek.EffectfulRun
import Heniek.IntegrationStore

/-!
The service that integrates the tasks of a run into its epic branches, one after the
other. A driver call is numbered and may answer anything or throw, and a throw that
no handler catches ends the tick with what it has already stored. The world keeps a
log of the branches created, the order of each tick, the entries refused, the
publications asked for and the commits of the ledger; the service does not read it.

An early return of an entry that no later condition matches is a fall-through here.
-/

namespace Heniek.IntegrationService
open EffectfulRun KeyedTable ScriptText IntegrationStore

structure TaskIntegrationWork where
  variantId : String
  deriving DecidableEq

inductive InventoryClassification where
  | ready | noChanges | replanningRequired | recoveryRequired
  deriving DecidableEq

inductive PrepareClassification where
  | prepared | conflict | staleSource | staleTarget | recoveryRequired
  deriving DecidableEq

structure TaskIntegrationPrepareResult where
  classification : PrepareClassification
  repositories : List TaskIntegrationRepository
  deriving DecidableEq

inductive VerificationClassification where
  | passed | failed
  deriving DecidableEq

structure TaskIntegrationVerificationResult where
  classification : VerificationClassification
  reportId : String
  deriving DecidableEq

inductive PublishClassification where
  | integrated | alreadyApplied | conflict | staleTarget | partialProgress | recoveryRequired
  deriving DecidableEq

structure TaskIntegrationPublishResult where
  classification : PublishClassification
  repositories : List TaskIntegrationRepository
  deriving DecidableEq

inductive ObservationClassification where
  | observed | missingRef | observationFailed | identityMismatch
  deriving DecidableEq

structure TaskIntegrationRepositoryObservation where
  repositoryId : String
  observedSha : Option String
  classification : ObservationClassification
  detail : Option String
  deriving DecidableEq

/-- What a driver call throws: an error with its message, or something else. -/
structure DriverFault where
  message : Option String
  deriving DecidableEq

abbrev Answer (α : Type) := Except DriverFault α

structure TaskIntegrationDriver where
  observeBranches : Nat → String → Answer (List EpicBranchObservation)
  resolve : Nat → TaskDispatchRecord → Answer (Option TaskIntegrationWork)
  inventory : Nat → TaskIntegrationWork → Answer InventoryClassification
  prepare : Nat → TaskIntegrationWork → Answer TaskIntegrationPrepareResult
  verify : Nat → TaskIntegrationWork → List TaskIntegrationRepository →
    Answer TaskIntegrationVerificationResult
  observe : Nat → TaskIntegrationWork → List TaskIntegrationRepository →
    Answer (List TaskIntegrationRepositoryObservation)
  publish : Nat → TaskIntegrationWork → List TaskIntegrationRepository →
    Answer TaskIntegrationPublishResult

inductive Event where
  | initialized (branch : EpicRepositoryBranch)
  | ordered (dispatches : List TaskDispatchRecord)
  | refused (input : QueueTaskIntegrationInput) (error : IntegrationStoreError)
  | published (integrationId : String) (repositories : List TaskIntegrationRepository)
      (ledger : List TaskIntegrationLedgerEntry)
  | committed (commit : Commit)
  deriving DecidableEq

def Event.commit : Event → Option Commit
  | .committed commit => some commit
  | _ => none

def commits (log : List Event) : List Commit := log.filterMap Event.commit

structure World where
  db : IntegrationDatabase
  calls : Nat
  log : List Event

inductive Abort where
  | driver (fault : DriverFault)
  | store (error : IntegrationStoreError)
  deriving DecidableEq

abbrev Program (α : Type) := Effect Abort World α

def call {α : Type} (ask : Nat → Answer α) : Program α := fun w =>
  ((ask w.calls).mapError .driver, { w with calls := w.calls + 1 })

/-- One transaction of the store, with the events it logs. -/
def stored {α : Type} (operation : IntegrationDatabase → StoreResult (α × IntegrationDatabase))
    (events : α → List Event := fun _ => []) : Program α :=
  Effect.transact fun w =>
    match operation w.db with
    | .error error => .error (.store error)
    | .ok (a, db) => .ok (a, { w with db := db, log := w.log ++ events a })

def publish (driver : TaskIntegrationDriver) (work : TaskIntegrationWork)
    (entry : TaskIntegrationLedgerEntry) (repositories : List TaskIntegrationRepository) :
    Program TaskIntegrationPublishResult := do
  Effect.modify fun w =>
    { w with log := w.log ++ [.published entry.integrationId repositories w.db.ledger.rows] }
  call fun n => driver.publish n work repositories

def transitionEntry (input : TaskIntegrationTransitionInput) :
    Program TaskIntegrationLedgerEntry := do
  let outcome ← stored (fun db => transition db input) fun outcome =>
    outcome.2.toList.map Event.committed
  pure outcome.1

def reconcileTransition (entry : TaskIntegrationLedgerEntry) (expectedLifecycle : EntryLifecycle)
    (repositories : List TaskIntegrationRepository) : TaskIntegrationTransitionInput where
  integrationId := entry.integrationId
  expectedLifecycle := expectedLifecycle
  lifecycle := .reconciliationRequired
  repositories := some repositories
  gates := some ⟨.passed, .reconciliationRequired, entry.verification⟩

def reconcile (entry : TaskIntegrationLedgerEntry) (expectedLifecycle : EntryLifecycle)
    (repositories : List TaskIntegrationRepository)
    (trigger : ReconciliationTrigger := .recoveryRequired) :
    Program TaskIntegrationLedgerEntry := do
  let reconciled ← transitionEntry (reconcileTransition entry expectedLifecycle repositories)
  let _ ← stored fun db => startReconciliation db reconciled trigger
  pure reconciled

def faultDetail : Abort → String
  | .driver ⟨some message⟩ => String.ofList (withinUnits 1024 message.toList)
  | _ => "repository observation failed"

def observeRepositories (driver : TaskIntegrationDriver) (work : TaskIntegrationWork)
    (repositories : List TaskIntegrationRepository) :
    Program (List TaskIntegrationRepositoryObservation) := do
  match ← Effect.attempt (call fun n => driver.observe n work repositories) with
  | .ok observed => pure observed
  | .error abort =>
    pure (repositories.map fun repository =>
      ⟨repository.repositoryId, none, .observationFailed, some (faultDetail abort)⟩)

def classifyRepository (repository : TaskIntegrationRepository)
    (observation : Option TaskIntegrationRepositoryObservation) :
    ReconciliationClassification × ReconciliationAction × Option String :=
  let detail := observation.bind fun found => found.detail
  match repository.candidateSha with
  | none => (.missingCandidate, .block, some (detail.getD "prepared candidate SHA is missing"))
  | some candidate =>
    match observation with
    | none => (.missingRef, .block, some (detail.getD "repository ref observation is missing"))
    | some found =>
      match found.classification with
      | .missingRef =>
        (.missingRef, .block, some (detail.getD "repository ref observation is missing"))
      | .observationFailed => (.observationFailed, .block, detail)
      | .identityMismatch => (.identityMismatch, .block, detail)
      | .observed =>
        if found.observedSha = some candidate then (.applied, .adopt, detail)
        else if found.observedSha = some repository.expectedTargetSha then
          (.pending, .publish, detail)
        else
          (.externalMutation, .block, some (detail.getD
            "observed SHA matches neither the expected target nor prepared candidate"))

def projectRepository (repository : TaskIntegrationRepository)
    (observation : Option TaskIntegrationRepositoryObservation) : ReconciliationRepository where
  repositoryId := repository.repositoryId
  expectedSha := repository.expectedTargetSha
  candidateSha := repository.candidateSha
  observedSha := observation.bind fun found => found.observedSha
  classification := (classifyRepository repository observation).1
  action := (classifyRepository repository observation).2.1
  detail := (classifyRepository repository observation).2.2

def byRepository (observed : List TaskIntegrationRepositoryObservation) :
    Table TaskIntegrationRepositoryObservation.repositoryId :=
  Table.empty.upsertAll observed

def recordObservation (reconciliation : TaskIntegrationReconciliation)
    (entry : TaskIntegrationLedgerEntry) (pass sequence : Nat)
    (repository : ReconciliationRepository) :
    Program ReconciliationRepository := do
  let _ ← stored fun db => appendReconciliationObservation db
    { observationId := reconciliation.reconciliationId ++ ":observation:" ++ toString sequence
      reconciliationId := reconciliation.reconciliationId
      integrationId := entry.integrationId
      runId := entry.runId
      taskId := entry.taskId
      pass := pass
      sequence := sequence
      repository := repository }
  pure repository

def blockerOf : ReconciliationClassification → ReconciliationBlocker
  | .externalMutation => .externalMutation
  | .observationFailed | .missingRef => .observationFailed
  | .identityMismatch => .identityMismatch
  | _ => .missingEvidence

def blockReconciliation (reconciliation : TaskIntegrationReconciliation)
    (expectedLifecycle : ReconciliationLifecycle) (repositories : List ReconciliationRepository)
    (blocker : ReconciliationBlocker) : Program Unit := do
  let _ ← stored fun db => advanceReconciliation db
    { reconciliationId := reconciliation.reconciliationId
      expectedLifecycle := expectedLifecycle
      lifecycle := .blocked
      repositories := some repositories
      resolution := some .blocked
      blocker := some blocker }
  pure ()

def resolutionOf (previousActions : List ReconciliationAction) : ReconciliationResolution :=
  if ReconciliationAction.publish ∈ previousActions then
    if ReconciliationAction.adopt ∈ previousActions then .mixedForwardAndAdopt
    else .forwardPublished
  else .adoptedPublished

def resolvedRepositories (repositories : List TaskIntegrationRepository) :
    List TaskIntegrationRepository :=
  repositories.map fun repository =>
    { repository with
      resultSha := repository.candidateSha
      classification := some
        (if repository.resultSha = repository.candidateSha then "integrated"
        else "already_applied") }

/-- The end of a pass that found every repository pending or applied. -/
def settleReconciliation (driver : TaskIntegrationDriver) (work : TaskIntegrationWork)
    (entry : TaskIntegrationLedgerEntry) (reconciliation : TaskIntegrationReconciliation)
    (previousActions : List ReconciliationAction) (repositories : List ReconciliationRepository)
    (again : Option (Program Unit)) : Program Unit :=
  let pending := repositories.filter fun repository => repository.action = .publish
  if pending ≠ [] then
    match again with
    | none => blockReconciliation reconciliation .observing repositories .ambiguousState
    | some again => do
        let _ ← stored fun db => advanceReconciliation db
          { reconciliationId := reconciliation.reconciliationId
            expectedLifecycle := .observing
            lifecycle := .forwarding
            repositories := some repositories }
        let selected := entry.repositories.filter fun repository =>
          pending.any fun candidate => candidate.repositoryId = repository.repositoryId
        match ← Effect.attempt (publish driver work entry selected) with
        | .error _ => pure ()
        | .ok _ => again
  else do
    let _ ← stored (fun db => resolveReconciliation db reconciliation.reconciliationId
        (resolvedRepositories entry.repositories) (resolutionOf previousActions))
      fun commit => commit.toList.map Event.committed
    pure ()

section Collated

variable [Collation]

def observePass (driver : TaskIntegrationDriver) (work : TaskIntegrationWork)
    (entry : TaskIntegrationLedgerEntry) (reconciliation : TaskIntegrationReconciliation)
    (pass : Nat) : Program (List ReconciliationRepository) := do
  let observed ← observeRepositories driver work entry.repositories
  let existingCount ← Effect.read fun w =>
    ((reconciliationObservations w.db entry.runId).filter fun row =>
      row.reconciliationId = reconciliation.reconciliationId).length
  let sorted := localeSort TaskIntegrationRepository.repositoryId entry.repositories
  Effect.mapEach
    (fun item => recordObservation reconciliation entry pass (existingCount + item.2 + 1)
      (projectRepository item.1 ((byRepository observed).find? item.1.repositoryId)))
    sorted.zipIdx

def reconcilePass (driver : TaskIntegrationDriver) (entry : TaskIntegrationLedgerEntry)
    (dispatch : TaskDispatchRecord) (again : Option (Program Unit)) : Program Unit := do
  let work ← call fun n => driver.resolve n dispatch
  let started ← stored fun db => startReconciliation db entry
    (if entry.repositories.any fun repository => repository.resultSha.isSome then .partialPublish
    else .recoveryRequired)
  if terminalReconciliation started.lifecycle then pure ()
  else
    match work with
    | none => blockReconciliation started started.lifecycle [] .missingEvidence
    | some work =>
      if work.variantId ≠ entry.variantId ∨ entry.repositories = [] then
        blockReconciliation started started.lifecycle [] .missingEvidence
      else do
        let reconciliation ← stored fun db => advanceReconciliation db
          { reconciliationId := started.reconciliationId
            expectedLifecycle := started.lifecycle
            lifecycle := .observing
            pass := some (started.pass + 1) }
        let repositories ← observePass driver work entry reconciliation (started.pass + 1)
        match repositories.find? fun repository => repository.action = .block with
        | some blocked =>
          blockReconciliation reconciliation .observing repositories
            (blockerOf blocked.classification)
        | none =>
          settleReconciliation driver work entry reconciliation
            (started.repositories.map ReconciliationRepository.action) repositories again

def reconcileEntry (driver : TaskIntegrationDriver) (entry : TaskIntegrationLedgerEntry)
    (dispatch : TaskDispatchRecord) : Program Unit :=
  reconcilePass driver entry dispatch (some (reconcilePass driver entry dispatch none))

end Collated

def passedTransition (integrationId : String)
    (repositories : Option (List TaskIntegrationRepository)) : TaskIntegrationTransitionInput where
  integrationId := integrationId
  expectedLifecycle := .verified
  lifecycle := .integrated
  repositories := repositories
  gates := some passedGates

def preparedTransition (integrationId : String) (repositories : List TaskIntegrationRepository) :
    TaskIntegrationTransitionInput where
  integrationId := integrationId
  expectedLifecycle := .queued
  lifecycle := .prepared
  repositories := some repositories
  gates := some ⟨.passed, .pending, .pending⟩

def verificationTransition (integrationId : String)
    (verification : TaskIntegrationVerificationResult) : TaskIntegrationTransitionInput :=
  match verification.classification with
  | .failed =>
    { integrationId := integrationId
      expectedLifecycle := .prepared
      lifecycle := .failed
      verificationReportId := some (some verification.reportId)
      verification := some .failed
      gates := some ⟨.passed, .pending, .failed⟩ }
  | .passed =>
    { integrationId := integrationId
      expectedLifecycle := .prepared
      lifecycle := .verified
      verificationReportId := some (some verification.reportId)
      verification := some .passed }

def prepareWork (driver : TaskIntegrationDriver) (work : TaskIntegrationWork)
    (inventory : InventoryClassification) : Program TaskIntegrationPrepareResult :=
  if inventory = .noChanges then pure ⟨.prepared, []⟩
  else call fun n => driver.prepare n work

/-- The part of `process` for a queued entry. -/
def prepareEntry (driver : TaskIntegrationDriver) (work : TaskIntegrationWork)
    (entry : TaskIntegrationLedgerEntry) : Program TaskIntegrationLedgerEntry :=
  if entry.lifecycle ≠ .queued then pure entry
  else do
    let inventory ← call fun n => driver.inventory n work
    if inventory = .replanningRequired ∨ inventory = .recoveryRequired then
      reconcile entry .queued entry.repositories
    else do
      let prepared ← prepareWork driver work inventory
      if prepared.classification ≠ .prepared then
        reconcile entry .queued prepared.repositories
      else transitionEntry (preparedTransition entry.integrationId prepared.repositories)

/-- The part of `process` for a prepared entry. -/
def verifyEntry (driver : TaskIntegrationDriver) (work : TaskIntegrationWork)
    (entry : TaskIntegrationLedgerEntry) : Program TaskIntegrationLedgerEntry :=
  if entry.lifecycle ≠ .prepared then pure entry
  else do
    let verification ← call fun n => driver.verify n work entry.repositories
    transitionEntry (verificationTransition entry.integrationId verification)

def publishEntry (driver : TaskIntegrationDriver) (work : TaskIntegrationWork)
    (entry : TaskIntegrationLedgerEntry) : Program TaskIntegrationLedgerEntry :=
  if entry.lifecycle ≠ .verified then pure entry
  else if entry.repositories = [] then
    transitionEntry (passedTransition entry.integrationId none)
  else do
    match ← Effect.attempt (publish driver work entry entry.repositories) with
    | .error _ => reconcile entry .verified entry.repositories .interruptedPublish
    | .ok publication =>
      if publication.classification = .integrated ∨
          publication.classification = .alreadyApplied then
        transitionEntry (passedTransition entry.integrationId (some publication.repositories))
      else
        reconcile entry .verified publication.repositories
          (if publication.classification = .partialProgress then .partialPublish
          else .recoveryRequired)

def process (driver : TaskIntegrationDriver) (entry : TaskIntegrationLedgerEntry)
    (dispatch : TaskDispatchRecord) : Program TaskIntegrationLedgerEntry := do
  let work ← call fun n => driver.resolve n dispatch
  match work with
  | none => reconcile entry entry.lifecycle entry.repositories
  | some work =>
    if work.variantId ≠ entry.variantId then
      reconcile entry entry.lifecycle entry.repositories
    else do
      let entry ← prepareEntry driver work entry
      let entry ← verifyEntry driver work entry
      publishEntry driver work entry

/-- What a tick reads of its input: of the DAG only the task ids of the nodes. -/
structure TaskIntegrationTickInput where
  runId : String
  dag : List String
  tasks : List TaskLifecycleProjection
  dispatches : List TaskDispatchRecord
  deriving DecidableEq

/-- A number of the integration order, where the number a missing task gets is the largest. -/
def rankLe : Option Nat → Option Nat → Bool
  | _, none => true
  | none, some _ => false
  | some left, some right => decide (left ≤ right)

def initializeObserved (observation : EpicBranchObservation) : Program EpicRepositoryBranch :=
  fun w =>
    let (branch, db) := initializeBranch w.db observation
    (.ok branch, { w with
      db := db
      log := w.log ++
        if (observation.runId, observation.repositoryId) ∈ w.db.branches.keys then []
        else [.initialized branch] })

def queueInput (dispatch : TaskDispatchRecord) (integrationOrdinal : Nat) :
    QueueTaskIntegrationInput where
  integrationId :=
    "task-integration:" ++ dispatch.runId ++ ":" ++ toString dispatch.graphRevision ++
    ":" ++ dispatch.taskId
  runId := dispatch.runId
  taskId := dispatch.taskId
  graphRevision := dispatch.graphRevision
  waveOrdinal := dispatch.waveOrdinal
  integrationOrdinal := integrationOrdinal
  variantId := "task-variant:" ++ dispatch.runId ++ ":" ++ toString dispatch.graphRevision ++
    ":" ++ dispatch.taskId

def enqueueDispatch (item : TaskDispatchRecord × Nat) : Program Unit := fun w =>
  match enqueue w.db (queueInput item.1 (item.2 + 1)) with
  | .ok (_, db) => (.ok (), { w with db := db })
  | .error error =>
    (.error (.store error),
      { w with log := w.log ++ [.refused (queueInput item.1 (item.2 + 1)) error] })

/-- `terminal` of the service. -/
def terminal (lifecycle : EntryLifecycle) : Bool :=
  decide (lifecycle = .integrated ∨ lifecycle = .failed ∨ lifecycle = .reconciliationRequired)

def taskOf (input : TaskIntegrationTickInput) (taskId : String) : Option TaskLifecycleProjection :=
  input.tasks.find? fun task => task.taskId = taskId

def reconcileDrift (input : TaskIntegrationTickInput) (observed : List EpicRepositoryBranch) :
    Program Unit :=
  if observed.any fun branch => branch.lifecycle = .reconciliationRequired then do
    let listed ← Effect.read fun w => entries w.db input.runId
    let first := listed.find? fun entry => !terminal entry.lifecycle &&
      (taskOf input entry.taskId).any fun task => task.phase = .succeeded
    match first with
    | none => pure ()
    | some first =>
      if listed.any fun entry => entry.lifecycle = .reconciliationRequired then pure ()
      else do
        let _ ← reconcile first first.lifecycle first.repositories .branchDrift
        pure ()
  else pure ()

def failedTransition (entry : TaskIntegrationLedgerEntry) : TaskIntegrationTransitionInput where
  integrationId := entry.integrationId
  expectedLifecycle := entry.lifecycle
  lifecycle := .failed

section Collated

variable [Collation]

/-- The index of each task of the DAG in the order of its ids. -/
def taskOrder (dag : List String) : Table fun item : String × Nat => item.1 :=
  Table.empty.upsertAll (localeSort id dag).zipIdx

def integrationRank (dag : List String) (taskId : String) : Option Nat :=
  ((taskOrder dag).find? taskId).map Prod.snd

def dispatchLe (dag : List String) (left right : TaskDispatchRecord) : Bool :=
  decide (left.waveOrdinal < right.waveOrdinal) ||
    decide (left.waveOrdinal = right.waveOrdinal) &&
      rankLe (integrationRank dag left.taskId) (integrationRank dag right.taskId)

def integrationOrder (dag : List String) (dispatches : List TaskDispatchRecord) :
    List TaskDispatchRecord :=
  dispatches.insertionSort fun left right => dispatchLe dag left right = true

/-- The loop over the entries of the run. -/
def integrateEntries (driver : TaskIntegrationDriver) (input : TaskIntegrationTickInput)
    (dispatches : List TaskDispatchRecord) : List TaskIntegrationLedgerEntry → Program Unit
  | [] => pure ()
  | entry :: rest =>
    let dispatched := dispatches.find? fun dispatch => dispatch.taskId = entry.taskId
    if entry.lifecycle = .reconciliationRequired then
      match dispatched with
      | none => pure ()
      | some dispatch => reconcileEntry driver entry dispatch
    else if terminal entry.lifecycle then integrateEntries driver input dispatches rest
    else
      match taskOf input entry.taskId with
      | none => pure ()
      | some task =>
        match task.phase with
        | .failed | .cancelled | .blocked => do
            let _ ← transitionEntry (failedTransition entry)
            integrateEntries driver input dispatches rest
        | .succeeded =>
          match dispatched with
          | none => pure ()
          | some dispatch => do
              let result ← process driver entry dispatch
              if result.lifecycle = .integrated then
                integrateEntries driver input dispatches rest
              else pure ()
        | _ => pure ()

def tick (driver : TaskIntegrationDriver) (input : TaskIntegrationTickInput) : Program Unit := do
  let branches ← call fun n => driver.observeBranches n input.runId
  let observed ← Effect.mapEach initializeObserved branches
  let dispatches := integrationOrder input.dag input.dispatches
  Effect.modify fun w => { w with log := w.log ++ [.ordered dispatches] }
  Effect.forEach enqueueDispatch dispatches.zipIdx
  reconcileDrift input observed
  let listed ← Effect.read fun w => entries w.db input.runId
  integrateEntries driver input dispatches listed

/-- A tick of the service, or a change of the task rows by the rest of the daemon. -/
inductive Act where
  | tick (input : TaskIntegrationTickInput)
  | tasks (rows : TaskTable)

def perform (driver : TaskIntegrationDriver) (w : World) : Act → World
  | .tick input => (tick driver input w).2
  | .tasks rows => { w with db := { w.db with tasks := rows } }

def start : World := ⟨emptyIntegrations, 0, []⟩

def runFrom (driver : TaskIntegrationDriver) (w : World) (acts : List Act) : World :=
  acts.foldl (perform driver) w

end Collated

end Heniek.IntegrationService
