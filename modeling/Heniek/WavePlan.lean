import Heniek.DagValidation

/-!
The choice of the next wave of tasks from a snapshot of the graph, the task states and
the capacities. A task is selected when nothing blocks it; each selection takes a
worker and a run of its account from the ones after it.
-/

namespace Heniek.WavePlan
open KeyedTable ScriptText TaskGraph DagValidation

inductive TaskWaveBlockingCode where
  | graphInvalid | taskNotPending | graphRevisionPending | predecessorPending | predecessorFailed
  | predecessorCancelled | predecessorBlocked | completionContractPending
  | completionContractFailed | integrationPending | integrationReconciliationRequired
  | combinedVerificationPending | combinedVerificationFailed | writerLeaseUnavailable
  | profileUnavailable | accountCapacityUnknown | accountCapacityExhausted
  | runConcurrencyExhausted
  deriving DecidableEq

def TaskWaveBlockingCode.text : TaskWaveBlockingCode → String
  | .graphInvalid => "graph_invalid"
  | .taskNotPending => "task_not_pending"
  | .graphRevisionPending => "graph_revision_pending"
  | .predecessorPending => "predecessor_pending"
  | .predecessorFailed => "predecessor_failed"
  | .predecessorCancelled => "predecessor_cancelled"
  | .predecessorBlocked => "predecessor_blocked"
  | .completionContractPending => "completion_contract_pending"
  | .completionContractFailed => "completion_contract_failed"
  | .integrationPending => "integration_pending"
  | .integrationReconciliationRequired => "integration_reconciliation_required"
  | .combinedVerificationPending => "combined_verification_pending"
  | .combinedVerificationFailed => "combined_verification_failed"
  | .writerLeaseUnavailable => "writer_lease_unavailable"
  | .profileUnavailable => "profile_unavailable"
  | .accountCapacityUnknown => "account_capacity_unknown"
  | .accountCapacityExhausted => "account_capacity_exhausted"
  | .runConcurrencyExhausted => "run_concurrency_exhausted"

structure TaskWaveBlockingReason where
  code : TaskWaveBlockingCode
  sourceTaskId : Option String := none
  repositoryId : Option String := none
  profileId : Option String := none
  accountId : Option String := none
  deriving DecidableEq

def reasonKey (value : TaskWaveBlockingReason) : String :=
  joinNul [value.code.text, value.sourceTaskId.getD "", value.repositoryId.getD "",
    value.profileId.getD "", value.accountId.getD ""]

def canonicalReasons (values : List TaskWaveBlockingReason) : List TaskWaveBlockingReason :=
  let unique : Table reasonKey := Table.empty.upsertAll values
  sortBy reasonKey unique.rows

theorem canonicalReasons_ne_nil {reasons : List TaskWaveBlockingReason} (some : reasons ≠ []) :
    canonicalReasons reasons ≠ [] := by
  obtain ⟨reason, member⟩ := List.exists_mem_of_ne_nil reasons some
  have key : reasonKey reason ∈ (Table.empty.upsertAll reasons : Table reasonKey).keys :=
    Table.mem_keys_upsertAll.mpr (Or.inr (List.mem_map_of_mem member))
  obtain ⟨row, inRows, _⟩ := List.mem_map.mp key
  have sorted : row ∈ canonicalReasons reasons := mem_sortBy.mpr inRows
  exact List.ne_nil_of_mem sorted

/-- The recursion visits a task at most once on a path, so the fuel is the number of nodes. -/
def terminalReasons (nodes : NodeTable) (states : StateTable) :
    Nat → List String → String → List TaskWaveBlockingReason
  | 0, _, _ => []
  | fuel + 1, visiting, taskId =>
    if taskId ∈ visiting then []
    else
      canonicalReasons ((dependenciesOf nodes taskId).flatMap fun predecessorId =>
        let inherited := terminalReasons nodes states fuel (taskId :: visiting) predecessorId
        match (states.find? predecessorId).map TaskPlanningState.outcome with
        | some .failed => [{ code := .predecessorFailed, sourceTaskId := predecessorId }]
        | some .cancelled => [{ code := .predecessorCancelled, sourceTaskId := predecessorId }]
        | some .blocked =>
          if inherited = [] then
            [{ code := .predecessorBlocked, sourceTaskId := predecessorId }]
          else inherited
        | some .notStarted => inherited
        | _ => [])

def gateReasons (predecessor : TaskPlanningState) : List TaskWaveBlockingReason :=
  let source := some predecessor.taskId
  (match predecessor.completionContract with
    | .passed => []
    | .failed => [{ code := .completionContractFailed, sourceTaskId := source }]
    | .pending => [{ code := .completionContractPending, sourceTaskId := source }]) ++
  (match predecessor.integration with
    | .passed => []
    | .reconciliationRequired =>
      [{ code := .integrationReconciliationRequired, sourceTaskId := source }]
    | .pending => [{ code := .integrationPending, sourceTaskId := source }]) ++
  (match predecessor.combinedVerification with
    | .passed => []
    | .failed => [{ code := .combinedVerificationFailed, sourceTaskId := source }]
    | .pending => [{ code := .combinedVerificationPending, sourceTaskId := source }])

def dependencyReasons (nodes : NodeTable) (states : StateTable) (node : TaskDagNode) :
    List TaskWaveBlockingReason :=
  let terminal := terminalReasons nodes states (nodes.rows.length + 1) [] node.taskId
  if terminal ≠ [] then terminal
  else
    canonicalReasons ((sortTexts node.task.dependencies).flatMap fun predecessorId =>
      match states.find? predecessorId with
      | none => [{ code := .predecessorPending, sourceTaskId := predecessorId }]
      | some predecessor =>
        if predecessor.outcome = .succeeded then gateReasons predecessor
        else [{ code := .predecessorPending, sourceTaskId := predecessorId }])

structure ProfileCapacity where
  profileId : String
  available : Bool
  deriving DecidableEq

structure AccountCapacity where
  accountId : String
  activeRuns : Nat
  maxConcurrentRuns : Nat
  deriving DecidableEq

structure WriterLease where
  repositoryId : String
  available : Bool
  holderTaskId : Option String
  deriving DecidableEq

structure TaskWavePlanningSnapshot where
  dag : TaskDag
  waveOrdinal : Nat
  unresolvedGraphRevision : Bool
  tasks : List TaskPlanningState
  profiles : List ProfileCapacity
  accounts : List AccountCapacity
  writerLeases : List WriterLease
  activeWorkers : Nat
  maxConcurrentWorkers : Nat
  recordedAt : String

inductive TaskWaveClassification where
  | selected | deferred | settled | invalid
  deriving DecidableEq

structure TaskWaveDecision where
  taskId : String
  classification : TaskWaveClassification
  blockingReasons : List TaskWaveBlockingReason
  deriving DecidableEq

structure TaskWavePlan where
  graphId : String
  graphRevision : Nat
  waveOrdinal : Nat
  validation : TaskDagValidationResult
  selectedTaskIds : List String
  decisions : List TaskWaveDecision
  plannedAt : String
  deriving DecidableEq

def duplicateResourceIds (kind : String) (ids : List String) : List TaskDagDiagnostic :=
  (repeated [] ids).map fun id =>
    { code := "task-wave.duplicate-" ++ kind ++ "-observation"
      message := "Wave snapshot contains more than one " ++ kind ++ " observation for \"" ++ id ++
        "\"."
      taskIds := [] }

def resourceDiagnostics (snapshot : TaskWavePlanningSnapshot) : List TaskDagDiagnostic :=
  sortBy TaskDagDiagnostic.code
    (duplicateResourceIds "profile" (snapshot.profiles.map ProfileCapacity.profileId) ++
      duplicateResourceIds "account" (snapshot.accounts.map AccountCapacity.accountId) ++
      duplicateResourceIds "writer-lease" (snapshot.writerLeases.map WriterLease.repositoryId))

def snapshotValidation (snapshot : TaskWavePlanningSnapshot) : TaskDagValidationResult :=
  let base := validateTaskDag snapshot.dag (some snapshot.tasks)
  let resources := resourceDiagnostics snapshot
  { base with
    valid := base.valid && resources.isEmpty
    topologicalOrder := if resources = [] then base.topologicalOrder else []
    diagnostics := base.diagnostics ++ resources }

/-- What the loop over the tasks carries. -/
structure Selection where
  workerSlots : Nat
  accountRemaining : Table fun item : String × Nat => item.1
  selectedTaskIds : List String
  decisions : List TaskWaveDecision

def remainingOf (selection : Selection) (accountId : String) : Nat :=
  ((selection.accountRemaining.find? accountId).map Prod.snd).getD 0

def capacityReasons (snapshot : TaskWavePlanningSnapshot) (selection : Selection)
    (node : TaskDagNode) : List TaskWaveBlockingReason :=
  (if snapshot.profiles.reverse.find? (fun profile => profile.profileId = node.profileId) |>.any
      ProfileCapacity.available then []
    else [{ code := .profileUnavailable, profileId := node.profileId }]) ++
  ((sortTexts node.task.writeSet).filter fun repositoryId =>
    !(snapshot.writerLeases.reverse.find? fun lease =>
      lease.repositoryId = repositoryId).any WriterLease.available).map (fun repositoryId =>
        { code := .writerLeaseUnavailable, repositoryId := repositoryId }) ++
  (node.accountId.toList.flatMap fun accountId =>
    if snapshot.accounts.all fun account => decide (account.accountId ≠ accountId) then
      [{ code := .accountCapacityUnknown, accountId := accountId }]
    else if remainingOf selection accountId = 0 then
      [{ code := .accountCapacityExhausted, accountId := accountId }]
    else []) ++
  (if selection.workerSlots = 0 then [{ code := .runConcurrencyExhausted }] else [])

def blockingReasons (snapshot : TaskWavePlanningSnapshot) (selection : Selection)
    (node : TaskDagNode) : List TaskWaveBlockingReason :=
  canonicalReasons ((if snapshot.unresolvedGraphRevision then
      [{ code := .graphRevisionPending }] else []) ++
    dependencyReasons (nodeMap snapshot.dag) (stateMap snapshot.tasks) node ++
    capacityReasons snapshot selection node)

def selectTask (selection : Selection) (node : TaskDagNode) : Selection where
  workerSlots := selection.workerSlots - 1
  accountRemaining := node.accountId.toList.foldl (fun remaining accountId =>
    remaining.upsert (accountId, remainingOf selection accountId - 1)) selection.accountRemaining
  selectedTaskIds := selection.selectedTaskIds ++ [node.taskId]
  decisions := selection.decisions ++ [⟨node.taskId, .selected, []⟩]

def defer (selection : Selection) (taskId : String) (classification : TaskWaveClassification)
    (reasons : List TaskWaveBlockingReason) : Selection :=
  { selection with decisions := selection.decisions ++ [⟨taskId, classification, reasons⟩] }

def considerTask (snapshot : TaskWavePlanningSnapshot) (selection : Selection) (taskId : String) :
    Selection :=
  match (nodeMap snapshot.dag).find? taskId with
  | none => selection
  | some node =>
    if (snapshotValidation snapshot).valid = false then
      defer selection taskId .invalid [{ code := .graphInvalid }]
    else if ((stateMap snapshot.tasks).find? taskId).map TaskPlanningState.outcome ≠
        some .notStarted then
      defer selection taskId .settled [{ code := .taskNotPending, sourceTaskId := taskId }]
    else if blockingReasons snapshot selection node ≠ [] then
      defer selection taskId .deferred (blockingReasons snapshot selection node)
    else selectTask selection node

def initialSelection (snapshot : TaskWavePlanningSnapshot) : Selection where
  workerSlots := snapshot.maxConcurrentWorkers - snapshot.activeWorkers
  accountRemaining := Table.empty.upsertAll (snapshot.accounts.map fun account =>
    (account.accountId, account.maxConcurrentRuns - account.activeRuns))
  selectedTaskIds := []
  decisions := []

def planTaskWave (snapshot : TaskWavePlanningSnapshot) : TaskWavePlan :=
  let validation := snapshotValidation snapshot
  let order := if validation.valid then validation.topologicalOrder
    else sortTexts (nodeMap snapshot.dag).keys
  let selection := order.foldl (considerTask snapshot) (initialSelection snapshot)
  { graphId := snapshot.dag.graphId
    graphRevision := snapshot.dag.graphRevision
    waveOrdinal := snapshot.waveOrdinal
    validation := validation
    selectedTaskIds := selection.selectedTaskIds
    decisions := selection.decisions
    plannedAt := snapshot.recordedAt }

end Heniek.WavePlan
