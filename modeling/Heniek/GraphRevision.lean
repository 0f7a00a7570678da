import Heniek.DagValidation

/-!
The validation of a proposed revision of the task graph against the recorded one. A
proposal is put in canonical form first; it is accepted when no check finds anything,
and the record that follows is then built from it.
-/

namespace Heniek.GraphRevision
open KeyedTable ScriptText RecoveryPolicy TaskGraph DagValidation

def canonicalNode (node : TaskDagNode) : TaskDagNode :=
  { node with
    task := { node.task with
      readSet := sortTexts node.task.readSet
      writeSet := sortTexts node.task.writeSet
      dependencies := sortTexts node.task.dependencies
      excludedRepositories := sortBy ExcludedRepository.json node.task.excludedRepositories
      artifacts := sortBy TaskArtifactRequirement.json node.task.artifacts
      verification := sortBy TaskVerificationCheck.json node.task.verification } }

def nodeKey (node : TaskDagNode) : List String := [node.taskId, "\x00", node.json]

def canonicalDag (dag : TaskDag) : TaskDag :=
  { dag with nodes := sortByPieces nodeKey (dag.nodes.map canonicalNode) }

def canonicalChange (change : TaskGraphChange) : TaskGraphChange :=
  { change with
    beforeTaskIds := sortTexts change.beforeTaskIds
    afterTaskIds := sortTexts change.afterTaskIds
    evidenceArtifactIds := sortTexts change.evidenceArtifactIds }

def mappingKey (mapping : TaskRequirementMapping) : String :=
  mapping.sourceWorkItemId ++ "\x00" ++ mapping.requirementId

def canonicalMapping (mapping : TaskRequirementMapping) : TaskRequirementMapping :=
  { mapping with
    beforeTaskIds := sortTexts mapping.beforeTaskIds
    afterTaskIds := sortTexts mapping.afterTaskIds }

def canonicalMappings (mappings : List TaskRequirementMapping) : List TaskRequirementMapping :=
  sortBy (fun mapping => mappingKey mapping ++ "\x00" ++ mapping.json)
    (mappings.map canonicalMapping)

def canonicalProposal (proposal : TaskGraphRevisionProposal) : TaskGraphRevisionProposal :=
  { proposal with
    proposedDag := canonicalDag proposal.proposedDag
    changes := sortBy TaskGraphChange.json (proposal.changes.map canonicalChange)
    requirementMappings := canonicalMappings proposal.requirementMappings
    evidenceArtifactIds := sortTexts proposal.evidenceArtifactIds }

structure TaskStructuralWave where
  ordinal : Nat
  taskIds : List String
  deriving DecidableEq

abbrev OrdinalTable := Table fun item : String × Nat => item.1

def ordinalOf (ordinals : OrdinalTable) (taskId : String) : Option Nat :=
  (ordinals.find? taskId).map Prod.snd

def taskOrdinals (order : List String) (nodes : NodeTable) : OrdinalTable :=
  order.foldl (fun ordinals taskId =>
    ordinals.upsert (taskId, (dependenciesOf nodes taskId).foldl (fun maximum predecessor =>
      max maximum ((ordinalOf ordinals predecessor).getD 0)) 0 + 1)) Table.empty

def computeWaves (dag : TaskDag) : List TaskStructuralWave :=
  let validation := validateTaskDag dag none
  if validation.valid then
    let ordinals := taskOrdinals validation.topologicalOrder (nodeMap dag)
    ((ordinals.rows.map Prod.snd).dedup.insertionSort fun left right => left ≤ right).map
      fun wave => ⟨wave, sortTexts ((ordinals.rows.filter fun item => item.2 = wave).map Prod.fst)⟩
  else []

def waveMembership (waves : List TaskStructuralWave) : OrdinalTable :=
  Table.empty.upsertAll (waves.flatMap fun wave => wave.taskIds.map fun taskId =>
    (taskId, wave.ordinal))

def shapeValid (change : TaskGraphChange) : Bool :=
  let first := change.beforeTaskIds.length
  let last := change.afterTaskIds.length
  match change.kind with
  | .add => decide (first = 0 ∧ last = 1)
  | .split => decide (first = 1 ∧ 2 ≤ last)
  | .merge => decide (2 ≤ first ∧ last = 1)
  | .reorder => decide (first = 1 ∧ last = 1 ∧ change.beforeTaskIds = change.afterTaskIds)
  | .supersede => decide (first = 1 ∧ last ≤ 1)

def operationShapeDiagnostic (change : TaskGraphChange) : List TaskDagDiagnostic :=
  if shapeValid change then []
  else
    [diagnostic "task-graph-revision.invalid-change-shape"
      ("Change kind \"" ++ change.kind.text ++ "\" has invalid before/after cardinality.")
      (change.beforeTaskIds ++ change.afterTaskIds)]

def changedTaskIds (beforeDag afterDag : TaskDag) : List String :=
  let left := nodeMap beforeDag
  let right := nodeMap afterDag
  sortTexts ((left.keys ++ right.keys).dedup.filter fun taskId =>
    decide ((left.find? taskId).map TaskDagNode.json ≠ (right.find? taskId).map TaskDagNode.json))

def reorderValid (beforeNodes afterNodes : NodeTable) (taskId : String) : Bool :=
  match beforeNodes.find? taskId, afterNodes.find? taskId with
  | some first, some last =>
    decide (first.task.dependencies ≠ last.task.dependencies ∧
      first.reorderContent = last.reorderContent)
  | _, _ => false

def semanticsValid (beforeNodes afterNodes : NodeTable) (change : TaskGraphChange) : Bool :=
  let exist := decide ((∀ taskId ∈ change.beforeTaskIds, taskId ∈ beforeNodes.keys) ∧
    ∀ taskId ∈ change.afterTaskIds, taskId ∈ afterNodes.keys)
  let removed := decide (∀ taskId ∈ change.beforeTaskIds, taskId ∉ afterNodes.keys)
  let fresh := decide (∀ taskId ∈ change.afterTaskIds, taskId ∉ beforeNodes.keys)
  match change.kind with
  | .add => exist && fresh
  | .split | .merge => exist && (removed && fresh)
  | .supersede =>
    let beforeTaskId := change.beforeTaskIds.head?.getD ""
    exist && match change.afterTaskIds.head? with
      | none => decide (beforeTaskId ∉ afterNodes.keys)
      | some afterTaskId => decide (afterTaskId = beforeTaskId) || (removed && fresh)
  | .reorder => exist && reorderValid beforeNodes afterNodes (change.beforeTaskIds.head?.getD "")

def operationSemanticDiagnostics (beforeNodes afterNodes : NodeTable) (change : TaskGraphChange) :
    List TaskDagDiagnostic :=
  if shapeValid change ∧ semanticsValid beforeNodes afterNodes change = false then
    [diagnostic "task-graph-revision.invalid-change-semantics"
      ("Change kind \"" ++ change.kind.text ++ "\" does not match the derived graph mutation.")
      (change.beforeTaskIds ++ change.afterTaskIds)]
  else []

structure TaskGraphRevisionValidationContext where
  current : TaskGraphRevisionRecord
  taskStates : List TaskPlanningState
  hiddenDependencyFinding : Option HiddenDependencyFinding
  maxGraphRevisions : Nat
  decisionId : String
  decidedAt : String

def supersedeOf (changes : List TaskGraphChange) (taskId : String) : Option TaskGraphChange :=
  changes.find? fun change =>
    decide (change.kind = .supersede ∧ change.beforeTaskIds = [taskId] ∧
      change.afterTaskIds.length = 1)

def citesFinding (proposal : TaskGraphRevisionProposal) (trigger : HiddenDependencyRevisionTrigger)
    (finding : HiddenDependencyFinding) : Bool :=
  decide (finding.findingId = trigger.findingId ∧ finding.runId = proposal.runId ∧
    finding.graphId = proposal.graphId ∧
    finding.graphRevision = proposal.expectedGraphRevision ∧
    finding.revisionSha256 = proposal.expectedRevisionSha256)

def coversFinding (proposal : TaskGraphRevisionProposal)
    (trigger : HiddenDependencyRevisionTrigger) (finding : HiddenDependencyFinding) : Bool :=
  decide (trigger.interruptedTaskIds.length = finding.affectedTaskIds.length ∧
    (∀ taskId ∈ trigger.interruptedTaskIds, taskId ∈ finding.affectedTaskIds) ∧
    ∀ artifactId ∈ finding.evidenceArtifactIds, artifactId ∈ proposal.evidenceArtifactIds)

def evidenceDiagnostics (proposal : TaskGraphRevisionProposal)
    (trigger : HiddenDependencyRevisionTrigger) (finding : Option HiddenDependencyFinding) :
    List TaskDagDiagnostic :=
  match finding.filter (citesFinding proposal trigger) with
  | none =>
    [diagnostic "task-graph-revision.hidden-dependency-evidence-mismatch"
      "Hidden-dependency revision does not cite matching immutable finding evidence."
      trigger.interruptedTaskIds]
  | some finding =>
    if coversFinding proposal trigger finding then []
    else
      [diagnostic "task-graph-revision.hidden-dependency-evidence-incomplete"
        "Hidden-dependency revision omits affected tasks or evidence from its finding."
        trigger.interruptedTaskIds]

def outcomeOf (states : StateTable) (taskId : String) : Option TaskPlanningOutcome :=
  (states.find? taskId).map TaskPlanningState.outcome

def quiescedDiagnostics (proposal : TaskGraphRevisionProposal) (beforeNodes : NodeTable)
    (states : StateTable) (trigger : HiddenDependencyRevisionTrigger) : List TaskDagDiagnostic :=
  (trigger.interruptedTaskIds.filter fun taskId =>
    decide (taskId ∉ beforeNodes.keys ∨ taskId ∈ (nodeMap proposal.proposedDag).keys ∨
      outcomeOf states taskId ≠ some .cancelled ∨
      supersedeOf proposal.changes taskId = none)).map fun taskId =>
    diagnostic "task-graph-revision.hidden-dependency-task-not-quiesced"
      ("Interrupted task \"" ++ taskId ++ "\" must be cancelled and explicitly superseded.")
      [taskId]

def supersedeAuthorized (states : StateTable) (trigger : HiddenDependencyRevisionTrigger)
    (finding : Option HiddenDependencyFinding) (change : TaskGraphChange) : Bool :=
  match change.beforeTaskIds, finding with
  | [taskId], some finding =>
    decide (change.afterTaskIds.length = 1 ∧ taskId ∈ trigger.interruptedTaskIds ∧
      taskId ∈ finding.affectedTaskIds ∧ outcomeOf states taskId = some .cancelled ∧
      ∀ artifactId ∈ finding.evidenceArtifactIds, artifactId ∈ change.evidenceArtifactIds)
  | _, _ => false

def supersedeDiagnostics (proposal : TaskGraphRevisionProposal) (states : StateTable)
    (trigger : HiddenDependencyRevisionTrigger) (finding : Option HiddenDependencyFinding) :
    List TaskDagDiagnostic :=
  (proposal.changes.filter fun change =>
    decide (change.kind = .supersede) &&
      !supersedeAuthorized states trigger finding change).map fun change =>
    diagnostic "task-graph-revision.hidden-dependency-supersede-unauthorized"
      "V2 supersede operations may replace only cancelled tasks linked to the finding."
      change.beforeTaskIds

def hiddenDependencyDiagnostics (context : TaskGraphRevisionValidationContext)
    (proposal : TaskGraphRevisionProposal) (beforeNodes : NodeTable) (states : StateTable) :
    List TaskDagDiagnostic :=
  proposal.trigger.toList.flatMap fun trigger =>
    evidenceDiagnostics proposal trigger context.hiddenDependencyFinding ++
      quiescedDiagnostics proposal beforeNodes states trigger ++
      supersedeDiagnostics proposal states trigger context.hiddenDependencyFinding

def baselineDiagnostics (context : TaskGraphRevisionValidationContext)
    (proposal : TaskGraphRevisionProposal) (beforeDag : TaskDag) : List TaskDagDiagnostic :=
  let current := context.current
  let afterDag := proposal.proposedDag
  (if proposal.runId = current.runId then []
    else [diagnostic "task-graph-revision.wrong-run"
      "Proposal run does not match the canonical graph."]) ++
  (if proposal.graphId = current.graphId ∧ afterDag.graphId = current.graphId then []
    else [diagnostic "task-graph-revision.wrong-graph"
      "Proposal graph identity does not match the canonical graph."]) ++
  (if proposal.expectedGraphRevision = current.graphRevision ∧
      proposal.expectedRevisionSha256 = current.revisionSha256 then []
    else [diagnostic "task-graph-revision.stale"
      "Proposal does not cite the active graph revision and hash."]) ++
  (if afterDag.graphRevision = current.graphRevision + 1 then []
    else [diagnostic "task-graph-revision.non-sequential"
      "Proposed graph revision must advance by exactly one."]) ++
  (if afterDag.graphRevision ≤ context.maxGraphRevisions then []
    else [diagnostic "task-graph-revision.limit-exceeded"
      "Proposed graph exceeds max_graph_revisions."]) ++
  (if (validateTaskDag beforeDag (some context.taskStates)).valid then []
    else [diagnostic "task-graph-revision.invalid-baseline"
      "Canonical graph or task-state snapshot is invalid."])

def freshState (taskId : String) : TaskPlanningState :=
  ⟨taskId, .notStarted, .pending, .pending, .pending⟩

def proposedStates (afterDag : TaskDag) (states : StateTable) : List TaskPlanningState :=
  afterDag.nodes.map fun node => (states.find? node.taskId).getD (freshState node.taskId)

def authorizedInterruptedRemoval (proposal : TaskGraphRevisionProposal)
    (finding : Option HiddenDependencyFinding) (afterNodes : NodeTable)
    (state : TaskPlanningState) (taskId : String) : Bool :=
  match proposal.trigger, finding, supersedeOf proposal.changes taskId with
  | some trigger, some finding, some supersede =>
    decide (taskId ∉ afterNodes.keys ∧ state.outcome = .cancelled ∧
      taskId ∈ trigger.interruptedTaskIds ∧ taskId ∈ finding.affectedTaskIds ∧
      ∀ artifactId ∈ finding.evidenceArtifactIds, artifactId ∈ supersede.evidenceArtifactIds)
  | _, _, _ => false

def startedTaskDiagnostics (proposal : TaskGraphRevisionProposal)
    (finding : Option HiddenDependencyFinding) (beforeNodes afterNodes : NodeTable)
    (states : StateTable) : List TaskDagDiagnostic :=
  beforeNodes.rows.flatMap fun node =>
    match states.find? node.taskId with
    | none => []
    | some state =>
      if state.outcome ≠ .notStarted ∧
          some node.json ≠ (afterNodes.find? node.taskId).map TaskDagNode.json ∧
          authorizedInterruptedRemoval proposal finding afterNodes state node.taskId = false then
        [diagnostic "task-graph-revision.started-task"
          ("Started or settled task \"" ++ node.taskId ++ "\" is immutable.") [node.taskId]]
      else []

def revisionChainDiagnostics (beforeNodes afterNodes : NodeTable) : List TaskDagDiagnostic :=
  afterNodes.rows.flatMap fun node =>
    match beforeNodes.find? node.taskId with
    | none =>
      if node.task.revision = 1 ∧ node.task.predecessorRevisionSha256 = none then []
      else
        [diagnostic "task-graph-revision.invalid-new-task-revision"
          ("New task \"" ++ node.taskId ++ "\" must start at revision 1.") [node.taskId]]
    | some predecessor =>
      if predecessor.json = node.json ∨
          node.task.revision = predecessor.task.revision + 1 ∧
            node.task.predecessorRevisionSha256 = some predecessor.task.revisionSha256 then []
      else
        [diagnostic "task-graph-revision.invalid-task-revision-chain"
          ("Task \"" ++ node.taskId ++ "\" does not continue its exact revision chain.")
          [node.taskId]]

def namedTasks (change : TaskGraphChange) : List String :=
  (change.beforeTaskIds ++ change.afterTaskIds).dedup

def changeDiagnostics (proposal : TaskGraphRevisionProposal) (beforeNodes afterNodes : NodeTable)
    (actualChanged : List String) : List TaskDagDiagnostic :=
  (proposal.changes.flatMap fun change =>
    operationShapeDiagnostic change ++ operationSemanticDiagnostics beforeNodes afterNodes change ++
      ((namedTasks change).filter fun taskId => decide (taskId ∉ actualChanged)).map fun taskId =>
        diagnostic "task-graph-revision.unchanged-task-declared"
          ("Change declares unchanged task \"" ++ taskId ++ "\".") [taskId]) ++
  (actualChanged.filter fun taskId =>
    decide ((proposal.changes.flatMap namedTasks).count taskId ≠ 1)).map fun taskId =>
    diagnostic "task-graph-revision.unaccounted-change"
      ("Changed task \"" ++ taskId ++ "\" must be accounted for exactly once.") [taskId]

abbrev MappingTable := Table mappingKey

def mappingMap (mappings : List TaskRequirementMapping) : MappingTable :=
  Table.empty.upsertAll mappings

def mappingDiagnostics (currentMappings : MappingTable) (afterNodes : NodeTable)
    (mapping : TaskRequirementMapping) : List TaskDagDiagnostic :=
  let key := mappingKey mapping
  (match currentMappings.find? key with
    | none => [diagnostic "task-graph-revision.unknown-requirement"
        ("Requirement \"" ++ key ++ "\" is not in the frozen source catalog.")]
    | some previous =>
      if sortTexts previous.afterTaskIds = mapping.beforeTaskIds then []
      else [diagnostic "task-graph-revision.requirement-baseline-mismatch"
        ("Requirement \"" ++ key ++ "\" does not cite its current task mapping.")]) ++
  (mapping.afterTaskIds.filter fun taskId => decide (taskId ∉ afterNodes.keys)).map fun taskId =>
    diagnostic "task-graph-revision.requirement-target-missing"
      ("Requirement \"" ++ key ++ "\" maps to missing task \"" ++ taskId ++ "\".") [taskId]

def narrowingDiagnostics (proposal : TaskGraphRevisionProposal)
    (currentMappings proposedMappings : MappingTable) (afterNodes : NodeTable) :
    List TaskDagDiagnostic :=
  (proposal.changes.filter fun change => decide (change.kind = .supersede)).flatMap fun change =>
    change.beforeTaskIds.head?.toList.flatMap fun superseded =>
      (currentMappings.rows.filter fun previous =>
        decide (superseded ∈ previous.afterTaskIds) &&
          (proposedMappings.find? (mappingKey previous)).all fun proposed =>
            decide (∀ taskId ∈ proposed.afterTaskIds, taskId ∉ afterNodes.keys)).map
        fun previous =>
          diagnostic "task-graph-revision.commitment-narrowing"
            ("Superseding task \"" ++ superseded ++
              "\" removes active coverage for requirement \"" ++
              mappingKey previous ++ "\".") [superseded]

def requirementDiagnostics (current : TaskGraphRevisionRecord)
    (proposal : TaskGraphRevisionProposal) (afterNodes : NodeTable) : List TaskDagDiagnostic :=
  let currentMappings := mappingMap current.requirementMappings
  let proposedMappings := mappingMap proposal.requirementMappings
  ((repeated [] (proposal.requirementMappings.map mappingKey)).map fun key =>
    diagnostic "task-graph-revision.duplicate-requirement"
      ("Requirement \"" ++ key ++ "\" appears more than once.")) ++
  proposal.requirementMappings.flatMap (mappingDiagnostics currentMappings afterNodes) ++
  ((currentMappings.keys.filter fun key => decide (key ∉ proposedMappings.keys)).map fun key =>
    diagnostic "task-graph-revision.requirement-lost"
      ("Requirement \"" ++ key ++ "\" disappeared from the proposal.")) ++
  narrowingDiagnostics proposal currentMappings proposedMappings afterNodes

/-- The diagnostics in the order in which they are found. -/
def revisionDiagnostics (context : TaskGraphRevisionValidationContext)
    (proposal : TaskGraphRevisionProposal) : List TaskDagDiagnostic :=
  let beforeDag := canonicalDag context.current.dag
  let beforeNodes := nodeMap beforeDag
  let afterNodes := nodeMap proposal.proposedDag
  let states := stateMap context.taskStates
  hiddenDependencyDiagnostics context proposal beforeNodes states ++
  baselineDiagnostics context proposal beforeDag ++
  (validateTaskDag proposal.proposedDag
    (some (proposedStates proposal.proposedDag states))).diagnostics ++
  startedTaskDiagnostics proposal context.hiddenDependencyFinding beforeNodes afterNodes states ++
  revisionChainDiagnostics beforeNodes afterNodes ++
  changeDiagnostics proposal beforeNodes afterNodes
    (changedTaskIds beforeDag proposal.proposedDag) ++
  requirementDiagnostics context.current proposal afterNodes

def revisionDiagnosticKey (found : TaskDagDiagnostic) : String :=
  found.code ++ "\x00" ++ joinNul found.taskIds ++ "\x00" ++ found.message

structure TaskGraphRevisionDecision where
  decisionId : String
  runId : String
  graphId : String
  proposal : TaskGraphRevisionProposal
  proposalSha256 : String
  expectedGraphRevision : Nat
  accepted : Bool
  proposedRevisionSha256 : Option String
  diagnostics : List TaskDagDiagnostic
  beforeWaves : List TaskStructuralWave
  afterWaves : List TaskStructuralWave
  affectedTaskIds : List String
  affectedWaveOrdinals : List Nat
  taskStates : List TaskPlanningState
  maxGraphRevisions : Nat
  decidedAt : String
  trigger : Option HiddenDependencyRevisionTrigger
  deriving DecidableEq

def affectedTaskIds (beforeDag afterDag : TaskDag) : List String :=
  let first := waveMembership (computeWaves beforeDag)
  let last := waveMembership (computeWaves afterDag)
  sortTexts ((first.keys ++ last.keys).dedup.filter fun taskId =>
    decide (ordinalOf first taskId ≠ ordinalOf last taskId ∨
      taskId ∈ changedTaskIds beforeDag afterDag))

def affectedWaveOrdinals (beforeDag afterDag : TaskDag) : List Nat :=
  let first := waveMembership (computeWaves beforeDag)
  let last := waveMembership (computeWaves afterDag)
  ((affectedTaskIds beforeDag afterDag).flatMap fun taskId =>
    (ordinalOf first taskId).toList ++ (ordinalOf last taskId).toList).dedup.insertionSort
      fun left right => left ≤ right

def revisionCore (context : TaskGraphRevisionValidationContext)
    (proposal : TaskGraphRevisionProposal) : TaskGraphRevisionCore where
  runId := proposal.runId
  graphId := proposal.graphId
  graphRevision := proposal.proposedDag.graphRevision
  predecessorRevisionSha256 := some context.current.revisionSha256
  dag := proposal.proposedDag
  changes := proposal.changes
  requirementMappings := proposal.requirementMappings
  rationale := proposal.rationale
  evidenceArtifactIds := proposal.evidenceArtifactIds
  decisionId := some context.decisionId
  committedAt := context.decidedAt
  trigger := proposal.trigger

section Hashed

variable [Sha256]

def recordOf (core : TaskGraphRevisionCore) : TaskGraphRevisionRecord :=
  { core with revisionSha256 := Sha256.hex core.json }

def decisionOf (context : TaskGraphRevisionValidationContext)
    (proposal : TaskGraphRevisionProposal) (record : Option TaskGraphRevisionRecord) :
    TaskGraphRevisionDecision :=
  let beforeDag := canonicalDag context.current.dag
  { decisionId := context.decisionId
    runId := proposal.runId
    graphId := proposal.graphId
    proposal := proposal
    proposalSha256 := Sha256.hex proposal.json
    expectedGraphRevision := proposal.expectedGraphRevision
    accepted := (revisionDiagnostics context proposal).isEmpty
    proposedRevisionSha256 := record.map TaskGraphRevisionRecord.revisionSha256
    diagnostics := sortBy revisionDiagnosticKey (revisionDiagnostics context proposal)
    beforeWaves := computeWaves beforeDag
    afterWaves := computeWaves proposal.proposedDag
    affectedTaskIds := affectedTaskIds beforeDag proposal.proposedDag
    affectedWaveOrdinals := affectedWaveOrdinals beforeDag proposal.proposedDag
    taskStates := sortBy TaskPlanningState.taskId context.taskStates
    maxGraphRevisions := context.maxGraphRevisions
    decidedAt := context.decidedAt
    trigger := proposal.trigger }

def validateTaskGraphRevision (context : TaskGraphRevisionValidationContext)
    (input : TaskGraphRevisionProposal) :
    TaskGraphRevisionDecision × Option TaskGraphRevisionRecord :=
  let proposal := canonicalProposal input
  let record :=
    if (revisionDiagnostics context proposal).isEmpty then
      some (recordOf (revisionCore context proposal))
    else none
  (decisionOf context proposal record, record)

structure InitialTaskGraph where
  runId : String
  dag : TaskDag
  requirementMappings : List TaskRequirementMapping
  rationale : String
  evidenceArtifactIds : List String
  committedAt : String

inductive InitialGraphError where
  | notRevisionOne
  | invalid (code : String)
  | uncoveredRequirements
  | unknownTask
  deriving DecidableEq

def createInitialTaskGraphRevision (input : InitialTaskGraph) :
    Except InitialGraphError TaskGraphRevisionRecord :=
  let dag := canonicalDag input.dag
  let validation := validateTaskDag dag none
  let mappings := canonicalMappings input.requirementMappings
  if dag.graphRevision ≠ 1 then .error .notRevisionOne
  else if validation.valid = false then
    .error (.invalid ((validation.diagnostics.head?.map TaskDagDiagnostic.code).getD "unknown"))
  else if mappings = [] ∨ ∃ mapping ∈ mappings, mapping.beforeTaskIds ≠ [] then
    .error .uncoveredRequirements
  else if ∃ mapping ∈ mappings, ∃ taskId ∈ mapping.afterTaskIds, taskId ∉ dag.taskIds then
    .error .unknownTask
  else
    .ok (recordOf
      { runId := input.runId
        graphId := dag.graphId
        graphRevision := 1
        predecessorRevisionSha256 := none
        dag := dag
        changes := []
        requirementMappings := mappings
        rationale := input.rationale
        evidenceArtifactIds := sortTexts input.evidenceArtifactIds
        decisionId := none
        committedAt := input.committedAt
        trigger := none })

theorem createInitialTaskGraphRevision_ok {input : InitialTaskGraph}
    {record : TaskGraphRevisionRecord}
    (ok : createInitialTaskGraphRevision input = .ok record) :
    record.dag.graphRevision = record.graphRevision := by
  unfold createInitialTaskGraphRevision at ok
  dsimp only at ok
  split_ifs at ok with wrong
  cases ok
  exact not_not.mp wrong

theorem validateTaskGraphRevision_accepted {context : TaskGraphRevisionValidationContext}
    {input : TaskGraphRevisionProposal} {record : TaskGraphRevisionRecord}
    (accepted : (validateTaskGraphRevision context input).2 = some record) :
    record.runId = context.current.runId ∧
      record.graphRevision = context.current.graphRevision + 1 ∧
      record.dag.graphRevision = record.graphRevision := by
  unfold validateTaskGraphRevision at accepted
  dsimp only at accepted
  split_ifs at accepted with clean
  cases accepted
  rw [List.isEmpty_iff] at clean
  simp only [revisionDiagnostics, List.append_eq_nil_iff] at clean
  have baseline := clean.1.1.1.1.1.2
  simp only [baselineDiagnostics, List.append_eq_nil_iff, ite_eq_left_iff, reduceCtorEq,
    imp_false, not_not] at baseline
  exact ⟨baseline.1.1.1.1.1, baseline.1.1.2, rfl⟩

end Hashed

end Heniek.GraphRevision
