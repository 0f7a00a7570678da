import Heniek.CanonicalJson
import Heniek.IntegrationStore

/-!
The task graph of an epic run: its nodes, the revisions proposed and recorded, and
the canonical text that compares and hashes them. The members of an object appear in
the order of their names, as the canonical text has them.
-/

namespace Heniek.TaskGraph
open ScriptText RecoveryPolicy IntegrationStore

structure ExcludedRepository where
  repositoryId : String
  rationale : String
  deriving DecidableEq

structure TaskArtifactRequirement where
  name : String
  contract : String
  repositoryId : Option String
  path : Option String
  required : Bool
  deriving DecidableEq

/-- The enumeration order of keys that were defined in the order of their code units. -/
def keyBefore (a b : String) : Bool :=
  match arrayIndex? (codeUnits a), arrayIndex? (codeUnits b) with
  | some i, some j => decide (i < j)
  | some _, none => true
  | none, some _ => false
  | none, none => before a b

/-- Variables and their values in the order in which their record is written. -/
structure CheckEnvironment where
  entries : List (String × String)
  ordered : entries.Pairwise fun a b => keyBefore a.1 b.1 = true
  deriving DecidableEq

structure VerifyCheck where
  checkId : String
  argv : List String
  cwd : Option String
  env : Option CheckEnvironment
  expectedExitCode : Nat
  required : Bool
  deriving DecidableEq

structure TaskVerificationCheck where
  repositoryId : String
  check : VerifyCheck
  deriving DecidableEq

structure ExecutionTaskRevision where
  taskId : String
  revision : Nat
  revisionSha256 : String
  predecessorRevisionSha256 : Option String
  analysisPacketId : String
  analysisPacketSha256 : String
  objective : String
  rationale : String
  primaryRepositoryId : String
  readSet : List String
  writeSet : List String
  excludedRepositories : List ExcludedRepository
  dependencies : List String
  artifacts : List TaskArtifactRequirement
  verification : List TaskVerificationCheck
  createdAt : String
  deriving DecidableEq

structure TaskDagNode where
  task : ExecutionTaskRevision
  pipelineId : String
  profileId : String
  accountId : Option String
  deriving DecidableEq

structure TaskDag where
  graphId : String
  graphRevision : Nat
  nodes : List TaskDagNode
  createdAt : String
  deriving DecidableEq

def TaskDagNode.taskId (node : TaskDagNode) : String := node.task.taskId

def TaskDag.taskIds (dag : TaskDag) : List String := dag.nodes.map TaskDagNode.taskId

inductive TaskPlanningOutcome where
  | notStarted | active | succeeded | failed | cancelled | blocked
  deriving DecidableEq

def TaskPlanningOutcome.text : TaskPlanningOutcome → String
  | .notStarted => "not_started"
  | .active => "active"
  | .succeeded => "succeeded"
  | .failed => "failed"
  | .cancelled => "cancelled"
  | .blocked => "blocked"

structure TaskPlanningState where
  taskId : String
  outcome : TaskPlanningOutcome
  completionContract : CompletionGate
  integration : IntegrationGate
  combinedVerification : CompletionGate
  deriving DecidableEq

def planningOutcome : TaskLifecyclePhase → TaskPlanningOutcome
  | .notStarted => .notStarted
  | .succeeded => .succeeded
  | .failed => .failed
  | .cancelled => .cancelled
  | .blocked => .blocked
  | _ => .active

def planningState (task : TaskLifecycleProjection) : TaskPlanningState where
  taskId := task.taskId
  outcome := planningOutcome task.phase
  completionContract := task.completionContract
  integration := task.integration
  combinedVerification := task.combinedVerification

def TaskPlanningState.satisfied (state : TaskPlanningState) : Bool :=
  decide (state.outcome = .succeeded ∧ state.completionContract = .passed ∧
    state.integration = .passed ∧ state.combinedVerification = .passed)

inductive TaskGraphChangeKind where
  | add | split | merge | reorder | supersede
  deriving DecidableEq

def TaskGraphChangeKind.text : TaskGraphChangeKind → String
  | .add => "add"
  | .split => "split"
  | .merge => "merge"
  | .reorder => "reorder"
  | .supersede => "supersede"

structure TaskGraphChange where
  kind : TaskGraphChangeKind
  beforeTaskIds : List String
  afterTaskIds : List String
  rationale : String
  evidenceArtifactIds : List String
  deriving DecidableEq

structure TaskRequirementMapping where
  sourceWorkItemId : String
  requirementId : String
  beforeTaskIds : List String
  afterTaskIds : List String
  rationale : String
  deriving DecidableEq

structure HiddenDependencyRevisionTrigger where
  findingId : String
  interruptedTaskIds : List String
  deriving DecidableEq

/-- A proposal of the second schema version is one with a trigger. -/
structure TaskGraphRevisionProposal where
  runId : String
  graphId : String
  expectedGraphRevision : Nat
  expectedRevisionSha256 : String
  proposedDag : TaskDag
  changes : List TaskGraphChange
  requirementMappings : List TaskRequirementMapping
  rationale : String
  evidenceArtifactIds : List String
  proposedAt : String
  trigger : Option HiddenDependencyRevisionTrigger
  deriving DecidableEq

/-- What the hash of a record covers. -/
structure TaskGraphRevisionCore where
  runId : String
  graphId : String
  graphRevision : Nat
  predecessorRevisionSha256 : Option String
  dag : TaskDag
  changes : List TaskGraphChange
  requirementMappings : List TaskRequirementMapping
  rationale : String
  evidenceArtifactIds : List String
  decisionId : Option String
  committedAt : String
  trigger : Option HiddenDependencyRevisionTrigger
  deriving DecidableEq

structure TaskGraphRevisionRecord extends TaskGraphRevisionCore where
  revisionSha256 : String
  deriving DecidableEq

structure HiddenDependencyFinding where
  findingId : String
  runId : String
  graphId : String
  graphRevision : Nat
  revisionSha256 : String
  reporterTaskId : String
  prerequisiteTaskIds : List String
  affectedTaskIds : List String
  rationale : String
  evidenceArtifactIds : List String
  discoveredAt : String
  deriving DecidableEq

structure TaskDagDiagnostic where
  code : String
  message : String
  taskIds : List String
  deriving DecidableEq

def diagnostic (code message : String) (taskIds : List String := []) : TaskDagDiagnostic where
  code := code
  message := message
  taskIds := sortTexts taskIds

/-- The names of the members are plain, and are not escaped. -/
def jsonObject (members : List (String × String)) : String :=
  "\x7b" ++ ",".intercalate (members.map fun member => "\"" ++ member.1 ++ "\":" ++ member.2) ++
    "\x7d"

def jsonArray (items : List String) : String := "[" ++ ",".intercalate items ++ "]"

def jsonTexts (texts : List String) : String := jsonArray (texts.map quote)

def jsonOption : Option String → String
  | none => "null"
  | some text => quote text

def ExcludedRepository.json (excluded : ExcludedRepository) : String :=
  jsonObject [("rationale", quote excluded.rationale),
    ("repositoryId", quote excluded.repositoryId)]

def jsonBool (value : Bool) : String := if value then "true" else "false"

def TaskArtifactRequirement.json (artifact : TaskArtifactRequirement) : String :=
  jsonObject [("contract", quote artifact.contract), ("name", quote artifact.name),
    ("path", jsonOption artifact.path), ("repositoryId", jsonOption artifact.repositoryId),
    ("required", jsonBool artifact.required)]

def CheckEnvironment.json (env : CheckEnvironment) : String :=
  "\x7b" ++ ",".intercalate (env.entries.map fun entry =>
    quote entry.1 ++ ":" ++ quote entry.2) ++ "\x7d"

def VerifyCheck.json (check : VerifyCheck) : String :=
  jsonObject ([("argv", jsonTexts check.argv), ("checkId", quote check.checkId)] ++
    check.cwd.toList.map (fun cwd => ("cwd", quote cwd)) ++
    check.env.toList.map (fun env => ("env", env.json)) ++
    [("expectedExitCode", toString check.expectedExitCode), ("required", jsonBool check.required),
      ("schemaVersion", "1")])

def TaskVerificationCheck.json (verification : TaskVerificationCheck) : String :=
  jsonObject [("check", verification.check.json), ("repositoryId", quote verification.repositoryId)]

def ExecutionTaskRevision.members (task : ExecutionTaskRevision) : List (String × String) :=
  [("analysisPacketId", quote task.analysisPacketId),
    ("analysisPacketSha256", quote task.analysisPacketSha256),
    ("artifacts", jsonArray (task.artifacts.map TaskArtifactRequirement.json)),
    ("createdAt", quote task.createdAt), ("dependencies", jsonTexts task.dependencies),
    ("excludedRepositories", jsonArray (task.excludedRepositories.map ExcludedRepository.json)),
    ("objective", quote task.objective),
    ("predecessorRevisionSha256", jsonOption task.predecessorRevisionSha256),
    ("primaryRepositoryId", quote task.primaryRepositoryId),
    ("rationale", quote task.rationale), ("readSet", jsonTexts task.readSet),
    ("revision", toString task.revision), ("revisionSha256", quote task.revisionSha256),
    ("schemaVersion", "1"), ("taskId", quote task.taskId),
    ("verification", jsonArray (task.verification.map TaskVerificationCheck.json)),
    ("writeSet", jsonTexts task.writeSet)]

/-- The members that `reorderContent` leaves out. -/
def revisionMembers : List String :=
  ["createdAt", "dependencies", "predecessorRevisionSha256", "revision", "revisionSha256"]

def TaskDagNode.jsonOf (node : TaskDagNode) (members : List (String × String)) : String :=
  jsonObject [("accountId", jsonOption node.accountId), ("pipelineId", quote node.pipelineId),
    ("profileId", quote node.profileId), ("task", jsonObject members)]

def TaskDagNode.json (node : TaskDagNode) : String := node.jsonOf node.task.members

def TaskDagNode.reorderContent (node : TaskDagNode) : String :=
  node.jsonOf (node.task.members.filter fun member => decide (member.1 ∉ revisionMembers))

def TaskDag.json (dag : TaskDag) : String :=
  jsonObject [("createdAt", quote dag.createdAt), ("graphId", quote dag.graphId),
    ("graphRevision", toString dag.graphRevision),
    ("nodes", jsonArray (dag.nodes.map TaskDagNode.json)), ("schemaVersion", "2")]

def TaskGraphChange.json (change : TaskGraphChange) : String :=
  jsonObject [("afterTaskIds", jsonTexts change.afterTaskIds),
    ("beforeTaskIds", jsonTexts change.beforeTaskIds),
    ("evidenceArtifactIds", jsonTexts change.evidenceArtifactIds),
    ("kind", quote change.kind.text), ("rationale", quote change.rationale)]

def TaskRequirementMapping.json (mapping : TaskRequirementMapping) : String :=
  jsonObject [("afterTaskIds", jsonTexts mapping.afterTaskIds),
    ("beforeTaskIds", jsonTexts mapping.beforeTaskIds), ("rationale", quote mapping.rationale),
    ("requirementId", quote mapping.requirementId),
    ("sourceWorkItemId", quote mapping.sourceWorkItemId)]

def HiddenDependencyRevisionTrigger.json (trigger : HiddenDependencyRevisionTrigger) : String :=
  jsonObject [("findingId", quote trigger.findingId),
    ("interruptedTaskIds", jsonTexts trigger.interruptedTaskIds),
    ("kind", quote "hidden_dependency")]

def triggerMember (trigger : Option HiddenDependencyRevisionTrigger) : List (String × String) :=
  trigger.toList.map fun trigger => ("trigger", trigger.json)

def TaskGraphRevisionProposal.schemaVersion (proposal : TaskGraphRevisionProposal) : Nat :=
  if proposal.trigger.isSome then 2 else 1

def TaskGraphRevisionProposal.json (proposal : TaskGraphRevisionProposal) : String :=
  jsonObject ([("changes", jsonArray (proposal.changes.map TaskGraphChange.json)),
    ("evidenceArtifactIds", jsonTexts proposal.evidenceArtifactIds),
    ("expectedGraphRevision", toString proposal.expectedGraphRevision),
    ("expectedRevisionSha256", quote proposal.expectedRevisionSha256),
    ("graphId", quote proposal.graphId), ("proposedAt", quote proposal.proposedAt),
    ("proposedDag", proposal.proposedDag.json), ("rationale", quote proposal.rationale),
    ("requirementMappings",
      jsonArray (proposal.requirementMappings.map TaskRequirementMapping.json)),
    ("runId", quote proposal.runId), ("schemaVersion", toString proposal.schemaVersion)] ++
    triggerMember proposal.trigger)

def TaskGraphRevisionCore.json (core : TaskGraphRevisionCore) : String :=
  jsonObject ([("changes", jsonArray (core.changes.map TaskGraphChange.json)),
    ("committedAt", quote core.committedAt), ("dag", core.dag.json),
    ("decisionId", jsonOption core.decisionId),
    ("evidenceArtifactIds", jsonTexts core.evidenceArtifactIds),
    ("graphId", quote core.graphId), ("graphRevision", toString core.graphRevision),
    ("predecessorRevisionSha256", jsonOption core.predecessorRevisionSha256),
    ("rationale", quote core.rationale),
    ("requirementMappings",
      jsonArray (core.requirementMappings.map TaskRequirementMapping.json)),
    ("runId", quote core.runId)] ++ triggerMember core.trigger)

def sampleHash : String := "e3b0c44298fc1c149afbf4c8996fb92427ae41e4649b934ca495991b7852b855"

/-- A task that reads its repository and writes nothing. -/
def sampleNode (taskId : String) (dependencies : List String) : TaskDagNode where
  task :=
    { taskId := taskId
      revision := 1
      revisionSha256 := sampleHash
      predecessorRevisionSha256 := none
      analysisPacketId := "packet"
      analysisPacketSha256 := sampleHash
      objective := "objective"
      rationale := "rationale"
      primaryRepositoryId := "repository"
      readSet := ["repository"]
      writeSet := []
      excludedRepositories := []
      dependencies := dependencies
      artifacts := []
      verification := []
      createdAt := "2026-01-01T00:00:00.000Z" }
  pipelineId := "pipeline"
  profileId := "profile"
  accountId := none

end Heniek.TaskGraph
