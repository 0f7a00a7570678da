import Heniek.SortedTable
import Heniek.ScriptText

/-!
The projection value that the reducer folds, the scope of an event, and the diff that
turns two values into explicit writes. The records are plain objects: under a name that
objects inherit, such as `constructor`, a lookup finds something although nothing was
stored there. Only for runs can such a find become an entry, and it is then no row: it
has no run id, and its revision is not a number.
-/

namespace Heniek.ProjectionTables
open ScriptText

inductive RunStatus where
  | queued | running | waitingOnUser | waitingForParentSession | recoveryRequired
  | succeeded | failed | cancelled
  deriving DecidableEq

def RunStatus.text : RunStatus → String
  | .queued => "queued"
  | .running => "running"
  | .waitingOnUser => "waiting_on_user"
  | .waitingForParentSession => "waiting_for_parent_session"
  | .recoveryRequired => "recovery_required"
  | .succeeded => "succeeded"
  | .failed => "failed"
  | .cancelled => "cancelled"

def RunStatus.values : List RunStatus :=
  [.queued, .running, .waitingOnUser, .waitingForParentSession, .recoveryRequired, .succeeded,
    .failed, .cancelled]

structure RunState where
  runId : String
  status : RunStatus
  revision : Nat
  lastEventSequence : Nat
  workspaceId : Option String
  codebaseId : String
  updatedAt : String
  instructionSnapshotSha256 : Option String
  instructionSnapshotJson : Option String
  capabilityLandingJson : Option String
  deriving DecidableEq

structure CodebaseState where
  codebaseId : String
  revision : Nat
  lastEventSequence : Nat
  updatedAt : String
  name : Option String
  rootPath : Option String
  topologySha256 : Option String
  configurationSha256 : Option String
  registrationJson : Option String
  instructionSnapshotJson : Option String
  deriving DecidableEq

structure RepositoryState where
  repositoryId : String
  codebaseId : String
  revision : Nat
  lastEventSequence : Nat
  updatedAt : String
  name : Option String
  repositoryPath : Option String
  gitCommonDirectory : Option String
  remotesJson : Option String
  defaultRemote : Option String
  defaultBranch : Option String
  deriving DecidableEq

structure WorkspaceState where
  workspaceId : String
  codebaseId : String
  repositoryId : Option String
  lifecycleStatus : Option String
  checkoutPath : Option String
  configurationSha256 : Option String
  manifestJson : Option String
  revision : Nat
  lastEventSequence : Nat
  updatedAt : String
  deriving DecidableEq

structure WorkspaceLeaseState where
  checkoutPath : String
  workspaceId : String
  repositoryId : String
  leaseId : String
  ownerId : String
  bootWitness : Option String
  processWitnessesJson : String
  expectedSha : String
  fencingRevision : Nat
  leaseState : String
  acquiredAt : String
  renewedAt : String
  expiresAt : String
  releasedAt : Option String
  revision : Nat
  lastEventSequence : Nat
  updatedAt : String
  deriving DecidableEq

structure ArtifactState where
  artifactId : String
  runId : String
  stageId : String
  name : String
  contentHash : String
  byteLength : Nat
  mediaType : String
  contentSchemaId : String
  producer : String
  sourceLineage : List String
  relativePath : String
  createdAt : String
  revision : Nat
  lastEventSequence : Nat
  deriving DecidableEq

structure StageArtifactAliasState where
  runId : String
  stageId : String
  name : String
  artifactId : String
  revision : Nat
  lastEventSequence : Nat
  updatedAt : String
  deriving DecidableEq

def nul : String := String.singleton '\x00'

def stageArtifactAliasKey (runId stageId name : String) : String :=
  runId ++ nul ++ stageId ++ nul ++ name

def StageArtifactAliasState.key (row : StageArtifactAliasState) : String :=
  stageArtifactAliasKey row.runId row.stageId row.name

structure ProjectionState where
  runs : SortedTable RunState.runId
  codebases : SortedTable CodebaseState.codebaseId
  repositories : SortedTable RepositoryState.repositoryId
  workspaces : SortedTable WorkspaceState.workspaceId
  workspaceLeases : SortedTable WorkspaceLeaseState.checkoutPath
  artifacts : SortedTable ArtifactState.artifactId
  stageArtifactAliases : SortedTable StageArtifactAliasState.key

def emptyProjectionState : ProjectionState where
  runs := .empty
  codebases := .empty
  repositories := .empty
  workspaces := .empty
  workspaceLeases := .empty
  artifacts := .empty
  stageArtifactAliases := .empty

/-- What a run update makes of an inherited value: the fields it sets, the others undefined. -/
structure InheritedRun where
  name : String
  status : Option RunStatus := none
  workspaceId : Option String := none
  lastEventSequence : Option Nat := none
  updatedAt : Option String := none
  deriving DecidableEq

inductive RunEntry where
  | row (run : RunState)
  | inherited (run : InheritedRun)
  deriving DecidableEq

def RunEntry.key : RunEntry → String
  | .row run => run.runId
  | .inherited run => run.name

/-- The value of the reducer. -/
structure ReducedState extends ProjectionState where
  inheritedRuns : SortedTable InheritedRun.name

def ProjectionState.reduced (state : ProjectionState) : ReducedState :=
  { state with inheritedRuns := .empty }

namespace ReducedState

def run? (state : ReducedState) (runId : String) : Option RunEntry :=
  match state.runs.find? runId with
  | some run => some (.row run)
  | none =>
    match state.inheritedRuns.find? runId with
    | some run => some (.inherited run)
    | none => if inherited runId then some (.inherited { name := runId }) else none

def putRun (state : ReducedState) : RunEntry → ReducedState
  | .row run => { state with runs := state.runs.put run }
  | .inherited run => { state with inheritedRuns := state.inheritedRuns.put run }

end ReducedState

/-- `record[key] !== undefined`. -/
def defined {α : Type} {key : α → String} (table : SortedTable key) (k : String) : Bool :=
  (table.find? k).isSome || inherited k

structure StageArtifactAliasScopeKey where
  runId : String
  stageId : String
  name : String
  deriving DecidableEq

def StageArtifactAliasScopeKey.key (scope : StageArtifactAliasScopeKey) : String :=
  stageArtifactAliasKey scope.runId scope.stageId scope.name

structure ProjectionScope where
  runs : List String := []
  codebases : List String := []
  repositories : List String := []
  workspaces : List String := []
  workspaceLeases : List String := []
  artifacts : List String := []
  stageArtifactAliases : List StageArtifactAliasScopeKey := []
  deriving DecidableEq

end Heniek.ProjectionTables
