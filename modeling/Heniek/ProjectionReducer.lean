import Heniek.EventPayloads

/-!
The pure reducer: the scope of an event, and the fold step that the commit path and the
replay share. A rule reads its payload and the state in the order of the source, so that
it throws what the source throws first.
-/

namespace Heniek.ProjectionReducer
open ScriptText CanonicalState CanonicalJson ProjectionTables EventPayloads

variable [NumberText]

/-- The keys that the rule of a type may read or write. -/
def scopeOf (type : EventType) (event : StateEvent) (payload : Members) :
    Except ReducerError ProjectionScope :=
  match type with
  | .runCreated => do
      let workspaceId ← optionalWorkspaceId event payload
      let runId ← requireRunId event payload
      let codebaseId ← requireString event payload "codebaseId"
      .ok { runs := [runId], codebases := [codebaseId], workspaces := workspaceId.toList }
  | .runStatusChanged | .runSignalled _ | .runInstructionsSnapshotted | .runCapability _ => do
      let runId ← requireRunId event payload
      .ok { runs := [runId] }
  | .runWorkspaceAssigned => do
      let runId ← requireRunId event payload
      let workspaceId ← requireString event payload "workspaceId"
      .ok { runs := [runId], workspaces := [workspaceId] }
  | .codebaseRegistrationCommitted => do
      let registration ← requireRegistration event payload
      .ok {
        codebases := [registration.codebaseId]
        repositories := registration.repositories.map (·.repositoryId) }
  | .codebaseRegistered => do
      let codebaseId ← requireString event payload "codebaseId"
      .ok { codebases := [codebaseId] }
  | .repositoryRegistered => do
      let codebaseId ← requireString event payload "codebaseId"
      let repositoryId ← requireString event payload "repositoryId"
      .ok { codebases := [codebaseId], repositories := [repositoryId] }
  | .workspaceRegistered => do
      let codebaseId ← requireString event payload "codebaseId"
      let workspaceId ← requireString event payload "workspaceId"
      .ok { codebases := [codebaseId], workspaces := [workspaceId] }
  | .workspaceProvisioningRecorded => do
      let codebaseId ← requireString event payload "codebaseId"
      let repositoryId ← requireString event payload "repositoryId"
      let workspaceId ← requireString event payload "workspaceId"
      .ok {
        codebases := [codebaseId], repositories := [repositoryId], workspaces := [workspaceId] }
  | .workspaceLease _ => do
      let checkoutPath ← requireString event payload "checkoutPath"
      let repositoryId ← requireString event payload "repositoryId"
      let workspaceId ← requireString event payload "workspaceId"
      .ok {
        repositories := [repositoryId], workspaces := [workspaceId]
        workspaceLeases := [checkoutPath] }
  | .artifactPublished => do
      let runId ← requireRunId event payload
      let _ ← requireStageId event payload
      let artifactId ← requireString event payload "artifactId"
      .ok { runs := [runId], artifacts := [artifactId] }
  | .stageCompleted => do
      let runId ← requireRunId event payload
      let stageId ← requireStageId event payload
      let refs ← requireArtifactRefs event payload "artifacts"
      .ok {
        runs := [runId]
        artifacts := refs.map (·.artifactId)
        stageArtifactAliases := refs.map fun ref => ⟨runId, stageId, ref.name⟩ }

def requireRun (state : ReducedState) (event : StateEvent) (runId : String) :
    Except ReducerError RunEntry :=
  match state.run? runId with
  | some entry => .ok entry
  | none => reject event ("run does not exist: " ++ runId)

/-- A refusal unless the condition holds. -/
def check (condition : Bool) (event : StateEvent) (reason : String) : Except ReducerError Unit :=
  if condition then .ok () else reject event reason

def advanced (event : StateEvent) : RunEntry → RunEntry
  | .row run =>
    .row { run with
      revision := run.revision + 1
      lastEventSequence := event.sequence
      updatedAt := event.recordedAt }
  | .inherited run =>
    .inherited { run with
      lastEventSequence := some event.sequence
      updatedAt := some event.recordedAt }

def withStatus (status : RunStatus) : RunEntry → RunEntry
  | .row run => .row { run with status := status }
  | .inherited run => .inherited { run with status := some status }

def withWorkspace (workspaceId : String) : RunEntry → RunEntry
  | .row run => .row { run with workspaceId := some workspaceId }
  | .inherited run => .inherited { run with workspaceId := some workspaceId }

def runCreated (event : StateEvent) (payload : Members) (state : ReducedState) :
    Except ReducerError ReducedState := do
  let runId ← requireRunId event payload
  check (state.run? runId).isNone event ("run already exists: " ++ runId)
  let workspaceId ← optionalWorkspaceId event payload
  let codebaseId ← requireString event payload "codebaseId"
  .ok (state.putRun (.row {
    runId, workspaceId, codebaseId
    status := .queued
    revision := 1
    lastEventSequence := event.sequence
    updatedAt := event.recordedAt
    instructionSnapshotSha256 := none
    instructionSnapshotJson := none
    capabilityLandingJson := none }))

def runStatusChanged (event : StateEvent) (payload : Members) (state : ReducedState) :
    Except ReducerError ReducedState := do
  let runId ← requireRunId event payload
  let previous ← requireRun state event runId
  let text ← requireString event payload "status"
  match runStatus? text with
  | some status => .ok (state.putRun (advanced event (withStatus status previous)))
  | none => reject event ("unknown run status: " ++ text)

def runSignalled (event : StateEvent) (payload : Members) (state : ReducedState) :
    Except ReducerError ReducedState := do
  let runId ← requireRunId event payload
  let previous ← requireRun state event runId
  .ok (state.putRun (advanced event previous))

def runWorkspaceAssigned (event : StateEvent) (payload : Members) (state : ReducedState) :
    Except ReducerError ReducedState := do
  let runId ← requireRunId event payload
  let previous ← requireRun state event runId
  let workspaceId ← requireString event payload "workspaceId"
  check (defined state.workspaces workspaceId) event
    ("workspace is not registered: " ++ workspaceId)
  .ok (state.putRun (advanced event (withWorkspace workspaceId previous)))

/-- The snapshot of an entry that is no row is undefined, and so not null either. -/
def runInstructionsSnapshotted (event : StateEvent) (payload : Members) (state : ReducedState) :
    Except ReducerError ReducedState := do
  let runId ← requireRunId event payload
  let previous ← requireRun state event runId
  match previous with
  | .inherited _ => reject event ("run instruction snapshot is immutable: " ++ runId)
  | .row run =>
    check run.instructionSnapshotJson.isNone event
      ("run instruction snapshot is immutable: " ++ runId)
    let (sha256, json) ← requireInstructionSnapshot event payload
    .ok (state.putRun (advanced event (.row { run with
      instructionSnapshotSha256 := some sha256
      instructionSnapshotJson := some json })))

def runCapability (event : StateEvent) (payload : Members) (state : ReducedState) :
    Except ReducerError ReducedState := do
  let runId ← requireRunId event payload
  let previous ← requireRun state event runId
  let landingJson ← requireCapabilityLanding event payload
  match previous with
  | .inherited _ => reject event ("run capability landing is immutable: " ++ runId)
  | .row run =>
    match run.capabilityLandingJson with
    | some stored =>
      if stored = landingJson then .ok state
      else reject event ("run capability landing is immutable: " ++ runId)
    | none =>
      .ok (state.putRun (advanced event (.row { run with
        capabilityLandingJson := some landingJson })))

def codebaseRegistered (event : StateEvent) (payload : Members) (state : ReducedState) :
    Except ReducerError ReducedState := do
  let codebaseId ← requireString event payload "codebaseId"
  check (!defined state.codebases codebaseId) event ("codebase already exists: " ++ codebaseId)
  .ok { state with
    codebases := state.codebases.put {
      codebaseId
      revision := 1
      lastEventSequence := event.sequence
      updatedAt := event.recordedAt
      name := none
      rootPath := none
      topologySha256 := none
      configurationSha256 := none
      registrationJson := none
      instructionSnapshotJson := none } }

def repositoryRegistered (event : StateEvent) (payload : Members) (state : ReducedState) :
    Except ReducerError ReducedState := do
  let repositoryId ← requireString event payload "repositoryId"
  let codebaseId ← requireString event payload "codebaseId"
  check (!defined state.repositories repositoryId) event
    ("repository already exists: " ++ repositoryId)
  check (defined state.codebases codebaseId) event ("codebase is not registered: " ++ codebaseId)
  .ok { state with
    repositories := state.repositories.put {
      repositoryId, codebaseId
      revision := 1
      lastEventSequence := event.sequence
      updatedAt := event.recordedAt
      name := none
      repositoryPath := none
      gitCommonDirectory := none
      remotesJson := none
      defaultRemote := none
      defaultBranch := none } }

def registeredRepository (event : StateEvent) (codebaseId : String)
    (repository : RegistrationRepositoryPayload) : RepositoryState where
  repositoryId := repository.repositoryId
  codebaseId := codebaseId
  revision := 1
  lastEventSequence := event.sequence
  updatedAt := event.recordedAt
  name := some repository.name
  repositoryPath := some repository.path
  gitCommonDirectory := some repository.gitCommonDirectory
  remotesJson := some repository.remotesJson
  defaultRemote := repository.defaultRemote
  defaultBranch := repository.defaultBranch

def codebaseRegistrationCommitted (event : StateEvent) (payload : Members) (state : ReducedState) :
    Except ReducerError ReducedState := do
  let registration ← requireRegistration event payload
  let codebaseId := registration.codebaseId
  if defined state.codebases codebaseId then
    if (state.codebases.find? codebaseId).bind (·.configurationSha256) =
        some registration.configurationSha256 then .ok state
    else reject event ("codebase already exists: " ++ codebaseId)
  else do
    registration.repositories.forM fun repository =>
      check (!defined state.repositories repository.repositoryId) event
        ("repository already exists: " ++ repository.repositoryId)
    .ok { state with
      codebases := state.codebases.put {
        codebaseId
        revision := 1
        lastEventSequence := event.sequence
        updatedAt := event.recordedAt
        name := some registration.name
        rootPath := some registration.rootPath
        topologySha256 := some registration.topologySha256
        configurationSha256 := some registration.configurationSha256
        registrationJson := some registration.registrationJson
        instructionSnapshotJson := some registration.instructionSnapshotJson }
      repositories := (registration.repositories.map (registeredRepository event codebaseId)).foldl
        (fun table row => table.put row) state.repositories }

def workspaceRegistered (event : StateEvent) (payload : Members) (state : ReducedState) :
    Except ReducerError ReducedState := do
  let workspaceId ← requireString event payload "workspaceId"
  let codebaseId ← requireString event payload "codebaseId"
  check (!defined state.workspaces workspaceId) event ("workspace already exists: " ++ workspaceId)
  check (defined state.codebases codebaseId) event ("codebase is not registered: " ++ codebaseId)
  .ok { state with
    workspaces := state.workspaces.put {
      workspaceId, codebaseId
      repositoryId := none
      lifecycleStatus := none
      checkoutPath := none
      configurationSha256 := none
      manifestJson := none
      revision := 1
      lastEventSequence := event.sequence
      updatedAt := event.recordedAt } }

def workspaceProvisioningRecorded (event : StateEvent) (payload : Members) (state : ReducedState) :
    Except ReducerError ReducedState := do
  let workspaceId ← requireString event payload "workspaceId"
  let codebaseId ← requireString event payload "codebaseId"
  let repositoryId ← requireString event payload "repositoryId"
  let lifecycleStatus ← requireString event payload "lifecycleStatus"
  let checkoutPath ← requireString event payload "checkoutPath"
  let configurationSha256 ← requireString event payload "configurationSha256"
  let manifestJson ← requireString event payload "manifestJson"
  check (defined state.codebases codebaseId) event ("codebase is not registered: " ++ codebaseId)
  check ((state.repositories.find? repositoryId).any (·.codebaseId = codebaseId)) event
    ("repository is not registered to codebase: " ++ repositoryId)
  let previous := state.workspaces.find? workspaceId
  check (previous.elim (!inherited workspaceId) (·.codebaseId = codebaseId)) event
    ("workspace belongs to another codebase: " ++ workspaceId)
  .ok { state with
    workspaces := state.workspaces.put {
      workspaceId, codebaseId
      repositoryId := some repositoryId
      lifecycleStatus := some lifecycleStatus
      checkoutPath := some checkoutPath
      configurationSha256 := some configurationSha256
      manifestJson := some manifestJson
      revision := previous.elim 0 (·.revision) + 1
      lastEventSequence := event.sequence
      updatedAt := event.recordedAt } }

def expectedState : LeaseEvent → String
  | .released => "released"
  | .recoveryRequired => "recovery-required"
  | _ => "active"

/-- What the payload of a lease event says about the lease. -/
structure LeaseClaim where
  checkoutPath : String
  workspaceId : String
  repositoryId : String
  fencingRevision : Nat
  leaseId : String
  leaseState : String

def admitsLease (lease : LeaseEvent) (claim : LeaseClaim) (previous : Option WorkspaceLeaseState) :
    Bool :=
  match lease with
  | .acquired =>
    previous.isNone && !inherited claim.checkoutPath && decide (claim.fencingRevision = 1) &&
      decide (claim.leaseState = "active")
  | .recovered =>
    previous.any fun row =>
      decide (claim.fencingRevision = row.fencingRevision + 1) &&
        decide (claim.leaseId ≠ row.leaseId) && decide (claim.leaseState = "active")
  | _ =>
    previous.any fun row =>
      decide (claim.fencingRevision = row.fencingRevision) &&
        decide (claim.leaseId = row.leaseId) && decide (claim.workspaceId = row.workspaceId) &&
        decide (claim.repositoryId = row.repositoryId) && decide (row.leaseState = "active")

def leaseRefusal : LeaseEvent → String
  | .acquired => "initial lease must create fence 1 in active state"
  | .recovered => "lease recovery must replace the lease and advance its fence by 1"
  | _ => "lease mutation must target the current active identity and fence"

def workspaceLease (lease : LeaseEvent) (event : StateEvent) (payload : Members)
    (state : ReducedState) : Except ReducerError ReducedState := do
  let checkoutPath ← requireString event payload "checkoutPath"
  let workspaceId ← requireString event payload "workspaceId"
  let repositoryId ← requireString event payload "repositoryId"
  check (defined state.workspaces workspaceId) event
    ("workspace is not registered: " ++ workspaceId)
  check (defined state.repositories repositoryId) event
    ("repository is not registered: " ++ repositoryId)
  let previous := state.workspaceLeases.find? checkoutPath
  let fencingRevision ← requireNonNegativeInteger event payload "fencingRevision"
  let leaseId ← requireString event payload "leaseId"
  let leaseState ← requireString event payload "leaseState"
  check (decide (1 ≤ fencingRevision)) event "payload.fencingRevision must be positive"
  check (admitsLease lease ⟨checkoutPath, workspaceId, repositoryId, fencingRevision, leaseId,
    leaseState⟩ previous) event (leaseRefusal lease)
  check (decide (leaseState = expectedState lease)) event
    ("lease event must produce " ++ expectedState lease ++ " state")
  let ownerId ← requireString event payload "ownerId"
  let processWitnessesJson ← requireString event payload "processWitnessesJson"
  let expectedSha ← requireString event payload "expectedSha"
  let acquiredAt ← requireString event payload "acquiredAt"
  let renewedAt ← requireString event payload "renewedAt"
  let expiresAt ← requireString event payload "expiresAt"
  .ok { state with
    workspaceLeases := state.workspaceLeases.put {
      checkoutPath, workspaceId, repositoryId, leaseId, ownerId, processWitnessesJson, expectedSha,
      fencingRevision, leaseState, acquiredAt, renewedAt, expiresAt
      bootWitness := nullableString (property? payload "bootWitness")
      releasedAt := nullableString (property? payload "releasedAt")
      revision := previous.elim 0 (·.revision) + 1
      lastEventSequence := event.sequence
      updatedAt := event.recordedAt } }

def publishedArtifact (event : StateEvent) (runId stageId : String) (ref : ArtifactRefPayload) :
    ArtifactState where
  artifactId := ref.artifactId
  runId := runId
  stageId := stageId
  name := ref.name
  contentHash := ref.contentHash
  byteLength := ref.byteLength
  mediaType := ref.mediaType
  contentSchemaId := ref.contentSchemaId
  producer := ref.producer
  sourceLineage := ref.sourceLineage
  relativePath := ref.path
  createdAt := event.recordedAt
  revision := 1
  lastEventSequence := event.sequence

def artifactPublished (event : StateEvent) (payload : Members) (state : ReducedState) :
    Except ReducerError ReducedState := do
  let runId ← requireRunId event payload
  let _ ← requireRun state event runId
  let stageId ← requireStageId event payload
  let artifactId ← requireString event payload "artifactId"
  check (!defined state.artifacts artifactId) event ("artifact already exists: " ++ artifactId)
  let name ← requireName event payload
  let contentHash ← requireContentHash event payload "contentHash"
  let byteLength ← requireNonNegativeInteger event payload "byteLength"
  let mediaType ← requireString event payload "mediaType"
  let contentSchemaId ← requireString event payload "contentSchemaId"
  let producer ← requireString event payload "producer"
  let sourceLineage ← requireSourceLineage event payload "sourceLineage"
  let path ← requireString event payload "path"
  .ok { state with
    artifacts := state.artifacts.put (publishedArtifact event runId stageId {
      artifactId, name, contentHash, byteLength, mediaType, contentSchemaId, producer,
      sourceLineage, path }) }

/-- The loop variables of `stage.completed`. -/
structure StageFold where
  seenNames : List String := []
  artifacts : SortedTable ArtifactState.artifactId
  stageArtifactAliases : SortedTable StageArtifactAliasState.key

def adoptArtifact (event : StateEvent) (runId stageId : String)
    (artifacts : SortedTable ArtifactState.artifactId) (ref : ArtifactRefPayload) :
    Except ReducerError (SortedTable ArtifactState.artifactId) :=
  match artifacts.find? ref.artifactId with
  | some existing =>
    match artifactMismatchField existing runId stageId ref with
    | some mismatch =>
      reject event ("artifact already exists with a different " ++ mismatch ++ ": " ++
        ref.artifactId)
    | none => .ok artifacts
  | none =>
    if inherited ref.artifactId then
      reject event ("artifact already exists with a different runId: " ++ ref.artifactId)
    else .ok (artifacts.put (publishedArtifact event runId stageId ref))

def foldRef (event : StateEvent) (runId stageId : String) (fold : StageFold)
    (ref : ArtifactRefPayload) : Except ReducerError StageFold := do
  check (decide (ref.name ∉ fold.seenNames)) event
    ("payload.artifacts has more than one entry named \"" ++ ref.name ++ "\"")
  let artifacts ← adoptArtifact event runId stageId fold.artifacts ref
  let previous := fold.stageArtifactAliases.find? (stageArtifactAliasKey runId stageId ref.name)
  .ok {
    seenNames := ref.name :: fold.seenNames
    artifacts
    stageArtifactAliases := fold.stageArtifactAliases.put {
      runId, stageId
      name := ref.name
      artifactId := ref.artifactId
      revision := previous.elim 0 (·.revision) + 1
      lastEventSequence := event.sequence
      updatedAt := event.recordedAt } }

/-- Whether the stage also ends its run. -/
def terminalRunStatus (event : StateEvent) (payload : Members) : Except ReducerError Bool :=
  match property? payload "terminalRunStatus" with
  | none => .ok false
  | some (.string value) =>
    if value = "succeeded" then .ok true
    else reject event "payload.terminalRunStatus must be succeeded when present"
  | some _ => reject event "payload.terminalRunStatus must be succeeded when present"

def stageCompleted (event : StateEvent) (payload : Members) (state : ReducedState) :
    Except ReducerError ReducedState := do
  let runId ← requireRunId event payload
  let previousRun ← requireRun state event runId
  let stageId ← requireStageId event payload
  let refs ← requireArtifactRefs event payload "artifacts"
  let fold ← refs.foldlM (foldRef event runId stageId) {
    artifacts := state.artifacts
    stageArtifactAliases := state.stageArtifactAliases }
  let terminal ← terminalRunStatus event payload
  let settled := if terminal then state.putRun (advanced event (withStatus .succeeded previousRun))
    else state
  .ok { settled with
    artifacts := fold.artifacts
    stageArtifactAliases := fold.stageArtifactAliases }

def reduce (type : EventType) (event : StateEvent) (payload : Members) (state : ReducedState) :
    Except ReducerError ReducedState :=
  match type with
  | .runCreated => runCreated event payload state
  | .runStatusChanged => runStatusChanged event payload state
  | .runSignalled _ => runSignalled event payload state
  | .runWorkspaceAssigned => runWorkspaceAssigned event payload state
  | .runInstructionsSnapshotted => runInstructionsSnapshotted event payload state
  | .runCapability _ => runCapability event payload state
  | .codebaseRegistrationCommitted => codebaseRegistrationCommitted event payload state
  | .codebaseRegistered => codebaseRegistered event payload state
  | .repositoryRegistered => repositoryRegistered event payload state
  | .workspaceRegistered => workspaceRegistered event payload state
  | .workspaceProvisioningRecorded => workspaceProvisioningRecorded event payload state
  | .workspaceLease lease => workspaceLease lease event payload state
  | .artifactPublished => artifactPublished event payload state
  | .stageCompleted => stageCompleted event payload state

def applyEvent (state : ReducedState) (event : StateEvent) : Except ReducerError ReducedState := do
  let payload ← payloadObject event
  match EventType.ofText? event.type with
  | some type =>
    check (!(type.runScoped && event.runId.isNone)) event "a run.* event must carry a run_id"
    check (!(type.stageScoped && event.runId.isNone)) event
      "an artifact/stage event must carry a run_id"
    reduce type event payload state
  | none => reject event "unknown event type"

end Heniek.ProjectionReducer
