import Heniek.CanonicalJson
import Heniek.ProjectionTables

/-!
The journal events and the readers that narrow their payloads. A reader throws in the
name of the event, with the field that it checks.
-/

namespace Heniek.EventPayloads
open ExpressionEvaluation CanonicalState CanonicalJson ProjectionTables

structure StateEvent where
  sequence : Nat
  eventId : String
  runId : Option String
  correlationId : String
  causationEventId : Option String
  type : String
  recordedAt : String
  payload : JsonValue

structure ReducerError where
  eventId : String
  eventType : String
  reason : String
  deriving DecidableEq

/-- The events that only advance the revision of their run. -/
inductive RunSignal where
  | interactionCreated | interactionAnswerAccepted |
    interactionCancelled | interactionAnswerDelivered
  | resumeRequested | resumeDelivered
  | nativeQuestionRaised | nativeQuestionAnswered |
    nativeQuestionCancelled | nativeQuestionDelivered
  deriving DecidableEq

inductive CapabilityEvent where
  | degraded | blocked
  deriving DecidableEq

inductive LeaseEvent where
  | acquired | recovered | renewed | expectedShaAdvanced | released | recoveryRequired
  deriving DecidableEq

inductive EventType where
  | runCreated | runStatusChanged
  | runSignalled (signal : RunSignal)
  | runWorkspaceAssigned | runInstructionsSnapshotted
  | runCapability (event : CapabilityEvent)
  | codebaseRegistrationCommitted | codebaseRegistered | repositoryRegistered
  | workspaceRegistered | workspaceProvisioningRecorded
  | workspaceLease (event : LeaseEvent)
  | artifactPublished | stageCompleted
  deriving DecidableEq

def RunSignal.text : RunSignal → String
  | .interactionCreated => "interaction.created"
  | .interactionAnswerAccepted => "interaction.answer_accepted"
  | .interactionCancelled => "interaction.cancelled"
  | .interactionAnswerDelivered => "interaction.answer_delivered"
  | .resumeRequested => "run.resume_requested"
  | .resumeDelivered => "run.resume_delivered"
  | .nativeQuestionRaised => "native_question.raised"
  | .nativeQuestionAnswered => "native_question.answered"
  | .nativeQuestionCancelled => "native_question.cancelled"
  | .nativeQuestionDelivered => "native_question.delivered"

def LeaseEvent.text : LeaseEvent → String
  | .acquired => "workspace.lease_acquired"
  | .recovered => "workspace.lease_recovered"
  | .renewed => "workspace.lease_renewed"
  | .expectedShaAdvanced => "workspace.lease_expected_sha_advanced"
  | .released => "workspace.lease_released"
  | .recoveryRequired => "workspace.lease_recovery_required"

def EventType.text : EventType → String
  | .runCreated => "run.created"
  | .runStatusChanged => "run.status_changed"
  | .runSignalled signal => signal.text
  | .runWorkspaceAssigned => "run.workspace_assigned"
  | .runInstructionsSnapshotted => "run.instructions_snapshotted"
  | .runCapability .degraded => "run.capability_degraded"
  | .runCapability .blocked => "run.capability_blocked"
  | .codebaseRegistrationCommitted => "codebase.registration_committed"
  | .codebaseRegistered => "codebase.registered"
  | .repositoryRegistered => "repository.registered"
  | .workspaceRegistered => "workspace.registered"
  | .workspaceProvisioningRecorded => "workspace.provisioning_recorded"
  | .workspaceLease event => event.text
  | .artifactPublished => "artifact.published"
  | .stageCompleted => "stage.completed"

def RunSignal.all : List RunSignal :=
  [.interactionCreated, .interactionAnswerAccepted, .interactionCancelled,
    .interactionAnswerDelivered, .resumeRequested, .resumeDelivered, .nativeQuestionRaised,
    .nativeQuestionAnswered, .nativeQuestionCancelled, .nativeQuestionDelivered]

def LeaseEvent.all : List LeaseEvent :=
  [.acquired, .recovered, .renewed, .expectedShaAdvanced, .released, .recoveryRequired]

def EventType.all : List EventType :=
  [.runCreated, .runStatusChanged, .runWorkspaceAssigned, .runInstructionsSnapshotted,
    .runCapability .degraded, .runCapability .blocked, .codebaseRegistrationCommitted,
    .codebaseRegistered, .repositoryRegistered, .workspaceRegistered,
    .workspaceProvisioningRecorded, .artifactPublished, .stageCompleted] ++
  RunSignal.all.map .runSignalled ++ LeaseEvent.all.map .workspaceLease

/-- The case of the source's `switch` that a type selects. -/
def EventType.ofText? (text : String) : Option EventType := EventType.all.find? (·.text = text)

def EventType.runScoped : EventType → Bool
  | .runCreated | .runStatusChanged | .runWorkspaceAssigned | .runSignalled _ | .runCapability _ =>
    true
  | _ => false

def EventType.stageScoped : EventType → Bool
  | .artifactPublished | .stageCompleted => true
  | _ => false

def reject {α : Type} (event : StateEvent) (reason : String) : Except ReducerError α :=
  .error ⟨event.eventId, event.type, reason⟩

def payloadObject (event : StateEvent) : Except ReducerError Members :=
  match event.payload with
  | .object members => .ok members
  | _ => reject event "payload must be a JSON object"

def requireString (event : StateEvent) (payload : Members) (field : String) :
    Except ReducerError String :=
  match property? payload field with
  | some (.string value) =>
    if value = "" then reject event ("payload." ++ field ++ " must be a non-empty string")
    else .ok value
  | _ => reject event ("payload." ++ field ++ " must be a non-empty string")

def nullableString : Option JsonValue → Option String
  | some (.string value) => some value
  | _ => none

structure RegistrationRepositoryPayload where
  repositoryId : String
  name : String
  path : String
  gitCommonDirectory : String
  remotesJson : String
  defaultRemote : Option String
  defaultBranch : Option String

structure RegistrationPayload where
  codebaseId : String
  name : String
  rootPath : String
  topologySha256 : String
  configurationSha256 : String
  instructionSnapshotJson : String
  registrationJson : String
  repositories : List RegistrationRepositoryPayload

section Readers

variable [NumberText]

def toRegistrationRepository (event : StateEvent) (repository : JsonValue) :
    Except ReducerError RegistrationRepositoryPayload :=
  match repository with
  | .object members =>
    match property? members "remotes" with
    | some (.array remotes) =>
      match nullableString (property? members "repositoryId"),
        nullableString (property? members "name"), nullableString (property? members "path"),
        nullableString (property? members "gitCommonDirectory") with
      | some repositoryId, some name, some path, some gitCommonDirectory =>
        .ok {
          repositoryId, name, path, gitCommonDirectory
          remotesJson := stringify (.array remotes)
          defaultRemote := nullableString (property? members "defaultRemote")
          defaultBranch := nullableString (property? members "defaultBranch") }
      | _, _, _, _ => reject event "registration repository identity is invalid"
    | _ => reject event "registration repository must be an object"
  | _ => reject event "registration repository must be an object"

def requireRegistration (event : StateEvent) (payload : Members) :
    Except ReducerError RegistrationPayload :=
  match property? payload "registration" with
  | some (.object members) =>
    match property? members "repositories", property? members "instructionSnapshot" with
    | some (.array items), some (.object snapshot) => do
        let repositories ← items.mapM (toRegistrationRepository event)
        match nullableString (property? members "codebaseId"),
          nullableString (property? members "name"), nullableString (property? members "rootPath"),
          nullableString (property? members "topologySha256"),
          nullableString (property? members "configurationSha256") with
        | some codebaseId, some name, some rootPath, some topologySha256,
            some configurationSha256 =>
            .ok {
              codebaseId, name, rootPath, topologySha256, configurationSha256, repositories
              instructionSnapshotJson := stringify (.object snapshot)
              registrationJson := stringify (.object members) }
        | _, _, _, _, _ => reject event "registration identity is invalid"
    | _, _ => reject event "registration must be a complete object"
  | _ => reject event "registration must be a complete object"

/-- The digest and the text of the snapshot. -/
def requireInstructionSnapshot (event : StateEvent) (payload : Members) :
    Except ReducerError (String × String) :=
  match property? payload "instructionSnapshot" with
  | some (.object members) =>
    match nullableString (property? members "snapshotSha256") with
    | some sha256 => .ok (sha256, stringify (.object members))
    | none => reject event "instructionSnapshot must be a versioned snapshot"
  | _ => reject event "instructionSnapshot must be a versioned snapshot"

def requireCapabilityLanding (event : StateEvent) (payload : Members) :
    Except ReducerError String :=
  match property? payload "landing" with
  | some (.object members) => .ok (stringify (.object members))
  | _ => reject event "payload.landing must be a JSON object"

end Readers

def optionalWorkspaceId (event : StateEvent) (payload : Members) :
    Except ReducerError (Option String) :=
  match property? payload "workspaceId" with
  | none => .ok none
  | some .null => .ok none
  | some (.string value) =>
    if value = "" then
      reject event "payload.workspaceId must be a non-empty string, null, or omitted"
    else .ok (some value)
  | _ => reject event "payload.workspaceId must be a non-empty string, null, or omitted"

def requireNoNul (event : StateEvent) (field value : String) : Except ReducerError String :=
  if '\x00' ∈ value.toList then
    reject event ("payload." ++ field ++ " must not contain a NUL character")
  else .ok value

def requireRunId (event : StateEvent) (payload : Members) : Except ReducerError String := do
  let value ← requireString event payload "runId"
  let runId ← requireNoNul event "runId" value
  if event.runId = some runId then .ok runId
  else reject event "payload.runId does not match the event's run_id"

def requireStageId (event : StateEvent) (payload : Members) : Except ReducerError String := do
  let value ← requireString event payload "stageId"
  requireNoNul event "stageId" value

def requireName (event : StateEvent) (payload : Members) : Except ReducerError String := do
  let value ← requireString event payload "name"
  requireNoNul event "name" value

def contentHashPattern (value : String) : Bool :=
  decide (value.toList.length = 64) &&
    value.toList.all fun c => decide (c ∈ "0123456789abcdef".toList)

def requireContentHash (event : StateEvent) (payload : Members) (field : String) :
    Except ReducerError String := do
  let value ← requireString event payload field
  if contentHashPattern value then .ok value
  else reject event ("payload." ++ field ++ " must be exactly 64 lowercase hex characters")

def runStatus? (candidate : String) : Option RunStatus :=
  RunStatus.values.find? (·.text = candidate)

def nonNegativeInteger? : Option JsonValue → Option Nat
  | some (.number (.finite value)) =>
    if value.den = 1 ∧ 0 ≤ value then some value.num.toNat else none
  | some (.number .negativeZero) => some 0
  | _ => none

def requireNonNegativeInteger (event : StateEvent) (payload : Members) (field : String) :
    Except ReducerError Nat :=
  match nonNegativeInteger? (property? payload field) with
  | some value => .ok value
  | none => reject event ("payload." ++ field ++ " must be a non-negative integer")

def strings? : Option JsonValue → Option (List String)
  | some (.array items) => items.mapM fun item => nullableString (some item)
  | _ => none

def maxSourceLineageItems : Nat := 64

def requireSourceLineage (event : StateEvent) (payload : Members) (field : String) :
    Except ReducerError (List String) :=
  match strings? (property? payload field) with
  | none => reject event ("payload." ++ field ++ " must be an array of strings")
  | some values =>
    if maxSourceLineageItems < values.length then
      reject event ("payload." ++ field ++ " must not exceed " ++ toString maxSourceLineageItems ++
        " entries (got " ++ toString values.length ++ ")")
    else if values.Nodup then .ok values
    else reject event ("payload." ++ field ++ " must not contain duplicate entries")

structure ArtifactRefPayload where
  artifactId : String
  name : String
  contentHash : String
  byteLength : Nat
  mediaType : String
  contentSchemaId : String
  producer : String
  sourceLineage : List String
  path : String
  deriving DecidableEq

def toArtifactRefPayload (event : StateEvent) (value : JsonValue) (index : Nat) :
    Except ReducerError ArtifactRefPayload :=
  match value with
  | .object members => do
      let artifactId ← requireString event members "artifactId"
      let name ← requireName event members
      let contentHash ← requireContentHash event members "contentHash"
      let byteLength ← requireNonNegativeInteger event members "byteLength"
      let mediaType ← requireString event members "mediaType"
      let contentSchemaId ← requireString event members "contentSchemaId"
      let producer ← requireString event members "producer"
      let sourceLineage ← requireSourceLineage event members "sourceLineage"
      let path ← requireString event members "path"
      .ok {
        artifactId, name, contentHash, byteLength, mediaType, contentSchemaId, producer,
        sourceLineage, path }
  | _ => reject event ("payload.artifacts[" ++ toString index ++ "] must be a JSON object")

/-- The first field in which a row differs from what the reference would have written. -/
def artifactMismatchField (existing : ArtifactState) (runId stageId : String)
    (ref : ArtifactRefPayload) : Option String :=
  if existing.runId ≠ runId then some "runId"
  else if existing.stageId ≠ stageId then some "stageId"
  else if existing.name ≠ ref.name then some "name"
  else if existing.contentHash ≠ ref.contentHash then some "contentHash"
  else if existing.byteLength ≠ ref.byteLength then some "byteLength"
  else if existing.mediaType ≠ ref.mediaType then some "mediaType"
  else if existing.contentSchemaId ≠ ref.contentSchemaId then some "contentSchemaId"
  else if existing.producer ≠ ref.producer then some "producer"
  else if existing.sourceLineage ≠ ref.sourceLineage then some "sourceLineage"
  else if existing.relativePath ≠ ref.path then some "relativePath"
  else none

def artifactRefs (event : StateEvent) :
    (index : Nat) → List JsonValue → Except ReducerError (List ArtifactRefPayload)
  | _, [] => .ok []
  | index, value :: values => do
      let ref ← toArtifactRefPayload event value index
      let refs ← artifactRefs event (index + 1) values
      .ok (ref :: refs)

def requireArtifactRefs (event : StateEvent) (payload : Members) (field : String) :
    Except ReducerError (List ArtifactRefPayload) :=
  match property? payload field with
  | some (.array values) => artifactRefs event 0 values
  | _ => reject event ("payload." ++ field ++ " must be an array")

end Heniek.EventPayloads
