import Heniek.DepthFirst
import Heniek.TaskSourceStore

/-!
The ingestion of task sources. One call reads the store, publishes the content and
records the next revision; nothing else runs in between. The clock, the ids and what a
publication answers are given with the call.
-/

namespace Heniek.TaskIngestion
open KeyedTable ScriptText ExpressionEvaluation CanonicalState CanonicalJson JsonPatch FallibleRun
open TaskSourceStore

inductive Content where
  | text (value : String)
  | bytes (value : List UInt8)
  deriving DecidableEq

structure TaskSourceAttachmentInput where
  uri : String
  name : String
  mediaType : String
  observedVersion : Option String
  content : Content
  deriving DecidableEq

structure ParentHandoff where
  objective : String
  constraints : List String
  decisions : List TaskDecision
  openQuestions : List String
  repositoryReferences : List String
  requirements : List TaskRequirement
  deriving DecidableEq

structure TaskSourceIngestionInput where
  sourceWorkItemId : String
  sourceKind : TaskSourceKind
  sourceUri : String
  observedVersion : String
  rawContent : Content
  handoff : ParentHandoff
  attachments : List TaskSourceAttachmentInput
  trackerEdges : List TrackerEdge
  executionMappings : List ExecutionMapping
  author : String
  reason : String
  externalMetadata : Option ExternalMetadata
  deriving DecidableEq

/-- What the clock, the ids and the publications answer during one call. -/
structure Surroundings where
  now : String
  snapshotId : String
  revisionId : String
  /-- The artifact id of a publication by its position; nothing where it throws. -/
  published : Nat → Option String

/-- The lower-case hexadecimal SHA-256 of some bytes. -/
class Sha256 where
  hex : List UInt8 → String

def utf8 (text : String) : List UInt8 := text.toList.flatMap String.utf8EncodeChar

def bytes : Content → List UInt8
  | .text value => utf8 value
  | .bytes value => value

def sized (least most : Nat) (text : String) : Bool :=
  decide (least ≤ (codeUnits text).length ∧ (codeUnits text).length ≤ most)

def nonEmpty (text : String) : Bool := sized 1 65536 text

def checkRequirement (requirement : TaskRequirement) : Bool :=
  sized 1 256 requirement.requirementId && nonEmpty requirement.text &&
    sized 1 4096 requirement.sourcePointer

def checkDecision (decision : TaskDecision) : Bool :=
  nonEmpty decision.statement && sized 1 1024 decision.author && nonEmpty decision.rationale

def checkList {α : Type} (check : α → Bool) (most : Nat) (items : List α) : Bool :=
  decide (items.length ≤ most) && items.all check

def checkHandoff (handoff : ParentHandoff) : Bool :=
  nonEmpty handoff.objective && checkList nonEmpty 1024 handoff.constraints &&
    checkList checkDecision 1024 handoff.decisions &&
      checkList nonEmpty 1024 handoff.openQuestions &&
    checkList (sized 1 4096) 1024 handoff.repositoryReferences &&
    checkList checkRequirement 4096 handoff.requirements && decide (handoff.requirements ≠ [])

def checkMetadata (metadata : ExternalMetadata) : Bool :=
  decide (metadata.title ≠ "" ∧ "" ∉ metadata.labels ∧ metadata.components ≠ [])

def checkAttachment (attachment : TaskSourceAttachmentInput) : Bool :=
  decide (attachment.uri ≠ "" ∧ attachment.name ≠ "" ∧ attachment.mediaType ≠ "")

def parseInput (input : TaskSourceIngestionInput) : Except TaskSourceError Unit :=
  if input.sourceUri = "" ∨ input.observedVersion = "" ∨ input.author = "" ∨ input.reason = "" ∨
      checkHandoff input.handoff = false then
    .error (.input "input does not satisfy the provider-neutral task-source contract")
  else if input.externalMetadata.any fun metadata => !checkMetadata metadata then
    .error (.input "external metadata does not satisfy the task-source contract")
  else if input.attachments.any fun attachment => !checkAttachment attachment then
    .error (.input "attachment does not satisfy the task-source contract")
  else .ok ()

def documentFrom (handoff : ParentHandoff) : TaskRevisionDocument where
  objective := handoff.objective
  constraints := handoff.constraints
  decisions := handoff.decisions
  openQuestions := handoff.openQuestions
  repositoryReferences := handoff.repositoryReferences
  requirements := handoff.requirements

def textsJson (texts : List String) : JsonValue := .array (texts.map .string)

def decisionJson (decision : TaskDecision) : JsonValue :=
  .object [("author", .string decision.author), ("rationale", .string decision.rationale),
    ("statement", .string decision.statement)]

def requirementJson (requirement : TaskRequirement) : JsonValue :=
  .object [("requirementId", .string requirement.requirementId),
    ("sourcePointer", .string requirement.sourcePointer), ("text", .string requirement.text)]

def requirementsJson (requirements : List TaskRequirement) : JsonValue :=
  .array (requirements.map requirementJson)

def nullable : Option String → JsonValue
  | none => .null
  | some text => .string text

inductive DocumentKey where
  | objective | constraints | decisions | openQuestions | repositoryReferences | requirements
  deriving DecidableEq

def DocumentKey.name : DocumentKey → String
  | .objective => "objective"
  | .constraints => "constraints"
  | .decisions => "decisions"
  | .openQuestions => "openQuestions"
  | .repositoryReferences => "repositoryReferences"
  | .requirements => "requirements"

def DocumentKey.path (key : DocumentKey) : String := "/" ++ key.name

def DocumentKey.all : List DocumentKey :=
  [.objective, .constraints, .decisions, .openQuestions, .repositoryReferences, .requirements]

def field (document : TaskRevisionDocument) : DocumentKey → JsonValue
  | .objective => .string document.objective
  | .constraints => textsJson document.constraints
  | .decisions => .array (document.decisions.map decisionJson)
  | .openQuestions => textsJson document.openQuestions
  | .repositoryReferences => textsJson document.repositoryReferences
  | .requirements => requirementsJson document.requirements

def members (document : TaskRevisionDocument) : Members :=
  ("schemaVersion", .number (.finite 1)) ::
    DocumentKey.all.map fun key => (key.name, field document key)

def json (document : TaskRevisionDocument) : JsonValue := .object (members document)

section Text

variable [NumberText]

def canonicalText (value : JsonValue) : Except TaskSourceError String :=
  (stringifyCanonical value).mapError .state

def differs (value other : JsonValue) : Except TaskSourceError Bool := do
  let text ← canonicalText value
  let otherText ← canonicalText other
  .ok (decide (text ≠ otherText))

def diff (previous next : TaskRevisionDocument) :
    List DocumentKey → Except TaskSourceError (List JsonPatchOperation)
  | [] => .ok []
  | key :: keys => do
      let changed ← differs (field previous key) (field next key)
      let operations ← diff previous next keys
      .ok (if changed then .replace key.path (field next key) :: operations else operations)

def edgeKey (edge : TrackerEdge) : String :=
  edge.parentSourceWorkItemId ++ "\x00" ++ edge.childSourceWorkItemId

def checkEdges (seenEdges : List String) : List TrackerEdge → Except TaskSourceError Unit
  | [] => .ok ()
  | edge :: edges =>
    if edge.parentSourceWorkItemId = edge.childSourceWorkItemId then
      .error (.input "tracker hierarchy cannot contain a self edge")
    else if edgeKey edge ∈ seenEdges then
      .error (.input "tracker hierarchy contains a duplicate edge")
    else checkEdges (edgeKey edge :: seenEdges) edges

def childrenOf (edges : List TrackerEdge) (item : String) : List String :=
  (edges.filter fun edge => edge.parentSourceWorkItemId = item).map
    TrackerEdge.childSourceWorkItemId

def nodesOf (edges : List TrackerEdge) : List String :=
  edges.map TrackerEdge.parentSourceWorkItemId ++ edges.map TrackerEdge.childSourceWorkItemId

/-- The keys of the map of children, in the order of their first edges. -/
def parentsOf (edges : List TrackerEdge) : List String :=
  (edges.map TrackerEdge.parentSourceWorkItemId).reverse.dedup.reverse

def hierarchyFor (input : TaskSourceIngestionInput) (recordedAt : String) :
    Except TaskSourceError TaskHierarchy := do
  checkEdges [] input.trackerEdges
  match DepthFirst.search (childrenOf input.trackerEdges) ((nodesOf input.trackerEdges).length + 1)
      (parentsOf input.trackerEdges) with
  | none => .error (.input "tracker hierarchy contains a cycle")
  | some _ =>
    .ok ⟨input.sourceWorkItemId, input.trackerEdges, input.executionMappings, recordedAt⟩

variable [Sha256]

def attachmentJson (uri name mediaType : String) (observedVersion : Option String)
    (contentSha256 : String) : JsonValue :=
  .object [("contentSha256", .string contentSha256), ("mediaType", .string mediaType),
    ("name", .string name), ("observedVersion", nullable observedVersion), ("uri", .string uri)]

def expectedAttachments (attachments : List TaskSourceAttachmentInput) : JsonValue :=
  .array (attachments.map fun attachment =>
    attachmentJson attachment.uri attachment.name attachment.mediaType attachment.observedVersion
      (Sha256.hex (bytes attachment.content)))

def actualAttachments (attachments : List TaskSourceAttachment) : JsonValue :=
  .array (attachments.map fun attachment =>
    attachmentJson attachment.uri attachment.name attachment.mediaType attachment.observedVersion
      attachment.contentSha256)

/-- What the observed version is compared by when it is met again. -/
def reused (snapshot : TaskSourceSnapshot) (input : TaskSourceIngestionInput) :
    Except TaskSourceError Bool :=
  if snapshot.sourceWorkItemId ≠ input.sourceWorkItemId ∨
      snapshot.contentSha256 ≠ Sha256.hex (bytes input.rawContent) then .ok true
  else do
    let requirements ← differs (requirementsJson snapshot.requirements)
      (requirementsJson input.handoff.requirements)
    if requirements then .ok true
    else differs (actualAttachments snapshot.attachments) (expectedAttachments input.attachments)

def replay (db : Database) (observation : SnapshotRow) (input : TaskSourceIngestionInput) :
    Except TaskSourceError TaskContext := do
  let different ← reused observation.snapshot input
  if different then .error (.conflict "observed source version was reused with different content")
  else
    match db.load input.sourceWorkItemId with
    | some context => .ok context
    | none => .error (.conflict "stored observation has no active revision")

/-- The receipts of the attachments: their records, and the paths under their artifact ids. -/
structure Publication where
  attachments : List TaskSourceAttachment := []
  attachmentRelativePaths : Table fun entry : String × String => entry.1 := .empty

def publishAttachment (surroundings : Surroundings) (publication : Publication)
    (entry : TaskSourceAttachmentInput × Nat) : Except TaskSourceError Publication :=
  match surroundings.published entry.2 with
  | none => .error .artifact
  | some artifactId =>
    let hash := Sha256.hex (bytes entry.1.content)
    .ok ⟨publication.attachments ++ [⟨entry.1.uri, entry.1.name, entry.1.mediaType,
        entry.1.observedVersion, hash, artifactId⟩],
      publication.attachmentRelativePaths.upsert (artifactId, Database.blobPath hash)⟩

def publishAttachments (surroundings : Surroundings)
    (attachments : List TaskSourceAttachmentInput) :
    Except TaskSourceError Publication :=
  (attachments.zipIdx 1).foldlM (publishAttachment surroundings) {}

def snapshotOf (surroundings : Surroundings) (input : TaskSourceIngestionInput)
    (rawContentRef : String)
    (attachments : List TaskSourceAttachment) : TaskSourceSnapshot where
  snapshotId := surroundings.snapshotId
  sourceWorkItemId := input.sourceWorkItemId
  sourceKind := input.sourceKind
  sourceUri := input.sourceUri
  observedVersion := input.observedVersion
  contentSha256 := Sha256.hex (bytes input.rawContent)
  rawContentRef := rawContentRef
  requirements := input.handoff.requirements
  attachments := attachments
  observedAt := surroundings.now
  externalMetadata := input.externalMetadata

def patchFrom (previous : Option TaskContext) (document : TaskRevisionDocument) :
    Except TaskSourceError (List JsonPatchOperation) :=
  match previous with
  | none => .ok []
  | some context => do
      let before := context.activeRevision.document
      let patch ← diff before document DocumentKey.all
      let reconstructed ← (applyTaskRevisionPatch (json before) patch).mapError .patch
      let wrong ← differs reconstructed (json document)
      if wrong then .error (.input "revision patch does not reconstruct the new document")
      else .ok patch

def revisionOf (surroundings : Surroundings) (input : TaskSourceIngestionInput)
    (previous : Option TaskContext) (patch : List JsonPatchOperation) :
    Except TaskSourceError TaskRevision := do
  let document := documentFrom input.handoff
  let text ← canonicalText (json document)
  .ok {
    revisionId := surroundings.revisionId
    sourceWorkItemId := input.sourceWorkItemId
    ordinal := ((previous.map fun context => context.activeRevision.ordinal).getD 0) + 1
    revisionSha256 := Sha256.hex (utf8 text)
    predecessorRevisionId := previous.map fun context => context.activeRevision.revisionId
    predecessorRevisionSha256 := previous.map fun context => context.activeRevision.revisionSha256
    sourceSnapshotId := surroundings.snapshotId
    author := input.author
    reason := input.reason
    patch := patch
    document := document
    supersededByRevisionId := none
    createdAt := surroundings.now }

def sourceChanged (previous : Option TaskContext) (input : TaskSourceIngestionInput) : Bool :=
  previous.any fun context =>
    decide (context.snapshot.sourceUri ≠ input.sourceUri ∨
      context.snapshot.sourceKind ≠ input.sourceKind)

def observe (db : Database) (surroundings : Surroundings) (input : TaskSourceIngestionInput) :
    Except TaskSourceError (TaskContext × Database) := do
  let previous := db.load input.sourceWorkItemId
  if sourceChanged previous input then
    .error (.conflict "source identity cannot change across revisions")
  else
    match surroundings.published 0 with
    | none => .error .artifact
    | some rawContentRef => do
        let publication ← publishAttachments surroundings input.attachments
        let patch ← patchFrom previous (documentFrom input.handoff)
        let revision ← revisionOf surroundings input previous patch
        let hierarchy ← hierarchyFor input surroundings.now
        db.record {
          snapshot := snapshotOf surroundings input rawContentRef publication.attachments
          rawRelativePath := Database.blobPath (Sha256.hex (bytes input.rawContent))
          attachmentRelativePaths := publication.attachmentRelativePaths
          revision := revision
          hierarchy := hierarchy }

/-- `load`: the context that is returned, and the database afterwards. -/
def load (db : Database) (surroundings : Surroundings) (input : TaskSourceIngestionInput) :
    Except TaskSourceError (TaskContext × Database) := do
  parseInput input
  match db.findObservation input.sourceUri input.observedVersion with
  | some observation => (replay db observation input).map fun context => (context, db)
  | none => observe db surroundings input

variable {db after : Database} {surroundings : Surroundings} {input : TaskSourceIngestionInput}
  {context : TaskContext}

/-- The record of a new observation, by what it was made from. -/
structure Observed (db : Database) (surroundings : Surroundings) (input : TaskSourceIngestionInput)
    (record : RecordTaskContextInput) : Prop where
  rawContent : ∃ rawContentRef, surroundings.published 0 = some rawContentRef ∧
    record.snapshot = snapshotOf surroundings input rawContentRef record.snapshot.attachments
  attachments : ∃ paths, publishAttachments surroundings input.attachments =
    .ok ⟨record.snapshot.attachments, paths⟩
  patch : patchFrom (db.load input.sourceWorkItemId) (documentFrom input.handoff) =
    .ok record.revision.patch
  revision : revisionOf surroundings input (db.load input.sourceWorkItemId) record.revision.patch =
    .ok record.revision
  hierarchy : hierarchyFor input surroundings.now = .ok record.hierarchy

theorem observe_ok (ran : observe db surroundings input = .ok (context, after)) :
    ∃ record, Observed db surroundings input record ∧ Wrote db record after := by
  unfold observe at ran
  dsimp only at ran
  split_ifs at ran
  split at ran
  · cases ran
  · rename_i rawContentRef published
    obtain ⟨publication, attachments, ran⟩ := bind_eq_ok.mp ran
    obtain ⟨patch, patched, ran⟩ := bind_eq_ok.mp ran
    obtain ⟨revision, revised, ran⟩ := bind_eq_ok.mp ran
    obtain ⟨hierarchy, built, ran⟩ := bind_eq_ok.mp ran
    have named : revision.patch = patch := by
      obtain ⟨_, _, revised⟩ := bind_eq_ok.mp revised
      cases revised
      rfl
    rw [← named] at patched revised
    obtain ⟨written, wrote, ran⟩ := bind_eq_ok.mp ran
    split at ran
    · cases ran
      exact ⟨_,
        ⟨⟨rawContentRef, published, rfl⟩, ⟨publication.attachmentRelativePaths, attachments⟩,
        patched, revised, built⟩, wrote_of_write wrote⟩
    · cases ran

theorem load_ok (ran : load db surroundings input = .ok (context, after)) :
    (∃ observation, db.findObservation input.sourceUri input.observedVersion = some observation ∧
      replay db observation input = .ok context ∧ after = db) ∨
    (db.findObservation input.sourceUri input.observedVersion = none ∧
      ∃ record, Observed db surroundings input record ∧ Wrote db record after) := by
  obtain ⟨_, _, ran⟩ := bind_eq_ok.mp ran
  split at ran
  · rename_i observation found
    obtain ⟨_, replayed, same⟩ := map_eq_ok.mp ran
    cases same
    exact .inl ⟨observation, found, replayed, rfl⟩
  · rename_i unobserved
    exact .inr ⟨unobserved, observe_ok ran⟩

structure Call where
  surroundings : Surroundings
  input : TaskSourceIngestionInput

/-- The databases after calls that are each admitted where they are accepted. -/
inductive Ingested (admits : Database → Call → Prop) : (accepted : List Call) → Database → Prop
  | start : Ingested admits [] {}
  | accepted {past : List Call} {db after : Database} {call : Call} {context : TaskContext}
      (run : Ingested admits past db) (admitted : admits db call)
      (loaded : load db call.surroundings call.input = .ok (context, after)) :
      Ingested admits (past ++ [call]) after
  | rejected {past : List Call} {db : Database} {call : Call} {reason : TaskSourceError}
      (run : Ingested admits past db)
      (refused : load db call.surroundings call.input = .error reason) : Ingested admits past db

def accepts (db : Database) (call : Call) : Bool :=
  match load db call.surroundings call.input with
  | .ok _ => true
  | .error _ => false

def afterwards (db : Database) (call : Call) : Database :=
  match load db call.surroundings call.input with
  | .ok result => result.2
  | .error _ => db

theorem Ingested.next {admits : Database → Call → Prop} {past : List Call} {call : Call}
    (run : Ingested admits past db) (admitted : admits db call) (taken : accepts db call = true) :
    Ingested admits (past ++ [call]) (afterwards db call) := by
  unfold accepts at taken
  unfold afterwards
  split at taken
  · rename_i result loaded
    exact .accepted run admitted loaded
  · cases taken

end Text

/-- A content that is the canonical text of the document it is handed over with. -/
def sampleContent : String :=
  "\x7b\"constraints\":[],\"decisions\":[],\"objective\":\"o\",\"openQuestions\":[]," ++
    "\"repositoryReferences\":[],\"requirements\":[\x7b\"requirementId\":\"r\"," ++
    "\"sourcePointer\":\"/\",\"text\":\"t\"\x7d],\"schemaVersion\":1\x7d"

/-- The digest of that text, for calls that hash nothing else. -/
@[reducible] def sampleDigest : Sha256 :=
  ⟨fun _ => "346449a16a32fd5654142a258e0e9056adb32c9060037018ea6d3e226b832f4d"⟩

def sampleCall (version objective : String) (edges : List TrackerEdge) : Call where
  surroundings := {
    now := "2026-01-01T00:00:00.000Z"
    snapshotId := "source-snapshot-" ++ version
    revisionId := "task-revision-" ++ version
    published := fun _ => some "art-1" }
  input := {
    sourceWorkItemId := "a"
    sourceKind := .githubIssue
    sourceUri := "https://host/issues/1"
    observedVersion := version
    rawContent := .text sampleContent
    handoff := ⟨objective, [], [], [], [], [⟨"r", "t", "/"⟩]⟩
    attachments := []
    trackerEdges := edges
    executionMappings := []
    author := "maintainer"
    reason := "observed"
    externalMetadata := none }

end Heniek.TaskIngestion
