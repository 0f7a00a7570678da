import Heniek.JsonPatch

/-!
The store of task sources: immutable snapshots and revisions, the projection of the
active revision, and the tracker hierarchy. A row holds the record its JSON column is
read back as, and its other columns are fields of that record. Update proposals and
synchronisations are left out: an ingestion writes none, and the contexts it reads then
have no pending updates.
-/

namespace Heniek.TaskSourceStore
open KeyedTable ScriptText JsonPatch FallibleRun

inductive TaskSourceKind where
  | parentConversation | manualText | githubIssue | githubPullRequest | localFile
  | existingBranchOrPr
  deriving DecidableEq

structure TaskRequirement where
  requirementId : String
  text : String
  sourcePointer : String
  deriving DecidableEq

structure TaskDecision where
  statement : String
  author : String
  rationale : String
  deriving DecidableEq

structure TaskRevisionDocument where
  objective : String
  constraints : List String
  decisions : List TaskDecision
  openQuestions : List String
  repositoryReferences : List String
  requirements : List TaskRequirement
  deriving DecidableEq

structure TaskSourceAttachment where
  uri : String
  name : String
  mediaType : String
  observedVersion : Option String
  contentSha256 : String
  artifactId : String
  deriving DecidableEq

inductive TaskSourceState where
  | opened | closed
  deriving DecidableEq

structure TaskSourceComment where
  sourceCommentId : String
  uri : String
  author : String
  bodySha256 : String
  observedVersion : String
  createdAt : String
  updatedAt : String
  deriving DecidableEq

structure TaskSourceComponentObservation where
  componentId : String
  uri : String
  observedVersion : String
  contentSha256 : String
  deriving DecidableEq

structure ExternalMetadata where
  title : String
  state : TaskSourceState
  labels : List String
  comments : List TaskSourceComment
  components : List TaskSourceComponentObservation
  deriving DecidableEq

structure TaskSourceSnapshot where
  snapshotId : String
  sourceWorkItemId : String
  sourceKind : TaskSourceKind
  sourceUri : String
  observedVersion : String
  contentSha256 : String
  rawContentRef : String
  requirements : List TaskRequirement
  attachments : List TaskSourceAttachment
  observedAt : String
  externalMetadata : Option ExternalMetadata
  deriving DecidableEq

def TaskSourceSnapshot.schemaVersion (snapshot : TaskSourceSnapshot) : Nat :=
  if snapshot.externalMetadata.isSome then 2 else 1

structure TaskRevision where
  revisionId : String
  sourceWorkItemId : String
  ordinal : Nat
  revisionSha256 : String
  predecessorRevisionId : Option String
  predecessorRevisionSha256 : Option String
  sourceSnapshotId : String
  author : String
  reason : String
  patch : List JsonPatchOperation
  document : TaskRevisionDocument
  supersededByRevisionId : Option String
  createdAt : String

structure TrackerEdge where
  parentSourceWorkItemId : String
  childSourceWorkItemId : String
  deriving DecidableEq

structure ExecutionMapping where
  sourceWorkItemId : String
  executionTaskIds : List String
  deriving DecidableEq

structure TaskHierarchy where
  rootSourceWorkItemId : String
  trackerEdges : List TrackerEdge
  executionMappings : List ExecutionMapping
  recordedAt : String
  deriving DecidableEq

structure TaskContext where
  snapshot : TaskSourceSnapshot
  activeRevision : TaskRevision
  hierarchy : TaskHierarchy

def TaskContext.schemaVersion (context : TaskContext) : Nat := context.snapshot.schemaVersion

structure SnapshotRow where
  snapshot : TaskSourceSnapshot
  rawRelativePath : String
  deriving DecidableEq

inductive ArtifactRole where
  | source | attachment
  deriving DecidableEq

structure ArtifactRow where
  snapshotId : String
  artifactId : String
  role : ArtifactRole
  contentHash : String
  relativePath : String
  deriving DecidableEq

structure ComponentRow where
  snapshotId : String
  component : TaskSourceComponentObservation
  deriving DecidableEq

structure ProjectionRow where
  sourceWorkItemId : String
  activeRevisionId : String
  revision : Nat
  updatedAt : String
  deriving DecidableEq

structure TrackerEdgeRow where
  rootSourceWorkItemId : String
  edge : TrackerEdge
  recordedAt : String
  deriving DecidableEq

structure ExecutionMappingRow where
  rootSourceWorkItemId : String
  sourceWorkItemId : String
  executionTaskId : String
  recordedAt : String
  deriving DecidableEq

structure Database where
  snapshots : Table fun row : SnapshotRow => row.snapshot.snapshotId := .empty
  artifacts : Table fun row : ArtifactRow => (row.snapshotId, row.artifactId) := .empty
  components : Table fun row : ComponentRow => (row.snapshotId, row.component.componentId) := .empty
  revisions : Table TaskRevision.revisionId := .empty
  projections : Table ProjectionRow.sourceWorkItemId := .empty
  trackerEdges : Table fun row : TrackerEdgeRow => (row.rootSourceWorkItemId, row.edge) := .empty
  executionMappings :
    Table fun row : ExecutionMappingRow =>
      (row.rootSourceWorkItemId, row.sourceWorkItemId, row.executionTaskId) := .empty

inductive TaskSourceError where
  | input (message : String)
  | conflict (message : String)
  | patch (message : String)
  | state (message : String)
  | artifact
  | constraint (message : String)
  deriving DecidableEq

namespace Database

def findObservation (db : Database) (sourceUri observedVersion : String) : Option SnapshotRow :=
  db.snapshots.rows.find? fun row =>
    row.snapshot.sourceUri = sourceUri ∧ row.snapshot.observedVersion = observedVersion

def edgeBefore (a b : TrackerEdge) : Bool :=
  binaryBefore a.parentSourceWorkItemId b.parentSourceWorkItemId ||
    decide (a.parentSourceWorkItemId = b.parentSourceWorkItemId) &&
      binaryBefore a.childSourceWorkItemId b.childSourceWorkItemId

def trackerEdgesOf (db : Database) (root : String) : List TrackerEdge :=
  ((db.trackerEdges.rows.filter fun row => row.rootSourceWorkItemId = root).map
    TrackerEdgeRow.edge).insertionSort fun a b => edgeBefore b a = false

def mappingBefore (a b : ExecutionMappingRow) : Bool :=
  binaryBefore a.sourceWorkItemId b.sourceWorkItemId ||
    decide (a.sourceWorkItemId = b.sourceWorkItemId) &&
      binaryBefore a.executionTaskId b.executionTaskId

def executionMappingsOf (db : Database) (root : String) : List ExecutionMapping :=
  let flat :=
    (db.executionMappings.rows.filter fun row => row.rootSourceWorkItemId = root).insertionSort
    fun a b => mappingBefore b a = false
  ((flat.map ExecutionMappingRow.sourceWorkItemId).dedup).map fun item =>
    ⟨item,
      (flat.filter fun row => row.sourceWorkItemId = item).map ExecutionMappingRow.executionTaskId⟩

def hierarchy (db : Database) (root recordedAt : String) : TaskHierarchy where
  rootSourceWorkItemId := root
  trackerEdges := db.trackerEdgesOf root
  executionMappings := db.executionMappingsOf root
  recordedAt := recordedAt

/-- `ORDER BY observed_at DESC, snapshot_id DESC`. -/
def observedLater (a b : SnapshotRow) : Bool :=
  binaryBefore b.snapshot.observedAt a.snapshot.observedAt ||
    decide (b.snapshot.observedAt = a.snapshot.observedAt) &&
      binaryBefore b.snapshot.snapshotId a.snapshot.snapshotId

def latestSnapshot (db : Database) (sourceWorkItemId : String) : Option SnapshotRow :=
  ((db.snapshots.rows.filter fun row => row.snapshot.sourceWorkItemId =
    sourceWorkItemId).insertionSort
    fun a b => observedLater b a = false).head?

def load (db : Database) (sourceWorkItemId : String) : Option TaskContext := do
  let projection ← db.projections.find? sourceWorkItemId
  let revision ← db.revisions.find? projection.activeRevisionId
  let active ← db.snapshots.find? revision.sourceSnapshotId
  let latest := (db.latestSnapshot sourceWorkItemId).getD active
  some ⟨latest.snapshot, { revision with supersededByRevisionId := none },
    db.hierarchy sourceWorkItemId projection.updatedAt⟩

def lowerHex (c : Char) : Bool := c.isDigit || decide ('a' ≤ c ∧ c ≤ 'f')

def isSha256 (text : String) : Bool := decide (text.toList.length = 64) && text.toList.all lowerHex

def blobPath (contentHash : String) : String := "blobs/sha256/" ++ contentHash

def insertSnapshot (db : Database) (row : SnapshotRow) : Except TaskSourceError Database :=
  if (db.findObservation row.snapshot.sourceUri row.snapshot.observedVersion).isSome then
    .error (.constraint "UNIQUE (source_uri, observed_version)")
  else if isSha256 row.snapshot.contentSha256 = false ∨
      row.rawRelativePath ≠ blobPath row.snapshot.contentSha256 then
    .error (.constraint "CHECK task_source_snapshot")
  else
    match db.snapshots.insert? row with
    | some snapshots => .ok { db with snapshots := snapshots }
    | none => .error (.constraint "PRIMARY KEY task_source_snapshot")

def continuesExactly (db : Database) (revision : TaskRevision) : Bool :=
  decide (revision.ordinal ≤ 1) ||
    match revision.predecessorRevisionId.bind db.revisions.find? with
    | some predecessor =>
      decide (predecessor.sourceWorkItemId = revision.sourceWorkItemId ∧
        predecessor.ordinal + 1 = revision.ordinal)
    | none => false

def insertRevision (db : Database) (revision : TaskRevision) : Except TaskSourceError Database :=
  if continuesExactly db revision = false then
    .error (.constraint "task revision must continue the exact predecessor chain")
  else if revision.ordinal < 1 ∨ isSha256 revision.revisionSha256 = false ∨
      decide (revision.ordinal = 1) ≠ revision.predecessorRevisionId.isNone then
    .error (.constraint "CHECK task_revision")
  else if db.revisions.rows.any fun row =>
      decide (row.sourceWorkItemId = revision.sourceWorkItemId ∧
        row.ordinal = revision.ordinal) then
    .error (.constraint "UNIQUE (source_work_item_id, ordinal)")
  else if revision.sourceSnapshotId ∉ db.snapshots.keys then
    .error (.constraint "FOREIGN KEY snapshot_id")
  else
    match db.revisions.insert? revision with
    | some revisions => .ok { db with revisions := revisions }
    | none => .error (.constraint "PRIMARY KEY task_revision")

def insertArtifact (db : Database) (row : ArtifactRow) : Except TaskSourceError Database :=
  if isSha256 row.contentHash = false ∨ row.relativePath ≠ blobPath row.contentHash then
    .error (.constraint "CHECK task_source_artifact")
  else
    match db.artifacts.insert? row with
    | some artifacts => .ok { db with artifacts := artifacts }
    | none => .error (.constraint "PRIMARY KEY task_source_artifact")

def insertComponent (snapshotId : String) (db : Database)
    (component : TaskSourceComponentObservation) : Except TaskSourceError Database :=
  if isSha256 component.contentSha256 = false then
    .error (.constraint "CHECK task_source_component_observation")
  else
    match db.components.insert? ⟨snapshotId, component⟩ with
    | some components => .ok { db with components := components }
    | none => .error (.constraint "PRIMARY KEY task_source_component_observation")

/-- `INSERT OR IGNORE`, which ignores a row that its check refuses as well. -/
def insertEdge (root recordedAt : String) (db : Database) (edge : TrackerEdge) : Database :=
  if edge.parentSourceWorkItemId = edge.childSourceWorkItemId then db
  else { db with trackerEdges := db.trackerEdges.insertOrIgnore ⟨root, edge, recordedAt⟩ }

def insertMapping (root recordedAt : String) (db : Database)
    (mapping : ExecutionMapping) : Database :=
  mapping.executionTaskIds.foldl
    (fun db executionTaskId =>
      { db with
        executionMappings := db.executionMappings.insertOrIgnore
          ⟨root, mapping.sourceWorkItemId, executionTaskId, recordedAt⟩ }) db

end Database

structure RecordTaskContextInput where
  snapshot : TaskSourceSnapshot
  rawRelativePath : String
  attachmentRelativePaths : Table fun entry : String × String => entry.1
  revision : TaskRevision
  hierarchy : TaskHierarchy

def insertAttachment (input : RecordTaskContextInput) (db : Database)
    (attachment : TaskSourceAttachment) : Except TaskSourceError Database :=
  match input.attachmentRelativePaths.find? attachment.artifactId with
  | none => .error (.state ("missing published attachment " ++ attachment.artifactId))
  | some entry =>
    db.insertArtifact ⟨input.snapshot.snapshotId, attachment.artifactId, .attachment,
      attachment.contentSha256, entry.2⟩

namespace Database

def activeRevision (db : Database) (sourceWorkItemId : String) : Option TaskRevision := do
  let projection ← db.projections.find? sourceWorkItemId
  db.revisions.find? projection.activeRevisionId

def continues (previous : Option TaskRevision) (revision : TaskRevision) : Bool :=
  match previous with
  | none => decide (revision.ordinal = 1 ∧ revision.predecessorRevisionId = none)
  | some active =>
    decide (revision.ordinal = active.ordinal + 1 ∧
      revision.predecessorRevisionId = some active.revisionId)

def componentsOf (snapshot : TaskSourceSnapshot) : List TaskSourceComponentObservation :=
  (snapshot.externalMetadata.map ExternalMetadata.components).getD []

def project (db : Database) (previous : Option TaskRevision) (input : RecordTaskContextInput) :
    Except TaskSourceError Database :=
  match previous with
  | none =>
    match db.projections.insert? ⟨input.snapshot.sourceWorkItemId, input.revision.revisionId, 1,
      input.revision.createdAt⟩ with
    | some projections => .ok { db with projections := projections }
    | none => .error (.constraint "PRIMARY KEY task_revision_projection")
  | some _ =>
    .ok { db with
      projections := db.projections.modify input.snapshot.sourceWorkItemId
        (fun row =>
          { row with
            activeRevisionId := input.revision.revisionId
            revision := row.revision + 1
            updatedAt := input.revision.createdAt })
        fun _ => rfl }

/-- The statements of `record`, up to the read of the recorded context. -/
def write (db : Database) (input : RecordTaskContextInput) : Except TaskSourceError Database := do
  let previous := db.activeRevision input.snapshot.sourceWorkItemId
  if continues previous input.revision = false then
    .error (.state "task revision must continue the exact active predecessor")
  else do
    let db ← db.insertSnapshot ⟨input.snapshot, input.rawRelativePath⟩
    let db ← db.insertRevision input.revision
    let db ← db.insertArtifact ⟨input.snapshot.snapshotId, input.snapshot.rawContentRef, .source,
      input.snapshot.contentSha256, input.rawRelativePath⟩
    let db ← input.snapshot.attachments.foldlM (insertAttachment input) db
    let db ← (componentsOf input.snapshot).foldlM (insertComponent input.snapshot.snapshotId) db
    let db ← db.project previous input
    let db := input.hierarchy.trackerEdges.foldl
      (insertEdge input.hierarchy.rootSourceWorkItemId input.hierarchy.recordedAt) db
    .ok (input.hierarchy.executionMappings.foldl
      (insertMapping input.hierarchy.rootSourceWorkItemId input.hierarchy.recordedAt) db)

/-- `record`, one transaction: what it throws leaves the database as it was. -/
def record (db : Database) (input : RecordTaskContextInput) :
    Except TaskSourceError (TaskContext × Database) := do
  let written ← db.write input
  match written.load input.snapshot.sourceWorkItemId with
  | some context => .ok (context, written)
  | none => .error (.state "recorded task context could not be loaded")

end Database

section Left

variable {db after : Database}

theorem insertSnapshot_ok {row : SnapshotRow} (inserted : db.insertSnapshot row = .ok after) :
    db.findObservation row.snapshot.sourceUri row.snapshot.observedVersion = none ∧
      row.snapshot.snapshotId ∉ db.snapshots.keys ∧
      after = { db with snapshots := db.snapshots.upsert row } := by
  unfold Database.insertSnapshot at inserted
  split_ifs at inserted with observed
  split at inserted
  · rename_i snapshots added
    obtain ⟨fresh, rfl⟩ := Table.insert?_eq_some.mp added
    exact ⟨Option.not_isSome_iff_eq_none.mp observed, fresh, (Except.ok.inj inserted).symm⟩
  · cases inserted

theorem insertRevision_ok {revision : TaskRevision}
    (inserted : db.insertRevision revision = .ok after) :
    db.continuesExactly revision = true ∧ revision.revisionId ∉ db.revisions.keys ∧
      after = { db with revisions := db.revisions.upsert revision } := by
  unfold Database.insertRevision at inserted
  split_ifs at inserted with broken
  split at inserted
  · rename_i revisions added
    obtain ⟨fresh, rfl⟩ := Table.insert?_eq_some.mp added
    exact ⟨by simpa using broken, fresh, (Except.ok.inj inserted).symm⟩
  · cases inserted

/-- Rows beside the snapshots and the revisions. -/
def Beside (db after : Database) : Prop :=
  ∃ artifacts components, after = { db with artifacts := artifacts, components := components }

theorem beside_refl (db : Database) : Beside db db := ⟨db.artifacts, db.components, rfl⟩

theorem Beside.trans {db middle after : Database} (first : Beside db middle)
    (second : Beside middle after) : Beside db after := by
  obtain ⟨_, _, rfl⟩ := first
  obtain ⟨artifacts, components, rfl⟩ := second
  exact ⟨artifacts, components, rfl⟩

theorem beside_foldlM {α : Type} {act : Database → α → Except TaskSourceError Database}
    (each : ∀ item before after, act before item = .ok after → Beside before after) {items : List α}
    (ran : items.foldlM act db = .ok after) : Beside db after := by
  induction items generalizing db with
  | nil =>
    cases ran
    exact beside_refl _
  | cons item items ih =>
    obtain ⟨middle, first, rest⟩ := foldlM_cons_eq_ok.mp ran
    exact (each item db middle first).trans (ih rest)

theorem beside_artifact {row : ArtifactRow} (inserted : db.insertArtifact row = .ok after) :
    Beside db after := by
  unfold Database.insertArtifact at inserted
  split_ifs at inserted
  split at inserted
  · rename_i artifacts _
    cases inserted
    exact ⟨artifacts, db.components, rfl⟩
  · cases inserted

variable {input : RecordTaskContextInput}

theorem beside_attachment {attachment : TaskSourceAttachment}
    (inserted : insertAttachment input db attachment = .ok after) : Beside db after := by
  unfold insertAttachment at inserted
  split at inserted
  · cases inserted
  · exact beside_artifact inserted

theorem beside_component {snapshotId : String} {component : TaskSourceComponentObservation}
    (inserted : db.insertComponent snapshotId component = .ok after) : Beside db after := by
  unfold Database.insertComponent at inserted
  split_ifs at inserted
  split at inserted
  · rename_i components _
    cases inserted
    exact ⟨db.artifacts, components, rfl⟩
  · cases inserted

theorem project_ok {previous : Option TaskRevision}
    (projected : db.project previous input = .ok after)
    (known : previous.isSome = true →
      ∃ row, db.projections.find? input.snapshot.sourceWorkItemId = some row) :
    ∃ count, after = { db with
      projections := db.projections.upsert ⟨input.snapshot.sourceWorkItemId,
        input.revision.revisionId, count, input.revision.createdAt⟩ } := by
  unfold Database.project at projected
  split at projected
  · split at projected
    · rename_i projections added
      obtain ⟨_, rfl⟩ := Table.insert?_eq_some.mp added
      exact ⟨1, (Except.ok.inj projected).symm⟩
    · cases projected
  · obtain ⟨row, found⟩ := known rfl
    have named : row.sourceWorkItemId = input.snapshot.sourceWorkItemId := Table.key_of_find? found
    rw [Table.modify_eq_upsert found, named] at projected
    exact ⟨row.revision + 1, (Except.ok.inj projected).symm⟩

theorem projection_of_active (db : Database) {item : String}
    (known : (db.activeRevision item).isSome = true) :
    ∃ row, db.projections.find? item = some row := by
  obtain ⟨active, found⟩ := Option.isSome_iff_exists.mp known
  obtain ⟨row, projected, _⟩ := Option.bind_eq_some_iff.mp found
  exact ⟨row, projected⟩

def edgeRows (hierarchy : TaskHierarchy) : List TrackerEdgeRow :=
  (hierarchy.trackerEdges.filter fun edge =>
    edge.parentSourceWorkItemId ≠ edge.childSourceWorkItemId).map fun edge =>
      ⟨hierarchy.rootSourceWorkItemId, edge, hierarchy.recordedAt⟩

theorem foldl_insertEdge (root recordedAt : String) (edges : List TrackerEdge) (db : Database) :
    edges.foldl (Database.insertEdge root recordedAt) db = { db with
      trackerEdges := (edgeRows ⟨root, edges, [], recordedAt⟩).foldl Table.insertOrIgnore
        db.trackerEdges } := by
  induction edges generalizing db with
  | nil => rfl
  | cons edge edges ih =>
    rw [List.foldl_cons, ih, Database.insertEdge]
    by_cases loop : edge.parentSourceWorkItemId = edge.childSourceWorkItemId <;>
      simp [loop, edgeRows]

theorem foldl_insertMapping (root recordedAt : String) (mappings : List ExecutionMapping)
    (db : Database) : ∃ rows, mappings.foldl (Database.insertMapping root recordedAt) db =
      { db with executionMappings := rows } := by
  have one : ∀ (ids : List String) (item : String) (db : Database), ∃ rows,
      ids.foldl (fun db executionTaskId => { db with
        executionMappings := db.executionMappings.insertOrIgnore
          ⟨root, item, executionTaskId, recordedAt⟩ }) db =
            { db with executionMappings := rows } := by
    intro ids item
    induction ids with
    | nil => exact fun db => ⟨db.executionMappings, rfl⟩
    | cons id ids ih =>
      intro db
      obtain ⟨rows, same⟩ := ih { db with
        executionMappings := db.executionMappings.insertOrIgnore ⟨root, item, id, recordedAt⟩ }
      exact ⟨rows, by rw [List.foldl_cons, same]⟩
  induction mappings generalizing db with
  | nil => exact ⟨db.executionMappings, rfl⟩
  | cons mapping mappings ih =>
    obtain ⟨first, here⟩ := one mapping.executionTaskIds mapping.sourceWorkItemId db
    obtain ⟨rows, same⟩ := ih { db with executionMappings := first }
    exact ⟨rows, by rw [List.foldl_cons, Database.insertMapping, here, same]⟩

/-- The tables that matter after a record, and what was checked before. -/
structure Wrote (db : Database) (input : RecordTaskContextInput) (after : Database) : Prop where
  continued :
    Database.continues (db.activeRevision input.snapshot.sourceWorkItemId) input.revision = true
  unobserved : db.findObservation input.snapshot.sourceUri input.snapshot.observedVersion = none
  chained : db.continuesExactly input.revision = true
  freshSnapshot : input.snapshot.snapshotId ∉ db.snapshots.keys
  freshRevision : input.revision.revisionId ∉ db.revisions.keys
  snapshots : after.snapshots = db.snapshots.upsert ⟨input.snapshot, input.rawRelativePath⟩
  revisions : after.revisions = db.revisions.upsert input.revision
  projections : ∃ count, after.projections = db.projections.upsert ⟨input.snapshot.sourceWorkItemId,
    input.revision.revisionId, count, input.revision.createdAt⟩
  trackerEdges : after.trackerEdges =
    (edgeRows input.hierarchy).foldl Table.insertOrIgnore db.trackerEdges

theorem wrote_of_write (written : db.write input = .ok after) : Wrote db input after := by
  unfold Database.write at written
  dsimp only at written
  split_ifs at written with broken
  obtain ⟨withSnapshot, snapshot, written⟩ := bind_eq_ok.mp written
  obtain ⟨unobserved, freshSnapshot, rfl⟩ := insertSnapshot_ok snapshot
  obtain ⟨withRevision, revision, written⟩ := bind_eq_ok.mp written
  obtain ⟨chained, freshRevision, rfl⟩ := insertRevision_ok revision
  obtain ⟨withArtifact, artifact, written⟩ := bind_eq_ok.mp written
  obtain ⟨withAttachments, attachments, written⟩ := bind_eq_ok.mp written
  obtain ⟨withComponents, components, written⟩ := bind_eq_ok.mp written
  obtain ⟨withProjection, projection, written⟩ := bind_eq_ok.mp written
  obtain ⟨artifactRows, componentRows, rfl⟩ := ((beside_artifact artifact).trans
    (beside_foldlM (fun _ _ _ => beside_attachment) attachments)).trans
    (beside_foldlM (fun _ _ _ => beside_component) components)
  obtain ⟨count, rfl⟩ := project_ok projection (projection_of_active db)
  rw [foldl_insertEdge] at written
  obtain ⟨mappings, mapped⟩ := foldl_insertMapping input.hierarchy.rootSourceWorkItemId
    input.hierarchy.recordedAt input.hierarchy.executionMappings _
  rw [mapped] at written
  cases written
  exact {
    continued := by simpa using broken
    unobserved := unobserved
    chained := chained
    freshSnapshot := freshSnapshot
    freshRevision := freshRevision
    snapshots := rfl
    revisions := rfl
    projections := ⟨count, rfl⟩
    trackerEdges := rfl }

end Left

end Heniek.TaskSourceStore
