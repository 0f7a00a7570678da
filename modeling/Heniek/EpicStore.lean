import Heniek.GraphRevision

/-!
The stores of an epic run above its tasks: the recorded revisions of the task graph
with the active one, and the hidden dependencies found with the replans they cause.
An operation is one transaction. A persisted text is compared as the data it is the
canonical text of. The form of a hash and the existence of the run are not checked
here: every hash is a digest, and the run exists.
-/

namespace Heniek.EpicStore
open KeyedTable ScriptText RecoveryPolicy PipelineStore TaskGraph GraphRevision

structure GraphProjection where
  runId : String
  graphId : String
  activeGraphRevision : Nat
  activeRevisionSha256 : String
  projectionRevision : Nat
  deriving DecidableEq

abbrev RevisionTable :=
  Table fun record : TaskGraphRevisionRecord => (record.runId, record.graphRevision)

structure GraphDatabase where
  revisions : RevisionTable
  projections : Table GraphProjection.runId
  decisions : Table TaskGraphRevisionDecision.decisionId

def emptyGraphs : GraphDatabase := ⟨.empty, .empty, .empty⟩

inductive GraphStoreError where
  | constraint
  | initial
  | alreadyInitialized
  | notInitialized
  | compareAndSet
  deriving DecidableEq

abbrev GraphResult (α : Type) := Except GraphStoreError α

def activeGraph (db : GraphDatabase) (runId : String) : Option TaskGraphRevisionRecord :=
  (db.projections.find? runId).bind fun projection =>
    db.revisions.find? (runId, projection.activeGraphRevision)

/-- The constraints of a record besides its primary key, its exact predecessor included. -/
def recordAdmissible (db : GraphDatabase) (record : TaskGraphRevisionRecord) : Bool :=
  (db.revisions.rows.all fun other => decide (¬ (other.runId = record.runId ∧
    other.revisionSha256 = record.revisionSha256))) &&
  decide (1 ≤ record.graphRevision ∧
    (record.graphRevision = 1 ↔ record.predecessorRevisionSha256 = none) ∧
    (record.graphRevision = 1 ↔ record.decisionId = none) ∧
    (∀ decisionId ∈ record.decisionId, decisionId ∈ db.decisions.keys)) &&
  (decide (record.graphRevision = 1) || db.revisions.rows.any fun predecessor =>
    decide (predecessor.runId = record.runId ∧ predecessor.graphId = record.graphId ∧
      predecessor.graphRevision + 1 = record.graphRevision ∧
      some predecessor.revisionSha256 = record.predecessorRevisionSha256))

def insertRecord (db : GraphDatabase) (record : TaskGraphRevisionRecord) :
    GraphResult GraphDatabase :=
  if recordAdmissible db record then
    match db.revisions.insert? record with
    | some revisions => .ok { db with revisions := revisions }
    | none => .error .constraint
  else .error .constraint

def firstProjection (record : TaskGraphRevisionRecord) : GraphProjection where
  runId := record.runId
  graphId := record.graphId
  activeGraphRevision := 1
  activeRevisionSha256 := record.revisionSha256
  projectionRevision := 1

/-- `initialize` of the store. -/
def initializeGraph (db : GraphDatabase) (record : TaskGraphRevisionRecord) :
    GraphResult (TaskGraphRevisionRecord × GraphDatabase) :=
  if record.graphRevision ≠ 1 ∨ record.predecessorRevisionSha256 ≠ none ∨
      record.decisionId ≠ none then .error .initial
  else if (activeGraph db record.runId).isSome then .error .alreadyInitialized
  else do
    let db ← insertRecord db record
    match db.projections.insert? (firstProjection record) with
    | some projections => .ok (record, { db with projections := projections })
    | none => .error .constraint

structure ProposeTaskGraphRevisionInput where
  proposal : TaskGraphRevisionProposal
  taskStates : List TaskPlanningState
  maxGraphRevisions : Nat
  decisionId : String
  decidedAt : String
  hiddenDependencyFinding : Option HiddenDependencyFinding

def insertDecision (db : GraphDatabase) (decision : TaskGraphRevisionDecision) :
    GraphResult GraphDatabase :=
  if 1 ≤ decision.expectedGraphRevision then
    match db.decisions.insert? decision with
    | some decisions => .ok { db with decisions := decisions }
    | none => .error .constraint
  else .error .constraint

def moveProjection (db : GraphDatabase) (current record : TaskGraphRevisionRecord) :
    GraphResult GraphDatabase :=
  match db.projections.find? record.runId with
  | none => .error .compareAndSet
  | some projection =>
    if projection.activeGraphRevision = current.graphRevision ∧
        projection.activeRevisionSha256 = current.revisionSha256 then
      .ok { db with projections := db.projections.upsert { projection with
        activeGraphRevision := record.graphRevision
        activeRevisionSha256 := record.revisionSha256
        projectionRevision := projection.projectionRevision + 1 } }
    else .error .compareAndSet

def commitRevision (db : GraphDatabase) (current : TaskGraphRevisionRecord) :
    Option TaskGraphRevisionRecord → GraphResult GraphDatabase
  | none => .ok db
  | some record => do
      let db ← insertRecord db record
      moveProjection db current record

def validationContext (current : TaskGraphRevisionRecord) (input : ProposeTaskGraphRevisionInput) :
    TaskGraphRevisionValidationContext where
  current := current
  taskStates := input.taskStates
  hiddenDependencyFinding := input.hiddenDependencyFinding
  maxGraphRevisions := input.maxGraphRevisions
  decisionId := input.decisionId
  decidedAt := input.decidedAt

abbrev RevisionOutcome := TaskGraphRevisionDecision × Option TaskGraphRevisionRecord

def propose [Sha256] (db : GraphDatabase) (input : ProposeTaskGraphRevisionInput) :
    GraphResult (RevisionOutcome × GraphDatabase) :=
  match activeGraph db input.proposal.runId with
  | none => .error .notInitialized
  | some current => do
      let outcome := validateTaskGraphRevision (validationContext current input) input.proposal
      let db ← insertDecision db outcome.1
      let db ← commitRevision db current outcome.2
      .ok (outcome, db)

inductive ReplanLifecycle where
  | quiescing | revising | resumed | blocked
  deriving DecidableEq

inductive ReplanBlocker where
  | cancellationUnconfirmed | integrationReconciliationRequired | prerequisiteUnsatisfied
  | missingEvidence | revisionRejected
  deriving DecidableEq

structure HiddenDependencyReplan where
  replanId : String
  finding : HiddenDependencyFinding
  proposal : TaskGraphRevisionProposal
  lifecycle : ReplanLifecycle
  interruptedTaskIds : List String
  replacementTaskIds : List String
  decisionId : Option String := none
  resultingGraphRevision : Option Nat := none
  blocker : Option ReplanBlocker := none
  revision : Nat := 1
  createdAt : String
  sameRun : proposal.runId = finding.runId
  deriving DecidableEq

structure ReplanDatabase where
  findings : Table HiddenDependencyFinding.findingId
  replans : Table HiddenDependencyReplan.replanId

def emptyReplans : ReplanDatabase := ⟨.empty, .empty⟩

inductive ReplanStoreError where
  | constraint
  | differentFinding
  | differentBaseline
  | findingReplay
  | replanReplay
  | unknownReplan (replanId : String)
  | invalidTransition (before after : ReplanLifecycle)
  deriving DecidableEq

abbrev ReplanResult (α : Type) := Except ReplanStoreError α

/-- The input of `record`, whose proposal is of the second schema version. -/
structure RecordReplanInput where
  replanId : String
  finding : HiddenDependencyFinding
  proposal : TaskGraphRevisionProposal
  trigger : HiddenDependencyRevisionTrigger
  triggered : proposal.trigger = some trigger
  replacementTaskIds : List String

def citesBaseline (input : RecordReplanInput) : Bool :=
  decide (input.proposal.runId = input.finding.runId ∧
    input.proposal.graphId = input.finding.graphId ∧
    input.proposal.expectedGraphRevision = input.finding.graphRevision ∧
    input.proposal.expectedRevisionSha256 = input.finding.revisionSha256)

def newReplan (input : RecordReplanInput) (cited : citesBaseline input = true) :
    HiddenDependencyReplan where
  replanId := input.replanId
  finding := input.finding
  proposal := input.proposal
  lifecycle := .quiescing
  interruptedTaskIds := sortTexts input.trigger.interruptedTaskIds
  replacementTaskIds := sortTexts input.replacementTaskIds
  createdAt := input.finding.discoveredAt
  sameRun := (of_decide_eq_true cited).1

def ongoing (replan : HiddenDependencyReplan) : Bool :=
  decide (replan.lifecycle = .quiescing ∨ replan.lifecycle = .revising)

/-- The unique keys of a replan besides its primary key. -/
def replanAdmissible (db : ReplanDatabase) (replan : HiddenDependencyReplan) : Bool :=
  db.replans.rows.all fun other =>
    decide (other.finding.findingId ≠ replan.finding.findingId) &&
      !(ongoing other && ongoing replan && decide (other.finding.runId = replan.finding.runId))

def replanOfFinding (db : ReplanDatabase) (findingId : String) : Option HiddenDependencyReplan :=
  db.replans.rows.find? fun replan => replan.finding.findingId = findingId

def replays (persisted replan : HiddenDependencyReplan) : Bool :=
  decide (persisted.proposal = replan.proposal ∧ persisted.replanId = replan.replanId ∧
    persisted.replacementTaskIds = replan.replacementTaskIds ∧
    persisted.interruptedTaskIds = replan.interruptedTaskIds)

def insertReplan (db : ReplanDatabase) (replan : HiddenDependencyReplan) :
    ReplanResult (HiddenDependencyReplan × ReplanDatabase) :=
  if replanAdmissible db replan then
    match db.replans.insert? replan with
    | some replans => .ok (replan, { db with replans := replans })
    | none => .error .constraint
  else .error .constraint

def record (db : ReplanDatabase) (input : RecordReplanInput) :
    ReplanResult (HiddenDependencyReplan × ReplanDatabase) :=
  if input.trigger.findingId ≠ input.finding.findingId then .error .differentFinding
  else if cited : citesBaseline input = true then
    if (db.findings.find? input.finding.findingId).any fun found =>
        decide (found ≠ input.finding) then .error .findingReplay
    else
      let db := { db with findings := db.findings.insertOrIgnore input.finding }
      match replanOfFinding db input.finding.findingId with
      | some persisted =>
        if replays persisted (newReplan input cited) then .ok (persisted, db)
        else .error .replanReplay
      | none => insertReplan db (newReplan input cited)
  else .error .differentBaseline

structure AdvanceReplanInput where
  replanId : String
  expectedLifecycle : ReplanLifecycle
  lifecycle : ReplanLifecycle
  decisionId : Option (Option String) := none
  resultingGraphRevision : Option (Option Nat) := none
  blocker : Option (Option ReplanBlocker) := none

def canAdvance : ReplanLifecycle → ReplanLifecycle → Bool
  | .quiescing, .revising => true
  | .quiescing, .blocked => true
  | .revising, .resumed => true
  | .revising, .blocked => true
  | _, _ => false

def advanced (current : HiddenDependencyReplan) (input : AdvanceReplanInput) :
    HiddenDependencyReplan :=
  { current with
    lifecycle := input.lifecycle
    decisionId := input.decisionId.getD current.decisionId
    resultingGraphRevision := input.resultingGraphRevision.getD current.resultingGraphRevision
    blocker := input.blocker.getD current.blocker
    revision := current.revision + 1 }

def advance (db : ReplanDatabase) (input : AdvanceReplanInput) :
    ReplanResult (HiddenDependencyReplan × ReplanDatabase) :=
  match db.replans.find? input.replanId with
  | none => .error (.unknownReplan input.replanId)
  | some current =>
    if current.lifecycle ≠ input.expectedLifecycle then
      if current.lifecycle = input.lifecycle then .ok (current, db)
      else .error (.invalidTransition current.lifecycle input.lifecycle)
    else if canAdvance current.lifecycle input.lifecycle then
      .ok (advanced current input,
        { db with replans := db.replans.upsert (advanced current input) })
    else .error (.invalidTransition current.lifecycle input.lifecycle)

def activeReplan (db : ReplanDatabase) (runId : String) : Option HiddenDependencyReplan :=
  db.replans.rows.find? fun replan => ongoing replan && decide (replan.finding.runId = runId)

def replansOf (db : ReplanDatabase) (runId : String) : List HiddenDependencyReplan :=
  orderBy (fun left right => binaryBefore left.createdAt right.createdAt ||
    decide (left.createdAt = right.createdAt) && binaryBefore left.replanId right.replanId)
    (db.replans.rows.filter fun replan => replan.finding.runId = runId)

/-- A record that an accepted proposal adds to the current one. -/
structure Follows (current record : TaskGraphRevisionRecord) : Prop where
  sameRun : record.runId = current.runId
  revision : record.graphRevision = current.graphRevision + 1
  numbered : record.dag.graphRevision = record.graphRevision

variable {db db' : GraphDatabase} {replan : HiddenDependencyReplan}

theorem runId_of_activeGraph {runId : String} {graph : TaskGraphRevisionRecord}
    (active : activeGraph db runId = some graph) : graph.runId = runId := by
  obtain ⟨projection, _, found⟩ := Option.bind_eq_some_iff.mp active
  exact congrArg Prod.fst (Table.key_of_find? found)

theorem insertRecord_ok {record : TaskGraphRevisionRecord} (ok : insertRecord db record = .ok db') :
    db' = { db with revisions := db.revisions.upsert record } := by
  unfold insertRecord at ok
  split_ifs at ok
  split at ok
  · rename_i revisions inserted
    cases ok
    rw [(Table.insert?_eq_some.mp inserted).2]
  · cases ok

theorem activeGraph_moved {record : TaskGraphRevisionRecord} {projection : GraphProjection}
    (sameRun : projection.runId = record.runId)
    (here : projection.activeGraphRevision = record.graphRevision) (runId : String) :
    activeGraph { db with
      revisions := db.revisions.upsert record
      projections := db.projections.upsert projection } runId =
        if runId = record.runId then some record else activeGraph db runId := by
  unfold activeGraph
  rw [Table.find?_upsert, sameRun]
  split
  · rename_i same
    rw [Option.bind_some, here, same]
    exact Table.find?_upsert_self db.revisions record
  · rename_i different
    congr 1
    funext other
    rw [Table.find?_upsert_of_ne]
    exact fun clash => different (congrArg Prod.fst clash)

theorem initializeGraph_ok {record result : TaskGraphRevisionRecord}
    (ok : initializeGraph db record = .ok (result, db')) :
    record.graphRevision = 1 ∧ activeGraph db record.runId = none ∧ ∀ runId,
      activeGraph db' runId = if runId = record.runId then some record
        else activeGraph db runId := by
  unfold initializeGraph at ok
  split_ifs at ok with rejected present
  rw [not_or] at rejected
  have first : record.graphRevision = 1 := not_not.mp rejected.1
  obtain ⟨inserted, insertion, rest⟩ := FallibleRun.bind_eq_ok.mp ok
  rw [insertRecord_ok insertion] at rest
  split at rest
  · rename_i projections moved
    cases rest
    refine ⟨first, by simpa using present, ?_⟩
    rw [(Table.insert?_eq_some.mp moved).2]
    exact activeGraph_moved rfl first.symm
  · cases rest

theorem commitRevision_ok {current record : TaskGraphRevisionRecord}
    (ok : commitRevision db current (some record) = .ok db') (runId : String) :
    activeGraph db' runId = if runId = record.runId then some record else activeGraph db runId := by
  obtain ⟨inserted, insertion, moved⟩ := FallibleRun.bind_eq_ok.mp ok
  rw [insertRecord_ok insertion] at moved
  unfold moveProjection at moved
  split at moved
  · cases moved
  · rename_i projection found
    split_ifs at moved
    cases moved
    have sameRun : projection.runId = record.runId := Table.key_of_find? found
    exact @activeGraph_moved _ record { projection with
      activeGraphRevision := record.graphRevision
      activeRevisionSha256 := record.revisionSha256
      projectionRevision := projection.projectionRevision + 1 } sameRun rfl runId

theorem propose_ok [Sha256] {input : ProposeTaskGraphRevisionInput} {outcome : RevisionOutcome}
    (ok : propose db input = .ok (outcome, db')) :
    ∃ current, activeGraph db input.proposal.runId = some current ∧
      (outcome.2 = none ∧ (∀ runId, activeGraph db' runId = activeGraph db runId) ∨
        ∃ record, outcome.2 = some record ∧ Follows current record ∧ ∀ runId,
          activeGraph db' runId =
            if runId = record.runId then some record else activeGraph db runId) := by
  unfold propose at ok
  split at ok
  · cases ok
  · rename_i current active
    refine ⟨current, active, ?_⟩
    obtain ⟨decided, decision, rest⟩ := FallibleRun.bind_eq_ok.mp ok
    obtain ⟨committed, commit, done⟩ := FallibleRun.bind_eq_ok.mp rest
    cases done
    have kept : ∀ runId, activeGraph decided runId = activeGraph db runId := by
      unfold insertDecision at decision
      split_ifs at decision
      split at decision
      · cases decision
        exact fun _ => rfl
      · cases decision
    cases accepted : (validateTaskGraphRevision (validationContext current input)
        input.proposal).2 with
    | none =>
      rw [accepted] at commit
      cases commit
      exact Or.inl ⟨rfl, kept⟩
    | some record =>
      rw [accepted] at commit
      obtain ⟨sameRun, revision, numbered⟩ := validateTaskGraphRevision_accepted accepted
      refine Or.inr ⟨record, rfl, ⟨sameRun, revision, numbered⟩, fun runId => ?_⟩
      rw [commitRevision_ok commit, kept]

theorem record_ok {db db' : ReplanDatabase} {input : RecordReplanInput}
    (ok : record db input = .ok (replan, db')) :
    (replan ∈ db.replans.rows ∧ replanOfFinding db input.finding.findingId ≠ none ∧
        db'.replans = db.replans) ∨
      ((∃ cited, replan = newReplan input cited) ∧
        replanOfFinding db input.finding.findingId = none ∧
        replanAdmissible db replan = true ∧ replan.replanId ∉ db.replans.keys ∧
        db'.replans = db.replans.upsert replan) := by
  unfold record at ok
  split_ifs at ok
  dsimp only at ok
  split at ok
  · rename_i persisted found
    have known : replanOfFinding db input.finding.findingId = some persisted := found
    have member := List.mem_of_find?_eq_some found
    split_ifs at ok
    cases ok
    exact Or.inl ⟨member, by simp [known], rfl⟩
  · rename_i absent
    unfold insertReplan at ok
    split_ifs at ok with admissible
    split at ok
    · rename_i replans inserted
      cases ok
      exact Or.inr ⟨⟨_, rfl⟩, absent, admissible, Table.insert?_eq_some.mp inserted⟩
    · cases ok

theorem canAdvance_ongoing {first last : ReplanLifecycle}
    (possible : canAdvance first last = true) :
    (first = .quiescing ∨ first = .revising) ∧ last ≠ .quiescing := by
  cases first <;> cases last <;> simp_all [canAdvance]

structure Advanced (db db' : ReplanDatabase) (input : AdvanceReplanInput)
    (current replan : HiddenDependencyReplan) : Prop where
  found : db.replans.find? input.replanId = some current
  lifecycle : replan.lifecycle = input.lifecycle
  finding : replan.finding = current.finding
  interrupted : replan.interruptedTaskIds = current.interruptedTaskIds
  moved : db' = db ∧ replan = current ∨
    ongoing current = true ∧ replan.lifecycle ≠ .quiescing ∧
      replan.replanId = current.replanId ∧ db'.replans = db.replans.upsert replan

theorem advance_ok {db db' : ReplanDatabase} {input : AdvanceReplanInput}
    (ok : advance db input = .ok (replan, db')) :
    ∃ current, Advanced db db' input current replan := by
  unfold advance at ok
  split at ok
  · cases ok
  · rename_i current found
    split_ifs at ok with unexpected reached possible
    · cases ok
      exact ⟨_, found, reached, rfl, rfl, Or.inl ⟨rfl, rfl⟩⟩
    · cases ok
      obtain ⟨going, begun⟩ := canAdvance_ongoing possible
      exact ⟨current, found, rfl, rfl, rfl, Or.inr ⟨decide_eq_true going, begun, rfl, rfl⟩⟩

theorem Advanced.stored {db db' : ReplanDatabase} {input : AdvanceReplanInput}
    {current : HiddenDependencyReplan} (advanced : Advanced db db' input current replan) :
    replan ∈ db'.replans.rows := by
  rcases advanced.moved with ⟨rfl, rfl⟩ | ⟨_, _, _, replans⟩
  · exact Table.mem_of_find? advanced.found
  · rw [replans]
    exact Table.mem_upsert.mpr (Or.inl rfl)

theorem mem_activeReplan {db : ReplanDatabase} {runId : String}
    (active : activeReplan db runId = some replan) :
    replan ∈ db.replans.rows ∧ ongoing replan = true ∧ replan.finding.runId = runId := by
  have chosen := List.find?_some active
  rw [Bool.and_eq_true, decide_eq_true_eq] at chosen
  exact ⟨List.mem_of_find?_eq_some active, chosen⟩

end Heniek.EpicStore
