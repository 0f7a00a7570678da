import Heniek.FallibleRun
import Heniek.SchedulerTick

/-!
The durable tables behind the pipeline scheduler and the operations on them.
Every table is keyed by its primary key and holds the rows of all runs. A JSON
column holds the value it is read back as; the payload of an observation is the
observation it is read back as.

A statement that breaks a constraint throws, and the transaction around it is
rolled back. The insertions catch the error when `isUniqueViolation` recognises
it: that looks for a code starting with `SQLITE_CONSTRAINT`, while the errors of
the driver carry `ERR_SQLITE_ERROR`. Decisions, attempts, evaluator decisions
and recovery decisions are immutable rows; nothing here updates them.
-/

namespace Heniek.PipelineStore
open KeyedTable PipelineVocabulary PipelineDocument ExpressionEvaluation RecoveryPolicy
open SchedulerTick ScriptText FallibleRun

structure PipelineGraphRevisionRow where
  runId : String
  graphRevision : Nat
  pipelineId : String
  graph : PipelineGraph
  createdAt : String

structure PipelineScheduleSnapshot where
  runId : String
  pipelineId : String
  graphRevision : Nat
  scheduleRevision : Nat
  deadlineAt : Option String
  terminalOutcome : Option TerminalOutcome
  terminalReason : Option String
  terminalStageId : Option String
  updatedAt : String
  deriving DecidableEq

structure PipelineStageAttemptRow where
  attemptId : String
  runId : String
  pipelineId : String
  stageId : String
  graphRevision : Nat
  generation : Nat
  attemptOrdinal : Nat
  stageType : StageType
  createdAt : String
  deriving DecidableEq

structure PipelineSchedulerDecisionRow where
  decisionId : String
  runId : String
  stageId : String
  graphRevision : Nat
  generation : Nat
  attemptOrdinal : Nat
  action : DecisionAction
  reason : TransitionReason
  fromState : Option StageState
  toState : Option StageState
  attemptId : Option String
  intentId : Option String
  detail : Option String
  recordedAt : String
  deriving DecidableEq

inductive IntentDelivery where
  | pending
  | delivered (deliveredAt : String)
  deriving DecidableEq

structure PipelineSchedulerIntentRow where
  intentId : String
  runId : String
  graphRevision : Nat
  kind : IntentKind
  payload : IntentPayload
  state : IntentDelivery
  createdAt : String
  deriving DecidableEq

structure PipelineSchedulerObservationRow where
  runId : String
  observation : SchedulerObservation
  consumedAt : Option String
  deriving DecidableEq

structure PipelineEvaluatorDecisionRow where
  runId : String
  edgeKey : String
  selected : Bool
  recordedAt : String
  deriving DecidableEq

structure PipelineStageRecoveryStateRow where
  runId : String
  stageId : String
  generation : Nat
  repairsUsed : Nat
  lastSignatureDigest : Option String
  identicalSignatureCount : Nat
  pendingProposalId : Option String
  pendingProposal : Option ProposalJson
  updatedAt : String
  deriving DecidableEq

structure PipelineRetryDirectiveRow where
  attemptId : String
  recoveryDecisionId : String
  directive : RetryDirective
  createdAt : String
  deriving DecidableEq

structure PipelineCanonicalRunStateRow where
  runId : String
  state : JsonValue
  revision : Nat
  updatedAt : String

structure StateDatabase where
  graphRevisions : Table fun row : PipelineGraphRevisionRow => (row.runId, row.graphRevision)
  schedules : Table PipelineScheduleSnapshot.runId
  attempts : Table PipelineStageAttemptRow.attemptId
  stages : Table fun row : StageSnapshot => (row.runId, row.stageId)
  decisions : Table PipelineSchedulerDecisionRow.decisionId
  intents : Table PipelineSchedulerIntentRow.intentId
  observations : Table fun row : PipelineSchedulerObservationRow => row.observation.observationId
  evaluatorDecisions : Table fun row : PipelineEvaluatorDecisionRow => (row.runId, row.edgeKey)
  recoveryDecisions : Table RecoveryDecision.decisionId
  recoveryStates : Table fun row : PipelineStageRecoveryStateRow =>
    (row.runId, row.stageId, row.generation)
  retryDirectives : Table PipelineRetryDirectiveRow.attemptId
  canonicalStates : Table PipelineCanonicalRunStateRow.runId

def emptyDatabase : StateDatabase :=
  ⟨.empty, .empty, .empty, .empty, .empty, .empty, .empty, .empty, .empty, .empty, .empty, .empty⟩

inductive StoreError where
  | constraint
  | scheduleExists (runId : String)
  | missingSchedule (runId : String)
  | missingGraphRevision (runId : String) (graphRevision : Nat)
  | unknownIntent (intentId : String)
  deriving DecidableEq

abbrev Store (α : Type) := Except StoreError α

/-- The `code` of the error that a violated constraint raises. -/
def constraintErrorCode : String := "ERR_SQLITE_ERROR"

def isUniqueViolation (code : String) : Bool :=
  "SQLITE_CONSTRAINT".toList.isPrefixOf code.toList

section Tables

variable {α κ : Type} {key : α → κ} [DecidableEq κ]

/-- `INSERT` statements whose errors go through `isUniqueViolation`, and whether one of them
inserted a row. `admits` stands for the constraints other than the primary key. -/
def insertRows (admits : Table key → α → Bool) : List α → Table key → Store (Table key × Bool)
  | [], table => .ok (table, false)
  | row :: rows, table =>
    match if admits table row then table.insert? row else none with
    | some table => do
        let (table, _) ← insertRows admits rows table
        .ok (table, true)
    | none =>
      if isUniqueViolation constraintErrorCode then insertRows admits rows table
      else .error .constraint

/-- `INSERT ... ON CONFLICT DO UPDATE`. -/
def upsertRow (admits : α → Bool) (table : Table key) (row : α) : Store (Table key) :=
  if admits row then .ok (table.upsert row) else .error .constraint

def orderBy (before : α → α → Bool) (rows : List α) : List α :=
  rows.insertionSort fun left right => before right left = false

omit [DecidableEq κ] in
@[simp] theorem mem_orderBy {before : α → α → Bool} {rows : List α} {row : α} :
    row ∈ orderBy before rows ↔ row ∈ rows := List.mem_insertionSort _

end Tables

section Reads

variable (db : StateDatabase) (runId : String)

def readPipelineSchedule : Option PipelineScheduleSnapshot := db.schedules.find? runId

def readPipelineGraph (graphRevision : Nat) : Store PipelineGraph :=
  match db.graphRevisions.find? (runId, graphRevision) with
  | some row => .ok row.graph
  | none => .error (.missingGraphRevision runId graphRevision)

def readPipelineStageProjections : List StageSnapshot :=
  orderBy (fun left right => binaryBefore left.stageId right.stageId)
    (db.stages.rows.filter fun row => row.runId = runId)

def observationRowBefore (left right : PipelineSchedulerObservationRow) : Bool :=
  if left.observation.recordedAt ≠ right.observation.recordedAt then
    binaryBefore left.observation.recordedAt right.observation.recordedAt
  else binaryBefore left.observation.observationId right.observation.observationId

def readPendingPipelineObservations : List PipelineSchedulerObservationRow :=
  orderBy observationRowBefore
    (db.observations.rows.filter fun row => row.runId = runId ∧ row.consumedAt = none)

def toSchedulerObservations (rows : List PipelineSchedulerObservationRow) :
    List SchedulerObservation :=
  rows.map PipelineSchedulerObservationRow.observation

def readPipelineEvaluatorDecisions : List EvaluatorDecision :=
  (orderBy (fun left right => binaryBefore left.edgeKey right.edgeKey)
    (db.evaluatorDecisions.rows.filter fun row => row.runId = runId)).map fun row =>
      ⟨row.edgeKey, row.selected, row.recordedAt⟩

def payloadEdgeKey : IntentPayload → String
  | .evaluator _ _ _ _ edgeKey => edgeKey
  | _ => ""

def readPendingEvaluatorEdgeKeys : List String :=
  ((orderBy (fun left right => binaryBefore left.intentId right.intentId)
    (db.intents.rows.filter fun row =>
      row.runId = runId ∧ row.kind = .evaluator ∧ row.state = .pending)).map fun row =>
        payloadEdgeKey row.payload).filter fun key => key ≠ ""

def recoveryRowBefore (left right : PipelineStageRecoveryStateRow) : Bool :=
  if left.stageId ≠ right.stageId then binaryBefore left.stageId right.stageId
  else decide (left.generation < right.generation)

def listStageRecoveryStates : List PipelineStageRecoveryStateRow :=
  orderBy recoveryRowBefore (db.recoveryStates.rows.filter fun row => row.runId = runId)

def readCanonicalRunState : Option PipelineCanonicalRunStateRow := db.canonicalStates.find? runId

end Reads

structure PipelineSchedulerInputParts where
  schedule : PipelineScheduleSnapshot
  graph : PipelineGraph
  stages : List StageSnapshot
  observations : List PipelineSchedulerObservationRow
  evaluatorDecisions : List EvaluatorDecision
  pendingEvaluatorEdgeKeys : List String
  recoveryState : List PipelineStageRecoveryStateRow
  canonicalState : JsonValue

def inputParts (db : StateDatabase) (runId : String) (schedule : PipelineScheduleSnapshot)
    (graph : PipelineGraph) : PipelineSchedulerInputParts where
  schedule := schedule
  graph := graph
  stages := readPipelineStageProjections db runId
  observations := readPendingPipelineObservations db runId
  evaluatorDecisions := readPipelineEvaluatorDecisions db runId
  pendingEvaluatorEdgeKeys := readPendingEvaluatorEdgeKeys db runId
  recoveryState := listStageRecoveryStates db runId
  canonicalState :=
    match readCanonicalRunState db runId with
    | some canonical => canonical.state
    | none => .object []

def loadPipelineSchedulerInputParts (db : StateDatabase) (runId : String) :
    Store PipelineSchedulerInputParts :=
  match readPipelineSchedule db runId with
  | none => .error (.missingSchedule runId)
  | some schedule => do
      let graph ← readPipelineGraph db runId schedule.graphRevision
      .ok (inputParts db runId schedule graph)

structure CreatePipelineScheduleInput where
  runId : String
  pipelineId : String
  graph : PipelineGraph
  deadlineAt : Option String := none
  now : String

/-- `INSERT` statements without a handler. -/
def insertStages : List StageSnapshot →
    Table (fun row : StageSnapshot => (row.runId, row.stageId)) →
    Store (Table fun row : StageSnapshot => (row.runId, row.stageId))
  | [], table => .ok table
  | stage :: stages, table =>
    match table.insert? stage with
    | some table => insertStages stages table
    | none => .error .constraint

def createPipelineSchedule (db : StateDatabase) (input : CreatePipelineScheduleInput) :
    Store StateDatabase :=
  match readPipelineSchedule db input.runId with
  | some _ => .error (.scheduleExists input.runId)
  | none =>
    let revision : PipelineGraphRevisionRow :=
      ⟨input.runId, 1, input.pipelineId, input.graph, input.now⟩
    let schedule : PipelineScheduleSnapshot :=
      { runId := input.runId
        pipelineId := input.pipelineId
        graphRevision := 1
        scheduleRevision := 1
        deadlineAt := input.deadlineAt
        terminalOutcome := none
        terminalReason := none
        terminalStageId := none
        updatedAt := input.now }
    match db.graphRevisions.insert? revision, db.schedules.insert? schedule with
    | some graphRevisions, some schedules => do
        let stages ← insertStages
          (initialStageSnapshots input.runId 1 input.graph input.now) db.stages
        .ok { db with graphRevisions := graphRevisions, schedules := schedules, stages := stages }
    | _, _ => .error .constraint

def recordPipelineObservation (db : StateDatabase) (runId : String)
    (observation : SchedulerObservation) : Store StateDatabase := do
  let (observations, _) ← insertRows (fun _ _ => true) [⟨runId, observation, none⟩] db.observations
  .ok { db with observations := observations }

def deliverIntent (deliveredAt : String) (row : PipelineSchedulerIntentRow) :
    PipelineSchedulerIntentRow :=
  if row.state = .pending then { row with state := .delivered deliveredAt } else row

def markPipelineSchedulerIntentDelivered (db : StateDatabase) (intentId deliveredAt : String) :
    Store StateDatabase :=
  match db.intents.find? intentId with
  | none => .error (.unknownIntent intentId)
  | some row => .ok { db with intents := db.intents.upsert (deliverIntent deliveredAt row) }

def writeCanonicalRunState (db : StateDatabase) (runId : String) (state : JsonValue)
    (expectedRevision : Option Nat) (now : String) : Option (Nat × StateDatabase) :=
  match readCanonicalRunState db runId with
  | none =>
    if expectedRevision.any fun revision => decide (revision ≠ 0) then none
    else some (1, { db with canonicalStates := db.canonicalStates.upsert ⟨runId, state, 1, now⟩ })
  | some existing =>
    if expectedRevision.any fun revision => decide (revision ≠ existing.revision) then none
    else some (existing.revision + 1, { db with
      canonicalStates := db.canonicalStates.upsert ⟨runId, state, existing.revision + 1, now⟩ })

structure AttachAdHocStageInput where
  targetRunId : String
  targetStageId : String
  expectedGraphRevision : Nat
  expectedScheduleRevision : Nat
  expectedRunRevision : Nat
  dependantStageIds : List String
  augmentedGraph : PipelineGraph
  now : String

/-- A dependant of an attached stage that has not been touched yet. -/
def untouched (stages : List StageSnapshot) (dependantId : String) : Bool :=
  stages.any fun stage => decide (stage.stageId = dependantId) &&
    decide (stage.state = .pending ∧ stage.attemptOrdinal = 0 ∧ stage.currentAttemptId = none)

def attachStageRows (db : StateDatabase) (input : AttachAdHocStageInput) (graphRevision : Nat) :
    Store (Table fun row : StageSnapshot => (row.runId, row.stageId)) :=
  insertStages
    [{ runId := input.targetRunId
       stageId := input.targetStageId
       graphRevision := graphRevision
       generation := 1
       state := .succeeded
       attemptOrdinal := 1
       lastTransitionReason := some .attemptSucceeded
       selected := true
       updatedAt := input.now }]
    ((readPipelineStageProjections db input.targetRunId).foldl
      (fun table stage =>
        table.upsert { stage with graphRevision := graphRevision, updatedAt := input.now })
      db.stages)

/-- `attachAdHocStage` on the pipeline tables; a refused attachment changes nothing. The
attachment ledger, the artifact links and the revision limit, which can only refuse, are left
out. -/
def attachAdHocStage (db : StateDatabase) (input : AttachAdHocStageInput) : Store StateDatabase :=
  match readPipelineSchedule db input.targetRunId, readCanonicalRunState db input.targetRunId with
  | some schedule, some canonical =>
    let stages := readPipelineStageProjections db input.targetRunId
    if schedule.terminalOutcome ≠ none ∨
        schedule.graphRevision ≠ input.expectedGraphRevision ∨
        schedule.scheduleRevision ≠ input.expectedScheduleRevision ∨
        canonical.revision ≠ input.expectedRunRevision ∨
        (stages.any fun stage => stage.state.inFlight || decide (stage.state = .retrying)) = true ∨
        input.dependantStageIds.all (untouched stages) = false ∨
        input.targetStageId ∈ stages.map StageSnapshot.stageId then .ok db
    else
      match db.graphRevisions.insert? ⟨input.targetRunId, schedule.graphRevision + 1,
          schedule.pipelineId, input.augmentedGraph, input.now⟩ with
      | none => .error .constraint
      | some graphRevisions => do
          let stages ← attachStageRows db input (schedule.graphRevision + 1)
          .ok { db with
            graphRevisions := graphRevisions
            stages := stages
            schedules := db.schedules.upsert { schedule with
              graphRevision := schedule.graphRevision + 1
              scheduleRevision := schedule.scheduleRevision + 1
              updatedAt := input.now }
            canonicalStates := db.canonicalStates.upsert { canonical with
              revision := canonical.revision + 1
              updatedAt := input.now } }
  | _, _ => .ok db

section Rows

def decisionRow (decision : SchedulerDecision) : PipelineSchedulerDecisionRow where
  decisionId := decision.decisionId
  runId := decision.runId
  stageId := decision.stageId
  graphRevision := decision.graphRevision
  generation := decision.generation
  attemptOrdinal := decision.attemptOrdinal
  action := decision.action
  reason := decision.reason
  fromState := decision.fromState
  toState := decision.toState
  attemptId := decision.attemptId
  intentId := decision.intentId
  detail := decision.detail
  recordedAt := decision.recordedAt

def intentRow (intent : SchedulerIntent) : PipelineSchedulerIntentRow where
  intentId := intent.intentId
  runId := intent.runId
  graphRevision := intent.graphRevision
  kind := intent.kind
  payload := intent.payload
  state := .pending
  createdAt := intent.createdAt

def attemptRow (attempt : StageAttempt) : PipelineStageAttemptRow where
  attemptId := attempt.attemptId
  runId := attempt.runId
  pipelineId := attempt.pipelineId
  stageId := attempt.stageId
  graphRevision := attempt.graphRevision
  generation := attempt.generation
  attemptOrdinal := attempt.attemptOrdinal
  stageType := attempt.stageType
  createdAt := attempt.createdAt

def recoveryStateRow (plan : SchedulerPlan) (entry : StageRecoveryState) :
    PipelineStageRecoveryStateRow where
  runId := plan.runId
  stageId := entry.stageId
  generation := entry.generation
  repairsUsed := entry.repairsUsed
  lastSignatureDigest := entry.lastSignatureDigest
  identicalSignatureCount := entry.identicalSignatureCount
  pendingProposalId := entry.pendingProposalId
  pendingProposal := entry.pendingProposalJson
  updatedAt := plan.recordedAt

def retryDirectiveRow (attempt : StageAttempt) : Option PipelineRetryDirectiveRow :=
  match attempt.retryDirective, attempt.recoveryDecisionId with
  | some directive, some decisionId =>
    some ⟨attempt.attemptId, decisionId, directive, attempt.createdAt⟩
  | _, _ => none

def evaluatorRow (runId : String) (decision : SchedulerDecision) :
    Option PipelineEvaluatorDecisionRow :=
  if decision.action = .selectEdge ∨ decision.action = .rejectEdge then
    decision.detail.map fun edgeKey =>
      ⟨runId, edgeKey, decide (decision.action = .selectEdge), decision.recordedAt⟩
  else none

def retryDirectiveRows : List StageAttempt → List PipelineRetryDirectiveRow →
    List PipelineRetryDirectiveRow
  | [], rows => rows
  | attempt :: attempts, rows =>
    match retryDirectiveRow attempt with
    | some row =>
      retryDirectiveRows attempts
        (if rows.any fun earlier => decide (earlier.attemptId = row.attemptId) then rows
          else rows ++ [row])
    | none => retryDirectiveRows attempts rows

end Rows

section Constraints

variable (db : StateDatabase)

def graphKnown (runId : String) (graphRevision : Nat) : Bool :=
  decide ((runId, graphRevision) ∈ db.graphRevisions.keys) && decide (1 ≤ graphRevision)

def decisionAdmissible (row : PipelineSchedulerDecisionRow) : Bool :=
  graphKnown db row.runId row.graphRevision && decide (1 ≤ row.generation)

def intentAdmissible (row : PipelineSchedulerIntentRow) : Bool :=
  graphKnown db row.runId row.graphRevision

def attemptAdmissible (table : Table PipelineStageAttemptRow.attemptId)
    (row : PipelineStageAttemptRow) : Bool :=
  graphKnown db row.runId row.graphRevision && decide (1 ≤ row.generation) &&
    decide (1 ≤ row.attemptOrdinal) && table.rows.all fun other =>
      decide (¬ (other.runId = row.runId ∧ other.graphRevision = row.graphRevision ∧
        other.stageId = row.stageId ∧ other.generation = row.generation ∧
        other.attemptOrdinal = row.attemptOrdinal))

def recoveryDecisionAdmissible (row : RecoveryDecision) : Bool :=
  decide (1 ≤ row.graphRevision) && decide (1 ≤ row.generation)

def isHexDigit (c : Char) : Bool := c.isDigit || decide ('a' ≤ c ∧ c ≤ 'f')

def isDigest (text : String) : Bool :=
  decide (text.toList.length = 64) && text.toList.all isHexDigit

def recoveryStateAdmissible (row : PipelineStageRecoveryStateRow) : Bool :=
  decide (1 ≤ row.generation) && row.lastSignatureDigest.all isDigest

def stageAdmissible (attempts : Table PipelineStageAttemptRow.attemptId) (row : StageSnapshot) :
    Bool :=
  graphKnown db row.runId row.graphRevision && decide (1 ≤ row.generation) &&
    row.currentAttemptId.all fun attemptId => decide (attemptId ∈ attempts.keys)

end Constraints

def updateStage (db : StateDatabase) (attempts : Table PipelineStageAttemptRow.attemptId)
    (table : Table fun row : StageSnapshot => (row.runId, row.stageId)) (patch : StageSnapshot) :
    Store (Table fun row : StageSnapshot => (row.runId, row.stageId)) :=
  if (patch.runId, patch.stageId) ∈ table.keys then
    upsertRow (stageAdmissible db attempts) table patch
  else .ok table

def consumeRow (consumedAt : String) (row : PipelineSchedulerObservationRow) :
    PipelineSchedulerObservationRow :=
  if row.consumedAt = none then { row with consumedAt := some consumedAt } else row

theorem consumeRow_observation (consumedAt : String) (row : PipelineSchedulerObservationRow) :
    (consumeRow consumedAt row).observation = row.observation := by
  unfold consumeRow
  split <;> rfl

/-- `UPDATE pipeline_scheduler_observation SET consumed_at = ? ... AND consumed_at IS NULL`. -/
def markConsumed (consumedAt : String)
    (table : Table fun row : PipelineSchedulerObservationRow => row.observation.observationId)
    (observationId : String) :
    Table fun row : PipelineSchedulerObservationRow => row.observation.observationId :=
  table.modify observationId (consumeRow consumedAt) fun row => by rw [consumeRow_observation]

def updatedSchedule (schedule : PipelineScheduleSnapshot) (plan : SchedulerPlan) :
    PipelineScheduleSnapshot :=
  { schedule with
    scheduleRevision := plan.nextScheduleRevision
    terminalOutcome := (plan.terminal.map ScheduleTerminal.outcome).or schedule.terminalOutcome
    terminalReason := (plan.terminal.map ScheduleTerminal.reason).or schedule.terminalReason
    terminalStageId := (plan.terminal.bind ScheduleTerminal.blockedStageId).or
      schedule.terminalStageId
    updatedAt := plan.recordedAt }

inductive ApplyPipelineSchedulerPlanResult where
  | applied (scheduleRevision : Nat)
  | duplicate (scheduleRevision : Nat)
  | conflict (scheduleRevision : Nat)
  deriving DecidableEq

/-- The statements of the transaction once the revision is the expected one. -/
def writePlan (db : StateDatabase) (schedule : PipelineScheduleSnapshot) (plan : SchedulerPlan) :
    Store (ApplyPipelineSchedulerPlanResult × StateDatabase) := do
  let (decisions, insertedDecision) ←
    insertRows (fun _ => decisionAdmissible db) (plan.decisions.map decisionRow) db.decisions
  let (intents, insertedIntent) ←
    insertRows (fun _ => intentAdmissible db) (plan.intents.map intentRow) db.intents
  let (attempts, _) ←
    insertRows (attemptAdmissible db) (plan.attempts.map attemptRow) db.attempts
  let (recoveryDecisions, _) ←
    insertRows (fun _ => recoveryDecisionAdmissible) (plan.recoveryDecisions.getD [])
      db.recoveryDecisions
  let recoveryStates ←
    ((plan.recoveryState.getD []).map (recoveryStateRow plan)).foldlM
      (upsertRow recoveryStateAdmissible) db.recoveryStates
  let (retryDirectives, _) ←
    insertRows
      (fun _ row => decide (row.attemptId ∈ attempts.keys) &&
        decide (row.recoveryDecisionId ∈ recoveryDecisions.keys))
      (retryDirectiveRows plan.attempts []) db.retryDirectives
  let stages ← plan.stagePatches.foldlM (updateStage db attempts) db.stages
  if plan.nextScheduleRevision < schedule.scheduleRevision then .error .constraint
  else
    let db' := { db with
      decisions := decisions
      intents := intents
      attempts := attempts
      recoveryDecisions := recoveryDecisions
      recoveryStates := recoveryStates
      retryDirectives := retryDirectives
      stages := stages
      observations := plan.consumedObservationIds.foldl (markConsumed plan.recordedAt)
        db.observations
      evaluatorDecisions := (plan.decisions.filterMap (evaluatorRow plan.runId)).foldl
        Table.insertOrIgnore db.evaluatorDecisions
      schedules := db.schedules.upsert (updatedSchedule schedule plan) }
    let result :=
      if !insertedDecision && !insertedIntent && !plan.decisions.isEmpty then
        .duplicate plan.nextScheduleRevision
      else .applied plan.nextScheduleRevision
    .ok (result, db')

def applyPipelineSchedulerPlan (db : StateDatabase) (plan : SchedulerPlan) :
    Store (ApplyPipelineSchedulerPlanResult × StateDatabase) :=
  match readPipelineSchedule db plan.runId with
  | none => .error (.missingSchedule plan.runId)
  | some schedule =>
    if schedule.scheduleRevision ≠ plan.expectedScheduleRevision then
      .ok (.conflict schedule.scheduleRevision, db)
    else writePlan db schedule plan

section Applied

variable {db db' : StateDatabase} {plan : SchedulerPlan}

/-- What a committed plan leaves in the store. -/
structure Wrote (db : StateDatabase) (plan : SchedulerPlan) (db' : StateDatabase) : Prop where
  graphRevisions_eq : db'.graphRevisions = db.graphRevisions
  canonicalStates_eq : db'.canonicalStates = db.canonicalStates
  stages : ∃ attempts : Table PipelineStageAttemptRow.attemptId,
    plan.stagePatches.foldlM (updateStage db attempts) db.stages = .ok db'.stages
  recoveryStates : ((plan.recoveryState.getD []).map (recoveryStateRow plan)).foldlM
    (upsertRow recoveryStateAdmissible) db.recoveryStates = .ok db'.recoveryStates
  retryDirectives : ∃ admits inserted, insertRows admits (retryDirectiveRows plan.attempts [])
    db.retryDirectives = .ok (db'.retryDirectives, inserted)
  observations_eq : db'.observations =
    plan.consumedObservationIds.foldl (markConsumed plan.recordedAt) db.observations
  evaluatorDecisions_eq : db'.evaluatorDecisions =
    (plan.decisions.filterMap (evaluatorRow plan.runId)).foldl Table.insertOrIgnore
      db.evaluatorDecisions

theorem writePlan_eq_ok {schedule : PipelineScheduleSnapshot}
    {result : ApplyPipelineSchedulerPlanResult}
    (written : writePlan db schedule plan = .ok (result, db')) :
    Wrote db plan db' ∧ db'.schedules = db.schedules.upsert (updatedSchedule schedule plan) ∧
      ∀ revision, result ≠ .conflict revision := by
  obtain ⟨⟨decisions, insertedDecision⟩, _, written⟩ := bind_eq_ok.mp written
  obtain ⟨⟨intents, insertedIntent⟩, _, written⟩ := bind_eq_ok.mp written
  obtain ⟨⟨attempts, _⟩, _, written⟩ := bind_eq_ok.mp written
  obtain ⟨⟨recoveryDecisions, _⟩, _, written⟩ := bind_eq_ok.mp written
  obtain ⟨recoveryStates, recovered, written⟩ := bind_eq_ok.mp written
  obtain ⟨⟨retryDirectives, _⟩, directed, written⟩ := bind_eq_ok.mp written
  obtain ⟨stages, updated, written⟩ := bind_eq_ok.mp written
  split at written
  · cases written
  · cases written
    refine ⟨⟨rfl, rfl, ⟨attempts, updated⟩, recovered, ⟨_, _, directed⟩, rfl, rfl⟩, rfl, ?_⟩
    split <;> nofun

theorem applyPipelineSchedulerPlan_eq_ok {result : ApplyPipelineSchedulerPlanResult}
    (applied : applyPipelineSchedulerPlan db plan = .ok (result, db')) :
    ∃ schedule, readPipelineSchedule db plan.runId = some schedule ∧
      (schedule.scheduleRevision ≠ plan.expectedScheduleRevision ∧ db' = db ∧
          result = .conflict schedule.scheduleRevision ∨
        schedule.scheduleRevision = plan.expectedScheduleRevision ∧ Wrote db plan db' ∧
          ∀ revision, result ≠ .conflict revision) := by
  unfold applyPipelineSchedulerPlan at applied
  cases found : readPipelineSchedule db plan.runId with
  | none =>
    rw [found] at applied
    cases applied
  | some schedule =>
    rw [found] at applied
    refine ⟨schedule, rfl, ?_⟩
    dsimp only at applied
    split at applied
    · rename_i outdated
      cases applied
      exact Or.inl ⟨outdated, rfl, rfl⟩
    · rename_i current
      obtain ⟨wrote, _, committed⟩ := writePlan_eq_ok applied
      exact Or.inr ⟨not_not.mp current, wrote, committed⟩

theorem Wrote.keeps_evaluator (wrote : Wrote db plan db') {key : String × String}
    {row : PipelineEvaluatorDecisionRow} (stored : db.evaluatorDecisions.find? key = some row) :
    db'.evaluatorDecisions.find? key = some row := by
  rw [wrote.evaluatorDecisions_eq, Table.find?_foldl_insertOrIgnore, stored]
  rfl

end Applied

end Heniek.PipelineStore
