import Heniek.PipelineStore
import Heniek.SchedulerRun

/-!
The scheduling side of the pipeline runner service: it loads the input of a tick
from the store, runs the scheduler and applies the plan. The scheduler version,
and with it the tick-wide execution mode, is chosen for each tick from what the
store holds.

`ServiceRun` is a run of the service from the empty store. Between two ticks the
other operations of the store may happen, in any number and order: schedules are
created, observations recorded, intents delivered, canonical state written,
stages attached. A tick that throws is rolled back and leaves no trace.
-/

namespace Heniek.PipelineRunner
open KeyedTable PipelineDocument ExpressionEvaluation RecoveryPolicy
open SchedulerTick SchedulerRun PipelineStore FallibleRun ScriptText

def defaultMaxRepairAttempts : Nat := 3

/-- A stored directive has a declared mode and session policy. -/
def asRetryDirective : ProposalJson → Option RetryDirective
  | .directive directive => some directive
  | .other => none

def recoveryEntry (row : PipelineStageRecoveryStateRow) : StageRecoveryState where
  stageId := row.stageId
  generation := row.generation
  repairsUsed := row.repairsUsed
  lastSignatureDigest := row.lastSignatureDigest
  identicalSignatureCount := row.identicalSignatureCount
  pendingProposalId := row.pendingProposalId
  pendingProposalJson := row.pendingProposal
  pendingDirective := row.pendingProposal.bind asRetryDirective

/-- `...(text ? { text } : {})`: an empty text counts as absent. -/
def truthy (text : Option String) : Option String := text.filter fun text => text ≠ ""

def stageInput (stage : StageSnapshot) : StageSnapshot :=
  { stage with
    currentAttemptId := truthy stage.currentAttemptId
    blockReason := truthy stage.blockReason }

def effectiveMaxRepair (graph : PipelineGraph) : Nat :=
  match graph.limits.maxRepairAttempts with
  | none => defaultMaxRepairAttempts
  | some limit => min limit defaultMaxRepairAttempts

def useV2 (parts : PipelineSchedulerInputParts) : Bool :=
  !parts.recoveryState.isEmpty ||
    (toSchedulerObservations parts.observations).any carriesRecoveryFields

def schedulerInput (parts : PipelineSchedulerInputParts) (runId now : String) : SchedulerInput where
  schemaVersion := if useV2 parts then 2 else 1
  runId := runId
  pipelineId := parts.schedule.pipelineId
  graphRevision := parts.schedule.graphRevision
  scheduleRevision := parts.schedule.scheduleRevision
  graph := parts.graph
  now := now
  deadlineAt := truthy parts.schedule.deadlineAt
  stages := parts.stages.map stageInput
  observations := toSchedulerObservations parts.observations
  canonicalState := parts.canonicalState
  pendingEvaluatorEdgeKeys := parts.pendingEvaluatorEdgeKeys
  evaluatorDecisions := parts.evaluatorDecisions
  recoveryState := if useV2 parts then some (parts.recoveryState.map recoveryEntry) else none
  effectiveLimits :=
    if useV2 parts then
      some
        { maxRepairAttempts := some (effectiveMaxRepair parts.graph)
          maxConcurrentWorkers := parts.graph.limits.maxConcurrentWorkers }
    else none
  executionMode := if useV2 parts then some parts.graph.mode else none

def toSchedulerInput (db : StateDatabase) (runId now : String) : Store SchedulerInput :=
  (loadPipelineSchedulerInputParts db runId).map fun parts => schedulerInput parts runId now

/-- The entry point the service calls for an input. -/
def schedulerPlan [Sha256] (input : SchedulerInput) : Tick SchedulerPlan :=
  if input.schemaVersion = 2 ∨ input.recoveryState.isSome ∨ input.effectiveLimits.isSome then
    tickSchedulerV2 { input with schemaVersion := 2 }
  else tickScheduler input

inductive ServiceError where
  | store (error : StoreError)
  | scheduler (error : SchedulerError)
  | tickNotApplied
  deriving DecidableEq

/-- One turn of the loop in `tick`. -/
def tickAttempt [Sha256] (db : StateDatabase) (runId now : String) :
    Except ServiceError (ApplyPipelineSchedulerPlanResult × SchedulerInput × SchedulerPlan ×
      StateDatabase) := do
  let input ← (toSchedulerInput db runId now).mapError .store
  let plan ← (schedulerPlan input).mapError .scheduler
  let (result, db) ← (applyPipelineSchedulerPlan db plan).mapError .store
  .ok (result, input, plan, db)

def tickLoop [Sha256] (db : StateDatabase) (runId : String) (clock : Nat → String) :
    (turns attempt : Nat) → Except ServiceError StateDatabase
  | 0, _ => .error .tickNotApplied
  | turns + 1, attempt => do
      let (result, _, _, db') ← tickAttempt db runId (clock attempt)
      match result with
      | .conflict _ => tickLoop db' runId clock turns (attempt + 1)
      | _ => .ok db'

def tick [Sha256] (db : StateDatabase) (runId : String) (clock : Nat → String) :
    Except ServiceError StateDatabase :=
  tickLoop db runId clock 8 0

structure DaemonTick where
  before : StateDatabase
  runId : String
  now : String
  input : SchedulerInput
  plan : SchedulerPlan
  after : StateDatabase

def DaemonTick.record (tick : DaemonTick) : TickRecord := ⟨tick.input, tick.plan⟩

def Committed [Sha256] (tick : DaemonTick) : Prop :=
  ∃ result, tickAttempt tick.before tick.runId tick.now =
    .ok (result, tick.input, tick.plan, tick.after)

/-- The operations of the store besides applying a plan. -/
inductive Operation where
  | create (input : CreatePipelineScheduleInput)
  | observe (runId : String) (observation : SchedulerObservation)
  | deliver (intentId deliveredAt : String)
  | canonical (runId : String) (state : JsonValue) (expectedRevision : Option Nat) (now : String)
  | attach (input : AttachAdHocStageInput)

def perform (db : StateDatabase) : Operation → Store StateDatabase
  | .create input => createPipelineSchedule db input
  | .observe runId observation => recordPipelineObservation db runId observation
  | .deliver intentId deliveredAt => markPipelineSchedulerIntentDelivered db intentId deliveredAt
  | .canonical runId state expectedRevision now =>
    match writeCanonicalRunState db runId state expectedRevision now with
    | some (_, db) => .ok db
    | none => .ok db
  | .attach input => attachAdHocStage db input

/-- Some operations lead from one state of the store to the other. -/
def Operates (db db' : StateDatabase) : Prop :=
  ∃ operations : List Operation, operations.foldlM perform db = .ok db'

structure ServiceRun [Sha256] (ticks : List DaemonTick) : Prop where
  committed : ∀ tick ∈ ticks, Committed tick
  starts : ∀ tick ∈ ticks.head?, Operates emptyDatabase tick.before
  chained : ticks.IsChain fun tick next => Operates tick.after next.before

section Committed

variable [Sha256] {tick : DaemonTick}
variable {db : StateDatabase} {runId now : String} {input : SchedulerInput}

theorem tickAttempt_eq_ok {db' : StateDatabase} {plan : SchedulerPlan}
    {result : ApplyPipelineSchedulerPlanResult} :
    tickAttempt db runId now = .ok (result, input, plan, db') ↔
      toSchedulerInput db runId now = .ok input ∧ schedulerPlan input = .ok plan ∧
        applyPipelineSchedulerPlan db plan = .ok (result, db') := by
  constructor
  · intro ran
    obtain ⟨loaded, first, ran⟩ := bind_eq_ok.mp ran
    obtain ⟨planned, second, ran⟩ := bind_eq_ok.mp ran
    obtain ⟨⟨_, written⟩, third, ran⟩ := bind_eq_ok.mp ran
    cases ran
    exact ⟨mapError_eq_ok.mp first, mapError_eq_ok.mp second, mapError_eq_ok.mp third⟩
  · rintro ⟨first, second, third⟩
    refine bind_eq_ok.mpr ⟨input, mapError_eq_ok.mpr first, ?_⟩
    refine bind_eq_ok.mpr ⟨plan, mapError_eq_ok.mpr second, ?_⟩
    exact bind_eq_ok.mpr ⟨(result, db'), mapError_eq_ok.mpr third, rfl⟩

omit [Sha256] in
theorem toSchedulerInput_eq_ok (loaded : toSchedulerInput db runId now = .ok input) :
    ∃ schedule graph, readPipelineSchedule db runId = some schedule ∧
      readPipelineGraph db runId schedule.graphRevision = .ok graph ∧
      input = schedulerInput (inputParts db runId schedule graph) runId now := by
  obtain ⟨parts, found, rfl⟩ := map_eq_ok.mp loaded
  unfold loadPipelineSchedulerInputParts at found
  cases known : readPipelineSchedule db runId with
  | none =>
    rw [known] at found
    cases found
  | some schedule =>
    rw [known] at found
    obtain ⟨graph, read, built⟩ := bind_eq_ok.mp found
    cases built
    exact ⟨schedule, graph, rfl, read, rfl⟩

theorem Committed.ticked (committed : Committed tick) : Ticked tick.record := by
  obtain ⟨result, ran⟩ := committed
  obtain ⟨_, planned, _⟩ := tickAttempt_eq_ok.mp ran
  unfold schedulerPlan at planned
  split at planned
  · exact Or.inr planned
  · exact Or.inl planned

theorem Committed.trace (committed : Committed tick) : Nonempty (Trace tick.record) :=
  committed.ticked.trace

theorem tickAttempt_wrote {db' : StateDatabase} {plan : SchedulerPlan}
    {result : ApplyPipelineSchedulerPlanResult}
    (ran : tickAttempt db runId now = .ok (result, input, plan, db')) :
    Wrote db plan db' ∧ plan.runId = runId ∧ ∀ revision, result ≠ .conflict revision := by
  obtain ⟨loaded, _, applied⟩ := tickAttempt_eq_ok.mp ran
  obtain ⟨schedule, graph, known, _, given⟩ := toSchedulerInput_eq_ok loaded
  have committed : Committed ⟨db, runId, now, input, plan, db'⟩ := ⟨result, ran⟩
  obtain ⟨trace⟩ := committed.trace
  obtain ⟨version, kept⟩ := trace.input_eq
  have inputs : trace.final.input = { input with schemaVersion := version } := by
    rw [trace.final_input, trace.start_input, kept]
    rfl
  have run : plan.runId = runId := by
    rw [show plan.runId = trace.final.input.runId from trace.runId_eq, inputs, given]
    rfl
  have revision : plan.expectedScheduleRevision = schedule.scheduleRevision := by
    rw [show plan.expectedScheduleRevision = trace.final.input.scheduleRevision from
      trace.expected_eq, inputs, given]
    rfl
  obtain ⟨stored, found, outcome⟩ := applyPipelineSchedulerPlan_eq_ok applied
  rw [run, known] at found
  cases found
  rcases outcome with ⟨outdated, _, _⟩ | ⟨_, wrote, fresh⟩
  · exact absurd revision.symm outdated
  · exact ⟨wrote, run, fresh⟩

theorem Committed.wrote (committed : Committed tick) :
    Wrote tick.before tick.plan tick.after ∧ tick.plan.runId = tick.runId := by
  obtain ⟨result, ran⟩ := committed
  obtain ⟨wrote, run, _⟩ := tickAttempt_wrote ran
  exact ⟨wrote, run⟩

end Committed

def createdSchedule (input : CreatePipelineScheduleInput) : PipelineScheduleSnapshot where
  runId := input.runId
  pipelineId := input.pipelineId
  graphRevision := 1
  scheduleRevision := 1
  deadlineAt := input.deadlineAt
  terminalOutcome := none
  terminalReason := none
  terminalStageId := none
  updatedAt := input.now

section Operations

variable {db db' : StateDatabase}

theorem createPipelineSchedule_eq_ok {input : CreatePipelineScheduleInput}
    (created : createPipelineSchedule db input = .ok db') :
    ∃ graphRevisions schedules stages, readPipelineSchedule db input.runId = none ∧
      db.graphRevisions.insert? ⟨input.runId, 1, input.pipelineId, input.graph, input.now⟩ =
        some graphRevisions ∧
      db.schedules.insert? (createdSchedule input) = some schedules ∧
      insertStages (initialStageSnapshots input.runId 1 input.graph input.now) db.stages =
        .ok stages ∧
      db' =
        { db with graphRevisions := graphRevisions, schedules := schedules, stages := stages } := by
  simp only [createPipelineSchedule] at created
  split at created
  · cases created
  rename_i fresh
  split at created
  · rename_i graphRevisions schedules first second
    obtain ⟨stages, inserted, built⟩ := bind_eq_ok.mp created
    cases built
    exact ⟨graphRevisions, schedules, stages, fresh, first, second, inserted, rfl⟩
  · cases created

theorem recordPipelineObservation_eq_ok {runId : String} {observation : SchedulerObservation}
    (recorded : recordPipelineObservation db runId observation = .ok db') :
    db' = { db with observations := db.observations.upsert ⟨runId, observation, none⟩ } := by
  obtain ⟨⟨observations, inserted⟩, ran, built⟩ := bind_eq_ok.mp recorded
  cases built
  simp only [insertRows] at ran
  split at ran
  · rename_i table added
    cases ran
    rw [(Table.insert?_eq_some.mp added).2]
  · split at ran
    · rename_i tolerated
      exact absurd tolerated (by decide)
    · cases ran

theorem markPipelineSchedulerIntentDelivered_eq_ok {intentId deliveredAt : String}
    (marked : markPipelineSchedulerIntentDelivered db intentId deliveredAt = .ok db') :
    ∃ intents, db' = { db with intents := intents } := by
  unfold markPipelineSchedulerIntentDelivered at marked
  split at marked <;> cases marked
  exact ⟨_, rfl⟩

theorem perform_canonical {runId now : String} {state : JsonValue} {expectedRevision : Option Nat}
    (performed : perform db (.canonical runId state expectedRevision now) = .ok db') :
    ∃ canonicalStates, db' = { db with canonicalStates := canonicalStates } := by
  simp only [perform, writeCanonicalRunState] at performed
  split at performed
  · rename_i written
    cases performed
    split at written <;> split at written <;> cases written <;> exact ⟨_, rfl⟩
  · cases performed
    exact ⟨_, rfl⟩

theorem attachAdHocStage_eq_ok {input : AttachAdHocStageInput}
    (attached : attachAdHocStage db input = .ok db') : db' = db ∨
    ∃ schedule canonical graphRevisions stages,
      readPipelineSchedule db input.targetRunId = some schedule ∧
      readCanonicalRunState db input.targetRunId = some canonical ∧
      schedule.terminalOutcome = none ∧
      db.graphRevisions.insert? ⟨input.targetRunId, schedule.graphRevision + 1,
        schedule.pipelineId, input.augmentedGraph, input.now⟩ = some graphRevisions ∧
      attachStageRows db input (schedule.graphRevision + 1) = .ok stages ∧
      db' = { db with
        graphRevisions := graphRevisions
        stages := stages
        schedules := db.schedules.upsert { schedule with
          graphRevision := schedule.graphRevision + 1
          scheduleRevision := schedule.scheduleRevision + 1
          updatedAt := input.now }
        canonicalStates := db.canonicalStates.upsert { canonical with
          revision := canonical.revision + 1
          updatedAt := input.now } } := by
  simp only [attachAdHocStage] at attached
  split at attached
  · rename_i schedule canonical known found
    split at attached
    · cases attached
      exact Or.inl rfl
    rename_i admissible
    split at attached
    · cases attached
    · rename_i graphRevisions inserted
      obtain ⟨stages, rows, built⟩ := bind_eq_ok.mp attached
      cases built
      refine Or.inr ⟨schedule, canonical, graphRevisions, stages, known, found, ?_, inserted, rows,
        rfl⟩
      by_contra settled
      exact admissible (Or.inl settled)
  · cases attached
    exact Or.inl rfl

end Operations

section Evaluators

variable {db db' : StateDatabase}

/-- The tables that only plans write. -/
structure KeepsPlanned (db db' : StateDatabase) : Prop where
  evaluatorDecisions_eq : db'.evaluatorDecisions = db.evaluatorDecisions
  recoveryStates_eq : db'.recoveryStates = db.recoveryStates
  retryDirectives_eq : db'.retryDirectives = db.retryDirectives

theorem perform_planned {operation : Operation} (performed : perform db operation = .ok db') :
    KeepsPlanned db db' := by
  cases operation with
  | create input =>
    obtain ⟨_, _, _, _, _, _, _, rfl⟩ := createPipelineSchedule_eq_ok performed
    exact ⟨rfl, rfl, rfl⟩
  | observe runId observation =>
    rw [recordPipelineObservation_eq_ok performed]
    exact ⟨rfl, rfl, rfl⟩
  | deliver intentId deliveredAt =>
    obtain ⟨_, rfl⟩ := markPipelineSchedulerIntentDelivered_eq_ok performed
    exact ⟨rfl, rfl, rfl⟩
  | canonical runId state expectedRevision now =>
    obtain ⟨_, rfl⟩ := perform_canonical performed
    exact ⟨rfl, rfl, rfl⟩
  | attach input =>
    rcases attachAdHocStage_eq_ok performed with rfl | ⟨_, _, _, _, _, _, _, _, _, rfl⟩ <;>
      exact ⟨rfl, rfl, rfl⟩

theorem operates_planned (operates : Operates db db') : KeepsPlanned db db' := by
  obtain ⟨operations, performed⟩ := operates
  refine foldlM_invariant (P := KeepsPlanned db) ?_ ⟨rfl, rfl, rfl⟩ performed
  intro operation _ first second same performed
  have kept := perform_planned performed
  exact ⟨kept.evaluatorDecisions_eq.trans same.evaluatorDecisions_eq,
    kept.recoveryStates_eq.trans same.recoveryStates_eq,
    kept.retryDirectives_eq.trans same.retryDirectives_eq⟩

theorem operates_evaluators (operates : Operates db db') :
    db'.evaluatorDecisions = db.evaluatorDecisions :=
  (operates_planned operates).evaluatorDecisions_eq

theorem mem_readPipelineEvaluatorDecisions {runId : String} {entry : EvaluatorDecision} :
    entry ∈ readPipelineEvaluatorDecisions db runId ↔
      db.evaluatorDecisions.find? (runId, entry.edgeKey) =
        some ⟨runId, entry.edgeKey, entry.selected, entry.recordedAt⟩ := by
  simp only [readPipelineEvaluatorDecisions, List.mem_map, mem_orderBy, List.mem_filter,
    decide_eq_true_eq]
  rw [Table.find?_eq_some]
  constructor
  · rintro ⟨row, ⟨member, rfl⟩, rfl⟩
    exact ⟨member, rfl⟩
  · rintro ⟨member, _⟩
    exact ⟨_, ⟨member, rfl⟩, rfl⟩

theorem nodup_readPipelineEvaluatorDecisions (db : StateDatabase) (runId : String) :
    ((readPipelineEvaluatorDecisions db runId).map EvaluatorDecision.edgeKey).Nodup := by
  have rows := db.evaluatorDecisions.nodup_slice runId
  rw [readPipelineEvaluatorDecisions, List.map_map]
  exact ((List.perm_insertionSort _ _).map _).nodup_iff.mpr rows

end Evaluators

/-- Some operations on the store, then a tick of one run. -/
structure Visit where
  operations : List Operation := []
  runId : String
  now : String

/-- Visit after visit, up to the first that throws. -/
def serve [Sha256] : List Visit → StateDatabase → List DaemonTick
  | [], _ => []
  | visit :: visits, db =>
    match visit.operations.foldlM perform db with
    | .error _ => []
    | .ok before =>
      match tickAttempt before visit.runId visit.now with
      | .error _ => []
      | .ok (_, input, plan, after) =>
        ⟨before, visit.runId, visit.now, input, plan, after⟩ :: serve visits after

theorem serve_head [Sha256] {visits : List Visit} {db : StateDatabase} :
    ∀ tick ∈ (serve visits db).head?, Operates db tick.before := by
  intro tick first
  cases visits with
  | nil => cases first
  | cons visit visits =>
    rw [serve] at first
    split at first
    · cases first
    · rename_i before performed
      split at first
      · cases first
      · cases first
        exact ⟨visit.operations, performed⟩

theorem serve_run [Sha256] (visits : List Visit) : ServiceRun (serve visits emptyDatabase) := by
  refine ⟨?_, serve_head, ?_⟩
  · generalize emptyDatabase = db
    induction visits generalizing db with
    | nil => simp [serve]
    | cons visit visits ih =>
      rw [serve]
      split
      · simp
      · split
        · simp
        · rename_i result input plan after ran
          exact List.forall_mem_cons.mpr ⟨⟨result, ran⟩, ih after⟩
  · generalize emptyDatabase = db
    induction visits generalizing db with
    | nil => exact .nil
    | cons visit visits ih =>
      rw [serve]
      split
      · exact .nil
      · split
        · exact .nil
        · rename_i result input plan after ran
          exact List.isChain_cons.mpr ⟨serve_head, ih after⟩

end Heniek.PipelineRunner
