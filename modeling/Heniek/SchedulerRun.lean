import Heniek.StageChanges
import Mathlib.Data.List.Chain

/-!
Runs of the scheduler. A tick is an input with the plan that one of the two
entry points returns for it. The next tick of the same schedule is handed the
stages and the recovery state of the plan before, under the same graph and at a
time that is not earlier; its observations, limits, mode, canonical state,
evaluator answers and deadline are whatever its caller supplies.

`Trace` opens a tick: the context it starts from, the context its phases end in
and the context with the terminal decision.
-/

namespace Heniek.SchedulerRun
open KeyedTable PipelineVocabulary PipelineDocument RecoveryPolicy ScriptText
open SchedulerTick SchedulerSteps StageChanges FallibleRun

structure TickRecord where
  input : SchedulerInput
  plan : SchedulerPlan

def Ticked [Sha256] (tick : TickRecord) : Prop :=
  tickScheduler tick.input = .ok tick.plan ∨ tickSchedulerV2 tick.input = .ok tick.plan

structure Follows (tick next : TickRecord) : Prop where
  runId_eq : next.input.runId = tick.input.runId
  pipelineId_eq : next.input.pipelineId = tick.input.pipelineId
  graphRevision_eq : next.input.graphRevision = tick.input.graphRevision
  graph_eq : next.input.graph = tick.input.graph
  later : before next.input.now tick.input.now = false
  stages_eq : next.input.stages = tick.plan.stagePatches
  recovery_eq : next.input.recoveryState.getD [] = tick.plan.recoveryState.getD []

structure Run [Sha256] (ticks : List TickRecord) : Prop where
  ticked : ∀ tick ∈ ticks, Ticked tick
  chained : ticks.IsChain Follows

/-- The first tick of a schedule: the snapshots the schedule was created with. -/
structure Starts (input : SchedulerInput) : Prop where
  stages_eq : ∃ now, input.stages =
    initialStageSnapshots input.runId input.graphRevision input.graph now
  recovery_eq : input.recoveryState.getD [] = []

/-- A run of a schedule from its creation. -/
structure FullRun [Sha256] (ticks : List TickRecord) : Prop extends Run ticks where
  starts : ∀ tick ∈ ticks.head?, Starts tick.input

def initialInput (graph : PipelineGraph) (runId pipelineId now : String) : SchedulerInput where
  runId := runId
  pipelineId := pipelineId
  graphRevision := 1
  scheduleRevision := 0
  graph := graph
  now := now
  stages := initialStageSnapshots runId 1 graph now
  observations := []
  canonicalState := .null

theorem initialInput_starts (graph : PipelineGraph) (runId pipelineId now : String) :
    Starts (initialInput graph runId pipelineId now) := ⟨⟨now, rfl⟩, rfl⟩

/-- A digest for schedules without classified failures, which compute none. -/
abbrev blankDigest : Sha256 := ⟨fun _ => ""⟩

def timeoutFailure : PipelineFailure where
  category := .transient
  classification := "timeout"
  phase := "start"
  code := "attempt_timeout"
  retryable := true
  runnerRetryable := true

/-- SHA-256 on the one payload that schedules with timeouts digest. -/
abbrev timeoutDigest : Sha256 :=
  ⟨fun _ => "c8f946bba6942f8443a8dece020178d60b9784c5d954ea8232a0777380a38f1a"⟩

def repairable : PipelineGraph where
  mode := .autonomous
  limits := { maxRepairAttempts := some 3 }
  stages := [{ id := "build", type := .agent, mode := .autonomous, optional := false }]
  edges := []

/-- What the caller of a later tick supplies. -/
structure Call where
  now : String
  observations : List SchedulerObservation := []
  pendingEvaluatorEdgeKeys : List String := []
  evaluatorDecisions : List EvaluatorDecision := []

def stageObservation (observationId stageId recordedAt : String) (kind : ObservationKind) :
    SchedulerObservation where
  observationId := observationId
  kind := kind
  stageId := some stageId
  recordedAt := recordedAt

def nextInput (input : SchedulerInput) (plan : SchedulerPlan) (call : Call) : SchedulerInput :=
  { input with
    now := call.now
    scheduleRevision := plan.nextScheduleRevision
    stages := plan.stagePatches
    observations := call.observations
    pendingEvaluatorEdgeKeys := call.pendingEvaluatorEdgeKeys
    evaluatorDecisions := call.evaluatorDecisions
    recoveryState := plan.recoveryState }

theorem follows_of_nextInput {tick next : TickRecord} {call : Call}
    (given : next.input = nextInput tick.input tick.plan call)
    (later : before call.now tick.input.now = false) : Follows tick next := by
  obtain ⟨input, plan⟩ := next
  subst given
  exact ⟨rfl, rfl, rfl, rfl, later, rfl, rfl⟩

theorem createTickContext_eq_ok {input : SchedulerInput} {v2 : Bool} {start : TickContext}
    (created : createTickContext input v2 = .ok start) :
    edgesResolved input.graph = true ∧ start.input = input ∧
      start.working = workingStages input ∧ start.cancelRequested = false ∧
      start.deadlineExceeded = input.deadlineAt.any (fun deadline => !before input.now deadline) ∧
      start.transitions = [] ∧ start.decisions = [] ∧ start.intents = [] ∧ start.attempts = [] ∧
      start.recorded = [] := by
  unfold createTickContext at created
  split at created
  · rename_i resolved
    cases created
    exact ⟨resolved, rfl, rfl, rfl, rfl, rfl, rfl, rfl, rfl, rfl⟩
  · cases created

section Working

variable {working : Table StageSnapshot.stageId} {stages : List PipelineStage}
variable {fresh : String → StageSnapshot} {id : String}

def addMissing (fresh : String → StageSnapshot) (working : Table StageSnapshot.stageId)
    (stages : List PipelineStage) : Table StageSnapshot.stageId :=
  stages.foldl
    (fun working stage =>
      if stage.id ∈ working.keys then working else working.upsert (fresh stage.id)) working

theorem find?_addMissing (keyed : ∀ id, (fresh id).stageId = id) :
    (addMissing fresh working stages).find? id =
      if id ∈ working.keys then working.find? id
      else if id ∈ stages.map PipelineStage.id then some (fresh id) else none := by
  induction stages generalizing working with
  | nil =>
    split
    · rfl
    · rename_i absent
      exact Table.find?_eq_none.mpr absent
  | cons stage stages ih =>
    change (addMissing fresh (if stage.id ∈ working.keys then working
      else working.upsert (fresh stage.id)) stages).find? id = _
    rw [ih]
    simp only [List.map_cons, List.mem_cons]
    by_cases present : stage.id ∈ working.keys
    · rw [if_pos present]
      by_cases known : id ∈ working.keys
      · simp only [known, if_true]
      · have other : id ≠ stage.id := fun same => known (same ▸ present)
        simp only [known, other, false_or]
    · rw [if_neg present]
      simp only [Table.mem_keys_upsert, Table.find?_upsert, keyed]
      by_cases same : id = stage.id
      · subst same
        simp [present]
      · simp [same]

end Working

theorem find?_workingStages (input : SchedulerInput) (id : String) :
    (workingStages input).find? id =
      if id ∈ input.stages.map StageSnapshot.stageId then
        (Table.empty.upsertAll input.stages : Table StageSnapshot.stageId).find? id
      else if id ∈ stageIds input.graph then
        some (initialStage input.runId input.graphRevision input.now id)
      else none := by
  have keys : id ∈ (Table.empty.upsertAll input.stages : Table StageSnapshot.stageId).keys ↔
      id ∈ input.stages.map StageSnapshot.stageId := by
    rw [Table.mem_keys_upsertAll]
    simp
  have fresh : ∀ id, (initialStage input.runId input.graphRevision input.now id).stageId = id :=
    fun _ => rfl
  have added : (workingStages input).find? id = _ := find?_addMissing fresh
  simp only [keys] at added
  exact added

theorem mem_workingStages_keys {input : SchedulerInput} {id : String} :
    id ∈ (workingStages input).keys ↔
      id ∈ input.stages.map StageSnapshot.stageId ∨ id ∈ stageIds input.graph := by
  rw [← Table.find?_isSome, find?_workingStages]
  split
  · rename_i given
    have present : id ∈ (Table.empty.upsertAll input.stages : Table StageSnapshot.stageId).keys :=
      Table.mem_keys_upsertAll.mpr (Or.inr given)
    simp [Table.find?_isSome.mpr present, given]
  · rename_i missing
    split
    · rename_i declared
      simp [declared]
    · rename_i undeclared
      simp [missing, undeclared]

theorem mem_workingStages {input : SchedulerInput} {stage : StageSnapshot}
    (member : stage ∈ (workingStages input).rows) :
    stage ∈ input.stages ∨
      stage = initialStage input.runId input.graphRevision input.now stage.stageId := by
  have found := Table.find?_key member
  rw [find?_workingStages] at found
  split at found
  · rcases Table.mem_of_find?_upsertAll found with given | impossible
    · exact Or.inl given
    · cases impossible
  · split at found
    · exact Or.inr (Option.some.inj found).symm
    · cases found

theorem mem_workingStages_iff {input : SchedulerInput}
    (covers : ∀ id ∈ stageIds input.graph, id ∈ input.stages.map StageSnapshot.stageId)
    (agree : ∀ a ∈ input.stages, ∀ b ∈ input.stages, a.stageId = b.stageId → a = b)
    {stage : StageSnapshot} : stage ∈ (workingStages input).rows ↔ stage ∈ input.stages := by
  constructor
  · intro member
    have present := mem_workingStages_keys.mp (Table.mem_keys_of_mem member)
    have listed : stage.stageId ∈ input.stages.map StageSnapshot.stageId :=
      present.elim id (covers _)
    have found := Table.find?_key member
    rw [find?_workingStages, if_pos listed] at found
    rcases Table.mem_of_find?_upsertAll found with given | impossible
    · exact given
    · cases impossible
  · intro given
    have listed : stage.stageId ∈ input.stages.map StageSnapshot.stageId :=
      List.mem_map_of_mem given
    obtain ⟨row, found⟩ := Table.exists_find? (mem_workingStages_keys.mpr (Or.inl listed))
    have located := found
    rw [find?_workingStages, if_pos listed] at located
    rcases Table.mem_of_find?_upsertAll located with member | impossible
    · rw [agree stage given row member (Table.key_of_find? found).symm]
      exact Table.mem_of_find? found
    · cases impossible

theorem find?_workingStages_of_nodup {input : SchedulerInput} {rows : List StageSnapshot}
    (given : input.stages.Perm rows) (distinct : (rows.map StageSnapshot.stageId).Nodup)
    (covers : ∀ id ∈ stageIds input.graph, id ∈ rows.map StageSnapshot.stageId) (id : String) :
    (workingStages input).find? id =
      (⟨rows, distinct⟩ : Table StageSnapshot.stageId).find? id := by
  have ids : ∀ id, id ∈ input.stages.map StageSnapshot.stageId ↔
      id ∈ rows.map StageSnapshot.stageId := fun id => (given.map _).mem_iff
  rw [find?_workingStages]
  simp only [ids]
  split
  · rename_i present
    obtain ⟨stage, member, rfl⟩ := List.mem_map.mp present
    have inputDistinct : (input.stages.map StageSnapshot.stageId).Nodup :=
      (given.map _).nodup_iff.mpr distinct
    rw [Table.find?_upsertAll_of_nodup inputDistinct (given.mem_iff.mpr member)]
    exact (Table.find?_eq_some.mpr ⟨member, rfl⟩).symm
  · rename_i absent
    rw [if_neg fun declared => absent (covers id declared)]
    exact (Table.find?_eq_none.mpr absent).symm

theorem mem_initialStageSnapshots {runId now : String} {graphRevision : Nat}
    {graph : PipelineGraph} {stage : StageSnapshot} :
    stage ∈ initialStageSnapshots runId graphRevision graph now ↔
      stage.stageId ∈ stageIds graph ∧
        stage = initialStage runId graphRevision now stage.stageId := by
  rw [initialStageSnapshots, mem_sortBy, List.mem_map]
  constructor
  · rintro ⟨definition, member, rfl⟩
    exact ⟨List.mem_map_of_mem member, rfl⟩
  · rintro ⟨declared, same⟩
    obtain ⟨definition, member, id⟩ := List.mem_map.mp declared
    exact ⟨definition, member, by rw [id, ← same]⟩

variable [Sha256]

/-- The contexts a tick goes through. -/
structure Trace (tick : TickRecord) where
  input : SchedulerInput
  v2 : Bool
  start : TickContext
  settled : TickContext
  final : TickContext
  input_eq : ∃ version, input = { tick.input with schemaVersion := version }
  created : createTickContext input v2 = .ok start
  phases : runPhases start = .ok settled
  terminal_eq : computeTerminal settled = .ok tick.plan.terminal
  recorded : recordTerminal settled tick.plan.terminal = .ok final
  transitions_eq : tick.plan.transitions = final.transitions
  decisions_eq : tick.plan.decisions = sortDecisions final.decisions
  intents_eq : tick.plan.intents = sortBy SchedulerIntent.intentId final.intents
  attempts_eq : tick.plan.attempts = sortBy StageAttempt.attemptId final.attempts
  stagePatches_eq : tick.plan.stagePatches = sortBy StageSnapshot.stageId final.working.rows
  consumed_eq : tick.plan.consumedObservationIds = sortTexts final.consumedObservationIds
  runId_eq : tick.plan.runId = final.input.runId
  expected_eq : tick.plan.expectedScheduleRevision = final.input.scheduleRevision

/-- The tick handles the observation in this context. -/
def Handled (tick : TickRecord) (ctx : TickContext) (observation : SchedulerObservation) : Prop :=
  ∃ (trace : Trace tick) (done rest : List SchedulerObservation),
    sortObservations trace.start.input.observations = done ++ observation :: rest ∧
      done.foldlM processObservation trace.start = .ok ctx

theorem trace_of_tickWith {v2 : Bool} {input : SchedulerInput} {final : TickContext}
    {plan : SchedulerPlan} (ticked : tickWith v2 input = .ok (final, plan)) :
    ∃ start settled, createTickContext input v2 = .ok start ∧ runPhases start = .ok settled ∧
      computeTerminal settled = .ok plan.terminal ∧
      recordTerminal settled plan.terminal = .ok final ∧ plan = planOf final plan.terminal := by
  obtain ⟨start, created, ran⟩ := bind_eq_ok.mp ticked
  obtain ⟨settled, phases, ran⟩ := bind_eq_ok.mp ran
  obtain ⟨terminal, computed, ran⟩ := bind_eq_ok.mp ran
  obtain ⟨last, recorded, planned⟩ := bind_eq_ok.mp ran
  cases planned
  exact ⟨start, settled, created, phases, computed, recorded, rfl⟩

theorem Ticked.trace {tick : TickRecord} (ticked : Ticked tick) : Nonempty (Trace tick) := by
  obtain ⟨input, plan⟩ := tick
  rcases ticked with ticked | ticked
  · obtain ⟨⟨final, same⟩, ran, rfl⟩ := map_eq_ok.mp ticked
    obtain ⟨start, settled, created, phases, computed, recorded, planned⟩ := trace_of_tickWith ran
    exact ⟨⟨input, _, start, settled, final, ⟨input.schemaVersion, rfl⟩, created, phases, computed,
      recorded, congrArg _ planned, congrArg _ planned, congrArg _ planned, congrArg _ planned,
      congrArg _ planned, congrArg _ planned, congrArg _ planned, congrArg _ planned⟩⟩
  · obtain ⟨⟨final, same⟩, ran, planned⟩ := bind_eq_ok.mp ticked
    cases planned
    obtain ⟨start, settled, created, phases, computed, recorded, planned⟩ := trace_of_tickWith ran
    exact ⟨⟨_, true, start, settled, final, ⟨2, rfl⟩, created, phases, computed, recorded,
      congrArg SchedulerPlan.transitions planned, congrArg SchedulerPlan.decisions planned,
      congrArg SchedulerPlan.intents planned, congrArg SchedulerPlan.attempts planned,
      congrArg SchedulerPlan.stagePatches planned,
      congrArg SchedulerPlan.consumedObservationIds planned,
      congrArg SchedulerPlan.runId planned,
      congrArg SchedulerPlan.expectedScheduleRevision planned⟩⟩

namespace Trace

variable {tick next : TickRecord}

theorem start_input (trace : Trace tick) : trace.start.input = trace.input :=
  (createTickContext_eq_ok trace.created).2.1

theorem start_working (trace : Trace tick) : trace.start.working = workingStages trace.input :=
  (createTickContext_eq_ok trace.created).2.2.1

theorem start_stage? (trace : Trace tick) (id : String) :
    trace.start.stage? id = (workingStages tick.input).find? id := by
  obtain ⟨version, same⟩ := trace.input_eq
  rw [TickContext.stage?, trace.start_working, same]
  rfl

theorem start_ids (trace : Trace tick) : trace.start.input.runId = tick.input.runId ∧
    trace.start.input.graphRevision = tick.input.graphRevision ∧
    trace.start.input.graph = tick.input.graph := by
  obtain ⟨version, same⟩ := trace.input_eq
  rw [trace.start_input, same]
  exact ⟨rfl, rfl, rfl⟩

theorem final_eq (trace : Trace tick) :
    trace.final = trace.settled ∨
      ∃ request, (request.action = .terminal ∧ request.fromState = none) ∧
        trace.final = recordDecision trace.settled request := by
  have recorded := trace.recorded
  cases outcome : tick.plan.terminal with
  | none =>
    rw [outcome] at recorded
    exact Or.inl (Except.ok.inj recorded).symm
  | some terminal =>
    rw [outcome] at recorded
    obtain ⟨stageId, _, done⟩ := bind_eq_ok.mp recorded
    exact Or.inr ⟨_, ⟨rfl, rfl⟩, (Except.ok.inj done).symm⟩

theorem final_working (trace : Trace tick) : trace.final.working = trace.settled.working := by
  rcases trace.final_eq with same | ⟨request, _, same⟩
  · rw [same]
  · rw [same]
    rfl

theorem final_fields (trace : Trace tick) : trace.final.attempts = trace.settled.attempts ∧
    trace.final.intents = trace.settled.intents ∧
    trace.final.transitions = trace.settled.transitions := by
  rcases trace.final_eq with same | ⟨request, _, same⟩ <;> rw [same] <;> exact ⟨rfl, rfl, rfl⟩

theorem start_evaluators (trace : Trace tick) :
    trace.start.evaluatorDecisions = Table.empty.upsertAll
        (tick.input.evaluatorDecisions.map fun entry => ⟨entry.edgeKey, entry.selected⟩) ∧
      trace.start.pendingEvaluators = tick.input.pendingEvaluatorEdgeKeys := by
  obtain ⟨version, same⟩ := trace.input_eq
  have created := trace.created
  rw [createTickContext, if_pos (createTickContext_eq_ok created).1] at created
  rw [← Except.ok.inj created, same]
  exact ⟨rfl, rfl⟩

theorem steps {admits : TickContext → SchedulerObservation → Prop} (trace : Trace tick)
    (admitted : ∀ ctx, ∀ observation ∈ tick.input.observations, admits ctx observation) :
    Steps admits (tickScope trace.start) trace.start trace.settled := by
  refine runPhases_steps ?_ trace.phases
  intro done observation rest mid split _
  apply admitted
  have listed : observation ∈ sortObservations trace.start.input.observations := by
    rw [split]
    exact List.mem_append_right _ List.mem_cons_self
  rw [sortObservations, List.mem_insertionSort, trace.start_input] at listed
  obtain ⟨version, same⟩ := trace.input_eq
  rw [same] at listed
  exact listed

theorem steps_handled {admits : TickContext → SchedulerObservation → Prop} (trace : Trace tick)
    (admitted : ∀ ctx observation, Handled tick ctx observation →
      admits (consumeObservation ctx observation) observation) :
    Steps admits (tickScope trace.start) trace.start trace.settled := by
  refine runPhases_steps ?_ trace.phases
  intro done observation rest mid split folded
  exact admitted mid observation ⟨trace, done, rest, split, folded⟩

theorem free_steps (trace : Trace tick) :
    Steps (fun _ _ => True) (tickScope trace.start) trace.start trace.settled :=
  trace.steps fun _ _ _ => trivial

theorem final_input (trace : Trace tick) : trace.final.input = trace.start.input := by
  have kept : trace.settled.input = trace.start.input :=
    steps_input trace.free_steps
  rw [← kept]
  rcases trace.final_eq with same | ⟨request, _, same⟩
  · rw [same]
  · rw [same]
    rfl

theorem keys (trace : Trace tick) : trace.final.working.keys = trace.start.working.keys := by
  rw [trace.final_working]
  exact steps_keys trace.free_steps

theorem stagePatches_perm (trace : Trace tick) :
    tick.plan.stagePatches.Perm trace.final.working.rows := by
  rw [trace.stagePatches_eq]
  exact sortBy_perm _ _

theorem start_find? (trace : Trace tick) (later : Trace next) (follows : Follows tick next)
    (id : String) : later.start.working.find? id = trace.final.working.find? id := by
  obtain ⟨version, same⟩ := trace.input_eq
  obtain ⟨version', same'⟩ := later.input_eq
  have given : later.input.stages.Perm trace.final.working.rows := by
    rw [same']
    exact follows.stages_eq ▸ trace.stagePatches_perm
  rw [later.start_working]
  refine find?_workingStages_of_nodup given trace.final.working.distinct ?_ id
  intro id declared
  have graphs : stageIds later.input.graph = stageIds trace.input.graph := by
    rw [same, same']
    exact congrArg stageIds follows.graph_eq
  have present : id ∈ trace.final.working.keys := by
    rw [trace.keys, trace.start_working, mem_workingStages_keys, ← graphs]
    exact Or.inr declared
  exact present

theorem start_mem (trace : Trace tick) (later : Trace next) (follows : Follows tick next)
    {stage : StageSnapshot} :
    stage ∈ later.start.working.rows ↔ stage ∈ trace.final.working.rows := by
  have found : ∀ {table : Table StageSnapshot.stageId}, stage ∈ table.rows ↔
      table.find? stage.stageId = some stage := by
    simp [Table.find?_eq_some]
  rw [found, found, trace.start_find? later follows]

end Trace

theorem Handled.mem {tick : TickRecord} {ctx : TickContext} {observation : SchedulerObservation}
    (handled : Handled tick ctx observation) : observation ∈ tick.input.observations := by
  obtain ⟨trace, done, rest, split, _⟩ := handled
  obtain ⟨version, same⟩ := trace.input_eq
  have listed : observation ∈ sortObservations trace.start.input.observations := by
    rw [split]
    exact List.mem_append_right _ List.mem_cons_self
  rw [sortObservations, List.mem_insertionSort, trace.start_input, same] at listed
  exact listed

theorem Handled.steps {admits : TickContext → SchedulerObservation → Prop} {tick : TickRecord}
    {ctx : TickContext} {observation : SchedulerObservation}
    (handled : Handled tick ctx observation)
    (admitted : ∀ ctx observation, Handled tick ctx observation →
      admits (consumeObservation ctx observation) observation) :
    ∃ trace : Trace tick, Steps admits .quiet trace.start ctx := by
  obtain ⟨trace, done, rest, split, folded⟩ := handled
  refine ⟨trace, observations_steps ?_ folded⟩
  intro before earlier after mid parts reached
  refine admitted mid earlier ⟨trace, before, after ++ observation :: rest, ?_, reached⟩
  rw [split, parts, List.append_assoc, List.cons_append]

theorem Handled.input {tick : TickRecord} {ctx : TickContext} {observation : SchedulerObservation}
    (handled : Handled tick ctx observation) :
    ∃ version, ctx.input = { tick.input with schemaVersion := version } := by
  have reached : ∃ trace : Trace tick, Steps (fun _ _ => True) .quiet trace.start ctx :=
    handled.steps fun _ _ _ => trivial
  obtain ⟨trace, steps⟩ := reached
  obtain ⟨version, same⟩ := trace.input_eq
  exact ⟨version, by rw [steps_input steps, trace.start_input, same]⟩

theorem Run.stages_invariant {P : StageSnapshot → Prop} {tick : TickRecord}
    {ticks : List TickRecord} (run : Run (tick :: ticks))
    (ends : ∀ trace : Trace tick, ∀ stage ∈ trace.final.working.rows, P stage)
    (keeps : ∀ later ∈ ticks, ∀ trace : Trace later,
      (∀ stage ∈ trace.start.working.rows, P stage) → ∀ stage ∈ trace.final.working.rows, P stage) :
    ∀ later ∈ ticks, ∀ trace : Trace later, ∀ stage ∈ trace.start.working.rows, P stage := by
  induction ticks generalizing tick with
  | nil => simp
  | cons next ticks ih =>
    obtain ⟨trace⟩ := (run.ticked tick List.mem_cons_self).trace
    have follows : Follows tick next := (List.isChain_cons_cons.mp run.chained).1
    have begins : ∀ later : Trace next, ∀ stage ∈ later.start.working.rows, P stage := by
      intro later stage member
      exact ends trace stage ((trace.start_mem later follows).mp member)
    have rest := ih ⟨fun later member => run.ticked later (List.mem_cons_of_mem _ member),
      run.chained.tail⟩
      (fun later => keeps next List.mem_cons_self later (begins later))
      (fun later member => keeps later (List.mem_cons_of_mem _ member))
    intro later member
    rcases List.mem_cons.mp member with rfl | member
    · exact begins
    · exact rest later member

theorem Run.constant {ticks : List TickRecord} (run : Run ticks) {tick other : TickRecord}
    (member : tick ∈ ticks) (listed : other ∈ ticks) :
    tick.input.runId = other.input.runId ∧
      tick.input.graphRevision = other.input.graphRevision ∧
      tick.input.graph = other.input.graph := by
  cases ticks with
  | nil => cases member
  | cons first ticks =>
    have heads : ∀ tick ∈ first :: ticks, tick.input.runId = first.input.runId ∧
        tick.input.graphRevision = first.input.graphRevision ∧
        tick.input.graph = first.input.graph := by
      clear member listed
      induction ticks generalizing first with
      | nil => simp
      | cons next ticks ih =>
        have follows : Follows first next := (List.isChain_cons_cons.mp run.chained).1
        have rest := ih next ⟨fun tick member => run.ticked tick (List.mem_cons_of_mem _ member),
          run.chained.tail⟩
        intro tick member
        rcases List.mem_cons.mp member with rfl | member
        · exact ⟨rfl, rfl, rfl⟩
        · obtain ⟨runs, revisions, graphs⟩ := rest tick member
          exact ⟨runs.trans follows.runId_eq, revisions.trans follows.graphRevision_eq,
            graphs.trans follows.graph_eq⟩
    obtain ⟨runs, revisions, graphs⟩ := heads tick member
    obtain ⟨runs', revisions', graphs'⟩ := heads other listed
    exact ⟨runs.trans runs'.symm, revisions.trans revisions'.symm, graphs.trans graphs'.symm⟩

theorem Run.predecessor {ticks : List TickRecord} (run : Run ticks) {tick : TickRecord}
    (member : tick ∈ ticks) :
    tick ∈ ticks.head? ∨ ∃ earlier ∈ ticks, Follows earlier tick := by
  obtain ⟨before, after, rfl⟩ := List.append_of_mem member
  rcases List.eq_nil_or_concat before with rfl | ⟨earlier, last, rfl⟩
  · exact Or.inl rfl
  · right
    rw [List.concat_append] at run
    have chain := (List.isChain_append.mp run.chained).2.1
    exact ⟨last, by simp, (List.isChain_cons_cons.mp chain).1⟩

theorem FullRun.mem_working {ticks : List TickRecord} (run : FullRun ticks) {tick : TickRecord}
    (member : tick ∈ ticks) (trace : Trace tick) {stage : StageSnapshot} :
    stage ∈ trace.start.working.rows ↔ stage ∈ tick.input.stages := by
  obtain ⟨version, same⟩ := trace.input_eq
  rw [trace.start_working]
  rcases run.predecessor member with first | ⟨earlier, listed, follows⟩
  · obtain ⟨now, given⟩ := (run.starts tick first).stages_eq
    have stages : trace.input.stages =
        initialStageSnapshots tick.input.runId tick.input.graphRevision tick.input.graph now := by
      rw [same]
      exact given
    have graphs : trace.input.graph = tick.input.graph := by rw [same]
    rw [given, ← stages]
    refine mem_workingStages_iff ?_ ?_
    · intro id declared
      rw [graphs] at declared
      rw [stages]
      exact List.mem_map.mpr ⟨initialStage tick.input.runId tick.input.graphRevision now id,
        mem_initialStageSnapshots.mpr ⟨declared, rfl⟩, rfl⟩
    · intro a memberA b memberB ids
      rw [stages, mem_initialStageSnapshots] at memberA memberB
      rw [memberA.2, memberB.2, ids]
  · obtain ⟨before⟩ := (run.ticked earlier listed).trace
    rw [← trace.start_working, before.start_mem trace follows, follows.stages_eq,
      before.stagePatches_perm.mem_iff]

theorem FullRun.stages_invariant {P : StageSnapshot → Prop} {ticks : List TickRecord}
    (run : FullRun ticks)
    (fresh : ∀ tick ∈ ticks, ∀ now, ∀ id ∈ stageIds tick.input.graph,
      P (initialStage tick.input.runId tick.input.graphRevision now id))
    (keeps : ∀ tick ∈ ticks, ∀ trace : Trace tick,
      (∀ stage ∈ trace.start.working.rows, P stage) → ∀ stage ∈ trace.final.working.rows, P stage) :
    ∀ tick ∈ ticks, ∀ trace : Trace tick, ∀ stage ∈ trace.start.working.rows, P stage := by
  cases ticks with
  | nil => simp
  | cons first ticks =>
    have begins : ∀ trace : Trace first, ∀ stage ∈ trace.start.working.rows, P stage := by
      intro trace stage member
      obtain ⟨now, given⟩ := (run.starts first rfl).stages_eq
      rw [run.mem_working List.mem_cons_self, given, mem_initialStageSnapshots] at member
      rw [member.2]
      exact fresh first List.mem_cons_self now _ member.1
    have later := run.toRun.stages_invariant
      (fun trace => keeps first List.mem_cons_self trace (begins trace))
      (fun tick member => keeps tick (List.mem_cons_of_mem _ member))
    intro tick member
    rcases List.mem_cons.mp member with rfl | member
    · exact begins
    · exact later tick member

theorem Run.tail {tick : TickRecord} {ticks : List TickRecord} (run : Run (tick :: ticks)) :
    Run ticks :=
  ⟨fun later member => run.ticked later (List.mem_cons_of_mem tick member), run.chained.tail⟩

theorem Run.suffix {earlier ticks : List TickRecord} (run : Run (earlier ++ ticks)) : Run ticks :=
  ⟨fun tick member => run.ticked tick (List.mem_append_right earlier member),
    (List.isChain_append.mp run.chained).2.1⟩

def tickRecords (input : SchedulerInput) : List TickRecord :=
  match tickScheduler input with
  | .error _ => []
  | .ok plan => [⟨input, plan⟩]

/-- Tick after tick, up to the first that throws. -/
def drive : List Call → SchedulerInput → List TickRecord
  | [], input => tickRecords input
  | call :: calls, input =>
    (tickRecords input).flatMap fun tick =>
      tick :: drive calls (nextInput input tick.plan call)

theorem mem_tickRecords {input : SchedulerInput} {tick : TickRecord}
    (member : tick ∈ tickRecords input) : tick.input = input ∧ Ticked tick := by
  unfold tickRecords at member
  split at member
  · cases member
  · rename_i plan planned
    rw [List.mem_singleton.mp member]
    exact ⟨rfl, Or.inl planned⟩

theorem tickRecords_cases (input : SchedulerInput) :
    tickRecords input = [] ∨ ∃ tick, tickRecords input = [tick] ∧
      tick.input = input ∧ Ticked tick := by
  cases records : tickRecords input with
  | nil => exact Or.inl rfl
  | cons tick rest =>
    have single : rest = [] := by
      unfold tickRecords at records
      split at records
      · cases records
      · exact (List.cons.inj records).2.symm
    rw [single]
    have facts := mem_tickRecords (records ▸ List.mem_cons_self : tick ∈ tickRecords input)
    exact Or.inr ⟨tick, rfl, facts⟩

theorem drive_head {calls : List Call} {input : SchedulerInput} :
    ∀ tick ∈ (drive calls input).head?, tick.input = input := by
  intro tick first
  rcases tickRecords_cases input with none | ⟨record, one, same, _⟩
  · cases calls <;> simp [drive, none] at first
  · cases calls with
    | nil =>
      rw [drive, one] at first
      exact Option.some.inj first ▸ same
    | cons call calls =>
      rw [drive, one] at first
      exact Option.some.inj first ▸ same

theorem drive_run {calls : List Call} {input : SchedulerInput}
    (ordered : (input.now :: calls.map Call.now).IsChain fun a b => before b a = false) :
    Run (drive calls input) := by
  induction calls generalizing input with
  | nil =>
    rcases tickRecords_cases input with none | ⟨record, one, _, ticked⟩
    · rw [drive, none]
      exact ⟨by simp, .nil⟩
    · rw [drive, one]
      exact ⟨by simpa using ticked, .singleton record⟩
  | cons call calls ih =>
    rcases tickRecords_cases input with none | ⟨record, one, same, ticked⟩
    · rw [drive, none]
      exact ⟨by simp, .nil⟩
    · rw [drive, one, List.flatMap_singleton]
      have later : Run (drive calls (nextInput input record.plan call)) := ih ordered.tail
      refine ⟨?_, ?_⟩
      · intro tick member
        rcases List.mem_cons.mp member with rfl | member
        · exact ticked
        · exact later.ticked tick member
      · refine List.isChain_cons.mpr ⟨?_, later.chained⟩
        intro tick first
        have given := drive_head tick first
        rw [List.map_cons, List.isChain_cons_cons] at ordered
        subst same
        exact follows_of_nextInput given ordered.1

theorem drive_fullRun {calls : List Call} {input : SchedulerInput} (starts : Starts input)
    (ordered : (input.now :: calls.map Call.now).IsChain fun a b => before b a = false) :
    FullRun (drive calls input) :=
  ⟨drive_run ordered, fun tick first => drive_head tick first ▸ starts⟩

end Heniek.SchedulerRun
