import Heniek.PipelineRunner

/-!
Stage projections and schedules over a run of the service. `AdmittedRun` is a
run whose attachments come from the admission service, which builds the new
graph from the stored one. In such a run every stage of the stored graph has a
projection, so that the projections of a run after a tick are exactly the
stages the tick ended with.
-/

namespace Heniek.StoredStages
open KeyedTable PipelineDocument RecoveryPolicy SchedulerTick SchedulerSteps
open StageChanges SchedulerRun PipelineStore PipelineRunner FallibleRun ScriptText

def edgeBefore (left right : PipelineEdge) : Bool :=
  if left.fromStageId ≠ right.fromStageId then before left.fromStageId right.fromStageId
  else before left.toStageId right.toStageId

/-- The graph of a run with one more stage in front of some of the others. -/
def augmentGraph (current : PipelineGraph) (attached : PipelineStage)
    (dependantStageIds : List String) : PipelineGraph :=
  { current with
    stages := sortBy PipelineStage.id (current.stages ++ [attached])
    edges := List.insertionSort (fun left right => edgeBefore right left = false)
      (current.edges ++ dependantStageIds.map fun dependant =>
        { fromStageId := attached.id, toStageId := dependant }) }

theorem mem_stageIds_augmentGraph {current : PipelineGraph} {attached : PipelineStage}
    {dependantStageIds : List String} {id : String} :
    id ∈ stageIds (augmentGraph current attached dependantStageIds) ↔
      id ∈ stageIds current ∨ id = attached.id := by
  have rows : (stageIds (augmentGraph current attached dependantStageIds)).Perm
      ((current.stages ++ [attached]).map PipelineStage.id) := (sortBy_perm _ _).map _
  rw [rows.mem_iff]
  simp [stageIds]

/-- `handlePipelineAttach` augments the graph it reads from the store. -/
def Admitted (db : StateDatabase) : Operation → Prop
  | .attach input => ∃ schedule graph attached,
      readPipelineSchedule db input.targetRunId = some schedule ∧
      readPipelineGraph db input.targetRunId schedule.graphRevision = .ok graph ∧
      attached.id = input.targetStageId ∧
      input.augmentedGraph = augmentGraph graph attached input.dependantStageIds
  | _ => True

def AdmittedStep (db db' : StateDatabase) : Prop :=
  ∃ operation, Admitted db operation ∧ perform db operation = .ok db'

abbrev AdmittedSteps := Relation.ReflTransGen AdmittedStep

structure AdmittedRun [Sha256] (ticks : List DaemonTick) : Prop where
  committed : ∀ tick ∈ ticks, Committed tick
  starts : ∀ tick ∈ ticks.head?, AdmittedSteps emptyDatabase tick.before
  chained : ticks.IsChain fun tick next => AdmittedSteps tick.after next.before

def attachedStage (input : AttachAdHocStageInput) (graphRevision : Nat) : StageSnapshot where
  runId := input.targetRunId
  stageId := input.targetStageId
  graphRevision := graphRevision
  generation := 1
  state := .succeeded
  attemptOrdinal := 1
  lastTransitionReason := some .attemptSucceeded
  selected := true
  updatedAt := input.now

def attachedRows (db : StateDatabase) (input : AttachAdHocStageInput) (graphRevision : Nat) :
    List StageSnapshot :=
  (readPipelineStageProjections db input.targetRunId).map (fun stage =>
    { stage with graphRevision := graphRevision, updatedAt := input.now }) ++
    [attachedStage input graphRevision]

structure Unmoved (db db' : StateDatabase) : Prop where
  schedules_eq : db'.schedules = db.schedules
  graphRevisions_eq : db'.graphRevisions = db.graphRevisions
  stages_eq : db'.stages = db.stages

structure Created (db : StateDatabase) (input : CreatePipelineScheduleInput)
    (db' : StateDatabase) : Prop where
  fresh : readPipelineSchedule db input.runId = none
  schedules_eq : db'.schedules = db.schedules.upsert (createdSchedule input)
  graphRevisions_eq : db'.graphRevisions =
    db.graphRevisions.upsert ⟨input.runId, 1, input.pipelineId, input.graph, input.now⟩
  stages_eq : db'.stages =
    db.stages.upsertAll (initialStageSnapshots input.runId 1 input.graph input.now)

structure Attached (db : StateDatabase) (input : AttachAdHocStageInput)
    (schedule : PipelineScheduleSnapshot) (db' : StateDatabase) : Prop where
  found : readPipelineSchedule db input.targetRunId = some schedule
  unsettled : schedule.terminalOutcome = none
  schedules_eq : db'.schedules = db.schedules.upsert { schedule with
    graphRevision := schedule.graphRevision + 1
    scheduleRevision := schedule.scheduleRevision + 1
    updatedAt := input.now }
  graphRevisions_eq : db'.graphRevisions = db.graphRevisions.upsert ⟨input.targetRunId,
    schedule.graphRevision + 1, schedule.pipelineId, input.augmentedGraph, input.now⟩
  stages_eq : db'.stages = db.stages.upsertAll (attachedRows db input (schedule.graphRevision + 1))

section Operations

variable {db db' : StateDatabase}

theorem insertStages_eq_ok {rows : List StageSnapshot}
    {table table' : Table fun row : StageSnapshot => (row.runId, row.stageId)}
    (inserted : insertStages rows table = .ok table') : table' = table.upsertAll rows := by
  induction rows generalizing table with
  | nil => exact (Except.ok.inj inserted).symm
  | cons row rows ih =>
    rw [insertStages] at inserted
    split at inserted
    · rename_i next first
      rw [ih inserted, (Table.insert?_eq_some.mp first).2]
      rfl
    · cases inserted

theorem attachStageRows_eq_ok {input : AttachAdHocStageInput} {graphRevision : Nat}
    {table : Table fun row : StageSnapshot => (row.runId, row.stageId)}
    (attached : attachStageRows db input graphRevision = .ok table) :
    table = db.stages.upsertAll (attachedRows db input graphRevision) := by
  rw [insertStages_eq_ok attached]
  simp only [attachedRows, Table.upsertAll, List.foldl_append, List.foldl_map]
  rfl

theorem perform_cases {operation : Operation} (performed : perform db operation = .ok db') :
    Unmoved db db' ∨ (∃ input, operation = .create input ∧ Created db input db') ∨
      ∃ input schedule, operation = .attach input ∧ Attached db input schedule db' := by
  cases operation with
  | create input =>
    obtain ⟨_, _, _, fresh, first, second, inserted, rfl⟩ := createPipelineSchedule_eq_ok performed
    exact Or.inr (Or.inl ⟨input, rfl, fresh, (Table.insert?_eq_some.mp second).2,
      (Table.insert?_eq_some.mp first).2, insertStages_eq_ok inserted⟩)
  | observe runId observation =>
    rw [recordPipelineObservation_eq_ok performed]
    exact Or.inl ⟨rfl, rfl, rfl⟩
  | deliver intentId deliveredAt =>
    obtain ⟨_, rfl⟩ := markPipelineSchedulerIntentDelivered_eq_ok performed
    exact Or.inl ⟨rfl, rfl, rfl⟩
  | canonical runId state expectedRevision now =>
    obtain ⟨_, rfl⟩ := perform_canonical performed
    exact Or.inl ⟨rfl, rfl, rfl⟩
  | attach input =>
    rcases attachAdHocStage_eq_ok performed with
      rfl | ⟨schedule, _, _, _, found, _, unsettled, inserted, attached, rfl⟩
    · exact Or.inl ⟨rfl, rfl, rfl⟩
    · exact Or.inr (Or.inr ⟨input, schedule, rfl, found, unsettled, rfl,
        (Table.insert?_eq_some.mp inserted).2, attachStageRows_eq_ok attached⟩)

end Operations

section Ticks

variable {db : StateDatabase}

theorem updateStage_eq_ok {attempts : Table PipelineStageAttemptRow.attemptId}
    {table table' : Table fun row : StageSnapshot => (row.runId, row.stageId)}
    {patch : StageSnapshot} (updated : updateStage db attempts table patch = .ok table')
    (present : (patch.runId, patch.stageId) ∈ table.keys) : table' = table.upsert patch := by
  rw [updateStage, if_pos present, upsertRow] at updated
  split at updated
  · exact (Except.ok.inj updated).symm
  · cases updated

theorem updateStages_eq_ok {attempts : Table PipelineStageAttemptRow.attemptId}
    {table table' : Table fun row : StageSnapshot => (row.runId, row.stageId)}
    {patches : List StageSnapshot}
    (updated : patches.foldlM (updateStage db attempts) table = .ok table')
    (present : ∀ patch ∈ patches, (patch.runId, patch.stageId) ∈ table.keys) :
    table' = table.upsertAll patches := by
  induction patches generalizing table with
  | nil => exact (Except.ok.inj updated).symm
  | cons patch patches ih =>
    obtain ⟨next, first, rest⟩ := foldlM_cons_eq_ok.mp updated
    have same := updateStage_eq_ok first (present patch List.mem_cons_self)
    subst same
    refine ih rest ?_
    intro later member
    exact Table.mem_keys_upsert.mpr (Or.inl (present later (List.mem_cons_of_mem patch member)))

theorem Change.runId_eq [Sha256] {admits : TickContext → SchedulerObservation → Prop}
    {scope : Scope} {ctx : TickContext} {stage next : StageSnapshot}
    (change : Change admits scope ctx stage next) : next.runId = stage.runId := by
  cases change <;> rfl

theorem mem_readPipelineStageProjections {runId : String} {stage : StageSnapshot} :
    stage ∈ readPipelineStageProjections db runId ↔
      stage ∈ db.stages.rows ∧ stage.runId = runId := by
  simp [readPipelineStageProjections]

variable [Sha256] {tick : DaemonTick}

/-- The schedule and the graph a tick was computed from, and the schedule row it leaves. -/
structure Planned (tick : DaemonTick) (schedule : PipelineScheduleSnapshot)
    (graph : PipelineGraph) : Prop where
  found : readPipelineSchedule tick.before tick.runId = some schedule
  read : readPipelineGraph tick.before tick.runId schedule.graphRevision = .ok graph
  input_eq : tick.input =
    schedulerInput (inputParts tick.before tick.runId schedule graph) tick.runId tick.now
  schedules_eq : tick.after.schedules =
    tick.before.schedules.upsert (updatedSchedule schedule tick.plan)

theorem planned (committed : Committed tick) : ∃ schedule graph, Planned tick schedule graph := by
  have run := committed.wrote.2
  obtain ⟨result, ran⟩ := committed
  obtain ⟨_, _, fresh⟩ := tickAttempt_wrote ran
  obtain ⟨loaded, _, applied⟩ := tickAttempt_eq_ok.mp ran
  obtain ⟨schedule, graph, found, read, input⟩ := toSchedulerInput_eq_ok loaded
  refine ⟨schedule, graph, found, read, input, ?_⟩
  unfold applyPipelineSchedulerPlan at applied
  rw [run, found] at applied
  dsimp only at applied
  split at applied
  · have conflict := congrArg Prod.fst (Except.ok.inj applied)
    exact absurd conflict.symm (fresh schedule.scheduleRevision)
  · exact (writePlan_eq_ok applied).2.1

/-- Every stage of the stored graph has a projection. -/
def Covered (db : StateDatabase) (schedule : PipelineScheduleSnapshot) : Prop :=
  ∀ row, db.graphRevisions.find? (schedule.runId, schedule.graphRevision) = some row →
    ∀ id ∈ stageIds row.graph, (schedule.runId, id) ∈ db.stages.keys

section Stored

variable {schedule : PipelineScheduleSnapshot} {graph : PipelineGraph}

omit [Sha256] in
theorem Planned.runId_eq (plan : Planned tick schedule graph) : schedule.runId = tick.runId :=
  Table.key_of_find? plan.found

omit [Sha256] in
theorem Planned.covers (plan : Planned tick schedule graph)
    (covered : Covered tick.before schedule) {id : String} (declared : id ∈ stageIds graph) :
    (tick.runId, id) ∈ tick.before.stages.keys := by
  have read := plan.read
  rw [readPipelineGraph] at read
  split at read
  · rename_i row found
    cases read
    rw [← plan.runId_eq] at found ⊢
    exact covered row found id declared
  · cases read

omit [Sha256] in
theorem Planned.mem_stages (plan : Planned tick schedule graph) {stage : StageSnapshot} :
    stage ∈ tick.input.stages ↔
      ∃ row ∈ tick.before.stages.rows, row.runId = tick.runId ∧ stageInput row = stage := by
  rw [plan.input_eq]
  change stage ∈ (readPipelineStageProjections tick.before tick.runId).map stageInput ↔ _
  simp only [List.mem_map, mem_readPipelineStageProjections, and_assoc]

theorem Planned.start (plan : Planned tick schedule graph) (covered : Covered tick.before schedule)
    (trace : Trace tick.record) (id : String) :
    trace.start.stage? id =
      (tick.before.stages.find? (tick.runId, id)).map stageInput := by
  have ids : ∀ id, id ∈ tick.input.stages.map StageSnapshot.stageId ↔
      (tick.runId, id) ∈ tick.before.stages.keys := by
    intro id
    simp only [List.mem_map, plan.mem_stages, Table.keys, Prod.mk.injEq]
    constructor
    · rintro ⟨_, ⟨row, member, run, rfl⟩, same⟩
      exact ⟨row, member, run, same⟩
    · rintro ⟨row, member, run, same⟩
      exact ⟨stageInput row, ⟨row, member, run, rfl⟩, same⟩
  have distinct : (tick.input.stages.map StageSnapshot.stageId).Nodup := by
    have rows := tick.before.stages.nodup_slice tick.runId
    rw [plan.input_eq]
    change (((readPipelineStageProjections tick.before tick.runId).map stageInput).map
      StageSnapshot.stageId).Nodup
    rw [List.map_map]
    exact ((List.perm_insertionSort _ _).map _).nodup_iff.mpr rows
  have covers : ∀ id ∈ stageIds tick.input.graph,
      id ∈ tick.input.stages.map StageSnapshot.stageId := by
    intro id declared
    rw [plan.input_eq] at declared
    exact (ids id).mpr (plan.covers covered declared)
  rw [trace.start_stage?]
  change (workingStages tick.input).find? id = _
  rw [find?_workingStages_of_nodup (List.Perm.refl _) distinct covers]
  apply Option.ext
  intro stage
  rw [Option.map_eq_some_iff]
  simp only [Table.find?_eq_some, plan.mem_stages, Prod.mk.injEq]
  constructor
  · rintro ⟨⟨row, member, run, rfl⟩, same⟩
    exact ⟨row, ⟨member, run, same⟩, rfl⟩
  · rintro ⟨row, ⟨member, run, same⟩, rfl⟩
    exact ⟨⟨row, member, run, rfl⟩, same⟩

theorem Planned.patches (plan : Planned tick schedule graph)
    (covered : Covered tick.before schedule) (trace : Trace tick.record) :
    ∀ patch ∈ tick.plan.stagePatches,
      patch.runId = tick.runId ∧ (patch.runId, patch.stageId) ∈ tick.before.stages.keys := by
  have started : ∀ id stage, trace.start.stage? id = some stage →
      stage.runId = tick.runId ∧ (tick.runId, id) ∈ tick.before.stages.keys := by
    intro id stage found
    rw [plan.start covered, Option.map_eq_some_iff] at found
    obtain ⟨row, stored, rfl⟩ := found
    exact ⟨congrArg Prod.fst (Table.key_of_find? stored), Table.find?_isSome.mp (by simp [stored])⟩
  have runs : ∀ stage ∈ trace.settled.working.rows, stage.runId = tick.runId := by
    refine steps_stages trace.free_steps ?_ ?_
    · intro stage member
      exact (started stage.stageId stage (Table.find?_key member)).1
    · intro mid stage next _ _ run change
      exact (Change.runId_eq change).trans run
  intro patch member
  have row : patch ∈ trace.final.working.rows := trace.stagePatches_perm.mem_iff.mp member
  have run : patch.runId = tick.runId := by
    rw [trace.final_working] at row
    exact runs patch row
  have key : patch.stageId ∈ trace.start.working.keys := by
    rw [← trace.keys]
    exact Table.mem_keys_of_mem row
  obtain ⟨stage, found⟩ := Table.exists_find? key
  rw [run]
  exact ⟨rfl, (started patch.stageId stage found).2⟩

theorem Planned.stages_eq (plan : Planned tick schedule graph) (committed : Committed tick)
    (covered : Covered tick.before schedule) :
    tick.after.stages = tick.before.stages.upsertAll tick.plan.stagePatches := by
  obtain ⟨trace⟩ := committed.trace
  obtain ⟨attempts, updated⟩ := committed.wrote.1.stages
  exact updateStages_eq_ok updated fun patch member => (plan.patches covered trace patch member).2

theorem Planned.stored (plan : Planned tick schedule graph) (committed : Committed tick)
    (covered : Covered tick.before schedule) (trace : Trace tick.record) (id : String) :
    tick.after.stages.find? (tick.runId, id) = trace.final.stage? id := by
  have patches := plan.patches covered trace
  have perm : tick.plan.stagePatches.Perm trace.final.working.rows := trace.stagePatches_perm
  rw [plan.stages_eq committed covered]
  cases found : trace.final.stage? id with
  | none =>
    have absent : (tick.runId, id) ∉
        tick.plan.stagePatches.map fun row => (row.runId, row.stageId) := by
      intro listed
      obtain ⟨patch, member, same⟩ := List.mem_map.mp listed
      refine Table.find?_eq_none.mp found ?_
      rw [← (Prod.mk.inj same).2]
      exact Table.mem_keys_of_mem (perm.mem_iff.mp member)
    have started : trace.start.stage? id = none := by
      rw [TickContext.stage?, Table.find?_eq_none, ← trace.keys]
      exact Table.find?_eq_none.mp found
    rw [plan.start covered, Option.map_eq_none_iff] at started
    rw [Table.find?_upsertAll_of_not_mem absent, started]
  | some stage =>
    have member : stage ∈ tick.plan.stagePatches := perm.mem_iff.mpr (Table.mem_of_find? found)
    have distinct : (tick.plan.stagePatches.map fun row => (row.runId, row.stageId)).Nodup := by
      have ids : (tick.plan.stagePatches.map StageSnapshot.stageId).Nodup :=
        (perm.map _).nodup_iff.mpr trace.final.working.distinct
      exact List.Nodup.of_map Prod.snd (by rwa [List.map_map])
    have key : (stage.runId, stage.stageId) = (tick.runId, id) := by
      rw [(patches stage member).1, stageId_of_stage? found]
    rw [← key]
    exact Table.find?_upsertAll_of_nodup distinct member

theorem Planned.projections (plan : Planned tick schedule graph) (committed : Committed tick)
    (covered : Covered tick.before schedule) (trace : Trace tick.record) {stage : StageSnapshot} :
    stage ∈ readPipelineStageProjections tick.after tick.runId ↔
      stage ∈ trace.final.working.rows := by
  have stored := plan.stored committed covered trace stage.stageId
  rw [mem_readPipelineStageProjections]
  constructor
  · rintro ⟨member, run⟩
    have found : tick.after.stages.find? (tick.runId, stage.stageId) = some stage :=
      Table.find?_eq_some.mpr ⟨member, by rw [run]⟩
    rw [stored] at found
    exact Table.mem_of_find? found
  · intro member
    have found : tick.after.stages.find? (tick.runId, stage.stageId) = some stage :=
      stored.trans (Table.find?_key member)
    exact ⟨Table.mem_of_find? found, congrArg Prod.fst (Table.key_of_find? found)⟩

theorem Planned.others (plan : Planned tick schedule graph) (committed : Committed tick)
    (covered : Covered tick.before schedule) {key : String × String} (other : key.1 ≠ tick.runId) :
    tick.after.stages.find? key = tick.before.stages.find? key := by
  obtain ⟨trace⟩ := committed.trace
  rw [plan.stages_eq committed covered]
  refine Table.find?_upsertAll_of_not_mem ?_
  intro listed
  obtain ⟨patch, member, rfl⟩ := List.mem_map.mp listed
  exact other (plan.patches covered trace patch member).1

end Stored

end Ticks

theorem AdmittedRun.invariant [Sha256] {P : StateDatabase → Prop} {ticks : List DaemonTick}
    (run : AdmittedRun ticks) (initial : P emptyDatabase)
    (operated : ∀ db db', P db → AdmittedStep db db' → P db')
    (ticked : ∀ tick ∈ ticks, P tick.before → Committed tick → P tick.after) :
    ∀ tick ∈ ticks, P tick.before ∧ P tick.after := by
  obtain ⟨committed, starts, chained⟩ := run
  revert initial
  generalize emptyDatabase = db at starts
  intro initial
  induction ticks generalizing db with
  | nil => simp
  | cons tick ticks ih =>
    have before : P tick.before := steps_invariant operated initial (starts tick rfl)
    have after : P tick.after :=
      ticked tick List.mem_cons_self before (committed tick List.mem_cons_self)
    obtain ⟨next, rest⟩ := List.isChain_cons.mp chained
    refine List.forall_mem_cons.mpr ⟨⟨before, after⟩, ?_⟩
    exact ih (fun later member => ticked later (List.mem_cons_of_mem tick member))
      (fun later member => committed later (List.mem_cons_of_mem tick member)) rest
      tick.after next after

def AllCovered (db : StateDatabase) : Prop :=
  ∀ runId schedule, readPipelineSchedule db runId = some schedule → Covered db schedule

theorem covered_step {db db' : StateDatabase} (covered : AllCovered db)
    (step : AdmittedStep db db') : AllCovered db' := by
  obtain ⟨operation, admitted, performed⟩ := step
  intro runId schedule found row read id declared
  have run : schedule.runId = runId := Table.key_of_find? found
  rcases perform_cases performed with same | ⟨input, rfl, created⟩ | ⟨input, stored, rfl, attached⟩
  · rw [readPipelineSchedule, same.schedules_eq] at found
    rw [same.graphRevisions_eq] at read
    rw [same.stages_eq]
    exact covered runId schedule found row read id declared
  · rw [created.stages_eq, Table.mem_keys_upsertAll]
    rw [readPipelineSchedule, created.schedules_eq, Table.find?_upsert] at found
    rw [created.graphRevisions_eq, Table.find?_upsert] at read
    split at found
    · cases found
      simp only [createdSchedule] at read
      cases read
      right
      obtain ⟨stage, member, rfl⟩ := List.mem_map.mp declared
      have listed : initialStage input.runId 1 input.now stage.id ∈
          initialStageSnapshots input.runId 1 input.graph input.now :=
        mem_initialStageSnapshots.mpr ⟨declared, rfl⟩
      exact List.mem_map_of_mem listed
    · rename_i other
      rw [if_neg (fun same => other (run ▸ congrArg Prod.fst same))] at read
      exact Or.inl (covered runId schedule found row read id declared)
  · rw [attached.stages_eq, Table.mem_keys_upsertAll]
    rw [readPipelineSchedule, attached.schedules_eq, Table.find?_upsert] at found
    rw [attached.graphRevisions_eq, Table.find?_upsert] at read
    have target : stored.runId = input.targetRunId := Table.key_of_find? attached.found
    split at found
    · cases found
      rw [if_pos (by rw [target])] at read
      cases read
      obtain ⟨current, graph, attachedStage, known, graphRead, named, augmented⟩ := admitted
      rw [attached.found] at known
      cases known
      rw [augmented, mem_stageIds_augmentGraph] at declared
      rcases declared with declared | rfl
      · left
        rw [readPipelineGraph] at graphRead
        split at graphRead
        · rename_i old foundOld
          cases graphRead
          rw [← target] at foundOld
          exact covered _ _ attached.found old foundOld id declared
        · cases graphRead
      · rw [named, attachedRows]
        simp [StoredStages.attachedStage, target]
    · rename_i other
      rw [if_neg (fun same => other ((run ▸ congrArg Prod.fst same).trans target.symm))] at read
      exact Or.inl (covered runId schedule found row read id declared)

section Runs

variable [Sha256] {tick : DaemonTick} {ticks : List DaemonTick}

omit [Sha256] in
theorem Planned.read_after {schedule : PipelineScheduleSnapshot} {graph : PipelineGraph}
    (plan : Planned tick schedule graph) (runId : String) :
    readPipelineSchedule tick.after runId =
      if runId = tick.runId then some (updatedSchedule schedule tick.plan)
      else readPipelineSchedule tick.before runId := by
  rw [readPipelineSchedule, plan.schedules_eq, Table.find?_upsert]
  have key : (updatedSchedule schedule tick.plan).runId = tick.runId := plan.runId_eq
  rw [key]
  rfl

theorem covered_tick (covered : AllCovered tick.before) (committed : Committed tick) :
    AllCovered tick.after := by
  obtain ⟨stored, graph, plan⟩ := planned committed
  intro runId schedule found row read id declared
  rw [plan.read_after] at found
  rw [committed.wrote.1.graphRevisions_eq] at read
  rw [plan.stages_eq committed (covered _ _ plan.found), Table.mem_keys_upsertAll]
  left
  split at found
  · cases found
    exact covered _ _ plan.found row read id declared
  · exact covered runId schedule found row read id declared

end Runs

def attaches : Operation → Bool
  | .attach _ => true
  | _ => false

def plain (visits : List Visit) : Bool :=
  visits.all fun visit => visit.operations.all fun operation => !attaches operation

theorem admitted_of_plain {operations : List Operation} {db db' : StateDatabase}
    (unattached : (operations.all fun operation => !attaches operation) = true)
    (performed : operations.foldlM perform db = .ok db') : AdmittedSteps db db' := by
  refine foldlM_steps ?_ performed
  intro operation member first second done
  refine Relation.ReflTransGen.single ⟨operation, ?_, done⟩
  have allowed := List.all_eq_true.mp unattached operation member
  cases operation with
  | attach input => cases allowed
  | _ => trivial

theorem serve_admitted [Sha256] {visits : List Visit} (unattached : plain visits = true) :
    AdmittedRun (serve visits emptyDatabase) := by
  have heads : ∀ (visits : List Visit) (db : StateDatabase), plain visits = true →
      ∀ tick ∈ (serve visits db).head?, AdmittedSteps db tick.before := by
    intro visits db unattached tick first
    cases visits with
    | nil => cases first
    | cons visit visits =>
      rw [plain, List.all_cons, Bool.and_eq_true] at unattached
      rw [serve] at first
      split at first
      · cases first
      · rename_i before performed
        split at first
        · cases first
        · cases first
          exact admitted_of_plain unattached.1 performed
  refine ⟨(serve_run visits).committed, heads visits _ unattached, ?_⟩
  generalize emptyDatabase = db
  induction visits generalizing db with
  | nil => exact .nil
  | cons visit visits ih =>
    rw [plain, List.all_cons, Bool.and_eq_true] at unattached
    rw [serve]
    split
    · exact .nil
    · split
      · exact .nil
      · rename_i result input plan after ran
        exact List.isChain_cons.mpr ⟨heads visits after unattached.2, ih unattached.2 after⟩

end Heniek.StoredStages
