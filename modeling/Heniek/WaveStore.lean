import Heniek.WavePlan

/-!
The store of the task waves: the lifecycle of every task, the plans, the dispatches and
the capacity leases of the tasks that run. An operation is one transaction. The audit
events and the times of update are left out: no operation reads them. The checks on the
columns of a lifecycle row are left out too, since every update keeps them.
-/

namespace Heniek.WaveStore
open KeyedTable ScriptText FallibleRun PipelineStore IntegrationStore TaskGraph WavePlan

inductive TaskCapacityScope where
  | global | account | workspace | repository
  deriving DecidableEq

structure TaskCapacityLease where
  leaseId : String
  runId : String
  taskId : String
  scope : TaskCapacityScope
  resourceId : String
  fencingRevision : Nat
  active : Bool
  acquiredAt : String
  deriving DecidableEq

structure PlanRow where
  runId : String
  plan : TaskWavePlan
  deriving DecidableEq

abbrev PlanTable :=
  Table fun row : PlanRow => (row.runId, row.plan.graphRevision, row.plan.waveOrdinal)

abbrev DispatchTable := Table TaskDispatchRecord.dispatchId

abbrev LeaseTable := Table TaskCapacityLease.leaseId

/-- The tables, and how many ids have been drawn. -/
structure WaveDatabase where
  tasks : TaskTable
  plans : PlanTable
  dispatches : DispatchTable
  leases : LeaseTable
  issued : Nat

inductive WaveStoreError where
  | constraint
  | unknownTask (runId taskId : String)
  | invalidTransition (before after : TaskLifecyclePhase)
  | replayMismatch
  | notDispatchable (taskId : String) (phase : TaskLifecyclePhase)
  | capacityConflict (scope : TaskCapacityScope) (resourceId : String)
  | cannotBlock (taskId : String) (phase : TaskLifecyclePhase)
  deriving DecidableEq

abbrev WaveResult (α : Type) := Except WaveStoreError α

def freshTask (runId : String) (graphRevision : Nat) (taskId : String) :
    TaskLifecycleProjection where
  runId := runId
  taskId := taskId
  graphRevision := graphRevision
  phase := .notStarted

/-- A row does not go back to an earlier revision of the graph. -/
def initializeTask (runId : String) (graphRevision : Nat) (tasks : TaskTable) (taskId : String) :
    WaveResult TaskTable :=
  match tasks.find? (runId, taskId) with
  | none => .ok (tasks.upsert (freshTask runId graphRevision taskId))
  | some existing =>
    if existing.phase = .notStarted ∧ existing.graphRevision ≠ graphRevision then
      if graphRevision < existing.graphRevision then .error .constraint
      else
        .ok (tasks.upsert { existing with
          graphRevision := graphRevision
          revision := existing.revision + 1 })
    else .ok tasks

def initializeTasks (db : WaveDatabase) (runId : String) (graphRevision : Nat)
    (taskIds : List String) : WaveResult WaveDatabase := do
  let tasks ← (sortTexts taskIds).foldlM (initializeTask runId graphRevision) db.tasks
  .ok { db with tasks := tasks }

def projections (tasks : TaskTable) (runId : String) : List TaskLifecycleProjection :=
  orderBy (fun left right => binaryBefore left.taskId right.taskId)
    (tasks.rows.filter fun row => row.runId = runId)

def planningStates (tasks : TaskTable) (runId : String) (taskIds : List String) :
    List TaskPlanningState :=
  ((projections tasks runId).filter fun task => decide (task.taskId ∈ taskIds)).map planningState

/-- The row in its next phase, with the columns that the operation changes besides. -/
def updatePhase (tasks : TaskTable) (runId taskId : String) (origins : List TaskLifecyclePhase)
    (phase : TaskLifecyclePhase)
    (change : TaskLifecycleProjection → TaskLifecycleProjection := id) :
    WaveResult (TaskLifecycleProjection × TaskTable) :=
  match tasks.find? (runId, taskId) with
  | none => .error (.unknownTask runId taskId)
  | some row =>
    if row.phase ∈ origins then
      let next := { change row with phase := phase, revision := row.revision + 1 }
      .ok (next, tasks.upsert next)
    else if row.phase = phase then .ok (row, tasks)
    else .error (.invalidTransition row.phase phase)

def runningPhases : List TaskLifecyclePhase :=
  [.dispatching, .active, .retrying, .cancelling, .recoveryRequired]

def releaseLease (runId taskId : String) (lease : TaskCapacityLease) : TaskCapacityLease :=
  if lease.runId = runId ∧ lease.taskId = taskId ∧ lease.active then
    { lease with active := false, fencingRevision := lease.fencingRevision + 1 }
  else lease

def releaseLeases (leases : LeaseTable) (runId taskId : String) : LeaseTable where
  rows := leases.rows.map (releaseLease runId taskId)
  distinct := by
    have same : TaskCapacityLease.leaseId ∘ releaseLease runId taskId =
        TaskCapacityLease.leaseId := by
      funext lease
      simp only [Function.comp_apply, releaseLease]
      split <;> rfl
    rw [List.map_map, same]
    exact leases.distinct

inductive PhaseChange where
  | markActive | markRetrying | requestCancellation | cancelPending | markRecoveryRequired
  | settle (phase : TaskLifecyclePhase)
  deriving DecidableEq

def PhaseChange.origins : PhaseChange → List TaskLifecyclePhase
  | .markActive => [.dispatching, .retrying]
  | .markRetrying => [.active, .retrying]
  | .requestCancellation => [.dispatching, .active, .retrying, .cancelling]
  | .cancelPending => [.notStarted]
  | .markRecoveryRequired | .settle _ => runningPhases

def PhaseChange.phase : PhaseChange → TaskLifecyclePhase
  | .markActive => .active
  | .markRetrying => .retrying
  | .requestCancellation => .cancelling
  | .cancelPending => .cancelled
  | .markRecoveryRequired => .recoveryRequired
  | .settle phase => phase

def PhaseChange.columns : PhaseChange → TaskLifecycleProjection → TaskLifecycleProjection
  | .markRetrying, row =>
    { row with retryCount := row.retryCount + 1, attemptOrdinal := row.attemptOrdinal + 1 }
  | _, row => row

def changePhase (db : WaveDatabase) (runId taskId : String) (change : PhaseChange) :
    WaveResult (TaskLifecycleProjection × WaveDatabase) := do
  let (row, tasks) ← updatePhase db.tasks runId taskId change.origins change.phase change.columns
  match change with
  | .settle _ =>
    .ok (row, { db with tasks := tasks, leases := releaseLeases db.leases runId taskId })
  | _ => .ok (row, { db with tasks := tasks })

def markActive (db : WaveDatabase) (runId taskId : String) :=
    changePhase db runId taskId .markActive

def markRetrying (db : WaveDatabase) (runId taskId : String) :=
  changePhase db runId taskId .markRetrying

def requestCancellation (db : WaveDatabase) (runId taskId : String) :=
  changePhase db runId taskId .requestCancellation

def cancelPending (db : WaveDatabase) (runId taskId : String) :=
  changePhase db runId taskId .cancelPending

def markRecoveryRequired (db : WaveDatabase) (runId taskId : String) :=
  changePhase db runId taskId .markRecoveryRequired

def settle (db : WaveDatabase) (runId taskId : String) (phase : TaskLifecyclePhase) :=
  changePhase db runId taskId (.settle phase)

def blockedTask (row : TaskLifecycleProjection) (reason : TaskPropagationReason) :
    TaskLifecycleProjection :=
  { row with phase := .blocked, blockReason := some reason, revision := row.revision + 1 }

def block (db : WaveDatabase) (runId taskId : String) (reason : TaskPropagationReason) :
    WaveResult (TaskLifecycleProjection × WaveDatabase) :=
  match db.tasks.find? (runId, taskId) with
  | none => .error (.unknownTask runId taskId)
  | some row =>
    if row.phase = .notStarted then
      .ok (blockedTask row reason, { db with tasks := db.tasks.upsert (blockedTask row reason) })
    else if row.phase = .blocked then .ok (row, db)
    else .error (.cannotBlock taskId row.phase)

structure TaskCapacityLimits where
  maxConcurrentWorkers : Nat
  accountLimits : List (String × Nat)
  deriving DecidableEq

/-- `Object.fromEntries`: the last entry of a key counts. -/
def accountLimit (limits : TaskCapacityLimits) (accountId : String) : Option Nat :=
  (limits.accountLimits.reverse.find? fun item => item.1 = accountId).map Prod.snd

def activeCount (leases : LeaseTable) (scope : TaskCapacityScope) (resourceId : String) : Nat :=
  leases.rows.countP fun lease =>
    decide (lease.scope = scope ∧ lease.resourceId = resourceId ∧ lease.active = true)

def counted (leases : LeaseTable) (scope : TaskCapacityScope) (resourceId : String) (limit : Nat) :
    WaveResult Unit :=
  if limit ≤ activeCount leases scope resourceId then .error (.capacityConflict scope resourceId)
  else .ok ()

/-- Under an inherited name the limit is no number, and no count reaches it. -/
def accountCounted (leases : LeaseTable) (limits : TaskCapacityLimits) (accountId : String) :
    WaveResult Unit :=
  match accountLimit limits accountId with
  | none => if inherited accountId then .ok () else .error (.capacityConflict .account accountId)
  | some limit => counted leases .account accountId limit

def resourcesOf (dispatch : TaskDispatchRecord) : List (TaskCapacityScope × String) :=
  (.global, "global") :: (dispatch.accountId.toList.map fun accountId => (.account, accountId)) ++
    (.workspace, dispatch.workspaceId) ::
      dispatch.repositoryIds.map fun repositoryId => (.repository, repositoryId)

/-- `MAX(fencing_revision)` of a resource, zero where it has never been leased. -/
def priorFence (leases : LeaseTable) (scope : TaskCapacityScope) (resourceId : String) : Nat :=
  (leases.rows.filter fun lease =>
    decide (lease.scope = scope ∧ lease.resourceId = resourceId)).foldl
      (fun fence lease => max fence lease.fencingRevision) 0

def exclusive (scope : TaskCapacityScope) : Bool :=
  decide (scope = .workspace ∨ scope = .repository)

/-- The unique keys of the leases besides the primary key. -/
def leaseAdmissible (leases : LeaseTable) (lease : TaskCapacityLease) : Bool :=
  leases.rows.all fun other =>
    decide (¬ (other.runId = lease.runId ∧ other.taskId = lease.taskId ∧
      other.scope = lease.scope ∧ other.resourceId = lease.resourceId) ∧
      ¬ (exclusive lease.scope = true ∧ other.active = true ∧ other.scope = lease.scope ∧
        other.resourceId = lease.resourceId))

def acquire (ids : Nat → String) (dispatch : TaskDispatchRecord) (now : String)
    (db : WaveDatabase) (resource : TaskCapacityScope × String) : WaveResult WaveDatabase :=
  let lease : TaskCapacityLease :=
    { leaseId := ids db.issued
      runId := dispatch.runId
      taskId := dispatch.taskId
      scope := resource.1
      resourceId := resource.2
      fencingRevision := priorFence db.leases resource.1 resource.2 + 1
      active := true
      acquiredAt := now }
  let refused :=
    if exclusive resource.1 then .capacityConflict resource.1 resource.2 else .constraint
  if leaseAdmissible db.leases lease then
    match db.leases.insert? lease with
    | some leases => .ok { db with leases := leases, issued := db.issued + 1 }
    | none => .error refused
  else .error refused

def dispatchingTask (row : TaskLifecycleProjection) (dispatch : TaskDispatchRecord) :
    TaskLifecycleProjection :=
  { row with
    phase := .dispatching
    childRunId := some dispatch.childRunId
    attemptOrdinal := 1
    revision := row.revision + 1 }

def dispatchAdmissible (db : WaveDatabase) (dispatch : TaskDispatchRecord) : Bool :=
  (db.tasks.rows.all fun row => decide (row.childRunId ≠ some dispatch.childRunId)) &&
    db.dispatches.rows.all fun other => decide (other.childRunId ≠ dispatch.childRunId)

def recordDispatch (db : WaveDatabase) (row : TaskLifecycleProjection)
    (dispatch : TaskDispatchRecord) : WaveResult WaveDatabase :=
  if dispatchAdmissible db dispatch then
    match db.dispatches.insert? dispatch with
    | some dispatches =>
      .ok { db with
        tasks := db.tasks.upsert (dispatchingTask row dispatch)
        dispatches := dispatches }
    | none => .error .constraint
  else .error .constraint

def replayOf (db : WaveDatabase) (dispatch : TaskDispatchRecord) : Option TaskDispatchRecord :=
  db.dispatches.rows.find? fun other => decide (other.runId = dispatch.runId ∧
    other.taskId = dispatch.taskId ∧ other.graphRevision = dispatch.graphRevision)

def dispatchFresh (ids : Nat → String) (limits : TaskCapacityLimits) (now : String)
    (db : WaveDatabase) (row : TaskLifecycleProjection) (dispatch : TaskDispatchRecord) :
    WaveResult WaveDatabase := do
  counted db.leases .global "global" limits.maxConcurrentWorkers
  dispatch.accountId.toList.forM (accountCounted db.leases limits)
  let db ← (resourcesOf dispatch).foldlM (acquire ids dispatch now) db
  recordDispatch db row dispatch

def dispatchTask (ids : Nat → String) (limits : TaskCapacityLimits) (now : String)
    (state : List TaskDispatchRecord × WaveDatabase) (dispatch : TaskDispatchRecord) :
    WaveResult (List TaskDispatchRecord × WaveDatabase) :=
  match replayOf state.2 dispatch with
  | some replay => .ok (state.1 ++ [replay], state.2)
  | none =>
    match state.2.tasks.find? (dispatch.runId, dispatch.taskId) with
    | none => .error (.unknownTask dispatch.runId dispatch.taskId)
    | some row =>
      if row.phase = .notStarted then do
        let db ← dispatchFresh ids limits now state.2 row dispatch
        .ok (state.1 ++ [dispatch], db)
      else .error (.notDispatchable dispatch.taskId row.phase)

def recordPlan (db : WaveDatabase) (runId : String) (plan : TaskWavePlan) :
    WaveResult WaveDatabase :=
  match db.plans.find? (runId, plan.graphRevision, plan.waveOrdinal) with
  | some existing => if existing.plan = plan then .ok db else .error .replayMismatch
  | none => .ok { db with plans := db.plans.upsert ⟨runId, plan⟩ }

def dispatchWave [Collation] (ids : Nat → String) (db : WaveDatabase) (plan : TaskWavePlan)
    (dispatches : List TaskDispatchRecord) (limits : TaskCapacityLimits) :
    WaveResult (List TaskDispatchRecord × WaveDatabase) :=
  match dispatches.head? with
  | none => .ok ([], db)
  | some first => do
      let db ← recordPlan db first.runId plan
      (localeSort TaskDispatchRecord.taskId dispatches).foldlM
        (dispatchTask ids limits plan.plannedAt) ([], db)

def leasesOf (leases : LeaseTable) (runId : String) : List TaskCapacityLease :=
  orderBy (fun left right => binaryBefore left.acquiredAt right.acquiredAt ||
    decide (left.acquiredAt = right.acquiredAt) && binaryBefore left.leaseId right.leaseId)
    (leases.rows.filter fun lease => lease.runId = runId)

def dispatchBefore (left right : TaskDispatchRecord) : Bool :=
  binaryBefore left.recordedAt right.recordedAt ||
    decide (left.recordedAt = right.recordedAt) && binaryBefore left.dispatchId right.dispatchId

def dispatchesOf (dispatches : DispatchTable) (runId : String) : List TaskDispatchRecord :=
  orderBy dispatchBefore (dispatches.rows.filter fun dispatch => dispatch.runId = runId)

def planBefore (left right : PlanRow) : Bool :=
  decide (left.plan.graphRevision < right.plan.graphRevision) ||
    decide (left.plan.graphRevision = right.plan.graphRevision ∧
      left.plan.waveOrdinal < right.plan.waveOrdinal)

def plansOf (plans : PlanTable) (runId : String) : List TaskWavePlan :=
  (orderBy planBefore (plans.rows.filter fun row => row.runId = runId)).map PlanRow.plan

variable {db db' : WaveDatabase} {runId now : String} {dispatch : TaskDispatchRecord}

theorem initializeTasks_ok {graphRevision : Nat} {taskIds : List String}
    (ok : initializeTasks db runId graphRevision taskIds = .ok db') :
    ∃ tasks, (sortTexts taskIds).foldlM (initializeTask runId graphRevision) db.tasks = .ok tasks ∧
      db' = { db with tasks := tasks } := by
  obtain ⟨tasks, folded, done⟩ := bind_eq_ok.mp ok
  cases done
  exact ⟨tasks, folded, rfl⟩

theorem changePhase_ok {taskId : String} {change : PhaseChange} {row : TaskLifecycleProjection}
    (ok : changePhase db runId taskId change = .ok (row, db')) :
    ∃ tasks leases, updatePhase db.tasks runId taskId change.origins change.phase change.columns =
      .ok (row, tasks) ∧ db' = { db with tasks := tasks, leases := leases } := by
  obtain ⟨⟨result, tasks⟩, updated, rest⟩ := bind_eq_ok.mp ok
  dsimp only at rest
  split at rest
  · cases rest
    exact ⟨tasks, _, updated, rfl⟩
  · cases rest
    exact ⟨tasks, _, updated, rfl⟩

/-- The plans and the dispatches after some of the given dispatches have been recorded. -/
structure Dispatched (db db' : WaveDatabase) (dispatches : List TaskDispatchRecord) : Prop where
  kept : ∀ dispatch ∈ db.dispatches.rows, dispatch ∈ db'.dispatches.rows
  added : ∀ dispatch ∈ db'.dispatches.rows,
    dispatch ∈ db.dispatches.rows ∨ dispatch ∈ dispatches

theorem acquire_ok {ids : Nat → String} {resource : TaskCapacityScope × String}
    (ok : acquire ids dispatch now db resource = .ok db') :
    db'.tasks = db.tasks ∧ db'.plans = db.plans ∧ db'.dispatches = db.dispatches := by
  unfold acquire at ok
  dsimp only at ok
  split at ok
  · split at ok
    · cases ok
      exact ⟨rfl, rfl, rfl⟩
    · cases ok
  · cases ok

theorem dispatchFresh_ok {ids : Nat → String} {limits : TaskCapacityLimits}
    {row : TaskLifecycleProjection} (ok : dispatchFresh ids limits now db row dispatch = .ok db') :
    db'.tasks = db.tasks.upsert (dispatchingTask row dispatch) ∧ db'.plans = db.plans ∧
      dispatch.dispatchId ∉ db.dispatches.keys ∧
      db'.dispatches = db.dispatches.upsert dispatch := by
  obtain ⟨_, _, rest⟩ := bind_eq_ok.mp ok
  obtain ⟨_, _, rest⟩ := bind_eq_ok.mp rest
  obtain ⟨leased, folded, recorded⟩ := bind_eq_ok.mp rest
  have kept : leased.tasks = db.tasks ∧ leased.plans = db.plans ∧
      leased.dispatches = db.dispatches := by
    refine foldlM_invariant (P := fun state : WaveDatabase => state.tasks = db.tasks ∧
      state.plans = db.plans ∧ state.dispatches = db.dispatches) ?_ ⟨rfl, rfl, rfl⟩ folded
    intro resource _ first next same acquired
    obtain ⟨tasks, plans, dispatches⟩ := acquire_ok acquired
    exact ⟨tasks.trans same.1, plans.trans same.2.1, dispatches.trans same.2.2⟩
  unfold recordDispatch at recorded
  split_ifs at recorded
  split at recorded
  · rename_i dispatches inserted
    cases recorded
    obtain ⟨fresh, rfl⟩ := Table.insert?_eq_some.mp inserted
    rw [kept.2.2] at fresh
    exact ⟨by rw [kept.1], kept.2.1, fresh, by rw [kept.2.2]⟩
  · cases recorded

theorem dispatchTask_ok {ids : Nat → String} {limits : TaskCapacityLimits}
    {state state' : List TaskDispatchRecord × WaveDatabase}
    (ok : dispatchTask ids limits now state dispatch = .ok state') :
    state'.2 = state.2 ∨ ∃ row, state.2.tasks.find? (dispatch.runId, dispatch.taskId) = some row ∧
      row.phase = .notStarted ∧
        dispatchFresh ids limits now state.2 row dispatch = .ok state'.2 := by
  unfold dispatchTask at ok
  split at ok
  · cases ok
    exact Or.inl rfl
  · split at ok
    · cases ok
    · rename_i row found
      split_ifs at ok with fresh
      obtain ⟨db, dispatched, done⟩ := bind_eq_ok.mp ok
      cases done
      exact Or.inr ⟨row, found, fresh, dispatched⟩

theorem recordPlan_ok {plan : TaskWavePlan} (ok : recordPlan db runId plan = .ok db') :
    db'.tasks = db.tasks ∧ db'.dispatches = db.dispatches ∧
      ∀ row, row ∈ db'.plans.rows ↔ row = ⟨runId, plan⟩ ∨ row ∈ db.plans.rows := by
  unfold recordPlan at ok
  split at ok
  · rename_i existing found
    split_ifs at ok with same
    cases ok
    have member := Table.mem_of_find? found
    have key := congrArg Prod.fst (Table.key_of_find? found)
    have here : existing = ⟨runId, plan⟩ := by
      cases same
      cases key
      rfl
    refine ⟨rfl, rfl, fun row => ⟨Or.inr, ?_⟩⟩
    rintro (rfl | inRows)
    · exact here ▸ member
    · exact inRows
  · rename_i absent
    cases ok
    refine ⟨rfl, rfl, fun row => ?_⟩
    rw [Table.mem_upsert]
    refine or_congr_right ⟨fun inRows => inRows.1, fun inRows => ⟨inRows, fun clash => ?_⟩⟩
    have taken := Table.mem_keys_of_mem inRows
    rw [clash] at taken
    exact Table.find?_eq_none.mp absent taken

theorem dispatchWave_ok [Collation] {ids : Nat → String} {plan : TaskWavePlan}
    {dispatches accepted : List TaskDispatchRecord} {limits : TaskCapacityLimits}
    (ok : dispatchWave ids db plan dispatches limits = .ok (accepted, db')) :
    db' = db ∨ ∃ first ∈ dispatches, Dispatched db db' dispatches ∧
      ∀ row, row ∈ db'.plans.rows ↔ row = ⟨first.runId, plan⟩ ∨ row ∈ db.plans.rows := by
  unfold dispatchWave at ok
  split at ok
  · cases ok
    exact Or.inl rfl
  · rename_i first head
    obtain ⟨planned, recorded, folded⟩ := bind_eq_ok.mp ok
    obtain ⟨_, dispatched, plans⟩ := recordPlan_ok recorded
    refine Or.inr ⟨first, List.mem_of_head? head, ?_⟩
    have kept : Dispatched db db' dispatches ∧ db'.plans = planned.plans := by
      refine foldlM_invariant (P := fun state : List TaskDispatchRecord × WaveDatabase =>
        Dispatched db state.2 dispatches ∧ state.2.plans = planned.plans) ?_ ?_ folded
      · intro dispatch listed state state' holds ran
        have member : dispatch ∈ dispatches := (List.mem_insertionSort _).mp listed
        rcases dispatchTask_ok ran with same | ⟨row, _, _, fresh⟩
        · rw [same]
          exact holds
        · obtain ⟨_, samePlans, absent, table⟩ := dispatchFresh_ok fresh
          refine ⟨⟨?_, ?_⟩, samePlans.trans holds.2⟩
          · intro earlier inRows
            rw [table, Table.mem_upsert]
            refine Or.inr ⟨holds.1.kept earlier inRows, fun clash => absent ?_⟩
            rw [← clash]
            exact Table.mem_keys_of_mem (holds.1.kept earlier inRows)
          · intro later inRows
            rw [table, Table.mem_upsert] at inRows
            rcases inRows with rfl | ⟨inRows, _⟩
            · exact Or.inr member
            · exact holds.1.added later inRows
      · refine ⟨⟨?_, ?_⟩, rfl⟩
        · rw [dispatched]
          exact fun _ inRows => inRows
        · rw [dispatched]
          exact fun _ inRows => Or.inl inRows
    refine ⟨kept.1, fun row => ?_⟩
    rw [kept.2]
    exact plans row

end Heniek.WaveStore
