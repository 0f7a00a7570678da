import Heniek.IntegrationSteps
import Heniek.WaveScheduler

/-!
What a tick of the wave scheduler can do to its world, as one step relation over the
run and the graph of the tick. A round of propagation is one step, since nothing comes
in between. Nothing is dispatched while a revision of the graph is pending. `tick_steps`
says that a tick is a sequence of such steps, however its driver calls end.
-/

namespace Heniek.WaveSteps
open EffectfulRun KeyedTable ScriptText FallibleRun IntegrationStore IntegrationService TaskGraph
  WavePlan WaveStore EpicStore WaveScheduler

variable [Collation]

def blockWorld (runId : String) (w : EpicWorld)
    (item : TaskLifecycleProjection × TaskPropagationReason) : EpicWorld :=
  { w.setWaves { w.waves with tasks := w.tasks.upsert (blockedTask item.1 item.2) } with
    log := w.log ++ [.blocked item.1 item.2
      (w.tasks.find? (runId, item.2.rootTaskId)) (activeReplan w.replanning runId)] }

def blockAll (runId : String) (w : EpicWorld)
    (items : List (TaskLifecycleProjection × TaskPropagationReason)) : EpicWorld :=
  items.foldl (blockWorld runId) w

inductive WaveStep (env : Environment) (suspended : Bool) (runId : String) (dag : TaskDag) :
    EpicWorld → EpicWorld → Prop where
  | asked (w : EpicWorld) : WaveStep env suspended runId dag w { w with calls := w.calls + 1 }
  | timed (w : EpicWorld) :
      WaveStep env suspended runId dag w { w with readings := w.readings + 1 }
  | initialized (w : EpicWorld) (db : WaveDatabase)
      (ok : initializeTasks w.waves runId dag.graphRevision dag.taskIds = .ok db) :
      WaveStep env suspended runId dag w (w.setWaves db)
  | changed (w : EpicWorld) (phase : TaskLifecyclePhase) (observation : TaskPipelineStatus)
      (taskId : String) (change : PhaseChange) (row : TaskLifecycleProjection) (db : WaveDatabase)
      (cause : statusChange phase observation = some change)
      (ok : changePhase w.waves runId taskId change = .ok (row, db)) :
      WaveStep env suspended runId dag w (w.setWaves db)
  | propagated (w : EpicWorld) :
      WaveStep env suspended runId dag w
        (blockAll runId w (blockedTasks dag (projectionsOf w runId)))
  | dispatched (w : EpicWorld) (input : TaskWaveSchedulerTickInput) (now : String)
      (dispatches accepted : List TaskDispatchRecord) (db : WaveDatabase)
      (sameRun : input.runId = runId) (sameDag : input.dag = dag)
      (unresolved : input.unresolvedGraphRevision = suspended)
      (made : ∀ dispatch ∈ dispatches, ∃ node recordedAt, dispatch = dispatchRecord input node
        dispatch.taskId (nextOrdinal w runId) recordedAt)
      (selected : (planTaskWave (planningSnapshot w input now)).selectedTaskIds ≠ [])
      (ok : dispatchWave (env.ids "task-capacity") w.waves
        (planTaskWave (planningSnapshot w input now)) dispatches (capacityLimits input) =
          .ok (accepted, db)) :
      WaveStep env suspended runId dag w (w.setWaves db)
  | integrated (w : EpicWorld) (driver : TaskIntegrationDriver) (integration : World)
      (configured : env.integration = some driver)
      (step : IntegrationSteps.Step driver
        (integrationOrder dag.taskIds (dispatchesOf w.dispatches runId)) w.integration
        integration) :
      WaveStep env suspended runId dag w { w with integration := integration }

abbrev WaveReach (env : Environment) (suspended : Bool) (runId : String) (dag : TaskDag) :
    EpicWorld → EpicWorld → Prop :=
  Relation.ReflTransGen (WaveStep env suspended runId dag)

/-- All that a change of the task rows does not touch; the log only grows. -/
structure TaskFrame (w w' : EpicWorld) : Prop where
  plans : w'.plans = w.plans
  dispatches : w'.dispatches = w.dispatches
  graphs : w'.graphs = w.graphs
  replanning : w'.replanning = w.replanning
  ledger : w'.integration.db.ledger = w.integration.db.ledger
  integrationLog : w'.integration.log = w.integration.log
  log : ∀ event ∈ w.log, event ∈ w'.log

omit [Collation] in
theorem blockAll_frame {runId : String} {w : EpicWorld}
    {items : List (TaskLifecycleProjection × TaskPropagationReason)} :
    TaskFrame w (blockAll runId w items) := by
  induction items generalizing w with
  | nil => exact ⟨rfl, rfl, rfl, rfl, rfl, rfl, fun _ logged => logged⟩
  | cons item items ih =>
    obtain ⟨plans, dispatches, graphs, replanning, ledger, integrationLog, log⟩ :=
      @ih (blockWorld runId w item)
    refine ⟨plans, dispatches, graphs, replanning, ledger, integrationLog, fun event logged => ?_⟩
    exact log event (List.mem_append_left _ logged)

omit [Collation] in
theorem setWaves_frame {w : EpicWorld} {db : WaveDatabase} {tasks : TaskTable} {leases : LeaseTable}
    (same : db = { w.waves with tasks := tasks, leases := leases }) :
    TaskFrame w (w.setWaves db) := by
  subst same
  exact ⟨rfl, rfl, rfl, rfl, rfl, rfl, fun _ logged => logged⟩

section Rounds

variable {runId : String} {w : EpicWorld} {dag : TaskDag}
variable {item : TaskLifecycleProjection × TaskPropagationReason}
variable {items : List (TaskLifecycleProjection × TaskPropagationReason)}

omit [Collation] in
theorem blockTask_eq (found : w.tasks.find? (runId, item.1.taskId) = some item.1)
    (fresh : item.1.phase = .notStarted) :
    blockTask runId item w = (.ok (), blockWorld runId w item) := by
  have blocks : block w.waves runId item.1.taskId item.2 =
      .ok (blockedTask item.1 item.2,
        { w.waves with tasks := w.tasks.upsert (blockedTask item.1 item.2) }) := by
    have row : w.waves.tasks.find? (runId, item.1.taskId) = some item.1 := found
    simp only [block, row, fresh, if_true]
    rfl
  simp only [blockTask, Effect.transact, blocks]
  rfl

omit [Collation] in
theorem forEach_blockTask (found : ∀ item ∈ items,
      w.tasks.find? (runId, item.1.taskId) = some item.1 ∧ item.1.phase = .notStarted)
    (distinct : items.Pairwise fun left right => left.1.taskId ≠ right.1.taskId) :
    Effect.forEach (blockTask runId) items w = (.ok (), blockAll runId w items) := by
  induction items generalizing w with
  | nil => rfl
  | cons item items ih =>
    obtain ⟨here, fresh⟩ := found item List.mem_cons_self
    rw [List.pairwise_cons] at distinct
    have later : ∀ other ∈ items, (blockWorld runId w item).tasks.find?
        (runId, other.1.taskId) = some other.1 ∧ other.1.phase = .notStarted := by
      intro other member
      have different : (runId, other.1.taskId) ≠ (item.1.runId, item.1.taskId) :=
        fun clash => distinct.1 other member (congrArg Prod.snd clash).symm
      obtain ⟨there, alsoFresh⟩ := found other (List.mem_cons_of_mem item member)
      refine ⟨?_, alsoFresh⟩
      have kept := Table.find?_upsert_of_ne w.tasks (a := blockedTask item.1 item.2) different
      exact kept.trans there
    change Effect.bind (blockTask runId item) (fun _ => Effect.forEach (blockTask runId) items) w =
      _
    simp only [Effect.bind, blockTask_eq here fresh]
    exact ih later distinct.2

omit [Collation] in
theorem mem_projections {tasks : TaskTable} {row : TaskLifecycleProjection} :
    row ∈ projections tasks runId ↔ row ∈ tasks.rows ∧ row.runId = runId := by
  simp [projections]

theorem mem_blockedTasks {states : List TaskLifecycleProjection} :
    item ∈ blockedTasks dag states ↔ item.1 ∈ states ∧ item.1.phase = .notStarted ∧
      propagationReason (DagValidation.nodeMap dag) states
        ((DagValidation.nodeMap dag).rows.length + 1) [] item.1.taskId = some item.2 := by
  obtain ⟨task, reason⟩ := item
  simp only [blockedTasks, List.mem_filterMap, localeSort, List.mem_insertionSort]
  constructor
  · rintro ⟨found, member, chosen⟩
    split_ifs at chosen with fresh
    obtain ⟨_, same, pair⟩ := Option.map_eq_some_iff.mp chosen
    cases pair
    exact ⟨member, fresh, same⟩
  · rintro ⟨member, fresh, same⟩
    exact ⟨task, member, by rw [if_pos fresh, same]; rfl⟩

theorem blockedTasks_distinct :
    (blockedTasks dag (projectionsOf w runId)).Pairwise
      fun left right => left.1.taskId ≠ right.1.taskId := by
  have rows : ((w.tasks.rows.filter fun row => row.runId = runId).map
      TaskLifecycleProjection.taskId).Nodup := Table.nodup_slice w.tasks runId
  have sorted : ((localeSort TaskLifecycleProjection.taskId (projectionsOf w runId)).map
      TaskLifecycleProjection.taskId).Nodup := by
    refine (List.Perm.map _ ?_).nodup_iff.mpr rows
    exact (List.perm_insertionSort _ _).trans (List.perm_insertionSort _ _)
  rw [List.Nodup, List.pairwise_map] at sorted
  refine List.Pairwise.filterMap _ ?_ sorted
  intro left right different found inLeft found' inRight
  split_ifs at inLeft with fresh
  split_ifs at inRight with fresh'
  obtain ⟨_, _, rfl⟩ := Option.map_eq_some_iff.mp inLeft
  obtain ⟨_, _, rfl⟩ := Option.map_eq_some_iff.mp inRight
  exact different

theorem forEach_blockedTasks :
    Effect.forEach (blockTask runId) (blockedTasks dag (projectionsOf w runId)) w =
      (.ok (), blockAll runId w (blockedTasks dag (projectionsOf w runId))) := by
  refine forEach_blockTask ?_ blockedTasks_distinct
  intro item member
  obtain ⟨listed, fresh, _⟩ := mem_blockedTasks.mp member
  obtain ⟨stored, here⟩ := mem_projections.mp listed
  exact ⟨Table.find?_eq_some.mpr ⟨stored, Prod.ext here rfl⟩, fresh⟩

end Rounds

omit [Collation] in
theorem planTaskWave_suspended {snapshot : TaskWavePlanningSnapshot}
    (pending : snapshot.unresolvedGraphRevision = true) :
    (planTaskWave snapshot).selectedTaskIds = [] := by
  have step : ∀ selection taskId, selection.selectedTaskIds = [] →
      (considerTask snapshot selection taskId).selectedTaskIds = [] := by
    intro selection taskId none
    unfold considerTask
    split
    · exact none
    · rename_i node _
      have blocked : blockingReasons snapshot selection node ≠ [] := by
        refine canonicalReasons_ne_nil ?_
        simp [pending]
      rw [if_pos blocked]
      split_ifs <;> exact none
  have fold : ∀ (order : List String) (selection : Selection), selection.selectedTaskIds = [] →
      (order.foldl (considerTask snapshot) selection).selectedTaskIds = [] := by
    intro order
    induction order with
    | nil => exact fun _ none => none
    | cons taskId order ih => exact fun selection none => ih _ (step selection taskId none)
  exact fold _ _ rfl

section Programs

variable {α β : Type} {env : Environment} {suspended : Bool} {runId : String} {dag : TaskDag}
variable {origin : EpicWorld}

omit [Collation] in
theorem ensures_waved {P E : EpicWorld → Prop} {Q : α → EpicWorld → Prop}
    {operation : WaveDatabase → WaveResult (α × WaveDatabase)}
    (holds : ∀ w a db, P w → operation w.waves = .ok (a, db) → Q a (w.setWaves db))
    (throws : ∀ w, P w → E w) : Ensures P (waved operation) Q E := by
  refine Ensures.transact ?_ throws
  intro w a w' started ok
  split at ok
  · cases ok
  · rename_i result db ran
    cases ok
    exact holds w _ db started ran

omit [Collation] in
theorem ensures_together {I : EpicWorld → Prop} {name : α → String} {each : α → EpicProgram Unit}
    {items : List α} (step : ∀ item ∈ items, Ensures I (each item) (fun _ => I) I) :
    Ensures I (together env name each items) (fun _ => I) I := by
  refine Ensures.bind Ensures.read_kept fun _ => ?_
  refine Ensures.forEach fun item member => step item ?_
  exact (List.mem_insertionSort _).mp member

theorem ensures_ask {request : Nat → Answer α} :
    Preserves (WaveReach env suspended runId dag origin) (ask request) := by
  intro w reached
  have asked := reached.tail (WaveStep.asked w)
  exact ⟨fun _ _ => asked, fun _ _ => asked⟩

theorem ensures_changeTask {phase : TaskLifecyclePhase} {observation : TaskPipelineStatus}
    {taskId : String} {change : PhaseChange}
    (cause : statusChange phase observation = some change) :
    Preserves (WaveReach env suspended runId dag origin) (changeTask runId taskId change) := by
  refine ensures_waved ?_ fun _ reached => reached
  intro w row db reached ok
  exact reached.tail (WaveStep.changed w phase observation taskId change row db cause ok)

variable {task : TaskLifecycleProjection} {input : TaskWaveSchedulerTickInput}

theorem ensures_applyDriverStatus {observation : TaskPipelineStatus} :
    Preserves (WaveReach env suspended runId dag origin)
      (applyDriverStatus runId task observation) := by
  unfold applyDriverStatus
  split
  · exact Ensures.pure_kept
  · rename_i change cause
    exact ensures_changeTask cause

theorem ensures_applied {request : Nat → Answer TaskPipelineStatus} :
    Preserves (WaveReach env suspended runId dag origin)
      (do
        let observation ← ask request
        let _ ← applyDriverStatus runId task observation
        pure ()) := by
  refine Ensures.bind ensures_ask fun observation => ?_
  refine Ensures.bind ensures_applyDriverStatus fun _ => ?_
  exact Ensures.pure_kept

theorem ensures_restartTask {childRunId : String} :
    Preserves (WaveReach env suspended runId dag origin)
      (restartTask env runId task childRunId) := by
  refine Ensures.bind Ensures.read_kept fun found => ?_
  split
  · have cause : statusChange .active .missing = some .markRecoveryRequired := rfl
    refine Ensures.bind (ensures_changeTask cause) fun _ => ?_
    exact Ensures.pure_kept
  · exact Ensures.bind ensures_ask fun _ => ensures_applied

theorem ensures_observeTask :
    Preserves (WaveReach env suspended runId dag origin) (observeTask env runId task) := by
  unfold observeTask
  split
  · exact Ensures.pure_kept
  · refine Ensures.bind ensures_ask fun observation => ?_
    split
    · exact ensures_restartTask
    · refine Ensures.bind ensures_applyDriverStatus fun _ => ?_
      exact Ensures.pure_kept

theorem ensures_reconcileTasks :
    Preserves (WaveReach env suspended runId dag origin) (reconcileTasks env runId) := by
  refine Ensures.bind Ensures.read_kept fun _ => ?_
  exact ensures_together fun _ _ => ensures_observeTask

theorem ensures_propagateRounds {fuel : Nat} :
    Preserves (WaveReach env suspended runId dag origin) (propagateRounds runId dag fuel) := by
  induction fuel with
  | zero => exact Ensures.pure_kept
  | succ fuel ih =>
    refine Ensures.bind (Q := fun states w => states = projectionsOf w runId ∧
        WaveReach env suspended runId dag origin w)
      (Ensures.read fun _ reached => ⟨rfl, reached⟩) fun states => ?_
    refine Ensures.bind (Q := fun _ => WaveReach env suspended runId dag origin) ?_ fun _ => ?_
    · rintro w ⟨rfl, reached⟩
      rw [forEach_blockedTasks]
      exact ⟨fun _ _ => reached.tail (WaveStep.propagated w), nofun⟩
    · split
      · exact Ensures.pure_kept
      · exact ih

theorem ensures_propagate :
    Preserves (WaveReach env suspended runId dag origin) (propagate runId dag) := by
  refine Ensures.bind Ensures.read_kept fun _ => ?_
  exact ensures_propagateRounds

theorem waveReach_integration {driver : TaskIntegrationDriver} {w : EpicWorld} {integration : World}
    (configured : env.integration = some driver)
    (reached : WaveReach env suspended runId dag origin w)
    (steps : IntegrationSteps.Reach driver
      (integrationOrder dag.taskIds (dispatchesOf w.dispatches runId)) w.integration integration) :
    WaveReach env suspended runId dag origin { w with integration := integration } := by
  induction steps with
  | refl => exact reached
  | tail _ step ih =>
    exact ih.tail (WaveStep.integrated { w with integration := _ } driver _ configured step)

theorem ensures_integrateTasks :
    Preserves (WaveReach env suspended runId dag origin) (integrateTasks env runId dag) := by
  unfold integrateTasks
  split
  · exact Ensures.pure_kept
  · rename_i driver configured
    refine Ensures.bind (Q := fun input w => input = integrationInput w runId dag ∧
        WaveReach env suspended runId dag origin w)
      (Ensures.read fun _ reached => ⟨rfl, reached⟩) fun input => ?_
    refine Ensures.within ?_
    rintro w ⟨rfl, reached⟩
    exact waveReach_integration configured reached
      (IntegrationSteps.tick_steps driver (integrationInput w runId dag) w.integration)

theorem ensures_startDispatch {dispatch : TaskDispatchRecord} :
    Preserves (WaveReach env suspended runId dag origin) (startDispatch env runId dispatch) := by
  refine Ensures.bind ensures_ask fun _ => ?_
  refine Ensures.bind Ensures.read_kept fun found => ?_
  split
  · exact Ensures.pure_kept
  · exact ensures_applied

/-- The plan of the tick is still the plan of the state. -/
def Planned (env : Environment) (suspended : Bool) (origin : EpicWorld)
    (input : TaskWaveSchedulerTickInput) (now : String) (plan : TaskWavePlan)
    (w : EpicWorld) : Prop :=
  WaveReach env suspended input.runId input.dag origin w ∧
    plan = planTaskWave (planningSnapshot w input now)

theorem ensures_makeDispatch {now : String} {plan : TaskWavePlan} {taskId : String} :
    Ensures (Planned env suspended origin input now plan)
      (makeDispatch env input plan.waveOrdinal taskId)
      (fun dispatch w => (∃ node recordedAt, dispatch = dispatchRecord input node dispatch.taskId
        plan.waveOrdinal recordedAt) ∧ Planned env suspended origin input now plan w)
      (WaveReach env suspended input.runId input.dag origin) := by
  unfold makeDispatch
  split
  · exact Ensures.throw fun _ planned => planned.1
  · rename_i node _
    refine Ensures.bind (Q := fun _ => Planned env suspended origin input now plan) ?_ ?_
    · intro w planned
      have timed := planned.1.tail (WaveStep.timed w)
      exact ⟨fun _ _ => ⟨timed, planned.2⟩, nofun⟩
    · intro recordedAt
      exact Ensures.pure fun _ planned => ⟨⟨node, recordedAt, rfl⟩, planned⟩

theorem ensures_dispatchPlan {now : String} {plan : TaskWavePlan}
    (unresolved : input.unresolvedGraphRevision = suspended) :
    Ensures (Planned env suspended origin input now plan) (dispatchPlan env input plan)
      (fun _ => WaveReach env suspended input.runId input.dag origin)
      (WaveReach env suspended input.runId input.dag origin) := by
  unfold dispatchPlan
  split
  · exact Ensures.pure fun _ planned => planned.1
  · rename_i selected
    refine Ensures.bind (Ensures.mapEach fun taskId _ => ensures_makeDispatch) fun dispatches => ?_
    refine Ensures.given fun related => ?_
    refine Ensures.bind (Q := fun _ => WaveReach env suspended input.runId input.dag origin) ?_ ?_
    · refine ensures_waved ?_ fun _ planned => planned.1
      rintro w accepted db ⟨reached, rfl⟩ ok
      refine reached.tail (WaveStep.dispatched w input now dispatches accepted db rfl rfl unresolved
        ?_ selected ok)
      intro dispatch member
      obtain ⟨_, _, made⟩ := related.2 dispatch member
      exact made
    · intro accepted
      exact ensures_together fun _ _ => ensures_startDispatch

theorem ensures_initializeDag :
    Preserves (WaveReach env suspended runId dag origin) (initializeDag runId dag) := by
  refine ensures_waved ?_ fun _ reached => reached
  intro w _ db reached ok
  obtain ⟨initialized, ran, same⟩ := map_eq_ok.mp ok
  cases same
  exact reached.tail (WaveStep.initialized w db ran)

theorem ensures_tickTasks :
    Preserves (WaveReach env suspended runId dag origin) (tickTasks env runId) := by
  refine Ensures.bind Ensures.read_kept fun _ => ?_
  refine ensures_together fun task _ => ?_
  unfold tickTask
  split
  · exact Ensures.pure_kept
  · exact ensures_applied

theorem ensures_settleTasks :
    Preserves (WaveReach env suspended runId dag origin) (settleTasks env runId dag) := by
  refine Ensures.bind ensures_initializeDag fun _ => ?_
  refine Ensures.bind ensures_reconcileTasks fun _ => ?_
  refine Ensures.bind ensures_integrateTasks fun _ => ?_
  exact ensures_propagate

theorem ensures_tick (unresolved : input.unresolvedGraphRevision = suspended) :
    Ensures (WaveReach env suspended input.runId input.dag origin) (tick env input)
      (fun tasks w => tasks = projectionsOf w input.runId ∧
        WaveReach env suspended input.runId input.dag origin w)
      (WaveReach env suspended input.runId input.dag origin) := by
  refine Ensures.bind ensures_settleTasks fun _ => ?_
  refine Ensures.bind (Q := fun _ => WaveReach env suspended input.runId input.dag origin) ?_ ?_
  · intro w reached
    exact ⟨fun _ _ => reached.tail (WaveStep.timed w), nofun⟩
  · intro now
    refine Ensures.bind (Q := Planned env suspended origin input now)
      (Ensures.read fun _ reached => ⟨reached, rfl⟩) fun plan => ?_
    refine Ensures.bind (ensures_dispatchPlan unresolved) fun _ => ?_
    refine Ensures.bind ensures_tickTasks fun _ => ?_
    refine Ensures.bind ensures_integrateTasks fun _ => ?_
    refine Ensures.bind ensures_propagate fun _ => ?_
    exact Ensures.read fun _ reached => ⟨rfl, reached⟩

end Programs

end Heniek.WaveSteps
