import Heniek.EffectfulRun
import Heniek.WaveStore

/-!
The capacity leases of the wave store against the lifecycles of the tasks: a task holds
the resources of its dispatch from the dispatch until it settles, and at no other time.
Every operation of the store is a chain of elementary changes, and what holds in every
reachable state is shown for each of these.
-/

namespace Heniek.CapacityLeases
open EffectfulRun KeyedTable ScriptText FallibleRun IntegrationStore WavePlan WaveStore

def PhaseChange.typed : PhaseChange → Bool
  | .settle phase => decide (phase ∈ [.succeeded, .failed, .cancelled])
  | _ => true

inductive Operation where
  | initializeTasks (runId : String) (graphRevision : Nat) (taskIds : List String)
  | dispatchWave (ids : Nat → String) (plan : TaskWavePlan) (dispatches : List TaskDispatchRecord)
      (limits : TaskCapacityLimits)
  | changePhase (runId taskId : String)
      (change : { change : PhaseChange // PhaseChange.typed change = true })
  | block (runId taskId : String) (reason : TaskPropagationReason)

def emptyDatabase : WaveDatabase := ⟨.empty, .empty, .empty, .empty, 0⟩

def resource (lease : TaskCapacityLease) : TaskCapacityScope × String :=
  (lease.scope, lease.resourceId)

def heldBy (db : WaveDatabase) (runId taskId : String) : List (TaskCapacityScope × String) :=
  (db.leases.rows.filter fun lease =>
    decide (lease.runId = runId ∧ lease.taskId = taskId ∧ lease.active = true)).map resource

def Exclusive (leases : LeaseTable) : Prop :=
  ∀ first ∈ leases.rows, ∀ second ∈ leases.rows, first.active = true → second.active = true →
    exclusive first.scope = true → resource first = resource second → first = second

structure Mirrored (db : WaveDatabase) : Prop where
  running : ∀ task ∈ db.tasks.rows, task.phase ∈ runningPhases →
    ∃ dispatch ∈ db.dispatches.rows, dispatch.runId = task.runId ∧ dispatch.taskId = task.taskId ∧
      (heldBy db task.runId task.taskId).Perm (resourcesOf dispatch)
  idle : ∀ lease ∈ db.leases.rows, lease.active = true →
    ∃ task ∈ db.tasks.rows, task.runId = lease.runId ∧ task.taskId = lease.taskId ∧
      task.phase ∈ runningPhases
  started : ∀ dispatch ∈ db.dispatches.rows, ∃ task ∈ db.tasks.rows,
    task.runId = dispatch.runId ∧ task.taskId = dispatch.taskId ∧ task.phase ≠ .notStarted
  once : ∀ first ∈ db.dispatches.rows, ∀ second ∈ db.dispatches.rows,
    first.runId = second.runId → first.taskId = second.taskId → first = second
  single : Exclusive db.leases

/-- Leases stay, and what they were fenced by only grows; a new one is fenced above. -/
structure Fenced (leases later : LeaseTable) : Prop where
  kept : ∀ old ∈ leases.rows, ∃ lease ∈ later.rows, lease.leaseId = old.leaseId ∧
    resource lease = resource old ∧ old.fencingRevision ≤ lease.fencingRevision
  above : ∀ lease ∈ later.rows, lease.leaseId ∉ leases.keys → ∀ old ∈ leases.rows,
    resource old = resource lease → old.fencingRevision < lease.fencingRevision

theorem Fenced.refl (leases : LeaseTable) : Fenced leases leases where
  kept := fun old member => ⟨old, member, rfl, rfl, le_refl _⟩
  above := fun _ member fresh => absurd (Table.mem_keys_of_mem member) fresh

theorem Fenced.trans {leases middle later : LeaseTable} (first : Fenced leases middle)
    (second : Fenced middle later) : Fenced leases later where
  kept := by
    intro old member
    obtain ⟨lease, held, named, same, grown⟩ := first.kept old member
    obtain ⟨last, held', named', same', grown'⟩ := second.kept lease held
    exact ⟨last, held', named'.trans named, same'.trans same, grown.trans grown'⟩
  above := by
    intro lease member fresh old inRows same
    by_cases between : lease.leaseId ∈ middle.keys
    · obtain ⟨earlier, held, named⟩ := List.mem_map.mp between
      obtain ⟨last, held', named', same', grown⟩ := second.kept earlier held
      have here : last = lease := Table.eq_of_key_eq held' member (named'.trans named)
      subst here
      have lower := first.above earlier held (named ▸ fresh) old inRows (same.trans same')
      omega
    · obtain ⟨kept, held, _, same', grown⟩ := first.kept old inRows
      have lower := second.above lease member between kept held (same'.trans same)
      omega

/-- The changes that operations are made of, where `P` are the limits in use. -/
inductive StoreStep (P : TaskCapacityLimits → Prop) : WaveDatabase → WaveDatabase → Prop
  | planned (db : WaveDatabase) (plans : PlanTable) : StoreStep P db { db with plans := plans }
  | registered (db : WaveDatabase) (task : TaskLifecycleProjection)
      (fresh : (task.runId, task.taskId) ∉ db.tasks.keys) (pending : task.phase = .notStarted) :
      StoreStep P db { db with tasks := db.tasks.upsert task }
  | moved (db : WaveDatabase) (row next : TaskLifecycleProjection) (member : row ∈ db.tasks.rows)
      (named : (next.runId, next.taskId) = (row.runId, row.taskId))
      (running : next.phase ∈ runningPhases ↔ row.phase ∈ runningPhases)
      (pending : next.phase = .notStarted → row.phase = .notStarted) :
      StoreStep P db { db with tasks := db.tasks.upsert next }
  | settled (db : WaveDatabase) (row next : TaskLifecycleProjection) (member : row ∈ db.tasks.rows)
      (named : (next.runId, next.taskId) = (row.runId, row.taskId))
      (rests : next.phase ∉ runningPhases) (begun : next.phase ≠ .notStarted) :
      StoreStep P db { db with
        tasks := db.tasks.upsert next
        leases := releaseLeases db.leases row.runId row.taskId }
  | released (db : WaveDatabase) (row : TaskLifecycleProjection) (member : row ∈ db.tasks.rows)
      (rests : row.phase ∉ runningPhases) :
      StoreStep P db { db with leases := releaseLeases db.leases row.runId row.taskId }
  | dispatched (db db' : WaveDatabase) (ids : Nat → String) (limits : TaskCapacityLimits)
      (now : String) (row : TaskLifecycleProjection) (dispatch : TaskDispatchRecord)
      (limited : P limits) (found : db.tasks.find? (dispatch.runId, dispatch.taskId) = some row)
      (pending : row.phase = .notStarted)
      (ran : dispatchFresh ids limits now db row dispatch = .ok db') : StoreStep P db db'

section Releases

variable {leases : LeaseTable} {runId taskId : String}

theorem releaseLease_active {lease : TaskCapacityLease}
    (active : (releaseLease runId taskId lease).active = true) :
    releaseLease runId taskId lease = lease ∧ ¬ (lease.runId = runId ∧ lease.taskId = taskId) := by
  unfold releaseLease at active ⊢
  split at active
  · cases active
  · rename_i other
    rw [if_neg other]
    exact ⟨rfl, fun here => other ⟨here.1, here.2, active⟩⟩

theorem mem_releaseLeases {lease : TaskCapacityLease} :
    lease ∈ (releaseLeases leases runId taskId).rows ↔
      ∃ old ∈ leases.rows, releaseLease runId taskId old = lease := List.mem_map

theorem releaseLease_identity (lease : TaskCapacityLease) :
    (releaseLease runId taskId lease).leaseId = lease.leaseId ∧
      resource (releaseLease runId taskId lease) = resource lease ∧
      lease.fencingRevision ≤ (releaseLease runId taskId lease).fencingRevision := by
  unfold releaseLease
  split
  · exact ⟨rfl, rfl, Nat.le_succ _⟩
  · exact ⟨rfl, rfl, le_refl _⟩

theorem fenced_releaseLeases : Fenced leases (releaseLeases leases runId taskId) where
  kept := fun old member =>
    ⟨releaseLease runId taskId old, mem_releaseLeases.mpr ⟨old, member, rfl⟩,
      releaseLease_identity old⟩
  above := by
    intro lease member fresh
    obtain ⟨old, held, rfl⟩ := mem_releaseLeases.mp member
    rw [(releaseLease_identity old).1] at fresh
    exact absurd (Table.mem_keys_of_mem held) fresh

theorem activeCount_releaseLeases (scope : TaskCapacityScope) (resourceId : String) :
    activeCount (releaseLeases leases runId taskId) scope resourceId ≤
      activeCount leases scope resourceId := by
  unfold activeCount releaseLeases
  rw [List.countP_map]
  refine List.countP_mono_left fun lease _ counts => ?_
  simp only [Function.comp_apply, decide_eq_true_eq] at counts ⊢
  rw [(releaseLease_active counts.2.2).1] at counts
  exact counts

theorem heldBy_release {db : WaveDatabase} {tasks : TaskTable} {other other' : String}
    (different : ¬ (other = runId ∧ other' = taskId)) :
    heldBy { db with tasks := tasks, leases := releaseLeases db.leases runId taskId } other other' =
      heldBy db other other' := by
  unfold heldBy releaseLeases
  rw [List.filter_map, List.map_map]
  have same : ∀ lease : TaskCapacityLease, lease.runId = other ∧ lease.taskId = other' →
      releaseLease runId taskId lease = lease := by
    rintro lease ⟨rfl, rfl⟩
    unfold releaseLease
    rw [if_neg fun here => different ⟨here.1, here.2.1⟩]
  have fields : ∀ lease : TaskCapacityLease, (releaseLease runId taskId lease).runId = lease.runId ∧
      (releaseLease runId taskId lease).taskId = lease.taskId := by
    intro lease
    unfold releaseLease
    split <;> exact ⟨rfl, rfl⟩
  rw [List.filter_congr (q := fun lease : TaskCapacityLease =>
    decide (lease.runId = other ∧ lease.taskId = other' ∧ lease.active = true))]
  · refine List.map_congr_left fun lease listed => ?_
    have here := of_decide_eq_true (List.mem_filter.mp listed).2
    rw [Function.comp_apply, same lease ⟨here.1, here.2.1⟩]
  · intro lease _
    simp only [Function.comp_apply, fields]
    by_cases here : lease.runId = other ∧ lease.taskId = other'
    · rw [same lease here]
    · have apart : ∀ active : Bool, ¬ (lease.runId = other ∧ lease.taskId = other' ∧
          active = true) := fun active held => here ⟨held.1, held.2.1⟩
      simp only [apart]

end Releases

section Acquisition

variable {ids : Nat → String} {dispatch : TaskDispatchRecord} {now : String} {db db' : WaveDatabase}

theorem le_priorFence {leases : LeaseTable} {lease : TaskCapacityLease}
    (member : lease ∈ leases.rows) :
    lease.fencingRevision ≤ priorFence leases lease.scope lease.resourceId := by
  have fold : ∀ (rows : List TaskCapacityLease) (fence : Nat),
      fence ≤ rows.foldl (fun fence lease => max fence lease.fencingRevision) fence ∧
      ∀ lease ∈ rows, lease.fencingRevision ≤
        rows.foldl (fun fence lease => max fence lease.fencingRevision) fence := by
    intro rows
    induction rows with
    | nil => exact fun fence => ⟨le_refl _, fun _ member => nomatch member⟩
    | cons row rows ih =>
      intro fence
      obtain ⟨start, rest⟩ := ih (max fence row.fencingRevision)
      refine ⟨le_trans (le_max_left _ _) start, fun lease member => ?_⟩
      rcases List.mem_cons.mp member with rfl | later
      · exact le_trans (le_max_right _ _) start
      · exact rest lease later
  exact (fold _ 0).2 lease (List.mem_filter.mpr ⟨member, by simp⟩)

/-- The leases on some resources for a dispatch have been added. -/
structure Acquired (dispatch : TaskDispatchRecord) (resources : List (TaskCapacityScope × String))
    (leases later : LeaseTable) : Prop where
  added : ∃ news, later.rows = leases.rows ++ news ∧ news.map resource = resources ∧
    ∀ lease ∈ news, lease.runId = dispatch.runId ∧ lease.taskId = dispatch.taskId ∧
      lease.active = true
  fenced : Fenced leases later
  exclusive : Exclusive leases → Exclusive later

theorem Acquired.refl (leases : LeaseTable) : Acquired dispatch [] leases leases where
  added := ⟨[], by simp, rfl, fun _ member => nomatch member⟩
  fenced := .refl leases
  exclusive := id

theorem Acquired.trans {resources resources' : List (TaskCapacityScope × String)}
    {leases middle later : LeaseTable} (first : Acquired dispatch resources leases middle)
    (second : Acquired dispatch resources' middle later) :
    Acquired dispatch (resources ++ resources') leases later where
  added := by
    obtain ⟨news, rows, named, own⟩ := first.added
    obtain ⟨news', rows', named', own'⟩ := second.added
    refine ⟨news ++ news', by rw [rows', rows, List.append_assoc], by simp [named, named'], ?_⟩
    intro lease member
    exact (List.mem_append.mp member).elim (own lease) (own' lease)
  fenced := first.fenced.trans second.fenced
  exclusive := fun apart => second.exclusive (first.exclusive apart)

theorem acquire_acquired {item : TaskCapacityScope × String}
    (ok : acquire ids dispatch now db item = .ok db') :
    Acquired dispatch [item] db.leases db'.leases := by
  simp only [acquire] at ok
  split at ok
  · rename_i admissible
    split at ok
    · rename_i leases inserted
      cases ok
      obtain ⟨fresh, rfl⟩ := Table.insert?_eq_some.mp inserted
      have rows := Table.rows_upsert_of_not_mem fresh
      have clear := List.all_eq_true.mp admissible
      refine ⟨⟨[_], rows, rfl, ?_⟩, ⟨?_, ?_⟩, ?_⟩
      · intro lease member
        rw [List.mem_singleton.mp member]
        exact ⟨rfl, rfl, rfl⟩
      · intro old member
        exact ⟨old, rows ▸ List.mem_append_left _ member, rfl, rfl, le_refl _⟩
      · intro lease member unknown old inRows same
        rw [rows] at member
        rcases List.mem_append.mp member with earlier | here
        · exact absurd (Table.mem_keys_of_mem earlier) unknown
        · rw [List.mem_singleton.mp here] at same ⊢
          have bound := le_priorFence inRows
          rw [show old.scope = item.1 from congrArg Prod.fst same,
            show old.resourceId = item.2 from congrArg Prod.snd same] at bound
          exact Nat.lt_succ_of_le bound
      · intro apart first inFirst second inSecond active active' sharp same
        rw [rows] at inFirst inSecond
        have refused : ∀ old ∈ db.leases.rows, old.active = true → resource old = item →
            WaveStore.exclusive item.1 = true → False := by
          intro old member active here sharp
          have distinct := (of_decide_eq_true (clear old member)).2
          exact distinct ⟨sharp, active, congrArg Prod.fst here, congrArg Prod.snd here⟩
        rcases List.mem_append.mp inFirst with held | here
        · rcases List.mem_append.mp inSecond with held' | here'
          · exact apart first held second held' active active' sharp same
          · rw [List.mem_singleton.mp here'] at same
            have scope : first.scope = item.1 := congrArg Prod.fst same
            exact (refused first held active same (scope ▸ sharp)).elim
        · rcases List.mem_append.mp inSecond with held' | here'
          · rw [List.mem_singleton.mp here] at same sharp
            exact (refused second held' active' same.symm sharp).elim
          · rw [List.mem_singleton.mp here, List.mem_singleton.mp here']
    · cases ok
  · cases ok

theorem acquireAll_acquired {resources : List (TaskCapacityScope × String)}
    (ok : resources.foldlM (acquire ids dispatch now) db = .ok db') :
    Acquired dispatch resources db.leases db'.leases := by
  induction resources generalizing db with
  | nil =>
    cases ok
    exact .refl _
  | cons item resources ih =>
    obtain ⟨middle, acquired, rest⟩ := foldlM_cons_eq_ok.mp ok
    exact (acquire_acquired acquired).trans (ih rest)

theorem dispatchFresh_leases {limits : TaskCapacityLimits} {row : TaskLifecycleProjection}
    (ok : dispatchFresh ids limits now db row dispatch = .ok db') :
    activeCount db.leases .global "global" < limits.maxConcurrentWorkers ∧
      (∀ accountId limit, dispatch.accountId = some accountId →
        accountLimit limits accountId = some limit →
          activeCount db.leases .account accountId < limit) ∧
      Acquired dispatch (resourcesOf dispatch) db.leases db'.leases := by
  obtain ⟨_, roomy, rest⟩ := bind_eq_ok.mp ok
  obtain ⟨_, accounts, rest⟩ := bind_eq_ok.mp rest
  obtain ⟨leased, folded, recorded⟩ := bind_eq_ok.mp rest
  have below : ∀ {scope resourceId limit} {done : Unit},
      counted db.leases scope resourceId limit = .ok done →
        activeCount db.leases scope resourceId < limit := by
    intro scope resourceId limit done room
    unfold counted at room
    split at room
    · cases room
    · omega
  refine ⟨below roomy, ?_, ?_⟩
  · intro accountId limit charged limited
    rw [charged] at accounts
    have single := forM_ok accounts accountId (by simp)
    unfold accountCounted at single
    rw [limited] at single
    exact below single
  · have leases : db'.leases = leased.leases := by
      unfold recordDispatch at recorded
      split_ifs at recorded
      split at recorded
      · cases recorded
        rfl
      · cases recorded
    rw [leases]
    exact acquireAll_acquired folded

end Acquisition

section Steps

variable {P : TaskCapacityLimits → Prop} {db db' : WaveDatabase}
variable {tasks : TaskTable} {row : TaskLifecycleProjection}

theorem eq_of_named {first second : TaskLifecycleProjection} (inFirst : first ∈ tasks.rows)
    (inSecond : second ∈ tasks.rows) (run : first.runId = second.runId)
    (task : first.taskId = second.taskId) : first = second :=
  Table.eq_of_key_eq inFirst inSecond (Prod.ext run task)

theorem StoreStep.fenced (step : StoreStep P db db') : Fenced db.leases db'.leases := by
  cases step with
  | planned | registered | moved => exact .refl _
  | settled | released => exact fenced_releaseLeases
  | dispatched _ ids limits now row dispatch _ _ _ ran =>
    exact (dispatchFresh_leases ran).2.2.fenced

theorem Mirrored.retask (mirrored : Mirrored db)
    (from_ : ∀ next ∈ tasks.rows, next.phase ∈ runningPhases → ∃ row ∈ db.tasks.rows,
      row.runId = next.runId ∧ row.taskId = next.taskId ∧ row.phase ∈ runningPhases)
    (runs : ∀ row ∈ db.tasks.rows, row.phase ∈ runningPhases → ∃ next ∈ tasks.rows,
      next.runId = row.runId ∧ next.taskId = row.taskId ∧ next.phase ∈ runningPhases)
    (starts : ∀ row ∈ db.tasks.rows, row.phase ≠ .notStarted → ∃ next ∈ tasks.rows,
      next.runId = row.runId ∧ next.taskId = row.taskId ∧ next.phase ≠ .notStarted) :
    Mirrored { db with tasks := tasks } where
  running := by
    intro next member running
    obtain ⟨row, held, run, task, running⟩ := from_ next member running
    rw [← run, ← task]
    exact mirrored.running row held running
  idle := by
    intro lease member active
    obtain ⟨row, held, run, task, running⟩ := mirrored.idle lease member active
    obtain ⟨next, held', run', task', running'⟩ := runs row held running
    exact ⟨next, held', run'.trans run, task'.trans task, running'⟩
  started := by
    intro dispatch member
    obtain ⟨row, held, run, task, begun⟩ := mirrored.started dispatch member
    obtain ⟨next, held', run', task', begun'⟩ := starts row held begun
    exact ⟨next, held', run'.trans run, task'.trans task, begun'⟩
  once := mirrored.once
  single := mirrored.single

theorem Mirrored.registered (mirrored : Mirrored db) {task : TaskLifecycleProjection}
    (fresh : (task.runId, task.taskId) ∉ db.tasks.keys) (pending : task.phase = .notStarted) :
    Mirrored { db with tasks := db.tasks.upsert task } := by
  have kept : ∀ row ∈ db.tasks.rows, row ∈ (db.tasks.upsert task).rows :=
    fun _ => Table.mem_upsert_of_fresh fresh
  refine mirrored.retask ?_ (fun row member running => ⟨row, kept row member, rfl, rfl, running⟩)
    fun row member begun => ⟨row, kept row member, rfl, rfl, begun⟩
  intro next member running
  rcases Table.mem_upsert.mp member with rfl | ⟨held, _⟩
  · rw [pending] at running
    exact absurd running (by decide)
  · exact ⟨next, held, rfl, rfl, running⟩

theorem Mirrored.moved (mirrored : Mirrored db) {next : TaskLifecycleProjection}
    (member : row ∈ db.tasks.rows) (named : (next.runId, next.taskId) = (row.runId, row.taskId))
    (running : next.phase ∈ runningPhases ↔ row.phase ∈ runningPhases)
    (pending : next.phase = .notStarted → row.phase = .notStarted) :
    Mirrored { db with tasks := db.tasks.upsert next } := by
  obtain ⟨run, task⟩ := Prod.mk.inj named
  have follow : ∀ other ∈ db.tasks.rows, ∃ later ∈ (db.tasks.upsert next).rows,
      later.runId = other.runId ∧ later.taskId = other.taskId ∧
        (later.phase ∈ runningPhases ↔ other.phase ∈ runningPhases) ∧
        (later.phase = .notStarted → other.phase = .notStarted) := by
    intro other held
    by_cases here : (other.runId, other.taskId) = (next.runId, next.taskId)
    · have same : other = row := Table.eq_of_key_eq held member (here.trans named)
      subst same
      exact ⟨next, Table.mem_upsert.mpr (Or.inl rfl), run, task, running, pending⟩
    · exact ⟨other, Table.mem_upsert.mpr (Or.inr ⟨held, here⟩), rfl, rfl, Iff.rfl, id⟩
  refine mirrored.retask ?_ ?_ ?_
  · intro later held runs
    rcases Table.mem_upsert.mp held with rfl | ⟨held, _⟩
    · exact ⟨row, member, run.symm, task.symm, running.mp runs⟩
    · exact ⟨later, held, rfl, rfl, runs⟩
  · intro other held runs
    obtain ⟨later, held', run', task', same, _⟩ := follow other held
    exact ⟨later, held', run', task', same.mpr runs⟩
  · intro other held begun
    obtain ⟨later, held', run', task', _, same⟩ := follow other held
    exact ⟨later, held', run', task', fun idle => begun (same idle)⟩

theorem exclusive_releaseLeases {leases : LeaseTable} {runId taskId : String}
    (apart : Exclusive leases) : Exclusive (releaseLeases leases runId taskId) := by
  intro first inFirst second inSecond active active' sharp same
  obtain ⟨old, held, rfl⟩ := mem_releaseLeases.mp inFirst
  obtain ⟨old', held', rfl⟩ := mem_releaseLeases.mp inSecond
  have first := (releaseLease_active active).1
  have second := (releaseLease_active active').1
  rw [first] at active sharp same ⊢
  rw [second] at active' same ⊢
  exact apart old held old' held' active active' sharp same

theorem Mirrored.settled (mirrored : Mirrored db) {runId taskId : String}
    (from_ : ∀ next ∈ tasks.rows, next.phase ∈ runningPhases → next ∈ db.tasks.rows ∧
      ¬ (next.runId = runId ∧ next.taskId = taskId))
    (runs : ∀ row ∈ db.tasks.rows, ¬ (row.runId = runId ∧ row.taskId = taskId) → row ∈ tasks.rows)
    (starts : ∀ row ∈ db.tasks.rows, row.phase ≠ .notStarted → ∃ next ∈ tasks.rows,
      next.runId = row.runId ∧ next.taskId = row.taskId ∧ next.phase ≠ .notStarted) :
    Mirrored { db with tasks := tasks, leases := releaseLeases db.leases runId taskId } where
  running := by
    intro next member running
    obtain ⟨held, other⟩ := from_ next member running
    obtain ⟨dispatch, listed, run, task, leased⟩ := mirrored.running next held running
    refine ⟨dispatch, listed, run, task, ?_⟩
    rw [heldBy_release other]
    exact leased
  idle := by
    intro lease member active
    obtain ⟨old, held, rfl⟩ := mem_releaseLeases.mp member
    obtain ⟨same, other⟩ := releaseLease_active active
    rw [same] at active ⊢
    obtain ⟨row, stored, run, task, running⟩ := mirrored.idle old held active
    exact ⟨row, runs row stored fun here => other ⟨run ▸ here.1, task ▸ here.2⟩, run, task, running⟩
  started := by
    intro dispatch member
    obtain ⟨row, held, run, task, begun⟩ := mirrored.started dispatch member
    obtain ⟨next, held', run', task', begun'⟩ := starts row held begun
    exact ⟨next, held', run'.trans run, task'.trans task, begun'⟩
  once := mirrored.once
  single := exclusive_releaseLeases mirrored.single

theorem heldBy_nil (mirrored : Mirrored db) (member : row ∈ db.tasks.rows)
    (rests : row.phase ∉ runningPhases) : heldBy db row.runId row.taskId = [] := by
  unfold heldBy
  rw [List.map_eq_nil_iff, List.filter_eq_nil_iff]
  intro lease held here
  obtain ⟨run, task, active⟩ := of_decide_eq_true here
  obtain ⟨other, stored, run', task', running⟩ := mirrored.idle lease held active
  have same : other = row := eq_of_named stored member (run'.trans run) (task'.trans task)
  exact rests (same ▸ running)

theorem heldBy_acquired {resources : List (TaskCapacityScope × String)}
    {dispatch : TaskDispatchRecord} (acquired : Acquired dispatch resources db.leases db'.leases)
    (runId taskId : String) : heldBy db' runId taskId = heldBy db runId taskId ++
      if dispatch.runId = runId ∧ dispatch.taskId = taskId then resources else [] := by
  obtain ⟨news, rows, named, own⟩ := acquired.added
  unfold heldBy
  rw [rows, List.filter_append, List.map_append]
  congr 1
  split
  · rename_i here
    rw [List.filter_eq_self.mpr, named]
    intro lease member
    obtain ⟨run, task, active⟩ := own lease member
    exact decide_eq_true ⟨run.trans here.1, task.trans here.2, active⟩
  · rename_i other
    rw [List.map_eq_nil_iff, List.filter_eq_nil_iff]
    intro lease member held
    obtain ⟨run, task, _⟩ := own lease member
    obtain ⟨run', task', _⟩ := of_decide_eq_true held
    exact other ⟨run.symm.trans run', task.symm.trans task'⟩

theorem Mirrored.dispatched (mirrored : Mirrored db) {ids : Nat → String}
    {limits : TaskCapacityLimits} {now : String} {dispatch : TaskDispatchRecord}
    (found : db.tasks.find? (dispatch.runId, dispatch.taskId) = some row)
    (pending : row.phase = .notStarted)
    (ran : dispatchFresh ids limits now db row dispatch = .ok db') : Mirrored db' := by
  obtain ⟨tasks, _, fresh, dispatches⟩ := dispatchFresh_ok ran
  obtain ⟨_, _, acquired⟩ := dispatchFresh_leases ran
  have member := Table.mem_of_find? found
  have named : (row.runId, row.taskId) = (dispatch.runId, dispatch.taskId) :=
    Table.key_of_find? (t := db.tasks) found
  obtain ⟨run, task⟩ := Prod.mk.inj named
  have rests : row.phase ∉ runningPhases := by
    rw [pending]
    decide
  have dispatching : (dispatchingTask row dispatch).phase ∈ runningPhases := List.mem_cons_self
  have next : dispatchingTask row dispatch ∈ db'.tasks.rows := by
    rw [tasks]
    exact Table.mem_upsert.mpr (Or.inl rfl)
  have kept : ∀ other ∈ db.tasks.rows, other.phase ≠ .notStarted → other ∈ db'.tasks.rows := by
    intro other held begun
    rw [tasks]
    refine Table.mem_upsert.mpr (Or.inr ⟨held, fun same => begun ?_⟩)
    rw [Table.eq_of_key_eq held member same]
    exact pending
  have listed : ∀ other, other ∈ db'.dispatches.rows ↔
      other = dispatch ∨ other ∈ db.dispatches.rows := by
    intro other
    rw [dispatches, Table.mem_upsert]
    refine or_congr_right ⟨And.left, fun held => ⟨held, fun same => fresh ?_⟩⟩
    exact same ▸ Table.mem_keys_of_mem held
  have new : ∀ other ∈ db.dispatches.rows, other.runId = dispatch.runId →
      other.taskId = dispatch.taskId → False := by
    intro other held run' task'
    obtain ⟨earlier, stored, named, named', begun⟩ := mirrored.started other held
    have same : earlier = row := eq_of_named stored member
      (named.trans (run'.trans run.symm)) (named'.trans (task'.trans task.symm))
    exact begun (same ▸ pending)
  refine ⟨?_, ?_, ?_, ?_, acquired.exclusive mirrored.single⟩
  · intro later held running
    rw [tasks] at held
    rw [heldBy_acquired acquired]
    rcases Table.mem_upsert.mp held with rfl | ⟨held, other⟩
    · refine ⟨dispatch, (listed dispatch).mpr (Or.inl rfl), run.symm, task.symm, ?_⟩
      change (heldBy db row.runId row.taskId ++ _).Perm _
      rw [heldBy_nil mirrored member rests, if_pos ⟨run.symm, task.symm⟩]
      exact List.Perm.refl _
    · obtain ⟨own, stored, named, named', leased⟩ := mirrored.running later held running
      refine ⟨own, (listed own).mpr (Or.inr stored), named, named', ?_⟩
      rw [if_neg, List.append_nil]
      · exact leased
      · rintro ⟨here, here'⟩
        exact other (Prod.ext (here.symm.trans run.symm) (here'.symm.trans task.symm))
  · obtain ⟨news, rows, _, own⟩ := acquired.added
    intro lease held active
    rw [rows] at held
    rcases List.mem_append.mp held with held | held
    · obtain ⟨other, stored, named, named', running⟩ := mirrored.idle lease held active
      refine ⟨other, kept other stored ?_, named, named', running⟩
      intro idle
      rw [idle] at running
      exact absurd running (by decide)
    · obtain ⟨named, named', _⟩ := own lease held
      exact ⟨_, next, run.trans named.symm, task.trans named'.symm, dispatching⟩
  · intro other held
    rcases (listed other).mp held with rfl | held
    · exact ⟨_, next, run, task, fun idle => nomatch idle⟩
    · obtain ⟨earlier, stored, named, named', begun⟩ := mirrored.started other held
      exact ⟨earlier, kept earlier stored begun, named, named', begun⟩
  · intro first inFirst second inSecond same same'
    rcases (listed first).mp inFirst with rfl | held
    · rcases (listed second).mp inSecond with rfl | held'
      · rfl
      · exact (new second held' same.symm same'.symm).elim
    · rcases (listed second).mp inSecond with rfl | held'
      · exact (new first held same same').elim
      · exact mirrored.once first held second held' same same'

theorem StoreStep.mirrored (step : StoreStep P db db') (mirrored : Mirrored db) : Mirrored db' := by
  cases step with
  | planned plans =>
    exact ⟨mirrored.running, mirrored.idle, mirrored.started, mirrored.once, mirrored.single⟩
  | registered task fresh pending => exact mirrored.registered fresh pending
  | moved row next member named running pending =>
    exact mirrored.moved member named running pending
  | settled row next member named rests typed =>
    obtain ⟨run, task⟩ := Prod.mk.inj named
    refine mirrored.settled ?_ ?_ ?_
    · intro later held running
      rcases Table.mem_upsert.mp held with rfl | ⟨held, other⟩
      · exact absurd running rests
      · refine ⟨held, fun here => other ?_⟩
        exact Prod.ext (here.1.trans run.symm) (here.2.trans task.symm)
    · intro other held different
      refine Table.mem_upsert.mpr (Or.inr ⟨held, fun same => different ?_⟩)
      obtain ⟨run', task'⟩ := Prod.mk.inj same
      exact ⟨run'.trans run, task'.trans task⟩
    · intro other held begun
      by_cases here : (other.runId, other.taskId) = (next.runId, next.taskId)
      · obtain ⟨run', task'⟩ := Prod.mk.inj here
        exact ⟨next, Table.mem_upsert.mpr (Or.inl rfl), run'.symm, task'.symm, typed⟩
      · exact ⟨other, Table.mem_upsert.mpr (Or.inr ⟨held, here⟩), rfl, rfl, begun⟩
  | released row member rests =>
    refine mirrored.settled ?_ (fun _ held _ => held) fun other held begun =>
      ⟨other, held, rfl, rfl, begun⟩
    intro other held running
    refine ⟨held, fun here => rests ?_⟩
    rw [← eq_of_named held member here.1 here.2]
    exact running
  | dispatched _ ids limits now row dispatch _ found pending ran =>
    exact mirrored.dispatched found pending ran

end Steps

structure Limited (limits : TaskCapacityLimits) (leases : LeaseTable) : Prop where
  workers : activeCount leases .global "global" ≤ limits.maxConcurrentWorkers
  accounts : ∀ accountId limit, accountLimit limits accountId = some limit →
    activeCount leases .account accountId ≤ limit

section Counts

variable {limits : TaskCapacityLimits} {db db' : WaveDatabase}

theorem activeCount_acquired {dispatch : TaskDispatchRecord}
    {resources : List (TaskCapacityScope × String)} {leases later : LeaseTable}
    (acquired : Acquired dispatch resources leases later) (scope : TaskCapacityScope)
    (resourceId : String) :
    activeCount later scope resourceId =
      activeCount leases scope resourceId + resources.count (scope, resourceId) := by
  obtain ⟨news, rows, named, own⟩ := acquired.added
  unfold activeCount
  rw [rows, List.countP_append, ← named, List.count, List.countP_map]
  congr 1
  refine List.countP_congr fun lease member => ?_
  simp [resource, (own lease member).2.2]

theorem count_global (dispatch : TaskDispatchRecord) :
    (resourcesOf dispatch).count (.global, "global") = 1 := by
  unfold resourcesOf
  rw [List.count_append, List.count_cons_self, List.count_eq_zero.mpr (by simp),
    List.count_eq_zero.mpr (by simp)]

theorem count_account (dispatch : TaskDispatchRecord) (accountId : String) :
    (resourcesOf dispatch).count (.account, accountId) =
      if dispatch.accountId = some accountId then 1 else 0 := by
  unfold resourcesOf
  rw [List.count_append, List.count_cons_of_ne (by simp), List.count_cons_of_ne (by simp),
    List.count_eq_zero.mpr (by simp : (TaskCapacityScope.account, accountId) ∉
      dispatch.repositoryIds.map fun repositoryId => (TaskCapacityScope.repository, repositoryId))]
  cases account : dispatch.accountId with
  | none => simp
  | some charged =>
    by_cases same : charged = accountId
    · simp [same]
    · simp [same]

theorem Limited.released {leases : LeaseTable} (limited : Limited limits leases)
    (runId taskId : String) : Limited limits (releaseLeases leases runId taskId) where
  workers := (activeCount_releaseLeases _ _).trans limited.workers
  accounts := fun accountId limit bounded =>
    (activeCount_releaseLeases _ _).trans (limited.accounts accountId limit bounded)

theorem StoreStep.limited (step : StoreStep (· = limits) db db')
    (limited : Limited limits db.leases) :
    Limited limits db'.leases := by
  cases step with
  | planned | registered | moved => exact limited
  | settled | released => exact limited.released _ _
  | dispatched _ ids used now row dispatch same _ _ ran =>
    subst same
    obtain ⟨workers, accounts, acquired⟩ := dispatchFresh_leases ran
    constructor
    · rw [activeCount_acquired acquired, count_global]
      omega
    · intro accountId limit bounded
      rw [activeCount_acquired acquired, count_account]
      split
      · rename_i charged
        have room := accounts accountId limit charged bounded
        omega
      · exact limited.accounts accountId limit bounded

end Counts

abbrev Steps (P : TaskCapacityLimits → Prop) := Relation.ReflTransGen (StoreStep P)

section Operations

variable {P : TaskCapacityLimits → Prop} {db db' : WaveDatabase}

theorem Steps.fenced (steps : Steps P db db') : Fenced db.leases db'.leases := by
  induction steps with
  | refl => exact .refl _
  | tail _ step ih => exact ih.trans step.fenced

theorem Steps.mirrored (steps : Steps P db db') (mirrored : Mirrored db) : Mirrored db' := by
  induction steps with
  | refl => exact mirrored
  | tail _ step ih => exact step.mirrored ih

theorem Steps.limited {limits : TaskCapacityLimits} (steps : Steps (· = limits) db db')
    (limited : Limited limits db.leases) : Limited limits db'.leases := by
  induction steps with
  | refl => exact limited
  | tail _ step ih => exact step.limited ih

variable {runId : String}

theorem initializeTasks_steps {graphRevision : Nat} {taskIds : List String}
    (ok : initializeTasks db runId graphRevision taskIds = .ok db') : Steps P db db' := by
  obtain ⟨tasks, folded, rfl⟩ := initializeTasks_ok ok
  refine foldlM_invariant (P := fun tasks : TaskTable => Steps P db { db with tasks := tasks })
    ?_ .refl folded
  intro taskId _ before after steps ran
  unfold initializeTask at ran
  split at ran
  · rename_i absent
    cases ran
    exact steps.tail (.registered { db with tasks := before } (freshTask runId graphRevision taskId)
      (Table.find?_eq_none.mp absent) rfl)
  · rename_i existing found
    split_ifs at ran with pending
    · cases ran
      exact steps.tail (.moved { db with tasks := before } existing _ (Table.mem_of_find? found) rfl
        Iff.rfl id)
    · cases ran
      exact steps

theorem typed_settle {phase : TaskLifecyclePhase}
    (typed : PhaseChange.typed (.settle phase) = true) :
    phase ∉ runningPhases ∧ phase ≠ .notStarted := by
  have listed : phase ∈ [TaskLifecyclePhase.succeeded, .failed, .cancelled] :=
    of_decide_eq_true typed
  revert listed
  cases phase <;> decide

theorem origins_running {change : PhaseChange} (goesOn : ∀ phase, change ≠ .settle phase)
    {phase : TaskLifecyclePhase} (origin : phase ∈ change.origins) :
    (change.phase ∈ runningPhases ↔ phase ∈ runningPhases) ∧ change.phase ≠ .notStarted := by
  cases change with
  | settle settled => exact absurd rfl (goesOn settled)
  | markActive | markRetrying | requestCancellation | cancelPending | markRecoveryRequired =>
    revert origin
    cases phase <;> decide

theorem changePhase_steps {taskId : String} {change : PhaseChange} {row : TaskLifecycleProjection}
    (typed : PhaseChange.typed change = true)
    (ok : changePhase db runId taskId change = .ok (row, db')) : Steps P db db' := by
  obtain ⟨⟨result, tasks⟩, updated, rest⟩ := bind_eq_ok.mp ok
  unfold updatePhase at updated
  split at updated
  · cases updated
  · rename_i stored found
    have member := Table.mem_of_find? found
    obtain ⟨rfl, rfl⟩ := Prod.mk.inj (Table.key_of_find? (t := db.tasks) found)
    have columns : ((change.columns stored).runId, (change.columns stored).taskId) =
        (stored.runId, stored.taskId) := by cases change <;> rfl
    by_cases settles : ∃ phase, change = .settle phase
    · obtain ⟨phase, rfl⟩ := settles
      obtain ⟨rests, begun⟩ := typed_settle typed
      split_ifs at updated with origin same
      · cases updated
        cases rest
        exact .single (.settled db stored _ member columns rests begun)
      · cases updated
        cases rest
        refine .single (.released db _ member ?_)
        rw [same]
        exact rests
    · have goesOn : ∀ phase, change ≠ .settle phase := fun phase same => settles ⟨phase, same⟩
      have next : db' = { db with tasks := tasks } := by
        cases change with
        | settle phase => exact absurd rfl (goesOn phase)
        | markActive | markRetrying | requestCancellation | cancelPending | markRecoveryRequired =>
          cases rest
          rfl
      subst next
      split_ifs at updated with origin same
      · cases updated
        obtain ⟨running, begun⟩ := origins_running goesOn origin
        exact .single
          (.moved db stored _ member columns running fun pending => absurd pending begun)
      · cases updated
        exact .refl

theorem block_steps {taskId : String} {reason : TaskPropagationReason}
    {row : TaskLifecycleProjection} (ok : block db runId taskId reason = .ok (row, db')) :
    Steps P db db' := by
  unfold block at ok
  split at ok
  · cases ok
  · rename_i stored found
    split_ifs at ok with pending
    · cases ok
      refine .single (.moved db stored _ (Table.mem_of_find? found) rfl ?_ ?_)
      · rw [pending]
        exact iff_of_false (show TaskLifecyclePhase.blocked ∉ runningPhases by decide) (by decide)
      · exact fun _ => pending
    · cases ok
      exact .refl

variable [Collation]

theorem dispatchWave_steps {ids : Nat → String} {plan : TaskWavePlan}
    {dispatches accepted : List TaskDispatchRecord} {limits : TaskCapacityLimits}
    (limited : P limits) (ok : dispatchWave ids db plan dispatches limits = .ok (accepted, db')) :
    Steps P db db' := by
  unfold dispatchWave at ok
  split at ok
  · cases ok
    exact .refl
  · obtain ⟨planned, recorded, folded⟩ := bind_eq_ok.mp ok
    have first : Steps P db planned := by
      unfold recordPlan at recorded
      split at recorded
      · split_ifs at recorded
        cases recorded
        exact .refl
      · cases recorded
        exact .single (.planned db _)
    refine foldlM_invariant (P := fun state : List TaskDispatchRecord × WaveDatabase =>
      Steps P db state.2) ?_ first folded
    intro dispatch _ before after steps ran
    rcases dispatchTask_ok ran with same | ⟨row, found, pending, fresh⟩
    · rw [same]
      exact steps
    · exact steps.tail (.dispatched _ _ ids limits _ row dispatch limited found pending fresh)

def operate (operation : Operation) (db : WaveDatabase) : WaveResult WaveDatabase :=
  match operation with
  | .initializeTasks runId graphRevision taskIds =>
    WaveStore.initializeTasks db runId graphRevision taskIds
  | .dispatchWave ids plan dispatches limits =>
    (WaveStore.dispatchWave ids db plan dispatches limits).map Prod.snd
  | .changePhase runId taskId change =>
    (WaveStore.changePhase db runId taskId change.1).map Prod.snd
  | .block runId taskId reason => (WaveStore.block db runId taskId reason).map Prod.snd

/-- One operation in its transaction. -/
def perform (operation : Operation) : Effect WaveStoreError WaveDatabase Unit :=
  Effect.transact fun db => (operate operation db).map fun db' => ((), db')

def performAll (operations : List Operation) (db : WaveDatabase) : WaveDatabase :=
  operations.foldl (fun db operation => (perform operation db).2) db

/-- The limits of a wave are those in use. -/
def Operation.within (P : TaskCapacityLimits → Prop) : Operation → Prop
  | .dispatchWave _ _ _ limits => P limits
  | _ => True

theorem perform_steps {operation : Operation} (limited : operation.within P) :
    Steps P db (perform operation db).2 := by
  cases ran : operate operation db with
  | error error =>
    have same : (perform operation db).2 = db := by simp [perform, Effect.transact, ran, Except.map]
    rw [same]
  | ok db' =>
    have next : (perform operation db).2 = db' := by
      simp [perform, Effect.transact, ran, Except.map]
    rw [next]
    cases operation with
    | initializeTasks => exact initializeTasks_steps ran
    | dispatchWave =>
      obtain ⟨⟨accepted, later⟩, ok, rfl⟩ := map_eq_ok.mp ran
      exact dispatchWave_steps limited ok
    | changePhase runId taskId change =>
      obtain ⟨⟨row, later⟩, ok, rfl⟩ := map_eq_ok.mp ran
      exact changePhase_steps change.2 ok
    | block =>
      obtain ⟨⟨row, later⟩, ok, rfl⟩ := map_eq_ok.mp ran
      exact block_steps ok

theorem performAll_steps {operations : List Operation}
    (limited : ∀ operation ∈ operations, operation.within P) :
    Steps P db (performAll operations db) := by
  induction operations generalizing db with
  | nil => exact .refl
  | cons operation operations ih =>
    exact (perform_steps (limited operation List.mem_cons_self)).trans
      (ih fun later member => limited later (List.mem_cons_of_mem _ member))

end Operations

theorem mirrored_empty : Mirrored emptyDatabase :=
  ⟨by simp [emptyDatabase, Table.empty], by simp [emptyDatabase, Table.empty],
    by simp [emptyDatabase, Table.empty], by simp [emptyDatabase, Table.empty],
    by simp [Exclusive, emptyDatabase, Table.empty]⟩

theorem limited_empty (limits : TaskCapacityLimits) : Limited limits emptyDatabase.leases :=
  ⟨Nat.zero_le _, fun _ _ _ => Nat.zero_le _⟩

variable [Collation]

theorem performAll_append (earlier later : List Operation) (db : WaveDatabase) :
    performAll (earlier ++ later) db = performAll later (performAll earlier db) :=
  List.foldl_append

/-- After a run: what each task holds, the exclusive resources, the counted ones, the fences of
leases made later, and the wave that is refused. -/
structure LeasesMirrorLifecycles (operations : List Operation) : Prop where
  running : ∀ task ∈ (performAll operations emptyDatabase).tasks.rows,
    task.phase ∈ [.dispatching, .active, .retrying, .cancelling, .recoveryRequired] →
      ∃ dispatch ∈ (performAll operations emptyDatabase).dispatches.rows,
        dispatch.runId = task.runId ∧ dispatch.taskId = task.taskId ∧
        (heldBy (performAll operations emptyDatabase) task.runId task.taskId).Perm
          (resourcesOf dispatch)
  resting : ∀ task ∈ (performAll operations emptyDatabase).tasks.rows,
    task.phase ∉ [.dispatching, .active, .retrying, .cancelling, .recoveryRequired] →
      heldBy (performAll operations emptyDatabase) task.runId task.taskId = []
  owned : ∀ lease ∈ (performAll operations emptyDatabase).leases.rows, lease.active = true →
    ∃ task ∈ (performAll operations emptyDatabase).tasks.rows,
      task.runId = lease.runId ∧ task.taskId = lease.taskId
  once : ∀ first ∈ (performAll operations emptyDatabase).dispatches.rows,
    ∀ second ∈ (performAll operations emptyDatabase).dispatches.rows,
      first.runId = second.runId → first.taskId = second.taskId → first = second
  single : Exclusive (performAll operations emptyDatabase).leases
  counted : ∀ limits, (∀ operation ∈ operations, operation.within (· = limits)) →
    Limited limits (performAll operations emptyDatabase).leases
  fenced : ∀ more, ∀ lease ∈ (performAll (operations ++ more) emptyDatabase).leases.rows,
    lease.leaseId ∉ (performAll operations emptyDatabase).leases.keys →
      ∀ old ∈ (performAll operations emptyDatabase).leases.rows, resource old = resource lease →
        old.fencingRevision < lease.fencingRevision
  refused : ∀ ids plan dispatches limits error,
    (perform (.dispatchWave ids plan dispatches limits) (performAll operations emptyDatabase)).1 =
        .error error →
      (perform (.dispatchWave ids plan dispatches limits)
        (performAll operations emptyDatabase)).2 = performAll operations emptyDatabase

theorem leases_mirror_lifecycles (operations : List Operation) :
    LeasesMirrorLifecycles operations := by
  have free : ∀ operations : List Operation,
      ∀ operation ∈ operations, operation.within fun _ => True := by
    intro operations operation _
    cases operation <;> trivial
  have mirrored : Mirrored (performAll operations emptyDatabase) :=
    (performAll_steps (free operations)).mirrored mirrored_empty
  refine ⟨mirrored.running, fun task member rests => heldBy_nil mirrored member rests, ?_,
    mirrored.once, mirrored.single, ?_, ?_, ?_⟩
  · intro lease held active
    obtain ⟨task, stored, run, named, _⟩ := mirrored.idle lease held active
    exact ⟨task, stored, run, named⟩
  · intro limits fixed
    exact (performAll_steps fixed).limited (limited_empty limits)
  · intro more lease held fresh old stored same
    rw [performAll_append] at held
    exact (performAll_steps (free more)).fenced.above lease held fresh old stored same
  · intro ids plan dispatches limits error failed
    unfold perform Effect.transact at failed ⊢
    split at failed
    · cases failed
    · rfl

end Heniek.CapacityLeases
