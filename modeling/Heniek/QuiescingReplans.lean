import Heniek.IntegrationOrder
import Heniek.Propagation

/-!
How a quiescing replan comes to an end. While it is there nothing is dispatched, so in a
run where no task runs and the integrations have come to rest, a tick blocks what can no
longer start and reconciles what waits for it, and changes no other phase. The tick then
moves the replan on, unless an interrupted task has succeeded, or a prerequisite has not
started or has a gate left open: then nothing will ever change again.
-/

namespace Heniek.QuiescingReplans
open EffectfulRun KeyedTable ScriptText FallibleRun RecoveryPolicy PipelineStore IntegrationStore
  IntegrationService IntegrationSteps TaskGraph DagValidation WaveStore EpicStore WaveScheduler
  EpicRuntime WaveSteps EpicSteps TaskLifecycles Propagation

/-- No task of the run runs, and every task that succeeded has an entry, which is terminal. -/
structure AtRest (env : Environment) (runId : String) (w : EpicWorld) : Prop where
  idle : ∀ row ∈ w.tasks.rows, row.runId = runId → row.phase ∉ runningPhases
  terminal : ∀ entry ∈ w.integration.db.ledger.rows, entry.runId = runId →
    ∀ row ∈ w.tasks.rows, row.runId = runId → row.taskId = entry.taskId →
      row.phase = .succeeded → IntegrationService.terminal entry.lifecycle = true
  entered : env.integration.isSome = true → ∀ dispatch ∈ w.dispatches.rows,
    dispatch.runId = runId → ∀ row ∈ w.tasks.rows, row.runId = runId →
      row.taskId = dispatch.taskId → row.phase = .succeeded →
        (queueInput dispatch 0).integrationId ∈ w.integration.db.ledger.keys

def GatesPassed (row : TaskLifecycleProjection) : Prop :=
  row.completionContract = .passed ∧ row.integration = .passed ∧ row.combinedVerification = .passed

def Unreconciled (w : EpicWorld) (row : TaskLifecycleProjection) : Prop :=
  ∃ entry ∈ w.integration.db.ledger.rows, entry.runId = row.runId ∧ entry.taskId = row.taskId ∧
    entry.lifecycle = .reconciliationRequired

/-- Gates that have passed stay so, and an entry is reconciled only by passing them. -/
structure Assures (w w' : EpicWorld) (row next : TaskLifecycleProjection) : Prop where
  passed : GatesPassed row → GatesPassed next
  waiting : Unreconciled w row → GatesPassed next ∨ Unreconciled w' next

/-- What becomes of a row while its run is at rest. -/
structure Settles (row next : TaskLifecycleProjection) : Prop where
  key : (next.runId, next.taskId) = (row.runId, row.taskId)
  settled : row.phase ∈ settledPhases → next.phase = row.phase ∧ next.blockReason = row.blockReason
  fresh : row.phase = .notStarted →
    next.phase = .notStarted ∨ next.phase = .blocked ∧ next.blockReason ≠ none

theorem Settles.refl (row : TaskLifecycleProjection) : Settles row row :=
  ⟨rfl, fun _ => ⟨rfl, rfl⟩, fun fresh => Or.inl fresh⟩

theorem Settles.trans {row next last : TaskLifecycleProjection} (first : Settles row next)
    (second : Settles next last) : Settles row last where
  key := second.key.trans first.key
  settled := by
    intro settled
    obtain ⟨phase, reason⟩ := first.settled settled
    obtain ⟨phase', reason'⟩ := second.settled (phase ▸ settled)
    exact ⟨phase'.trans phase, reason'.trans reason⟩
  fresh := by
    intro fresh
    rcases first.fresh fresh with still | ⟨blocked, reasoned⟩
    · exact second.fresh still
    · obtain ⟨phase, reason⟩ := second.settled (by rw [blocked]; decide)
      exact Or.inr ⟨phase.trans blocked, by rw [reason]; exact reasoned⟩

structure RowsSettle (runId : String) (dag : TaskDag) (w w' : EpicWorld) : Prop where
  kept : ∀ row ∈ w.tasks.rows, row.runId = runId → ∃ next ∈ w'.tasks.rows, Settles row next ∧
    Assures w w' row next
  added : ∀ next ∈ w'.tasks.rows, next.runId = runId → next.taskId ∉ dag.taskIds →
    ∃ row ∈ w.tasks.rows, row.runId = runId ∧ row.taskId = next.taskId

theorem RowsSettle.refl (runId : String) (dag : TaskDag) (w : EpicWorld) :
    RowsSettle runId dag w w where
  kept := fun row member _ => ⟨row, member, .refl row, fun passed => passed, Or.inr⟩
  added := fun row member sameRun _ => ⟨row, member, sameRun, rfl⟩

theorem RowsSettle.trans {runId : String} {dag : TaskDag} {w w' w'' : EpicWorld}
    (first : RowsSettle runId dag w w') (second : RowsSettle runId dag w' w'') :
    RowsSettle runId dag w w'' where
  kept := by
    intro row member sameRun
    obtain ⟨next, there, settles, assured⟩ := first.kept row member sameRun
    have nextRun : next.runId = runId := (congrArg Prod.fst settles.key).trans sameRun
    obtain ⟨last, stored, settles', assured'⟩ := second.kept next there nextRun
    refine ⟨last, stored, settles.trans settles', fun passed => ?_, fun waiting => ?_⟩
    · exact assured'.passed (assured.passed passed)
    · rcases assured.waiting waiting with passed | still
      · exact Or.inl (assured'.passed passed)
      · exact assured'.waiting still
  added := by
    intro last stored lastRun absent
    obtain ⟨next, there, nextRun, same⟩ := second.added last stored lastRun absent
    obtain ⟨row, member, sameRun, same'⟩ := first.added next there nextRun (same ▸ absent)
    exact ⟨row, member, sameRun, same'.trans same⟩

section Rows

variable {env : Environment} {runId : String} {dag : TaskDag} {w w' : EpicWorld}

/-- What a run at rest is kept by, besides its rows. -/
structure SameLedger (w w' : EpicWorld) : Prop where
  ledger : w'.integration.db.ledger = w.integration.db.ledger
  dispatches : w'.dispatches = w.dispatches

variable {row next : TaskLifecycleProjection} {entry : TaskIntegrationLedgerEntry}
  {db : IntegrationDatabase} {driver : TaskIntegrationDriver}

theorem SameLedger.assures (same : SameLedger w w')
    (key : (next.runId, next.taskId) = (row.runId, row.taskId))
    (gates : GatesPassed row → GatesPassed next) : Assures w w' row next := by
  refine ⟨gates, ?_⟩
  rintro ⟨entry, stored, entryRun, entryTask, required⟩
  refine Or.inr ⟨entry, by rw [same.ledger]; exact stored, ?_, ?_, required⟩
  · exact entryRun.trans (congrArg Prod.fst key).symm
  · exact entryTask.trans (congrArg Prod.snd key).symm

theorem AtRest.rows (rest : AtRest env runId w) (same : SameLedger w w')
    (rows : ∀ next ∈ w'.tasks.rows, next.runId = runId → next ∈ w.tasks.rows ∨
      next.phase = .notStarted ∨ next.phase = .blocked) : AtRest env runId w' where
  idle := by
    intro next member sameRun
    rcases rows next member sameRun with old | fresh | blocked
    · exact rest.idle next old sameRun
    · rw [fresh]
      decide
    · rw [blocked]
      decide
  terminal := by
    rw [same.ledger]
    intro entry stored entryRun next member sameRun sameTask succeeded
    rcases rows next member sameRun with old | fresh | blocked
    · exact rest.terminal entry stored entryRun next old sameRun sameTask succeeded
    · cases fresh.symm.trans succeeded
    · cases blocked.symm.trans succeeded
  entered := by
    rw [same.ledger, same.dispatches]
    intro configured dispatch stored dispatchRun next member sameRun sameTask succeeded
    rcases rows next member sameRun with old | fresh | blocked
    · exact rest.entered configured dispatch stored dispatchRun next old sameRun sameTask succeeded
    · cases fresh.symm.trans succeeded
    · cases blocked.symm.trans succeeded

def StaysAtRest (env : Environment) (runId : String) (dag : TaskDag) (w w' : EpicWorld) : Prop :=
  AtRest env runId w' ∧ RowsSettle runId dag w w'

theorem StaysAtRest.trans {w'' : EpicWorld} (first : StaysAtRest env runId dag w w')
    (second : StaysAtRest env runId dag w' w'') : StaysAtRest env runId dag w w'' :=
  ⟨second.1, first.2.trans second.2⟩

theorem AtRest.refl (rest : AtRest env runId w) : StaysAtRest env runId dag w w :=
  ⟨rest, .refl runId dag w⟩

theorem AtRest.same (rest : AtRest env runId w) (same : SameLedger w w')
    (tasks : w'.tasks = w.tasks) : StaysAtRest env runId dag w w' := by
  refine ⟨rest.rows same fun next member _ => Or.inl (tasks ▸ member), ?_, ?_⟩
  · intro row member _
    exact ⟨row, tasks ▸ member, .refl row, same.assures rfl fun gates => gates⟩
  · intro next member sameRun _
    exact ⟨next, tasks ▸ member, sameRun, rfl⟩

theorem AtRest.upsert (rest : AtRest env runId w) (same : SameLedger w w')
    (tasks : w'.tasks = w.tasks.upsert next) (member : row ∈ w.tasks.rows)
    (settles : Settles row next) (gates : GatesPassed row → GatesPassed next)
    (phase : next.phase = .notStarted ∨ next.phase = .blocked) :
    StaysAtRest env runId dag w w' := by
  refine ⟨rest.rows same fun other there _ => ?_, ?_, ?_⟩
  · rw [tasks] at there
    rcases Table.mem_upsert.mp there with rfl | ⟨old, _⟩
    · exact Or.inr phase
    · exact Or.inl old
  · intro other there _
    rw [tasks]
    by_cases here : (other.runId, other.taskId) = (next.runId, next.taskId)
    · have equal := Table.eq_of_key_eq there member (here.trans settles.key)
      subst equal
      exact ⟨next, Table.mem_upsert.mpr (Or.inl rfl), settles,
        same.assures settles.key gates⟩
    · exact ⟨other, Table.mem_upsert.mpr (Or.inr ⟨there, here⟩), .refl other,
        same.assures rfl fun gates => gates⟩
  · intro other there otherRun _
    rw [tasks] at there
    rcases Table.mem_upsert.mp there with rfl | ⟨old, _⟩
    · have sameRun := congrArg Prod.fst settles.key
      exact ⟨row, member, sameRun.symm.trans otherRun, (congrArg Prod.snd settles.key).symm⟩
    · exact ⟨other, old, otherRun, rfl⟩

theorem AtRest.added (rest : AtRest env runId w) (same : SameLedger w w')
    (tasks : w'.tasks = w.tasks.upsert next)
    (absent : w.tasks.find? (next.runId, next.taskId) = none) (phase : next.phase = .notStarted)
    (listed : next.taskId ∈ dag.taskIds) : StaysAtRest env runId dag w w' := by
  refine ⟨rest.rows same fun other there _ => ?_, ?_, ?_⟩
  · rw [tasks] at there
    rcases Table.mem_upsert.mp there with rfl | ⟨old, _⟩
    · exact Or.inr (Or.inl phase)
    · exact Or.inl old
  · intro other there _
    rw [tasks]
    exact ⟨other, Table.mem_upsert_of_fresh (Table.find?_eq_none.mp absent) there, .refl other,
      same.assures rfl fun gates => gates⟩
  · intro other there otherRun unlisted
    rw [tasks] at there
    rcases Table.mem_upsert.mp there with rfl | ⟨old, _⟩
    · exact absurd listed unlisted
    · exact ⟨other, old, otherRun, rfl⟩

theorem AtRest.initializeTasks {db : WaveDatabase} (rest : AtRest env runId w)
    (ok : initializeTasks w.waves runId dag.graphRevision dag.taskIds = .ok db) :
    StaysAtRest env runId dag w (w.setWaves db) := by
  obtain ⟨tasks, folded, rfl⟩ := initializeTasks_ok ok
  refine foldlM_invariant (P := fun tasks =>
    StaysAtRest env runId dag w (w.setWaves { w.waves with tasks := tasks })) ?_ rest.refl folded
  intro taskId listed before after stays ran
  refine stays.trans ?_
  rcases initializeTask_ok ran with
    ⟨absent, rfl⟩ | ⟨row, member, sameRun, sameTask, rfl | ⟨fresh, rfl⟩⟩
  · exact stays.1.added ⟨rfl, rfl⟩ rfl absent rfl (mem_sortTexts.mp listed)
  · exact stays.1.refl
  · refine stays.1.upsert ⟨rfl, rfl⟩ rfl member ?_ (fun gates => gates) (Or.inl fresh)
    exact ⟨rfl, fun _ => ⟨rfl, rfl⟩, fun _ => Or.inl fresh⟩

theorem AtRest.blockAll {items : List (TaskLifecycleProjection × TaskPropagationReason)}
    (rest : AtRest env runId w)
    (stored : ∀ item ∈ items, item.1 ∈ w.tasks.rows ∧ item.1.phase = .notStarted)
    (distinct : items.Pairwise fun left right => left.1.taskId ≠ right.1.taskId) :
    StaysAtRest env runId dag w (WaveSteps.blockAll runId w items) := by
  refine blockAll_keep (I := fun _ v => StaysAtRest env runId dag w v)
    (fun item listed => (stored item listed).1) distinct ?_ rest.refl
  intro _ v item listed member stays
  have fresh := (stored item listed).2
  refine stays.trans (stays.1.upsert ⟨rfl, rfl⟩ rfl member ?_ (fun gates => gates) (Or.inr rfl))
  refine ⟨rfl, fun settled => ?_, fun _ => Or.inr ⟨rfl, by simp [blockedTask]⟩⟩
  rw [fresh] at settled
  exact absurd settled (by decide)

theorem statusChange_origins {phase : TaskLifecyclePhase} {observation : TaskPipelineStatus}
    {change : PhaseChange} (cause : statusChange phase observation = some change) :
    ∀ origin ∈ change.origins, origin ∈ runningPhases := by
  have targets : change = .markActive ∨ change = .markRetrying ∨ change = .requestCancellation ∨
      change = .markRecoveryRequired ∨ ∃ target, change = .settle target := by
    cases observation <;> simp only [statusChange] at cause <;>
      (try split_ifs at cause) <;> cases cause <;> simp
  rcases targets with rfl | rfl | rfl | rfl | ⟨target, rfl⟩
  · decide
  · decide
  · decide
  · exact fun _ listed => listed
  · exact fun _ listed => listed

theorem AtRest.changePhase {phase : TaskLifecyclePhase} {observation : TaskPipelineStatus}
    {taskId : String} {change : PhaseChange} {db : WaveDatabase} (rest : AtRest env runId w)
    (cause : statusChange phase observation = some change)
    (ok : WaveStore.changePhase w.waves runId taskId change = .ok (row, db)) :
    StaysAtRest env runId dag w (w.setWaves db) := by
  obtain ⟨tasks, leases, updated, rfl⟩ := changePhase_ok ok
  rcases updatePhase_ok updated with same | ⟨row, member, sameRun, _, origin, _⟩
  · exact rest.same ⟨rfl, rfl⟩ same
  · exact absurd (statusChange_origins cause _ origin) (rest.idle row member sameRun)

theorem AtRest.ledger (rest : AtRest env runId w) (dispatches : w'.dispatches = w.dispatches)
    (rows : ∀ next ∈ w'.tasks.rows, next.runId = runId → ∃ row ∈ w.tasks.rows,
      row.runId = runId ∧ row.taskId = next.taskId ∧ row.phase = next.phase)
    (keys : ∀ id ∈ w.integration.db.ledger.keys, id ∈ w'.integration.db.ledger.keys)
    (entries : ∀ entry ∈ w'.integration.db.ledger.rows, entry.runId = runId →
      entry ∈ w.integration.db.ledger.rows ∨ IntegrationService.terminal entry.lifecycle = true ∨
        ∀ row ∈ w.tasks.rows, row.runId = runId → row.taskId = entry.taskId →
          row.phase ≠ .succeeded) : AtRest env runId w' where
  idle := by
    intro next member sameRun
    obtain ⟨row, there, rowRun, _, phase⟩ := rows next member sameRun
    rw [← phase]
    exact rest.idle row there rowRun
  terminal := by
    intro entry stored entryRun next member sameRun sameTask succeeded
    obtain ⟨row, there, rowRun, rowTask, phase⟩ := rows next member sameRun
    have rowSucceeded := phase.trans succeeded
    rcases entries entry stored entryRun with old | terminal | unsuccessful
    · exact rest.terminal entry old entryRun row there rowRun (rowTask.trans sameTask) rowSucceeded
    · exact terminal
    · exact absurd rowSucceeded (unsuccessful row there rowRun (rowTask.trans sameTask))
  entered := by
    rw [dispatches]
    intro configured dispatch stored dispatchRun next member sameRun sameTask succeeded
    obtain ⟨row, there, rowRun, rowTask, phase⟩ := rows next member sameRun
    exact keys _ (rest.entered configured dispatch stored dispatchRun row there rowRun
      (rowTask.trans sameTask) (phase.trans succeeded))

theorem AtRest.enqueued {item : TaskDispatchRecord × Nat} (rest : AtRest env runId w)
    (configured : env.integration.isSome = true) (stored : item.1 ∈ w.dispatches.rows)
    (dispatchRun : item.1.runId = runId)
    (accepted : enqueue w.integration.db (queueInput item.1 (item.2 + 1)) = .ok (entry, db)) :
    StaysAtRest env runId dag w
      { w with integration := { w.integration with db := db } } := by
  rcases enqueue_ok accepted with ⟨_, rfl⟩ | ⟨absent, _, rfl⟩
  · exact rest.refl
  · have unsuccessful : ∀ row ∈ w.tasks.rows, row.runId = runId → row.taskId = item.1.taskId →
        row.phase ≠ .succeeded := by
      intro row member sameRun sameTask succeeded
      have present := rest.entered configured item.1 stored dispatchRun row member sameRun sameTask
        succeeded
      exact Table.find?_eq_none.mp absent present
    refine ⟨rest.ledger rfl (fun row member sameRun => ⟨row, member, sameRun, rfl, rfl⟩) ?_ ?_, ?_,
      ?_⟩
    · exact fun id present => Table.mem_keys_upsert.mpr (Or.inl present)
    · intro other there _
      rcases Table.mem_upsert.mp there with rfl | ⟨old, _⟩
      · exact Or.inr (Or.inr unsuccessful)
      · exact Or.inl old
    · intro row member _
      refine ⟨row, member, .refl row, fun passed => passed, ?_⟩
      rintro ⟨waiting, inLedger, entryRun, entryTask, required⟩
      exact Or.inr ⟨waiting, Table.mem_upsert_of_fresh (Table.find?_eq_none.mp absent) inLedger,
        entryRun, entryTask, required⟩
    · exact fun row member sameRun _ => ⟨row, member, sameRun, rfl⟩

theorem cause_ongoing {input : TaskIntegrationTransitionInput} (cause : Cause driver entry input) :
    IntegrationService.terminal entry.lifecycle = false := by
  cases cause with
  | prepared repositories queued => rw [queued]; rfl
  | verification result prepared => rw [prepared]; rfl
  | unchanged verified nothing => rw [verified]; rfl
  | published n work publication verified answered applied => rw [verified]; rfl
  | failed ongoing => exact ongoing
  | reconciled repositories ongoing => exact ongoing

theorem AtRest.transitioned {input : TaskIntegrationTransitionInput} {commit : Commit}
    {log : List IntegrationService.Event} (rest : AtRest env runId w)
    (member : entry ∈ w.integration.db.ledger.rows) (cause : Cause driver entry input)
    (ok : writeTransition w.integration.db entry input = .ok (commit, db)) :
    StaysAtRest env runId dag w
      { w with integration := { w.integration with db := db, log := log } } := by
  have written := writeTransition_ok ok
  have ongoing := cause_ongoing cause
  have unsuccessful : entry.runId = runId → ∀ row ∈ w.tasks.rows, row.runId = runId →
      row.taskId = entry.taskId → row.phase ≠ .succeeded := by
    intro entryRun row stored sameRun sameTask succeeded
    rw [rest.terminal entry member entryRun row stored sameRun sameTask succeeded] at ongoing
    cases ongoing
  have rows : ∀ row : TaskLifecycleProjection, row.runId = runId →
      (row ∈ db.tasks.rows ↔ row ∈ w.tasks.rows) := by
    intro row sameRun
    have gated := written.tasks
    unfold gatedTasks at gated
    split at gated
    · rw [← Except.ok.inj gated]
      exact Iff.rfl
    · obtain ⟨changed, stored, changedRun, changedTask, succeeded, same⟩ := setGates_ok gated
      have other : row.runId ≠ changed.runId := by
        intro here
        exact unsuccessful (changedRun.symm.trans (here.symm.trans sameRun)) changed stored
          (here.symm.trans sameRun) changedTask succeeded
      rw [same, Table.mem_upsert]
      constructor
      · rintro (rfl | ⟨old, _⟩)
        · exact absurd rfl other
        · exact old
      · exact fun old => Or.inr ⟨old, fun clash => other (congrArg Prod.fst clash)⟩
  refine ⟨rest.ledger rfl ?_ ?_ ?_, ?_, ?_⟩
  · exact fun row there sameRun => ⟨row, (rows row sameRun).mp there, sameRun, rfl, rfl⟩
  · intro id present
    change id ∈ db.ledger.keys
    rw [written.ledger]
    exact Table.mem_keys_upsert.mpr (Or.inl present)
  · intro other there otherRun
    change other ∈ db.ledger.rows at there
    rw [written.ledger] at there
    rcases Table.mem_upsert.mp there with rfl | ⟨old, _⟩
    · exact Or.inr (Or.inr (unsuccessful otherRun))
    · exact Or.inl old
  · intro row there sameRun
    refine ⟨row, (rows row sameRun).mpr there, .refl row, fun passed => passed, ?_⟩
    rintro ⟨waiting, inLedger, entryRun, entryTask, required⟩
    refine Or.inr ⟨waiting, ?_, entryRun, entryTask, required⟩
    change waiting ∈ db.ledger.rows
    rw [written.ledger]
    refine Table.mem_upsert.mpr (Or.inr ⟨inLedger, fun same => ?_⟩)
    rw [← Table.eq_of_key_eq inLedger member same, required] at ongoing
    cases ongoing
  · exact fun row there sameRun _ => ⟨row, (rows row sameRun).mp there, sameRun, rfl⟩

theorem AtRest.resolved {next : TaskIntegrationLedgerEntry} {log : List IntegrationService.Event}
    (rest : AtRest env runId w) (member : entry ∈ w.integration.db.ledger.rows)
    (ledger : db.ledger = w.integration.db.ledger.upsert next)
    (sameId : next.integrationId = entry.integrationId) (integrated : next.lifecycle = .integrated)
    (tasks : setGates w.tasks entry.runId entry.taskId passedGates = .ok db.tasks) :
    StaysAtRest env runId dag w
      { w with integration := { w.integration with db := db, log := log } } := by
  obtain ⟨row, stored, rowRun, rowTask, succeeded, same⟩ := setGates_ok tasks
  have assured : ∀ other : TaskLifecycleProjection,
      (other.runId, other.taskId) ≠ (row.runId, row.taskId) →
        Assures w { w with integration := { w.integration with db := db, log := log } }
          other other := by
    intro other different
    refine ⟨fun passed => passed, ?_⟩
    rintro ⟨waiting, inLedger, entryRun, entryTask, required⟩
    refine Or.inr ⟨waiting, ?_, entryRun, entryTask, required⟩
    change waiting ∈ db.ledger.rows
    rw [ledger]
    refine Table.mem_upsert.mpr (Or.inr ⟨inLedger, fun clash => different ?_⟩)
    have equal := Table.eq_of_key_eq inLedger member (clash.trans sameId)
    rw [← entryRun, ← entryTask, equal, rowRun, rowTask]
  refine ⟨rest.ledger rfl ?_ ?_ ?_, ?_, ?_⟩
  · intro other there otherRun
    change other ∈ db.tasks.rows at there
    rw [same] at there
    rcases Table.mem_upsert.mp there with rfl | ⟨old, _⟩
    · exact ⟨row, stored, otherRun, rfl, rfl⟩
    · exact ⟨other, old, otherRun, rfl, rfl⟩
  · intro id present
    change id ∈ db.ledger.keys
    rw [ledger]
    exact Table.mem_keys_upsert.mpr (Or.inl present)
  · intro other there _
    change other ∈ db.ledger.rows at there
    rw [ledger] at there
    rcases Table.mem_upsert.mp there with rfl | ⟨old, _⟩
    · exact Or.inr (Or.inl (by rw [integrated]; rfl))
    · exact Or.inl old
  · intro other there _
    change ∃ next ∈ db.tasks.rows, _
    rw [same]
    by_cases here : (other.runId, other.taskId) = (row.runId, row.taskId)
    · have equal := Table.eq_of_key_eq there stored here
      subst equal
      refine ⟨_, Table.mem_upsert.mpr (Or.inl rfl), ?_, fun _ => ?_, fun _ => Or.inl ?_⟩
      · exact ⟨rfl, fun _ => ⟨rfl, rfl⟩, fun fresh => Or.inl fresh⟩
      · exact ⟨rfl, rfl, rfl⟩
      · exact ⟨rfl, rfl, rfl⟩
    · exact ⟨other, Table.mem_upsert.mpr (Or.inr ⟨there, here⟩), .refl other, assured other here⟩
  · intro other there otherRun _
    change other ∈ db.tasks.rows at there
    rw [same] at there
    rcases Table.mem_upsert.mp there with rfl | ⟨old, _⟩
    · exact ⟨row, stored, otherRun, rfl⟩
    · exact ⟨other, old, otherRun, rfl⟩

theorem AtRest.integrationStep {order : List TaskDispatchRecord} {integration : World}
    (rest : AtRest env runId w) (configured : env.integration.isSome = true)
    (ordered : ∀ dispatch ∈ order, dispatch ∈ w.dispatches.rows ∧ dispatch.runId = runId)
    (step : IntegrationSteps.Step driver order w.integration integration) :
    StaysAtRest env runId dag w { w with integration := integration } := by
  cases step with
  | enqueued item entry db listed accepted =>
    obtain ⟨stored, dispatchRun⟩ := ordered item.1 (List.fst_mem_of_mem_zipIdx listed)
    exact rest.enqueued configured stored dispatchRun accepted
  | noted db tasks branches ledger => exact rest.same ⟨ledger, rfl⟩ tasks
  | transitioned entry input commit db member cause written =>
    exact rest.transitioned member cause written
  | resolved entry moves db member waiting complete ledger branches tasks =>
    exact rest.resolved member ledger rfl rfl tasks
  | _ => exact rest.same ⟨rfl, rfl⟩ rfl

end Rows

section Ticks

variable [Collation] {env : Environment} {runId : String} {dag : TaskDag} {w w' : EpicWorld}

theorem AtRest.waveStep (rest : AtRest env runId w) (step : WaveStep env true runId dag w w') :
    StaysAtRest env runId dag w w' := by
  cases step with
  | initialized db ok => exact rest.initializeTasks ok
  | changed phase observation taskId change row db cause ok => exact rest.changePhase cause ok
  | propagated =>
    refine rest.blockAll (fun item listed => ?_) blockedTasks_distinct
    obtain ⟨inStates, fresh, _⟩ := mem_blockedTasks.mp listed
    exact ⟨(mem_projections.mp inStates).1, fresh⟩
  | dispatched input now dispatches accepted db sameRun sameDag unresolved made selected ok =>
    exact absurd (planTaskWave_suspended unresolved) selected
  | integrated driver integration configured stepped =>
    refine rest.integrationStep (by rw [configured]; rfl) (fun dispatch listed => ?_) stepped
    have member := mem_orderBy.mp ((List.mem_insertionSort _).mp listed)
    simpa using member
  | _ => exact rest.same ⟨rfl, rfl⟩ rfl

theorem AtRest.waveReach (rest : AtRest env runId w) (reached : WaveReach env true runId dag w w') :
    StaysAtRest env runId dag w w' := by
  induction reached with
  | refl => exact rest.refl
  | tail _ step ih => exact ih.trans (ih.1.waveStep step)

theorem ensures_propagated :
    Ensures (fun _ => True) (propagate runId dag)
      (fun _ w => blockedTasks dag (projectionsOf w runId) = []) fun _ => True := by
  intro w _
  rw [propagate_eq]
  exact ⟨fun _ _ => propagated_settled, fun _ _ => trivial⟩

omit [Collation] in
theorem ensures_anything {α : Type} {P : EpicWorld → Prop} {x : EpicProgram α} :
    Ensures P x (fun _ _ => True) fun _ => True :=
  fun _ _ => ⟨fun _ _ => trivial, fun _ _ => trivial⟩

theorem ensures_tick_propagated {input : TaskWaveSchedulerTickInput} :
    Ensures (fun _ => True) (tick env input)
      (fun _ w => blockedTasks input.dag (projectionsOf w input.runId) = []) fun _ => True := by
  refine Ensures.bind ensures_anything fun _ => ?_
  refine Ensures.bind ensures_anything fun _ => ?_
  refine Ensures.bind ensures_anything fun _ => ?_
  refine Ensures.bind ensures_anything fun _ => ?_
  refine Ensures.bind ensures_anything fun _ => ?_
  refine Ensures.bind ensures_anything fun _ => ?_
  refine Ensures.bind ensures_propagated fun _ => ?_
  exact Ensures.read fun _ holds => holds

variable {taskId : String}

theorem propagationReason_settles {nodes : NodeTable} {states later : List TaskLifecycleProjection}
    (settles : ∀ taskId row, taskNamed states taskId = some row →
      ∃ next, taskNamed later taskId = some next ∧ Settles row next)
    {fuel : Nat} {visiting : List String}
    (found : propagationReason nodes states fuel visiting taskId ≠ none) :
    propagationReason nodes later fuel visiting taskId ≠ none := by
  induction fuel generalizing visiting taskId with
  | zero => exact absurd rfl found
  | succ fuel ih =>
    rw [propagationReason_ne_none] at found ⊢
    obtain ⟨unvisited, predecessorId, depends, row, named, cause⟩ := found
    obtain ⟨next, there, settle⟩ := settles predecessorId row named
    refine ⟨unvisited, predecessorId, depends, next, there, ?_⟩
    rcases cause with failed | cancelled | ⟨blocked, reasoned⟩ | ⟨fresh, inherited⟩
    · obtain ⟨phase, _⟩ := settle.settled (by rw [failed]; decide)
      exact Or.inl (phase.trans failed)
    · obtain ⟨phase, _⟩ := settle.settled (by rw [cancelled]; decide)
      exact Or.inr (Or.inl (phase.trans cancelled))
    · obtain ⟨phase, reason⟩ := settle.settled (by rw [blocked]; decide)
      exact Or.inr (Or.inr (Or.inl ⟨phase.trans blocked, by rw [reason]; exact reasoned⟩))
    · rcases settle.fresh fresh with still | blocked
      · exact Or.inr (Or.inr (Or.inr ⟨still, ih inherited⟩))
      · exact Or.inr (Or.inr (Or.inl blocked))

/-- A prerequisite that did not succeed, or that the tick will find blocked or missing. -/
def Hopeless (w : EpicWorld) (runId : String) (dag : TaskDag) (taskId : String) : Prop :=
  match taskNamed (projectionsOf w runId) taskId with
  | none => taskId ∉ dag.taskIds
  | some row => row.phase ∈ [.failed, .cancelled, .blocked] ∨
      row.phase = .notStarted ∧ propagationReason (nodeMap dag) (projectionsOf w runId)
        ((nodeMap dag).rows.length + 1) [] taskId ≠ none

def Delivered (env : Environment) (w : EpicWorld) (runId taskId : String) : Prop :=
  ∃ row ∈ taskNamed (projectionsOf w runId) taskId, row.phase = .succeeded ∧
    (GatesPassed row ∨ env.integration.isSome = true ∧ Unreconciled w row)

def Movable (env : Environment) (w : EpicWorld) (runId : String) (dag : TaskDag)
    (replan : HiddenDependencyReplan) : Prop :=
  (∃ taskId ∈ replan.interruptedTaskIds, ∃ row ∈ taskNamed (projectionsOf w runId) taskId,
      row.phase = .failed) ∨
    (∃ taskId ∈ replan.finding.prerequisiteTaskIds, Hopeless w runId dag taskId) ∨
    (∀ taskId ∈ replan.interruptedTaskIds, ∃ row ∈ taskNamed (projectionsOf w runId) taskId,
        row.phase = .cancelled) ∧
      ∀ taskId ∈ replan.finding.prerequisiteTaskIds, Delivered env w runId taskId

omit [Collation] in
theorem RowsSettle.named (settle : RowsSettle runId dag w w') {row : TaskLifecycleProjection}
    (named : taskNamed (projectionsOf w runId) taskId = some row) :
    ∃ next, taskNamed (projectionsOf w' runId) taskId = some next ∧ Settles row next ∧
      Assures w w' row next := by
  obtain ⟨stored, sameRun, sameTask⟩ := taskNamed_eq_some.mp named
  obtain ⟨next, there, settles, assured⟩ := settle.kept row stored sameRun
  refine ⟨next, taskNamed_eq_some.mpr ⟨there, ?_, ?_⟩, settles, assured⟩
  · exact (congrArg Prod.fst settles.key).trans sameRun
  · exact (congrArg Prod.snd settles.key).trans sameTask

theorem Hopeless.confirmed (hopeless : Hopeless w runId dag taskId)
    (settle : RowsSettle runId dag w w') (done : blockedTasks dag (projectionsOf w' runId) = []) :
    unsatisfied (taskNamed (projectionsOf w' runId) taskId) = true := by
  unfold Hopeless at hopeless
  split at hopeless
  · rename_i missing
    cases found : taskNamed (projectionsOf w' runId) taskId with
    | none => rfl
    | some next =>
      obtain ⟨there, sameRun, sameTask⟩ := taskNamed_eq_some.mp found
      obtain ⟨row, stored, rowRun, rowTask⟩ := settle.added next there sameRun
        (by rw [sameTask]; exact hopeless)
      have named := taskNamed_eq_some.mpr ⟨stored, rowRun, rowTask.trans sameTask⟩
      rw [missing] at named
      cases named
  · rename_i row named
    obtain ⟨next, found, settles, _⟩ := settle.named named
    rw [found]
    rcases hopeless with ended | ⟨fresh, reasoned⟩
    · have settled : row.phase ∈ settledPhases := by
        revert ended
        cases row.phase <;> decide
      rw [unsatisfied, (settles.settled settled).1]
      revert ended
      cases row.phase <;> decide
    · rcases settles.fresh fresh with still | ⟨blocked, _⟩
      · obtain ⟨there, sameRun, sameTask⟩ := taskNamed_eq_some.mp found
        have later := propagationReason_settles (fun other earlier known => by
          obtain ⟨final, named', settles', _⟩ := settle.named known
          exact ⟨final, named', settles'⟩) reasoned
        obtain ⟨reason, given⟩ := Option.ne_none_iff_exists'.mp later
        have listed : (next, reason) ∈ blockedTasks dag (projectionsOf w' runId) := by
          refine mem_blockedTasks.mpr ⟨mem_projections.mpr ⟨there, sameRun⟩, still, ?_⟩
          rw [sameTask]
          exact given
        rw [done] at listed
        cases listed
      · rw [unsatisfied, blocked]
        rfl

omit [Collation] in
theorem Delivered.obtained (delivered : Delivered env w runId taskId)
    (settle : RowsSettle runId dag w w')
    (none : reconciliationPending env w'.integration.db runId = false) :
    (taskNamed (projectionsOf w' runId) taskId).any awaited = false := by
  obtain ⟨row, named, succeeded, gates⟩ := delivered
  obtain ⟨next, found, settles, assured⟩ := settle.named named
  obtain ⟨_, sameRun, _⟩ := taskNamed_eq_some.mp found
  have phase : next.phase = .succeeded := by
    rw [(settles.settled (by rw [succeeded]; decide)).1, succeeded]
  have passed : GatesPassed next := by
    rcases gates with passed | ⟨configured, waiting⟩
    · exact assured.passed passed
    · rcases assured.waiting waiting with passed | ⟨entry, stored, entryRun, _, required⟩
      · exact passed
      · have listed : entry ∈ entries w'.integration.db runId := by
          refine (List.mem_insertionSort _).mpr (List.mem_filter.mpr ⟨stored, ?_⟩)
          simpa using entryRun.trans sameRun
        have pending : reconciliationPending env w'.integration.db runId = true := by
          unfold reconciliationPending
          rw [configured, Bool.true_and, Bool.or_eq_true]
          exact Or.inl (List.any_eq_true.mpr ⟨entry, listed, decide_eq_true required⟩)
        rw [pending] at none
        cases none
  obtain ⟨contract, integration, verification⟩ := passed
  simp [found, awaited, phase, contract, integration, verification]

theorem Movable.quiescence {replan : HiddenDependencyReplan}
    (movable : Movable env w runId dag replan) (settle : RowsSettle runId dag w w')
    (done : blockedTasks dag (projectionsOf w' runId) = []) :
    quiescence env w' runId replan (projectionsOf w' runId) ≠ .waiting := by
  unfold EpicRuntime.quiescence
  dsimp only
  split_ifs with unconfirmed pending unsatisfied ready
  · simp
  · simp
  · simp
  · simp
  · exfalso
    rcases movable with ⟨taskId, listed, row, named, failed⟩ | ⟨taskId, listed, hopeless⟩ |
      ⟨cancelled, delivered⟩
    · obtain ⟨next, found, settles, _⟩ := settle.named named
      refine unconfirmed (List.any_eq_true.mpr ⟨_, List.mem_map_of_mem listed, ?_⟩)
      rw [found, EpicRuntime.unconfirmed, (settles.settled (by rw [failed]; decide)).1, failed]
      rfl
    · refine unsatisfied (List.any_eq_true.mpr ⟨_, List.mem_map_of_mem listed, ?_⟩)
      exact hopeless.confirmed settle done
    · refine ready (Bool.and_eq_true_iff.mpr ⟨List.all_eq_true.mpr ?_, ?_⟩)
      · intro found member
        obtain ⟨taskId, listed, rfl⟩ := List.mem_map.mp member
        obtain ⟨row, named, phase⟩ := cancelled taskId listed
        obtain ⟨next, there, settles, _⟩ := settle.named named
        rw [there, Option.any_some, (settles.settled (by rw [phase]; decide)).1, phase]
        rfl
      · rw [Bool.not_eq_true', List.any_eq_false]
        intro found member
        obtain ⟨taskId, listed, rfl⟩ := List.mem_map.mp member
        rw [(delivered taskId listed).obtained settle (by simpa using pending)]
        simp

end Ticks

section Runs

variable [Sha256] [Collation] {env : Environment} {w w' : EpicWorld} {replanId : String}

def MovedOn (replanId : String) (w : EpicWorld) : Prop :=
  ∃ replan, w.replanning.replans.find? replanId = some replan ∧ replan.lifecycle ≠ .quiescing

theorem MovedOn.epicStep (moved : MovedOn replanId w) (step : EpicStep env w w') :
    MovedOn replanId w' := by
  obtain ⟨replan, found, begun⟩ := moved
  cases step with
  | waved _ suspended runId graph active stepped =>
    refine ⟨replan, ?_, begun⟩
    rw [(waveStep_frame stepped).2]
    exact found
  | recorded active input recorded replanning current checked ok =>
    refine ⟨replan, ?_, begun⟩
    change replanning.replans.find? replanId = some replan
    rcases record_ok ok with ⟨_, _, same⟩ | ⟨_, _, _, absent, same⟩
    · rw [same]
      exact found
    · rw [same, Table.find?_upsert_of_ne]
      · exact found
      · rintro rfl
        exact absent (Table.find?_isSome.mp (by rw [found]; rfl))
  | advanced input next replanning ok =>
    obtain ⟨current, moved⟩ := advance_ok ok
    rcases moved.moved with ⟨rfl, _⟩ | ⟨_, begun', _, replans⟩
    · exact ⟨replan, found, begun⟩
    · change ∃ replan, replanning.replans.find? replanId = some replan ∧ _
      rw [replans, Table.find?_upsert]
      split_ifs
      · exact ⟨next, rfl, begun'⟩
      · exact ⟨replan, found, begun⟩
  | _ => exact ⟨replan, found, begun⟩

theorem MovedOn.epicReach (moved : MovedOn replanId w) (reached : EpicReach env w w') :
    MovedOn replanId w' :=
  steps_invariant (fun _ _ moved step => moved.epicStep step) moved reached

variable {replan : HiddenDependencyReplan}

omit [Sha256] [Collation] in
theorem advanceReplan_quiescing {input : AdvanceReplanInput}
    (found : w.replanning.replans.find? replan.replanId = some replan)
    (quiescing : replan.lifecycle = .quiescing) (id : input.replanId = replan.replanId)
    (expected : input.expectedLifecycle = .quiescing)
    (possible : canAdvance .quiescing input.lifecycle = true) :
    advanceReplan input w = (.ok (EpicStore.advanced replan input), { w with
      replanning := { w.replanning with
        replans := w.replanning.replans.upsert (EpicStore.advanced replan input) } }) := by
  have moves : advance w.replanning input = .ok (EpicStore.advanced replan input,
      { w.replanning with
        replans := w.replanning.replans.upsert (EpicStore.advanced replan input) }) := by
    unfold advance
    rw [id, found]
    simp only [quiescing, expected, ne_eq, not_true_eq_false, if_false, possible, if_true]
  unfold advanceReplan Effect.transact
  simp only [moves]

omit [Sha256] [Collation] in
theorem blockReplan_quiescing {blocker : ReplanBlocker}
    (found : w.replanning.replans.find? replan.replanId = some replan)
    (quiescing : replan.lifecycle = .quiescing) : blockReplan replan blocker w = (.ok (), { w with
      replanning := { w.replanning with
        replans := w.replanning.replans.upsert (EpicStore.advanced replan
          ⟨replan.replanId, replan.lifecycle, .blocked, none, none, some (some blocker)⟩) } }) := by
  unfold blockReplan
  change Effect.bind (advanceReplan _) _ w = _
  rw [Effect.bind, advanceReplan_quiescing found quiescing rfl quiescing rfl]
  rfl

theorem replanRun_moves {input : EpicRuntimeTickInput} (stored : replan ∈ w.replanning.replans.rows)
    (sameRun : replan.finding.runId = input.runId) (quiescing : replan.lifecycle = .quiescing)
    (moves : quiescence env w input.runId replan (projectionsOf w input.runId) ≠ .waiting) :
    MovedOn replan.replanId (replanRun env input (projectionsOf w input.runId) replan w).2 := by
  have found := Table.find?_key stored
  have after : ∀ input : AdvanceReplanInput, input.lifecycle ≠ .quiescing →
      MovedOn replan.replanId { w with
        replanning := { w.replanning with
          replans := w.replanning.replans.upsert (EpicStore.advanced replan input) } } :=
    fun input begun => ⟨EpicStore.advanced replan input, Table.find?_upsert_self _ _, begun⟩
  have steps : Ensures (fun x => x = w)
      (replanRun env input (projectionsOf w input.runId) replan)
      (fun _ => MovedOn replan.replanId) (MovedOn replan.replanId) := by
    unfold replanRun
    refine Ensures.bind
      (Q := fun result x => MovedOn replan.replanId x ∧ ∀ next, result = some next →
      Replanning env x input.runId (projectionsOf w input.runId) next x) ?_ fun result => ?_
    · unfold quiesce
      rw [if_pos quiescing]
      refine Ensures.bind (Q := fun outcome x => x = w ∧
          outcome = quiescence env w input.runId replan (projectionsOf w input.runId))
        (Ensures.read ?_) fun outcome => ?_
      · rintro _ rfl
        exact ⟨rfl, rfl⟩
      · cases outcome with
        | waiting =>
          rintro x ⟨_, same⟩
          exact absurd same.symm moves
        | blocked blocker =>
          refine Ensures.bind (Q := fun _ => MovedOn replan.replanId) ?_ fun _ => ?_
          · rintro x ⟨rfl, _⟩
            rw [blockReplan_quiescing found quiescing]
            exact ⟨fun _ _ => after _ nofun, nofun⟩
          · exact Ensures.pure fun _ moved =>
              ⟨moved, fun _ same => absurd same.symm (Option.some_ne_none _)⟩
        | ready =>
          refine Ensures.bind (Q := fun revising x => MovedOn replan.replanId x ∧
            Replanning env x input.runId (projectionsOf w input.runId) revising x) ?_ ?_
          · rintro x ⟨rfl, _⟩
            rw [advanceReplan_quiescing found quiescing rfl rfl rfl]
            refine ⟨?_, nofun⟩
            rintro _ ⟨rfl⟩
            refine ⟨after _ nofun, Relation.ReflTransGen.refl, rfl, ?_, rfl, sameRun⟩
            exact Table.mem_upsert.mpr (Or.inl rfl)
          · intro revising
            refine Ensures.pure fun x holds => ⟨holds.1, ?_⟩
            rintro _ ⟨rfl⟩
            exact holds.2
    · split
      · exact Ensures.pure fun _ started => started.1
      · rename_i next
        intro x started
        obtain ⟨returns, throws⟩ := ensures_revise x (started.2 next rfl)
        exact ⟨fun a same => started.1.epicReach (returns a same),
          fun e same => started.1.epicReach (throws e same)⟩
  exact ensures_final steps rfl

theorem tickRun_moves {input : EpicRuntimeTickInput} {graph : TaskGraphRevisionRecord}
    {tasks : List TaskLifecycleProjection} (active : activeGraph w.graphs input.runId = some graph)
    (current : activeReplan w.replanning input.runId = some replan)
    (quiescing : replan.lifecycle = .quiescing) (rest : AtRest env input.runId w)
    (movable : Movable env w input.runId graph.dag replan)
    (returned : (tick env (schedulerInput input graph.dag true) w).1 = .ok tasks) :
    MovedOn replan.replanId (tickRun env input w).2 := by
  obtain ⟨stored, _, sameRun⟩ := mem_activeReplan current
  obtain ⟨listed, reached⟩ :=
    (@ensures_tick _ env true w (schedulerInput input graph.dag true) rfl w
    Relation.ReflTransGen.refl).1 tasks returned
  have done := (@ensures_tick_propagated _ env (schedulerInput input graph.dag true) w trivial).1
    tasks returned
  obtain ⟨_, settle⟩ := rest.waveReach reached
  have replanning := (waveReach_frame reached).2
  rcases ran : tick env (schedulerInput input graph.dag true) w with ⟨outcome, after⟩
  rw [ran] at returned listed done settle replanning
  dsimp only at returned listed done settle replanning
  have tail : (tickRun env input w).2 = (replanRun env input tasks replan after).2 := by
    unfold tickRun activeGraphOf
    change (Effect.bind (Effect.bind (Effect.read _) _) _ w).2 = _
    simp only [Effect.bind, Effect.read, active]
    change (Effect.bind (Effect.read _) _ w).2 = _
    simp only [Effect.bind, Effect.read, current, Option.isSome_some]
    change (Effect.bind (tick env (schedulerInput input graph.dag true)) _ w).2 = _
    rw [Effect.bind, ran, returned]
  rw [tail, listed]
  refine replanRun_moves ?_ sameRun quiescing (movable.quiescence settle done)
  rw [replanning]
  exact stored

/-- A quiescing replan of a run at rest moves on with the next tick that its drivers let
return, if what it waits for can still come about or can no longer. -/
theorem quiescing_moves (env : Environment) (acts : List EpicRuntime.Act)
    (input : EpicRuntimeTickInput) (graph : TaskGraphRevisionRecord)
    (replan : HiddenDependencyReplan)
    (active : activeGraph (runActs env acts).graphs input.runId = some graph)
    (current : activeReplan (runActs env acts).replanning input.runId = some replan)
    (quiescing : replan.lifecycle = .quiescing)
    (rest : AtRest env input.runId (runActs env acts))
    (movable : Movable env (runActs env acts) input.runId graph.dag replan)
    (returns : ∃ tasks,
      (tick env (schedulerInput input graph.dag true) (runActs env acts)).1 = .ok tasks) :
    MovedOn replan.replanId (perform env (runActs env acts) (.tick input)) := by
  obtain ⟨tasks, returned⟩ := returns
  exact tickRun_moves active current quiescing rest movable returned

end Runs

section Samples

open IntegrationOrder

instance (env : Environment) (runId : String) (w : EpicWorld) : Decidable (AtRest env runId w) :=
  decidable_of_iff
    ((w.tasks.rows.all fun row => !decide (row.runId = runId ∧ row.phase ∈ runningPhases)) = true ∧
      (w.integration.db.ledger.rows.all fun entry => w.tasks.rows.all fun row =>
        !decide (entry.runId = runId ∧ row.runId = runId ∧ row.taskId = entry.taskId ∧
          row.phase = .succeeded ∧ IntegrationService.terminal entry.lifecycle = false)) = true ∧
      (w.dispatches.rows.all fun dispatch => w.tasks.rows.all fun row =>
        !decide (env.integration.isSome = true ∧ dispatch.runId = runId ∧ row.runId = runId ∧
          row.taskId = dispatch.taskId ∧ row.phase = .succeeded ∧
            (queueInput dispatch 0).integrationId ∉ w.integration.db.ledger.keys)) = true)
    (by
      simp only [List.all_eq_true, Bool.not_eq_true', decide_eq_false_iff_not, not_and,
        not_not, Bool.not_eq_false]
      constructor
      · intro holds
        exact ⟨fun row listed run => holds.1 row listed run,
          fun entry listed run row kept => holds.2.1 entry listed row kept run,
          fun given dispatch listed run row kept => holds.2.2 dispatch listed row kept given run⟩
      · intro rest
        exact ⟨fun row listed run => rest.idle row listed run,
          fun entry listed row kept run => rest.terminal entry listed run row kept,
          fun dispatch listed row kept given run =>
            rest.entered given dispatch listed run row kept⟩)

instance (row : TaskLifecycleProjection) : Decidable (GatesPassed row) := by
  unfold GatesPassed
  infer_instance

instance (w : EpicWorld) (row : TaskLifecycleProjection) : Decidable (Unreconciled w row) := by
  unfold Unreconciled
  infer_instance

instance (env : Environment) (w : EpicWorld) (runId taskId : String) :
    Decidable (Delivered env w runId taskId) := by
  unfold Delivered
  infer_instance

instance [Collation] (w : EpicWorld) (runId : String) (dag : TaskDag) (taskId : String) :
    Decidable (Hopeless w runId dag taskId) := by
  unfold Hopeless
  split <;> infer_instance

instance [Collation] (env : Environment) (w : EpicWorld) (runId : String) (dag : TaskDag)
    (replan : HiddenDependencyReplan) : Decidable (Movable env w runId dag replan) := by
  unfold Movable
  infer_instance

def confirmedActs : List EpicRuntime.Act :=
  (sampleActs "b" "a").take 3 ++ [.late "run" (freshTask "run" 1 "b") .cancelled]

def confirmedRun : EpicWorld :=
  @runActs openingDigest plainCollation (sampleEnvironment "a") confirmedActs

def racingEnvironment : Environment :=
  { sampleEnvironment "b" with
    driver := { (sampleEnvironment "b").driver with
      status := fun calls _ => .ok (if calls < 4 then .running else .succeeded) } }

def racingRun : EpicWorld :=
  @runActs openingDigest plainCollation racingEnvironment (sampleActs "a" "b")

def isQuiescing (replan : HiddenDependencyReplan) : Bool := decide (replan.lifecycle = .quiescing)

theorem ok_of_toBool {ε α : Type} {outcome : Except ε α} (returned : outcome.toBool = true) :
    ∃ a, outcome = .ok a := by
  cases outcome with
  | error e => cases returned
  | ok a => exact ⟨a, rfl⟩

def confirmedGraph : TaskGraphRevisionRecord :=
  (activeGraph confirmedRun.graphs "run").get (by decide +kernel)

def confirmedReplan : HiddenDependencyReplan :=
  (activeReplan confirmedRun.replanning "run").get (by decide +kernel)

theorem quiescing_moves_sample :
    (confirmedReplan.lifecycle = .quiescing ∧
      AtRest (sampleEnvironment "a") "run" confirmedRun ∧
      @Movable plainCollation (sampleEnvironment "a") confirmedRun "run" confirmedGraph.dag
        confirmedReplan) ∧
      MovedOn confirmedReplan.replanId (@perform openingDigest plainCollation
        (sampleEnvironment "a") confirmedRun (.tick sampleTick)) := by
  have facts : (confirmedReplan.lifecycle = .quiescing ∧
      AtRest (sampleEnvironment "a") "run" confirmedRun ∧
      @Movable plainCollation (sampleEnvironment "a") confirmedRun "run" confirmedGraph.dag
        confirmedReplan) ∧
      (@tick plainCollation (sampleEnvironment "a")
        (schedulerInput sampleTick confirmedGraph.dag true) confirmedRun).1.toBool = true := by
    decide +kernel
  obtain ⟨⟨quiescing, rest, movable⟩, returns⟩ := facts
  have active : activeGraph confirmedRun.graphs "run" = some confirmedGraph :=
    (Option.some_get _).symm
  have current : activeReplan confirmedRun.replanning "run" = some confirmedReplan :=
    (Option.some_get _).symm
  refine ⟨⟨quiescing, rest, movable⟩, ?_⟩
  rw [confirmedRun] at active current rest movable returns ⊢
  exact @quiescing_moves openingDigest plainCollation (sampleEnvironment "a") confirmedActs
    sampleTick confirmedGraph confirmedReplan active current quiescing rest movable
    (ok_of_toBool returns)

/-- The interrupted task succeeds before it is cancelled. -/
theorem quiescing_wedged : ¬ ∀ [Sha256] [Collation] (env : Environment)
    (acts : List EpicRuntime.Act) (input : EpicRuntimeTickInput) (replan : HiddenDependencyReplan),
    activeReplan (runActs env acts).replanning input.runId = some replan →
    replan.lifecycle = .quiescing → AtRest env input.runId (runActs env acts) →
    (program env (.tick input) (runActs env acts)).1 = .ok () →
    MovedOn replan.replanId (perform env (runActs env acts) (.tick input)) := by
  intro claim
  have facts : (activeReplan racingRun.replanning "run").any isQuiescing = true ∧
      AtRest racingEnvironment "run" racingRun ∧
      (@program openingDigest plainCollation racingEnvironment (.tick sampleTick)
        racingRun).1.toBool = true ∧
      (@perform openingDigest plainCollation racingEnvironment racingRun
        (.tick sampleTick)).replanning.replans.rows.all isQuiescing = true := by
    decide +kernel
  rw [racingRun] at facts
  obtain ⟨active, rest, returns, still⟩ := facts
  obtain ⟨replan, current, quiescing⟩ := (Option.any_eq_true _ _).mp active
  obtain ⟨⟨⟩, returned⟩ := ok_of_toBool returns
  obtain ⟨next, found, moved⟩ := @claim openingDigest plainCollation racingEnvironment
    (sampleActs "a" "b") sampleTick replan current (of_decide_eq_true quiescing) rest returned
  exact moved (of_decide_eq_true (List.all_eq_true.mp still next (Table.mem_of_find? found)))

end Samples

end Heniek.QuiescingReplans
