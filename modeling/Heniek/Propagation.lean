import Heniek.TaskLifecycles

/-!
The propagation of a tick as a function of its world. A round blocks every task that it
finds a reason for, so with a round for each task that has not started the last one finds
nothing, and more rounds change nothing.
-/

namespace Heniek.Propagation
open EffectfulRun KeyedTable ScriptText PipelineStore IntegrationStore TaskGraph DagValidation
  WaveStore WaveScheduler WaveSteps TaskLifecycles

section Reasons

variable [Collation] {nodes : NodeTable} {states : List TaskLifecycleProjection}

inductive Offered (nodes : NodeTable) (states : List TaskLifecycleProjection) (fuel : Nat)
    (visiting : List String) (taskId predecessorId : String) (row : TaskLifecycleProjection) :
    TaskPropagationReason → Prop where
  | root (code : PropagationCode) (ended : row.phase = .failed ∨ row.phase = .cancelled) :
      Offered nodes states fuel visiting taskId predecessorId row
        ⟨code, predecessorId, predecessorId, [predecessorId, taskId]⟩
  | stored (reason : TaskPropagationReason) (blocked : row.phase = .blocked)
      (held : row.blockReason = some reason) :
      Offered nodes states fuel visiting taskId predecessorId row
        (inheritReason reason predecessorId taskId)
  | found (reason : TaskPropagationReason) (fresh : row.phase = .notStarted)
      (inherited : propagationReason nodes states fuel (taskId :: visiting) predecessorId =
        some reason) :
      Offered nodes states fuel visiting taskId predecessorId row
        (inheritReason reason predecessorId taskId)

theorem offered_of_propagationReason {fuel : Nat} {visiting : List String} {taskId : String}
    {reason : TaskPropagationReason}
    (found : propagationReason nodes states (fuel + 1) visiting taskId = some reason) :
    ∃ predecessorId ∈ dependenciesOf nodes taskId, ∃ row,
      taskNamed states predecessorId = some row ∧
        Offered nodes states fuel visiting taskId predecessorId row reason := by
  unfold propagationReason at found
  split_ifs at found
  have listed := (List.mem_insertionSort _).mp (List.mem_of_head? found)
  obtain ⟨predecessorId, depends, offered⟩ := List.mem_flatMap.mp listed
  refine ⟨predecessorId, mem_canonical.mp depends, ?_⟩
  cases named : taskNamed states predecessorId with
  | none => simp [named] at offered
  | some row =>
    refine ⟨row, rfl, ?_⟩
    cases phase : row.phase <;> simp [named, phase] at offered
    · obtain ⟨inherited, held, rfl⟩ := offered
      exact .found inherited phase held
    · subst offered
      exact .root _ (Or.inl phase)
    · subst offered
      exact .root _ (Or.inr phase)
    · obtain ⟨inherited, held, rfl⟩ := offered
      exact .stored inherited phase held

theorem propagationReason_ne_none {fuel : Nat} {visiting : List String} {taskId : String} :
    propagationReason nodes states (fuel + 1) visiting taskId ≠ none ↔ taskId ∉ visiting ∧
      ∃ predecessorId ∈ dependenciesOf nodes taskId, ∃ row,
        taskNamed states predecessorId = some row ∧
        (row.phase = .failed ∨ row.phase = .cancelled ∨
          row.phase = .blocked ∧ row.blockReason ≠ none ∨
          row.phase = .notStarted ∧
            propagationReason nodes states fuel (taskId :: visiting) predecessorId ≠ none) := by
  rw [propagationReason]
  split_ifs with visited
  · simp [visited]
  · rw [ne_eq, List.head?_eq_none_iff, ← List.length_eq_zero_iff, List.length_insertionSort,
      List.length_eq_zero_iff, List.flatMap_eq_nil_iff]
    simp only [visited, not_false_eq_true, true_and, not_forall, mem_canonical]
    refine exists_congr fun predecessorId => ?_
    rw [exists_prop]
    cases taskNamed states predecessorId with
    | none => simp
    | some row => cases phase : row.phase <;> simp [phase]

end Reasons

def unstarted (runId : String) (w : EpicWorld) : Nat :=
  w.tasks.rows.countP fun row => decide (row.runId = runId ∧ row.phase = .notStarted)

variable {w : EpicWorld} {fuel : Nat}

theorem unstarted_blockWorld {runId : String}
    {item : TaskLifecycleProjection × TaskPropagationReason} (member : item.1 ∈ w.tasks.rows)
    (sameRun : item.1.runId = runId) (fresh : item.1.phase = .notStarted) :
    unstarted runId (blockWorld runId w item) + 1 = unstarted runId w := by
  have counted := Table.countP_upsert (t := w.tasks) (a := blockedTask item.1 item.2)
    (fun row => decide (row.runId = runId ∧ row.phase = .notStarted)) member rfl
  have here : decide (item.1.runId = runId ∧ item.1.phase = .notStarted) = true :=
    decide_eq_true ⟨sameRun, fresh⟩
  have gone : decide ((blockedTask item.1 item.2).runId = runId ∧
      (blockedTask item.1 item.2).phase = .notStarted) = false := by
    simp [blockedTask]
  rw [here, gone] at counted
  exact counted

theorem blockAll_keep {I : Nat → EpicWorld → Prop} {runId : String}
    {items : List (TaskLifecycleProjection × TaskPropagationReason)}
    (stored : ∀ item ∈ items, item.1 ∈ w.tasks.rows)
    (distinct : items.Pairwise fun left right => left.1.taskId ≠ right.1.taskId)
    (step : ∀ n v, ∀ item ∈ items, item.1 ∈ v.tasks.rows → I n v →
      I (n + 1) (blockWorld runId v item))
    (holds : I 0 w) : I items.length (blockAll runId w items) := by
  have fold : ∀ (rest : List (TaskLifecycleProjection × TaskPropagationReason)) (n : Nat)
      (v : EpicWorld), (∀ item ∈ rest, item ∈ items ∧ item.1 ∈ v.tasks.rows) →
      (rest.Pairwise fun left right => left.1.taskId ≠ right.1.taskId) → I n v →
      I (n + rest.length) (blockAll runId v rest) := by
    intro rest
    induction rest with
    | nil => exact fun n v _ _ holds => holds
    | cons item rest ih =>
      intro n v there distinct holds
      rw [List.pairwise_cons] at distinct
      have first := there item List.mem_cons_self
      have next : I (n + 1 + rest.length) (blockAll runId (blockWorld runId v item) rest) := by
        refine ih _ _ (fun other listed => ?_) distinct.2 (step n v item first.1 first.2 holds)
        have later := there other (List.mem_cons_of_mem item listed)
        refine ⟨later.1, Table.mem_upsert.mpr (Or.inr ⟨later.2, fun same => ?_⟩)⟩
        exact distinct.1 other listed (congrArg Prod.snd same).symm
      rw [List.length_cons, Nat.add_comm rest.length, ← Nat.add_assoc]
      exact next
  have all := fold items 0 w (fun item listed => ⟨listed, stored item listed⟩) distinct holds
  rw [Nat.zero_add] at all
  exact all

variable [Collation] {runId : String} {dag : TaskDag} {w : EpicWorld}

def blockRound (runId : String) (dag : TaskDag) (w : EpicWorld) : EpicWorld :=
  blockAll runId w (blockedTasks dag (projectionsOf w runId))

/-- The rounds up to one that finds nothing. -/
def rounds (runId : String) (dag : TaskDag) : Nat → EpicWorld → EpicWorld
  | 0, w => w
  | fuel + 1, w =>
    if blockedTasks dag (projectionsOf w runId) = [] then w
    else rounds runId dag fuel (blockRound runId dag w)

theorem mem_blockRound {item : TaskLifecycleProjection × TaskPropagationReason}
    (listed : item ∈ blockedTasks dag (projectionsOf w runId)) :
    item.1 ∈ w.tasks.rows ∧ item.1.runId = runId ∧ item.1.phase = .notStarted := by
  obtain ⟨inStates, fresh, _⟩ := mem_blockedTasks.mp listed
  obtain ⟨stored, sameRun⟩ := mem_projections.mp inStates
  exact ⟨stored, sameRun, fresh⟩

theorem unstarted_blockRound : unstarted runId (blockRound runId dag w) +
    (blockedTasks dag (projectionsOf w runId)).length = unstarted runId w := by
  refine blockAll_keep (I := fun n v => unstarted runId v + n = unstarted runId w)
    (fun item listed => (mem_blockRound listed).1) blockedTasks_distinct ?_ rfl
  intro n v item listed member counted
  obtain ⟨_, sameRun, fresh⟩ := mem_blockRound listed
  have one : unstarted runId (blockWorld runId v item) + 1 = unstarted runId v :=
    unstarted_blockWorld member sameRun fresh
  omega

theorem propagateRounds_eq (fuel : Nat) (w : EpicWorld) :
    propagateRounds runId dag fuel w = (.ok (), rounds runId dag fuel w) := by
  induction fuel generalizing w with
  | zero => rfl
  | succ fuel ih =>
    have step : propagateRounds runId dag (fuel + 1) w =
        (if blockedTasks dag (projectionsOf w runId) = [] then (pure () : EpicProgram Unit)
          else propagateRounds runId dag fuel) (blockRound runId dag w) := by
      change Effect.bind (Effect.forEach (blockTask runId)
        (blockedTasks dag (projectionsOf w runId))) _ w = _
      simp only [Effect.bind, forEach_blockedTasks]
      rfl
    rw [step]
    by_cases none : blockedTasks dag (projectionsOf w runId) = []
    · have same : blockRound runId dag w = w := by
        unfold blockRound
        rw [none]
        rfl
      simp only [rounds, none, same]
      rfl
    · simp only [rounds, none]
      exact ih _

theorem rounds_settled (enough : unstarted runId w < fuel) :
    blockedTasks dag (projectionsOf (rounds runId dag fuel w) runId) = [] := by
  induction fuel generalizing w with
  | zero => exact absurd enough (Nat.not_lt_zero _)
  | succ fuel ih =>
    unfold rounds
    split
    · assumption
    · rename_i some
      have fewer : unstarted runId (blockRound runId dag w) +
          (blockedTasks dag (projectionsOf w runId)).length = unstarted runId w :=
        unstarted_blockRound
      have found := List.length_pos_of_ne_nil some
      exact ih (by omega)

theorem rounds_enough {more : Nat} (enough : unstarted runId w < fuel) (least : fuel ≤ more) :
    rounds runId dag more w = rounds runId dag fuel w := by
  induction fuel generalizing more w with
  | zero => exact absurd enough (Nat.not_lt_zero _)
  | succ fuel ih =>
    cases more with
    | zero => omega
    | succ more =>
      unfold rounds
      split
      · rfl
      · rename_i some
        have fewer : unstarted runId (blockRound runId dag w) +
            (blockedTasks dag (projectionsOf w runId)).length = unstarted runId w :=
          unstarted_blockRound
        have found := List.length_pos_of_ne_nil some
        exact ih (by omega) (by omega)

theorem rounds_keep {I : EpicWorld → Prop} (keeps : ∀ w, I w → I (blockRound runId dag w))
    (holds : I w) : I (rounds runId dag fuel w) := by
  induction fuel generalizing w with
  | zero => exact holds
  | succ fuel ih =>
    unfold rounds
    split
    · exact holds
    · exact ih (keeps w holds)

def propagated (runId : String) (dag : TaskDag) (w : EpicWorld) : EpicWorld :=
  rounds runId dag ((projectionsOf w runId).length + 1) w

omit [Collation] in
theorem unstarted_lt : unstarted runId w < (projectionsOf w runId).length + 1 := by
  unfold unstarted projectionsOf projections orderBy
  rw [List.length_insertionSort, ← List.countP_eq_length_filter, Nat.lt_succ_iff]
  refine List.countP_mono_left fun row _ holds => ?_
  simp only [decide_eq_true_eq] at holds ⊢
  exact holds.1

theorem propagate_eq (w : EpicWorld) :
    propagate runId dag w = (.ok (), propagated runId dag w) :=
  propagateRounds_eq _ w

theorem propagated_settled : blockedTasks dag (projectionsOf (propagated runId dag w) runId) = [] :=
  rounds_settled unstarted_lt

end Heniek.Propagation
