import Heniek.SchedulingRuns

/-!
The leases of an account against its maximum. Time and every operation but a claim and a
restore only take active leases away; a claim counts them first. A restore reactivates
the lease of an ongoing attempt without counting, so the maximum holds along the runs
whose restores find the lease still active or the account with room.
-/

namespace Heniek.AccountCapacity
open KeyedTable AccountScheduling AttemptSettlement SchedulingSteps SchedulingRuns

variable {db db' : SchedulingDatabase} {now : Int} {w : SchedulingWorld} {limit : String → Nat}

/-- The condition of the capacity query. -/
def Counted (accountId : String) (now : Int) (lease : AccountConcurrencyLease) : Bool :=
  decide (lease.accountId = accountId ∧ lease.state = .active ∧ now < lease.expiresAt)

theorem activeLeases_eq (db : SchedulingDatabase) (accountId : String) (now : Int) :
    activeLeases db accountId now = db.leases.rows.countP (Counted accountId now) := rfl

variable {accountId : String} {lease : AccountConcurrencyLease} {expiresAt : Int}

theorem activeLeases_antitone {earlier : Int} (le : earlier ≤ now) :
    activeLeases db accountId now ≤ activeLeases db accountId earlier := by
  refine List.countP_mono_left fun lease _ counted => ?_
  simp only [decide_eq_true_eq] at counted ⊢
  exact ⟨counted.1, counted.2.1, le.trans_lt counted.2.2⟩

theorem activeLeases_mapped {change : AccountConcurrencyLease → AccountConcurrencyLease}
    (mapped : db'.leases.rows = db.leases.rows.map change)
    (fewer : ∀ lease ∈ db.leases.rows, Counted accountId now (change lease) = true →
      Counted accountId now lease = true) :
    activeLeases db' accountId now ≤ activeLeases db accountId now := by
  rw [activeLeases_eq, mapped, List.countP_map]
  exact List.countP_mono_left fun lease stored counted => fewer lease stored counted

theorem expiredLease_counted {t : Int}
    (counted : Counted accountId t (expiredLease db now lease) = true) :
    Counted accountId t lease = true := by
  unfold expiredLease at counted
  split at counted
  · simp [Counted] at counted
  · exact counted

theorem activeLeases_expire (accountId : String) :
    activeLeases (expireOrphanLeases db now) accountId now ≤ activeLeases db accountId now :=
  activeLeases_mapped rfl fun _ _ counted => expiredLease_counted counted

theorem renewedLease_counted {input : RenewInput}
    (counted : Counted accountId now (renewedLease input now expiresAt lease) = true) :
    Counted accountId now lease = true := by
  unfold renewedLease at counted
  split at counted
  · rename_i accepts
    have facts := of_decide_eq_true accepts
    have account := (of_decide_eq_true counted).1
    exact decide_eq_true ⟨account, facts.2.2.2⟩
  · exact counted

theorem releasedLease_counted {attemptId : Nat}
    (counted : Counted accountId now (releasedLease attemptId lease) = true) :
    Counted accountId now lease = true := by
  unfold releasedLease at counted
  split at counted
  · simp [Counted] at counted
  · exact counted

theorem countP_map_le_succ {α β : Type} {p : α → Bool} {change : α → α} {label : α → β} {b : β}
    {rows : List α} (distinct : (rows.map label).Nodup)
    (kept : ∀ row ∈ rows, label row ≠ b → change row = row) :
    (rows.map change).countP p ≤ rows.countP p + 1 := by
  induction rows with
  | nil => simp
  | cons row rows ih =>
    rw [List.map_cons, List.nodup_cons] at distinct
    have later := fun other listed => kept other (List.mem_cons_of_mem row listed)
    rw [List.map_cons, List.countP_cons, List.countP_cons]
    by_cases here : label row = b
    · have same : rows.map change = rows := by
        refine (List.map_congr_left fun other listed => later other listed ?_).trans
          (List.map_id rows)
        exact fun clash => distinct.1 (List.mem_map.mpr ⟨other, listed, clash.trans here.symm⟩)
      rw [same]
      split <;> split <;> omega
    · rw [kept row List.mem_cons_self here]
      have rest := ih distinct.2 later
      omega

structure Declared (limit : String → Nat) (db : SchedulingDatabase) : Prop where
  capacities : ∀ row ∈ db.capacities.rows, row.maxConcurrentRuns = limit row.accountId
  candidates : ∀ row ∈ db.candidates.rows, ∀ accountId, row.accountId = some accountId →
    accountId ∈ db.capacities.keys
  queue : ∀ entry ∈ db.queue.rows, entry.accountId ∈ db.capacities.keys

theorem Declared.keep (declared : Declared limit db) (capacities : db'.capacities = db.capacities)
    (candidates : ∀ row ∈ db'.candidates.rows, ∃ before ∈ db.candidates.rows,
      row.accountId = before.accountId)
    (queue : ∀ entry ∈ db'.queue.rows, entry ∈ db.queue.rows) : Declared limit db' where
  capacities := by
    rw [capacities]
    exact declared.capacities
  candidates := by
    intro row member accountId named
    obtain ⟨before, stored, same⟩ := candidates row member
    rw [capacities]
    exact declared.candidates before stored accountId (same.symm.trans named)
  queue := by
    rw [capacities]
    exact fun entry member => declared.queue entry (queue entry member)

theorem Declared.same (declared : Declared limit db) (capacities : db'.capacities = db.capacities)
    (candidates : db'.candidates = db.candidates) (queue : db'.queue = db.queue) :
    Declared limit db' :=
  declared.keep capacities (fun row member => ⟨row, candidates ▸ member, rfl⟩)
    fun _ member => queue ▸ member

theorem Declared.queues (declared : Declared limit db) {runId : String} {requestedPriority : Int}
    {index : Nat} (queues : Queues runId requestedPriority now index db db') :
    Declared limit db' := by
  obtain ⟨candidate, accountId, found, account, _, rfl⟩ := queues
  have stored := Table.mem_of_find? found
  have known := declared.candidates candidate stored accountId account
  refine ⟨declared.capacities, fun row member other named => ?_, fun entry member => ?_⟩
  · rcases Table.mem_upsert.mp member with rfl | ⟨old, _⟩
    · exact declared.candidates candidate stored other named
    · exact declared.candidates row old other named
  · rcases Table.mem_upsert.mp member with rfl | ⟨old, _⟩
    · exact known
    · exact declared.queue entry old

theorem Declared.enqueueEach (declared : Declared limit db) {runId : String}
    {requestedPriority : Int} {indexes : List Nat} :
    Declared limit (AccountScheduling.enqueueEach db runId requestedPriority now indexes).2 :=
  enqueueEach_invariant (P := fun _ after => Declared limit after) declared
    fun _ _ _ _ _ holds queues => holds.queues queues

theorem Declared.weighed (declared : Declared limit db) {accountId : Option String} :
    Declared limit (weighHeads db now accountId).1 :=
  weighHeads_invariant (P := fun after _ => Declared limit after) declared
    (fun _ _ _ _ holds _ => holds) fun _ _ _ _ _ holds _ _ =>
      holds.keep rfl (fun row member => ⟨row, member, rfl⟩)
        fun _ member => (Table.mem_deleteWhere.mp member).1

theorem Declared.maximum (declared : Declared limit db) {row : QueueRow} (joined : Joined db row) :
    row.maxConcurrentRuns = limit row.entry.accountId := by
  rw [joined.maximum]
  unfold claimMaximum
  obtain ⟨capacity, found⟩ := Table.exists_find? (declared.queue _ joined.entry)
  rw [found]
  obtain ⟨stored, key⟩ := Table.find?_eq_some.mp found
  exact key ▸ declared.capacities capacity stored

theorem claimCandidate_accountId (selected : QueueRow) (row : ExecutionCandidate) :
    (claimCandidate selected row).accountId = row.accountId := by
  unfold claimCandidate
  split <;> rfl

theorem Declared.granted (declared : Declared limit db) {ownerId : String} {selected : QueueRow} :
    Declared limit (AccountScheduling.granted db ownerId expiresAt selected) := by
  refine declared.keep rfl (fun row member => ?_)
    fun _ member => (Table.mem_deleteWhere.mp member).1
  obtain ⟨before, stored, rfl⟩ := List.mem_map.mp member
  exact ⟨before, stored, claimCandidate_accountId selected before⟩

theorem settleCandidate_accounts {key : String × Nat} {state : CandidateState}
    {row : ExecutionCandidate}
    (member : row ∈ (db.candidates.modify key (settleCandidate state)
      (settleCandidate_key state)).rows) :
    ∃ before ∈ db.candidates.rows, row.accountId = before.accountId := by
  obtain ⟨before, stored, rfl⟩ := List.mem_map.mp member
  refine ⟨before, stored, ?_⟩
  split <;> rfl

theorem Declared.completed (declared : Declared limit db) {input : CompleteInput}
    {attempt : ExecutionAttempt} (completes : Completed now input attempt db db') :
    Declared limit db' := by
  have closed : Declared limit (closeAttempt db input attempt) :=
    declared.keep rfl (fun row member => settleCandidate_accounts member) fun _ member => member
  rcases completes.settled with ⟨requestedPriority, _, rfl⟩ | rfl
  · exact closed.enqueueEach.same rfl rfl rfl
  · exact closed.same rfl rfl rfl

theorem Declared.cancelled (declared : Declared limit db) {schedule : ExecutionSchedule}
    (inside : cancelQueuedInside db schedule = .ok db') : Declared limit db' := by
  obtain ⟨candidate, _, _, rfl⟩ := cancelQueuedInside_ok.mp inside
  exact declared.keep rfl (fun row member => settleCandidate_accounts member)
    fun _ member => (Table.mem_deleteWhere.mp member).1

def KeepsMaximum (limit : String → Nat) : Operation → Prop
  | .create input => ∀ candidate ∈ input.candidates, ∀ accountId ∈ candidate.accountId,
      candidate.maxConcurrentRuns = limit accountId
  | _ => True

instance (limit : String → Nat) : (operation : Operation) → Decidable (KeepsMaximum limit operation)
  | .create input => inferInstanceAs (Decidable (∀ candidate ∈ input.candidates,
      ∀ accountId ∈ candidate.accountId, candidate.maxConcurrentRuns = limit accountId))
  | .claim _ | .assignWorkspace _ _ | .updateLimits _ _ | .recordBaseline _ _
  | .startAttempt _ _ | .renew _ | .restore _ | .complete _ | .cancel _ | .applyAnswer _
  | .answerQuestion _ => .isTrue trivial

theorem Declared.created (declared : Declared limit db) {input : CreateExecutionScheduleInput}
    (maximum : KeepsMaximum limit (.create input)) (creates : Created now input db db') :
    Declared limit db' := by
  obtain ⟨middle, inserted, rfl⟩ := creates.inserted
  refine Declared.enqueueEach ?_
  have listed : ∀ item ∈ input.candidates.zipIdx, item.1 ∈ input.candidates := fun item member =>
    List.fst_mem_of_mem_zipIdx member
  refine ⟨fun row member => ?_, fun row member accountId named => ?_, fun entry member => ?_⟩
  · rcases inserted.capacities row member with old | ⟨item, given, account, same⟩
    · exact declared.capacities row old
    · rw [same]
      exact maximum item.1 (listed item given) row.accountId account
  · rw [inserted.declared]
    rcases (inserted.candidates row).mp member with old | ⟨item, given, rfl⟩
    · exact Or.inl (declared.candidates row old accountId named)
    · exact Or.inr ⟨item, given, named⟩
  · rw [inserted.queue] at member
    rw [inserted.declared]
    exact Or.inl (declared.queue entry member)

theorem Declared.performed (declared : Declared limit db) {operation : Operation}
    {outcome : Outcome} (maximum : KeepsMaximum limit operation)
    (performs : Performs now db operation outcome db') : Declared limit db' := by
  induction performs with
  | create created => exact declared.created maximum created
  | claimNothing _ =>
    have expired : Declared limit (expireOrphanLeases db now) := declared.same rfl rfl rfl
    exact expired.weighed
  | claim _ grants =>
    have expired : Declared limit (expireOrphanLeases db now) := declared.same rfl rfl rfl
    obtain ⟨_, _, _, _, rfl⟩ := grantSelected_ok.mp grants
    exact expired.weighed.granted
  | amend amended =>
    obtain ⟨_, _, _, _, _, _, _, _, rfl⟩ := amended
    exact declared.same rfl rfl rfl
  | renew _ _ => exact declared.same rfl rfl rfl
  | restore _ restored =>
    obtain ⟨middle, rfl | ⟨_, _, _, _, _, _, _, _, rfl⟩, rfl⟩ := restored.recovered
    · exact declared.same rfl rfl rfl
    · exact declared.same rfl rfl rfl
  | complete completed => exact declared.completed completed
  | cancelNothing => exact declared
  | cancel _ _ _ inside => exact declared.cancelled inside
  | stale => exact declared
  | answerCancel _ _ _ _ inside => exact declared.cancelled inside
  | answerResume _ _ _ _ _ resumed =>
    obtain ⟨middle, queues, rfl⟩ := resumed
    exact (declared.queues queues).same rfl rfl rfl
  | answerQuestion _ _ _ _ ih => exact (ih trivial).same rfl rfl rfl

/-- A restore finds its lease still active and unexpired, or the account with room. -/
def RestoresWithRoom (limit : String → Nat) (db : SchedulingDatabase) (now : Int) :
    Operation → Prop
  | .restore input => ∀ lease ∈ recoverableLease db input.attemptId,
      (lease.state = .active ∧ now < lease.expiresAt) ∨
        activeLeases db lease.accountId now < limit lease.accountId
  | _ => True

instance (limit : String → Nat) (db : SchedulingDatabase) (now : Int) :
    (operation : Operation) → Decidable (RestoresWithRoom limit db now operation)
  | .restore input => inferInstanceAs (Decidable (∀ lease ∈ recoverableLease db input.attemptId,
      (lease.state = .active ∧ now < lease.expiresAt) ∨
        activeLeases db lease.accountId now < limit lease.accountId))
  | .create _ | .claim _ | .assignWorkspace _ _ | .updateLimits _ _ | .recordBaseline _ _
  | .startAttempt _ _ | .renew _ | .complete _ | .cancel _ | .applyAnswer _
  | .answerQuestion _ => .isTrue trivial

theorem restoredLease_kept {input : RestoreInput} {revision : Nat}
    (other : lease.attemptId ≠ input.attemptId) :
    restoredLease input expiresAt revision lease = lease := if_neg other

theorem restored_within (coherent : Coherent db)
    (within : ∀ accountId, activeLeases db accountId now ≤ limit accountId) {input : RestoreInput}
    {found : AccountConcurrencyLease} (room : RestoresWithRoom limit db now (.restore input))
    (restores : Restored now input found db db') (accountId : String) :
    activeLeases db' accountId now ≤ limit accountId := by
  obtain ⟨there, attempt, _⟩ := recoverableLease_ok restores.found
  obtain ⟨middle, recovered, rfl⟩ := restores.recovered
  have leases : middle.leases = db.leases := by
    rcases recovered with rfl | amends
    · rfl
    · exact amended_leases amends
  have rows : (middle.leases.mapAll (restoredLease input
      (now + input.leaseTtlMs.getD defaultLeaseTtlMs) (found.fencingRevision + 1))
      (restoredLease_leaseId input _ _)).rows = db.leases.rows.map (restoredLease input
        (now + input.leaseTtlMs.getD defaultLeaseTtlMs) (found.fencingRevision + 1)) := by
    rw [leases]
    rfl
  have counted : ∀ lease ∈ db.leases.rows, Counted accountId now (restoredLease input
      (now + input.leaseTtlMs.getD defaultLeaseTtlMs) (found.fencingRevision + 1) lease) = true →
      lease = found ∧ found.accountId = accountId ∨ Counted accountId now lease = true := by
    intro lease stored counted
    by_cases same : lease.attemptId = input.attemptId
    · have here := single_eq coherent stored there (same.trans attempt.symm)
      subst here
      refine Or.inl ⟨rfl, ?_⟩
      have account := (of_decide_eq_true counted).1
      unfold restoredLease at account
      rwa [if_pos same] at account
    · rw [restoredLease_kept same] at counted
      exact Or.inr counted
  rcases room found restores.found with still | below
  · refine (activeLeases_mapped rows fun lease stored count => ?_).trans (within accountId)
    rcases counted lease stored count with ⟨rfl, account⟩ | already
    · exact decide_eq_true ⟨account, still⟩
    · exact already
  · by_cases here : found.accountId = accountId
    · subst here
      rw [activeLeases_eq, rows]
      exact (countP_map_le_succ coherent.single fun lease _ other =>
        restoredLease_kept other).trans below
    · refine (activeLeases_mapped rows fun lease stored count => ?_).trans (within accountId)
      rcases counted lease stored count with ⟨_, account⟩ | already
      · exact absurd account here
      · exact already

theorem claimed_within (declared : Declared limit db)
    (within : ∀ accountId, activeLeases db accountId now ≤ limit accountId) {filter : Option String}
    {ownerId : String} {selected : QueueRow} {claim : SchedulingClaim}
    (available : selected ∈ (weighHeads db now filter).2)
    (grants :
      grantSelected (weighHeads db now filter).1 ownerId expiresAt selected = .ok (claim, db'))
    (accountId : String) : activeLeases db' accountId now ≤ limit accountId := by
  obtain ⟨_, fresh, _, _, rfl⟩ := grantSelected_ok.mp grants
  obtain ⟨joined, room⟩ := weighHeads_available selected available
  rw [declared.maximum joined] at room
  have rows := Table.rows_upsert_of_not_mem (a := claimedLease (weighHeads db now filter).1.drawn
    ((weighHeads db now filter).1.drawn + 1) ownerId expiresAt selected) fresh
  rw [activeLeases_eq]
  change List.countP _ (Table.upsert _ _).rows ≤ _
  rw [rows, List.countP_append, weighHeads_frame.2.2.2, ← activeLeases_eq, List.countP_singleton]
  have before := within accountId
  split
  · rename_i counted
    have account : selected.entry.accountId = accountId := (of_decide_eq_true counted).1
    subst account
    omega
  · omega

/-- The invariant: coherent tables, declared maxima, and no account above its own. -/
structure Within (limit : String → Nat) (w : SchedulingWorld) : Prop where
  coherent : Coherent w.db
  declared : Declared limit w.db
  within : ∀ accountId, activeLeases w.db accountId w.clock ≤ limit accountId

/-- A monotone clock and one maximum for each account. -/
def FixedMaximum (limit : String → Nat) (w : SchedulingWorld) (now : Int) (operation : Operation) :
    Prop :=
  w.clock ≤ now ∧ KeepsMaximum limit operation

def KeepsRoom (limit : String → Nat) (w : SchedulingWorld) (now : Int) (operation : Operation) :
    Prop :=
  FixedMaximum limit w now operation ∧ RestoresWithRoom limit w.db now operation

instance (limit : String → Nat) (w : SchedulingWorld) (now : Int) (operation : Operation) :
    Decidable (FixedMaximum limit w now operation) :=
  inferInstanceAs (Decidable (w.clock ≤ now ∧ KeepsMaximum limit operation))

instance (limit : String → Nat) (w : SchedulingWorld) (now : Int) (operation : Operation) :
    Decidable (KeepsRoom limit w now operation) :=
  inferInstanceAs (Decidable (FixedMaximum limit w now operation ∧
    RestoresWithRoom limit w.db now operation))

theorem activeLeases_performed (coherent : Coherent db) (declared : Declared limit db)
    (within : ∀ accountId, activeLeases db accountId now ≤ limit accountId)
    {operation : Operation} {outcome : Outcome} (room : RestoresWithRoom limit db now operation)
    (performs : Performs now db operation outcome db') (accountId : String) :
    activeLeases db' accountId now ≤ limit accountId := by
  have expired : ∀ accountId, activeLeases (expireOrphanLeases db now) accountId now ≤
      limit accountId := fun accountId => (activeLeases_expire accountId).trans (within accountId)
  have kept : db'.leases = db.leases → activeLeases db' accountId now ≤ limit accountId := by
    intro same
    rw [activeLeases_eq, same]
    exact within accountId
  induction performs with
  | create created => exact kept (created_leases created)
  | claimNothing _ =>
    rw [activeLeases_eq, weighHeads_frame.2.2.2]
    exact expired accountId
  | claim chosen granted =>
    have declaredExpired : Declared limit (expireOrphanLeases db now) := declared.same rfl rfl rfl
    exact claimed_within declaredExpired expired (selectRow_mem chosen) granted accountId
  | amend amended => exact kept (amended_leases amended)
  | renew _ _ =>
    refine (activeLeases_mapped rfl fun _ _ counted => ?_).trans (expired accountId)
    exact renewedLease_counted counted
  | restore _ restored => exact restored_within coherent within room restored accountId
  | complete completed =>
    have rows := congrArg Table.rows (completed_leases completed)
    exact (activeLeases_mapped rows fun _ _ counted => releasedLease_counted counted).trans
      (within accountId)
  | cancelNothing => exact kept rfl
  | cancel _ _ _ inside => exact kept (cancelled_leases inside)
  | stale => exact kept rfl
  | answerCancel _ _ _ _ inside => exact kept (cancelled_leases inside)
  | answerResume _ _ _ _ _ resumed =>
    obtain ⟨middle, ⟨_, _, _, _, _, rfl⟩, rfl⟩ := resumed
    exact kept rfl
  | answerQuestion _ _ _ _ ih => exact ih trivial fun same => kept same

theorem within_reachable (reachable : ReachableWith (KeepsRoom limit) w) : Within limit w := by
  refine reachable.invariant (P := Within limit) (fun clock => ?_) ?_ ?_
  · refine ⟨coherent_empty, ⟨?_, ?_, ?_⟩, fun accountId => Nat.zero_le _⟩
    · exact fun row member => absurd member List.not_mem_nil
    · exact fun row member => absurd member List.not_mem_nil
    · exact fun row member => absurd member List.not_mem_nil
  · intro w now operation outcome db' holds allowed performs
    obtain ⟨⟨later, maximum⟩, room⟩ := allowed
    refine ⟨holds.coherent.performed performs, holds.declared.performed maximum performs, ?_⟩
    refine activeLeases_performed holds.coherent holds.declared (fun accountId => ?_) room performs
    exact (activeLeases_antitone later).trans (holds.within accountId)
  · intro w now operation holds allowed
    refine ⟨holds.coherent, holds.declared, fun accountId => ?_⟩
    exact (activeLeases_antitone allowed.1.1).trans (holds.within accountId)

/-- No account has more active unexpired leases than its maximum, at any moment of a run whose
restores find the lease still active or the account with room. -/
theorem accounts_within_maximum (limit : String → Nat) (w : SchedulingWorld)
    (reachable : ReachableWith (KeepsRoom limit) w) (accountId : String) (t : Int)
    (moment : w.clock ≤ t) : activeLeases w.db accountId t ≤ limit accountId :=
  (activeLeases_antitone moment).trans ((within_reachable reachable).within accountId)

def oneRun : String → Nat := fun _ => 1

def expiredSteps : List (Int × Operation) :=
  [(0, .create (sampleCreation "first" .queue [sampleCandidate (some "account") true])),
    (0, .create (sampleCreation "second" .queue [sampleCandidate (some "account") true])),
    (0, .claim sampleClaim), (20, .claim sampleClaim)]

def restoreFirst (now : Int) : Int × Operation := (now, .restore ⟨0, "daemon", some 10, none⟩)

/-- The second run ends before the lease of the first one is restored. -/
def roomSteps : List (Int × Operation) :=
  expiredSteps ++ [(21, .complete ⟨2, .succeeded, none, none, false⟩), restoreFirst 22]

theorem accounts_within_maximum_room :
    activeLeases (runSteps (opening 0) roomSteps).db "account" 22 = 1 ∧
      AllowedAlong (KeepsRoom oneRun) (opening 0) roomSteps ∧
      ∀ t, 22 ≤ t → activeLeases (runSteps (opening 0) roomSteps).db "account" t ≤ 1 := by
  have along : AllowedAlong (KeepsRoom oneRun) (opening 0) roomSteps := by decide +kernel
  have clock : (runSteps (opening 0) roomSteps).clock = 22 := by decide +kernel
  refine ⟨by decide +kernel, along, fun t moment => ?_⟩
  exact accounts_within_maximum oneRun _ ⟨0, runSteps_advances along⟩ "account" t
    (clock.trans_le moment)

/-- The lease of the first run is restored while the second run holds the account. -/
def crowdedSteps : List (Int × Operation) := expiredSteps ++ [restoreFirst 21]

theorem account_overcommitted :
    ¬ ∀ w, ReachableWith (FixedMaximum oneRun) w → ∀ accountId t, w.clock ≤ t →
      activeLeases w.db accountId t ≤ oneRun accountId := by
  intro bounded
  have along : AllowedAlong (FixedMaximum oneRun) (opening 0) crowdedSteps := by decide +kernel
  have clock : (runSteps (opening 0) crowdedSteps).clock = 21 := by decide +kernel
  have two : activeLeases (runSteps (opening 0) crowdedSteps).db "account" 21 = 2 := by
    decide +kernel
  have one := bounded _ ⟨0, runSteps_advances along⟩ "account" 21 clock.le
  rw [two] at one
  exact absurd one (by decide)

end Heniek.AccountCapacity
