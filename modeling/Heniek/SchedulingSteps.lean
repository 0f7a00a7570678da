import Heniek.AttemptSettlement

/-!
What each operation of the scheduling store can do: one inversion lemma for every
operation, with the databases it may leave written out.
-/

namespace Heniek.SchedulingSteps
open KeyedTable FallibleRun AccountScheduling AttemptSettlement

variable {db db' : SchedulingDatabase} {now : Int}

def Queues (runId : String) (requestedPriority now : Int) (index : Nat)
    (db db' : SchedulingDatabase) : Prop :=
  ∃ candidate accountId, db.candidates.find? (runId, index) = some candidate ∧
    candidate.accountId = some accountId ∧ candidate.state ≠ .rejected ∧
    db' = putInQueue db candidate accountId requestedPriority now

theorem enqueueCandidate_cases (db : SchedulingDatabase) (runId : String) (index : Nat)
    (requestedPriority now : Int) :
    enqueueCandidate db runId index requestedPriority now = (false, db) ∨
      ∃ db', enqueueCandidate db runId index requestedPriority now = (true, db') ∧
        Queues runId requestedPriority now index db db' := by
  unfold enqueueCandidate
  cases found : db.candidates.find? (runId, index) with
  | none => exact Or.inl rfl
  | some candidate =>
    cases account : candidate.accountId with
    | none => exact Or.inl (by simp only [account])
    | some accountId =>
      simp only [account]
      split
      · exact Or.inl rfl
      · rename_i admitted
        split
        · exact Or.inl rfl
        · exact Or.inr ⟨_, rfl, candidate, accountId, found, account, admitted, rfl⟩

variable {runId : String} {schedule : ExecutionSchedule} {accountId : Option String}
  {row : QueueRow} {attemptId : Nat}

theorem enqueueEach_invariant {P : Bool → SchedulingDatabase → Prop} {requestedPriority : Int}
    {indexes : List Nat} (initial : P false db)
    (step : ∀ index ∈ indexes, ∀ queued before after, P queued before →
      Queues runId requestedPriority now index before after → P true after) :
    P (enqueueEach db runId requestedPriority now indexes).1
      (enqueueEach db runId requestedPriority now indexes).2 := by
  unfold enqueueEach
  generalize false = queued at initial ⊢
  induction indexes generalizing queued db with
  | nil => exact initial
  | cons index indexes ih =>
    rw [List.foldl_cons]
    have later := fun other listed => step other (List.mem_cons_of_mem index listed)
    rcases enqueueCandidate_cases db runId index requestedPriority now with
      same | ⟨after, moved, queues⟩
    · simp only [same]
      exact ih later queued initial
    · simp only [moved]
      exact ih later true (step index List.mem_cons_self queued db after initial queues)

/-- A loop that has queued nothing has changed nothing. -/
theorem enqueueEach_none {requestedPriority : Int} {indexes : List Nat}
    (none : (enqueueEach db runId requestedPriority now indexes).1 = false) :
    (enqueueEach db runId requestedPriority now indexes).2 = db := by
  refine enqueueEach_invariant (P := fun queued after => queued = false → after = db)
    (fun _ => rfl) ?_ none
  exact fun _ _ _ _ _ _ _ impossible => absurd impossible (by simp)

theorem readExecutionScheduleRequired_ok
    (read : readExecutionScheduleRequired db runId = .ok schedule) :
    db.schedules.find? runId = some schedule := by
  unfold readExecutionScheduleRequired at read
  split at read
  · rename_i found
    cases read
    exact found
  · cases read

/-- Rows of a new run on top of the ones before it. -/
structure Inserted (runId : String) (items : List (SchedulingCandidateInput × Nat))
    (db db' : SchedulingDatabase) : Prop where
  candidates : ∀ row, row ∈ db'.candidates.rows ↔
    row ∈ db.candidates.rows ∨ ∃ item ∈ items, row = newCandidate runId item.2 item.1
  capacities : ∀ row ∈ db'.capacities.rows, row ∈ db.capacities.rows ∨ ∃ item ∈ items,
    item.1.accountId = some row.accountId ∧ row.maxConcurrentRuns = item.1.maxConcurrentRuns
  declared : ∀ accountId, accountId ∈ db'.capacities.keys ↔ accountId ∈ db.capacities.keys ∨
    ∃ item ∈ items, item.1.accountId = some accountId
  schedules : db'.schedules = db.schedules
  queue : db'.queue = db.queue
  attempts : db'.attempts = db.attempts
  leases : db'.leases = db.leases
  questions : db'.questions = db.questions
  drawn : db'.drawn = db.drawn

theorem insertCandidate_ok {item : SchedulingCandidateInput × Nat}
    (inserted : insertCandidate runId db item = .ok db') : Inserted runId [item] db db' := by
  unfold insertCandidate at inserted
  split at inserted
  · cases inserted
  · split at inserted
    · rename_i candidates stored
      obtain ⟨fresh, rfl⟩ := Table.insert?_eq_some.mp stored
      cases inserted
      have rows : ∀ row, row ∈ (db.candidates.upsert (newCandidate runId item.2 item.1)).rows ↔
          row ∈ db.candidates.rows ∨ row = newCandidate runId item.2 item.1 := by
        intro row
        rw [Table.mem_upsert, or_comm]
        refine or_congr_left (and_iff_left_of_imp fun member same => ?_)
        exact fresh (same ▸ Table.mem_keys_of_mem member)
      unfold declareCapacity
      cases account : item.1.accountId with
      | none =>
        refine ⟨fun row => ?_, fun row member => Or.inl member, fun other => ?_, rfl, rfl, rfl, rfl,
          rfl, rfl⟩
        · simpa using rows row
        · simp [account]
      | some accountId =>
        refine ⟨fun row => ?_, fun row member => ?_, fun other => ?_, rfl, rfl, rfl, rfl, rfl, rfl⟩
        · simpa using rows row
        · rcases Table.mem_upsert.mp member with rfl | ⟨old, _⟩
          · exact Or.inr ⟨item, by simp, account, rfl⟩
          · exact Or.inl old
        · simp [Table.mem_keys_upsert, account, eq_comm]
    · cases inserted

theorem insertCandidates_ok {items : List (SchedulingCandidateInput × Nat)}
    (inserted : items.foldlM (insertCandidate runId) db = .ok db') :
    Inserted runId items db db' := by
  induction items generalizing db with
  | nil =>
    cases inserted
    exact ⟨fun row => by simp, fun row member => Or.inl member, fun accountId => by simp, rfl, rfl,
      rfl, rfl, rfl, rfl⟩
  | cons item items ih =>
    obtain ⟨middle, first, rest⟩ := foldlM_cons_eq_ok.mp inserted
    have head := insertCandidate_ok first
    have tail := ih rest
    refine ⟨fun row => ?_, fun row member => ?_, fun accountId => ?_,
      tail.schedules.trans head.schedules,
      tail.queue.trans head.queue, tail.attempts.trans head.attempts,
      tail.leases.trans head.leases, tail.questions.trans head.questions,
      tail.drawn.trans head.drawn⟩
    · rw [tail.candidates, head.candidates, List.exists_mem_cons_iff, or_assoc]
      simp
    · rcases tail.capacities row member with before | ⟨item', listed, facts⟩
      · rcases head.capacities row before with old | ⟨item', listed, facts⟩
        · exact Or.inl old
        · rw [List.mem_singleton.mp listed] at facts
          exact Or.inr ⟨item, List.mem_cons_self, facts⟩
      · exact Or.inr ⟨item', List.mem_cons_of_mem item listed, facts⟩
    · rw [tail.declared, head.declared, List.exists_mem_cons_iff, or_assoc]
      simp

/-- A created schedule: its rows are new, and the loop over the indexes queues some of them. -/
structure Created (now : Int) (input : CreateExecutionScheduleInput) (db db' : SchedulingDatabase) :
    Prop where
  valid : validCreation input = .ok ()
  fresh : input.runId ∉ db.schedules.keys
  inserted : ∃ middle, Inserted input.runId input.candidates.zipIdx
      { db with schedules :=
        db.schedules.upsert (newSchedule input (input.requestedPriority.getD 0)) }
      middle ∧
    db' = (enqueueEach middle input.runId (input.requestedPriority.getD 0) now
      (enqueuedIndexes input)).2

theorem createExecutionSchedule_ok {input : CreateExecutionScheduleInput}
    (created : createExecutionSchedule db now input = .ok (schedule, db')) :
    Created now input db db' := by
  obtain ⟨⟨⟩, valid, created⟩ := bind_eq_ok.mp created
  obtain ⟨scheduled, first, created⟩ := bind_eq_ok.mp created
  obtain ⟨middle, candidates, created⟩ := bind_eq_ok.mp created
  obtain ⟨read, _, result⟩ := bind_eq_ok.mp created
  cases result
  unfold insertSchedule at first
  split at first
  · cases first
  · split at first
    · rename_i schedules stored
      obtain ⟨fresh, rfl⟩ := Table.insert?_eq_some.mp stored
      cases first
      exact ⟨valid, fresh, middle, insertCandidates_ok candidates, rfl⟩
    · cases first

/-- The rows a claim looks at are joined from the stored ones. -/
structure Joined (db : SchedulingDatabase) (row : QueueRow) : Prop where
  entry : row.entry ∈ db.queue.rows
  candidate : db.candidates.find? (row.entry.runId, row.entry.candidateIndex) = some row.candidate
  schedule : db.schedules.find? row.entry.runId = some row.schedule
  candidateQueued : row.candidate.state = .queued
  scheduleQueued : row.schedule.state = .queued
  maximum : row.maxConcurrentRuns = claimMaximum db row.entry row.candidate

theorem mem_claimRows (listed : row ∈ claimRows db accountId) : Joined db row := by
  obtain ⟨entry, member, joined⟩ := List.mem_filterMap.mp listed
  obtain ⟨candidate, foundCandidate, joined⟩ := Option.bind_eq_some_iff.mp joined
  obtain ⟨schedule, foundSchedule, joined⟩ := Option.bind_eq_some_iff.mp joined
  split at joined
  · rename_i states
    cases joined
    exact ⟨member, foundCandidate, foundSchedule, states.1, states.2.1, rfl⟩
  · cases joined

theorem firstInOrder_mem {rows : List QueueRow} (first : firstInOrder now rows = some row) :
    row ∈ rows :=
  (List.mem_insertionSort _).mp (List.mem_of_mem_head? first)

theorem accountHeads_mem {rows : List QueueRow} (head : row ∈ accountHeads now rows) :
    row ∈ rows := by
  obtain ⟨accountId, _, first⟩ := List.mem_filterMap.mp head
  exact List.mem_of_mem_filter (firstInOrder_mem first)

theorem selectRow_mem {available : List QueueRow} (selected : selectRow now available = some row) :
    row ∈ available := by
  have kept : ∀ (rows : List QueueRow) (earliest : EarliestTable),
      ∀ row ∈ (rows.foldl keepEarliest earliest).rows, row ∈ earliest.rows ∨ row ∈ rows := by
    intro rows
    induction rows with
    | nil => exact fun earliest row member => Or.inl member
    | cons first rows ih =>
      intro earliest row member
      have stored : ∀ row ∈ (keepEarliest earliest first).rows, row ∈ earliest.rows ∨
          row = first := by
        intro row member
        have put : row ∈ (earliest.upsert first).rows → row ∈ earliest.rows ∨ row = first := by
          intro member
          exact (Table.mem_upsert.mp member).symm.imp And.left id
        unfold keepEarliest at member
        split at member
        · exact put member
        · split at member
          · exact put member
          · exact Or.inl member
      rcases ih _ row member with before | later
      · rcases stored row before with old | rfl
        · exact Or.inl old
        · exact Or.inr List.mem_cons_self
      · exact Or.inr (List.mem_cons_of_mem first later)
  rcases kept available .empty row (firstInOrder_mem selected) with impossible | listed
  · exact absurd impossible List.not_mem_nil
  · exact listed

theorem weighHeads_invariant {P : SchedulingDatabase → List QueueRow → Prop} (initial : P db [])
    (available : ∀ head, Joined db head → ∀ before rows, P before rows →
      (activeLeases before head.entry.accountId now : Int) < head.maxConcurrentRuns →
        P before (rows ++ [head]))
    (asked : ∀ head ∈ accountHeads now (claimRows db accountId), Joined db head →
      ∀ before rows, P before rows →
        ¬ (activeLeases before head.entry.accountId now : Int) < head.maxConcurrentRuns →
          head.schedule.capacityPolicy = .ask → P (askUser before head) rows) :
    P (weighHeads db now accountId).1 (weighHeads db now accountId).2 := by
  unfold weighHeads
  have joined : ∀ head ∈ accountHeads now (claimRows db accountId), Joined db head :=
    fun head listed => mem_claimRows (accountHeads_mem listed)
  generalize accountHeads now (claimRows db accountId) = heads at joined asked ⊢
  suffices folded : ∀ (heads' : List QueueRow), (∀ head ∈ heads', head ∈ heads) →
      ∀ weighed : SchedulingDatabase × List QueueRow, P weighed.1 weighed.2 →
        P (heads'.foldl (weighHead now) weighed).1 (heads'.foldl (weighHead now) weighed).2 from
    folded heads (fun _ listed => listed) (db, []) initial
  intro heads'
  induction heads' with
  | nil => exact fun _ weighed holds => holds
  | cons head rest ih =>
    intro contained weighed holds
    have listed := contained head List.mem_cons_self
    refine ih (fun other inRest => contained other (List.mem_cons_of_mem head inRest)) _ ?_
    unfold weighHead
    split
    · rename_i below
      exact available head (joined head listed) _ _ holds below
    · rename_i full
      split
      · rename_i ask
        exact asked head listed (joined head listed) _ _ holds full ask
      · exact holds

/-- Weighing leaves every table but the schedules, the queue and the questions. -/
theorem weighHeads_frame : (weighHeads db now accountId).1.candidates = db.candidates ∧
      (weighHeads db now accountId).1.capacities = db.capacities ∧
      (weighHeads db now accountId).1.attempts = db.attempts ∧
      (weighHeads db now accountId).1.leases = db.leases :=
  weighHeads_invariant
    (P := fun after _ => after.candidates = db.candidates ∧ after.capacities = db.capacities ∧
      after.attempts = db.attempts ∧ after.leases = db.leases)
    ⟨rfl, rfl, rfl, rfl⟩ (fun _ _ _ _ holds _ => holds) fun _ _ _ _ _ holds _ _ => holds

theorem weighHeads_keys : (weighHeads db now accountId).1.schedules.keys = db.schedules.keys :=
  weighHeads_invariant (P := fun after _ => after.schedules.keys = db.schedules.keys) rfl
    (fun _ _ _ _ holds _ => holds)
    fun _ _ _ _ _ holds _ _ => (Table.keys_modify awaitUser_runId).trans holds

theorem weighHeads_available : ∀ row ∈ (weighHeads db now accountId).2, Joined db row ∧
      (activeLeases db row.entry.accountId now : Int) < row.maxConcurrentRuns := by
  refine (weighHeads_invariant
    (P := fun after rows => after.leases = db.leases ∧ ∀ row ∈ rows, Joined db row ∧
      (activeLeases db row.entry.accountId now : Int) < row.maxConcurrentRuns)
    ⟨rfl, by simp⟩ ?_ fun _ _ _ _ _ holds _ _ => holds).2
  intro head joined before rows holds below
  refine ⟨holds.1, fun row listed => ?_⟩
  rcases List.mem_append.mp listed with earlier | last
  · exact holds.2 row earlier
  · rw [List.mem_singleton.mp last]
    refine ⟨joined, ?_⟩
    unfold activeLeases at below ⊢
    rwa [holds.1] at below

/-- The conditions under which an attempt can be inserted. -/
structure Admits (db : SchedulingDatabase) (attempt : ExecutionAttempt) : Prop where
  first : ∀ row ∈ db.attempts.rows,
    ¬ (row.runId = attempt.runId ∧ row.candidateIndex = attempt.candidateIndex)
  scheduled : attempt.runId ∈ db.schedules.keys
  candidate : (attempt.runId, attempt.candidateIndex) ∈ db.candidates.keys
  fresh : attempt.attemptId ∉ db.attempts.keys

theorem insertAttempt_ok {attempt : ExecutionAttempt} :
    insertAttempt db attempt = .ok db' ↔
      Admits db attempt ∧ db' = { db with attempts := db.attempts.upsert attempt } := by
  unfold insertAttempt
  constructor
  · intro inserted
    split at inserted
    · cases inserted
    · rename_i first
      split at inserted
      · cases inserted
      · rename_i keys
        rw [not_or, not_not, not_not] at keys
        split at inserted
        · rename_i attempts stored
          obtain ⟨fresh, rfl⟩ := Table.insert?_eq_some.mp stored
          cases inserted
          refine ⟨⟨fun row member clash => first ?_, keys.1, keys.2, fresh⟩, rfl⟩
          exact List.any_eq_true.mpr ⟨row, member, decide_eq_true clash⟩
        · cases inserted
  · rintro ⟨admits, rfl⟩
    have first : ¬ (db.attempts.rows.any fun row => decide (row.runId = attempt.runId ∧
        row.candidateIndex = attempt.candidateIndex)) = true := by
      intro clash
      obtain ⟨row, member, same⟩ := List.any_eq_true.mp clash
      exact admits.first row member (of_decide_eq_true same)
    have keys : ¬ (attempt.runId ∉ db.schedules.keys ∨
        (attempt.runId, attempt.candidateIndex) ∉ db.candidates.keys) := by
      rw [not_or, not_not, not_not]
      exact ⟨admits.scheduled, admits.candidate⟩
    rw [if_neg first, if_neg keys, Table.insert?_eq_some.mpr ⟨admits.fresh, rfl⟩]

theorem storeLeases_ok {leases : Table AccountConcurrencyLease.leaseId} :
    storeLeases db leases = .ok db' ↔
      oneActivePerAttempt leases = true ∧ db' = { db with leases := leases } := by
  unfold storeLeases
  split
  · rename_i unique
    simp [unique, eq_comm]
  · rename_i clash
    simp [clash]

theorem insertLease_ok {lease : AccountConcurrencyLease} :
    insertLease db lease = .ok db' ↔
      lease.attemptId ∈ db.attempts.keys ∧
        (lease.runId, lease.candidateIndex) ∈ db.candidates.keys ∧
        lease.leaseId ∉ db.leases.keys ∧ oneActivePerAttempt (db.leases.upsert lease) = true ∧
        db' = { db with leases := db.leases.upsert lease } := by
  unfold insertLease
  by_cases attempt : lease.attemptId ∈ db.attempts.keys
  · by_cases candidate : (lease.runId, lease.candidateIndex) ∈ db.candidates.keys
    · rw [if_neg (by simp [attempt, candidate])]
      unfold Table.insert?
      by_cases taken : lease.leaseId ∈ db.leases.keys
      · simp [taken]
      · simp only [taken, if_false, storeLeases_ok]
        simp [attempt, candidate]
    · simp [candidate]
  · simp [attempt]

theorem grantSelected_ok {ownerId : String} {expiresAt : Int} {selected : QueueRow}
    {claim : SchedulingClaim} :
    grantSelected db ownerId expiresAt selected = .ok (claim, db') ↔
      Admits db (claimedAttempt db.drawn selected) ∧ db.drawn + 1 ∉ db.leases.keys ∧
        oneActivePerAttempt (db.leases.upsert
          (claimedLease db.drawn (db.drawn + 1) ownerId expiresAt selected)) = true ∧
        claim = schedulingClaim db.drawn expiresAt selected ∧
        db' = granted db ownerId expiresAt selected := by
  unfold grantSelected
  simp only [bind_eq_ok, insertAttempt_ok, insertLease_ok]
  constructor
  · rintro ⟨_, ⟨admits, rfl⟩, _, ⟨_, _, fresh, unique, rfl⟩, result⟩
    cases result
    have kept : Admits db (claimedAttempt db.drawn selected) :=
      ⟨admits.first, admits.scheduled, by
        simpa [dropFromQueue] using admits.candidate, admits.fresh⟩
    exact ⟨kept, fresh, unique, rfl, rfl⟩
  · rintro ⟨admits, fresh, unique, rfl, rfl⟩
    refine ⟨_, ⟨⟨admits.first, admits.scheduled, ?_, admits.fresh⟩, rfl⟩, _,
      ⟨?_, ?_, fresh, unique, rfl⟩, rfl⟩
    · simpa [dropFromQueue] using admits.candidate
    · exact Table.mem_keys_upsert.mpr (Or.inr rfl)
    · simpa [dropFromQueue, claimedLease, claimedAttempt] using admits.candidate

theorem claimNextExecutionCandidate_ok {input : ClaimInput} {claim : Option SchedulingClaim}
    (claimed : claimNextExecutionCandidate db now input = .ok (claim, db')) :
    (claim = none ∧
      selectRow now (weighHeads (expireOrphanLeases db now) now input.accountId).2 = none ∧
      db' = (weighHeads (expireOrphanLeases db now) now input.accountId).1) ∨
      ∃ selected, selectRow now
          (weighHeads (expireOrphanLeases db now) now input.accountId).2 = some selected ∧
        grantSelected (weighHeads (expireOrphanLeases db now) now input.accountId).1 input.ownerId
          (now + input.leaseTtlMs.getD defaultLeaseTtlMs) selected =
            .ok (schedulingClaim
              (weighHeads (expireOrphanLeases db now) now input.accountId).1.drawn
              (now + input.leaseTtlMs.getD defaultLeaseTtlMs) selected, db') ∧
        claim = some (schedulingClaim
          (weighHeads (expireOrphanLeases db now) now input.accountId).1.drawn
          (now + input.leaseTtlMs.getD defaultLeaseTtlMs) selected) := by
  unfold claimNextExecutionCandidate at claimed
  simp only at claimed
  split at claimed
  · cases claimed
  · split at claimed
    · rename_i nothing
      cases claimed
      exact Or.inl ⟨rfl, nothing, rfl⟩
    · rename_i selected chosen
      obtain ⟨⟨granting, after⟩, granted, result⟩ := bind_eq_ok.mp claimed
      cases result
      have facts := grantSelected_ok.mp granted
      rw [facts.2.2.2.1] at granted ⊢
      exact Or.inr ⟨selected, chosen, granted, rfl⟩

def Amended (db db' : SchedulingDatabase) : Prop :=
  ∃ attempt amended, db.attempts.find? attempt.attemptId = some attempt ∧
    attempt.status.ongoing = true ∧ amended.status.ongoing = true ∧
    amended.attemptId = attempt.attemptId ∧ amended.runId = attempt.runId ∧
    amended.candidateIndex = attempt.candidateIndex ∧
    db' = { db with attempts := db.attempts.upsert amended }

theorem amendAttempt_ok {ready : ExecutionAttempt → Bool}
    {change : ExecutionAttempt → ExecutionAttempt} {message : String}
    (amended : amendAttempt db attemptId ready change message = .ok db')
    (prepared : ∀ attempt, ready attempt = true → attempt.status = .queued)
    (ongoing : ∀ attempt, ready attempt = true → (change attempt).status.ongoing = true)
    (keeps : ∀ attempt, (change attempt).attemptId = attempt.attemptId ∧
      (change attempt).runId = attempt.runId ∧
        (change attempt).candidateIndex = attempt.candidateIndex) :
    Amended db db' := by
  unfold amendAttempt at amended
  split at amended
  · rename_i attempt found
    split at amended
    · rename_i holds
      cases amended
      have key := Table.key_of_find? found
      refine ⟨attempt, change attempt, key.symm ▸ found, ?_, ongoing attempt holds,
        (keeps attempt).1, (keeps attempt).2.1, (keeps attempt).2.2, rfl⟩
      rw [prepared attempt holds]
      rfl
    · cases amended
  · cases amended

theorem assignAttemptWorkspace_ok {workspaceId : String}
    (assigned : assignAttemptWorkspace db attemptId workspaceId = .ok db') : Amended db db' := by
  refine amendAttempt_ok assigned ?_ ?_ fun _ => ⟨rfl, rfl, rfl⟩
  · intro attempt holds
    simp only [Bool.and_eq_true, decide_eq_true_eq] at holds
    exact holds.1
  · intro attempt holds
    simp only [Bool.and_eq_true, decide_eq_true_eq] at holds
    simp only [holds.1]
    rfl

theorem updateAttemptLimits_ok {limits : String}
    (updated : updateAttemptLimits db attemptId limits = .ok db') : Amended db db' := by
  refine amendAttempt_ok updated ?_ ?_ fun _ => ⟨rfl, rfl, rfl⟩
  · exact fun attempt holds => of_decide_eq_true holds
  · intro attempt holds
    simp only [of_decide_eq_true holds]
    rfl

theorem recordAttemptReadonlyBaseline_ok {baseline : String}
    (recorded : recordAttemptReadonlyBaseline db attemptId baseline = .ok db') :
    Amended db db' := by
  refine amendAttempt_ok recorded ?_ ?_ fun _ => ⟨rfl, rfl, rfl⟩
  · intro attempt holds
    simp only [Bool.and_eq_true, decide_eq_true_eq] at holds
    exact holds.1
  · intro attempt holds
    simp only [Bool.and_eq_true, decide_eq_true_eq] at holds
    simp only [holds.1]
    rfl

theorem startExecutionAttempt_ok {backendExecutionId : String}
    (started : startExecutionAttempt db attemptId backendExecutionId = .ok db') :
    Amended db db' := by
  obtain ⟨after, amended, started⟩ := bind_eq_ok.mp started
  split at started
  · cases started
  · cases started
    refine amendAttempt_ok amended ?_ (fun _ _ => rfl) fun _ => ⟨rfl, rfl, rfl⟩
    intro attempt holds
    simp only [Bool.and_eq_true, decide_eq_true_eq] at holds
    exact holds.1

theorem renewAccountLease_ok {input : RenewInput} {grant : LeaseGrant}
    (renewed : renewAccountLease db now input = .ok (grant, db')) :
    grant.fencingRevision = input.fencingRevision + 1 ∧
      (∃ lease ∈ (expireOrphanLeases db now).leases.rows, renewable input now lease = true) ∧
      ∃ expiresAt, db' =
        { expireOrphanLeases db now with
          leases := (expireOrphanLeases db now).leases.mapAll (renewedLease input now expiresAt)
            (renewedLease_leaseId input now expiresAt) } := by
  unfold renewAccountLease at renewed
  simp only at renewed
  split at renewed
  · rename_i one
    split at renewed
    · cases renewed
      have found := List.countP_pos_iff.mp (Nat.lt_of_lt_of_eq Nat.zero_lt_one one.symm)
      exact ⟨rfl, found, _, rfl⟩
    · cases renewed
  · cases renewed

theorem recoverableLease_ok {lease : AccountConcurrencyLease}
    (found : recoverableLease db attemptId = some lease) :
    lease ∈ db.leases.rows ∧ lease.attemptId = attemptId ∧
      ∃ attempt, db.attempts.find? attemptId = some attempt ∧ attempt.status.ongoing = true := by
  unfold recoverableLease at found
  obtain ⟨attempt, stored, found⟩ := Option.bind_eq_some_iff.mp found
  split at found
  · rename_i ongoing
    refine ⟨List.mem_of_find?_eq_some found, ?_, attempt, stored, ongoing⟩
    simpa using List.find?_some found
  · cases found

/-- A restored lease: the attempt is left or marked, and its lease is active again. -/
structure Restored (now : Int) (input : RestoreInput) (lease : AccountConcurrencyLease)
    (db db' : SchedulingDatabase) : Prop where
  found : recoverableLease db input.attemptId = some lease
  recovered : ∃ middle, (middle = db ∨ Amended db middle) ∧ db' =
    { middle with
      leases := middle.leases.mapAll
        (restoredLease input (now + input.leaseTtlMs.getD defaultLeaseTtlMs)
          (lease.fencingRevision + 1))
        (restoredLease_leaseId input _ _) }

theorem recoverAttempt_amended {input : RestoreInput} {attempt : ExecutionAttempt}
    (found : db.attempts.find? input.attemptId = some attempt)
    (ongoing : attempt.status.ongoing = true) :
    recoverAttempt db input = db ∨ Amended db (recoverAttempt db input) := by
  unfold recoverAttempt
  split
  · exact Or.inl rfl
  · refine Or.inr ⟨attempt, requireRecovery attempt, ?_, ongoing, rfl, rfl, rfl, rfl, ?_⟩
    · exact (Table.key_of_find? found).symm ▸ found
    · rw [Table.modify_eq_upsert found]

theorem restoreAccountLease_ok {input : RestoreInput} {grant : LeaseGrant}
    (restored : restoreAccountLease db now input = .ok (grant, db')) :
    ∃ lease, grant.fencingRevision = lease.fencingRevision + 1 ∧
      Restored now input lease db db' := by
  unfold restoreAccountLease at restored
  split at restored
  · cases restored
  · rename_i lease found
    obtain ⟨after, stored, result⟩ := bind_eq_ok.mp restored
    cases result
    obtain ⟨_, rfl⟩ := storeLeases_ok.mp stored
    obtain ⟨_, _, attempt, present, ongoing⟩ := recoverableLease_ok found
    exact ⟨lease, rfl, found, recoverAttempt db input, recoverAttempt_amended present ongoing, rfl⟩

/-- What remains of the run of a closed attempt, queued again. -/
abbrev requeued (db : SchedulingDatabase) (now : Int) (input : CompleteInput)
    (attempt : ExecutionAttempt) (requestedPriority : Int) : Bool × SchedulingDatabase :=
  enqueueEach (closeAttempt db input attempt) attempt.runId requestedPriority now
    (remainingIndexes (closeAttempt db input attempt) attempt.runId attempt.candidateIndex)

structure Completed (now : Int) (input : CompleteInput) (attempt : ExecutionAttempt)
    (db db' : SchedulingDatabase) : Prop where
  found : db.attempts.find? input.attemptId = some attempt
  ongoing : attempt.status.ongoing = true
  scheduled : attempt.runId ∈ db.schedules.keys
  settled :
    (∃ requestedPriority, (requeued db now input attempt requestedPriority).1 = true ∧
      db' = moveSchedule (requeued db now input attempt requestedPriority).2 attempt.runId
        requeueSchedule requeueSchedule_runId) ∨
    db' = moveSchedule (closeAttempt db input attempt) attempt.runId terminateSchedule
      terminateSchedule_runId

theorem completeExecutionAttempt_ok {input : CompleteInput} {outcome : CompletionOutcome}
    (completed : completeExecutionAttempt db now input = .ok (outcome, db')) :
    ∃ attempt, Completed now input attempt db db' := by
  unfold completeExecutionAttempt at completed
  split at completed
  · cases completed
  · rename_i attempt schedule found
    obtain ⟨stored, inAttempts, found⟩ := Option.bind_eq_some_iff.mp found
    obtain ⟨row, inSchedules, found⟩ := Option.bind_eq_some_iff.mp found
    split at found
    · rename_i ongoing
      cases found
      refine ⟨attempt, inAttempts, ongoing, Table.find?_isSome.mp (by rw [inSchedules]; rfl), ?_⟩
      by_cases falls : fallsBack input = true
      · simp only [falls, if_true] at completed
        split at completed
        · rename_i queued
          cases completed
          exact Or.inl ⟨schedule.requestedPriority, queued, rfl⟩
        · rename_i notRequeued
          cases completed
          rw [enqueueEach_none (Bool.eq_false_iff.mpr notRequeued)]
          exact Or.inr rfl
      · simp only [falls] at completed
        cases completed
        exact Or.inr rfl
    · cases found

/-- The database after a schedule that was not running has been cancelled. -/
def cancelled (db : SchedulingDatabase) (schedule : ExecutionSchedule)
    (candidate : ExecutionCandidate) : SchedulingDatabase where
  schedules := db.schedules.modify schedule.runId (cancelSchedule db.drawn)
    (cancelSchedule_runId db.drawn)
  candidates := db.candidates.modify (schedule.runId, 0) (settleCandidate .failed)
    (settleCandidate_key .failed)
  capacities := db.capacities
  queue := db.queue.deleteWhere fun entry => entry.runId = schedule.runId
  attempts := db.attempts.upsert (cancelledAttempt db.drawn schedule candidate)
  leases := db.leases
  questions := db.questions
  drawn := db.drawn + 1

theorem cancelQueuedInside_ok : cancelQueuedInside db schedule = .ok db' ↔
      ∃ candidate, db.candidates.find? (schedule.runId, 0) = some candidate ∧
        Admits db (cancelledAttempt db.drawn schedule candidate) ∧
        db' = cancelled db schedule candidate := by
  unfold cancelQueuedInside
  cases found : db.candidates.find? (schedule.runId, 0) with
  | none => simp
  | some candidate =>
    simp only [bind_eq_ok, insertAttempt_ok, Option.some.injEq, exists_eq_left']
    constructor
    · rintro ⟨_, ⟨admits, rfl⟩, result⟩
      cases result
      exact ⟨⟨admits.first, admits.scheduled, admits.candidate, admits.fresh⟩, rfl⟩
    · rintro ⟨admits, rfl⟩
      exact ⟨_, ⟨⟨admits.first, admits.scheduled, admits.candidate, admits.fresh⟩, rfl⟩, rfl⟩

theorem cancelQueuedExecutionSchedule_ok {done : Bool}
    (ran : cancelQueuedExecutionSchedule db runId = .ok (done, db')) :
    ∃ schedule, db.schedules.find? runId = some schedule ∧
      (db' = db ∨ (schedule.state ≠ .terminal ∧ schedule.state ≠ .running ∧
        cancelQueuedInside db schedule = .ok db')) := by
  obtain ⟨schedule, read, ran⟩ := bind_eq_ok.mp ran
  refine ⟨schedule, readExecutionScheduleRequired_ok read, ?_⟩
  split at ran
  · cases ran
    exact Or.inl rfl
  · rename_i unfinished
    split at ran
    · cases ran
    · rename_i notRunning
      obtain ⟨after, cancelled, result⟩ := bind_eq_ok.mp ran
      cases result
      exact Or.inr ⟨unfinished, notRunning, cancelled⟩

/-- An accepted answer that puts a candidate of a waiting schedule back into the queue. -/
def Resumed (now : Int) (schedule : ExecutionSchedule) (candidateIndex : Nat)
    (db db' : SchedulingDatabase) : Prop :=
  ∃ middle, Queues schedule.runId schedule.requestedPriority now candidateIndex db middle ∧
    db' = moveSchedule middle schedule.runId resumeSchedule resumeSchedule_runId

theorem resumeQueued_ok {candidateIndex : Nat}
    (resumed : resumeQueued db now schedule candidateIndex = .ok db') :
    Resumed now schedule candidateIndex db db' := by
  unfold resumeQueued at resumed
  rcases enqueueCandidate_cases db schedule.runId candidateIndex schedule.requestedPriority now with
    same | ⟨middle, moved, queues⟩
  · rw [same] at resumed
    cases resumed
  · rw [moved] at resumed
    cases resumed
    exact ⟨middle, queues, rfl⟩

theorem applyCapacityAnswer_ok {input : CapacityAnswerInput} {outcome : AnswerOutcome}
    (applied : applyCapacityAnswer db now input = .ok (outcome, db')) :
    ∃ schedule, db.schedules.find? input.runId = some schedule ∧
      ((outcome = .stale ∧ db' = db) ∨
        (outcome = .accepted ∧ schedule.state = .waitingOnUser ∧
          schedule.revision = input.expectedRevision ∧
          ((input.answer = .cancel ∧ cancelQueuedInside db schedule = .ok db') ∨
            (input.answer ≠ .cancel ∧ ∃ candidateIndex,
              answeredIndex input.answer = .ok candidateIndex ∧
              Resumed now schedule candidateIndex db db')))) := by
  obtain ⟨schedule, read, applied⟩ := bind_eq_ok.mp applied
  refine ⟨schedule, readExecutionScheduleRequired_ok read, ?_⟩
  split at applied
  · cases applied
    exact Or.inl ⟨rfl, rfl⟩
  · rename_i current
    rw [not_or, not_not, not_not] at current
    split at applied
    · rename_i cancels
      obtain ⟨after, inside, result⟩ := bind_eq_ok.mp applied
      cases result
      exact Or.inr ⟨rfl, current.1, current.2, Or.inl ⟨cancels, inside⟩⟩
    · rename_i resumes
      obtain ⟨candidateIndex, chosen, applied⟩ := bind_eq_ok.mp applied
      obtain ⟨after, queued, result⟩ := bind_eq_ok.mp applied
      cases result
      exact Or.inr ⟨rfl, current.1, current.2, Or.inr ⟨resumes, candidateIndex, chosen,
        resumeQueued_ok queued⟩⟩

theorem pendingQuestion_ok {input : AnswerQuestionInput} {question : CapacityQuestion}
    (pending : pendingQuestion db input = .ok question) :
    db.questions.find? input.runId = some question ∧ question.state = .pending := by
  unfold pendingQuestion at pending
  split at pending
  · rename_i found
    split at pending
    · rename_i facts
      cases pending
      exact ⟨found, facts.2.1⟩
    · cases pending
  · cases pending

/-- The database after an accepted answer has been written into its question. -/
def withAnswer (db : SchedulingDatabase) (input : AnswerQuestionInput)
    (question : CapacityQuestion) : SchedulingDatabase :=
  { db with
    questions := db.questions.upsert (answeredQuestion db input question)
    drawn := db.drawn + 2 }

theorem answerCapacityQuestion_ok {input : AnswerQuestionInput} {outcome : QuestionOutcome}
    (answered : answerCapacityQuestion db now input = .ok (outcome, db')) :
    ∃ question label answer revision middle, pendingQuestion db input = .ok question ∧
      submittedLabel question input.answers = .ok label ∧ chosenAnswer label = .ok answer ∧
      applyCapacityAnswer db now ⟨input.runId, revision, answer⟩ = .ok (.accepted, middle) ∧
      db' = withAnswer middle input question := by
  unfold answerCapacityQuestion at answered
  split at answered
  · cases answered
  · obtain ⟨question, pending, answered⟩ := bind_eq_ok.mp answered
    obtain ⟨label, submitted, answered⟩ := bind_eq_ok.mp answered
    obtain ⟨answer, chosen, answered⟩ := bind_eq_ok.mp answered
    obtain ⟨schedule, _, answered⟩ := bind_eq_ok.mp answered
    obtain ⟨⟨applied, middle⟩, ran, answered⟩ := bind_eq_ok.mp answered
    simp only at answered
    split at answered
    · cases answered
    · rename_i accepted
      rw [not_not] at accepted
      rw [accepted] at ran
      obtain ⟨_, _, result⟩ := bind_eq_ok.mp answered
      cases result
      exact ⟨question, label, answer, schedule.revision, middle, pending, submitted, chosen, ran,
        rfl⟩

end Heniek.SchedulingSteps
