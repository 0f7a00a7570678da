import Heniek.SchedulingSteps

/-!
Runs of the scheduling store: any operations of any owners, one after the other, at any
instants. A failed operation leaves the database as it was. The coherence of the tables,
which every reachable database has, ties attempts to schedules and leases to attempts.
-/

namespace Heniek.SchedulingRuns
open KeyedTable FallibleRun AccountScheduling AttemptSettlement SchedulingSteps

inductive Operation where
  | create (input : CreateExecutionScheduleInput)
  | claim (input : ClaimInput)
  | assignWorkspace (attemptId : Nat) (workspaceId : String)
  | updateLimits (attemptId : Nat) (limits : String)
  | recordBaseline (attemptId : Nat) (baseline : String)
  | startAttempt (attemptId : Nat) (backendExecutionId : String)
  | renew (input : RenewInput)
  | restore (input : RestoreInput)
  | complete (input : CompleteInput)
  | cancel (runId : String)
  | applyAnswer (input : CapacityAnswerInput)
  | answerQuestion (input : AnswerQuestionInput)

inductive Outcome where
  | created (schedule : ExecutionSchedule)
  | claimed (claim : Option SchedulingClaim)
  | done
  | granted (attemptId : Nat) (grant : LeaseGrant)
  | completed (outcome : CompletionOutcome)
  | cancelled (done : Bool)
  | applied (outcome : AnswerOutcome)
  | answered (outcome : QuestionOutcome)

def perform (db : SchedulingDatabase) (now : Int) :
    Operation → SchedulingResult (Outcome × SchedulingDatabase)
  | .create input => (createExecutionSchedule db now input).map fun (row, db) => (.created row, db)
  | .claim input =>
    (claimNextExecutionCandidate db now input).map fun (claim, db) => (.claimed claim, db)
  | .assignWorkspace attemptId workspaceId =>
    (assignAttemptWorkspace db attemptId workspaceId).map fun db => (.done, db)
  | .updateLimits attemptId limits =>
    (updateAttemptLimits db attemptId limits).map fun db => (.done, db)
  | .recordBaseline attemptId baseline =>
    (recordAttemptReadonlyBaseline db attemptId baseline).map fun db => (.done, db)
  | .startAttempt attemptId backendExecutionId =>
    (startExecutionAttempt db attemptId backendExecutionId).map fun db => (.done, db)
  | .renew input =>
    (renewAccountLease db now input).map fun (grant, db) => (.granted input.attemptId grant, db)
  | .restore input =>
    (restoreAccountLease db now input).map fun (grant, db) => (.granted input.attemptId grant, db)
  | .complete input =>
    (completeExecutionAttempt db now input).map fun (outcome, db) => (.completed outcome, db)
  | .cancel runId =>
    (cancelQueuedExecutionSchedule db runId).map fun (done, db) => (.cancelled done, db)
  | .applyAnswer input =>
    (applyCapacityAnswer db now input).map fun (outcome, db) => (.applied outcome, db)
  | .answerQuestion input =>
    (answerCapacityQuestion db now input).map fun (outcome, db) => (.answered outcome, db)

/-- A database with the instant of the last operation and the outcomes of the successful ones. -/
structure SchedulingWorld where
  db : SchedulingDatabase
  clock : Int
  outcomes : List Outcome

def opening (clock : Int) : SchedulingWorld := ⟨emptyScheduling, clock, []⟩

def advance (w : SchedulingWorld) (now : Int) (operation : Operation) : SchedulingWorld :=
  match perform w.db now operation with
  | .ok (outcome, db) => ⟨db, now, w.outcomes ++ [outcome]⟩
  | .error _ => ⟨w.db, now, w.outcomes⟩

def Advances (allowed : SchedulingWorld → Int → Operation → Prop) (w w' : SchedulingWorld) : Prop :=
  ∃ now operation, allowed w now operation ∧ w' = advance w now operation

def ReachableWith (allowed : SchedulingWorld → Int → Operation → Prop) (w : SchedulingWorld) :
    Prop :=
  ∃ clock, Relation.ReflTransGen (Advances allowed) (opening clock) w

/-- Every operation at every instant is allowed. -/
def Reachable (w : SchedulingWorld) : Prop := ReachableWith (fun _ _ _ => True) w

variable {db db' : SchedulingDatabase} {now : Int}

/-- What a successful operation does, by the lemma of each. -/
inductive Performs (now : Int) (db : SchedulingDatabase) :
    Operation → Outcome → SchedulingDatabase → Prop
  | create {input schedule db'} (created : Created now input db db') :
      Performs now db (.create input) (.created schedule) db'
  | claimNothing {input : ClaimInput}
      (nothing :
        selectRow now (weighHeads (expireOrphanLeases db now) now input.accountId).2 = none) :
      Performs now db (.claim input) (.claimed none)
        (weighHeads (expireOrphanLeases db now) now input.accountId).1
  | claim {input : ClaimInput} {selected db'}
      (chosen : selectRow now (weighHeads (expireOrphanLeases db now) now input.accountId).2 =
        some selected)
      (granted : grantSelected (weighHeads (expireOrphanLeases db now) now input.accountId).1
        input.ownerId (now + input.leaseTtlMs.getD defaultLeaseTtlMs) selected =
          .ok (schedulingClaim (weighHeads (expireOrphanLeases db now) now input.accountId).1.drawn
            (now + input.leaseTtlMs.getD defaultLeaseTtlMs) selected, db')) :
      Performs now db (.claim input) (.claimed (some (schedulingClaim
        (weighHeads (expireOrphanLeases db now) now input.accountId).1.drawn
        (now + input.leaseTtlMs.getD defaultLeaseTtlMs) selected))) db'
  | amend {operation db'} (amended : Amended db db') : Performs now db operation .done db'
  | renew {input : RenewInput} {grant : LeaseGrant} {expiresAt : Int}
      (next : grant.fencingRevision = input.fencingRevision + 1)
      (found : ∃ lease ∈ (expireOrphanLeases db now).leases.rows,
        renewable input now lease = true) :
      Performs now db (.renew input) (.granted input.attemptId grant)
        { expireOrphanLeases db now with
          leases := (expireOrphanLeases db now).leases.mapAll (renewedLease input now expiresAt)
            (renewedLease_leaseId input now expiresAt) }
  | restore {input grant lease db'} (next : grant.fencingRevision = lease.fencingRevision + 1)
      (restored : Restored now input lease db db') :
      Performs now db (.restore input) (.granted input.attemptId grant) db'
  | complete {input outcome attempt db'} (completed : Completed now input attempt db db') :
      Performs now db (.complete input) (.completed outcome) db'
  | cancelNothing {runId : String} {done} : Performs now db (.cancel runId) (.cancelled done) db
  | cancel {runId schedule done db'} (found : db.schedules.find? runId = some schedule)
      (unfinished : schedule.state ≠ .terminal) (idle : schedule.state ≠ .running)
      (inside : cancelQueuedInside db schedule = .ok db') :
      Performs now db (.cancel runId) (.cancelled done) db'
  | stale {input : CapacityAnswerInput} : Performs now db (.applyAnswer input) (.applied .stale) db
  | answerCancel {input : CapacityAnswerInput} {schedule db'}
      (found : db.schedules.find? input.runId = some schedule)
      (waiting : schedule.state = .waitingOnUser)
      (current : schedule.revision = input.expectedRevision) (cancels : input.answer = .cancel)
      (inside : cancelQueuedInside db schedule = .ok db') :
      Performs now db (.applyAnswer input) (.applied .accepted) db'
  | answerResume {input : CapacityAnswerInput} {schedule candidateIndex db'}
      (found : db.schedules.find? input.runId = some schedule)
      (waiting : schedule.state = .waitingOnUser)
      (current : schedule.revision = input.expectedRevision) (resumes : input.answer ≠ .cancel)
      (chosen : answeredIndex input.answer = .ok candidateIndex)
      (resumed : Resumed now schedule candidateIndex db db') :
      Performs now db (.applyAnswer input) (.applied .accepted) db'
  | answerQuestion {input : AnswerQuestionInput} {question label answer revision outcome db'}
      (pending : pendingQuestion db input = .ok question)
      (submitted : submittedLabel question input.answers = .ok label)
      (chosen : chosenAnswer label = .ok answer)
      (applied : Performs now db (.applyAnswer ⟨input.runId, revision, answer⟩)
        (.applied .accepted) db') :
      Performs now db (.answerQuestion input) (.answered outcome) (withAnswer db' input question)

theorem applyAnswer_performs {input : CapacityAnswerInput} {outcome : AnswerOutcome}
    (applied : applyCapacityAnswer db now input = .ok (outcome, db')) :
    Performs now db (.applyAnswer input) (.applied outcome) db' := by
  obtain ⟨schedule, found, result⟩ := applyCapacityAnswer_ok applied
  rcases result with ⟨rfl, rfl⟩ | ⟨rfl, waiting, current, answered⟩
  · exact .stale
  · rcases answered with ⟨cancels, inside⟩ | ⟨resumes, index, chosen, resumed⟩
    · exact .answerCancel found waiting current cancels inside
    · exact .answerResume found waiting current resumes chosen resumed

theorem perform_performs {operation : Operation} {outcome : Outcome}
    (performed : perform db now operation = .ok (outcome, db')) :
    Performs now db operation outcome db' := by
  cases operation with
  | create input =>
    obtain ⟨⟨schedule, after⟩, ran, result⟩ := map_eq_ok.mp performed
    cases result
    exact .create (createExecutionSchedule_ok ran)
  | claim input =>
    obtain ⟨⟨claim, after⟩, ran, result⟩ := map_eq_ok.mp performed
    cases result
    rcases claimNextExecutionCandidate_ok ran with
      ⟨rfl, nothing, rfl⟩ | ⟨selected, chosen, granted, rfl⟩
    · exact .claimNothing nothing
    · exact .claim chosen granted
  | assignWorkspace attemptId workspaceId =>
    obtain ⟨after, ran, result⟩ := map_eq_ok.mp performed
    cases result
    exact .amend (assignAttemptWorkspace_ok ran)
  | updateLimits attemptId limits =>
    obtain ⟨after, ran, result⟩ := map_eq_ok.mp performed
    cases result
    exact .amend (updateAttemptLimits_ok ran)
  | recordBaseline attemptId baseline =>
    obtain ⟨after, ran, result⟩ := map_eq_ok.mp performed
    cases result
    exact .amend (recordAttemptReadonlyBaseline_ok ran)
  | startAttempt attemptId backendExecutionId =>
    obtain ⟨after, ran, result⟩ := map_eq_ok.mp performed
    cases result
    exact .amend (startExecutionAttempt_ok ran)
  | renew input =>
    obtain ⟨⟨grant, after⟩, ran, result⟩ := map_eq_ok.mp performed
    cases result
    obtain ⟨next, found, expiresAt, rfl⟩ := renewAccountLease_ok ran
    exact .renew next found
  | restore input =>
    obtain ⟨⟨grant, after⟩, ran, result⟩ := map_eq_ok.mp performed
    cases result
    obtain ⟨lease, next, restored⟩ := restoreAccountLease_ok ran
    exact .restore next restored
  | complete input =>
    obtain ⟨⟨completion, after⟩, ran, result⟩ := map_eq_ok.mp performed
    cases result
    obtain ⟨attempt, completed⟩ := completeExecutionAttempt_ok ran
    exact .complete completed
  | cancel runId =>
    obtain ⟨⟨done, after⟩, ran, result⟩ := map_eq_ok.mp performed
    cases result
    obtain ⟨schedule, found, rfl | ⟨unfinished, idle, inside⟩⟩ :=
      cancelQueuedExecutionSchedule_ok ran
    · exact .cancelNothing
    · exact .cancel found unfinished idle inside
  | applyAnswer input =>
    obtain ⟨⟨applied, after⟩, ran, result⟩ := map_eq_ok.mp performed
    cases result
    exact applyAnswer_performs ran
  | answerQuestion input =>
    obtain ⟨⟨answered, after⟩, ran, result⟩ := map_eq_ok.mp performed
    cases result
    obtain ⟨question, label, answer, revision, middle, pending, submitted, chosen, applied, rfl⟩ :=
      answerCapacityQuestion_ok ran
    exact .answerQuestion pending submitted chosen (applyAnswer_performs applied)

def leasedAttempts (db : SchedulingDatabase) : List Nat :=
  db.leases.rows.map AccountConcurrencyLease.attemptId

def triedCandidates (db : SchedulingDatabase) : List (String × Nat) :=
  db.attempts.rows.map fun attempt => (attempt.runId, attempt.candidateIndex)

/-- An ongoing attempt is the current one of its running schedule. -/
def Current (db : SchedulingDatabase) : Prop :=
  ∀ attempt ∈ db.attempts.rows, attempt.status.ongoing = true →
    ∀ schedule ∈ db.schedules.rows, schedule.runId = attempt.runId →
      schedule.state = .running ∧ schedule.currentAttemptId = some attempt.attemptId

structure Coherent (db : SchedulingDatabase) : Prop where
  scheduled : ∀ key ∈ db.candidates.keys, key.1 ∈ db.schedules.keys
  primary : ∀ runId ∈ db.schedules.keys, (runId, 0) ∈ db.candidates.keys
  tried : ∀ key ∈ triedCandidates db, key ∈ db.candidates.keys
  attemptsDrawn : ∀ attemptId ∈ db.attempts.keys, attemptId < db.drawn
  leasesDrawn : ∀ leaseId ∈ db.leases.keys, leaseId < db.drawn
  leased : ∀ attemptId ∈ leasedAttempts db, attemptId ∈ db.attempts.keys
  single : (leasedAttempts db).Nodup
  current : Current db

theorem coherent_empty : Coherent emptyScheduling where
  scheduled := by simp [emptyScheduling]
  primary := by simp [emptyScheduling]
  tried := by simp [triedCandidates, emptyScheduling, Table.empty]
  attemptsDrawn := by simp [emptyScheduling]
  leasesDrawn := by simp [emptyScheduling]
  leased := by simp [leasedAttempts, emptyScheduling, Table.empty]
  single := by simp [leasedAttempts, emptyScheduling, Table.empty]
  current := by simp [Current, emptyScheduling, Table.empty]

theorem Coherent.keep (coherent : Coherent db)
    (schedules : db'.schedules.keys = db.schedules.keys)
    (candidates : db'.candidates.keys = db.candidates.keys)
    (attempts : db'.attempts.keys = db.attempts.keys)
    (tried : ∀ key ∈ triedCandidates db', key ∈ triedCandidates db)
    (leases : db'.leases.keys = db.leases.keys)
    (leased : leasedAttempts db' = leasedAttempts db) (drawn : db.drawn ≤ db'.drawn)
    (current : Current db') : Coherent db' where
  scheduled := by
    rw [candidates, schedules]
    exact coherent.scheduled
  primary := by
    rw [candidates, schedules]
    exact coherent.primary
  tried := by
    rw [candidates]
    exact fun key member => coherent.tried key (tried key member)
  attemptsDrawn := by
    rw [attempts]
    exact fun attemptId member => (coherent.attemptsDrawn attemptId member).trans_le drawn
  leasesDrawn := by
    rw [leases]
    exact fun leaseId member => (coherent.leasesDrawn leaseId member).trans_le drawn
  leased := by
    rw [leased, attempts]
    exact coherent.leased
  single := by
    rw [leased]
    exact coherent.single
  current := current

theorem Coherent.mapLeases (coherent : Coherent db)
    {change : AccountConcurrencyLease → AccountConcurrencyLease}
    {keeps : ∀ lease, (change lease).leaseId = lease.leaseId}
    (attempt : ∀ lease, (change lease).attemptId = lease.attemptId) :
    Coherent { db with leases := db.leases.mapAll change keeps } := by
  refine coherent.keep rfl rfl rfl (fun _ member => member) (Table.keys_mapAll keeps) ?_ le_rfl
    coherent.current
  simp only [leasedAttempts, Table.mapAll, List.map_map]
  exact List.map_congr_left fun lease _ => attempt lease

theorem expiredLease_attemptId (lease : AccountConcurrencyLease) :
    (expiredLease db now lease).attemptId = lease.attemptId := by
  unfold expiredLease
  split <;> rfl

theorem Coherent.expire (coherent : Coherent db) : Coherent (expireOrphanLeases db now) :=
  coherent.mapLeases expiredLease_attemptId

theorem renewedLease_attemptId {input : RenewInput} {expiresAt : Int}
    (lease : AccountConcurrencyLease) :
    (renewedLease input now expiresAt lease).attemptId = lease.attemptId := by
  unfold renewedLease
  split <;> rfl

theorem restoredLease_attemptId {input : RestoreInput} {expiresAt : Int} {revision : Nat}
    (lease : AccountConcurrencyLease) :
    (restoredLease input expiresAt revision lease).attemptId = lease.attemptId := by
  unfold restoredLease
  split <;> rfl

theorem releasedLease_attemptId {attemptId : Nat} (lease : AccountConcurrencyLease) :
    (releasedLease attemptId lease).attemptId = lease.attemptId := by
  unfold releasedLease
  split <;> rfl

theorem Coherent.ask (coherent : Coherent db) (head : QueueRow) : Coherent (askUser db head) := by
  refine coherent.keep (Table.keys_modify awaitUser_runId) rfl rfl (fun _ member => member) rfl rfl
    (Nat.le_add_right _ 2) ?_
  intro attempt stored ongoing schedule member same
  obtain ⟨before, listed, rfl⟩ : ∃ before ∈ db.schedules.rows, (if before.runId = head.entry.runId
    then awaitUser before else before) = schedule := List.mem_map.mp member
  have running := coherent.current attempt stored ongoing before listed (by
    split at same
    · exact (awaitUser_runId before).symm.trans same
    · exact same)
  have unasked : awaitUser before = before := by
    unfold awaitUser
    rw [if_neg (by simp [running.1])]
  rw [unasked, ite_self]
  exact running

def Idle (db : SchedulingDatabase) (runId : String) : Prop :=
  ∀ attempt ∈ db.attempts.rows, attempt.runId = runId → attempt.status.ongoing = false

theorem Coherent.idle (coherent : Coherent db) {runId : String} {schedule : ExecutionSchedule}
    (found : db.schedules.find? runId = some schedule) (still : schedule.state ≠ .running) :
    Idle db runId := by
  intro attempt stored same
  rw [← Bool.not_eq_true]
  intro ongoing
  obtain ⟨member, key⟩ := Table.find?_eq_some.mp found
  exact still (coherent.current attempt stored ongoing schedule member (key.trans same.symm)).1

theorem mem_moveSchedule {runId : String} {change : ExecutionSchedule → ExecutionSchedule}
    {keeps : ∀ row, (change row).runId = row.runId} {row : ExecutionSchedule} :
    row ∈ (moveSchedule db runId change keeps).schedules.rows ↔
      ∃ before ∈ db.schedules.rows,
        (if before.runId = runId then change before else before) = row :=
  List.mem_map

theorem Current.moveIdle {runId : String} (current : Current db) (idle : Idle db runId)
    {change : ExecutionSchedule → ExecutionSchedule}
    {keeps : ∀ row, (change row).runId = row.runId} :
    Current (moveSchedule db runId change keeps) := by
  intro attempt stored ongoing schedule member same
  obtain ⟨before, listed, rfl⟩ := mem_moveSchedule.mp member
  have other : ¬ before.runId = runId := by
    intro here
    rw [if_pos here, keeps] at same
    exact Bool.false_ne_true ((idle attempt stored (same.symm.trans here)).symm.trans ongoing)
  rw [if_neg other] at same ⊢
  exact current attempt stored ongoing before listed same

theorem Coherent.moveIdle (coherent : Coherent db) {runId : String} (idle : Idle db runId)
    {change : ExecutionSchedule → ExecutionSchedule}
    {keeps : ∀ row, (change row).runId = row.runId} :
    Coherent (moveSchedule db runId change keeps) :=
  coherent.keep (Table.keys_modify keeps) rfl rfl (fun _ member => member) rfl rfl le_rfl
    (coherent.current.moveIdle idle)

theorem Coherent.queues (coherent : Coherent db) {runId : String} {requestedPriority : Int}
    {index : Nat} (queues : Queues runId requestedPriority now index db db') : Coherent db' := by
  obtain ⟨candidate, accountId, found, _, _, rfl⟩ := queues
  have present : (candidate.runId, candidate.candidateIndex) ∈ db.candidates.keys :=
    Table.mem_keys_of_mem (Table.mem_of_find? found)
  exact coherent.keep rfl (Table.keys_upsert_of_mem present) rfl (fun _ member => member) rfl rfl
    le_rfl coherent.current

/-- Queueing leaves every table but the queue and the candidates. -/
theorem enqueueEach_frame {runId : String} {requestedPriority : Int} {indexes : List Nat} :
    (enqueueEach db runId requestedPriority now indexes).2.schedules = db.schedules ∧
      (enqueueEach db runId requestedPriority now indexes).2.capacities = db.capacities ∧
      (enqueueEach db runId requestedPriority now indexes).2.attempts = db.attempts ∧
      (enqueueEach db runId requestedPriority now indexes).2.leases = db.leases ∧
      (enqueueEach db runId requestedPriority now indexes).2.questions = db.questions := by
  refine enqueueEach_invariant (P := fun _ after => after.schedules = db.schedules ∧
    after.capacities = db.capacities ∧ after.attempts = db.attempts ∧ after.leases = db.leases ∧
    after.questions = db.questions) ⟨rfl, rfl, rfl, rfl, rfl⟩ ?_
  rintro _ _ _ _ _ holds ⟨_, _, _, _, _, rfl⟩
  exact holds

theorem Coherent.enqueueEach (coherent : Coherent db) {runId : String} {requestedPriority : Int}
    {indexes : List Nat} :
    Coherent (AccountScheduling.enqueueEach db runId requestedPriority now indexes).2 :=
  enqueueEach_invariant (P := fun _ after => Coherent after) coherent
    fun _ _ _ _ _ holds queues => holds.queues queues

theorem Coherent.amended (coherent : Coherent db) (amends : Amended db db') : Coherent db' := by
  obtain ⟨attempt, amended, found, ongoing, _, sameId, sameRun, sameIndex, rfl⟩ := amends
  have stored := Table.mem_of_find? found
  have present : amended.attemptId ∈ db.attempts.keys :=
    sameId ▸ Table.mem_keys_of_mem stored
  refine coherent.keep rfl rfl (Table.keys_upsert_of_mem present) ?_ rfl rfl le_rfl ?_
  · intro key member
    obtain ⟨row, listed, rfl⟩ := List.mem_map.mp member
    rcases Table.mem_upsert.mp listed with rfl | ⟨old, _⟩
    · exact List.mem_map.mpr ⟨attempt, stored, by rw [sameRun, sameIndex]⟩
    · exact List.mem_map_of_mem old
  · intro row member rowOngoing schedule listed same
    rcases Table.mem_upsert.mp member with rfl | ⟨old, _⟩
    · rw [sameId]
      exact coherent.current attempt stored ongoing schedule listed (same.trans sameRun)
    · exact coherent.current row old rowOngoing schedule listed same

theorem weighHeads_idle {accountId : Option String} {row : QueueRow}
    (available : row ∈ (weighHeads db now accountId).2) {schedule : ExecutionSchedule}
    (member : schedule ∈ (weighHeads db now accountId).1.schedules.rows)
    (same : schedule.runId = row.entry.runId) :
    schedule.state = .queued ∨ schedule.state = .waitingOnUser := by
  have origin : ∀ schedule ∈ (weighHeads db now accountId).1.schedules.rows,
      ∃ before ∈ db.schedules.rows, schedule.runId = before.runId ∧
        (schedule.state = before.state ∨ schedule.state = .waitingOnUser) := by
    refine weighHeads_invariant (P := fun after _ => ∀ schedule ∈ after.schedules.rows,
      ∃ before ∈ db.schedules.rows, schedule.runId = before.runId ∧
        (schedule.state = before.state ∨ schedule.state = .waitingOnUser))
      (fun schedule stored => ⟨schedule, stored, rfl, Or.inl rfl⟩) (fun _ _ _ _ holds _ => holds) ?_
    intro head _ _ before _ holds _ _ schedule stored
    obtain ⟨middle, listed, rfl⟩ : ∃ middle ∈ before.schedules.rows,
      (if middle.runId = head.entry.runId then awaitUser middle else middle) = schedule :=
      List.mem_map.mp stored
    obtain ⟨first, original, key, state⟩ := holds middle listed
    refine ⟨first, original, ?_⟩
    split
    · unfold awaitUser
      split
      · exact ⟨key, Or.inr rfl⟩
      · exact ⟨key, state⟩
    · exact ⟨key, state⟩
  obtain ⟨before, stored, key, state⟩ := origin schedule member
  have joined := (weighHeads_available row available).1
  obtain ⟨listed, rowKey⟩ := Table.find?_eq_some.mp joined.schedule
  have unique := Table.eq_of_key_eq stored listed (key.symm.trans (same.trans rowKey.symm))
  rw [unique, joined.scheduleQueued] at state
  exact state

theorem Coherent.granted (coherent : Coherent db) {ownerId : String} {expiresAt : Int}
    {selected : QueueRow} (admits : Admits db (claimedAttempt db.drawn selected))
    (idle : Idle db selected.entry.runId) :
    Coherent (AccountScheduling.granted db ownerId expiresAt selected) := by
  have candidates : (AccountScheduling.granted db ownerId expiresAt selected).candidates.keys =
      db.candidates.keys := Table.keys_mapAll (claimCandidate_key selected)
  have schedules : (AccountScheduling.granted db ownerId expiresAt selected).schedules.keys =
      db.schedules.keys :=
    Table.keys_modify (runAttempt_runId selected.entry.candidateIndex db.drawn)
  have attempts : ∀ attemptId,
      attemptId ∈ (AccountScheduling.granted db ownerId expiresAt selected).attempts.keys ↔
        attemptId ∈ db.attempts.keys ∨ attemptId = db.drawn := fun _ => Table.mem_keys_upsert
  have unleased : db.drawn ∉ leasedAttempts db := fun member =>
    Nat.lt_irrefl _ (coherent.attemptsDrawn _ (coherent.leased _ member))
  have freshLease : db.drawn + 1 ∉ db.leases.keys := fun member =>
    absurd (coherent.leasesDrawn _ member) (by omega)
  have leased : leasedAttempts (AccountScheduling.granted db ownerId expiresAt selected) =
      leasedAttempts db ++ [db.drawn] := by
    unfold leasedAttempts AccountScheduling.granted
    rw [Table.rows_upsert_of_not_mem freshLease, List.map_append]
    rfl
  refine ⟨?_, ?_, ?_, ?_, ?_, ?_, ?_, ?_⟩
  · rw [candidates, schedules]
    exact coherent.scheduled
  · rw [candidates, schedules]
    exact coherent.primary
  · rw [candidates]
    intro key member
    obtain ⟨row, listed, rfl⟩ := List.mem_map.mp member
    rcases Table.mem_upsert.mp listed with rfl | ⟨old, _⟩
    · exact admits.candidate
    · exact coherent.tried _ (List.mem_map_of_mem old)
  · intro attemptId member
    rcases (attempts attemptId).mp member with old | rfl
    · exact (coherent.attemptsDrawn attemptId old).trans_le (Nat.le_add_right _ 2)
    · exact Nat.lt_add_of_pos_right Nat.two_pos
  · intro leaseId member
    rcases Table.mem_keys_upsert.mp member with old | rfl
    · exact (coherent.leasesDrawn leaseId old).trans_le (Nat.le_add_right _ 2)
    · exact Nat.lt_succ_self _
  · rw [leased]
    intro attemptId member
    rw [attempts]
    rcases List.mem_append.mp member with old | new
    · exact Or.inl (coherent.leased attemptId old)
    · exact Or.inr (List.mem_singleton.mp new)
  · rw [leased, List.nodup_append]
    refine ⟨coherent.single, List.nodup_singleton _, ?_⟩
    intro attemptId old other new
    rw [List.mem_singleton.mp new]
    exact fun clash => unleased (clash ▸ old)
  · intro attempt member ongoing schedule listed same
    obtain ⟨before, stored, rfl⟩ : ∃ before ∈ db.schedules.rows,
      (if before.runId = selected.entry.runId then
        runAttempt selected.entry.candidateIndex db.drawn before else before) = schedule :=
      List.mem_map.mp listed
    rcases Table.mem_upsert.mp member with rfl | ⟨old, _⟩
    · split at same
      · rename_i here
        rw [if_pos here]
        exact ⟨rfl, rfl⟩
      · rename_i elsewhere
        exact absurd same elsewhere
    · have other : ¬ before.runId = selected.entry.runId := by
        intro here
        rw [if_pos here] at same
        exact Bool.false_ne_true ((idle attempt old (same.symm.trans here)).symm.trans ongoing)
      rw [if_neg other] at same ⊢
      exact coherent.current attempt old ongoing before stored same

theorem Coherent.weighed (coherent : Coherent db) {accountId : Option String} :
    Coherent (weighHeads db now accountId).1 :=
  weighHeads_invariant (P := fun after _ => Coherent after) coherent (fun _ _ _ _ holds _ => holds)
    fun head _ _ _ _ holds _ _ => holds.ask head

theorem Coherent.claimed (coherent : Coherent db) {accountId : Option String} {ownerId : String}
    {expiresAt : Int} {selected : QueueRow} {claim : SchedulingClaim}
    (available : selected ∈ (weighHeads db now accountId).2)
    (grants : grantSelected (weighHeads db now accountId).1 ownerId expiresAt selected =
      .ok (claim, db')) : Coherent db' := by
  obtain ⟨admits, _, _, _, rfl⟩ := grantSelected_ok.mp grants
  obtain ⟨schedule, found⟩ := Table.exists_find? admits.scheduled
  obtain ⟨member, key⟩ := Table.find?_eq_some.mp found
  refine coherent.weighed.granted admits (coherent.weighed.idle found ?_)
  rcases weighHeads_idle available member key with state | state
  · simp [state]
  · simp [state]

theorem Coherent.closed (coherent : Coherent db) {input : CompleteInput}
    {attempt : ExecutionAttempt} (found : db.attempts.find? input.attemptId = some attempt) :
    Coherent (closeAttempt db input attempt) ∧
      (attempt.status.ongoing = true → Idle (closeAttempt db input attempt) attempt.runId) := by
  obtain ⟨stored, key⟩ := Table.find?_eq_some.mp found
  have rows : ∀ row ∈ (closeAttempt db input attempt).attempts.rows,
      row = finishedAttempt input attempt ∨
        row ∈ db.attempts.rows ∧ row.attemptId ≠ attempt.attemptId := by
    intro row member
    change row ∈ (db.attempts.modify input.attemptId (finishedAttempt input)
      (finishedAttempt_attemptId input)).rows at member
    rw [Table.modify_eq_upsert found] at member
    exact Table.mem_upsert.mp member
  have finished : (finishedAttempt input attempt).status.ongoing = false := by
    unfold finishedAttempt
    cases input.status <;> rfl
  have closed : Coherent
      { db with
        attempts := db.attempts.modify input.attemptId (finishedAttempt input)
          (finishedAttempt_attemptId input)
        candidates := db.candidates.modify (attempt.runId, attempt.candidateIndex)
          (settleCandidate input.status.candidateState)
          (settleCandidate_key input.status.candidateState) } := by
    refine coherent.keep rfl (Table.keys_modify (settleCandidate_key input.status.candidateState))
      (Table.keys_modify (finishedAttempt_attemptId input)) ?_ rfl rfl le_rfl ?_
    · intro pair member
      obtain ⟨row, listed, rfl⟩ := List.mem_map.mp member
      rcases rows row listed with rfl | ⟨old, _⟩
      · exact List.mem_map.mpr ⟨attempt, stored, rfl⟩
      · exact List.mem_map_of_mem old
    · intro row member ongoing
      rcases rows row member with rfl | ⟨old, _⟩
      · exact absurd (finished.symm.trans ongoing) Bool.false_ne_true
      · exact coherent.current row old ongoing
  refine ⟨closed.mapLeases releasedLease_attemptId, fun wasOngoing row member sameRun => ?_⟩
  rcases rows row member with rfl | ⟨old, different⟩
  · exact finished
  · rw [← Bool.not_eq_true]
    intro ongoing
    obtain ⟨schedule, scheduled⟩ := Table.exists_find?
      (coherent.scheduled _ (coherent.tried _ (List.mem_map_of_mem stored)))
    obtain ⟨listed, named⟩ := Table.find?_eq_some.mp scheduled
    have here := coherent.current attempt stored wasOngoing schedule listed named
    have there := coherent.current row old ongoing schedule listed (named.trans sameRun.symm)
    exact different (Option.some.inj (there.2.symm.trans here.2))

theorem Coherent.completed (coherent : Coherent db) {input : CompleteInput}
    {attempt : ExecutionAttempt} (completes : Completed now input attempt db db') :
    Coherent db' := by
  obtain ⟨closed, idle⟩ := coherent.closed completes.found
  rcases completes.settled with ⟨requestedPriority, _, rfl⟩ | rfl
  · refine closed.enqueueEach.moveIdle fun row member => ?_
    rw [enqueueEach_frame.2.2.1] at member
    exact idle completes.ongoing row member
  · exact closed.moveIdle (idle completes.ongoing)

theorem Coherent.cancelled (coherent : Coherent db) {schedule : ExecutionSchedule}
    (found : db.schedules.find? schedule.runId = some schedule) (still : schedule.state ≠ .running)
    (inside : cancelQueuedInside db schedule = .ok db') : Coherent db' := by
  obtain ⟨candidate, primary, admits, rfl⟩ := cancelQueuedInside_ok.mp inside
  have idle := coherent.idle found still
  have inserted : Coherent
      { db with
        candidates := db.candidates.modify (schedule.runId, 0) (settleCandidate .failed)
          (settleCandidate_key .failed)
        queue := db.queue.deleteWhere fun entry => entry.runId = schedule.runId
        attempts := db.attempts.upsert (cancelledAttempt db.drawn schedule candidate)
        drawn := db.drawn + 1 } := by
    have candidates := Table.keys_modify (t := db.candidates) (k := (schedule.runId, 0))
      (settleCandidate_key .failed)
    refine ⟨?_, ?_, ?_, ?_, ?_, ?_, coherent.single, ?_⟩
    · rw [candidates]
      exact coherent.scheduled
    · rw [candidates]
      exact coherent.primary
    · rw [candidates]
      intro key member
      obtain ⟨row, listed, rfl⟩ := List.mem_map.mp member
      rcases Table.mem_upsert.mp listed with rfl | ⟨old, _⟩
      · exact admits.candidate
      · exact coherent.tried _ (List.mem_map_of_mem old)
    · intro attemptId member
      rcases Table.mem_keys_upsert.mp member with old | rfl
      · exact (coherent.attemptsDrawn attemptId old).trans (Nat.lt_succ_self _)
      · exact Nat.lt_succ_self _
    · exact fun leaseId member => (coherent.leasesDrawn leaseId member).trans (Nat.lt_succ_self _)
    · exact fun attemptId member =>
        Table.mem_keys_upsert.mpr (Or.inl (coherent.leased attemptId member))
    · intro attempt member ongoing
      rcases Table.mem_upsert.mp member with rfl | ⟨old, _⟩
      · cases ongoing
      · exact coherent.current attempt old ongoing
  refine @Coherent.moveIdle _ inserted schedule.runId ?_ (cancelSchedule db.drawn)
    (cancelSchedule_runId db.drawn)
  intro attempt member same
  rcases Table.mem_upsert.mp member with rfl | ⟨old, _⟩
  · rfl
  · exact idle attempt old same

theorem Coherent.resumed (coherent : Coherent db) {schedule : ExecutionSchedule}
    {candidateIndex : Nat} (found : db.schedules.find? schedule.runId = some schedule)
    (waiting : schedule.state = .waitingOnUser)
    (resumes : Resumed now schedule candidateIndex db db') : Coherent db' := by
  obtain ⟨middle, queues, rfl⟩ := resumes
  have idle := coherent.idle found (by simp [waiting])
  refine (coherent.queues queues).moveIdle ?_
  obtain ⟨_, _, _, _, _, rfl⟩ := queues
  exact idle

theorem Coherent.inserted (coherent : Coherent db) {input : CreateExecutionScheduleInput}
    {middle : SchedulingDatabase} (valid : validCreation input = .ok ())
    (fresh : input.runId ∉ db.schedules.keys)
    (inserted : Inserted input.runId input.candidates.zipIdx
      { db with schedules :=
        db.schedules.upsert (newSchedule input (input.requestedPriority.getD 0)) }
      middle) : Coherent middle := by
  have schedules : ∀ runId, runId ∈ middle.schedules.keys ↔
      runId ∈ db.schedules.keys ∨ runId = input.runId := by
    intro runId
    rw [inserted.schedules]
    exact Table.mem_keys_upsert
  have candidates : ∀ key, key ∈ middle.candidates.keys ↔ key ∈ db.candidates.keys ∨
      ∃ item ∈ input.candidates.zipIdx, key = (input.runId, item.2) := by
    intro key
    simp only [Table.keys, List.mem_map, inserted.candidates, or_and_right, exists_or]
    refine or_congr Iff.rfl ⟨?_, ?_⟩
    · rintro ⟨row, ⟨item, listed, rfl⟩, rfl⟩
      exact ⟨item, listed, rfl⟩
    · rintro ⟨item, listed, rfl⟩
      exact ⟨_, ⟨item, listed, rfl⟩, rfl⟩
  have nonempty : input.candidates ≠ [] := by
    intro none
    simp [validCreation] at valid
    split at valid <;> cases valid
  refine ⟨?_, ?_, ?_, ?_, ?_, ?_, ?_, ?_⟩
  · intro key member
    rw [schedules]
    rcases (candidates key).mp member with old | ⟨item, _, rfl⟩
    · exact Or.inl (coherent.scheduled key old)
    · exact Or.inr rfl
  · intro runId member
    rw [candidates]
    rcases (schedules runId).mp member with old | rfl
    · exact Or.inl (coherent.primary runId old)
    · obtain ⟨first, rest, shape⟩ := List.exists_cons_of_ne_nil nonempty
      refine Or.inr ⟨(first, 0), ?_, rfl⟩
      rw [shape]
      exact List.mem_cons_self
  · intro key member
    rw [candidates]
    unfold triedCandidates at member
    rw [inserted.attempts] at member
    exact Or.inl (coherent.tried key member)
  · rw [inserted.attempts, inserted.drawn]
    exact coherent.attemptsDrawn
  · rw [inserted.leases, inserted.drawn]
    exact coherent.leasesDrawn
  · unfold leasedAttempts
    rw [inserted.leases, inserted.attempts]
    exact coherent.leased
  · unfold leasedAttempts
    rw [inserted.leases]
    exact coherent.single
  · intro attempt stored ongoing schedule listed same
    rw [inserted.attempts] at stored
    rw [inserted.schedules] at listed
    rcases Table.mem_upsert.mp listed with rfl | ⟨old, _⟩
    · have known := coherent.scheduled _ (coherent.tried _ (List.mem_map_of_mem stored))
      exact absurd (Eq.subst (motive := (· ∈ db.schedules.keys)) same.symm known) fresh
    · exact coherent.current attempt stored ongoing schedule old same

theorem Coherent.created (coherent : Coherent db) {input : CreateExecutionScheduleInput}
    (creates : Created now input db db') : Coherent db' := by
  obtain ⟨middle, inserted, rfl⟩ := creates.inserted
  exact (coherent.inserted creates.valid creates.fresh inserted).enqueueEach

theorem Coherent.performed (coherent : Coherent db) {operation : Operation} {outcome : Outcome}
    (performs : Performs now db operation outcome db') : Coherent db' := by
  induction performs with
  | create created => exact coherent.created created
  | claimNothing _ => exact coherent.expire.weighed
  | claim chosen granted => exact coherent.expire.claimed (selectRow_mem chosen) granted
  | amend amended => exact coherent.amended amended
  | renew _ _ => exact coherent.expire.mapLeases renewedLease_attemptId
  | restore _ restored =>
    obtain ⟨middle, recovered, rfl⟩ := restored.recovered
    have coherentMiddle : Coherent middle := by
      rcases recovered with rfl | amends
      · exact coherent
      · exact coherent.amended amends
    exact coherentMiddle.mapLeases restoredLease_attemptId
  | complete completed => exact coherent.completed completed
  | cancelNothing => exact coherent
  | cancel found _ idle inside =>
    exact coherent.cancelled ((Table.key_of_find? found).symm ▸ found) idle inside
  | stale => exact coherent
  | answerCancel found waiting _ _ inside =>
    exact coherent.cancelled ((Table.key_of_find? found).symm ▸ found) (by simp [waiting]) inside
  | answerResume found waiting _ _ _ resumed =>
    exact coherent.resumed ((Table.key_of_find? found).symm ▸ found) waiting resumed
  | answerQuestion _ _ _ _ ih =>
    exact ih.keep rfl rfl rfl (fun _ member => member) rfl rfl (Nat.le_add_right _ 2) ih.current

theorem single_eq (coherent : Coherent db) {lease other : AccountConcurrencyLease}
    (stored : lease ∈ db.leases.rows) (there : other ∈ db.leases.rows)
    (same : lease.attemptId = other.attemptId) : lease = other :=
  List.inj_on_of_nodup_map coherent.single stored there same

theorem completed_leases {input : CompleteInput} {attempt : ExecutionAttempt}
    (completes : Completed now input attempt db db') :
    db'.leases = db.leases.mapAll (releasedLease input.attemptId)
      (releasedLease_leaseId input.attemptId) := by
  rcases completes.settled with ⟨requestedPriority, _, rfl⟩ | rfl
  · exact enqueueEach_frame.2.2.2.1
  · rfl

theorem cancelled_leases {schedule : ExecutionSchedule}
    (inside : cancelQueuedInside db schedule = .ok db') : db'.leases = db.leases := by
  obtain ⟨candidate, _, _, rfl⟩ := cancelQueuedInside_ok.mp inside
  rfl

theorem created_leases {input : CreateExecutionScheduleInput}
    (creates : Created now input db db') : db'.leases = db.leases := by
  obtain ⟨middle, inserted, rfl⟩ := creates.inserted
  rw [enqueueEach_frame.2.2.2.1, inserted.leases]

theorem amended_leases (amends : Amended db db') : db'.leases = db.leases := by
  obtain ⟨_, _, _, _, _, _, _, _, rfl⟩ := amends
  rfl

/-- A successful operation moves the world on, a failed one only the clock. -/
theorem advance_cases (w : SchedulingWorld) (now : Int) (operation : Operation) :
    (∃ outcome db', perform w.db now operation = .ok (outcome, db') ∧
        advance w now operation = ⟨db', now, w.outcomes ++ [outcome]⟩) ∨
      advance w now operation = ⟨w.db, now, w.outcomes⟩ := by
  unfold advance
  cases performed : perform w.db now operation with
  | ok result => exact Or.inl ⟨result.1, result.2, rfl, rfl⟩
  | error _ => exact Or.inr rfl

theorem ReachableWith.invariant {allowed : SchedulingWorld → Int → Operation → Prop}
    {P : SchedulingWorld → Prop} {w : SchedulingWorld} (reachable : ReachableWith allowed w)
    (initial : ∀ clock, P (opening clock))
    (step : ∀ w now operation outcome db', P w → allowed w now operation →
      Performs now w.db operation outcome db' → P ⟨db', now, w.outcomes ++ [outcome]⟩)
    (failed : ∀ w now operation, P w → allowed w now operation → P ⟨w.db, now, w.outcomes⟩) :
    P w := by
  obtain ⟨clock, run⟩ := reachable
  refine steps_invariant ?_ (initial clock) run
  rintro before _ holds ⟨now, operation, granted, rfl⟩
  rcases advance_cases before now operation with ⟨outcome, db', performed, moved⟩ | kept
  · rw [moved]
    exact step before now operation outcome db' holds granted (perform_performs performed)
  · rw [kept]
    exact failed before now operation holds granted

theorem ReachableWith.coherent {allowed : SchedulingWorld → Int → Operation → Prop}
    {w : SchedulingWorld} (reachable : ReachableWith allowed w) : Coherent w.db :=
  reachable.invariant (P := fun w => Coherent w.db) (fun _ => coherent_empty)
    (fun _ _ _ _ _ coherent _ performs => coherent.performed performs)
    fun _ _ _ coherent _ => coherent

def runSteps (w : SchedulingWorld) (steps : List (Int × Operation)) : SchedulingWorld :=
  steps.foldl (fun w step => advance w step.1 step.2) w

def AllowedAlong (allowed : SchedulingWorld → Int → Operation → Prop) (w : SchedulingWorld) :
    List (Int × Operation) → Prop
  | [] => True
  | (now, operation) :: rest =>
    allowed w now operation ∧ AllowedAlong allowed (advance w now operation) rest

instance AllowedAlong.decidable (allowed : SchedulingWorld → Int → Operation → Prop)
    [∀ w now operation, Decidable (allowed w now operation)] (w : SchedulingWorld) :
    (steps : List (Int × Operation)) → Decidable (AllowedAlong allowed w steps)
  | [] => .isTrue trivial
  | (now, operation) :: rest =>
    @instDecidableAnd _ _ _ (AllowedAlong.decidable allowed (advance w now operation) rest)

theorem runSteps_advances {allowed : SchedulingWorld → Int → Operation → Prop}
    {steps : List (Int × Operation)} {w : SchedulingWorld} (along : AllowedAlong allowed w steps) :
    Relation.ReflTransGen (Advances allowed) w (runSteps w steps) := by
  induction steps generalizing w with
  | nil => exact Relation.ReflTransGen.refl
  | cons step rest ih =>
    exact Relation.ReflTransGen.head ⟨step.1, step.2, along.1, rfl⟩ (ih along.2)

theorem reachable_runSteps (clock : Int) (steps : List (Int × Operation)) :
    Reachable (runSteps (opening clock) steps) := by
  refine ⟨clock, runSteps_advances ?_⟩
  generalize opening clock = w
  induction steps generalizing w with
  | nil => exact trivial
  | cons step rest ih => exact ⟨trivial, ih _⟩

def sampleCandidate (accountId : Option String) (compatible : Bool) : SchedulingCandidateInput where
  profileId := "profile"
  accountId := accountId
  engine := "claude"
  maxConcurrentRuns := 1
  profile := "profile"
  limits := "limits"
  permissions := "read-write"
  compatible := compatible
  capabilityDelta := none

def sampleCreation (runId : String) (capacityPolicy : CapacityPolicy)
    (candidates : List SchedulingCandidateInput) : CreateExecutionScheduleInput where
  runId := runId
  stageId := runId
  codebaseId := "codebase"
  repositoryId := "repository"
  prompt := "prompt"
  artifactPath := "report.md"
  baseSha := List.replicate 40 'a'
  hardDeadlineAt := none
  capacityPolicy := capacityPolicy
  requestedPriority := none
  requestedIdentifiers := []
  chain := "chain"
  candidates := candidates
  capabilityRequest := none

def sampleClaim : ClaimInput := ⟨"daemon", some 10, none⟩

/-- The account of the run is taken when its user is asked. -/
def waitingSteps : List (Int × Operation) :=
  [(0, .create (sampleCreation "other" .queue [sampleCandidate (some "account") true])),
    (0, .claim sampleClaim),
    (1, .create (sampleCreation "run" .ask [sampleCandidate (some "account") true])),
    (1, .claim sampleClaim)]

end Heniek.SchedulingRuns
