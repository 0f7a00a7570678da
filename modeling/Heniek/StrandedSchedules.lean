import Heniek.SchedulingRuns

/-!
A schedule that is not terminal is attended: a queued one has a queued candidate in the
queue, a waiting one a pending question, a running one an ongoing attempt. Two operations
can lose the link. A creation does not look whether it has queued a candidate, and a claim
that asks a user again keeps the question that was answered before.
-/

namespace Heniek.StrandedSchedules
open KeyedTable AccountScheduling AttemptSettlement SchedulingSteps SchedulingRuns

variable {db db' : SchedulingDatabase} {now : Int} {w : SchedulingWorld}

/-- An entry of the run in the queue, with its candidate queued. -/
def InQueue (db : SchedulingDatabase) (runId : String) : Prop :=
  ∃ entry ∈ db.queue.rows, entry.runId = runId ∧ ∃ row ∈ db.candidates.rows,
    row.runId = runId ∧ row.candidateIndex = entry.candidateIndex ∧ row.state = .queued

def Asked (db : SchedulingDatabase) (runId : String) : Prop :=
  ∃ question ∈ db.questions.rows, question.runId = runId ∧ question.state = .pending

def Attempting (db : SchedulingDatabase) (schedule : ExecutionSchedule) : Prop :=
  ∃ attempt ∈ db.attempts.rows, attempt.runId = schedule.runId ∧
    schedule.currentAttemptId = some attempt.attemptId ∧ attempt.status.ongoing = true

structure Attended (db : SchedulingDatabase) (schedule : ExecutionSchedule) : Prop where
  queued : schedule.state = .queued → InQueue db schedule.runId
  waiting : schedule.state = .waitingOnUser → Asked db schedule.runId
  running : schedule.state = .running → Attempting db schedule

/-- The rows of every run but one are still there. -/
structure KeepsOthers (runId : String) (db db' : SchedulingDatabase) : Prop where
  queue : ∀ row ∈ db.queue.rows, row.runId ≠ runId → row ∈ db'.queue.rows
  candidates : ∀ row ∈ db.candidates.rows, row.runId ≠ runId → row ∈ db'.candidates.rows
  questions : ∀ row ∈ db.questions.rows, row.runId ≠ runId → row ∈ db'.questions.rows
  attempts : ∀ row ∈ db.attempts.rows, row.runId ≠ runId → row ∈ db'.attempts.rows

variable {schedule : ExecutionSchedule} {accountId : String} {index : Nat}

theorem Attended.kept {runId : String} (attended : Attended db schedule)
    (keeps : KeepsOthers runId db db') (other : schedule.runId ≠ runId) :
    Attended db' schedule where
  queued := by
    intro state
    obtain ⟨entry, listed, sameRun, row, stored, rowRun, facts⟩ := attended.queued state
    exact ⟨entry, keeps.queue entry listed (sameRun ▸ other), sameRun, row,
      keeps.candidates row stored (rowRun ▸ other), rowRun, facts⟩
  waiting := by
    intro state
    obtain ⟨question, stored, sameRun, pending⟩ := attended.waiting state
    exact ⟨question, keeps.questions question stored (sameRun ▸ other), sameRun, pending⟩
  running := by
    intro state
    obtain ⟨attempt, stored, sameRun, facts⟩ := attended.running state
    exact ⟨attempt, keeps.attempts attempt stored (sameRun ▸ other), sameRun, facts⟩

theorem KeepsOthers.trans {runId : String} {middle : SchedulingDatabase}
    (first : KeepsOthers runId db middle) (second : KeepsOthers runId middle db') :
    KeepsOthers runId db db' where
  queue row member other := second.queue row (first.queue row member other) other
  candidates row member other := second.candidates row (first.candidates row member other) other
  questions row member other := second.questions row (first.questions row member other) other
  attempts row member other := second.attempts row (first.attempts row member other) other

theorem le_foldr_max {rows : List Nat} {n : Nat} (listed : n ∈ rows) : n ≤ rows.foldr max 0 := by
  induction rows with
  | nil => cases listed
  | cons head rows ih =>
    rcases List.mem_cons.mp listed with rfl | later
    · exact Nat.le_max_left _ _
    · exact (ih later).trans (Nat.le_max_right _ _)

theorem nextQueueSequence_fresh (db : SchedulingDatabase) :
    nextQueueSequence db ∉ db.queue.keys := by
  intro member
  have bound := le_foldr_max member
  unfold nextQueueSequence queueSequences at bound
  omega

theorem putInQueue_keeps {candidate : ExecutionCandidate} {requestedPriority : Int} :
    KeepsOthers candidate.runId db
      (putInQueue db candidate accountId requestedPriority now) where
  queue _ member _ := Table.mem_upsert_of_fresh (nextQueueSequence_fresh db) member
  candidates _ member other :=
    Table.mem_upsert.mpr (Or.inr ⟨member, fun clash => other (Prod.mk.inj clash).1⟩)
  questions _ member _ := member
  attempts _ member _ := member

theorem putInQueue_inQueue {candidate : ExecutionCandidate} {requestedPriority : Int} :
    InQueue (putInQueue db candidate accountId requestedPriority now) candidate.runId :=
  ⟨_, Table.mem_upsert.mpr (Or.inl rfl), rfl, _, Table.mem_upsert.mpr (Or.inl rfl), rfl, rfl, rfl⟩

theorem queues_run {runId : String} {requestedPriority : Int}
    (queues : Queues runId requestedPriority now index db db') :
    KeepsOthers runId db db' ∧ InQueue db' runId := by
  obtain ⟨candidate, accountId, found, _, _, rfl⟩ := queues
  have key := Table.key_of_find? found
  obtain ⟨rfl, _⟩ := Prod.mk.inj key
  exact ⟨putInQueue_keeps, putInQueue_inQueue⟩

theorem KeepsOthers.refl {runId : String} : KeepsOthers runId db db :=
  ⟨fun _ member _ => member, fun _ member _ => member, fun _ member _ => member,
    fun _ member _ => member⟩

theorem enqueueEach_run {runId : String} {requestedPriority : Int} {indexes : List Nat} :
    KeepsOthers runId db (enqueueEach db runId requestedPriority now indexes).2 ∧
      ((enqueueEach db runId requestedPriority now indexes).1 = true →
        InQueue (enqueueEach db runId requestedPriority now indexes).2 runId) := by
  refine enqueueEach_invariant
    (P := fun queued after => KeepsOthers runId db after ∧ (queued = true → InQueue after runId))
    ⟨KeepsOthers.refl, nofun⟩ ?_
  intro index _ queued before after holds queues
  obtain ⟨keeps, here⟩ := queues_run queues
  exact ⟨holds.1.trans keeps, fun _ => here⟩

theorem enqueueEach_refused {runId : String} {requestedPriority : Int} {indexes : List Nat}
    (none : (enqueueEach db runId requestedPriority now indexes).1 = false) :
    ∀ index ∈ indexes, (enqueueCandidate db runId index requestedPriority now).1 = false := by
  unfold enqueueEach at none
  have grows : ∀ (indexes : List Nat) (state : Bool × SchedulingDatabase), state.1 = true →
      (indexes.foldl (fun (state : Bool × SchedulingDatabase) index =>
        ((enqueueCandidate state.2 runId index requestedPriority now).1 || state.1,
          (enqueueCandidate state.2 runId index requestedPriority now).2)) state).1 = true := by
    intro indexes
    induction indexes with
    | nil => exact fun state queued => queued
    | cons index indexes ih =>
      intro state queued
      exact ih _ (by simp [queued])
  induction indexes with
  | nil => simp
  | cons index indexes ih =>
    rw [List.foldl_cons] at none
    rcases enqueueCandidate_cases db runId index requestedPriority now with
      same | ⟨after, moved, _⟩
    · rw [List.forall_mem_cons]
      simp only [same] at none ⊢
      exact ⟨trivial, ih none⟩
    · have queued := grows indexes (true, after) rfl
      simp only [moved] at none
      exact absurd (none.symm.trans queued) Bool.false_ne_true

/-- No schedule is stranded, and the queue holds entries of stored schedules only. -/
structure Unstranded (db : SchedulingDatabase) : Prop where
  attended : ∀ schedule ∈ db.schedules.rows, Attended db schedule
  linked : ∀ entry ∈ db.queue.rows, entry.runId ∈ db.schedules.keys

theorem attended_terminal (state : schedule.state = .terminal) : Attended db schedule := by
  constructor <;> simp [state]

theorem attended_queued (state : schedule.state = .queued) (inQueue : InQueue db schedule.runId) :
    Attended db schedule := by
  refine ⟨fun _ => inQueue, ?_, ?_⟩ <;> simp [state]

theorem Attended.same (attended : Attended db schedule) (queue : db'.queue = db.queue)
    (candidates : db'.candidates = db.candidates) (questions : db'.questions = db.questions)
    (attempts : db'.attempts = db.attempts) : Attended db' schedule where
  queued := by
    unfold InQueue
    rw [queue, candidates]
    exact attended.queued
  waiting := by
    unfold Asked
    rw [questions]
    exact attended.waiting
  running := by
    unfold Attempting
    rw [attempts]
    exact attended.running

theorem attended_moved {runId : String} {middle : SchedulingDatabase}
    (attended : ∀ schedule ∈ db.schedules.rows, Attended db schedule)
    (keeps : KeepsOthers runId db middle) (schedules : middle.schedules = db.schedules)
    {change : ExecutionSchedule → ExecutionSchedule}
    {same : ∀ row, (change row).runId = row.runId}
    (moved : ∀ schedule ∈ db.schedules.rows, schedule.runId = runId →
      Attended middle (change schedule)) :
    ∀ schedule ∈ (moveSchedule middle runId change same).schedules.rows,
      Attended (moveSchedule middle runId change same) schedule := by
  intro schedule member
  obtain ⟨before, stored, rfl⟩ := mem_moveSchedule.mp member
  rw [schedules] at stored
  split
  · rename_i here
    exact (moved before stored here).same rfl rfl rfl rfl
  · rename_i other
    exact ((attended before stored).kept keeps other).same rfl rfl rfl rfl

theorem linked_queues (coherent : Coherent db) {runId : String} {requestedPriority : Int}
    (queues : Queues runId requestedPriority now index db db')
    (linked : ∀ entry ∈ db.queue.rows, entry.runId ∈ db.schedules.keys) :
    ∀ entry ∈ db'.queue.rows, entry.runId ∈ db'.schedules.keys := by
  obtain ⟨candidate, accountId, found, _, _, rfl⟩ := queues
  intro entry member
  rcases Table.mem_upsert.mp member with rfl | ⟨old, _⟩
  · exact coherent.scheduled _ (Table.mem_keys_of_mem (Table.mem_of_find? found))
  · exact linked entry old

theorem linked_enqueueEach (coherent : Coherent db) {runId : String} {requestedPriority : Int}
    {indexes : List Nat} (linked : ∀ entry ∈ db.queue.rows, entry.runId ∈ db.schedules.keys) :
    ∀ entry ∈ (enqueueEach db runId requestedPriority now indexes).2.queue.rows,
      entry.runId ∈ (enqueueEach db runId requestedPriority now indexes).2.schedules.keys := by
  refine (enqueueEach_invariant (P := fun _ after => Coherent after ∧
    ∀ entry ∈ after.queue.rows, entry.runId ∈ after.schedules.keys) ⟨coherent, linked⟩ ?_).2
  exact fun _ _ _ _ _ holds queues =>
    ⟨holds.1.queues queues, linked_queues holds.1 queues holds.2⟩

theorem Unstranded.amended (unstranded : Unstranded db) (amends : Amended db db') :
    Unstranded db' := by
  obtain ⟨attempt, amended, found, _, ongoing, sameId, sameRun, _, rfl⟩ := amends
  refine ⟨fun schedule member => ?_, unstranded.linked⟩
  have attended := unstranded.attended schedule member
  refine ⟨attended.queued, attended.waiting, fun state => ?_⟩
  obtain ⟨current, stored, ofRun, named, facts⟩ := attended.running state
  by_cases here : current.attemptId = amended.attemptId
  · have same : current = attempt :=
      Table.eq_of_key_eq stored (Table.mem_of_find? found) (here.trans sameId)
    subst same
    exact ⟨amended, Table.mem_upsert.mpr (Or.inl rfl), sameRun.trans ofRun, sameId ▸ named, ongoing⟩
  · exact ⟨current, Table.mem_upsert.mpr (Or.inr ⟨stored, here⟩), ofRun, named, facts⟩

theorem mem_settled {key : String × Nat} {state : CandidateState} {row : ExecutionCandidate}
    (other : row.runId ≠ key.1) (member : row ∈ db.candidates.rows) :
    row ∈ (db.candidates.modify key (settleCandidate state) (settleCandidate_key state)).rows :=
  List.mem_map.mpr ⟨row, member, if_neg fun clash => other (congrArg Prod.fst clash)⟩

theorem closeAttempt_keeps {input : CompleteInput} {attempt : ExecutionAttempt}
    (found : db.attempts.find? input.attemptId = some attempt) :
    KeepsOthers attempt.runId db (closeAttempt db input attempt) where
  queue row member _ := member
  candidates row member other := mem_settled other member
  questions row member _ := member
  attempts row member other := by
    refine (Table.mem_modify_of_ne (finishedAttempt_attemptId input) fun clash => ?_).mpr member
    obtain ⟨stored, key⟩ := Table.find?_eq_some.mp found
    exact other (congrArg ExecutionAttempt.runId
      (Table.eq_of_key_eq member stored (clash.trans key.symm)))

theorem Unstranded.completed (unstranded : Unstranded db) (coherent : Coherent db)
    {input : CompleteInput} {attempt : ExecutionAttempt}
    (completes : Completed now input attempt db db') : Unstranded db' := by
  have keeps := closeAttempt_keeps completes.found
  rcases completes.settled with ⟨requestedPriority, queued, rfl⟩ | rfl
  · have inQueue := enqueueEach_run.2 queued
    refine ⟨attended_moved unstranded.attended (keeps.trans enqueueEach_run.1)
      enqueueEach_frame.1 ?_, ?_⟩
    · exact fun schedule _ here => attended_queued rfl (here ▸ inQueue)
    · intro entry member
      exact (Table.keys_modify requeueSchedule_runId).symm ▸
        linked_enqueueEach (coherent.closed completes.found).1 unstranded.linked entry member
  · refine ⟨attended_moved unstranded.attended keeps rfl ?_, ?_⟩
    · exact fun schedule _ _ => attended_terminal rfl
    · intro entry member
      exact (Table.keys_modify terminateSchedule_runId).symm ▸ unstranded.linked entry member

theorem Unstranded.cancelled (unstranded : Unstranded db)
    (inside : cancelQueuedInside db schedule = .ok db') : Unstranded db' := by
  obtain ⟨candidate, _, admits, rfl⟩ := cancelQueuedInside_ok.mp inside
  have keeps : KeepsOthers schedule.runId db (SchedulingSteps.cancelled db schedule candidate) := by
    refine ⟨fun row member other => ?_, fun row member other => ?_, fun _ member _ => member, ?_⟩
    · exact Table.mem_deleteWhere.mpr ⟨member, decide_eq_false other⟩
    · exact mem_settled other member
    · exact fun row member _ => Table.mem_upsert_of_fresh admits.fresh member
  refine ⟨fun row member => ?_, fun entry member => ?_⟩
  · obtain ⟨before, stored, rfl⟩ : ∃ before ∈ db.schedules.rows,
        (if before.runId = schedule.runId then cancelSchedule db.drawn before else before) = row :=
      List.mem_map.mp member
    split
    · exact attended_terminal rfl
    · rename_i other
      exact (unstranded.attended before stored).kept keeps other
  · have stored := unstranded.linked entry (Table.mem_deleteWhere.mp member).1
    exact (Table.keys_modify (cancelSchedule_runId db.drawn)).symm ▸ stored

theorem Unstranded.resumed (unstranded : Unstranded db) (coherent : Coherent db)
    {candidateIndex : Nat} (resumes : Resumed now schedule candidateIndex db db') :
    Unstranded db' := by
  obtain ⟨middle, queues, rfl⟩ := resumes
  obtain ⟨keeps, inQueue⟩ := queues_run queues
  have linked := linked_queues coherent queues unstranded.linked
  have schedules : middle.schedules = db.schedules := by
    obtain ⟨_, _, _, _, _, rfl⟩ := queues
    rfl
  refine ⟨attended_moved unstranded.attended keeps schedules ?_, fun entry member => ?_⟩
  · exact fun row _ here => attended_queued rfl (here ▸ inQueue)
  · exact (Table.keys_modify resumeSchedule_runId).symm ▸ linked entry member

def QueuesCandidate (input : CreateExecutionScheduleInput) : Prop :=
  ∃ index ∈ enqueuedIndexes input, ∃ candidate ∈ input.candidates[index]?,
    candidate.compatible = true ∧ candidate.accountId.isSome = true

theorem enqueueCandidate_queues {runId : String} {requestedPriority : Int}
    {candidate : ExecutionCandidate} (found : db.candidates.find? (runId, index) = some candidate)
    (account : candidate.accountId = some accountId) (admitted : candidate.state ≠ .rejected)
    (outside : ∀ entry ∈ db.queue.rows, entry.runId ≠ runId) :
    (enqueueCandidate db runId index requestedPriority now).1 = true := by
  have absent : inQueue db runId index = false := by
    refine List.any_eq_false.mpr fun entry member => ?_
    rw [decide_eq_true_eq]
    exact fun clash => outside entry member clash.1
  simp [enqueueCandidate, found, account, admitted, absent]

theorem Unstranded.created (unstranded : Unstranded db) (coherent : Coherent db)
    {input : CreateExecutionScheduleInput} (queues : QueuesCandidate input)
    (creates : Created now input db db') : Unstranded db' := by
  obtain ⟨middle, inserted, rfl⟩ := creates.inserted
  have outside : ∀ entry ∈ middle.queue.rows, entry.runId ≠ input.runId := by
    intro entry member same
    rw [inserted.queue] at member
    exact creates.fresh (same ▸ unstranded.linked entry member)
  have queued : (enqueueEach middle input.runId (input.requestedPriority.getD 0) now
      (enqueuedIndexes input)).1 = true := by
    obtain ⟨index, listed, candidate, given, compatible, account⟩ := queues
    obtain ⟨accountId, named⟩ := Option.isSome_iff_exists.mp account
    have stored : newCandidate input.runId index candidate ∈ middle.candidates.rows :=
      (inserted.candidates _).mpr (Or.inr ⟨(candidate, index),
        List.mem_zipIdx_iff_getElem?.mpr given, rfl⟩)
    have found : middle.candidates.find? (input.runId, index) =
        some (newCandidate input.runId index candidate) := Table.find?_eq_some.mpr ⟨stored, rfl⟩
    rw [← Bool.not_eq_false]
    intro none
    have refused := enqueueEach_refused none index listed
    rw [enqueueCandidate_queues found named (by simp [newCandidate, compatible]) outside] at refused
    cases refused
  have frame := @enqueueEach_frame middle now input.runId (input.requestedPriority.getD 0)
    (enqueuedIndexes input)
  have inserting : KeepsOthers input.runId db middle := by
    refine ⟨fun row member _ => ?_, fun row member _ => ?_, fun row member _ => ?_,
      fun row member _ => ?_⟩
    · exact inserted.queue ▸ member
    · exact (inserted.candidates row).mpr (Or.inl member)
    · exact inserted.questions ▸ member
    · exact inserted.attempts ▸ member
  refine ⟨fun schedule member => ?_, ?_⟩
  · rw [frame.1, inserted.schedules] at member
    rcases Table.mem_upsert.mp member with rfl | ⟨old, other⟩
    · exact attended_queued rfl (enqueueEach_run.2 queued)
    · exact (unstranded.attended schedule old).kept (inserting.trans enqueueEach_run.1) other
  · refine linked_enqueueEach (coherent.inserted creates.valid creates.fresh inserted) ?_
    intro entry member
    rw [inserted.queue] at member
    rw [inserted.schedules]
    exact Table.mem_keys_upsert.mpr (Or.inl (unstranded.linked entry member))

theorem askUser_keeps (head : QueueRow) : KeepsOthers head.entry.runId db (askUser db head) where
  queue _ member other := Table.mem_deleteWhere.mpr ⟨member, decide_eq_false other⟩
  candidates _ member _ := member
  questions _ member _ := Table.mem_insertOrIgnore_of_mem member
  attempts _ member _ := member

theorem askUser_question (head : QueueRow) :
    ∃ question ∈ (askUser db head).questions.rows, question.runId = head.entry.runId := by
  have present : ((askUser db head).questions.find? head.entry.runId).isSome := by
    unfold askUser createCapacityQuestion
    rw [Table.find?_insertOrIgnore]
    simp [newQuestion]
  obtain ⟨question, found⟩ := Option.isSome_iff_exists.mp present
  obtain ⟨stored, key⟩ := Table.find?_eq_some.mp found
  exact ⟨question, stored, key⟩

theorem weighed_attended (unstranded : Unstranded db) {accountId : Option String}
    {exempt : String → Prop}
    (anew : ∀ head ∈ accountHeads now (claimRows db accountId),
      ¬ (activeLeases db head.entry.accountId now : Int) < head.maxConcurrentRuns →
      head.schedule.capacityPolicy = .ask → ¬ exempt head.entry.runId →
      ∀ question ∈ db.questions.find? head.entry.runId, question.state = .pending) :
    (∀ schedule ∈ (weighHeads db now accountId).1.schedules.rows, ¬ exempt schedule.runId →
        Attended (weighHeads db now accountId).1 schedule) ∧
      ∀ entry ∈ (weighHeads db now accountId).1.queue.rows,
        entry.runId ∈ (weighHeads db now accountId).1.schedules.keys := by
  refine (weighHeads_invariant (P := fun after _ =>
    (after.leases = db.leases ∧ ∀ question ∈ after.questions.rows,
      question ∈ db.questions.rows ∨ question.state = .pending) ∧
    (∀ schedule ∈ after.schedules.rows, ¬ exempt schedule.runId → Attended after schedule) ∧
    ∀ entry ∈ after.queue.rows, entry.runId ∈ after.schedules.keys)
    ⟨⟨rfl, fun _ => Or.inl⟩, fun schedule member _ => unstranded.attended schedule member,
      unstranded.linked⟩
    (fun _ _ _ _ holds _ => holds) ?_).2
  intro head listed _ before _ holds full ask
  obtain ⟨⟨leases, origin⟩, attended, linked⟩ := holds
  have questions : ∀ question ∈ (askUser before head).questions.rows,
      question ∈ db.questions.rows ∨ question.state = .pending := by
    intro question member
    rcases Table.mem_insertOrIgnore member with old | rfl
    · exact origin question old
    · exact Or.inr rfl
  refine ⟨⟨leases, questions⟩, fun schedule member free => ?_, fun entry member => ?_⟩
  · obtain ⟨middle, stored, rfl⟩ : ∃ middle ∈ before.schedules.rows,
        (if middle.runId = head.entry.runId then awaitUser middle else middle) = schedule :=
      List.mem_map.mp member
    split at free
    · rename_i here
      rw [if_pos here]
      rw [awaitUser_runId] at free
      have earlier := attended middle stored free
      by_cases queued : middle.state = .queued
      · have asked : Asked (askUser before head) (awaitUser middle).runId := by
          obtain ⟨question, listedQuestion, sameRun⟩ := @askUser_question before head
          refine ⟨question, listedQuestion, ?_, ?_⟩
          · rw [sameRun, awaitUser_runId, here]
          · rcases questions question listedQuestion with old | pending
            · unfold activeLeases at full
              rw [leases] at full
              exact anew head listed full ask (here ▸ free) question
                (sameRun ▸ Table.find?_key old)
            · exact pending
        refine ⟨?_, fun _ => asked, ?_⟩ <;> simp [awaitUser, queued]
      · have same : awaitUser middle = middle := if_neg queued
        rw [same]
        refine ⟨fun state => absurd state queued, fun state => ?_, earlier.running⟩
        obtain ⟨question, pendingStored, facts⟩ := earlier.waiting state
        exact ⟨question, Table.mem_insertOrIgnore_of_mem pendingStored, facts⟩
    · rename_i other
      rw [if_neg other]
      exact (attended middle stored free).kept (askUser_keeps head) other
  · have stored := linked entry (Table.mem_deleteWhere.mp member).1
    exact (Table.keys_modify awaitUser_runId).symm ▸ stored

theorem granted_unstranded {ownerId : String} {expiresAt : Int} {selected : QueueRow}
    (attended : ∀ schedule ∈ db.schedules.rows, schedule.runId ≠ selected.entry.runId →
      Attended db schedule)
    (linked : ∀ entry ∈ db.queue.rows, entry.runId ∈ db.schedules.keys)
    (admits : Admits db (claimedAttempt db.drawn selected)) :
    Unstranded (granted db ownerId expiresAt selected) := by
  have keeps : KeepsOthers selected.entry.runId db (granted db ownerId expiresAt selected) := by
    refine ⟨fun row member other => ?_, fun row member other => ?_, fun _ member _ => member, ?_⟩
    · exact Table.mem_deleteWhere.mpr ⟨member, decide_eq_false other⟩
    · exact List.mem_map.mpr ⟨row, member, if_neg other⟩
    · exact fun row member _ => Table.mem_upsert_of_fresh admits.fresh member
  refine ⟨fun schedule member => ?_, fun entry member => ?_⟩
  · obtain ⟨before, stored, rfl⟩ : ∃ before ∈ db.schedules.rows,
        (if before.runId = selected.entry.runId then
          runAttempt selected.entry.candidateIndex db.drawn before else before) = schedule :=
      List.mem_map.mp member
    split
    · rename_i here
      refine ⟨nofun, nofun, fun _ => ?_⟩
      exact ⟨_, Table.mem_upsert.mpr (Or.inl rfl), here.symm, rfl, rfl⟩
    · rename_i other
      exact (attended before stored other).kept keeps other
  · have stored := linked entry (Table.mem_deleteWhere.mp member).1
    exact (Table.keys_modify (runAttempt_runId selected.entry.candidateIndex db.drawn)).symm ▸
      stored

/-- A claim that asks a user, and does not select the run after all, asks for the first time or
while the question is still pending. -/
def AsksAnew (db : SchedulingDatabase) (now : Int) (input : ClaimInput) : Prop :=
  ∀ head ∈ accountHeads now (claimRows (expireOrphanLeases db now) input.accountId),
    ¬ (activeLeases (expireOrphanLeases db now) head.entry.accountId now : Int) <
        head.maxConcurrentRuns →
      head.schedule.capacityPolicy = .ask →
      ¬ (selectRow now (weighHeads (expireOrphanLeases db now) now input.accountId).2).any
          (fun row => row.entry.runId = head.entry.runId) = true →
      ∀ question ∈ db.questions.find? head.entry.runId, question.state = .pending

/-- The two operations that can lose a link do not. -/
def KeepsAttended (db : SchedulingDatabase) (now : Int) : Operation → Prop
  | .create input => QueuesCandidate input
  | .claim input => AsksAnew db now input
  | _ => True

theorem answered_not_waiting {input : CapacityAnswerInput}
    (performs : Performs now db (.applyAnswer input) (.applied .accepted) db') :
    ∀ schedule ∈ db'.schedules.rows, schedule.runId = input.runId →
      schedule.state ≠ .waitingOnUser := by
  cases performs with
  | answerCancel found _ _ _ inside =>
    obtain ⟨candidate, _, _, rfl⟩ := cancelQueuedInside_ok.mp inside
    intro schedule member same
    have key := Table.key_of_find? found
    obtain ⟨before, _, rfl⟩ := List.mem_map.mp member
    split at same
    · rename_i here
      rw [if_pos here]
      nofun
    · rename_i other
      exact absurd (same.trans key.symm) other
  | answerResume found _ _ _ _ resumed =>
    obtain ⟨middle, _, rfl⟩ := resumed
    intro schedule member same
    have key := Table.key_of_find? found
    obtain ⟨before, _, rfl⟩ := mem_moveSchedule.mp member
    split at same
    · rename_i here
      rw [if_pos here]
      nofun
    · rename_i other
      exact absurd (same.trans key.symm) other

theorem Unstranded.answered (unstranded : Unstranded db) {input : AnswerQuestionInput}
    {question : CapacityQuestion} (asked : question.runId = input.runId)
    (still : ∀ schedule ∈ db.schedules.rows, schedule.runId = input.runId →
      schedule.state ≠ .waitingOnUser) : Unstranded (withAnswer db input question) := by
  refine ⟨fun schedule member => ?_, unstranded.linked⟩
  have attended := unstranded.attended schedule member
  refine ⟨attended.queued, fun state => ?_, attended.running⟩
  have other : schedule.runId ≠ input.runId := fun same => still schedule member same state
  obtain ⟨pending, stored, sameRun, facts⟩ := attended.waiting state
  refine ⟨pending, Table.mem_upsert.mpr (Or.inr ⟨stored, ?_⟩), sameRun, facts⟩
  exact fun (clash : pending.runId = question.runId) =>
    other (sameRun.symm.trans (clash.trans asked))

theorem Unstranded.expire (unstranded : Unstranded db) : Unstranded (expireOrphanLeases db now) :=
  ⟨fun schedule member => (unstranded.attended schedule member).same rfl rfl rfl rfl,
    unstranded.linked⟩

theorem Unstranded.performed (unstranded : Unstranded db) (coherent : Coherent db)
    {operation : Operation} {outcome : Outcome} (keeps : KeepsAttended db now operation)
    (performs : Performs now db operation outcome db') : Unstranded db' := by
  induction performs with
  | create created => exact unstranded.created coherent keeps created
  | @claimNothing input nothing =>
    have anew := @weighed_attended _ now unstranded.expire input.accountId (fun _ => False)
      fun head listed full ask _ => keeps head listed full ask (by rw [nothing]; nofun)
    exact ⟨fun schedule member => anew.1 schedule member id, anew.2⟩
  | @claim input selected db' chosen grants =>
    obtain ⟨admits, _, _, _, rfl⟩ := grantSelected_ok.mp grants
    have anew := @weighed_attended _ now unstranded.expire input.accountId
      (fun runId => runId = selected.entry.runId)
      fun head listed full ask other => keeps head listed full ask (by
        rw [chosen]
        exact fun same => other (of_decide_eq_true same).symm)
    exact granted_unstranded anew.1 anew.2 admits
  | amend amended => exact unstranded.amended amended
  | renew _ _ =>
    exact ⟨fun schedule member => (unstranded.attended schedule member).same rfl rfl rfl rfl,
      unstranded.linked⟩
  | restore _ restored =>
    obtain ⟨middle, recovered, rfl⟩ := restored.recovered
    have kept : Unstranded middle := by
      rcases recovered with rfl | amends
      · exact unstranded
      · exact unstranded.amended amends
    exact ⟨fun schedule member => (kept.attended schedule member).same rfl rfl rfl rfl,
      kept.linked⟩
  | complete completed => exact unstranded.completed coherent completed
  | cancelNothing => exact unstranded
  | cancel _ _ _ inside => exact unstranded.cancelled inside
  | stale => exact unstranded
  | answerCancel _ _ _ _ inside => exact unstranded.cancelled inside
  | answerResume _ _ _ _ _ resumed => exact unstranded.resumed coherent resumed
  | answerQuestion pending _ _ applied ih =>
    exact (ih trivial).answered (Table.key_of_find? (pendingQuestion_ok pending).1)
      (answered_not_waiting applied)

/-- No schedule is stranded along the runs whose creations queue a candidate and whose claims
do not ask a user whose question is already answered. -/
theorem schedules_attended (w : SchedulingWorld)
    (reachable : ReachableWith (fun w now operation => KeepsAttended w.db now operation) w)
    (schedule : ExecutionSchedule) (stored : schedule ∈ w.db.schedules.rows) :
    Attended w.db schedule := by
  have invariant : Coherent w.db ∧ Unstranded w.db := by
    refine reachable.invariant (P := fun w => Coherent w.db ∧ Unstranded w.db)
      (fun clock => ?_) ?_ ?_
    · exact ⟨coherent_empty, fun row member => absurd member List.not_mem_nil,
        fun row member => absurd member List.not_mem_nil⟩
    · intro w now operation outcome db' holds keeps performs
      exact ⟨holds.1.performed performs, holds.2.performed holds.1 keeps performs⟩
    · exact fun w now operation holds _ => holds
  exact invariant.2.attended schedule stored

instance (input : CreateExecutionScheduleInput) : Decidable (QueuesCandidate input) :=
  inferInstanceAs (Decidable (∃ index ∈ enqueuedIndexes input,
    ∃ candidate ∈ input.candidates[index]?, candidate.compatible = true ∧
      candidate.accountId.isSome = true))

instance (db : SchedulingDatabase) (now : Int) (input : ClaimInput) :
    Decidable (AsksAnew db now input) := by
  unfold AsksAnew
  infer_instance

instance (db : SchedulingDatabase) (now : Int) :
    (operation : Operation) → Decidable (KeepsAttended db now operation)
  | .create input => inferInstanceAs (Decidable (QueuesCandidate input))
  | .claim input => inferInstanceAs (Decidable (AsksAnew db now input))
  | .assignWorkspace _ _ | .updateLimits _ _ | .recordBaseline _ _ | .startAttempt _ _ | .renew _
  | .restore _ | .complete _ | .cancel _ | .applyAnswer _ | .answerQuestion _ => .isTrue trivial

instance (db : SchedulingDatabase) (runId : String) : Decidable (InQueue db runId) :=
  inferInstanceAs (Decidable (∃ entry ∈ db.queue.rows, entry.runId = runId ∧
    ∃ row ∈ db.candidates.rows, row.runId = runId ∧ row.candidateIndex = entry.candidateIndex ∧
      row.state = .queued))

instance (db : SchedulingDatabase) (runId : String) : Decidable (Asked db runId) :=
  inferInstanceAs (Decidable (∃ question ∈ db.questions.rows, question.runId = runId ∧
    question.state = .pending))

theorem schedules_attended_waiting :
    AllowedAlong (fun w now operation => KeepsAttended w.db now operation) (opening 0)
        waitingSteps ∧
      (runSteps (opening 0) waitingSteps).db.schedules.rows.map ExecutionSchedule.state =
        [.running, .waitingOnUser] ∧
      ∀ schedule ∈ (runSteps (opening 0) waitingSteps).db.schedules.rows,
        Attended (runSteps (opening 0) waitingSteps).db schedule := by
  have along : AllowedAlong (fun w now operation => KeepsAttended w.db now operation) (opening 0)
      waitingSteps := by decide +kernel
  exact ⟨along, by decide +kernel, fun schedule stored =>
    schedules_attended _ ⟨0, runSteps_advances along⟩ schedule stored⟩

/-- The primary is incompatible, and the policy queues nothing else. -/
def rejectedSteps : List (Int × Operation) :=
  [(0, .create (sampleCreation "run" .queue
    [sampleCandidate (some "primary") false, sampleCandidate (some "fallback") true]))]

/-- The user waits, and is asked again while the account is still taken. -/
def askedAgainSteps : List (Int × Operation) :=
  waitingSteps ++
    [(2, .answerQuestion ⟨"run", 2, 1, [⟨3, "single_choice", some ["Wait for primary"]⟩], "key"⟩),
      (3, .claim sampleClaim)]

theorem schedules_stranded :
    (¬ ∀ w, Reachable w → ∀ schedule ∈ w.db.schedules.rows, schedule.state = .queued →
        InQueue w.db schedule.runId) ∧
      ¬ ∀ w, Reachable w → ∀ schedule ∈ w.db.schedules.rows, schedule.state = .waitingOnUser →
        Asked w.db schedule.runId := by
  constructor
  · intro attended
    have stranded : ∃ schedule ∈ (runSteps (opening 0) rejectedSteps).db.schedules.rows,
        schedule.state = .queued ∧
          ¬ InQueue (runSteps (opening 0) rejectedSteps).db schedule.runId := by decide +kernel
    obtain ⟨schedule, stored, state, outside⟩ := stranded
    exact outside (attended _ (reachable_runSteps 0 rejectedSteps) schedule stored state)
  · intro attended
    have stranded : ∃ schedule ∈ (runSteps (opening 0) askedAgainSteps).db.schedules.rows,
        schedule.state = .waitingOnUser ∧
          ¬ Asked (runSteps (opening 0) askedAgainSteps).db schedule.runId := by decide +kernel
    obtain ⟨schedule, stored, state, silent⟩ := stranded
    exact silent (attended _ (reachable_runSteps 0 askedAgainSteps) schedule stored state)

end Heniek.StrandedSchedules
