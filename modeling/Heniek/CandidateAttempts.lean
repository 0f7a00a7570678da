import Heniek.SchedulingRuns

/-!
Every candidate is tried at most once, so the attempts are unique for each candidate. A
candidate that is pending or queued has no attempt, as long as no accepted capacity answer
puts a candidate back into the queue that was tried before; a claim then never runs into
the uniqueness of the attempts.
-/

namespace Heniek.CandidateAttempts
open KeyedTable AccountScheduling AttemptSettlement SchedulingSteps SchedulingRuns

variable {db db' : SchedulingDatabase} {now : Int} {w : SchedulingWorld}

/-- A candidate that may still be claimed has not been tried. -/
def Untried (db : SchedulingDatabase) : Prop :=
  ∀ row ∈ db.candidates.rows, row.state = .pending ∨ row.state = .queued →
    (row.runId, row.candidateIndex) ∉ triedCandidates db

theorem Untried.keep (untried : Untried db) (candidates : db'.candidates = db.candidates)
    (tried : ∀ key ∈ triedCandidates db', key ∈ triedCandidates db) : Untried db' := by
  intro row member open' clash
  rw [candidates] at member
  exact untried row member open' (tried _ clash)

variable {runId : String} {index : Nat}

theorem mem_tried : (runId, index) ∈ triedCandidates db ↔
      ∃ attempt ∈ db.attempts.rows, attempt.runId = runId ∧ attempt.candidateIndex = index := by
  simp only [triedCandidates, List.mem_map, Prod.mk.injEq]

theorem amended_tried (amends : Amended db db') :
    ∀ key ∈ triedCandidates db', key ∈ triedCandidates db := by
  obtain ⟨attempt, amended, found, _, _, _, sameRun, sameIndex, rfl⟩ := amends
  intro key member
  obtain ⟨row, listed, rfl⟩ := List.mem_map.mp member
  rcases Table.mem_upsert.mp listed with rfl | ⟨old, _⟩
  · exact List.mem_map.mpr ⟨attempt, Table.mem_of_find? found, by rw [sameRun, sameIndex]⟩
  · exact List.mem_map_of_mem old

theorem tried_upsert {attempt : ExecutionAttempt} {key : String × Nat}
    (member : key ∈ (db.attempts.upsert attempt).rows.map
      fun row => (row.runId, row.candidateIndex)) :
    key = (attempt.runId, attempt.candidateIndex) ∨ key ∈ triedCandidates db := by
  obtain ⟨row, listed, rfl⟩ := List.mem_map.mp member
  rcases Table.mem_upsert.mp listed with rfl | ⟨old, _⟩
  · exact Or.inl rfl
  · exact Or.inr (List.mem_map_of_mem old)

theorem Untried.queues (untried : Untried db) {requestedPriority : Int}
    (queues : Queues runId requestedPriority now index db db')
    (fresh : (runId, index) ∉ triedCandidates db) : Untried db' := by
  obtain ⟨candidate, accountId, found, _, _, rfl⟩ := queues
  intro row member open'
  rcases Table.mem_upsert.mp member with rfl | ⟨old, _⟩
  · exact Eq.subst (motive := (· ∉ triedCandidates db)) (Table.key_of_find? found).symm fresh
  · exact untried row old open'

theorem Untried.enqueueEach (untried : Untried db) {requestedPriority : Int} {indexes : List Nat}
    (fresh : ∀ index ∈ indexes, (runId, index) ∉ triedCandidates db) :
    Untried (AccountScheduling.enqueueEach db runId requestedPriority now indexes).2 := by
  refine (enqueueEach_invariant
    (P := fun _ after => Untried after ∧ triedCandidates after = triedCandidates db)
    ⟨untried, rfl⟩ ?_).1
  intro index listed _ before after holds queues
  refine ⟨holds.1.queues queues (holds.2 ▸ fresh index listed), ?_⟩
  obtain ⟨_, _, _, _, _, rfl⟩ := queues
  exact holds.2

theorem Untried.granted (untried : Untried db) {ownerId : String} {expiresAt : Int}
    {selected : QueueRow} :
    Untried (AccountScheduling.granted db ownerId expiresAt selected) := by
  intro row member open' clash
  obtain ⟨before, stored, rfl⟩ := List.mem_map.mp member
  have same := claimCandidate_key selected before
  rw [same] at clash
  unfold claimCandidate at open'
  rcases tried_upsert clash with new | old
  · obtain ⟨sameRun, sameIndex⟩ : before.runId = selected.entry.runId ∧
        before.candidateIndex = selected.entry.candidateIndex := Prod.mk.inj new
    simp [sameRun, sameIndex, claimedState] at open'
  · refine untried before stored ?_ old
    split at open'
    · simp only [claimedState] at open'
      split at open'
      · simp at open'
      · split at open'
        · rename_i queued
          exact Or.inr queued
        · exact open'
    · exact open'

theorem settled_open {key : String × Nat} {state : CandidateState} {row : ExecutionCandidate}
    (closed : state ≠ .pending ∧ state ≠ .queued)
    (member : row ∈ (db.candidates.modify key (settleCandidate state)
      (settleCandidate_key state)).rows) (open' : row.state = .pending ∨ row.state = .queued) :
    row ∈ db.candidates.rows ∧ (row.runId, row.candidateIndex) ≠ key := by
  obtain ⟨before, stored, rfl⟩ := List.mem_map.mp member
  split at open'
  · exact absurd open' (not_or.mpr closed)
  · rename_i other
    rw [if_neg other]
    exact ⟨stored, other⟩

theorem closed_tried {input : CompleteInput} {attempt : ExecutionAttempt} :
    ∀ key ∈ triedCandidates (closeAttempt db input attempt), key ∈ triedCandidates db := by
  intro key member
  obtain ⟨row, listed, rfl⟩ := List.mem_map.mp member
  obtain ⟨before, stored, rfl⟩ := List.mem_map.mp listed
  refine List.mem_map.mpr ⟨before, stored, ?_⟩
  split <;> rfl

theorem Untried.completed (untried : Untried db) {input : CompleteInput}
    {attempt : ExecutionAttempt} (completes : Completed now input attempt db db') :
    Untried db' := by
  have closed : Untried (closeAttempt db input attempt) := by
    intro row member open' clash
    refine untried row (settled_open ?_ member open').1 open' (closed_tried _ clash)
    cases input.status <;> exact ⟨nofun, nofun⟩
  rcases completes.settled with ⟨requestedPriority, _, rfl⟩ | rfl
  · have fresh : ∀ index ∈ remainingIndexes (closeAttempt db input attempt) attempt.runId
        attempt.candidateIndex,
        (attempt.runId, index) ∉ triedCandidates (closeAttempt db input attempt) := by
      intro index listed
      obtain ⟨row, remaining, rfl⟩ := List.mem_map.mp ((List.mem_insertionSort _).mp listed)
      obtain ⟨stored, facts⟩ := List.mem_filter.mp remaining
      obtain ⟨sameRun, _, pending⟩ := of_decide_eq_true facts
      exact sameRun ▸ closed row stored (Or.inl pending)
    exact (closed.enqueueEach fresh).keep rfl fun _ member => member
  · exact closed.keep rfl fun _ member => member

theorem Untried.cancelled (untried : Untried db) {schedule : ExecutionSchedule}
    (inside : cancelQueuedInside db schedule = .ok db') : Untried db' := by
  obtain ⟨candidate, _, _, rfl⟩ := cancelQueuedInside_ok.mp inside
  intro row member open' clash
  obtain ⟨stored, other⟩ := settled_open (by exact ⟨nofun, nofun⟩) member open'
  rcases tried_upsert clash with new | old
  · exact other new
  · exact untried row stored open' old

theorem Untried.created (untried : Untried db) (coherent : Coherent db)
    {input : CreateExecutionScheduleInput} (creates : Created now input db db') : Untried db' := by
  obtain ⟨middle, inserted, rfl⟩ := creates.inserted
  have tried : triedCandidates middle = triedCandidates db := by
    unfold triedCandidates
    rw [inserted.attempts]
  have unknown : ∀ index, (input.runId, index) ∉ triedCandidates middle := by
    intro index clash
    rw [tried] at clash
    exact creates.fresh (coherent.scheduled _ (coherent.tried _ clash))
  refine Untried.enqueueEach ?_ fun index _ => unknown index
  intro row member open'
  rcases (inserted.candidates row).mp member with old | ⟨item, _, rfl⟩
  · rw [tried]
    exact untried row old open'
  · exact unknown item.2

/-- The candidate an answer puts back into the queue of a waiting schedule. -/
def answerTarget (db : SchedulingDatabase) (runId : String) (answer : CapacityAnswer) :
    Option (String × Nat) :=
  match db.schedules.find? runId, answeredIndex answer with
  | some schedule, .ok index =>
    if schedule.state = .waitingOnUser ∧ answer ≠ .cancel then some (runId, index) else none
  | _, _ => none

/-- The candidate an accepted capacity answer puts back into the queue. -/
def resumedCandidate (db : SchedulingDatabase) : Operation → Option (String × Nat)
  | .applyAnswer input =>
    if (db.schedules.find? input.runId).map ExecutionSchedule.revision =
        some input.expectedRevision then
      answerTarget db input.runId input.answer
    else none
  | .answerQuestion input =>
    match (do
      let question ← pendingQuestion db input
      let label ← submittedLabel question input.answers
      chosenAnswer label) with
    | .ok answer => answerTarget db input.runId answer
    | .error _ => none
  | _ => none

/-- An accepted answer does not put a candidate back that has been tried. -/
def ResumesUntried (db : SchedulingDatabase) (operation : Operation) : Prop :=
  ∀ key ∈ resumedCandidate db operation, key ∉ triedCandidates db

instance (db : SchedulingDatabase) (operation : Operation) :
    Decidable (ResumesUntried db operation) :=
  inferInstanceAs (Decidable (∀ key ∈ resumedCandidate db operation, key ∉ triedCandidates db))

theorem resumedCandidate_answer {input : CapacityAnswerInput} {schedule : ExecutionSchedule}
    (found : db.schedules.find? input.runId = some schedule)
    (waiting : schedule.state = .waitingOnUser)
    (current : schedule.revision = input.expectedRevision) (resumes : input.answer ≠ .cancel)
    (chosen : answeredIndex input.answer = .ok index) :
    resumedCandidate db (.applyAnswer input) = some (input.runId, index) := by
  simp [resumedCandidate, answerTarget, found, waiting, current, resumes, chosen]

theorem resumesUntried_answer {input : AnswerQuestionInput} {question : CapacityQuestion}
    {label : String} {answer : CapacityAnswer} {revision : Nat}
    (pending : pendingQuestion db input = .ok question)
    (submitted : submittedLabel question input.answers = .ok label)
    (chosen : chosenAnswer label = .ok answer)
    (resumes : ResumesUntried db (.answerQuestion input)) :
    ResumesUntried db (.applyAnswer ⟨input.runId, revision, answer⟩) := by
  have target : resumedCandidate db (.answerQuestion input) =
      answerTarget db input.runId answer := by
    simp only [resumedCandidate, pending, submitted, chosen, bind, Except.bind]
  intro key named
  refine resumes key ?_
  rw [target]
  simp only [resumedCandidate] at named
  split at named
  · exact named
  · cases named

theorem Untried.performed (untried : Untried db) (coherent : Coherent db) {operation : Operation}
    {outcome : Outcome} (resumes : ResumesUntried db operation)
    (performs : Performs now db operation outcome db') : Untried db' := by
  have expired : Untried (expireOrphanLeases db now) := untried.keep rfl fun _ member => member
  have weighed : ∀ accountId, Untried (weighHeads (expireOrphanLeases db now) now accountId).1 := by
    intro accountId
    refine expired.keep weighHeads_frame.1 fun key member => ?_
    unfold triedCandidates at member
    rwa [weighHeads_frame.2.2.1] at member
  induction performs with
  | create created => exact untried.created coherent created
  | claimNothing _ => exact weighed _
  | claim _ grants =>
    obtain ⟨_, _, _, _, rfl⟩ := grantSelected_ok.mp grants
    exact (weighed _).granted
  | amend amended =>
    have tried := amended_tried amended
    obtain ⟨_, _, _, _, _, _, _, _, rfl⟩ := amended
    exact untried.keep rfl tried
  | renew _ _ => exact untried.keep rfl fun _ member => member
  | restore _ restored =>
    obtain ⟨middle, rfl | amended, rfl⟩ := restored.recovered
    · exact untried.keep rfl fun _ member => member
    · have tried := amended_tried amended
      obtain ⟨_, _, _, _, _, _, _, _, rfl⟩ := amended
      exact untried.keep rfl tried
  | complete completed => exact untried.completed completed
  | cancelNothing => exact untried
  | cancel _ _ _ inside => exact untried.cancelled inside
  | stale => exact untried
  | answerCancel _ _ _ _ inside => exact untried.cancelled inside
  | answerResume found waiting current differs chosen resumed =>
    obtain ⟨middle, queues, rfl⟩ := resumed
    have fresh := resumes _ (resumedCandidate_answer found waiting current differs chosen)
    rw [← Table.key_of_find? found] at fresh
    exact (untried.queues queues fresh).keep rfl fun _ member => member
  | answerQuestion pending submitted chosen _ ih =>
    exact (ih (resumesUntried_answer pending submitted chosen resumes)).keep rfl
      fun _ member => member

theorem grantSelected_succeeds (coherent : Coherent db) {ownerId : String} {expiresAt : Int}
    {selected : QueueRow} (scheduled : selected.entry.runId ∈ db.schedules.keys)
    (candidate : (selected.entry.runId, selected.entry.candidateIndex) ∈ db.candidates.keys)
    (untried : (selected.entry.runId, selected.entry.candidateIndex) ∉ triedCandidates db) :
    ∃ result, grantSelected db ownerId expiresAt selected = .ok result := by
  have freshAttempt : db.drawn ∉ db.attempts.keys := fun member =>
    Nat.lt_irrefl _ (coherent.attemptsDrawn _ member)
  have freshLease : db.drawn + 1 ∉ db.leases.keys := fun member =>
    absurd (coherent.leasesDrawn _ member) (by omega)
  have unleased : db.drawn ∉ leasedAttempts db := fun member =>
    freshAttempt (coherent.leased _ member)
  have unique : oneActivePerAttempt (db.leases.upsert
      (claimedLease db.drawn (db.drawn + 1) ownerId expiresAt selected)) = true := by
    refine decide_eq_true ?_
    rw [Table.rows_upsert_of_not_mem freshLease]
    refine List.Nodup.sublist (List.filter_sublist.map _) ?_
    rw [List.map_append, List.nodup_append]
    refine ⟨coherent.single, List.nodup_singleton _, ?_⟩
    intro attemptId old other new
    rw [List.mem_singleton.mp new]
    rintro rfl
    exact unleased old
  refine ⟨_, grantSelected_ok.mpr ⟨⟨?_, scheduled, candidate, freshAttempt⟩, freshLease, unique,
    rfl, rfl⟩⟩
  exact fun row stored clash => untried (mem_tried.mpr ⟨row, stored, clash⟩)

theorem available_untried (untried : Untried db) {accountId : Option String} {row : QueueRow}
    (available : row ∈ (weighHeads db now accountId).2) :
    row.entry.runId ∈ db.schedules.keys ∧
      (row.entry.runId, row.entry.candidateIndex) ∈ db.candidates.keys ∧
      (row.entry.runId, row.entry.candidateIndex) ∉ triedCandidates db := by
  have joined := (weighHeads_available row available).1
  obtain ⟨stored, key⟩ := Table.find?_eq_some.mp joined.candidate
  refine ⟨Table.find?_isSome.mp (by rw [joined.schedule]; rfl),
    Table.find?_isSome.mp (by rw [joined.candidate]; rfl), ?_⟩
  exact Eq.subst (motive := (· ∉ triedCandidates db)) key
    (untried row.candidate stored (Or.inr joined.candidateQueued))

theorem claim_succeeds (coherent : Coherent db) (untried : Untried db) (input : ClaimInput)
    (positive : 1 ≤ input.leaseTtlMs.getD defaultLeaseTtlMs)
    (safe : input.leaseTtlMs.getD defaultLeaseTtlMs ≤ maxSafeInteger) :
    ∃ result, claimNextExecutionCandidate db now input = .ok result := by
  have expired : Untried (expireOrphanLeases db now) := untried.keep rfl fun _ member => member
  have weighed : Coherent (weighHeads (expireOrphanLeases db now) now input.accountId).1 :=
    coherent.expire.weighed
  unfold claimNextExecutionCandidate
  simp only
  rw [if_neg (by omega)]
  split
  · exact ⟨_, rfl⟩
  · rename_i selected chosen
    obtain ⟨scheduled, candidate, fresh⟩ := available_untried expired (selectRow_mem chosen)
    have untriedStill : (selected.entry.runId, selected.entry.candidateIndex) ∉
        triedCandidates (weighHeads (expireOrphanLeases db now) now input.accountId).1 := by
      unfold triedCandidates
      rw [weighHeads_frame.2.2.1]
      exact fresh
    have scheduledStill : selected.entry.runId ∈
        (weighHeads (expireOrphanLeases db now) now input.accountId).1.schedules.keys := by
      rw [weighHeads_keys]
      exact scheduled
    have candidateStill : (selected.entry.runId, selected.entry.candidateIndex) ∈
        (weighHeads (expireOrphanLeases db now) now input.accountId).1.candidates.keys := by
      rw [weighHeads_frame.1]
      exact candidate
    obtain ⟨result, granted⟩ : ∃ result,
        grantSelected (weighHeads (expireOrphanLeases db now) now input.accountId).1 input.ownerId
          (now + input.leaseTtlMs.getD defaultLeaseTtlMs) selected = .ok result :=
      grantSelected_succeeds weighed scheduledStill candidateStill untriedStill
    rw [granted]
    exact ⟨_, rfl⟩

theorem untried_reachable (reachable : ReachableWith (fun w _ operation =>
    ResumesUntried w.db operation) w) : Untried w.db := by
  refine (reachable.invariant (P := fun w => Coherent w.db ∧ Untried w.db)
    (fun clock => ?_) ?_ ?_).2
  · exact ⟨coherent_empty, fun row member => absurd member List.not_mem_nil⟩
  · intro w now operation outcome db' holds resumes performs
    exact ⟨holds.1.performed performs, holds.2.performed holds.1 resumes performs⟩
  · exact fun w now operation holds _ => holds

/-- What a claim promises of its database: it fails on no constraint, and what it selects has
not been tried. -/
structure ClaimsFreely (db : SchedulingDatabase) (now : Int) (input : ClaimInput) : Prop where
  unconstrained : ∀ table, claimNextExecutionCandidate db now input ≠ .error (.constraint table)
  selected : ∀ row, selectRow now (weighHeads (expireOrphanLeases db now) now input.accountId).2 =
    some row → (row.entry.runId, row.entry.candidateIndex) ∉ triedCandidates db

/-- Along the runs whose accepted answers put no tried candidate back, no claim is poisoned. -/
theorem claims_never_poisoned (w : SchedulingWorld)
    (reachable : ReachableWith (fun w _ operation => ResumesUntried w.db operation) w)
    (now : Int) (input : ClaimInput) : ClaimsFreely w.db now input := by
  have untried := untried_reachable reachable
  refine ⟨fun table failed => ?_, fun row chosen => ?_⟩
  · by_cases valid : 1 ≤ input.leaseTtlMs.getD defaultLeaseTtlMs ∧
        input.leaseTtlMs.getD defaultLeaseTtlMs ≤ maxSafeInteger
    · obtain ⟨result, claimed⟩ := claim_succeeds reachable.coherent untried input valid.1 valid.2
      exact absurd (claimed.symm.trans failed) nofun
    · unfold claimNextExecutionCandidate at failed
      simp only at failed
      rw [if_pos (by omega)] at failed
      cases failed
  · have expired : Untried (expireOrphanLeases w.db now) := untried.keep rfl fun _ member => member
    exact (available_untried expired (selectRow_mem chosen)).2.2

def askedSteps : List (Int × Operation) :=
  [(0, .create (sampleCreation "run" .ask
      [sampleCandidate (some "primary") true, sampleCandidate (some "fallback") true])),
    (0, .claim sampleClaim),
    (1, .create (sampleCreation "other" .queue [sampleCandidate (some "fallback") true])),
    (1, .claim sampleClaim), (2, .complete ⟨0, .failed, none, none, true⟩), (3, .claim sampleClaim)]

def answerRun (label : String) : Int × Operation :=
  (4, .answerQuestion ⟨"run", 4, 1, [⟨5, "single_choice", some [label]⟩], "key"⟩)

def resumedSteps : List (Int × Operation) :=
  askedSteps ++ [(4, .applyAnswer ⟨"run", 4, .fallback 1⟩)]

theorem claims_never_poisoned_fallback :
    (runSteps (opening 0) resumedSteps).db.queue.rows.map
      (fun entry => entry.candidateIndex) = [1] ∧
      AllowedAlong (fun w _ operation => ResumesUntried w.db operation) (opening 0) resumedSteps ∧
      ClaimsFreely (runSteps (opening 0) resumedSteps).db 20 sampleClaim := by
  have along : AllowedAlong (fun w _ operation => ResumesUntried w.db operation) (opening 0)
      resumedSteps := by decide +kernel
  exact ⟨by decide +kernel, along,
    claims_never_poisoned _ ⟨0, runSteps_advances along⟩ 20 sampleClaim⟩

def poisonedSteps : List (Int × Operation) := askedSteps ++ [answerRun "Wait for primary"]

def failureOf {α : Type} : SchedulingResult α → Option SchedulingError
  | .ok _ => none
  | .error error => some error

theorem failureOf_eq_some {α : Type} {result : SchedulingResult α} {error : SchedulingError}
    (failed : failureOf result = some error) : result = .error error := by
  cases result with
  | ok _ => cases failed
  | error _ =>
    cases failed
    rfl

theorem claims_poisoned :
    ¬ ∀ w, Reachable w → ∀ now input, ClaimsFreely w.db now input := by
  intro free
  have failed : failureOf (claimNextExecutionCandidate (runSteps (opening 0) poisonedSteps).db 5
      sampleClaim) = some (.constraint "execution_attempt") := by decide +kernel
  exact (free _ (reachable_runSteps 0 poisonedSteps) 5 sampleClaim).unconstrained _
    (failureOf_eq_some failed)

end Heniek.CandidateAttempts
