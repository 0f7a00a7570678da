import Heniek.CandidateAttempts

/-!
Cancelling a schedule that does not run. The cancellation records an attempt for the
primary candidate, so it goes through exactly when that candidate has no attempt yet; a
schedule that is queued again after its primary has failed cannot be cancelled.
-/

namespace Heniek.QueuedCancellation
open KeyedTable AccountScheduling AttemptSettlement SchedulingSteps SchedulingRuns
open CandidateAttempts

variable {db db' : SchedulingDatabase} {now : Int} {w : SchedulingWorld} {runId : String}

structure Cancelled (runId : String) (db db' : SchedulingDatabase) : Prop where
  terminal : ∃ schedule attempt, db'.schedules.find? runId = some schedule ∧
    schedule.state = .terminal ∧ schedule.currentAttemptId = some attempt.attemptId ∧
    attempt ∈ db'.attempts.rows ∧ attempt.runId = runId ∧ attempt.status = .cancelled
  unqueued : ∀ entry ∈ db'.queue.rows, entry.runId ≠ runId
  schedules : ∀ row, row.runId ≠ runId → (row ∈ db'.schedules.rows ↔ row ∈ db.schedules.rows)
  candidates : ∀ row, row.runId ≠ runId → (row ∈ db'.candidates.rows ↔ row ∈ db.candidates.rows)
  queue : ∀ row, row.runId ≠ runId → (row ∈ db'.queue.rows ↔ row ∈ db.queue.rows)
  attempts : ∀ row, row.runId ≠ runId → (row ∈ db'.attempts.rows ↔ row ∈ db.attempts.rows)
  leases : db'.leases = db.leases
  questions : ∀ row, row.runId ≠ runId → (row ∈ db'.questions.rows ↔ row ∈ db.questions.rows)
  capacities : db'.capacities = db.capacities

variable {schedule : ExecutionSchedule}

theorem cancelled_run {candidate : ExecutionCandidate}
    (found : db.schedules.find? schedule.runId = some schedule)
    (fresh : db.drawn ∉ db.attempts.keys) :
    Cancelled schedule.runId db (SchedulingSteps.cancelled db schedule candidate) where
  terminal := by
    refine ⟨cancelSchedule db.drawn schedule, cancelledAttempt db.drawn schedule candidate, ?_, rfl,
      rfl, ?_, rfl, rfl⟩
    · unfold SchedulingSteps.cancelled
      rw [Table.modify_eq_upsert found]
      exact Table.find?_upsert_self _ _
    · exact Table.mem_upsert.mpr (Or.inl rfl)
  unqueued := by
    intro entry member
    exact of_decide_eq_false (Table.mem_deleteWhere.mp member).2
  schedules := fun row other => Table.mem_modify_of_ne (cancelSchedule_runId db.drawn) other
  candidates := fun row other =>
    Table.mem_modify_of_ne (settleCandidate_key .failed) fun same => other (Prod.mk.inj same).1
  queue := by
    intro row other
    refine Table.mem_deleteWhere.trans (and_iff_left ?_)
    exact decide_eq_false other
  attempts := by
    intro row other
    unfold SchedulingSteps.cancelled
    rw [Table.rows_upsert_of_not_mem fresh, List.mem_append, List.mem_singleton]
    refine or_iff_left ?_
    rintro rfl
    exact other rfl
  leases := rfl
  questions := fun _ _ => Iff.rfl
  capacities := rfl

theorem cancelQueuedInside_succeeds (coherent : Coherent db)
    (found : db.schedules.find? schedule.runId = some schedule) :
    (∃ db', cancelQueuedInside db schedule = .ok db' ∧ Cancelled schedule.runId db db') ↔
      (schedule.runId, 0) ∉ triedCandidates db := by
  have scheduled : schedule.runId ∈ db.schedules.keys := Table.find?_isSome.mp (by rw [found]; rfl)
  have fresh : db.drawn ∉ db.attempts.keys := fun member =>
    Nat.lt_irrefl _ (coherent.attemptsDrawn _ member)
  constructor
  · rintro ⟨db', inside, _⟩ tried
    obtain ⟨candidate, _, admits, _⟩ := cancelQueuedInside_ok.mp inside
    obtain ⟨attempt, stored, same⟩ := mem_tried.mp tried
    exact admits.first attempt stored same
  · intro untried
    have primary := coherent.primary _ scheduled
    obtain ⟨candidate, stored⟩ := Table.exists_find? primary
    refine ⟨_, cancelQueuedInside_ok.mpr ⟨candidate, stored, ⟨?_, scheduled, primary, fresh⟩, rfl⟩,
      cancelled_run found fresh⟩
    exact fun row listed clash => untried (mem_tried.mpr ⟨row, listed, clash⟩)

/-- Every way of cancelling the schedule goes through. -/
structure Cancels (db : SchedulingDatabase) (schedule : ExecutionSchedule) : Prop where
  direct : ∃ db', cancelQueuedExecutionSchedule db schedule.runId = .ok (true, db') ∧
    Cancelled schedule.runId db db'
  answer : schedule.state = .waitingOnUser → ∀ now, ∃ db',
    applyCapacityAnswer db now ⟨schedule.runId, schedule.revision, .cancel⟩ = .ok (.accepted, db') ∧
      Cancelled schedule.runId db db'
  question : schedule.state = .waitingOnUser → ∀ now input question,
    input.runId = schedule.runId → input.answeredByKeyId ≠ "" →
    pendingQuestion db input = .ok question →
    submittedLabel question input.answers = .ok "Cancel run" →
    ∃ outcome db', answerCapacityQuestion db now input = .ok (outcome, db') ∧
      Cancelled schedule.runId db db'

theorem read_found (found : db.schedules.find? runId = some schedule) :
    readExecutionScheduleRequired db runId = .ok schedule := by
  unfold readExecutionScheduleRequired
  rw [found]

theorem applyCancel_eq (found : db.schedules.find? schedule.runId = some schedule)
    (waiting : schedule.state = .waitingOnUser)
    (inside : cancelQueuedInside db schedule = .ok db') :
    applyCapacityAnswer db now ⟨schedule.runId, schedule.revision, .cancel⟩ =
      .ok (.accepted, db') := by
  unfold applyCapacityAnswer
  simp only [read_found found, waiting, inside, bind, Except.bind]
  simp

theorem answerCancel_eq {input : AnswerQuestionInput} {question : CapacityQuestion}
    (found : db.schedules.find? schedule.runId = some schedule)
    (waiting : schedule.state = .waitingOnUser) (sameRun : input.runId = schedule.runId)
    (signed : input.answeredByKeyId ≠ "") (pending : pendingQuestion db input = .ok question)
    (submitted : submittedLabel question input.answers = .ok "Cancel run")
    (inside : cancelQueuedInside db schedule = .ok db')
    (cancels : Cancelled schedule.runId db db') :
    ∃ outcome, answerCapacityQuestion db now input =
      .ok (outcome, withAnswer db' input question) := by
  obtain ⟨terminal, _, stored, _⟩ := cancels.terminal
  have chosen : chosenAnswer "Cancel run" = .ok .cancel := by decide
  have applied : applyCapacityAnswer db now ⟨schedule.runId, schedule.revision, .cancel⟩ =
      .ok (.accepted, db') := applyCancel_eq found waiting inside
  rw [← sameRun] at found applied stored
  have answered : (withAnswer db' input question).schedules.find? input.runId = some terminal :=
    stored
  refine ⟨⟨input.interactionId, question.revision + 1, terminal.revision, db'.drawn⟩, ?_⟩
  unfold answerCapacityQuestion
  rw [if_neg signed]
  simp only [pending, submitted, chosen, read_found found, applied, bind, Except.bind]
  have read := read_found answered
  unfold withAnswer at read
  simp only [read]
  rfl

theorem withAnswer_cancelled {input : AnswerQuestionInput} {question : CapacityQuestion}
    (asked : question.runId = runId) (cancels : Cancelled runId db db') :
    Cancelled runId db (withAnswer db' input question) where
  terminal := cancels.terminal
  unqueued := cancels.unqueued
  schedules := cancels.schedules
  candidates := cancels.candidates
  queue := cancels.queue
  attempts := cancels.attempts
  leases := cancels.leases
  questions := by
    intro row other
    rw [← cancels.questions row other]
    refine Table.mem_upsert.trans ⟨?_, fun stored => Or.inr ⟨stored, ?_⟩⟩
    · rintro (rfl | ⟨old, _⟩)
      · exact absurd asked other
      · exact old
    · exact fun same => other (same.trans asked)
  capacities := cancels.capacities

/-- A schedule that does not run can be cancelled if and only if its primary candidate has no
attempt. -/
theorem cancels_iff_primary_untried (w : SchedulingWorld) (reachable : Reachable w)
    (schedule : ExecutionSchedule)
    (found : w.db.schedules.find? schedule.runId = some schedule)
    (still : schedule.state = .queued ∨ schedule.state = .waitingOnUser) :
    Cancels w.db schedule ↔ (schedule.runId, 0) ∉ triedCandidates w.db := by
  have succeeds := cancelQueuedInside_succeeds reachable.coherent found
  have notTerminal : ¬ schedule.state = .terminal := by
    rcases still with state | state <;> simp [state]
  have notRunning : ¬ schedule.state = .running := by
    rcases still with state | state <;> simp [state]
  constructor
  · intro cancels
    obtain ⟨db', ran, cancelled⟩ := cancels.direct
    refine succeeds.mp ⟨db', ?_, cancelled⟩
    unfold cancelQueuedExecutionSchedule at ran
    simp only [read_found found, bind, Except.bind] at ran
    rw [if_neg notTerminal, if_neg notRunning] at ran
    split at ran
    · cases ran
    · rename_i inside
      cases ran
      exact inside
  · intro untried
    obtain ⟨db', inside, cancelled⟩ := succeeds.mpr untried
    refine ⟨⟨db', ?_, cancelled⟩, fun waiting now => ⟨db', ?_, cancelled⟩, ?_⟩
    · unfold cancelQueuedExecutionSchedule
      simp only [read_found found, bind, Except.bind]
      rw [if_neg notTerminal, if_neg notRunning]
      simp only [inside]
    · exact applyCancel_eq found waiting inside
    · intro waiting now input question sameRun signed pending submitted
      obtain ⟨outcome, answered⟩ : ∃ outcome, answerCapacityQuestion w.db now input =
          .ok (outcome, withAnswer db' input question) :=
        answerCancel_eq found waiting sameRun signed pending submitted inside cancelled
      have asked := Table.key_of_find? (pendingQuestion_ok pending).1
      exact ⟨outcome, _, answered, withAnswer_cancelled (asked.trans sameRun) cancelled⟩

theorem cancels_iff_primary_untried_waiting :
    ∃ schedule, (runSteps (opening 0) waitingSteps).db.schedules.find? "run" = some schedule ∧
      schedule.state = .waitingOnUser ∧
      Cancels (runSteps (opening 0) waitingSteps).db schedule := by
  have asked : ((runSteps (opening 0) waitingSteps).db.schedules.find? "run").any
      (fun schedule => schedule.state = .waitingOnUser) = true := by decide +kernel
  have untried : ("run", 0) ∉ triedCandidates (runSteps (opening 0) waitingSteps).db := by
    decide +kernel
  obtain ⟨schedule, found, waiting⟩ := (Option.any_eq_true _ _).mp asked
  have key := Table.key_of_find? found
  refine ⟨schedule, found, of_decide_eq_true waiting, ?_⟩
  rw [← key] at found untried
  exact (cancels_iff_primary_untried _ (reachable_runSteps 0 waitingSteps) schedule found
    (Or.inr (of_decide_eq_true waiting))).mpr untried

def requeuedSteps : List (Int × Operation) :=
  [(0, .create (sampleCreation "run" .fallback
      [sampleCandidate (some "primary") true, sampleCandidate (some "fallback") true])),
    (0, .claim sampleClaim), (1, .complete ⟨0, .failed, none, none, true⟩)]

theorem requeued_not_cancelled :
    ¬ ∀ w, Reachable w → ∀ schedule, w.db.schedules.find? schedule.runId = some schedule →
      schedule.state = .queued ∨ schedule.state = .waitingOnUser → Cancels w.db schedule := by
  intro cancels
  have queued : ((runSteps (opening 0) requeuedSteps).db.schedules.find? "run").any
      (fun schedule => schedule.state = .queued) = true := by decide +kernel
  have failed : failureOf (cancelQueuedExecutionSchedule (runSteps (opening 0) requeuedSteps).db
      "run") = some (.constraint "execution_attempt") := by decide +kernel
  obtain ⟨schedule, found, state⟩ := (Option.any_eq_true _ _).mp queued
  have key := Table.key_of_find? found
  rw [← key] at found failed
  obtain ⟨db', ran, _⟩ := (cancels _ (reachable_runSteps 0 requeuedSteps) schedule found
    (Or.inl (of_decide_eq_true state))).direct
  exact absurd (ran.symm.trans (failureOf_eq_some failed)) nofun

end Heniek.QueuedCancellation
