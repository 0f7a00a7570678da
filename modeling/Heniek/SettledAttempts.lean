import Heniek.LastingRows
import Heniek.SchedulingRuns

/-!
What no later operation of the scheduling store changes. An attempt stays with its run and its
candidate, and as it is once it has ended; the revision of a schedule never goes back, and a
schedule stays as it is once it is terminal.
-/

namespace Heniek.SettledAttempts
open KeyedTable AccountScheduling AttemptSettlement SchedulingSteps SchedulingRuns

structure AttemptStands (attempt later : ExecutionAttempt) : Prop where
  attemptId : later.attemptId = attempt.attemptId
  candidate : (later.runId, later.candidateIndex) = (attempt.runId, attempt.candidateIndex)
  ended : attempt.status.ongoing = false → later = attempt

structure ScheduleStands (schedule later : ExecutionSchedule) : Prop where
  runId : later.runId = schedule.runId
  revision : schedule.revision ≤ later.revision
  terminal : schedule.state = .terminal → later = schedule

theorem AttemptStands.refl (attempt : ExecutionAttempt) : AttemptStands attempt attempt :=
  ⟨rfl, rfl, fun _ => rfl⟩

theorem ScheduleStands.refl (schedule : ExecutionSchedule) : ScheduleStands schedule schedule :=
  ⟨rfl, le_rfl, fun _ => rfl⟩

theorem AttemptStands.trans {attempt later last : ExecutionAttempt}
    (first : AttemptStands attempt later) (second : AttemptStands later last) :
    AttemptStands attempt last where
  attemptId := second.attemptId.trans first.attemptId
  candidate := second.candidate.trans first.candidate
  ended := by
    intro ended
    have same := first.ended ended
    rw [second.ended (same ▸ ended), same]

theorem ScheduleStands.trans {schedule later last : ExecutionSchedule}
    (first : ScheduleStands schedule later) (second : ScheduleStands later last) :
    ScheduleStands schedule last where
  runId := second.runId.trans first.runId
  revision := first.revision.trans second.revision
  terminal := by
    intro terminal
    have same := first.terminal terminal
    rw [second.terminal (same ▸ terminal), same]

structure Stands (db db' : SchedulingDatabase) : Prop where
  attempts : Lasting AttemptStands db.attempts.rows db'.attempts.rows
  schedules : Lasting ScheduleStands db.schedules.rows db'.schedules.rows

variable {db db' : SchedulingDatabase} {now : Int}

theorem stands_of_eq (attempts : db'.attempts = db.attempts)
    (schedules : db'.schedules = db.schedules) : Stands db db' := by
  constructor
  · rw [attempts]
    exact .refl .refl _
  · rw [schedules]
    exact .refl .refl _

theorem Stands.trans {last : SchedulingDatabase} (first : Stands db db')
    (second : Stands db' last) : Stands db last :=
  ⟨first.attempts.trans .trans second.attempts, first.schedules.trans .trans second.schedules⟩

theorem moved_stands {runId : String} {change : ExecutionSchedule → ExecutionSchedule}
    {keeps : ∀ row, (change row).runId = row.runId}
    (moves : ∀ row ∈ db.schedules.rows, row.runId = runId → ScheduleStands row (change row)) :
    Stands db (moveSchedule db runId change keeps) :=
  ⟨.refl .refl _, .modify .refl keeps moves⟩

theorem enqueueEach_stands {runId : String} {requestedPriority : Int} {indexes : List Nat} :
    Stands db (enqueueEach db runId requestedPriority now indexes).2 :=
  stands_of_eq enqueueEach_frame.2.2.1 enqueueEach_frame.1

theorem awaitUser_stands (schedule : ExecutionSchedule) :
    ScheduleStands schedule (awaitUser schedule) := by
  refine ⟨awaitUser_runId schedule, ?_, fun terminal => ?_⟩
  · unfold awaitUser
    split
    · exact Nat.le_succ _
    · exact le_rfl
  · rw [awaitUser, if_neg (by simp [terminal])]

theorem weighHeads_stands {accountId : Option String} :
    Stands db (weighHeads db now accountId).1 :=
  weighHeads_invariant (P := fun after _ => Stands db after) (stands_of_eq rfl rfl)
    (fun _ _ _ _ holds _ => holds)
    fun _ _ _ _ _ holds _ _ => holds.trans
      ⟨.refl .refl _, .modify .refl awaitUser_runId fun row _ _ => awaitUser_stands row⟩

theorem claimed_stands {accountId : Option String} {ownerId : String} {expiresAt : Int}
    {selected : QueueRow} {claim : SchedulingClaim}
    (available : selected ∈ (weighHeads db now accountId).2)
    (grants : grantSelected (weighHeads db now accountId).1 ownerId expiresAt selected =
      .ok (claim, db')) : Stands db db' := by
  obtain ⟨admits, _, _, _, rfl⟩ := grantSelected_ok.mp grants
  refine weighHeads_stands.trans
    ⟨.added .refl admits.fresh, .modify .refl (runAttempt_runId _ _) ?_⟩
  intro row member same
  refine ⟨rfl, Nat.le_succ _, fun terminal => ?_⟩
  rcases weighHeads_idle available member same with state | state <;> simp [state] at terminal

theorem amended_stands (amends : Amended db db') : Stands db db' := by
  obtain ⟨attempt, amended, found, ongoing, _, sameId, sameRun, sameIndex, rfl⟩ := amends
  refine ⟨.upsert .refl fun row member same => ?_, .refl .refl _⟩
  have stored := Table.mem_of_find? found
  rw [Table.eq_of_key_eq member stored (same.trans sameId)]
  refine ⟨sameId, by rw [sameRun, sameIndex], fun ended => ?_⟩
  rw [ended] at ongoing
  cases ongoing

theorem completed_stands {input : CompleteInput} {attempt : ExecutionAttempt}
    (coherent : Coherent db) (completes : Completed now input attempt db db') : Stands db db' := by
  obtain ⟨stored, _⟩ := Table.find?_eq_some.mp completes.found
  have running : ∀ row ∈ db.schedules.rows, row.runId = attempt.runId → row.state ≠ .terminal := by
    intro row member same
    rw [(coherent.current attempt stored completes.ongoing row member same).1]
    decide
  have closed : Stands db (closeAttempt db input attempt) := by
    refine ⟨.modify .refl (finishedAttempt_attemptId input) fun row
      member same => ?_, .refl .refl _⟩
    have here :=
      Table.eq_of_key_eq member stored (same.trans (Table.key_of_find? completes.found).symm)
    subst here
    refine ⟨finishedAttempt_attemptId input row, rfl, fun ended => ?_⟩
    have ongoing := completes.ongoing
    rw [ended] at ongoing
    cases ongoing
  rcases completes.settled with ⟨requestedPriority, _, rfl⟩ | rfl
  · refine closed.trans (enqueueEach_stands.trans (moved_stands fun row member here => ?_))
    · rw [enqueueEach_frame.1] at member
      exact ⟨rfl, Nat.le_succ _, fun terminal => absurd terminal (running row member here)⟩
  · refine closed.trans (moved_stands fun row member here => ?_)
    exact ⟨rfl, Nat.le_succ _, fun terminal => absurd terminal (running row member here)⟩

theorem cancelled_stands {schedule : ExecutionSchedule} {runId : String}
    (found : db.schedules.find? runId = some schedule) (open' : schedule.state ≠ .terminal)
    (inside : cancelQueuedInside db schedule = .ok db') : Stands db db' := by
  obtain ⟨candidate, _, admits, rfl⟩ := cancelQueuedInside_ok.mp inside
  refine ⟨.added .refl admits.fresh,
    .modify .refl (cancelSchedule_runId _) fun row member same => ?_⟩
  rw [Table.eq_of_key_eq member (Table.mem_of_find? found) same]
  exact ⟨rfl, Nat.le_succ _, fun terminal => absurd terminal open'⟩

theorem created_stands {input : CreateExecutionScheduleInput} (creates : Created now input db db') :
    Stands db db' := by
  obtain ⟨middle, inserted, rfl⟩ := creates.inserted
  refine Stands.trans ⟨?_, ?_⟩ enqueueEach_stands
  · rw [inserted.attempts]
    exact .refl .refl _
  · rw [inserted.schedules]
    exact .added .refl creates.fresh

theorem resumed_stands {schedule : ExecutionSchedule} {runId : String} {candidateIndex : Nat}
    (found : db.schedules.find? runId = some schedule) (waiting : schedule.state = .waitingOnUser)
    (resumes : Resumed now schedule candidateIndex db db') : Stands db db' := by
  obtain ⟨middle, ⟨candidate, accountId, _, _, _, rfl⟩, rfl⟩ := resumes
  have queued : Stands db (putInQueue db candidate accountId schedule.requestedPriority now) :=
    stands_of_eq rfl rfl
  refine queued.trans (moved_stands fun row member same => ?_)
  rw [Table.eq_of_key_eq member (Table.mem_of_find? found) same]
  exact ⟨rfl, Nat.le_succ _, fun terminal => by simp [waiting] at terminal⟩

theorem performs_stands {operation : Operation} {outcome : Outcome} (coherent : Coherent db)
    (performs : Performs now db operation outcome db') : Stands db db' := by
  have expired : Stands db (expireOrphanLeases db now) := stands_of_eq rfl rfl
  induction performs with
  | create created => exact created_stands created
  | claimNothing _ => exact expired.trans weighHeads_stands
  | claim chosen granted => exact expired.trans (claimed_stands (selectRow_mem chosen) granted)
  | amend amended => exact amended_stands amended
  | renew _ _ => exact expired.trans (stands_of_eq rfl rfl)
  | restore _ restored =>
    obtain ⟨middle, recovered, rfl⟩ := restored.recovered
    have stands : Stands db middle := by
      rcases recovered with rfl | amends
      · exact stands_of_eq rfl rfl
      · exact amended_stands amends
    exact stands.trans (stands_of_eq rfl rfl)
  | complete completed => exact completed_stands coherent completed
  | cancelNothing => exact stands_of_eq rfl rfl
  | cancel found unfinished _ inside => exact cancelled_stands found unfinished inside
  | stale => exact stands_of_eq rfl rfl
  | answerCancel found waiting _ _ inside =>
    exact cancelled_stands found (by simp [waiting]) inside
  | answerResume found waiting _ _ _ resumed => exact resumed_stands found waiting resumed
  | answerQuestion _ _ _ _ ih => exact ih.trans (stands_of_eq rfl rfl)

theorem runSteps_stands {w : SchedulingWorld} (coherent : Coherent w.db)
    (steps : List (Int × Operation)) : Stands w.db (runSteps w steps).db := by
  induction steps generalizing w with
  | nil => exact stands_of_eq rfl rfl
  | cons step steps ih =>
    change Stands w.db (runSteps (advance w step.1 step.2) steps).db
    rcases advance_cases w step.1 step.2 with ⟨outcome, db', performed, moved⟩ | kept
    · have performs := perform_performs performed
      rw [moved]
      exact (performs_stands coherent performs).trans
        (@ih ⟨db', _, _⟩ (coherent.performed performs))
    · rw [kept]
      exact @ih ⟨w.db, step.1, w.outcomes⟩ coherent

/-- Whatever operations follow, ended attempts and terminal schedules stay as they are. -/
theorem settled_rows_stand (clock : Int) (before after : List (Int × Operation)) :
    Stands (runSteps (opening clock) before).db
      (runSteps (opening clock) (before ++ after)).db := by
  have parted : runSteps (opening clock) (before ++ after) =
      runSteps (runSteps (opening clock) before) after := List.foldl_append
  rw [parted]
  exact runSteps_stands (reachable_runSteps clock before).coherent after

end Heniek.SettledAttempts
