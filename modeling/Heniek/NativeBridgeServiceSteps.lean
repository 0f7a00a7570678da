import Heniek.NativeBridgeService

/-!
The calls of the native bridge service as actions. Two things are decided outside: whether
a run may take the failure of a claim whose dispatch is abandoned already, and whether it
may take an answer.
-/

namespace Heniek.NativeBridge
open FallibleRun BridgeModel
open ProjectionTables (RunStatus)

structure Rules where
  late : Bridge → String → Prop
  answers : Bridge → String → Prop

def terminal (status : RunStatus) : Bool :=
  decide (status = .succeeded ∨ status = .failed ∨ status = .cancelled)

def Permits (rules : Rules) (v : Bridge) : Action → Prop
  | .fail r d => ∃ x, v.dispatches d = some x ∧ x.runId = r ∧
      (x.state = .abandoned → rules.late v r)
  | .answer r _ => rules.answers v r
  | .settle r status => Idle v r ∧ terminal status = true ∧
      ∀ stage, v.stages r = some stage → stage.state.engaged = true
  | .finish _ => False
  | _ => True

def Belongs : ServiceCall → Action → Prop
  | .poll _, action => (∃ d, action = .abandon d) ∨ Claims action
  | .resume runId _, action => action = .resume runId
  | .cancel runId, action => action = .cancel runId
  | _, action => ¬ Claims action ∧ (∀ r, action ≠ .resume r) ∧ ∀ r, action ≠ .cancel r

theorem ordinary_abandon (d : Nat) : ¬ Claims (.abandon d) ∧
    (∀ r, Action.abandon d ≠ .resume r) ∧ ∀ r, Action.abandon d ≠ .cancel r := by
  simp [Claims]

theorem ordinary_submit (d : Nat) : ¬ Claims (.submit d) ∧
    (∀ r, Action.submit d ≠ .resume r) ∧ ∀ r, Action.submit d ≠ .cancel r := by
  simp [Claims]

theorem ordinary_settle (r : String) (status : RunStatus) : ¬ Claims (.settle r status) ∧
    (∀ r', Action.settle r status ≠ .resume r') ∧ ∀ r', Action.settle r status ≠ .cancel r' := by
  simp [Claims]

def Lawful (rules : Rules) (service : ServiceCall) (v : Bridge) (action : Action) : Prop :=
  Permits rules v action ∧ Belongs service action

def Flights (w : ServiceWorld) : Prop :=
  ∀ provisioning ∈ w.polls, ∀ claim ∈ provisioning.claims,
    OfRun (view w.db) claim.dispatchId claim.runId

structure Allowed (rules : Rules) (w : ServiceWorld) (service : ServiceCall) : Prop where
  late : ∀ {claim x}, failedClaim w service = some claim →
    (view w.db).dispatches claim.dispatchId = some x → x.state = .abandoned →
      rules.late (view w.db) claim.runId
  answers : ∀ {input result}, service = .answer input → answerable w.db input = .ok result →
    rules.answers (view w.db) input.runId

variable {rules : Rules} {w : ServiceWorld} {service : ServiceCall} {now : Int}
variable {db db' : NativeDatabase}
variable {law : Bridge → Action → Prop} {claim : ClaimedNativeStage} {index : Nat}
  {rest : List ClaimedNativeStage} {witnessOf : WitnessClassifier} {v : Bridge} {runId : String}

theorem Flights.moved {polls : List Provisioning} (flights : Flights w)
    (course : Guided law (view w.db) (view db'))
    (older : ∀ provisioning ∈ polls, ∀ claim ∈ provisioning.claims,
      ∃ before ∈ w.polls, claim ∈ before.claims) :
    Flights ⟨db', polls⟩ := by
  intro provisioning listed claim claimed
  obtain ⟨before, listed', claimed'⟩ := older provisioning listed claim claimed
  exact course.ofRun (flights before listed' claim claimed')

theorem Flights.set {before after : Provisioning} (flights : Flights w)
    (course : Guided law (view w.db) (view db')) (head : w.polls[index]? = some before)
    (kept : ∀ claim ∈ after.claims, claim ∈ before.claims) :
    Flights ⟨db', w.polls.set index after⟩ := by
  refine flights.moved course ?_
  intro provisioning listed claim claimed
  rcases List.mem_or_eq_of_mem_set listed with older | rfl
  · exact ⟨provisioning, older, claimed⟩
  · exact ⟨before, List.mem_of_getElem? head, kept claim claimed⟩

theorem Flights.within (flights : Flights w) (course : Guided law (view w.db) (view db')) :
    Flights (w.within db') :=
  flights.moved course fun provisioning listed _ claimed => ⟨provisioning, listed, claimed⟩

variable (rules) in
theorem failure_guided (own : OfRun (view db) claim.dispatchId claim.runId)
    (late : ∀ {x}, (view db).dispatches claim.dispatchId = some x → x.state = .abandoned →
      rules.late (view db) claim.runId)
    (ok : recordNativeAttemptWorkspaceFailure db now (provisioningFailure claim) = .ok db') :
    Guided (fun v action => Permits rules v action ∧ action = .fail claim.runId claim.dispatchId)
      (view db) (view db') := by
  obtain ⟨x, found, run⟩ := own
  exact Guided.one (recordNativeAttemptWorkspaceFailure_acts ok) ⟨⟨x, found, run, late found⟩, rfl⟩

variable (now) in
theorem recordFailure_guided {assigned : Bool} (flights : Flights w)
    (head : w.polls[index]? = some ⟨claim :: rest, assigned⟩)
    (late : ∀ {x}, (view w.db).dispatches claim.dispatchId = some x → x.state = .abandoned →
      rules.late (view w.db) claim.runId) :
    Guided (fun v action => Permits rules v action ∧ action = .fail claim.runId claim.dispatchId)
        (view w.db) (view (recordFailure w now index claim rest).db) ∧
      Flights (recordFailure w now index claim rest) := by
  have listed := List.mem_of_getElem? head
  unfold recordFailure
  split
  · rename_i db' ok
    have course := failure_guided rules (flights _ listed claim List.mem_cons_self) late ok
    exact ⟨course, flights.set course head fun _ => List.mem_cons_of_mem claim⟩
  · have course : Guided (fun v action => Permits rules v action ∧
        action = .fail claim.runId claim.dispatchId) (view w.db) (view w.db) := Guided.of_eq rfl
    refine ⟨course, flights.moved course ?_⟩
    intro provisioning listed' other claimed
    exact ⟨provisioning, List.mem_of_mem_eraseIdx listed', claimed⟩

theorem failedClaim_of_failed {assigned : Bool}
    (head : w.polls[index]? = some ⟨claim :: rest, assigned⟩) :
    failedClaim w (.provisioningFailed index) = some claim := by
  simp [failedClaim, head]

theorem failedClaim_of_assigned {workspaceId : String} {error : NativeBridgeError}
    (head : w.polls[index]? = some ⟨claim :: rest, false⟩)
    (threw : assignNativeAttemptWorkspace w.db claim.attemptId workspaceId = .error error) :
    failedClaim w (.workspaceReady index workspaceId) = some claim := by
  unfold assignNativeAttemptWorkspace at threw
  split at threw
  · rename_i taken
    have none : ((w.db.attempts.find? claim.attemptId).any fun attempt =>
        attempt.workspaceId.isNone) = false := by
      cases found : w.db.attempts.find? claim.attemptId with
      | none => rfl
      | some attempt =>
        rw [found, Option.filter_some] at taken
        split_ifs at taken with free
        exact eq_false_of_ne_true free
    simp [failedClaim, head, none]
  · cases threw

theorem report_lawful
    (report : ∀ action, action = .fail claim.runId claim.dispatchId → Belongs service action)
    (v : Bridge) (action : Action)
    (lawful : Permits rules v action ∧ action = .fail claim.runId claim.dispatchId) :
    Lawful rules service v action :=
  ⟨lawful.1, report action lawful.2⟩

theorem workspaceReady_guided {workspaceId : String} (flights : Flights w)
    (allowed : Allowed rules w (.workspaceReady index workspaceId)) :
    Guided (Lawful rules (.workspaceReady index workspaceId)) (view w.db)
        (view (workspaceReady w now index workspaceId).db) ∧
      Flights (workspaceReady w now index workspaceId) := by
  unfold workspaceReady
  split
  · rename_i claim rest head
    split
    · rename_i error threw
      have went := recordFailure_guided now flights head
        (allowed.late (failedClaim_of_assigned head threw))
      refine ⟨went.1.mono (report_lawful ?_), went.2⟩
      intro action same
      rw [same]
      exact ⟨nofun, nofun, nofun⟩
    · rename_i db' assigned
      have course : Guided (Lawful rules (.workspaceReady index workspaceId)) (view w.db)
          (view db') := Guided.of_eq (assignNativeAttemptWorkspace_view assigned)
      split
      · exact ⟨course, flights.set course head fun _ => id⟩
      · exact ⟨course, flights.set course head fun _ => List.mem_cons_of_mem claim⟩
  · exact ⟨Guided.of_eq rfl, flights⟩

theorem baselineCaptured_guided {baseline : String} (flights : Flights w) :
    Guided (Lawful rules (.baselineCaptured index baseline)) (view w.db)
        (view (baselineCaptured w index baseline).db) ∧
      Flights (baselineCaptured w index baseline) := by
  unfold baselineCaptured
  split
  · rename_i claim rest head
    have course : Guided (Lawful rules (.baselineCaptured index baseline)) (view w.db)
        (view (recordNativeAttemptReadonlyBaseline w.db claim.attemptId baseline)) :=
      Guided.of_eq (recordNativeAttemptReadonlyBaseline_view _ _ _)
    exact ⟨course, flights.set course head fun _ => List.mem_cons_of_mem claim⟩
  · exact ⟨Guided.of_eq rfl, flights⟩

theorem provisioningFailed_guided (flights : Flights w)
    (allowed : Allowed rules w (.provisioningFailed index)) :
    Guided (Lawful rules (.provisioningFailed index)) (view w.db)
        (view (provisioningFailed w now index).db) ∧ Flights (provisioningFailed w now index) := by
  unfold provisioningFailed
  split
  · rename_i claim rest assigned head
    have went := recordFailure_guided now flights head
      (allowed.late (failedClaim_of_failed head))
    refine ⟨went.1.mono (report_lawful ?_), went.2⟩
    intro action same
    rw [same]
    exact ⟨nofun, nofun, nofun⟩
  · exact ⟨Guided.of_eq rfl, flights⟩

theorem unregistered_guided (flights : Flights w) :
    Guided (Lawful rules (.unregistered index)) (view w.db) (view (unregistered w index).db) ∧
      Flights (unregistered w index) := by
  unfold unregistered
  split
  · have course : Guided (Lawful rules (.unregistered index)) (view w.db) (view w.db) :=
      Guided.of_eq rfl
    refine ⟨course, flights.moved course ?_⟩
    intro provisioning listed' other claimed
    exact ⟨provisioning, List.mem_of_mem_eraseIdx listed', claimed⟩
  · exact ⟨Guided.of_eq rfl, flights⟩

theorem swept_guided {codebaseId : Option String} (lawful : ∀ v d, law v (.abandon d))
    (course : Course (Sweeps db codebaseId now witnessOf) (view db) (view db')) :
    Guided law (view db) (view db') := by
  apply course.guided
  intro v action sweeps
  obtain ⟨dispatch, _, _, same⟩ := sweeps
  rw [same]
  exact lawful v _

theorem poll_guided {input : PollInput} (flights : Flights w) :
    Guided (Lawful rules (.poll input)) (view w.db) (view (poll w now input).db) ∧
      Flights (poll w now input) := by
  have went : ∀ {reply db'}, pollNativeBridge w.db now input = .ok (reply, db') →
      Guided (Lawful rules (.poll input)) (view w.db) (view db') := by
    intro reply db' ok
    obtain ⟨swept, reaped, claims, _⟩ := pollNativeBridge_ok ok
    have first : Guided (Lawful rules (.poll input)) (view w.db) (view swept) :=
      swept_guided (fun _ d => ⟨trivial, .inl ⟨d, rfl⟩⟩) (reapExpirations_swept reaped).course
    apply first.trans
    apply claims.guided
    intro v action claims
    refine ⟨?_, .inr claims⟩
    obtain ⟨r, a, d, same⟩ := claims
    rw [same]
    trivial
  unfold poll
  split
  · rename_i result db' ok
    have course := went ok
    refine ⟨course, ?_⟩
    intro provisioning listed claim claimed
    cases List.mem_append.mp listed with
    | inl older => exact course.ofRun (flights provisioning older claim claimed)
    | inr new =>
      rw [List.mem_singleton.mp new] at claimed
      obtain ⟨swept, _, _, own⟩ := pollNativeBridge_ok ok
      exact own result rfl claim claimed
  · rename_i code db' ok
    exact ⟨went ok, flights.within (went ok)⟩
  · exact ⟨Guided.of_eq rfl, flights⟩

theorem Guided.exclusive (law : Bridge → Action → Prop) {v' : Bridge}
    (inTime : ∀ v action, Exclusive v → law v action → InTime v action) (inv : Exclusive v)
    (course : Guided law v v') : Exclusive v' := by
  induction course with
  | refl => exact inv
  | tail _ acts ih =>
    obtain ⟨action, lawful, acted⟩ := acts
    exact ih.acted acted (inTime _ action ih lawful)

theorem completeNativeAttemptArtifactOutcome_total (attemptId : Nat)
    (claimed : ∀ stage, (view db).stages runId = some stage → stage.waits = false) :
    ∃ db', completeNativeAttemptArtifactOutcome db attemptId runId = .ok db' := by
  have tables : (updateAttempt db attemptId fun attempt =>
      { attempt with status := .succeeded }).stages = db.stages := by
    unfold updateAttempt
    split <;> rfl
  unfold completeNativeAttemptArtifactOutcome updateStage
  rw [tables]
  cases found : db.stages.find? runId with
  | none => exact ⟨_, rfl⟩
  | some stage =>
    have waits : stage.waitingSince.isSome = false :=
      claimed (stageView stage) (by simp [view, found])
    refine ⟨_, if_pos ?_⟩
    simp [settledStage, waits]

theorem completeStage_view {stageId : String} (ok : completeStage db runId stageId = .ok db') :
    view db' = (view db).setRun runId .succeeded := by
  obtain ⟨⟨revision, db₁⟩, advanced, same⟩ := map_eq_ok.mp ok
  cases same
  rw [advanceRunStatus_view advanced, view_appendEvent]

/-- A run that was dispatched, and whose dispatch is submitted, is settled. -/
structure Submitted (v : Bridge) (r : String) : Prop where
  idle : Idle v r
  engaged : ∀ stage, v.stages r = some stage → stage.state.engaged = true
  claimed : ∀ stage, v.stages r = some stage → stage.waits = false

theorem submitted_of_exclusive {d : Nat} {x : DispatchView} (inv : Exclusive v)
    (found : v.dispatches d = some x) (current : x.state.isOpen = true) :
    Submitted (v.mapDispatch d (DispatchView.entered .submitted)) x.runId := by
  obtain ⟨stage, listed, engaged, _⟩ := inv.engaged found current
  refine ⟨idle_closed inv found current rfl, ?_, ?_⟩
  · intro stage' listed'
    cases listed.symm.trans listed'
    exact engaged
  · intro stage' listed'
    cases listed.symm.trans listed'
    by_contra waits
    have waiting := (inv.checked listed).mp (by simpa using waits)
    rw [waiting] at engaged
    cases engaged

variable {input : SubmitInput}

theorem downgradeSubmission_guided (submitted : Submitted (view db) input.settle.fence.runId) :
    Guided (Lawful rules (.submit input)) (view db) (view (downgradeSubmission db input)) := by
  refine kept_of (P := fun db' => Guided (Lawful rules (.submit input)) (view db) (view db'))
    (Guided.of_eq rfl) ?_
  intro db' ok
  refine Guided.one (downgradeNativeAttemptToFailed_acts ok)
    ⟨⟨submitted.idle, rfl, submitted.engaged⟩, ordinary_settle _ _⟩

theorem finalizeSubmission_guided (submitted : Submitted (view db) input.settle.fence.runId) :
    Guided (Lawful rules (.submit input)) (view db) (view (finalizeSubmission db input)) := by
  unfold finalizeSubmission
  split
  · split
    · exact downgradeSubmission_guided submitted
    · rename_i completed ok
      have run := completeStage_view ok
      have claimed : ∀ stage, (view completed).stages input.settle.fence.runId = some stage →
          stage.waits = false := by
        rw [run]
        exact submitted.claimed
      split
      · rename_i settled finished
        have whole : view settled =
            (view db).enter input.settle.fence.runId StageView.settled .succeeded := by
          rw [(completeNativeAttemptArtifactOutcome_view finished).1, run]
          rfl
        rw [whole]
        exact Guided.one (Acts.settle submitted.claimed)
          ⟨⟨submitted.idle, rfl, submitted.engaged⟩, ordinary_settle _ _⟩
      · rename_i error threw
        obtain ⟨db', total⟩ := completeNativeAttemptArtifactOutcome_total
          input.settle.fence.attemptId claimed
        rw [total] at threw
        cases threw
  · exact downgradeSubmission_guided submitted

theorem terminal_outcome (outcome : SubmissionOutcome) : terminal outcome.runStatus = true := by
  cases outcome <;> rfl

theorem sweepSession_guided {sessionId : Nat} (lawful : ∀ v d, law v (.abandon d))
    (ok : sweepSession db sessionId now witnessOf = .ok db') : Guided law (view db) (view db') := by
  cases sweepSession_swept ok with
  | inl same => exact Guided.of_eq (by rw [same])
  | inr sweeps =>
    obtain ⟨_, _, swept⟩ := sweeps
    exact swept_guided lawful swept.course

theorem submit_guided (inv : Exclusive (view db)) :
    Guided (Lawful rules (.submit input)) (view db) (view (submit db now input)) := by
  have abandons : ∀ v d, Lawful rules (.submit input) v (.abandon d) :=
    fun _ d => ⟨trivial, ordinary_abandon d⟩
  have went : ∀ {reply settled}, settleNativeDispatch db now input.settle = .ok (reply, settled) →
      Guided (Lawful rules (.submit input)) (view db) (view settled) ∧
        ∀ settlement, reply = .accepted settlement → settlement.idempotentReplay = false →
          settlement.requiresArtifactCompletion = true →
            Submitted (view settled) input.settle.fence.runId := by
    intro reply settled ok
    obtain ⟨swept, reaped, settles⟩ := settleNativeDispatch_ok ok
    have first := sweepSession_guided abandons reaped
    have inv' : Exclusive (view swept) := by
      apply Guided.exclusive (fun _ action => ∃ d, action = .abandon d) _ inv
        (sweepSession_guided (fun _ d => ⟨d, rfl⟩) reaped)
      intro v action _ abandon
      obtain ⟨d, same⟩ := abandon
      rw [same]
      trivial
    cases settles with
    | inl replay =>
      rw [replay.1]
      refine ⟨first, ?_⟩
      intro settlement accepted new
      rw [replay.2 settlement accepted] at new
      cases new
    | inr settles =>
      obtain ⟨dispatch, fenced, current, ⟨closed, submits, rest⟩, requires⟩ := settles
      obtain ⟨found, run, _⟩ := validateDispatchFence_ok fenced
      have seen : (view swept).dispatches input.settle.fence.dispatchId =
          some (dispatchView dispatch) := by
        simp [view, found]
      have submitted := submitted_of_exclusive inv' seen current
      have same : closed = (view swept).mapDispatch input.settle.fence.dispatchId
          (DispatchView.entered .submitted) := by
        cases submits
        rfl
      have own : (dispatchView dispatch).runId = input.settle.fence.runId := run
      rw [← same, own] at submitted
      have second : Guided (Lawful rules (.submit input)) (view db) closed :=
        first.also submits ⟨trivial, ordinary_submit _⟩
      split_ifs at rest with succeeded
      · rw [rest]
        exact ⟨second, fun _ _ _ _ => submitted⟩
      · refine ⟨second.also rest ⟨⟨submitted.idle, terminal_outcome _, submitted.engaged⟩,
          ordinary_settle _ _⟩, ?_⟩
        intro settlement accepted _ required
        rw [requires settlement accepted] at required
        exact absurd (of_decide_eq_true required) succeeded
  unfold submit
  split
  · rename_i settlement settled ok
    obtain ⟨course, completes⟩ := went ok
    split_ifs with done
    · exact course
    · rw [not_or] at done
      apply course.trans
      apply finalizeSubmission_guided
      exact completes settlement rfl (by simpa using done.1) (by simpa using done.2)
  · rename_i code swept ok
    exact (went ok).1
  · exact Guided.of_eq rfl

theorem attach_guided {input : AttachInput} :
    Guided (Lawful rules (.attach input)) (view db) (view (perform db now (.attach input))) := by
  refine stored_of (P := fun db' => Guided (Lawful rules (.attach input)) (view db) (view db'))
    (Guided.of_eq rfl) ?_
  intro reply db' ok
  exact swept_guided (fun _ d => ⟨trivial, ordinary_abandon d⟩) (attachParentSession_course ok)

theorem detach_guided {input : DetachInput} :
    Guided (Lawful rules (.detach input)) (view db) (view (perform db now (.detach input))) := by
  refine stored_of (P := fun db' => Guided (Lawful rules (.detach input)) (view db) (view db'))
    (Guided.of_eq rfl) ?_
  intro reply db' ok
  cases detachParentSession_ok ok with
  | inl same => exact Guided.of_eq (by rw [same])
  | inr went =>
    obtain ⟨session, swept, _, reaped, rest⟩ := went
    have first : Guided (Lawful rules (.detach input)) (view db) (view swept) :=
      swept_guided (fun _ d => ⟨trivial, ordinary_abandon d⟩) (reapExpirations_swept reaped).course
    cases rest with
    | inl same =>
      rw [same]
      exact first
    | inr detaches =>
      apply first.trans
      apply detaches.2.guided
      intro v action closes
      obtain ⟨dispatch, _, _, _, _, kinds⟩ := closes
      cases kinds with
      | inl same =>
        rw [same]
        exact ⟨trivial, nofun, nofun, nofun⟩
      | inr same =>
        rw [same]
        exact ⟨trivial, nofun, nofun, nofun⟩

theorem start_guided {input : CreateNativeStageInput} :
    Guided (Lawful rules (.start input)) (view db) (view (perform db now (.create input))) := by
  apply (createNativeStage_course db now input).guided
  intro v action kinds
  cases kinds with
  | inl same =>
    rw [same]
    exact ⟨trivial, nofun, nofun, nofun⟩
  | inr same =>
    rw [same]
    exact ⟨trivial, nofun, nofun, nofun⟩

theorem question_guided {input : RaiseInput} :
    Guided (Lawful rules (.question input)) (view db) (view (perform db now (.raise input))) := by
  refine stored_of (P := fun db' => Guided (Lawful rules (.question input)) (view db) (view db'))
    (Guided.of_eq rfl) ?_
  intro reply db' ok
  obtain ⟨swept, reaped, went⟩ := raiseNativeQuestion_ok ok
  have first : Guided (Lawful rules (.question input)) (view db) (view swept) :=
    sweepSession_guided (fun _ d => ⟨trivial, ordinary_abandon d⟩) reaped
  cases went with
  | inl same =>
    rw [same]
    exact first
  | inr acts => exact first.also acts ⟨trivial, nofun, nofun, nofun⟩

theorem answer_guided {input : AnswerInput} (allowed : Allowed rules w (.answer input)) :
    Guided (Lawful rules (.answer input)) (view w.db)
      (view (perform w.db now (.answer input))) := by
  refine stored_of (P := fun db' => Guided (Lawful rules (.answer input)) (view w.db) (view db'))
    (Guided.of_eq rfl) ?_
  intro answered db' ok
  obtain ⟨⟨result, checked⟩, acts⟩ := answerNativeQuestion_ok ok
  exact Guided.one acts ⟨allowed.answers rfl checked, nofun, nofun, nofun⟩

theorem cancel_guided :
    Guided (Lawful rules (.cancel runId)) (view db) (view (perform db now (.cancel runId))) := by
  refine stored_of (P := fun db' => Guided (Lawful rules (.cancel runId)) (view db) (view db'))
    (Guided.of_eq rfl) ?_
  intro status db' ok
  cases cancelNativeStage_ok ok with
  | inl same => exact Guided.of_eq (by rw [same])
  | inr acts => exact Guided.one acts ⟨trivial, rfl⟩

theorem resume_guided {expectedRunRevision : Nat} :
    Guided (Lawful rules (.resume runId expectedRunRevision)) (view db)
      (view (perform db now (.resume runId expectedRunRevision))) := by
  refine stored_of (P := fun db' =>
    Guided (Lawful rules (.resume runId expectedRunRevision)) (view db) (view db'))
    (Guided.of_eq rfl) ?_
  intro revision db' ok
  exact Guided.one (resumeNativeStage_acts ok) ⟨trivial, rfl⟩

theorem reconcile_guided : Guided (Lawful rules (.reconcile witnessOf)) (view db)
      (view (perform db now (.reap witnessOf))) := by
  refine kept_of (P := fun db' => Guided (Lawful rules (.reconcile witnessOf)) (view db) (view db'))
    (Guided.of_eq rfl) ?_
  intro db' ok
  exact swept_guided (fun _ d => ⟨trivial, ordinary_abandon d⟩) (reapExpirations_swept ok).course

variable (now) in
theorem call_guided (inv : Exclusive (view w.db)) (flights : Flights w)
    (allowed : Allowed rules w service) :
    Guided (Lawful rules service) (view w.db) (view (call w now service).db) ∧
      Flights (call w now service) := by
  have inside : ∀ {db' : NativeDatabase}, Guided (Lawful rules service) (view w.db) (view db') →
      Guided (Lawful rules service) (view w.db) (view (w.within db').db) ∧
        Flights (w.within db') :=
    fun course => ⟨course, flights.within course⟩
  cases service with
  | start input => exact inside start_guided
  | attach input => exact inside attach_guided
  | detach input => exact inside detach_guided
  | poll input => exact poll_guided flights
  | workspaceReady index workspaceId => exact workspaceReady_guided flights allowed
  | baselineCaptured index baseline => exact baselineCaptured_guided flights
  | provisioningFailed index => exact provisioningFailed_guided flights allowed
  | unregistered index => exact unregistered_guided flights
  | question input => exact inside question_guided
  | answer input => exact inside (answer_guided allowed)
  | submit input => exact inside (submit_guided inv)
  | cancel runId => exact inside cancel_guided
  | resume runId expectedRunRevision => exact inside resume_guided
  | reconcile witnessOf => exact inside reconcile_guided

theorem inTime_of_lawful (spares : ∀ v r, Exclusive v → rules.late v r → Idle v r) {action : Action}
    (inv : Exclusive v) (lawful : Lawful rules service v action) : InTime v action := by
  cases action with
  | fail r d =>
    obtain ⟨x, found, own, late⟩ := lawful.1
    exact ⟨x, found, own, fun abandoned => spares v r inv (late abandoned)⟩
  | settle r status => exact lawful.1.1
  | finish r => exact lawful.1.elim
  | _ => trivial

variable (rules) in
theorem served_exclusive {condition : ServiceWorld → ServiceCall → Prop}
    (spares : ∀ v r, Exclusive v → rules.late v r → Idle v r)
    (allows : ∀ {w service}, Exclusive (view w.db) → condition w service →
      Allowed rules w service)
    (served : ServedWith condition w) : Exclusive (view w.db) ∧ Flights w := by
  apply steps_invariant _ _ served
  · intro w w' holds step
    obtain ⟨now, service, allowed, same⟩ := step
    obtain ⟨course, flights⟩ := call_guided now holds.1 holds.2 (allows holds.1 allowed)
    rw [same]
    refine ⟨Guided.exclusive _ ?_ holds.1 course, flights⟩
    intro v action inv lawful
    exact inTime_of_lawful spares inv lawful
  · constructor
    · exact emptyView_exclusive
    · intro provisioning listed
      cases listed

def claimedOnce : ServiceWorld :=
  let w := call opening 0 (.start ⟨"run", "stage", "code", request⟩)
  let w := call w 0 (.attach ⟨"code", none, none, [], none, silent⟩)
  call w 0 (.poll ⟨0, 1, "code", 1, none, none, silent⟩)

section Served

variable {condition : ServiceWorld → ServiceCall → Prop}

theorem ServedWith.call {w : ServiceWorld} (served : ServedWith condition w) (now : Int)
    {service : ServiceCall} (allowed : condition w service) :
    ServedWith condition (call w now service) :=
  Relation.ReflTransGen.tail served ⟨now, service, allowed, rfl⟩

def SparesQuiet (condition : ServiceWorld → ServiceCall → Prop) : Prop :=
  ∀ w service, failedClaim w service = none → (∀ input, service ≠ .answer input) →
    condition w service

theorem claimedOnce_served (spares : SparesQuiet condition) : ServedWith condition claimedOnce := by
  have quietly : ∀ {w service}, ServedWith condition w → failedClaim w service = none →
      (∀ input, service ≠ .answer input) → ServedWith condition (NativeBridge.call w 0 service) :=
    fun served quiet asks => served.call 0 (spares _ _ quiet asks)
  unfold claimedOnce
  apply quietly
  · apply quietly
    · apply quietly
      · exact .refl
      · rfl
      · exact fun _ => by simp
    · rfl
    · exact fun _ => by simp
  · rfl
  · exact fun _ => by simp

end Served

end Heniek.NativeBridge
