import Heniek.NativeStageRoots

/-!
The cancellation of a native stage. It settles the stage and ends the run with its open
dispatches, its pending questions and the current attempt of its stage, and touches no
other run. A stage that still waits for a parent keeps the instant since when it waits,
which its table does not admit of a settled stage.
-/

namespace Heniek.NativeCancellation
open NativeBridge BridgeModel KeyedTable FallibleRun
open ProjectionTables (RunStatus)

def liveAttempt (status : AttemptStatus) : Bool :=
  decide (status = .running ∨ status = .waitingOnUser)

structure CancelledRun (runId : String) (db : NativeDatabase) : Prop where
  run : (db.runs.find? runId).map NativeRun.status = some .cancelled
  stage : (db.stages.find? runId).map NativeStage.state = some .settled
  dispatches : ∀ dispatch ∈ db.dispatches.rows, dispatch.runId = runId →
    dispatch.state ≠ .dispatched ∧ dispatch.state ≠ .waitingOnUser
  questions : ∀ question ∈ db.questions.rows, question.runId = runId → question.state ≠ .pending
  attempts : ∀ attempt ∈ db.attempts.rows, attempt.runId = runId →
    attempt.status ≠ .running ∧ attempt.status ≠ .waitingOnUser

structure SparesOthers (runId : String) (db db' : NativeDatabase) : Prop where
  runs : ∀ {run : NativeRun}, run.runId ≠ runId → (run ∈ db'.runs.rows ↔ run ∈ db.runs.rows)
  stages : ∀ {stage : NativeStage}, stage.runId ≠ runId →
    (stage ∈ db'.stages.rows ↔ stage ∈ db.stages.rows)
  attempts : ∀ {attempt : NativeStageAttempt}, attempt.runId ≠ runId →
    (attempt ∈ db'.attempts.rows ↔ attempt ∈ db.attempts.rows)
  dispatches : ∀ {dispatch : NativeDispatch}, dispatch.runId ≠ runId →
    (dispatch ∈ db'.dispatches.rows ↔ dispatch ∈ db.dispatches.rows)
  questions : ∀ {question : NativeQuestion}, question.runId ≠ runId →
    (question ∈ db'.questions.rows ↔ question ∈ db.questions.rows)
  sessions : db'.sessions = db.sessions

def Cancels (db : NativeDatabase) (now : Int) (runId : String) : Prop :=
  ∃ db', cancelNativeStage db now runId = .ok (some .cancelled, db') ∧ CancelledRun runId db' ∧
    SparesOthers runId db db'

/-- The stage is claimed, and no attempt of its run is live but the current one. -/
def Cancellable (db : NativeDatabase) (stage : NativeStage) : Prop :=
  stage.state ≠ .waitingForParent ∧ ∀ attempt ∈ db.attempts.rows, attempt.runId = stage.runId →
    liveAttempt attempt.status = true → stage.currentAttemptId = some attempt.attemptId

variable {db db' db'' : NativeDatabase} {now : Int} {runId : String}

theorem SparesOthers.refl (runId : String) (db : NativeDatabase) : SparesOthers runId db db :=
  ⟨fun _ => Iff.rfl, fun _ => Iff.rfl, fun _ => Iff.rfl, fun _ => Iff.rfl, fun _ => Iff.rfl, rfl⟩

theorem SparesOthers.trans (first : SparesOthers runId db db')
    (second : SparesOthers runId db' db'') : SparesOthers runId db db'' where
  runs other := (second.runs other).trans (first.runs other)
  stages other := (second.stages other).trans (first.stages other)
  attempts other := (second.attempts other).trans (first.attempts other)
  dispatches other := (second.dispatches other).trans (first.dispatches other)
  questions other := (second.questions other).trans (first.questions other)
  sessions := second.sessions.trans first.sessions

theorem mem_upsert_other {α κ : Type} [DecidableEq κ] {key : α → κ} {t : Table key}
    (run : α → String) {a b : α} (own : run a = runId)
    (before : ∀ c, t.find? (key a) = some c → run c = runId) (other : run b ≠ runId) :
    b ∈ (t.upsert a).rows ↔ b ∈ t.rows := by
  rw [Table.mem_upsert]
  constructor
  · intro written
    cases written with
    | inl same => exact absurd (same ▸ own) other
    | inr kept => exact kept.1
  · intro member
    refine .inr ⟨member, ?_⟩
    intro same
    apply other
    apply before b
    rw [← same]
    exact Table.find?_key member

theorem runs_spared (db : NativeDatabase) (run : NativeRun) (events : List NativeEvent) :
    SparesOthers run.runId db { db with runs := db.runs.upsert run, events := events } where
  runs other := mem_upsert_other NativeRun.runId rfl (fun _ => Table.key_of_find?) other
  stages _ := Iff.rfl
  attempts _ := Iff.rfl
  dispatches _ := Iff.rfl
  questions _ := Iff.rfl
  sessions := rfl

theorem stages_spared (stage : NativeStage) :
    SparesOthers stage.runId db { db with stages := db.stages.upsert stage } where
  runs _ := Iff.rfl
  stages other := mem_upsert_other NativeStage.runId rfl (fun _ => Table.key_of_find?) other
  attempts _ := Iff.rfl
  dispatches _ := Iff.rfl
  questions _ := Iff.rfl
  sessions := rfl

theorem questions_spared (question : NativeQuestion) :
    SparesOthers question.runId db { db with questions := db.questions.upsert question } where
  runs _ := Iff.rfl
  stages _ := Iff.rfl
  attempts _ := Iff.rfl
  dispatches _ := Iff.rfl
  questions other :=
    mem_upsert_other NativeQuestion.runId rfl
      (fun _ found => congrArg Prod.fst (Table.key_of_find? found)) other
  sessions := rfl

theorem attempts_spared {attempt : NativeStageAttempt} (own : attempt.runId = runId)
    (before : ∀ current, db.attempts.find? attempt.attemptId = some current →
      current.runId = runId) :
    SparesOthers runId db { db with attempts := db.attempts.upsert attempt } where
  runs _ := Iff.rfl
  stages _ := Iff.rfl
  attempts other := mem_upsert_other NativeStageAttempt.runId own before other
  dispatches _ := Iff.rfl
  questions _ := Iff.rfl
  sessions := rfl

theorem revokeDispatch_other {dispatch : NativeDispatch} (other : dispatch.runId ≠ runId) :
    revokeDispatch runId now dispatch = dispatch :=
  if_neg fun both => other both.1

theorem revokeDispatch_runId (runId : String) (now : Int) (dispatch : NativeDispatch) :
    (revokeDispatch runId now dispatch).runId = dispatch.runId := by
  unfold revokeDispatch
  split <;> rfl

theorem dispatches_spared (runId : String) (now : Int) (db : NativeDatabase) :
    SparesOthers runId db
      { db with
        dispatches := db.dispatches.mapAll (revokeDispatch runId now)
          (revokeDispatch_dispatchId runId now) } where
  runs _ := Iff.rfl
  stages _ := Iff.rfl
  attempts _ := Iff.rfl
  dispatches := by
    intro dispatch other
    rw [Table.mem_mapAll]
    constructor
    · intro mapped
      obtain ⟨before, member, same⟩ := mapped
      have run : before.runId ≠ runId := by
        rw [← revokeDispatch_runId runId now before, same]
        exact other
      rw [revokeDispatch_other run] at same
      exact same ▸ member
    · intro member
      exact ⟨dispatch, member, revokeDispatch_other other⟩
  questions _ := Iff.rfl
  sessions := rfl

theorem advanceRunStatus_written (db : NativeDatabase) (runId : String) (status : RunStatus)
    (ran : (db.runs.find? runId).isSome = true) :
    ∃ run revision, run.runId = runId ∧ advanceRunStatus db runId status =
      .ok (revision, { db with runs := db.runs.upsert run }) := by
  obtain ⟨run, found⟩ := Option.isSome_iff_exists.mp ran
  have key := Table.key_of_find? found
  refine ⟨{ run with status := status, revision := run.revision + 1 }, run.revision + 1, key, ?_⟩
  simp [advanceRunStatus, found]

theorem advanceRunStatus_spared {status : RunStatus} {event : NativeEvent} {revision : Nat}
    (ok : advanceRunStatus (appendEvent db event) runId status = .ok (revision, db')) :
    SparesOthers runId db db' := by
  obtain ⟨run, revision', own, advanced⟩ := advanceRunStatus_written (appendEvent db event)
    runId status (advanceRunStatus_run ok)
  cases ok.symm.trans advanced
  rw [← own]
  exact runs_spared db run (db.events ++ [event])

theorem updateStage_spared {change : NativeStage → NativeStage}
    (keeps : ∀ stage, (change stage).runId = stage.runId)
    (ok : updateStage db runId change = .ok db') : SparesOthers runId db db' := by
  unfold updateStage at ok
  split at ok
  · cases ok
    exact SparesOthers.refl runId db
  · rename_i stage found
    have own : (change stage).runId = runId := (keeps stage).trans (Table.key_of_find? found)
    rw [(storeStage_ok ok).2, ← own]
    exact stages_spared { change stage with revision := stage.revision + 1 }

theorem advanceRunRevisionOnly_written (db : NativeDatabase) (runId : String)
    (ran : (db.runs.find? runId).isSome = true) :
    ∃ run, run.runId = runId ∧ advanceRunRevisionOnly db runId =
      .ok { db with runs := db.runs.upsert run } := by
  obtain ⟨run, found⟩ := Option.isSome_iff_exists.mp ran
  have key := Table.key_of_find? found
  refine ⟨{ run with revision := run.revision + 1 }, key, ?_⟩
  simp [advanceRunRevisionOnly, found]

/-- What the cancellation of questions leaves alone. -/
structure Withdrawn (runId : String) (db db' : NativeDatabase) : Prop where
  ran : (db'.runs.find? runId).isSome = true
  stages : db'.stages = db.stages
  attempts : db'.attempts = db.attempts
  spared : SparesOthers runId db db'

theorem cancelNativeQuestion_total (now : Int)
    (interactionId : String) (reason : CancellationReason)
    (ran : (db.runs.find? runId).isSome = true) :
    ∃ db', cancelNativeQuestion db runId interactionId reason now = .ok db' ∧
      Withdrawn runId db db' := by
  have still : Withdrawn runId db db := ⟨ran, rfl, rfl, SparesOthers.refl runId db⟩
  unfold cancelNativeQuestion
  cases found : db.questions.find? (runId, interactionId) with
  | none => exact ⟨db, rfl, still⟩
  | some question =>
    by_cases pending : question.state = .pending
    · obtain ⟨run, own, advanced⟩ := advanceRunRevisionOnly_written
        (appendEvent db (.questionCancelled runId interactionId reason)) runId ran
      have asked : question.runId = runId := congrArg Prod.fst (Table.key_of_find? found)
      simp only [pending, ne_eq, not_true_eq_false, advanced, bind]
      refine ⟨_, rfl, ?_, rfl, rfl, ?_⟩
      · simp [← own]
      · have advance := runs_spared db run
          (db.events ++ [.questionCancelled runId interactionId reason])
        rw [own] at advance
        apply advance.trans
        rw [← asked]
        exact questions_spared { question with
          state := .cancelled
          revision := question.revision + 1
          deliveryState := .notApplicable
          cancellationReason := some reason
          resolvedAt := some now }
    · exact ⟨db, if_pos pending, still⟩

theorem cancelQuestions_total (db : NativeDatabase) (now : Int) (interactions : List String)
    (ran : (db.runs.find? runId).isSome = true) :
    ∃ db', interactions.foldlM (fun db interactionId =>
      cancelNativeQuestion db runId interactionId .runTerminal now) db = .ok db' ∧
        Withdrawn runId db db' := by
  induction interactions generalizing db with
  | nil => exact ⟨db, rfl, ran, rfl, rfl, SparesOthers.refl runId db⟩
  | cons interactionId interactions ih =>
    obtain ⟨db₁, cancelled, first⟩ := cancelNativeQuestion_total now interactionId .runTerminal ran
    obtain ⟨db₂, rest, second⟩ := ih db₁ first.ran
    refine ⟨db₂, foldlM_cons_eq_ok.mpr ⟨db₁, cancelled, rest⟩, second.ran, ?_, ?_, ?_⟩
    · rw [second.stages, first.stages]
    · rw [second.attempts, first.attempts]
    · exact first.spared.trans second.spared

theorem cancelCurrentAttempt_stages (db : NativeDatabase) (current : Option Nat) :
    (cancelCurrentAttempt db current).stages = db.stages ∧
      (cancelCurrentAttempt db current).runs = db.runs := by
  cases current with
  | none => exact ⟨rfl, rfl⟩
  | some attemptId =>
    simp only [cancelCurrentAttempt, updateAttempt]
    split <;> exact ⟨rfl, rfl⟩

theorem cancelCurrentAttempt_attempts (same : db'.attempts = db.attempts) (current : Option Nat) :
    (cancelCurrentAttempt db' current).attempts = (cancelCurrentAttempt db current).attempts := by
  cases current with
  | none => exact same
  | some attemptId =>
    simp only [cancelCurrentAttempt, updateAttempt, same]
    cases db.attempts.find? attemptId with
    | none => exact same
    | some attempt => rfl

theorem cancelAttempt_runId (attempt : NativeStageAttempt) :
    (cancelAttempt attempt).runId = attempt.runId := by
  unfold cancelAttempt
  split <;> rfl

theorem cancelAttempt_attemptId (attempt : NativeStageAttempt) :
    (cancelAttempt attempt).attemptId = attempt.attemptId := by
  unfold cancelAttempt
  split <;> rfl

theorem cancelAttempt_ended (attempt : NativeStageAttempt) :
    liveAttempt (cancelAttempt attempt).status = false := by
  unfold cancelAttempt liveAttempt
  split_ifs with live
  · simp
  · simpa using live

def Holds (db : NativeDatabase) (runId : String) (current : Option Nat) : Prop :=
  ∀ a, current = some a → ∃ attempt, db.attempts.find? a = some attempt ∧ attempt.runId = runId

theorem cancelCurrentAttempt_spared {current : Option Nat} (held : Holds db runId current) :
    SparesOthers runId db (cancelCurrentAttempt db current) := by
  cases current with
  | none => exact SparesOthers.refl runId db
  | some attemptId =>
    obtain ⟨attempt, found, own⟩ := held attemptId rfl
    simp only [cancelCurrentAttempt, updateAttempt, found]
    apply attempts_spared
    · rw [cancelAttempt_runId, own]
    · intro before listed
      rw [cancelAttempt_attemptId, Table.key_of_find? found, found] at listed
      cases listed
      exact own

theorem mem_cancelCurrentAttempt {current : Option Nat} {attempt : NativeStageAttempt} :
    attempt ∈ (cancelCurrentAttempt db current).attempts.rows ↔ ∃ before ∈ db.attempts.rows,
      attempt = if current = some before.attemptId then cancelAttempt before else before := by
  cases current with
  | none => simp [cancelCurrentAttempt]
  | some attemptId =>
    simp only [cancelCurrentAttempt, updateAttempt]
    cases found : db.attempts.find? attemptId with
    | none =>
      have absent : ∀ before ∈ db.attempts.rows, before.attemptId ≠ attemptId := by
        intro before member same
        have present := Table.find?_key member
        rw [same, found] at present
        cases present
      constructor
      · intro member
        refine ⟨attempt, member, (if_neg ?_).symm⟩
        intro same
        exact absent attempt member (Option.some.inj same).symm
      · intro mapped
        obtain ⟨before, member, same⟩ := mapped
        rw [if_neg fun equal => absent before member (Option.some.inj equal).symm] at same
        exact same ▸ member
    | some held =>
      have key := Table.key_of_find? found
      have listed := Table.mem_of_find? found
      simp only [Table.mem_upsert, cancelAttempt_attemptId]
      constructor
      · intro written
        cases written with
        | inl same => exact ⟨held, listed, by rw [same, if_pos (by rw [key])]⟩
        | inr kept =>
          refine ⟨attempt, kept.1, (if_neg ?_).symm⟩
          intro same
          exact kept.2 ((Option.some.inj same).symm.trans key.symm)
      · intro mapped
        obtain ⟨before, member, same⟩ := mapped
        split_ifs at same with equal
        · have one : before = held := by
            have present := Table.find?_key member
            rw [← Option.some.inj equal, found] at present
            exact (Option.some.inj present).symm
          exact .inl (one ▸ same)
        · refine .inr ⟨same ▸ member, ?_⟩
          intro twin
          apply equal
          rw [same, key] at twin
          rw [twin]

variable {stage : NativeStage}

variable (now) in
theorem cancelOpenStage_total (found : db.stages.find? stage.runId = some stage)
    (ran : (db.runs.find? stage.runId).isSome = true)
    (held : Holds db stage.runId stage.currentAttemptId) (claimed : stage.waitingSince = none) :
    ∃ db', cancelOpenStage db now stage = .ok db' ∧ SparesOthers stage.runId db db' ∧
      db'.attempts = (cancelCurrentAttempt db stage.currentAttemptId).attempts := by
  have revoke := dispatches_spared stage.runId now db
  obtain ⟨db₁, cancelled, withdrawn⟩ := cancelQuestions_total { db with
      dispatches := db.dispatches.mapAll (revokeDispatch stage.runId now)
        (revokeDispatch_dispatchId stage.runId now) } now (pendingQuestions db stage.runId) ran
  have held₁ : Holds db₁ stage.runId stage.currentAttemptId := by
    intro a current
    rw [withdrawn.attempts]
    exact held a current
  have attempt := cancelCurrentAttempt_spared held₁
  obtain ⟨stages, runs⟩ := cancelCurrentAttempt_stages db₁ stage.currentAttemptId
  have stored : db₁.stages.find? stage.runId = some stage := by
    rw [withdrawn.stages]
    exact found
  have settled : updateStage (cancelCurrentAttempt db₁ stage.currentAttemptId) stage.runId
      settledStage = .ok { cancelCurrentAttempt db₁ stage.currentAttemptId with
        stages :=
          db₁.stages.upsert { settledStage stage with revision := stage.revision + 1 } } := by
    simp [updateStage, stages, stored, storeStage, settledStage, claimed]
  have keeps : ∀ stage, (settledStage stage).runId = stage.runId := fun _ => rfl
  have ran₁ : ((cancelCurrentAttempt db₁ stage.currentAttemptId).runs.find? stage.runId).isSome =
      true := by
    rw [runs]
    exact withdrawn.ran
  obtain ⟨run, revision, own, advanced⟩ := advanceRunStatus_written
    (appendEvent { cancelCurrentAttempt db₁ stage.currentAttemptId with
      stages := db₁.stages.upsert { settledStage stage with revision := stage.revision + 1 } }
      (.statusChanged stage.runId .cancelled none)) stage.runId .cancelled ran₁
  refine ⟨_, bind_eq_ok.mpr ⟨db₁, cancelled, bind_eq_ok.mpr ⟨_, settled,
    bind_eq_ok.mpr ⟨_, advanced, rfl⟩⟩⟩, ?_, ?_⟩
  · apply (revoke.trans withdrawn.spared).trans
    apply attempt.trans
    apply (updateStage_spared keeps settled).trans
    exact advanceRunStatus_spared advanced
  · have kept : db₁.attempts = db.attempts := withdrawn.attempts
    exact cancelCurrentAttempt_attempts kept stage.currentAttemptId

theorem cancelledRun_of_view (found : db.stages.find? stage.runId = some stage)
    (cancelled : view db' = ((view db).revoked stage.runId).enter stage.runId StageView.settled
      .cancelled)
    (attempts : ∀ attempt ∈ db'.attempts.rows, attempt.runId = stage.runId →
      liveAttempt attempt.status = false) : CancelledRun stage.runId db' where
  run := by
    have status := congrFun (congrArg Bridge.runs cancelled) stage.runId
    simpa [Bridge.enter, Bridge.setRun, view] using status
  stage := by
    have settled := congrFun (congrArg Bridge.stages cancelled) stage.runId
    rw [enter_stages, if_pos rfl] at settled
    have listed : ((view db).revoked stage.runId).stages stage.runId = some (stageView stage) := by
      simp [view, Bridge.revoked, found]
    rw [listed] at settled
    obtain ⟨after, kept, same⟩ := Option.map_eq_some_iff.mp settled
    rw [kept]
    exact congrArg some (congrArg StageView.state same)
  dispatches := by
    intro dispatch member own
    have seen : (view db').dispatches dispatch.dispatchId = some (dispatchView dispatch) := by
      simp [view, Table.find?_key member]
    rw [cancelled] at seen
    have closed := idle_revoked (view db) stage.runId dispatch.dispatchId _ seen own
    have closed' : dispatch.state.isOpen = false := closed
    simpa [DispatchState.isOpen] using closed'
  questions := by
    intro question member own
    have seen : (view db').questions (question.runId, question.interactionId) =
        some (questionView question) := by
      simp [view, Table.find?_key member]
    rw [cancelled] at seen
    have withdrawn : (((view db).questions (question.runId, question.interactionId)).map
        QuestionView.cancelled) = some (questionView question) := by
      simpa [Bridge.enter, Bridge.setRun, Bridge.mapStage, Bridge.revoked, own] using seen
    obtain ⟨before, _, same⟩ := Option.map_eq_some_iff.mp withdrawn
    have ended := before.cancelled_state
    rw [same] at ended
    exact ended
  attempts := by
    intro attempt member own
    simpa [liveAttempt] using attempts attempt member own

theorem view_stage (found : db.stages.find? runId = some stage) :
    (view db).stages runId = some (stageView stage) := by
  simp [view, found]

theorem rooted_run (rooted : Rooted (view db)) (found : db.stages.find? runId = some stage) :
    (db.runs.find? runId).isSome = true := by
  have ran := rooted.ran (view_stage found)
  simpa [view] using ran

theorem rooted_holds (rooted : Rooted (view db)) (found : db.stages.find? runId = some stage) :
    Holds db runId stage.currentAttemptId := by
  intro a current
  obtain ⟨n, held⟩ := rooted.held (view_stage found) current
  obtain ⟨attempt, listed, same⟩ := Option.map_eq_some_iff.mp held
  exact ⟨attempt, listed, congrArg Prod.fst same⟩

theorem rooted_claimed (rooted : Rooted (view db)) (found : db.stages.find? runId = some stage)
    (claimed : stage.state ≠ .waitingForParent) : stage.waitingSince = none := by
  have checked := rooted.checked (view_stage found)
  by_contra waits
  apply claimed
  apply checked.mp
  simpa [stageView, Option.isSome_iff_ne_none] using waits

theorem attempts_ended_iff (db : NativeDatabase) (current : Option Nat) :
    (∀ attempt ∈ (cancelCurrentAttempt db current).attempts.rows, attempt.runId = runId →
        liveAttempt attempt.status = false) ↔
      ∀ attempt ∈ db.attempts.rows, attempt.runId = runId → liveAttempt attempt.status = true →
        current = some attempt.attemptId := by
  constructor
  · intro ended attempt member own live
    by_contra other
    have kept : attempt ∈ (cancelCurrentAttempt db current).attempts.rows :=
      mem_cancelCurrentAttempt.mpr ⟨attempt, member, (if_neg other).symm⟩
    simp [ended attempt kept own] at live
  · intro only attempt member own
    obtain ⟨before, member', same⟩ := mem_cancelCurrentAttempt.mp member
    split_ifs at same with held
    · rw [same]
      exact cancelAttempt_ended before
    · rw [same] at own ⊢
      by_contra live
      exact held (only before member' own (by simpa using live))

theorem acts_cancel {v v' : Bridge} {r : String} (acts : Acts v (.cancel r) v') :
    v' = (v.revoked r).enter r StageView.settled .cancelled ∧
      ∀ stage, v.stages r = some stage → stage.waits = false := by
  cases acts with
  | cancel listed _ claimed =>
    refine ⟨rfl, ?_⟩
    intro stage found
    cases listed.symm.trans found
    exact claimed

theorem cancelNativeStage_of_open (found : db.stages.find? runId = some stage)
    (current : stage.state ≠ .settled) : cancelNativeStage db now runId =
      (cancelOpenStage db now stage).map fun db => (some .cancelled, db) := by
  simp [cancelNativeStage, found, current]

/-- A stage that is not settled can be cancelled exactly when it does not wait for a parent
and no attempt of its run is live but its current one. -/
theorem cancels_iff (reachable : ReachableWith (fun _ _ _ => True) db)
    (found : db.stages.find? runId = some stage) (current : stage.state ≠ .settled) :
    Cancels db now runId ↔ Cancellable db stage := by
  have rooted := rooted_reachable reachable
  have key := Table.key_of_find? found
  rw [← key] at found ⊢
  unfold Cancels
  rw [cancelNativeStage_of_open found current]
  constructor
  · intro cancels
    obtain ⟨db', ok, cancelled, _⟩ := cancels
    obtain ⟨db'', opened, same⟩ := map_eq_ok.mp ok
    cases same
    have claimed := (acts_cancel (cancelOpenStage_acts found current opened)).2 _ (view_stage found)
    have since : stage.waitingSince = none := by simpa [stageView] using claimed
    obtain ⟨db₁, total, _, attempts⟩ := cancelOpenStage_total now found
      (rooted_run rooted found) (rooted_holds rooted found) since
    cases opened.symm.trans total
    constructor
    · intro waits
      have since' := (rooted.checked (view_stage found)).mpr waits
      exact absurd since' (by simpa [stageView] using since)
    · apply (attempts_ended_iff db stage.currentAttemptId).mp
      intro attempt member own
      rw [← attempts] at member
      simpa [liveAttempt] using cancelled.attempts attempt member own
  · intro cancellable
    obtain ⟨db', ok, spared, attempts⟩ := cancelOpenStage_total now found
      (rooted_run rooted found) (rooted_holds rooted found)
      (rooted_claimed rooted found cancellable.1)
    refine ⟨db', map_eq_ok.mpr ⟨db', ok, rfl⟩, ?_, spared⟩
    have cancelled := (acts_cancel (cancelOpenStage_acts found current ok)).1
    apply cancelledRun_of_view found cancelled
    rw [attempts]
    exact (attempts_ended_iff db stage.currentAttemptId).mpr cancellable.2

def waiting : NativeDatabase :=
  perform emptyBridge 0 (.create ⟨"run", "stage", "code", request⟩)

def claimed : NativeDatabase :=
  let db := perform waiting 0 (.attach ⟨"code", none, none, [], none, silent⟩)
  perform db 0 (.poll ⟨0, 1, "code", 1, none, none, silent⟩)

def claimedRow : NativeStage where
  runId := "run"
  stageId := "stage"
  codebaseId := "code"
  request := request
  state := .dispatched
  currentAttemptId := some 1
  attemptCount := 1
  revision := 2
  waitingSince := none
  createdAt := 0

theorem reached_next (reachable : ReachableWith (fun _ _ _ => True) db) (now : Int)
    (operation : Operation) : ReachableWith (fun _ _ _ => True) (perform db now operation) :=
  Relation.ReflTransGen.tail reachable ⟨now, operation, trivial, rfl⟩

theorem waiting_reached : ReachableWith (fun _ _ _ => True) waiting :=
  reached_next .refl 0 _

theorem claimed_reached : ReachableWith (fun _ _ _ => True) claimed := by
  unfold claimed
  exact reached_next (reached_next waiting_reached 0 _) 0 _

theorem cancels_claimed : Cancels claimed 0 "run" :=
  have found : claimed.stages.find? "run" = some claimedRow := by decide
  have current : claimedRow.state ≠ .settled := by decide
  (cancels_iff claimed_reached found current).mpr ⟨by decide, by decide⟩

/-- A run that waits for its first parent. -/
theorem waiting_stage_not_cancelled : ReachableWith (fun _ _ _ => True) waiting ∧
    (∃ stage ∈ waiting.stages.rows, stage.runId = "run" ∧ stage.state ≠ .settled) ∧
      ¬ Cancels waiting 0 "run" := by
  refine ⟨waiting_reached, by decide, ?_⟩
  intro cancels
  obtain ⟨db', ok, _⟩ := cancels
  have thrown : (cancelNativeStage waiting 0 "run").toOption.isNone = true := by decide
  rw [ok] at thrown
  cases thrown

end Heniek.NativeCancellation
