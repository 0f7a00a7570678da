import Heniek.NativeCancellation

/-!
The sweep of the native bridge ends, whatever was done before it. What it writes of a stage
and of a run passes the checks of their tables, as every dispatch is of a run that is there
and no stage that is engaged waits for a parent.
-/

namespace Heniek.BridgeModel
open NativeBridge
open ProjectionTables (RunStatus)

def Manned (v : Bridge) : Prop :=
  ∀ d x, v.dispatches d = some x → (v.runs x.runId).isSome = true

variable {v v' : Bridge} {r : String} {d : Nat} {x x' : DispatchView}

theorem recovered_ran (r' : String) (ran : (v.runs r).isSome = true) :
    ((v.recovered r').runs r).isSome = true := by
  unfold Bridge.recovered
  split
  · exact setRun_runs _ r' r _ ran
  · exact ran

theorem abandoned_ran (d : Nat) (r' : String) (ran : (v.runs r).isSome = true) :
    ((v.abandoned d r').runs r).isSome = true := by
  unfold Bridge.abandoned
  cases v.first d with
  | none => exact recovered_ran r' ran
  | some i => exact recovered_ran r' ran

variable {action : Action}

theorem Acts.runs_kept (acts : Acts v action v') (ran : (v.runs r).isSome = true) :
    (v'.runs r).isSome = true := by
  cases acts with
  | openRun => exact setRun_runs _ _ r _ ran
  | create => exact setRun_runs _ _ r _ ran
  | abandon => exact abandoned_ran _ _ ran
  | release => exact setRun_runs _ _ r _ ran
  | claim => exact setRun_runs _ _ r _ ran
  | fail => exact setRun_runs _ _ r _ ran
  | raise => exact setRun_runs _ _ r _ ran
  | answer => exact setRun_runs _ _ r _ ran
  | submit => exact ran
  | settle => exact setRun_runs _ _ r _ ran
  | finish => exact ran
  | resume => exact setRun_runs _ _ r _ ran
  | cancel => exact setRun_runs _ _ r _ ran

theorem Acts.dispatch_back (acts : Acts v action v') (found : v'.dispatches d = some x') :
    (∃ x, v.dispatches d = some x ∧ x.runId = x'.runId) ∨
      ∃ a stage, action = .claim x'.runId a d ∧ v.stages x'.runId = some stage := by
  have mapped : ∀ {d' : Nat} {change : DispatchView → DispatchView},
      (v.mapDispatch d' change).dispatches d = some x' → (∀ x, (change x).runId = x.runId) →
        ∃ x, v.dispatches d = some x ∧ x.runId = x'.runId := by
    intro d' change found keeps
    rw [mapDispatch_dispatches] at found
    split_ifs at found
    · obtain ⟨x, before, same⟩ := Option.map_eq_some_iff.mp found
      exact ⟨x, before, by rw [← same, keeps]⟩
    · exact ⟨x', found, rfl⟩
  cases acts with
  | abandon =>
    rw [abandoned_dispatches] at found
    exact .inl (mapped found fun _ => rfl)
  | claim listed waits newAttempt newDispatch =>
    rename_i r a d' stage
    have written : (v.claimed r a d' stage).dispatches d =
        if d = d' then some ⟨r, a, .dispatched⟩ else v.dispatches d := by
      simp [Bridge.claimed, Bridge.enter, Bridge.setRun, Bridge.mapStage, Function.update_apply]
    rw [written] at found
    split_ifs at found with same
    · cases found
      rw [same]
      exact .inr ⟨a, stage, rfl, listed⟩
    · exact .inl ⟨x', found, rfl⟩
  | release => exact .inl (mapped found fun _ => rfl)
  | fail => exact .inl (mapped found fun _ => rfl)
  | raise => exact .inl (mapped found fun _ => rfl)
  | submit => exact .inl (mapped found fun _ => rfl)
  | answer =>
    refine .inl (mapped found fun x => ?_)
    unfold DispatchView.answered
    split_ifs <;> rfl
  | cancel =>
    obtain ⟨x, before, run, _⟩ := revoked_dispatches found
    exact .inl ⟨x, before, run⟩
  | openRun => exact .inl ⟨x', found, rfl⟩
  | create => exact .inl ⟨x', found, rfl⟩
  | settle => exact .inl ⟨x', found, rfl⟩
  | finish => exact .inl ⟨x', found, rfl⟩
  | resume => exact .inl ⟨x', found, rfl⟩

theorem Manned.acted (manned : Manned v) (rooted : Rooted v) (acts : Acts v action v') :
    Manned v' := by
  intro d x' found
  cases acts.dispatch_back found with
  | inl older =>
    obtain ⟨x, before, same⟩ := older
    rw [← same]
    exact acts.runs_kept (manned d x before)
  | inr claimed =>
    obtain ⟨a, stage, _, listed⟩ := claimed
    exact acts.runs_kept (rooted.ran listed)

theorem Manned.abandoned (manned : Manned v) (d : Nat) (r : String) : Manned (v.abandoned d r) := by
  intro d' x' found
  rw [abandoned_dispatches, mapDispatch_dispatches] at found
  apply abandoned_ran
  split_ifs at found
  · obtain ⟨x, before, same⟩ := Option.map_eq_some_iff.mp found
    rw [← same]
    exact manned d' x before
  · exact manned d' x' found

end Heniek.BridgeModel

namespace Heniek.NativeBridge
open BridgeModel KeyedTable FallibleRun NativeCancellation
open ProjectionTables (RunStatus)

/-- What a sweep needs to end. -/
structure Grounded (db : NativeDatabase) : Prop where
  rooted : Rooted (view db)
  manned : Manned (view db)

variable {db db' : NativeDatabase} {now : Int} {runId : String}

theorem grounded_reachable {allowed : NativeDatabase → Int → Operation → Prop}
    (reachable : ReachableWith allowed db) : Grounded db := by
  apply steps_invariant (P := fun db => Grounded db) _ _ reachable
  · intro db db' grounded step
    obtain ⟨now, operation, _, same⟩ := step
    rw [same]
    have course := perform_asks db now operation
    apply steps_invariant (P := fun v => Rooted v ∧ Manned v) _ ⟨grounded.rooted, grounded.manned⟩
      course |>.elim Grounded.mk
    intro v v' holds acts
    obtain ⟨action, asks, acted⟩ := acts
    exact ⟨holds.1.acted asks acted, holds.2.acted holds.1 acted⟩
  · constructor
    · exact emptyView_rooted
    · intro d x found
      cases found

theorem recoverStage_total (db : NativeDatabase) (rooted : Rooted (view db))
    (ran : (db.runs.find? runId).isSome = true) :
    ∃ db', recoverStage db runId = .ok db' := by
  unfold recoverStage
  cases found : db.stages.find? runId with
  | none => exact ⟨db, rfl⟩
  | some stage =>
    by_cases engaged : stage.state.engaged = true
    · have claimed : stage.state ≠ .waitingForParent := by
        intro waits
        simp [waits, StageState.engaged] at engaged
      have since := rooted_claimed rooted found claimed
      obtain ⟨run, revision, _, advanced⟩ := advanceRunStatus_written
        { db with
          stages := db.stages.upsert
            { stage with state := .recoveryRequired, revision := stage.revision + 1 } }
        runId .recoveryRequired ran
      have stored : storeStage db
          { stage with state := .recoveryRequired, revision := stage.revision + 1 } =
            .ok { db with
              stages := db.stages.upsert
                { stage with state := .recoveryRequired, revision := stage.revision + 1 } } := by
        simp [storeStage, since]
      simp only [engaged]
      exact ⟨_, bind_eq_ok.mpr ⟨_, stored, bind_eq_ok.mpr ⟨_, advanced, rfl⟩⟩⟩
    · exact ⟨db, if_neg engaged⟩

theorem updateAttempt_runs (db : NativeDatabase) (attemptId : Nat)
    (change : NativeStageAttempt → NativeStageAttempt) :
    (updateAttempt db attemptId change).runs = db.runs := by
  unfold updateAttempt
  split <;> rfl

def RunsKept (db db' : NativeDatabase) : Prop :=
  ∀ r, (db.runs.find? r).isSome = true → (db'.runs.find? r).isSome = true

theorem runsKept_of_view (kept : ∀ r, ((view db).runs r).isSome = true →
    ((view db').runs r).isSome = true) : RunsKept db db' := by
  intro r ran
  simpa [view] using kept r (by simpa [view] using ran)

theorem updateAttempt_recovered (db : NativeDatabase) (attemptId : Nat) :
    view (updateAttempt db attemptId recoverAttempt) = view db :=
  updateAttempt_view (fun attempt => (recoverAttempt_keeps attempt).1)
    fun attempt => (recoverAttempt_keeps attempt).2

theorem cancelNativeQuestion_rooted {interactionId : String} {reason : CancellationReason}
    (rooted : Rooted (view db))
    (ok : cancelNativeQuestion db runId interactionId reason now = .ok db') :
    Rooted (view db') := by
  rw [cancelNativeQuestion_view ok]
  exact rooted.left rfl rfl rfl

variable (now) in
theorem abandonDispatchAndRecover_total (terminalReason reasonCode : String)
    {dispatch : NativeDispatch} (grounded : Grounded db)
    (ran : (db.runs.find? dispatch.runId).isSome = true) :
    ∃ db', abandonDispatchAndRecover terminalReason reasonCode now db dispatch = .ok db' ∧
      Grounded db' ∧ RunsKept db db' := by
  have whole :
      ∀ db', abandonDispatchAndRecover terminalReason reasonCode now db dispatch = .ok db' →
      Grounded db' ∧ RunsKept db db' := by
    intro db' ok
    cases found : db.dispatches.find? dispatch.dispatchId with
    | none =>
      simp only [abandonDispatchAndRecover, found] at ok
      cases ok
      exact ⟨grounded, fun _ ran => ran⟩
    | some current =>
      by_cases isOpen : current.state.isOpen = true
      · have seen := abandonDispatchAndRecover_view found isOpen ok
        refine ⟨⟨?_, ?_⟩, runsKept_of_view ?_⟩
        · rw [seen]
          exact grounded.rooted.abandoned _ _
        · rw [seen]
          exact grounded.manned.abandoned _ _
        · rw [seen]
          exact fun r ran => abandoned_ran _ _ ran
      · simp only [abandonDispatchAndRecover, found, isOpen, Bool.false_eq_true, if_false] at ok
        cases ok
        exact ⟨grounded, fun _ ran => ran⟩
  suffices total : ∃ db',
      abandonDispatchAndRecover terminalReason reasonCode now db dispatch = .ok db' by
    obtain ⟨db', ok⟩ := total
    exact ⟨db', ok, whole db' ok⟩
  unfold abandonDispatchAndRecover
  cases found : db.dispatches.find? dispatch.dispatchId with
  | none => exact ⟨db, rfl⟩
  | some current =>
    by_cases isOpen : current.state.isOpen = true
    · have closed := view_dispatch db (closedDispatch current .abandoned terminalReason now)
        (DispatchView.entered .abandoned) found rfl rfl
      have rooted : Rooted (view (updateAttempt { db with
          dispatches := db.dispatches.upsert
            (closedDispatch current .abandoned terminalReason now) } dispatch.attemptId
              recoverAttempt)) := by
        rw [updateAttempt_recovered, closed]
        exact grounded.rooted.left rfl rfl rfl
      have ran₁ : ((updateAttempt { db with
          dispatches := db.dispatches.upsert
            (closedDispatch current .abandoned terminalReason now) } dispatch.attemptId
              recoverAttempt).runs.find? dispatch.runId).isSome = true := by
        rw [updateAttempt_runs]
        exact ran
      simp only [isOpen, if_true]
      revert rooted ran₁
      generalize updateAttempt _ dispatch.attemptId recoverAttempt = db₁
      intro rooted ran₁
      cases firstQuestion db₁ dispatch.dispatchId with
      | none => exact recoverStage_total _ rooted ran₁
      | some question =>
        obtain ⟨db₂, cancelled, withdrawn⟩ :=
          cancelNativeQuestion_total now question.interactionId .withdrawn ran₁
        have rooted₂ := cancelNativeQuestion_rooted rooted cancelled
        obtain ⟨db₃, recovered⟩ := recoverStage_total (appendEvent db₂ (.statusChanged
          dispatch.runId .recoveryRequired (some reasonCode))) rooted₂ withdrawn.ran
        exact ⟨db₃, bind_eq_ok.mpr ⟨db₂, cancelled, recovered⟩⟩
    · exact ⟨db, if_neg isOpen⟩

theorem abandonAll_total (terminalReason reasonCode : String) (now : Int)
    (dispatches : List NativeDispatch) (grounded : Grounded db)
    (ran : ∀ dispatch ∈ dispatches, (db.runs.find? dispatch.runId).isSome = true) :
    ∃ db',
      dispatches.foldlM (abandonDispatchAndRecover terminalReason reasonCode now) db = .ok db' ∧
      Grounded db' := by
  have fold := foldlM_total (P := fun db' => Grounded db' ∧ RunsKept db db')
    (f := abandonDispatchAndRecover terminalReason reasonCode now) (l := dispatches) ?_
    ⟨grounded, fun _ ran => ran⟩
  · obtain ⟨db', ok, holds⟩ := fold
    exact ⟨db', ok, holds.1⟩
  · intro dispatch listed db₁ holds
    obtain ⟨db₂, ok, grounded₂, kept⟩ := abandonDispatchAndRecover_total now terminalReason
      reasonCode holds.1 (holds.2 _ (ran dispatch listed))
    exact ⟨db₂, ok, grounded₂, fun r ran => kept r (holds.2 r ran)⟩

theorem manned_row (grounded : Grounded db) {dispatch : NativeDispatch}
    (listed : dispatch ∈ db.dispatches.rows) : (db.runs.find? dispatch.runId).isSome = true := by
  have seen : (view db).dispatches dispatch.dispatchId = some (dispatchView dispatch) := by
    simp [view, Table.find?_key listed]
  have ran := grounded.manned _ _ seen
  simpa [view, dispatchView] using ran

theorem expireSession_total (now : Int) (witnessOf : WitnessClassifier) (session : ParentSession)
    (grounded : Grounded db) :
    ∃ db', expireSession now witnessOf db session = .ok db' ∧ Grounded db' := by
  have stored : ∀ session', Grounded { db with sessions := db.sessions.upsert session' } :=
    fun _ => ⟨grounded.rooted, grounded.manned⟩
  unfold expireSession
  split
  · split_ifs
    · exact ⟨_, rfl, stored _⟩
    · exact ⟨db, rfl, grounded⟩
  · apply abandonAll_total _ _ _ _ (stored _)
    intro dispatch listed
    exact manned_row grounded (List.mem_filter.mp listed).1

theorem reapExpirations_total (codebaseId : Option String) (now : Int)
    (witnessOf : WitnessClassifier) (grounded : Grounded db) :
    ∃ db', reapExpirations db codebaseId now witnessOf = .ok db' ∧ Grounded db' := by
  obtain ⟨db₁, expired, grounded₁⟩ := foldlM_total (P := Grounded)
    (f := expireSession now witnessOf) (l := expiredSessions db codebaseId now)
    (fun session _ _ grounded => expireSession_total now witnessOf session grounded) grounded
  obtain ⟨db₂, abandoned, grounded₂⟩ := abandonAll_total "session_superseded" "session_superseded"
    now (orphanedDispatches db₁ codebaseId) grounded₁
    fun dispatch listed => manned_row grounded₁ (List.mem_filter.mp listed).1
  exact ⟨db₂, bind_eq_ok.mpr ⟨db₁, expired, abandoned⟩, grounded₂⟩

theorem reapExpirations_keeps {P : NativeDatabase → Prop} {codebaseId : Option String}
    {witnessOf : WitnessClassifier}
    (sessions : ∀ db₁ session session', P db₁ → session ∈ expiredSessions db codebaseId now →
      session'.sessionId = session.sessionId → session'.codebaseId = session.codebaseId →
        P { db₁ with sessions := db₁.sessions.upsert session' })
    (abandons : ∀ db₁ db₂ terminalReason reasonCode dispatch, P db₁ →
      abandonDispatchAndRecover terminalReason reasonCode now db₁ dispatch = .ok db₂ → P db₂)
    (initial : P db) (ok : reapExpirations db codebaseId now witnessOf = .ok db') : P db' := by
  obtain ⟨db₁, expired, orphaned⟩ := bind_eq_ok.mp ok
  have first : P db₁ := by
    apply foldlM_invariant _ initial expired
    intro session listed db₂ db₃ holds stepped
    unfold expireSession at stepped
    split at stepped
    · split_ifs at stepped
      · cases stepped
        exact sessions _ session _ holds listed rfl rfl
      · cases stepped
        exact holds
    · have released := sessions db₂ session (releasedSession session .expired now) holds listed rfl
        rfl
      apply foldlM_invariant _ released stepped
      intro dispatch _ db₄ db₅ holds abandoned
      exact abandons db₄ db₅ _ _ dispatch holds abandoned
  apply foldlM_invariant _ first orphaned
  intro dispatch _ db₂ db₃ holds abandoned
  exact abandons db₂ db₃ _ _ dispatch holds abandoned

theorem abandonDispatchAndRecover_rows {terminalReason reasonCode : String}
    {dispatch : NativeDispatch}
    (ok : abandonDispatchAndRecover terminalReason reasonCode now db dispatch = .ok db') :
    db'.sessions = db.sessions ∧ (db'.dispatches = db.dispatches ∨
      ∃ current, db.dispatches.find? dispatch.dispatchId = some current ∧
        current.state.isOpen = true ∧ db'.dispatches =
          db.dispatches.upsert (closedDispatch current .abandoned terminalReason now)) := by
  cases found : db.dispatches.find? dispatch.dispatchId with
  | none =>
    simp only [abandonDispatchAndRecover, found] at ok
    cases ok
    exact ⟨rfl, .inl rfl⟩
  | some current =>
    by_cases isOpen : current.state.isOpen = true
    · obtain ⟨dispatches, sessions⟩ := abandonDispatchAndRecover_tables found isOpen ok
      exact ⟨sessions, .inr ⟨current, rfl, isOpen, dispatches⟩⟩
    · simp only [abandonDispatchAndRecover, found, isOpen, Bool.false_eq_true] at ok
      cases ok
      exact ⟨rfl, .inl rfl⟩

end Heniek.NativeBridge
