import Heniek.NativeBridgeSteps

/-!
The courses of the native bridge operations. Each operation that succeeds first sweeps,
where it sweeps at all, and then goes through the actions that its lemma names.
-/

namespace Heniek.NativeBridge
open KeyedTable FallibleRun BridgeModel Interactions
open ProjectionTables (RunStatus)

variable {db db' : NativeDatabase} {now : Int}
variable {codebaseId : Option String} {witnessOf : WitnessClassifier}

theorem insertRow_ok {α κ : Type} [DecidableEq κ] {key : α → κ} {name : String} {t t' : Table key}
    {row : α} (ok : insertRow name t row = .ok t') : t.find? (key row) = none ∧
      t' = t.upsert row := by
  unfold insertRow at ok
  split at ok
  · rename_i inserted
    cases ok
    obtain ⟨fresh, same⟩ := Table.insert?_eq_some.mp inserted
    exact ⟨Table.find?_eq_none.mpr fresh, same⟩
  · cases ok

variable {runId : String} {dispatch : NativeDispatch} {attemptId : Nat}

theorem commitRunCreated_acts {codebaseId : String}
    (ok : commitRunCreated db runId codebaseId = .ok db') :
    Acts (view db) (.openRun runId) (view db') := by
  unfold commitRunCreated at ok
  split at ok
  · cases ok
  · rename_i runs inserted
    obtain ⟨fresh, same⟩ := Table.insert?_eq_some.mp inserted
    cases ok
    have absent : (view db).runs runId = none := by
      simp only [view, Table.find?_eq_none.mpr fresh, Option.map_none]
    have written := view_runs (appendEvent db (.runCreated runId codebaseId))
      ⟨runId, codebaseId, .queued, 1⟩
    rw [view_appendEvent] at written
    rw [same]
    exact written ▸ Acts.openRun absent

theorem insertNativeStage_acts {input : CreateNativeStageInput}
    (ok : insertNativeStage db now input = .ok db') :
    Acts (view db) (.create input.runId) (view db') := by
  obtain ⟨⟨revision, db₁⟩, advanced, ok⟩ := bind_eq_ok.mp ok
  have seen := advanceRunStatus_view advanced
  obtain ⟨runs, same⟩ := advanceRunStatus_tables advanced
  simp only at ok
  split_ifs at ok
  obtain ⟨stages, inserted, ok⟩ := bind_eq_ok.mp ok
  obtain ⟨fresh, same'⟩ := insertRow_ok inserted
  cases ok
  rw [same', view_stages, seen]
  have absent : (view db).stages input.runId = none := by
    rw [same] at fresh
    have missing : db.stages.find? input.runId = none := fresh
    simp only [view, missing, Option.map_none]
  exact Acts.create absent

theorem createNativeStage_course (db : NativeDatabase) (now : Int)
    (input : CreateNativeStageInput) :
    Course (fun action => action = .openRun input.runId ∨ action = .create input.runId) (view db)
      (view (createNativeStage db now input).2) := by
  unfold createNativeStage
  split
  · exact Course.of_eq rfl
  · rename_i created opened
    have first := commitRunCreated_acts opened
    split
    · exact Course.one (.inl rfl) first
    · rename_i stored inserted
      exact (Course.one (.inl rfl) first).tail ⟨_, .inr rfl, insertNativeStage_acts inserted⟩

theorem rebindDispatch_view (sessionId : Nat) (db : NativeDatabase) (dispatchId : Nat) :
    view (rebindDispatch sessionId db dispatchId) = view db := by
  unfold rebindDispatch
  split
  · rfl
  · rename_i dispatch found
    split
    · have seen : (view db).dispatches dispatchId = some (dispatchView dispatch) := by
        simp [view, found]
      refine (view_dispatch _ _ id found ?_ ?_).trans (mapDispatch_of_fixed seen rfl)
      · rfl
      · rfl
    · rfl

theorem rebindAll_view (sessionId : Nat) (resumed : List Nat) (db : NativeDatabase) :
    view (resumed.foldl (rebindDispatch sessionId) db) = view db := by
  induction resumed generalizing db with
  | nil => rfl
  | cons dispatchId resumed ih => rw [List.foldl_cons, ih, rebindDispatch_view]

theorem attachSession_view {input : AttachInput} {superseded : Option Nat} {resumed : List Nat}
    {reply : Reply Attachment}
    (ok : attachSession db now input superseded resumed = .ok (reply, db')) :
    view db' = view db := by
  obtain ⟨sessions, inserted, ok⟩ := bind_eq_ok.mp ok
  cases ok
  rw [rebindAll_view]
  split <;> rfl

theorem attachParentSession_course {input : AttachInput} {reply : Reply Attachment}
    (ok : attachParentSession db now input = .ok (reply, db')) :
    Course (Sweeps db (some input.codebaseId) now input.witnessOf) (view db) (view db') := by
  obtain ⟨swept, reaped, ok⟩ := bind_eq_ok.mp ok
  have course := (reapExpirations_swept reaped).course
  split at ok
  · rw [attachSession_view ok]
    exact course
  · split at ok
    · cases ok
    · split_ifs at ok
      · rw [attachSession_view ok]
        exact course
      · cases ok
        exact course

def Detaches (db : NativeDatabase) (input : DetachInput) (action : Action) : Prop :=
  ∃ dispatch ∈ db.dispatches.rows, dispatch.sessionId = input.sessionId ∧
    dispatch.state.isOpen = true ∧ dispatch.dispatchId ∈ input.dispatches.map Prod.fst ∧
      (action = .abandon dispatch.dispatchId ∨ action = .release dispatch.dispatchId)

theorem releaseDispatch_view (found : db.dispatches.find? dispatch.dispatchId = some dispatch)
    (ok : releaseDispatch now db dispatch = .ok db') :
    view db' = ((view db).mapDispatch dispatch.dispatchId (DispatchView.entered .abandoned)).enter
      dispatch.runId StageView.waiting .waitingForParentSession := by
  obtain ⟨db₁, updated, ok⟩ := bind_eq_ok.mp ok
  obtain ⟨⟨revision, db₂⟩, advanced, ok⟩ := bind_eq_ok.mp ok
  cases ok
  have stages := (updateStage_view StageView.waiting updated (fun _ => rfl)
    fun _ => rfl).1
  rw [advanceRunStatus_view advanced, stages, view_appendEvent, updateAttempt_view,
    view_dispatch _ _ (DispatchView.entered .abandoned) found]
  · rfl
  · rfl
  · rfl
  · intro attempt
    rfl
  · intro attempt
    rfl

theorem updateStage_tables {change : NativeStage → NativeStage}
    (ok : updateStage db runId change = .ok db') :
    ∃ stages, db' = { db with stages := stages } := by
  unfold updateStage at ok
  split at ok
  · cases ok
    exact ⟨_, rfl⟩
  · exact ⟨_, (storeStage_ok ok).2⟩

theorem releaseDispatch_tables (ok : releaseDispatch now db dispatch = .ok db') : db'.dispatches =
      db.dispatches.upsert (closedDispatch dispatch .abandoned "parent_detached" now) := by
  obtain ⟨db₁, updated, ok⟩ := bind_eq_ok.mp ok
  obtain ⟨⟨revision, db₂⟩, advanced, ok⟩ := bind_eq_ok.mp ok
  cases ok
  obtain ⟨runs, same⟩ := advanceRunStatus_tables advanced
  obtain ⟨stages, same'⟩ := updateStage_tables updated
  rw [same, same']
  exact (updateAttempt_tables { db with
    dispatches := db.dispatches.upsert (closedDispatch dispatch .abandoned "parent_detached" now)
    } _ _).1

theorem detachEntry_ok {db₀ : NativeDatabase} {input : DetachInput} {entry : Nat × DetachOutcome}
    {progress progress' : NativeDatabase × List (Nat × Disposition)}
    (listed : entry ∈ input.dispatches)
    (course : Course (Detaches db₀ input) (view db₀) (view progress.1))
    (kept : OpenKept db₀ progress.1)
    (ok : detachEntry now input.sessionId progress entry = .ok progress') :
    Course (Detaches db₀ input) (view db₀) (view progress'.1) ∧ OpenKept db₀ progress'.1 := by
  unfold detachEntry at ok
  split at ok
  · cases ok
    exact ⟨course, kept⟩
  · rename_i dispatch filtered
    obtain ⟨found, own⟩ := Option.filter_eq_some_iff.mp filtered
    rw [Bool.and_eq_true, decide_eq_true_iff] at own
    have before := kept found own.2
    have key := Table.key_of_find? found
    have member : dispatch.dispatchId ∈ input.dispatches.map Prod.fst := by
      rw [key]
      exact List.mem_map_of_mem listed
    have allowed : ∀ action, action = .abandon dispatch.dispatchId ∨
        action = .release dispatch.dispatchId → Detaches db₀ input action := by
      intro action kinds
      exact ⟨dispatch, Table.mem_of_find? before, own.1, own.2, member, kinds⟩
    split_ifs at ok with fresh
    · obtain ⟨db₁, released, ok⟩ := bind_eq_ok.mp ok
      cases ok
      rw [← key] at found
      have seen : (view progress.1).dispatches dispatch.dispatchId =
          some (dispatchView dispatch) := by
        simp [view, found]
      have unasked : (view progress.1).first dispatch.dispatchId = none := by
        rw [key]
        simp [view, fresh.2]
      constructor
      · refine course.tail ⟨_, allowed _ (.inr rfl), ?_⟩
        rw [releaseDispatch_view found released]
        exact Acts.release seen own.2 unasked
      · intro d other found' isOpen'
        rw [releaseDispatch_tables released, Table.find?_upsert] at found'
        split_ifs at found'
        · cases found'
          cases isOpen'
        · exact kept found' isOpen'
    · obtain ⟨db₁, abandoned, ok⟩ := bind_eq_ok.mp ok
      cases ok
      obtain ⟨acts, kept', _⟩ :=
        abandonDispatchAndRecover_ok (Table.mem_of_find? before) kept abandoned
      refine ⟨?_, kept'⟩
      cases acts with
      | inl same =>
        rw [same]
        exact course
      | inr acts => exact course.tail ⟨_, allowed _ (.inl rfl), acts⟩

theorem detachParentSession_ok {input : DetachInput} {reply : Reply (List (Nat × Disposition))}
    (ok : detachParentSession db now input = .ok (reply, db')) :
    db' = db ∨ ∃ session swept, db.sessions.find? input.sessionId = some session ∧
      reapExpirations db (some session.codebaseId) now input.witnessOf = .ok swept ∧
        (db' = swept ∨
          (∃ current, currentSession swept input.sessionId input.sessionRevision = .ok current) ∧
            Course (Detaches swept input) (view swept) (view db')) := by
  unfold detachParentSession at ok
  split at ok
  · cases ok
    exact .inl rfl
  · rename_i session found
    obtain ⟨swept, reaped, ok⟩ := bind_eq_ok.mp ok
    refine .inr ⟨session, swept, found, reaped, ?_⟩
    split at ok
    · cases ok
      exact .inl rfl
    · rename_i current live
      obtain ⟨⟨db₁, released⟩, folded, ok⟩ := bind_eq_ok.mp ok
      cases ok
      refine .inr ⟨⟨current, live⟩, ?_⟩
      have whole : Course (Detaches swept input) (view swept) (view db₁) ∧ OpenKept swept db₁ := by
        apply foldlM_invariant (P := fun progress : NativeDatabase × List (Nat × Disposition) =>
          Course (Detaches swept input) (view swept) (view progress.1) ∧
            OpenKept swept progress.1) _ _ folded
        · intro entry listed progress progress' holds stepped
          exact detachEntry_ok listed holds.1 holds.2 stepped
        · exact ⟨Course.of_eq rfl, fun found _ => found⟩
      exact whole.1

def Claims (action : Action) : Prop := ∃ r a d, action = .claim r a d

theorem insertAttempt_ok {attempt : NativeStageAttempt}
    (ok : insertAttempt db attempt = .ok db') :
    db.attempts.find? attempt.attemptId = none ∧
      db' = { db with attempts := db.attempts.upsert attempt } := by
  unfold insertAttempt at ok
  split_ifs at ok
  obtain ⟨attempts, inserted, ok⟩ := bind_eq_ok.mp ok
  obtain ⟨fresh, same⟩ := insertRow_ok inserted
  cases ok
  exact ⟨fresh, by rw [same]⟩

theorem insertDispatch_ok (ok : insertDispatch db dispatch = .ok db') :
    db.dispatches.find? dispatch.dispatchId = none ∧
      db' = { db with dispatches := db.dispatches.upsert dispatch } := by
  unfold insertDispatch at ok
  split_ifs at ok
  obtain ⟨dispatches, inserted, ok⟩ := bind_eq_ok.mp ok
  obtain ⟨fresh, same⟩ := insertRow_ok inserted
  cases ok
  exact ⟨fresh, by rw [same]⟩

theorem claimStage_ok {sessionId : Nat} {expiresAt : Int}
    {progress progress' : NativeDatabase × List ClaimedNativeStage} {row : NativeStage}
    (ok : claimStage sessionId now expiresAt progress row = .ok progress') :
    (view progress'.1 = view progress.1 ∧ progress'.2 = progress.2) ∨
      ∃ claim : ClaimedNativeStage, progress'.2 = progress.2 ++ [claim] ∧
        Acts (view progress.1) (.claim claim.runId claim.attemptId claim.dispatchId)
          (view progress'.1) ∧ OfRun (view progress'.1) claim.dispatchId claim.runId := by
  unfold claimStage at ok
  dsimp only at ok
  split at ok
  · cases ok
    exact .inl ⟨rfl, rfl⟩
  · rename_i stage filtered
    obtain ⟨found, waits⟩ := Option.filter_eq_some_iff.mp filtered
    have key := Table.key_of_find? found
    obtain ⟨db₁, updated, ok⟩ := bind_eq_ok.mp ok
    obtain ⟨db₂, attempted, ok⟩ := bind_eq_ok.mp ok
    obtain ⟨db₃, dispatched, ok⟩ := bind_eq_ok.mp ok
    obtain ⟨⟨revision, db₄⟩, advanced, ok⟩ := bind_eq_ok.mp ok
    cases ok
    obtain ⟨freshAttempt, same₂⟩ := insertAttempt_ok attempted
    obtain ⟨freshDispatch, same₃⟩ := insertDispatch_ok dispatched
    obtain ⟨stages, same₁⟩ := updateStage_tables updated
    have seen := (updateStage_view (StageView.claimed progress.1.drawn) updated
      (fun _ => rfl) fun _ => rfl).1
    have listed : (view progress.1).stages stage.runId = some (stageView stage) := by
      have found' : progress.1.stages.find? row.runId = some stage := found
      simp [view, key, found']
    have newAttempt : (view progress.1).attempts progress.1.drawn = none := by
      rw [same₁] at freshAttempt
      have missing : progress.1.attempts.find? progress.1.drawn = none := freshAttempt
      simp [view, missing]
    have newDispatch : (view progress.1).dispatches (progress.1.drawn + 1) = none := by
      rw [same₂, same₁] at freshDispatch
      have missing : progress.1.dispatches.find? (progress.1.drawn + 1) = none := freshDispatch
      simp [view, missing]
    have written : view db₄ = (view progress.1).claimed stage.runId progress.1.drawn
        (progress.1.drawn + 1) (stageView stage) := by
      rw [advanceRunStatus_view advanced, view_appendEvent, same₃, view_dispatches, same₂,
        view_attempts, seen]
      simp only [Bridge.claimed, Bridge.enter, Bridge.mapStage, ← key]
      rfl
    refine .inr ⟨_, rfl, ?_, ?_⟩
    · rw [written]
      exact Acts.claim listed (of_decide_eq_true waits) newAttempt newDispatch
    · rw [written]
      refine ⟨⟨stage.runId, progress.1.drawn, .dispatched⟩, ?_, rfl⟩
      simp [Bridge.claimed, Bridge.enter, Bridge.setRun, Bridge.mapStage]

theorem deliverAnswer_view {progress progress' : NativeDatabase × List PollResumeEntry}
    {row : NativeQuestion} (ok : deliverAnswer progress row = .ok progress') :
    view progress'.1 = view progress.1 := by
  obtain ⟨db₁, advanced, ok⟩ := bind_eq_ok.mp ok
  cases ok
  have seen := advanceRunRevisionOnly_view advanced
  rw [view_appendEvent] at seen
  rw [← seen]
  split
  · rfl
  · rename_i question found
    split
    · have listed : (view db₁).questions (row.runId, row.interactionId) =
          some (questionView question) := by
        simp [view, found]
      refine (view_question _ _ id found ?_ ?_ ?_ ?_).trans
        (mapQuestion_of_fixed listed rfl)
      · rfl
      · rfl
      · rfl
      · rfl
    · rfl

theorem pollNativeBridge_ok {input : PollInput} {reply : Reply PollResult}
    (ok : pollNativeBridge db now input = .ok (reply, db')) : ∃ swept,
    reapExpirations db (some input.codebaseId) now input.witnessOf = .ok swept ∧
      Course Claims (view swept) (view db') ∧ ∀ result, reply = .accepted result →
        ∀ claim ∈ result.claimed, OfRun (view db') claim.dispatchId claim.runId := by
  obtain ⟨swept, reaped, ok⟩ := bind_eq_ok.mp ok
  refine ⟨swept, reaped, ?_⟩
  split at ok
  · cases ok
    exact ⟨Course.of_eq rfl, fun _ impossible => by cases impossible⟩
  · split at ok
    · cases ok
      exact ⟨Course.of_eq rfl, fun _ impossible => by cases impossible⟩
    · obtain ⟨⟨db₁, claimed⟩, claims, ok⟩ := bind_eq_ok.mp ok
      obtain ⟨⟨db₂, resumes⟩, delivered, ok⟩ := bind_eq_ok.mp ok
      cases ok
      have same : view db' = view db₁ := by
        apply foldlM_invariant (P := fun progress : NativeDatabase × List PollResumeEntry =>
          view progress.1 = view db₁) _ rfl delivered
        intro row _ progress progress' same stepped
        rw [deliverAnswer_view stepped, same]
      have folded : Course Claims (view swept) (view db₁) ∧
          ∀ claim ∈ claimed, OfRun (view db₁) claim.dispatchId claim.runId := by
        apply foldlM_invariant (P := fun progress : NativeDatabase × List ClaimedNativeStage =>
          Course Claims (view swept) (view progress.1) ∧
            ∀ claim ∈ progress.2, OfRun (view progress.1) claim.dispatchId claim.runId) _ _ claims
        · intro row _ progress progress' holds stepped
          cases claimStage_ok stepped with
          | inl nothing =>
            rw [nothing.1, nothing.2]
            exact holds
          | inr one =>
            obtain ⟨claim, listed, acts, own⟩ := one
            refine ⟨holds.1.tail ⟨_, ⟨_, _, _, rfl⟩, acts⟩, ?_⟩
            rw [listed]
            intro other member
            cases List.mem_append.mp member with
            | inl earlier => exact acts.ofRun (holds.2 other earlier)
            | inr last =>
              rw [List.mem_singleton.mp last]
              exact own
        · exact ⟨Course.of_eq rfl, by simp⟩
      rw [same]
      refine ⟨folded.1, ?_⟩
      intro result accepted
      cases accepted
      exact folded.2

theorem assignNativeAttemptWorkspace_view {workspaceId : String}
    (ok : assignNativeAttemptWorkspace db attemptId workspaceId = .ok db') :
    view db' = view db := by
  unfold assignNativeAttemptWorkspace at ok
  split at ok
  · cases ok
  · cases ok
    rw [updateAttempt_view]
    · intro attempt
      rfl
    · intro attempt
      rfl

theorem recordNativeAttemptReadonlyBaseline_view (db : NativeDatabase) (attemptId : Nat)
    (baseline : String) :
    view (recordNativeAttemptReadonlyBaseline db attemptId baseline) = view db := by
  unfold recordNativeAttemptReadonlyBaseline
  rw [updateAttempt_view]
  · intro attempt
    rfl
  · intro attempt
    rfl

theorem storeDispatch_ok {current next : NativeDispatch}
    (ok : storeDispatch db current next = .ok db') :
    (current.state.isOpen = true ∨ next.state = current.state) ∧
      db' = { db with dispatches := db.dispatches.upsert next } := by
  unfold storeDispatch at ok
  split_ifs at ok with final
  cases ok
  refine ⟨?_, rfl⟩
  by_contra neither
  rw [not_or] at neither
  exact final ⟨eq_false_of_ne_true neither.1, neither.2⟩

theorem abandonUnprovisioned_view {dispatchId : Nat}
    (ok : abandonUnprovisioned db now dispatchId = .ok db') :
    view db' = (view db).mapDispatch dispatchId (DispatchView.entered .abandoned) ∧
      ∀ x, (view db).dispatches dispatchId = some x →
        x.state.isOpen = true ∨ x.state = .abandoned := by
  unfold abandonUnprovisioned at ok
  split at ok
  · rename_i missing
    cases ok
    have absent : (view db).dispatches dispatchId = none := by simp [view, missing]
    refine ⟨(mapDispatch_of_none absent).symm, ?_⟩
    intro x found
    rw [absent] at found
    cases found
  · rename_i dispatch found
    have seen : (view db).dispatches dispatchId = some (dispatchView dispatch) := by
      simp [view, found]
    obtain ⟨allowed, same⟩ := storeDispatch_ok ok
    constructor
    · rw [same]
      exact view_dispatch _ _ _ found rfl rfl
    · intro x found'
      cases seen.symm.trans found'
      exact allowed.imp id Eq.symm

theorem recordNativeAttemptWorkspaceFailure_acts {input : WorkspaceFailureInput}
    (ok : recordNativeAttemptWorkspaceFailure db now input = .ok db') :
    Acts (view db) (.fail input.runId input.dispatchId) (view db') := by
  obtain ⟨db₁, closed, ok⟩ := bind_eq_ok.mp ok
  obtain ⟨db₂, updated, ok⟩ := bind_eq_ok.mp ok
  obtain ⟨⟨revision, db₃⟩, advanced, ok⟩ := bind_eq_ok.mp ok
  cases ok
  have stages := (updateStage_view StageView.waiting updated (fun _ => rfl)
    fun _ => rfl).1
  have kept : view (updateAttempt db input.attemptId
      (failAttempt (workspaceFailure input.reasonCode))) = view db := by
    rw [updateAttempt_view]
    · intro attempt
      rfl
    · intro attempt
      rfl
  have closing := abandonUnprovisioned_view closed
  rw [kept] at closing
  have whole : view db' = ((view db).mapDispatch input.dispatchId
      (DispatchView.entered .abandoned)).enter input.runId StageView.waiting
        .waitingForParentSession := by
    rw [advanceRunStatus_view advanced, stages, view_appendEvent, closing.1]
    rfl
  rw [whole]
  exact Acts.fail closing.2

theorem advanceRunStatus_run {status : RunStatus} {expected : Option Nat} {revision : Nat}
    (ok : advanceRunStatus db runId status expected = .ok (revision, db')) :
    (db.runs.find? runId).isSome = true := by
  unfold advanceRunStatus at ok
  split at ok
  · cases ok
  · rename_i run found
    rw [found, Option.isSome_some]

theorem recordNativeAttemptWorkspaceFailure_run {input : WorkspaceFailureInput}
    (ok : recordNativeAttemptWorkspaceFailure db now input = .ok db') :
    (db.runs.find? input.runId).isSome = true := by
  obtain ⟨db₁, closed, ok⟩ := bind_eq_ok.mp ok
  obtain ⟨db₂, updated, ok⟩ := bind_eq_ok.mp ok
  obtain ⟨⟨revision, db₃⟩, advanced, ok⟩ := bind_eq_ok.mp ok
  obtain ⟨stages, same₂⟩ := updateStage_tables updated
  have run := advanceRunStatus_run advanced
  have runs : (updateAttempt db input.attemptId
      (failAttempt (workspaceFailure input.reasonCode))).runs = db.runs := by
    unfold updateAttempt
    split <;> rfl
  have same₁ : db₁.runs = db.runs := by
    unfold abandonUnprovisioned at closed
    split at closed
    · cases closed
      exact runs
    · rw [(storeDispatch_ok closed).2]
      exact runs
  rw [same₂] at run
  rw [← same₁]
  exact run

theorem sweepSession_swept {sessionId : Nat} {swept : NativeDatabase}
    (ok : sweepSession db sessionId now witnessOf = .ok swept) :
    swept = db ∨ ∃ codebaseId, codebaseForSession db sessionId = some codebaseId ∧
      Swept (some codebaseId) now witnessOf db swept := by
  unfold sweepSession at ok
  split at ok
  · cases ok
    exact .inl rfl
  · rename_i codebaseId listed
    exact .inr ⟨codebaseId, listed, reapExpirations_swept ok⟩

theorem validateDispatchFence_ok {fence : DispatchFence} {allowSettled : Bool}
    (ok : validateDispatchFence db fence allowSettled = .ok dispatch) :
    db.dispatches.find? fence.dispatchId = some dispatch ∧ dispatch.runId = fence.runId ∧
      (dispatch.state.isOpen = true ∨ dispatch.state = .submitted) := by
  unfold validateDispatchFence at ok
  split at ok
  · cases ok
  · split at ok
    · cases ok
    · rename_i row found
      have states : ¬ (row.state = .revoked ∨ row.state = .abandoned) → row.state ≠ .submitted →
          row.state.isOpen = true := by
        intro kept unsettled
        cases state : row.state with
        | dispatched => rfl
        | waitingOnUser => rfl
        | submitted => exact absurd state unsettled
        | revoked => exact absurd (.inl state) kept
        | abandoned => exact absurd (.inr state) kept
      split_ifs at ok with other closed settled allowed current
      · cases ok
        simp only [not_or, not_not] at other
        exact ⟨found, other.2.1, .inr settled⟩
      · cases ok
        simp only [not_or, not_not] at other
        exact ⟨found, other.2.1, .inl (states closed settled)⟩

theorem firstQuestion_insert (question : NativeQuestion)
    (fresh : db.questions.find? (question.runId, question.interactionId) = none) :
    (fun d => (firstQuestion { db with questions := db.questions.upsert question } d).map
      NativeQuestion.interactionId) =
        Function.update (view db).first question.dispatchId
          (((view db).first question.dispatchId).or (some question.interactionId)) := by
  funext d
  have rows : (db.questions.upsert question).rows = db.questions.rows ++ [question] :=
    Table.rows_upsert_of_not_mem (Table.find?_eq_none.mp fresh)
  rw [Function.update_apply]
  simp only [firstQuestion, rows, List.find?_append, view]
  split_ifs with own
  · rw [own]
    cases db.questions.rows.find? fun other => decide (other.dispatchId = question.dispatchId) with
    | none => simp
    | some other => rfl
  · have other : ¬ question.dispatchId = d := fun same => own same.symm
    cases db.questions.rows.find? fun other => decide (other.dispatchId = d) with
    | none => simp [other]
    | some found => rfl

variable (db) in
theorem view_asked (question : NativeQuestion)
    (fresh : db.questions.find? (question.runId, question.interactionId) = none) :
    view { db with questions := db.questions.upsert question } =
      { view db with
        questions := Function.update (view db).questions (question.runId, question.interactionId)
          (some (questionView question))
        first := Function.update (view db).first question.dispatchId
          (((view db).first question.dispatchId).or (some question.interactionId)) } := by
  have asked := firstQuestion_insert question fresh
  simp only [view, lookup_upsert] at asked ⊢
  rw [asked]

theorem raiseQuestion_acts {input : RaiseInput} {reply : Reply RaisedQuestion}
    (found : db.dispatches.find? input.fence.dispatchId = some dispatch)
    (run : dispatch.runId = input.fence.runId) (current : dispatch.state = .dispatched)
    (ok : raiseQuestion db dispatch input = .ok (reply, db')) :
    Acts (view db) (.raise input.interaction.id input.fence.dispatchId) (view db') := by
  unfold raiseQuestion at ok
  split_ifs at ok
  obtain ⟨canonical, canonicalized, ok⟩ := bind_eq_ok.mp ok
  obtain ⟨questions, inserted, ok⟩ := bind_eq_ok.mp ok
  obtain ⟨db₁, updated, ok⟩ := bind_eq_ok.mp ok
  obtain ⟨⟨revision, db₂⟩, advanced, ok⟩ := bind_eq_ok.mp ok
  cases ok
  obtain ⟨fresh, same⟩ := insertRow_ok inserted
  have id : canonical.interactionId = input.interaction.id := by
    obtain ⟨questions, _, made⟩ := bind_eq_ok.mp (mapError_eq_ok.mp canonicalized)
    cases made
    rfl
  have seen : (view db).dispatches input.fence.dispatchId = some (dispatchView dispatch) := by
    simp [view, found]
  have absent : (view db).questions (dispatch.runId, input.interaction.id) = none := by
    have missing : db.questions.find? (input.fence.runId, canonical.interactionId) = none := fresh
    simp [view, run, ← id, missing]
  have stages := (updateStage_view (StageView.entered .waitingOnUser) updated
    (fun _ => rfl) fun _ => rfl).1
  have same' : questions = db.questions.upsert (newQuestion input.fence canonical) := same
  have listed := view_asked db (newQuestion input.fence canonical) fresh
  rw [← same'] at listed
  have whole : view db' = (view db).raised input.fence.runId canonical.interactionId
      input.fence.dispatchId := by
    have moved := view_dispatch { db with questions := questions }
      { dispatch with state := .waitingOnUser, revision := dispatch.revision + 1 }
      (DispatchView.entered .waitingOnUser) found rfl rfl
    rw [listed] at moved
    rw [advanceRunStatus_view advanced, stages]
    exact congrArg (fun v : Bridge => v.enter input.fence.runId (StageView.entered .waitingOnUser)
      .waitingOnUser) moved
  rw [whole, ← run, id]
  exact Acts.raise seen current absent

theorem raiseNativeQuestion_ok {input : RaiseInput} {reply : Reply RaisedQuestion}
    (ok : raiseNativeQuestion db now input = .ok (reply, db')) : ∃ swept,
    sweepSession db input.fence.sessionId now input.witnessOf = .ok swept ∧
      (db' = swept ∨
        Acts (view swept) (.raise input.interaction.id input.fence.dispatchId) (view db')) := by
  obtain ⟨swept, reaped, ok⟩ := bind_eq_ok.mp ok
  refine ⟨swept, reaped, ?_⟩
  split at ok
  · cases ok
    exact .inl rfl
  · rename_i dispatch fenced
    obtain ⟨found, run, _⟩ := validateDispatchFence_ok fenced
    split_ifs at ok with current
    · cases ok
      exact .inl rfl
    · exact .inr (raiseQuestion_acts found run (not_not.mp current) ok)

theorem answerable_ok {input : AnswerInput} {question : NativeQuestion} {answer : BackendAnswer}
    (ok : answerable db input = .ok (question, answer)) :
    db.questions.find? (input.runId, input.submission.interactionId) = some question ∧
      question.state = .pending := by
  unfold answerable at ok
  split_ifs at ok
  split at ok
  · cases ok
  · rename_i row found
    split_ifs at ok with closed
    split at ok
    · cases ok
    · cases ok
      exact ⟨found, not_not.mp closed⟩

theorem continueDispatch_view (db : NativeDatabase) (dispatchId : Nat) :
    view (continueDispatch db dispatchId) =
      (view db).mapDispatch dispatchId DispatchView.answered := by
  unfold continueDispatch
  cases found : db.dispatches.find? dispatchId with
  | none =>
    have absent : (view db).dispatches dispatchId = none := by simp [view, found]
    exact (mapDispatch_of_none absent).symm
  | some dispatch =>
    have seen : (view db).dispatches dispatchId = some (dispatchView dispatch) := by
      simp [view, found]
    by_cases waits : dispatch.state = .waitingOnUser
    · simp only [Option.filter_some, waits, decide_true, if_true]
      refine view_dispatch _ _ _ found rfl ?_
      rw [DispatchView.answered, if_pos (show (dispatchView dispatch).state = _ from waits)]
      rfl
    · simp only [Option.filter_some, waits, decide_false, Bool.false_eq_true, if_false]
      have fixed : (dispatchView dispatch).answered = dispatchView dispatch := if_neg waits
      exact (mapDispatch_of_fixed seen fixed).symm

theorem continueStage_view (ok : continueStage db runId = .ok db') :
    view db' = (view db).mapStage runId StageView.answered := by
  unfold continueStage at ok
  cases found : db.stages.find? runId with
  | none =>
    simp only [found, Option.any_none, Bool.false_eq_true, if_false] at ok
    cases ok
    have absent : (view db).stages runId = none := by simp [view, found]
    exact (mapStage_of_none absent).symm
  | some stage =>
    have listed : (view db).stages runId = some (stageView stage) := by simp [view, found]
    by_cases waits : stage.state = .waitingOnUser
    · simp only [found, Option.any_some, waits, decide_true] at ok
      have stages := (updateStage_view (StageView.entered .dispatched) ok
        (fun _ => rfl) fun _ => rfl).1
      have same : (stageView stage).answered = (stageView stage).entered .dispatched :=
        if_pos waits
      rw [stages]
      simp only [Bridge.mapStage, listed, Option.map_some, same]
    · simp only [found, Option.any_some, waits, decide_false, Bool.false_eq_true] at ok
      cases ok
      have fixed : (stageView stage).answered = stageView stage := if_neg waits
      exact (mapStage_of_fixed listed fixed).symm

theorem answerNativeQuestion_ok {input : AnswerInput} {answered : AnsweredQuestion}
    (ok : answerNativeQuestion db now input = .ok (answered, db')) :
    (∃ result, answerable db input = .ok result) ∧
      Acts (view db) (.answer input.runId input.submission.interactionId) (view db') := by
  obtain ⟨⟨question, answer⟩, checked, ok⟩ := bind_eq_ok.mp ok
  obtain ⟨db₁, continued, ok⟩ := bind_eq_ok.mp ok
  obtain ⟨⟨revision, db₂⟩, advanced, ok⟩ := bind_eq_ok.mp ok
  cases ok
  refine ⟨⟨_, checked⟩, ?_⟩
  obtain ⟨found, pending⟩ := answerable_ok checked
  have seen : (view db).questions (input.runId, input.submission.interactionId) =
      some (questionView question) := by
    simp [view, found]
  have asked := view_question db (answeredQuestion question answer input.answeredByKeyId now)
    (fun _ => ⟨question.dispatchId, .answered⟩) found rfl rfl rfl rfl
  have whole : view db' = (view db).answered input.runId input.submission.interactionId
      (questionView question) := by
    rw [advanceRunStatus_view advanced, continueStage_view continued, continueDispatch_view]
    have written : view { db with
        questions := db.questions.upsert
          (answeredQuestion question answer input.answeredByKeyId now) } =
        { view db with
          questions := Function.update (view db).questions
            (input.runId, input.submission.interactionId)
            (some ⟨question.dispatchId, .answered⟩) } := by
      rw [asked]
      simp only [Bridge.mapQuestion, seen, Option.map_some]
    exact congrArg (fun v : Bridge => (v.mapDispatch question.dispatchId
      DispatchView.answered).enter input.runId StageView.answered .running) written
  rw [whole]
  exact Acts.answer seen pending

/-- A submission that is taken closes its dispatch, and settles the stage unless it succeeded. -/
def Settles (db : NativeDatabase) (input : SettleInput) (db' : NativeDatabase) : Prop :=
  ∃ closed, Acts (view db) (.submit input.fence.dispatchId) closed ∧
    if input.outcome = .succeeded then view db' = closed
    else Acts closed (.settle input.fence.runId input.outcome.runStatus) (view db')

theorem claimed_of_settled {v : Bridge} {r : String}
    (checked : ∀ stage, v.stages r = some stage →
      (stage.settled.waits = true ↔ stage.settled.state = .waitingForParent)) :
    ∀ stage, v.stages r = some stage → stage.waits = false := by
  intro stage listed
  have same := checked stage listed
  simpa [StageView.settled] using same

theorem settleDispatch_ok {input : SettleInput} {reply : Reply Settlement}
    (found : db.dispatches.find? input.fence.dispatchId = some dispatch)
    (current : dispatch.state.isOpen = true)
    (ok : settleDispatch db now dispatch input = .ok (reply, db')) :
    Settles db input db' ∧ ∀ settlement, reply = .accepted settlement →
      settlement.requiresArtifactCompletion = decide (input.outcome = .succeeded) := by
  have seen : (view db).dispatches input.fence.dispatchId = some (dispatchView dispatch) := by
    simp [view, found]
  have moved := view_dispatch db (submittedDispatch dispatch input now)
    (DispatchView.entered .submitted) found rfl rfl
  have submits := Acts.submit seen current
  unfold settleDispatch at ok
  split_ifs at ok with succeeded
  · cases ok
    refine ⟨⟨_, submits, by rw [if_pos succeeded]; exact moved⟩, ?_⟩
    intro settlement accepted
    cases accepted
    simp [succeeded]
  · obtain ⟨db₁, updated, ok⟩ := bind_eq_ok.mp ok
    obtain ⟨⟨revision, db₂⟩, advanced, ok⟩ := bind_eq_ok.mp ok
    cases ok
    obtain ⟨stages, checked⟩ := updateStage_view StageView.settled updated
      (fun _ => rfl) fun _ => rfl
    have kept : view (updateAttempt { db with
        dispatches := db.dispatches.upsert (submittedDispatch dispatch input now) }
          input.fence.attemptId fun attempt =>
            { attempt with status := input.outcome.attemptStatus, failure := input.failure }) =
        (view db).mapDispatch input.fence.dispatchId (DispatchView.entered .submitted) := by
      rw [updateAttempt_view, moved]
      · intro attempt
        rfl
      · intro attempt
        rfl
    rw [kept] at stages checked
    have whole : view db' = ((view db).mapDispatch input.fence.dispatchId
        (DispatchView.entered .submitted)).enter input.fence.runId StageView.settled
          input.outcome.runStatus := by
      rw [advanceRunStatus_view advanced, view_appendEvent, stages]
      rfl
    refine ⟨⟨_, submits, ?_⟩, ?_⟩
    · rw [if_neg succeeded, whole]
      exact Acts.settle (claimed_of_settled checked)
    · intro settlement accepted
      cases accepted
      simp [succeeded]

theorem settleNativeDispatch_ok {input : SettleInput} {reply : Reply Settlement}
    (ok : settleNativeDispatch db now input = .ok (reply, db')) : ∃ swept,
    sweepSession db input.fence.sessionId now input.witnessOf = .ok swept ∧
      ((db' = swept ∧ ∀ settlement, reply = .accepted settlement →
          settlement.idempotentReplay = true) ∨
        ∃ dispatch, validateDispatchFence swept input.fence true = .ok dispatch ∧
          dispatch.state.isOpen = true ∧ Settles swept input db' ∧
            ∀ settlement, reply = .accepted settlement →
              settlement.requiresArtifactCompletion = decide (input.outcome = .succeeded)) := by
  obtain ⟨swept, reaped, ok⟩ := bind_eq_ok.mp ok
  refine ⟨swept, reaped, ?_⟩
  split at ok
  · cases ok
    exact .inl ⟨rfl, fun _ impossible => by cases impossible⟩
  · rename_i dispatch fenced
    obtain ⟨found, _, states⟩ := validateDispatchFence_ok fenced
    split_ifs at ok with settled
    · cases ok
      refine .inl ⟨rfl, ?_⟩
      intro settlement accepted
      unfold replaySubmission at accepted
      split_ifs at accepted
      cases accepted
      rfl
    · have current := states.resolve_right settled
      exact .inr ⟨dispatch, fenced, current, settleDispatch_ok found current ok⟩

theorem completeNativeAttemptArtifactOutcome_view
    (ok : completeNativeAttemptArtifactOutcome db attemptId runId = .ok db') :
    view db' = (view db).mapStage runId StageView.settled ∧
      ∀ stage, (view db).stages runId = some stage → stage.waits = false := by
  obtain ⟨stages, checked⟩ := updateStage_view StageView.settled ok (fun _ => rfl)
    fun _ => rfl
  have kept : view (updateAttempt db attemptId fun attempt =>
      { attempt with status := .succeeded }) = view db := by
    rw [updateAttempt_view]
    · intro attempt
      rfl
    · intro attempt
      rfl
  rw [kept] at stages checked
  exact ⟨stages, claimed_of_settled checked⟩

theorem downgradeNativeAttemptToFailed_acts {reasonCode message : String}
    (ok : downgradeNativeAttemptToFailed db attemptId runId reasonCode message = .ok db') :
    Acts (view db) (.settle runId .failed) (view db') := by
  obtain ⟨db₁, updated, ok⟩ := bind_eq_ok.mp ok
  obtain ⟨⟨revision, db₂⟩, advanced, ok⟩ := bind_eq_ok.mp ok
  cases ok
  obtain ⟨stages, checked⟩ := updateStage_view StageView.settled updated
    (fun _ => rfl) fun _ => rfl
  have kept : view (updateAttempt db attemptId
      (failAttempt (artifactFailure reasonCode message))) = view db := by
    rw [updateAttempt_view]
    · intro attempt
      rfl
    · intro attempt
      rfl
  rw [kept] at stages checked
  have whole : view db' = (view db).enter runId StageView.settled .failed := by
    rw [advanceRunStatus_view advanced, view_appendEvent, stages]
    rfl
  rw [whole]
  exact Acts.settle (claimed_of_settled checked)

theorem resumeNativeStage_acts {expectedRunRevision revision : Nat}
    (ok : resumeNativeStage db now runId expectedRunRevision = .ok (revision, db')) :
    Acts (view db) (.resume runId) (view db') := by
  unfold resumeNativeStage at ok
  split at ok
  · cases ok
  · rename_i stage found
    split_ifs at ok with lost
    obtain ⟨db₁, updated, advanced⟩ := bind_eq_ok.mp ok
    have stages := (updateStage_view StageView.waiting updated (fun _ => rfl)
      fun _ => rfl).1
    have listed : (view db).stages runId = some (stageView stage) := by simp [view, found]
    have whole : view db' = (view db).enter runId StageView.waiting .waitingForParentSession := by
      rw [advanceRunStatus_view advanced, stages]
      rfl
    rw [whole]
    exact Acts.resume listed (not_not.mp lost)

theorem cancelQuestions_view {interactions : List String}
    (ok : interactions.foldlM
        (fun db interactionId => cancelNativeQuestion db runId interactionId .runTerminal now) db =
      .ok db') :
    view db' = { view db with
      questions := fun k =>
        if k.1 = runId ∧ k.2 ∈ interactions then ((view db).questions k).map QuestionView.cancelled
        else (view db).questions k } := by
  induction interactions generalizing db with
  | nil =>
    cases ok
    simp
  | cons interactionId interactions ih =>
    obtain ⟨db₁, cancelled, rest⟩ := foldlM_cons_eq_ok.mp ok
    rw [ih rest, cancelNativeQuestion_view cancelled]
    have twice : ∀ question : QuestionView, question.cancelled.cancelled = question.cancelled := by
      intro question
      unfold QuestionView.cancelled
      split_ifs <;> simp_all
    have questions : (fun k : String × String =>
        if k.1 = runId ∧ k.2 ∈ interactions then
          (((view db).mapQuestion (runId, interactionId) QuestionView.cancelled).questions k).map
            QuestionView.cancelled
        else ((view db).mapQuestion (runId, interactionId) QuestionView.cancelled).questions k) =
        fun k => if k.1 = runId ∧ k.2 ∈ interactionId :: interactions then
          ((view db).questions k).map QuestionView.cancelled else (view db).questions k := by
      funext k
      by_cases same : k = (runId, interactionId)
      · rw [same]
        by_cases later : interactionId ∈ interactions
        · simp [Bridge.mapQuestion, Function.comp_def, twice]
        · simp [Bridge.mapQuestion, later]
      · have other : ¬ (k.1 = runId ∧ k.2 = interactionId) := by
          intro both
          exact same (Prod.ext both.1 both.2)
        have members : (k.1 = runId ∧ k.2 ∈ interactionId :: interactions) ↔
            k.1 = runId ∧ k.2 ∈ interactions := by
          rw [List.mem_cons]
          tauto
        simp only [Bridge.mapQuestion, Function.update_of_ne same, members]
    rw [questions]
    rfl

theorem mapAll_find? {α κ : Type} [DecidableEq κ] {key : α → κ} (t : Table key) (f : α → α)
    (keeps : ∀ a, key (f a) = key a) (k : κ) :
    (t.mapAll f keeps).find? k = (t.find? k).map f := by
  apply Option.ext
  intro b
  rw [Table.find?_eq_some, Table.mem_mapAll, Option.map_eq_some_iff]
  constructor
  · intro found
    obtain ⟨⟨a, member, same⟩, own⟩ := found
    exact ⟨a, Table.find?_eq_some.mpr ⟨member, by rw [← own, ← same, keeps]⟩, same⟩
  · intro found
    obtain ⟨a, listed, same⟩ := found
    obtain ⟨member, own⟩ := Table.find?_eq_some.mp listed
    exact ⟨⟨a, member, same⟩, by rw [← same, keeps, own]⟩

theorem revokeDispatch_view (runId : String) (dispatch : NativeDispatch) :
    dispatchView (revokeDispatch runId now dispatch) =
      (dispatchView dispatch).revoked runId := by
  unfold revokeDispatch DispatchView.revoked
  change dispatchView (if dispatch.runId = runId ∧ dispatch.state.isOpen = true then _ else _) =
    if dispatch.runId = runId ∧ dispatch.state.isOpen = true then _ else _
  split_ifs <;> rfl

theorem mem_pendingQuestions {interactionId : String} :
    interactionId ∈ pendingQuestions db runId ↔ ∃ question,
      db.questions.find? (runId, interactionId) = some question ∧ question.state = .pending := by
  simp only [pendingQuestions, List.mem_map, List.mem_filter, decide_eq_true_iff]
  constructor
  · intro listed
    obtain ⟨question, ⟨member, own, pending⟩, same⟩ := listed
    refine ⟨question, ?_, pending⟩
    rw [← own, ← same]
    exact Table.find?_key member
  · intro found
    obtain ⟨question, listed, pending⟩ := found
    have key := Table.key_of_find? listed
    exact ⟨question, ⟨Table.mem_of_find? listed, congrArg Prod.fst key, pending⟩,
      congrArg Prod.snd key⟩

theorem cancelCurrentAttempt_view (db : NativeDatabase) (attemptId : Option Nat) :
    view (cancelCurrentAttempt db attemptId) = view db := by
  cases attemptId with
  | none => rfl
  | some attemptId =>
    unfold cancelCurrentAttempt
    rw [updateAttempt_view]
    · intro attempt
      unfold cancelAttempt
      split_ifs <;> rfl
    · intro attempt
      unfold cancelAttempt
      split_ifs <;> rfl

theorem revokedRows_view
    (ok : (pendingQuestions db runId).foldlM
        (fun db interactionId => cancelNativeQuestion db runId interactionId .runTerminal now)
        { db with
          dispatches := db.dispatches.mapAll (revokeDispatch runId now)
            (revokeDispatch_dispatchId runId now) } =
      .ok db') :
    view db' = (view db).revoked runId := by
  rw [cancelQuestions_view ok]
  have dispatches : (fun d => ((db.dispatches.mapAll (revokeDispatch runId now)
      (revokeDispatch_dispatchId runId now)).find? d).map dispatchView) =
        fun d => ((view db).dispatches d).map (DispatchView.revoked runId) := by
    funext d
    simp only [mapAll_find?, view, Option.map_map, Function.comp_def, revokeDispatch_view]
  have questions : (fun k : String × String =>
      if k.1 = runId ∧ k.2 ∈ pendingQuestions db runId then
        ((view db).questions k).map QuestionView.cancelled
      else (view db).questions k) =
        fun k => if k.1 = runId then ((view db).questions k).map QuestionView.cancelled
          else (view db).questions k := by
    funext k
    by_cases own : k.1 = runId
    · by_cases pending : k.2 ∈ pendingQuestions db runId
      · rw [if_pos ⟨own, pending⟩, if_pos own]
      · rw [if_neg (fun both => pending both.2), if_pos own]
        cases listed : db.questions.find? k with
        | none => simp [view, listed]
        | some question =>
          have closed : question.state ≠ .pending := by
            intro open'
            apply pending
            rw [mem_pendingQuestions, ← own]
            exact ⟨question, listed, open'⟩
          have fixed : (questionView question).cancelled = questionView question := if_neg closed
          simp [view, listed, fixed]
    · rw [if_neg (fun both => own both.1), if_neg own]
  simp only [Bridge.revoked, ← dispatches, ← questions]
  rfl

theorem cancelOpenStage_acts {stage : NativeStage}
    (found : db.stages.find? stage.runId = some stage) (current : stage.state ≠ .settled)
    (ok : cancelOpenStage db now stage = .ok db') :
    Acts (view db) (.cancel stage.runId) (view db') := by
  obtain ⟨db₁, cancelled, ok⟩ := bind_eq_ok.mp ok
  obtain ⟨db₂, updated, ok⟩ := bind_eq_ok.mp ok
  obtain ⟨⟨revision, db₃⟩, advanced, ok⟩ := bind_eq_ok.mp ok
  cases ok
  have listed : (view db).stages stage.runId = some (stageView stage) := by simp [view, found]
  obtain ⟨stages, checked⟩ := updateStage_view StageView.settled updated
    (fun _ => rfl) fun _ => rfl
  rw [cancelCurrentAttempt_view, revokedRows_view cancelled] at stages checked
  have whole : view db' = ((view db).revoked stage.runId).enter stage.runId StageView.settled
      .cancelled := by
    rw [advanceRunStatus_view advanced, view_appendEvent, stages]
    rfl
  rw [whole]
  exact Acts.cancel listed current (claimed_of_settled checked _ listed)

theorem cancelNativeStage_ok {status : Option RunStatus}
    (ok : cancelNativeStage db now runId = .ok (status, db')) :
    db' = db ∨ Acts (view db) (.cancel runId) (view db') := by
  unfold cancelNativeStage at ok
  split at ok
  · cases ok
    exact .inl rfl
  · rename_i stage found
    split_ifs at ok with settled
    · cases ok
      exact .inl rfl
    · obtain ⟨db₁, cancelled, same⟩ := map_eq_ok.mp ok
      cases same
      have key := Table.key_of_find? found
      rw [← key] at found ⊢
      exact .inr (cancelOpenStage_acts found settled cancelled)

end Heniek.NativeBridge
