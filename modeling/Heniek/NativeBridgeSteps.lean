import Heniek.BridgeModel
import Heniek.NativeBridgeOperations

/-!
The operations of the native bridge store as sequences of actions: what each of them,
where it succeeds, does to the runs, the stages, the dispatches and the questions.
-/

namespace Heniek.NativeBridge
open KeyedTable FallibleRun BridgeModel
open ProjectionTables (RunStatus)

def stageView (stage : NativeStage) : StageView :=
  ⟨stage.state, stage.currentAttemptId, stage.attemptCount, stage.waitingSince.isSome⟩

def attemptView (attempt : NativeStageAttempt) : String × Nat :=
  (attempt.runId, attempt.attemptOrdinal)

def dispatchView (dispatch : NativeDispatch) : DispatchView :=
  ⟨dispatch.runId, dispatch.attemptId, dispatch.state⟩

def questionView (question : NativeQuestion) : QuestionView := ⟨question.dispatchId, question.state⟩

def view (db : NativeDatabase) : Bridge where
  runs r := (db.runs.find? r).map NativeRun.status
  stages r := (db.stages.find? r).map stageView
  attempts a := (db.attempts.find? a).map attemptView
  dispatches d := (db.dispatches.find? d).map dispatchView
  questions k := (db.questions.find? k).map questionView
  first d := (firstQuestion db d).map NativeQuestion.interactionId

variable {db db' : NativeDatabase} {now : Int}

theorem lookup_upsert {α κ β : Type} [DecidableEq κ] {key : α → κ} (t : Table key) (f : α → β)
    (a : α) : (fun k => ((t.upsert a).find? k).map f) =
      Function.update (fun k => (t.find? k).map f) (key a) (some (f a)) := by
  funext k
  rw [Table.find?_upsert, Function.update_apply]
  split <;> rfl

variable (db) in
theorem view_runs (run : NativeRun) :
    view { db with runs := db.runs.upsert run } = (view db).setRun run.runId run.status := by
  simp only [view, Bridge.setRun, lookup_upsert]
  rfl

theorem view_stages (stage : NativeStage) :
    view { db with stages := db.stages.upsert stage } =
      { view db with
        stages := Function.update (view db).stages stage.runId (some (stageView stage)) } := by
  simp only [view, lookup_upsert]
  rfl

theorem view_attempts (attempt : NativeStageAttempt) :
    view { db with attempts := db.attempts.upsert attempt } =
      { view db with
        attempts := Function.update (view db).attempts attempt.attemptId
          (some (attemptView attempt)) } := by
  simp only [view, lookup_upsert]
  rfl

theorem view_dispatches (dispatch : NativeDispatch) :
    view { db with dispatches := db.dispatches.upsert dispatch } =
      { view db with
        dispatches := Function.update (view db).dispatches dispatch.dispatchId
          (some (dispatchView dispatch)) } := by
  simp only [view, lookup_upsert]
  rfl

@[simp] theorem view_appendEvent (db : NativeDatabase) (event : NativeEvent) :
    view (appendEvent db event) = view db := rfl

variable {runId reasonCode : String} {current dispatch : NativeDispatch} {db₀ : NativeDatabase}

theorem advanceRunStatus_view {status : RunStatus} {expected : Option Nat} {revision : Nat}
    (ok : advanceRunStatus db runId status expected = .ok (revision, db')) :
    view db' = (view db).setRun runId status := by
  unfold advanceRunStatus at ok
  split at ok
  · cases ok
  · rename_i run found
    split_ifs at ok
    cases ok
    rw [view_runs, Table.key_of_find? found]

theorem advanceRunRevisionOnly_view (ok : advanceRunRevisionOnly db runId = .ok db') :
    view db' = view db := by
  unfold advanceRunRevisionOnly at ok
  split at ok
  · cases ok
  · rename_i run found
    cases ok
    rw [view_runs, Table.key_of_find? found]
    have same : (view db).runs runId = some run.status := by simp [view, found]
    simp only [Bridge.setRun, ← same, Function.update_eq_self]

theorem storeStage_ok {stage : NativeStage} (ok : storeStage db stage = .ok db') :
    (stage.waitingSince.isSome = true ↔ stage.state = .waitingForParent) ∧
      db' = { db with stages := db.stages.upsert stage } := by
  unfold storeStage at ok
  split at ok
  · rename_i checked
    cases ok
    exact ⟨by rw [← checked, decide_eq_true_iff], rfl⟩
  · cases ok

theorem updateStage_view (change' : StageView → StageView) {change : NativeStage → NativeStage}
    (ok : updateStage db runId change = .ok db')
    (keeps : ∀ stage, (change stage).runId = stage.runId)
    (same : ∀ stage, stageView (change stage) = change' (stageView stage)) :
    view db' = (view db).mapStage runId change' ∧ ∀ stage, (view db).stages runId = some stage →
      ((change' stage).waits = true ↔ (change' stage).state = .waitingForParent) := by
  unfold updateStage at ok
  split at ok
  · rename_i missing
    cases ok
    have absent : (view db).stages runId = none := by simp [view, missing]
    refine ⟨(mapStage_of_none absent).symm, ?_⟩
    intro stage listed
    simp [absent] at listed
  · rename_i stage found
    have listed : (view db).stages runId = some (stageView stage) := by simp [view, found]
    obtain ⟨checked, same'⟩ := storeStage_ok ok
    cases same'
    have written : stageView { change stage with revision := stage.revision + 1 } =
        change' (stageView stage) := same stage
    constructor
    · rw [view_stages, written]
      simp only [Bridge.mapStage, listed, Option.map_some, keeps, Table.key_of_find? found]
    · intro stage' listed'
      cases listed.symm.trans listed'
      rw [← written]
      exact checked

theorem updateAttempt_view {attemptId : Nat} {change : NativeStageAttempt → NativeStageAttempt}
    (keeps : ∀ attempt, (change attempt).attemptId = attempt.attemptId)
    (same : ∀ attempt, attemptView (change attempt) = attemptView attempt) :
    view (updateAttempt db attemptId change) = view db := by
  unfold updateAttempt
  split
  · rfl
  · rename_i attempt found
    rw [view_attempts, keeps, same, Table.key_of_find? found]
    have listed : (view db).attempts attemptId = some (attemptView attempt) := by
      simp [view, found]
    rw [← listed, Function.update_eq_self]

variable (db) in
theorem view_dispatch (next : NativeDispatch) (change : DispatchView → DispatchView)
    {dispatchId : Nat} (found : db.dispatches.find? dispatchId = some current)
    (keeps : next.dispatchId = current.dispatchId)
    (same : dispatchView next = change (dispatchView current)) :
    view { db with dispatches := db.dispatches.upsert next } =
      (view db).mapDispatch dispatchId change := by
  rw [view_dispatches, keeps, Table.key_of_find? found, same]
  have listed : (view db).dispatches dispatchId = some (dispatchView current) := by
    simp [view, found]
  simp [Bridge.mapDispatch, listed]

theorem firstQuestion_upsert (current : NativeQuestion) {next : NativeQuestion}
    (found : db.questions.find? (next.runId, next.interactionId) = some current)
    (same : next.dispatchId = current.dispatchId) (d : Nat) :
    (firstQuestion { db with questions := db.questions.upsert next } d).map
      NativeQuestion.interactionId = (firstQuestion db d).map NativeQuestion.interactionId := by
  have key := Table.key_of_find? found
  obtain ⟨left, right, before, after⟩ := Table.rows_upsert_of_mem (Table.mem_of_find? found)
    (a := next) key
  have equal : current.interactionId = next.interactionId := congrArg Prod.snd key
  simp only [firstQuestion, before, after, List.find?_append, List.find?_cons, same]
  cases left.find? fun question => decide (question.dispatchId = d) with
  | some question => rfl
  | none =>
    by_cases own : current.dispatchId = d
    · simp [own, equal]
    · simp [own]

variable (db) in
theorem view_question (next : NativeQuestion) (change : QuestionView → QuestionView)
    {k : String × String} {current : NativeQuestion} (found : db.questions.find? k = some current)
    (run : next.runId = current.runId) (interaction : next.interactionId = current.interactionId)
    (dispatch : next.dispatchId = current.dispatchId)
    (same : questionView next = change (questionView current)) :
    view { db with questions := db.questions.upsert next } = (view db).mapQuestion k change := by
  have key := Table.key_of_find? found
  rw [← run, ← interaction] at key
  have listed : (view db).questions k = some (questionView current) := by simp [view, found]
  have first : (fun d => (firstQuestion { db with questions := db.questions.upsert next } d).map
      NativeQuestion.interactionId) =
        fun d => (firstQuestion db d).map NativeQuestion.interactionId := by
    funext d
    apply firstQuestion_upsert current _ dispatch
    rw [key, found]
  simp only [Bridge.mapQuestion, listed, Option.map_some, ← same]
  simp only [view, first, lookup_upsert, key]

theorem cancelNativeQuestion_view {interactionId : String} {reason : CancellationReason}
    (ok : cancelNativeQuestion db runId interactionId reason now = .ok db') :
    view db' = (view db).mapQuestion (runId, interactionId) QuestionView.cancelled := by
  unfold cancelNativeQuestion at ok
  split at ok
  · rename_i missing
    cases ok
    have absent : (view db).questions (runId, interactionId) = none := by simp [view, missing]
    exact (mapQuestion_of_none absent).symm
  · rename_i question found
    have listed : (view db).questions (runId, interactionId) = some (questionView question) := by
      simp [view, found]
    split_ifs at ok with closed
    · cases ok
      have fixed : (questionView question).cancelled = questionView question := if_neg closed
      exact (mapQuestion_of_fixed listed fixed).symm
    · obtain ⟨db₁, advanced, stored⟩ := bind_eq_ok.mp ok
      cases stored
      have questions : db₁.questions = db.questions := by
        unfold advanceRunRevisionOnly at advanced
        split at advanced
        · cases advanced
        · cases advanced
          rfl
      have kept := advanceRunRevisionOnly_view advanced
      rw [view_appendEvent] at kept
      rw [← kept]
      have pending : (questionView question).state = .pending := not_not.mp closed
      have kept' : db₁.questions.find? (runId, interactionId) = some question := by
        rw [questions, found]
      refine view_question _ _ _ kept' rfl rfl rfl ?_
      rw [QuestionView.cancelled, if_pos pending]
      rfl

theorem recoverStage_view (ok : recoverStage db runId = .ok db') :
    view db' = (view db).recovered runId := by
  unfold recoverStage at ok
  split at ok
  · rename_i missing
    cases ok
    have absent : (view db).stages runId = none := by simp [view, missing]
    simp [Bridge.recovered, absent]
  · rename_i stage found
    have listed : (view db).stages runId = some (stageView stage) := by simp [view, found]
    split_ifs at ok with engaged
    · obtain ⟨db₁, stored, ok⟩ := bind_eq_ok.mp ok
      obtain ⟨⟨revision, db₂⟩, advanced, ok⟩ := bind_eq_ok.mp ok
      cases ok
      rw [advanceRunStatus_view advanced]
      obtain ⟨_, same⟩ := storeStage_ok stored
      cases same
      rw [view_stages]
      have engaged' : (stageView stage).state.engaged = true := engaged
      simp only [Bridge.recovered, listed, Option.any_some, engaged', Bridge.enter,
        Bridge.mapStage, Table.key_of_find? found]
      rfl
    · cases ok
      have engaged' : (stageView stage).state.engaged = false := eq_false_of_ne_true engaged
      simp [Bridge.recovered, listed, engaged']

theorem recoverAttempt_keeps (attempt : NativeStageAttempt) :
    (recoverAttempt attempt).attemptId = attempt.attemptId ∧
      attemptView (recoverAttempt attempt) = attemptView attempt := by
  unfold recoverAttempt
  split_ifs <;> exact ⟨rfl, rfl⟩

theorem updateAttempt_questions (attemptId : Nat)
    (change : NativeStageAttempt → NativeStageAttempt) :
    (updateAttempt db attemptId change).questions = db.questions := by
  unfold updateAttempt
  split <;> rfl

theorem abandonDispatchAndRecover_view {terminalReason : String}
    (found : db.dispatches.find? dispatch.dispatchId = some current)
    (isOpen : current.state.isOpen = true)
    (ok : abandonDispatchAndRecover terminalReason reasonCode now db dispatch = .ok db') :
    view db' = (view db).abandoned dispatch.dispatchId dispatch.runId := by
  unfold abandonDispatchAndRecover at ok
  simp only [found, isOpen, if_true] at ok
  have closed : view (updateAttempt { db with
      dispatches := db.dispatches.upsert (closedDispatch current .abandoned terminalReason now) }
        dispatch.attemptId recoverAttempt) =
      (view db).mapDispatch dispatch.dispatchId (DispatchView.entered .abandoned) := by
    rw [updateAttempt_view (fun attempt => (recoverAttempt_keeps attempt).1)
      fun attempt => (recoverAttempt_keeps attempt).2]
    exact view_dispatch _ _ _ found rfl rfl
  have first : (view db).first dispatch.dispatchId =
      (firstQuestion (updateAttempt { db with
        dispatches := db.dispatches.upsert (closedDispatch current .abandoned terminalReason now) }
          dispatch.attemptId recoverAttempt) dispatch.dispatchId).map
        NativeQuestion.interactionId := by
    rw [firstQuestion, updateAttempt_questions]
    rfl
  unfold Bridge.abandoned
  rw [first]
  split at ok
  · rename_i none
    rw [recoverStage_view ok, view_appendEvent, closed, none]
    rfl
  · rename_i question listed
    obtain ⟨db₁, cancelled, recovered⟩ := bind_eq_ok.mp ok
    rw [recoverStage_view recovered, view_appendEvent, cancelNativeQuestion_view cancelled, closed,
      listed]
    rfl

theorem advanceRunStatus_tables {status : RunStatus} {expected : Option Nat} {revision : Nat}
    (ok : advanceRunStatus db runId status expected = .ok (revision, db')) :
    ∃ runs, db' = { db with runs := runs } := by
  unfold advanceRunStatus at ok
  split at ok
  · cases ok
  · split_ifs at ok
    cases ok
    exact ⟨_, rfl⟩

theorem advanceRunRevisionOnly_tables (ok : advanceRunRevisionOnly db runId = .ok db') :
    ∃ runs, db' = { db with runs := runs } := by
  unfold advanceRunRevisionOnly at ok
  split at ok
  · cases ok
  · cases ok
    exact ⟨_, rfl⟩

theorem cancelNativeQuestion_tables {interactionId : String} {reason : CancellationReason}
    (ok : cancelNativeQuestion db runId interactionId reason now = .ok db') :
    db'.dispatches = db.dispatches ∧ db'.sessions = db.sessions := by
  unfold cancelNativeQuestion at ok
  split at ok
  · cases ok
    exact ⟨rfl, rfl⟩
  · split_ifs at ok
    · cases ok
      exact ⟨rfl, rfl⟩
    · obtain ⟨db₁, advanced, stored⟩ := bind_eq_ok.mp ok
      obtain ⟨runs, same⟩ := advanceRunRevisionOnly_tables advanced
      cases stored
      rw [same]
      exact ⟨rfl, rfl⟩

theorem recoverStage_tables (ok : recoverStage db runId = .ok db') :
    db'.dispatches = db.dispatches ∧ db'.sessions = db.sessions := by
  unfold recoverStage at ok
  split at ok
  · cases ok
    exact ⟨rfl, rfl⟩
  · split_ifs at ok
    · obtain ⟨db₁, stored, ok⟩ := bind_eq_ok.mp ok
      obtain ⟨⟨revision, db₂⟩, advanced, ok⟩ := bind_eq_ok.mp ok
      obtain ⟨_, same⟩ := storeStage_ok stored
      obtain ⟨runs, same'⟩ := advanceRunStatus_tables advanced
      cases ok
      rw [same', same]
      exact ⟨rfl, rfl⟩
    · cases ok
      exact ⟨rfl, rfl⟩

variable (db) in
theorem updateAttempt_tables (attemptId : Nat)
    (change : NativeStageAttempt → NativeStageAttempt) :
    (updateAttempt db attemptId change).dispatches = db.dispatches ∧
      (updateAttempt db attemptId change).sessions = db.sessions := by
  unfold updateAttempt
  split <;> exact ⟨rfl, rfl⟩

theorem abandonDispatchAndRecover_tables {terminalReason : String}
    (found : db.dispatches.find? dispatch.dispatchId = some current)
    (isOpen : current.state.isOpen = true)
    (ok : abandonDispatchAndRecover terminalReason reasonCode now db dispatch = .ok db') :
    db'.dispatches =
        db.dispatches.upsert (closedDispatch current .abandoned terminalReason now) ∧
      db'.sessions = db.sessions := by
  unfold abandonDispatchAndRecover at ok
  simp only [found, isOpen, if_true] at ok
  have updated := updateAttempt_tables { db with
    dispatches := db.dispatches.upsert (closedDispatch current .abandoned terminalReason now) }
    dispatch.attemptId recoverAttempt
  split at ok
  · have recovered := recoverStage_tables ok
    exact ⟨recovered.1.trans updated.1, recovered.2.trans updated.2⟩
  · obtain ⟨db₁, cancelled, ok⟩ := bind_eq_ok.mp ok
    have recovered := recoverStage_tables ok
    have kept := cancelNativeQuestion_tables cancelled
    exact ⟨recovered.1.trans (kept.1.trans updated.1), recovered.2.trans (kept.2.trans updated.2)⟩

def OpenKept (db db' : NativeDatabase) : Prop :=
  ∀ {d dispatch}, db'.dispatches.find? d = some dispatch → dispatch.state.isOpen = true →
    db.dispatches.find? d = some dispatch

theorem abandonDispatchAndRecover_ok {terminalReason : String}
    (listed : dispatch ∈ db₀.dispatches.rows) (kept : OpenKept db₀ db)
    (ok : abandonDispatchAndRecover terminalReason reasonCode now db dispatch = .ok db') :
    (view db' = view db ∨ Acts (view db) (.abandon dispatch.dispatchId) (view db')) ∧
      OpenKept db₀ db' ∧ db'.sessions = db.sessions := by
  cases found : db.dispatches.find? dispatch.dispatchId with
  | none =>
    simp only [abandonDispatchAndRecover, found] at ok
    cases ok
    exact ⟨.inl rfl, kept, rfl⟩
  | some current =>
    by_cases isOpen : current.state.isOpen = true
    · have tables := abandonDispatchAndRecover_tables found isOpen ok
      have same : current = dispatch :=
        Option.some.inj ((kept found isOpen).symm.trans (Table.find?_key listed))
      refine ⟨.inr ?_, ?_, tables.2⟩
      · rw [abandonDispatchAndRecover_view found isOpen ok]
        have seen : (view db).dispatches dispatch.dispatchId = some (dispatchView dispatch) := by
          simp [view, found, same]
        exact Acts.abandon seen (same ▸ isOpen)
      · intro d other found' isOpen'
        rw [tables.1, Table.find?_upsert] at found'
        split_ifs at found'
        · cases found'
          cases isOpen'
        · exact kept found' isOpen'
    · simp only [abandonDispatchAndRecover, found, isOpen, Bool.false_eq_true] at ok
      cases ok
      exact ⟨.inl rfl, kept, rfl⟩

/-- A session that a sweep ends. -/
def expiring (now : Int) (witnessOf : WitnessClassifier) (session : ParentSession) : Bool :=
  session.live && decide (session.expiresAt ≤ now) &&
    decide (witnessOf session.bootWitness session.processWitness ≠ .alive)

def due (db : NativeDatabase) (codebaseId : Option String) (now : Int)
    (witnessOf : WitnessClassifier) (dispatch : NativeDispatch) : Bool :=
  dispatch.state.isOpen && (db.sessions.find? dispatch.sessionId).any fun session =>
    inScope codebaseId session && (!session.live || expiring now witnessOf session)

def Sweeps (db : NativeDatabase) (codebaseId : Option String) (now : Int)
    (witnessOf : WitnessClassifier) (action : Action) : Prop :=
  ∃ dispatch ∈ db.dispatches.rows, due db codebaseId now witnessOf dispatch = true ∧
    action = .abandon dispatch.dispatchId

/-- A session is ended only when it is due. -/
def SessionsKept (now : Int) (witnessOf : WitnessClassifier) (db db' : NativeDatabase) : Prop :=
  ∀ {id session'}, db'.sessions.find? id = some session' → ∃ session,
    db.sessions.find? id = some session ∧ session'.codebaseId = session.codebaseId ∧
      (session'.live = false → session.live = false ∨ expiring now witnessOf session = true)

structure Swept (codebaseId : Option String) (now : Int) (witnessOf : WitnessClassifier)
    (db db' : NativeDatabase) : Prop where
  course : Course (Sweeps db codebaseId now witnessOf) (view db) (view db')
  dispatches : OpenKept db db'
  sessions : SessionsKept now witnessOf db db'

variable {codebaseId : Option String} {witnessOf : WitnessClassifier}

theorem Swept.refl (db : NativeDatabase) : Swept codebaseId now witnessOf db db :=
  ⟨Course.of_eq rfl, fun found _ => found, fun found => ⟨_, found, rfl, .inl⟩⟩

theorem Swept.abandon {terminalReason : String} (swept : Swept codebaseId now witnessOf db₀ db)
    (listed : dispatch ∈ db₀.dispatches.rows)
    (isDue : due db₀ codebaseId now witnessOf dispatch = true)
    (ok : abandonDispatchAndRecover terminalReason reasonCode now db dispatch = .ok db') :
    Swept codebaseId now witnessOf db₀ db' := by
  obtain ⟨acts, dispatches, sessions⟩ := abandonDispatchAndRecover_ok listed swept.dispatches ok
  refine ⟨?_, dispatches, ?_⟩
  · cases acts with
    | inl same =>
      rw [same]
      exact swept.course
    | inr acts => exact swept.course.tail ⟨_, ⟨dispatch, listed, isDue, rfl⟩, acts⟩
  · intro id session found
    rw [sessions] at found
    exact swept.sessions found

theorem Swept.session {session session' : ParentSession}
    (swept : Swept codebaseId now witnessOf db₀ db) (listed : session ∈ db₀.sessions.rows)
    (id : session'.sessionId = session.sessionId)
    (codebase : session'.codebaseId = session.codebaseId)
    (ended : session'.live = false → session.live = false ∨ expiring now witnessOf session = true) :
    Swept codebaseId now witnessOf db₀
      { db with sessions := db.sessions.upsert session' } := by
  refine ⟨swept.course, swept.dispatches, ?_⟩
  intro other session'' found
  rw [Table.find?_upsert] at found
  split_ifs at found with same
  · cases found
    rw [same, id]
    exact ⟨session, Table.find?_key listed, codebase, ended⟩
  · exact swept.sessions found

theorem expireSession_swept {session : ParentSession}
    (swept : Swept codebaseId now witnessOf db₀ db)
    (listed : session ∈ expiredSessions db₀ codebaseId now)
    (ok : expireSession now witnessOf db session = .ok db') :
    Swept codebaseId now witnessOf db₀ db' := by
  simp only [expiredSessions, List.mem_filter, Bool.and_eq_true] at listed
  unfold expireSession at ok
  split at ok
  · split_ifs at ok
    · cases ok
      refine swept.session listed.1 rfl rfl ?_
      intro ended
      cases ended
    · cases ok
      exact swept
  · rename_i verdict
    have ends : expiring now witnessOf session = true := by
      simp only [expiring, listed.2.1.2, listed.2.2]
      exact decide_eq_true verdict
    have released : Swept codebaseId now witnessOf db₀ { db with
        sessions := db.sessions.upsert (releasedSession session .expired now) } :=
      swept.session listed.1 rfl rfl fun _ => .inr ends
    apply foldlM_invariant _ released ok
    intro dispatch member db₁ db₂ swept₁ abandoned
    obtain ⟨row, own⟩ := List.mem_filter.mp member
    rw [Bool.and_eq_true, decide_eq_true_iff] at own
    have before := swept.dispatches (Table.find?_key row) own.2
    apply swept₁.abandon (Table.mem_of_find? before) _ abandoned
    rw [due, own.1, Table.find?_key listed.1]
    simp [own.2, listed.2.1.1, ends]

theorem reapExpirations_swept (ok : reapExpirations db codebaseId now witnessOf = .ok db') :
    Swept codebaseId now witnessOf db db' := by
  obtain ⟨db₁, expired, ok⟩ := bind_eq_ok.mp ok
  have swept : Swept codebaseId now witnessOf db db₁ := by
    apply foldlM_invariant _ (Swept.refl db) expired
    intro session listed _ _ swept
    exact expireSession_swept swept listed
  apply foldlM_invariant _ swept ok
  intro dispatch member _ _ swept₁ abandoned
  obtain ⟨row, orphan⟩ := List.mem_filter.mp member
  rw [Bool.and_eq_true] at orphan
  have before := swept.dispatches (Table.find?_key row) orphan.1
  apply swept₁.abandon (Table.mem_of_find? before) _ abandoned
  obtain ⟨session', found', gone⟩ := (Option.any_eq_true _ _).mp orphan.2
  obtain ⟨session, found, codebase, ended⟩ := swept.sessions found'
  rw [Bool.and_eq_true, Bool.not_eq_true'] at gone
  rw [inScope, codebase] at gone
  rw [due, found, orphan.1]
  simp only [Option.any_some, inScope, gone.1]
  cases ended gone.2 with
  | inl released => simp [released]
  | inr ends => simp [ends]

end Heniek.NativeBridge
