import Heniek.NativeSweep

/-!
The fence of the native bridge. A request that names no live session at its revision, or a
dispatch that is not that session's at the revision it expects, is rejected and leaves what
the sweep before it has left. What a request names of another session it might as well
have made up. An attachment that gives a previous session which its codebase does not have
is not rejected: the revision of the missing row is read first.
-/

namespace Heniek.NativeFencing
open NativeBridge KeyedTable FallibleRun NativeCancellation

inductive Request where
  | attach (input : AttachInput) (previousSessionId : Nat)
  | detach (input : DetachInput)
  | poll (input : PollInput)
  | question (input : RaiseInput)
  | settle (input : SettleInput)

inductive Answer where
  | attached (result : NativeResult (Reply Attachment × NativeDatabase))
  | detached (result : NativeResult (Reply (List (Nat × Disposition)) × NativeDatabase))
  | polled (result : NativeResult (Reply PollResult × NativeDatabase))
  | raised (result : NativeResult (Reply RaisedQuestion × NativeDatabase))
  | settled (result : NativeResult (Reply Settlement × NativeDatabase))

def resuming (input : AttachInput) (previousSessionId : Nat) : AttachInput :=
  { input with previousSessionId := some previousSessionId }

def answer (db : NativeDatabase) (now : Int) : Request → Answer
  | .attach input previous => .attached (attachParentSession db now (resuming input previous))
  | .detach input => .detached (detachParentSession db now input)
  | .poll input => .polled (pollNativeBridge db now input)
  | .question input => .raised (raiseNativeQuestion db now input)
  | .settle input => .settled (settleNativeDispatch db now input)

def Answer.Rejects (code : RejectionCode) (db : NativeDatabase) : Answer → Prop
  | .attached result => result = .ok (.rejected code, db)
  | .detached result => result = .ok (.rejected code, db)
  | .polled result => result = .ok (.rejected code, db)
  | .raised result => result = .ok (.rejected code, db)
  | .settled result => result = .ok (.rejected code, db)

def sweep (db : NativeDatabase) (now : Int) : Request → NativeResult NativeDatabase
  | .attach input _ => reapExpirations db (some input.codebaseId) now input.witnessOf
  | .detach input => sweepSession db input.sessionId now input.witnessOf
  | .poll input => reapExpirations db (some input.codebaseId) now input.witnessOf
  | .question input => sweepSession db input.fence.sessionId now input.witnessOf
  | .settle input => sweepSession db input.fence.sessionId now input.witnessOf

def Current (db : NativeDatabase) (sessionId sessionRevision : Nat) : Prop :=
  ∃ session, db.sessions.find? sessionId = some session ∧ session.live = true ∧
    session.revision = sessionRevision

def OfCodebase (db : NativeDatabase) (sessionId : Nat) (codebaseId : String) : Prop :=
  (db.sessions.find? sessionId).map ParentSession.codebaseId = some codebaseId

def Owned (db : NativeDatabase) (fence : DispatchFence) (dispatch : NativeDispatch) : Prop :=
  db.dispatches.find? fence.dispatchId = some dispatch ∧ dispatch.sessionId = fence.sessionId ∧
    dispatch.runId = fence.runId ∧ dispatch.stageId = fence.stageId ∧
      dispatch.attemptId = fence.attemptId

def Admitted (db : NativeDatabase) : Request → Prop
  | .attach input previous => OfCodebase db previous input.codebaseId ∧
      ∃ revision, input.previousSessionRevision = some revision ∧ Current db previous revision
  | .detach input => Current db input.sessionId input.sessionRevision
  | .poll input => OfCodebase db input.sessionId input.codebaseId ∧
      Current db input.sessionId input.sessionRevision
  | .question input => Current db input.fence.sessionId input.fence.sessionRevision ∧
      ∃ dispatch, Owned db input.fence dispatch ∧
        dispatch.revision = input.fence.expectedDispatchRevision
  | .settle input => Current db input.fence.sessionId input.fence.sessionRevision ∧
      ∃ dispatch, Owned db input.fence dispatch ∧
        (dispatch.revision = input.fence.expectedDispatchRevision ∨
          dispatch.state = .submitted ∧ dispatch.submissionId = some input.submissionId ∧
            dispatch.submissionDigest = some input.submissionDigest)

/-- What is not admitted is rejected, and only the sweep is kept. -/
def Fences (db : NativeDatabase) (now : Int) (request : Request) : Prop :=
  ∃ swept, sweep db now request = .ok swept ∧
    (¬ Admitted swept request → ∃ code, (answer db now request).Rejects code swept)

def Request.session : Request → Nat
  | .attach _ previous => previous
  | .detach input => input.sessionId
  | .poll input => input.sessionId
  | .question input => input.fence.sessionId
  | .settle input => input.fence.sessionId

/-- The request with other dispatches in the place of those it names. -/
def Request.renamed (ρ : Nat → Nat) : Request → Request
  | .attach input previous =>
    .attach { input with resumeDispatchIds := input.resumeDispatchIds.map ρ } previous
  | .detach input =>
    .detach { input with dispatches := input.dispatches.map fun entry => (ρ entry.1, entry.2) }
  | .poll input => .poll input
  | .question input =>
    .question { input with fence := { input.fence with dispatchId := ρ input.fence.dispatchId } }
  | .settle input =>
    .settle { input with fence := { input.fence with dispatchId := ρ input.fence.dispatchId } }

def Hidden (db : NativeDatabase) (sessionId d : Nat) : Prop :=
  ∀ dispatch, db.dispatches.find? d = some dispatch → dispatch.sessionId ≠ sessionId

def Hides (db : NativeDatabase) (sessionId : Nat) (ρ : Nat → Nat) : Prop :=
  ∀ d, ρ d = d ∨ Hidden db sessionId d ∧ Hidden db sessionId (ρ d)

def Veils (db : NativeDatabase) (now : Int) (request : Request) : Prop :=
  ∀ ρ, Hides db request.session ρ → answer db now (request.renamed ρ) = answer db now request

/-- The previous session of an attachment is one of its codebase. -/
def Known (db : NativeDatabase) : Request → Prop
  | .attach input previous => OfCodebase db previous input.codebaseId
  | _ => True

variable {db db' : NativeDatabase} {now : Int} {request : Request}
variable {codebaseId : Option String} {witnessOf : WitnessClassifier}

theorem reapExpirations_codebases (ok : reapExpirations db codebaseId now witnessOf = .ok db')
    (sessionId : Nat) : (db'.sessions.find? sessionId).map ParentSession.codebaseId =
      (db.sessions.find? sessionId).map ParentSession.codebaseId := by
  apply reapExpirations_keeps (P := fun db' => (db'.sessions.find? sessionId).map
    ParentSession.codebaseId =
      (db.sessions.find? sessionId).map ParentSession.codebaseId) _ _ rfl ok
  · intro db₁ session session' same listed id codebase
    rw [Table.find?_upsert]
    split_ifs with equal
    · have row := Table.find?_key (List.mem_filter.mp listed).1
      rw [equal, id, row, Option.map_some, Option.map_some, codebase]
    · exact same
  · intro db₁ db₂ terminalReason reasonCode dispatch same abandoned
    rw [(abandonDispatchAndRecover_rows abandoned).1]
    exact same

theorem closed_owners {e : Nat} {current : NativeDispatch}
    (found : db.dispatches.find? e = some current) (state : DispatchState) (reason : String)
    (now : Int) (d : Nat) :
    ((db.dispatches.upsert (closedDispatch current state reason now)).find? d).map
      NativeDispatch.sessionId = (db.dispatches.find? d).map NativeDispatch.sessionId := by
  have own := Table.key_of_find? found
  have key : (closedDispatch current state reason now).dispatchId = e := own
  rw [Table.find?_upsert]
  split_ifs with equal
  · rw [equal, key, found]
    rfl
  · rfl

theorem abandonDispatchAndRecover_owners {terminalReason reasonCode : String}
    {dispatch : NativeDispatch}
    (ok : abandonDispatchAndRecover terminalReason reasonCode now db dispatch = .ok db') (d : Nat) :
    (db'.dispatches.find? d).map NativeDispatch.sessionId =
      (db.dispatches.find? d).map NativeDispatch.sessionId := by
  cases (abandonDispatchAndRecover_rows ok).2 with
  | inl kept => rw [kept]
  | inr closed =>
    obtain ⟨current, found, _, written⟩ := closed
    rw [written]
    exact closed_owners found _ _ now d

theorem reapExpirations_owners (ok : reapExpirations db codebaseId now witnessOf = .ok db')
    (d : Nat) : (db'.dispatches.find? d).map NativeDispatch.sessionId =
      (db.dispatches.find? d).map NativeDispatch.sessionId := by
  apply reapExpirations_keeps (P := fun db' => (db'.dispatches.find? d).map
    NativeDispatch.sessionId = (db.dispatches.find? d).map NativeDispatch.sessionId) _ _ rfl ok
  · intro db₁ session session' same _ _ _
    exact same
  · intro db₁ db₂ terminalReason reasonCode dispatch same abandoned
    rw [abandonDispatchAndRecover_owners abandoned d]
    exact same

variable {sessionId previous : Nat} {swept : NativeDatabase} {ρ : Nat → Nat}

theorem sweepSession_owners (ok : sweepSession db sessionId now witnessOf = .ok db') (d : Nat) :
    (db'.dispatches.find? d).map NativeDispatch.sessionId =
      (db.dispatches.find? d).map NativeDispatch.sessionId := by
  unfold sweepSession at ok
  split at ok
  · cases ok
    rfl
  · exact reapExpirations_owners ok d

theorem sweepSession_total (sessionId : Nat) (now : Int) (witnessOf : WitnessClassifier)
    (grounded : Grounded db) : ∃ db', sweepSession db sessionId now witnessOf = .ok db' := by
  unfold sweepSession
  split
  · exact ⟨db, rfl⟩
  · obtain ⟨db', ok, _⟩ := reapExpirations_total _ now witnessOf grounded
    exact ⟨db', ok⟩

theorem sweep_total (now : Int) (request : Request) (grounded : Grounded db) :
    ∃ swept, sweep db now request = .ok swept := by
  cases request with
  | attach input previous =>
    obtain ⟨db', ok, _⟩ :=
      reapExpirations_total (some input.codebaseId) now input.witnessOf grounded
    exact ⟨db', ok⟩
  | detach input => exact sweepSession_total _ now _ grounded
  | poll input =>
    obtain ⟨db', ok, _⟩ :=
      reapExpirations_total (some input.codebaseId) now input.witnessOf grounded
    exact ⟨db', ok⟩
  | question input => exact sweepSession_total _ now _ grounded
  | settle input => exact sweepSession_total _ now _ grounded

theorem currentSession_error {sessionRevision : Nat}
    (stale : ¬ Current db sessionId sessionRevision) :
    ∃ code, currentSession db sessionId sessionRevision = .error code := by
  unfold currentSession
  cases found : db.sessions.find? sessionId with
  | none => exact ⟨_, rfl⟩
  | some session =>
    by_cases live : session.live = true
    · have other : session.revision ≠ sessionRevision :=
        fun same => stale ⟨session, found, live, same⟩
      exact ⟨.staleSessionRevision, by simp [live, other]⟩
    · exact ⟨.sessionExpired, by simp [live]⟩

theorem currentSession_current {sessionRevision : Nat} {session : ParentSession}
    (ok : currentSession db sessionId sessionRevision = .ok session) :
    Current db sessionId sessionRevision := by
  by_contra stale
  obtain ⟨code, error⟩ := currentSession_error stale
  rw [error] at ok
  cases ok

theorem validateDispatchFence_owned {fence : DispatchFence} {allowSettled : Bool}
    {dispatch : NativeDispatch} (ok : validateDispatchFence db fence allowSettled = .ok dispatch) :
    Current db fence.sessionId fence.sessionRevision ∧ Owned db fence dispatch ∧
      (dispatch.revision = fence.expectedDispatchRevision ∨
        allowSettled = true ∧ dispatch.state = .submitted) := by
  unfold validateDispatchFence at ok
  split at ok
  · cases ok
  · rename_i session live
    have current := currentSession_current live
    split at ok
    · cases ok
    · rename_i row found
      split_ifs at ok with foreign revoked submitted allowed revision
      · cases ok
        simp only [not_or, not_not] at foreign
        exact ⟨current, ⟨found, foreign.1, foreign.2.1, foreign.2.2.1, foreign.2.2.2⟩,
          .inr ⟨allowed, submitted⟩⟩
      · cases ok
        simp only [not_or, not_not] at foreign
        exact ⟨current, ⟨found, foreign.1, foreign.2.1, foreign.2.2.1, foreign.2.2.2⟩,
          .inl revision⟩

theorem detach_fenced {input : DetachInput} (reaped : sweep db now (.detach input) = .ok swept)
    (stale : ¬ Admitted swept (.detach input)) :
    ∃ code, (answer db now (.detach input)).Rejects code swept := by
  obtain ⟨code, error⟩ := currentSession_error stale
  simp only [sweep, sweepSession, codebaseForSession] at reaped
  simp only [answer, Answer.Rejects, detachParentSession]
  cases found : db.sessions.find? input.sessionId with
  | none =>
    rw [found] at reaped
    cases reaped
    exact ⟨_, rfl⟩
  | some session =>
    simp only [found, Option.map_some] at reaped
    exact ⟨code, by simp only [reaped, bind, Except.bind, error]⟩

theorem poll_fenced {input : PollInput} (reaped : sweep db now (.poll input) = .ok swept)
    (stale : ¬ Admitted swept (.poll input)) :
    ∃ code, (answer db now (.poll input)).Rejects code swept := by
  have reaped' :
      reapExpirations db (some input.codebaseId) now input.witnessOf = .ok swept := reaped
  simp only [answer, Answer.Rejects, pollNativeBridge, reaped', bind, Except.bind]
  by_cases foreign : ((swept.sessions.find? input.sessionId).any fun session =>
      decide (session.codebaseId ≠ input.codebaseId)) = true
  · exact ⟨_, if_pos foreign⟩
  · have lapsed : ¬ Current swept input.sessionId input.sessionRevision := by
      intro current
      apply stale
      refine ⟨?_, current⟩
      obtain ⟨session, found, _⟩ := current
      rw [found, Option.any_some, decide_eq_true_iff, not_not] at foreign
      rw [OfCodebase, found, Option.map_some, foreign]
    obtain ⟨code, error⟩ := currentSession_error lapsed
    exact ⟨code, by rw [if_neg foreign, error]⟩

theorem question_fenced {input : RaiseInput} (reaped : sweep db now (.question input) = .ok swept)
    (stale : ¬ Admitted swept (.question input)) :
    ∃ code, (answer db now (.question input)).Rejects code swept := by
  have reaped' : sweepSession db input.fence.sessionId now input.witnessOf = .ok swept := reaped
  simp only [answer, raiseNativeQuestion, reaped', bind, Except.bind]
  cases fenced : validateDispatchFence swept input.fence false with
  | error code => exact ⟨code, rfl⟩
  | ok dispatch =>
    obtain ⟨current, owned, revision⟩ := validateDispatchFence_owned fenced
    cases revision with
    | inl revision => exact absurd ⟨current, dispatch, owned, revision⟩ stale
    | inr settled => cases settled.1

theorem settle_fenced {input : SettleInput} (reaped : sweep db now (.settle input) = .ok swept)
    (stale : ¬ Admitted swept (.settle input)) :
    ∃ code, (answer db now (.settle input)).Rejects code swept := by
  have reaped' : sweepSession db input.fence.sessionId now input.witnessOf = .ok swept := reaped
  simp only [answer, Answer.Rejects, settleNativeDispatch, reaped', bind, Except.bind]
  cases fenced : validateDispatchFence swept input.fence true with
  | error code => exact ⟨code, rfl⟩
  | ok dispatch =>
    obtain ⟨current, owned, revision⟩ := validateDispatchFence_owned fenced
    cases revision with
    | inl revision => exact absurd ⟨current, dispatch, owned, .inl revision⟩ stale
    | inr settled =>
      simp only [settled.2, replaySubmission]
      by_cases submission : dispatch.submissionId = some input.submissionId
      · by_cases digest : dispatch.submissionDigest = some input.submissionDigest
        · exact absurd ⟨current, dispatch, owned, .inr ⟨settled.2, submission, digest⟩⟩ stale
        · exact ⟨.idempotencyKeyReuse, by simp [submission, digest]⟩
      · exact ⟨.dispatchAlreadySettled, by simp [submission]⟩

theorem attach_fenced {input : AttachInput}
    (reaped : sweep db now (.attach input previous) = .ok swept)
    (known : OfCodebase swept previous input.codebaseId)
    (stale : ¬ Admitted swept (.attach input previous)) :
    ∃ code, (answer db now (.attach input previous)).Rejects code swept := by
  have reaped' :
      reapExpirations db (some input.codebaseId) now input.witnessOf = .ok swept := reaped
  obtain ⟨session, found, codebase⟩ := Option.map_eq_some_iff.mp known
  have other : ¬ (input.previousSessionRevision = some session.revision ∧ session.live = true) := by
    intro both
    exact stale ⟨known, session.revision, both.1, session, found, both.2, rfl⟩
  refine ⟨.staleSessionRevision, ?_⟩
  simp only [answer, Answer.Rejects, attachParentSession, resuming, reaped', bind, Except.bind,
    found, Option.filter_some, codebase, decide_true, if_true, other, if_false]

theorem attach_unknown {input : AttachInput}
    (reaped : sweep db now (.attach input previous) = .ok swept)
    (unknown : ¬ OfCodebase swept previous input.codebaseId) (code : RejectionCode) :
    ¬ (answer db now (.attach input previous)).Rejects code swept := by
  have reaped' :
      reapExpirations db (some input.codebaseId) now input.witnessOf = .ok swept := reaped
  simp only [answer, Answer.Rejects, attachParentSession, resuming, reaped', bind, Except.bind]
  cases found : swept.sessions.find? previous with
  | none => simp
  | some session =>
    have other : session.codebaseId ≠ input.codebaseId := by
      intro same
      exact unknown (by rw [OfCodebase, found, Option.map_some, same])
    simp only [Option.filter_some, other, decide_false, Bool.false_eq_true]
    intro impossible
    cases impossible

theorem hidden_iff {d : Nat} : Hidden db sessionId d ↔
    (db.dispatches.find? d).map NativeDispatch.sessionId ≠ some sessionId := by
  unfold Hidden
  cases db.dispatches.find? d with
  | none => simp
  | some dispatch => simp

theorem hides_of_owners
    (owners : ∀ d, (db'.dispatches.find? d).map NativeDispatch.sessionId =
      (db.dispatches.find? d).map NativeDispatch.sessionId)
    (hides : Hides db sessionId ρ) : Hides db' sessionId ρ := by
  intro d
  refine (hides d).imp id fun both => ⟨?_, ?_⟩
  · rw [hidden_iff, owners]
    exact hidden_iff.mp both.1
  · rw [hidden_iff, owners]
    exact hidden_iff.mp both.2

theorem validateDispatchFence_hidden {fence : DispatchFence} (allowSettled : Bool)
    (hidden : Hidden db fence.sessionId fence.dispatchId) :
    validateDispatchFence db fence allowSettled =
      (currentSession db fence.sessionId fence.sessionRevision).bind fun _ =>
        .error .unknownDispatch := by
  unfold validateDispatchFence
  cases currentSession db fence.sessionId fence.sessionRevision with
  | error code => rfl
  | ok session =>
    cases found : db.dispatches.find? fence.dispatchId with
    | none => rfl
    | some dispatch => exact if_pos (.inl (hidden dispatch found))

theorem validateDispatchFence_veiled (fence : DispatchFence) (allowSettled : Bool)
    (hides : Hides db fence.sessionId ρ) : ρ fence.dispatchId = fence.dispatchId ∨
      (∃ code, validateDispatchFence db fence allowSettled = .error code ∧
        validateDispatchFence db { fence with dispatchId := ρ fence.dispatchId } allowSettled =
          .error code) := by
  refine (hides fence.dispatchId).imp id fun both => ?_
  have veiled :
      Hidden db ({ fence with dispatchId := ρ fence.dispatchId } : DispatchFence).sessionId
      ({ fence with dispatchId := ρ fence.dispatchId } : DispatchFence).dispatchId := both.2
  rw [validateDispatchFence_hidden allowSettled both.1,
    validateDispatchFence_hidden allowSettled veiled]
  cases currentSession db fence.sessionId fence.sessionRevision with
  | error code => exact ⟨code, rfl, rfl⟩
  | ok session => exact ⟨_, rfl, rfl⟩

theorem question_veiled (now : Int) (input : RaiseInput) : Veils db now (.question input) := by
  intro ρ hides
  refine congrArg Answer.raised ?_
  simp only [raiseNativeQuestion]
  cases reaped : sweepSession db input.fence.sessionId now input.witnessOf with
  | error error => rfl
  | ok swept =>
    have hides' := hides_of_owners (sweepSession_owners reaped) hides
    cases validateDispatchFence_veiled input.fence false hides' with
    | inl same => simp only [same]
    | inr unknown =>
      obtain ⟨code, first, second⟩ := unknown
      simp only [bind, Except.bind, first, second]

theorem settle_veiled (now : Int) (input : SettleInput) : Veils db now (.settle input) := by
  intro ρ hides
  refine congrArg Answer.settled ?_
  simp only [settleNativeDispatch]
  cases reaped : sweepSession db input.fence.sessionId now input.witnessOf with
  | error error => rfl
  | ok swept =>
    have hides' := hides_of_owners (sweepSession_owners reaped) hides
    cases validateDispatchFence_veiled input.fence true hides' with
    | inl same => simp only [same]
    | inr unknown =>
      obtain ⟨code, first, second⟩ := unknown
      simp only [bind, Except.bind, first, second]

theorem detachEntry_hidden {entry : Nat × DetachOutcome}
    {progress : NativeDatabase × List (Nat × Disposition)}
    (hidden : Hidden progress.1 sessionId entry.1) :
    detachEntry now sessionId progress entry = .ok progress := by
  unfold detachEntry
  cases found : progress.1.dispatches.find? entry.1 with
  | none => rfl
  | some dispatch =>
    have other := hidden dispatch found
    simp only [Option.filter_some, other, decide_false, Bool.false_and, Bool.false_eq_true,
      if_false]

theorem detachEntry_owners {entry : Nat × DetachOutcome}
    {progress progress' : NativeDatabase × List (Nat × Disposition)}
    (ok : detachEntry now sessionId progress entry = .ok progress') (d : Nat) :
    (progress'.1.dispatches.find? d).map NativeDispatch.sessionId =
      (progress.1.dispatches.find? d).map NativeDispatch.sessionId := by
  unfold detachEntry at ok
  split at ok
  · cases ok
    rfl
  · rename_i dispatch filtered
    obtain ⟨found, _⟩ := Option.filter_eq_some_iff.mp filtered
    split_ifs at ok
    · obtain ⟨db₁, released, ok⟩ := bind_eq_ok.mp ok
      cases ok
      rw [releaseDispatch_tables released]
      exact closed_owners found _ _ now d
    · obtain ⟨db₁, abandoned, ok⟩ := bind_eq_ok.mp ok
      cases ok
      exact abandonDispatchAndRecover_owners abandoned d

theorem detachAll_veiled (now : Int) (entries : List (Nat × DetachOutcome))
    (progress : NativeDatabase × List (Nat × Disposition)) (hides : Hides progress.1 sessionId ρ) :
    (entries.map fun entry => (ρ entry.1, entry.2)).foldlM (detachEntry now sessionId) progress =
      entries.foldlM (detachEntry now sessionId) progress := by
  induction entries generalizing progress with
  | nil => rfl
  | cons entry entries ih =>
    have same : detachEntry now sessionId progress (ρ entry.1, entry.2) =
        detachEntry now sessionId progress entry := by
      cases hides entry.1 with
      | inl same => rw [same]
      | inr both => rw [detachEntry_hidden both.1, detachEntry_hidden both.2]
    rw [List.map_cons, List.foldlM_cons, List.foldlM_cons, same]
    cases stepped : detachEntry now sessionId progress entry with
    | error error => rfl
    | ok progress' => exact ih progress' (hides_of_owners (detachEntry_owners stepped) hides)

theorem detach_veiled (now : Int) (input : DetachInput) : Veils db now (.detach input) := by
  intro ρ hides
  refine congrArg Answer.detached ?_
  simp only [detachParentSession]
  cases db.sessions.find? input.sessionId with
  | none => rfl
  | some session =>
    simp only [bind, Except.bind]
    cases reaped : reapExpirations db (some session.codebaseId) now input.witnessOf with
    | error error => rfl
    | ok swept =>
      have hides' : Hides swept input.sessionId ρ :=
        hides_of_owners (reapExpirations_owners reaped) hides
      simp only
      cases currentSession swept input.sessionId input.sessionRevision with
      | error code => rfl
      | ok current => simp only [detachAll_veiled now input.dispatches (swept, []) hides']

theorem resumed_veiled (ids : List Nat) (hides : Hides db previous ρ) :
    ((openDispatches db previous).map NativeDispatch.dispatchId).filter
        (fun dispatchId => decide (dispatchId ∈ ids.map ρ)) =
      ((openDispatches db previous).map NativeDispatch.dispatchId).filter
        fun dispatchId => decide (dispatchId ∈ ids) := by
  apply List.filter_congr
  intro d listed
  obtain ⟨dispatch, member, same⟩ := List.mem_map.mp listed
  obtain ⟨row, own⟩ := List.mem_filter.mp member
  rw [Bool.and_eq_true, decide_eq_true_iff] at own
  have shown : ¬ Hidden db previous d := by
    intro hidden
    rw [← same] at hidden
    exact hidden dispatch (Table.find?_key row) own.1
  rw [decide_eq_decide, List.mem_map]
  constructor
  · intro renamed
    obtain ⟨e, asked, equal⟩ := renamed
    cases hides e with
    | inl fixed => exact equal ▸ fixed.symm ▸ asked
    | inr both => exact absurd (equal ▸ both.2) shown
  · intro asked
    cases hides d with
    | inl fixed => exact ⟨d, asked, fixed⟩
    | inr both => exact absurd both.1 shown

theorem attach_veiled (now : Int) (input : AttachInput) (previous : Nat) :
    Veils db now (.attach input previous) := by
  intro ρ hides
  refine congrArg Answer.attached ?_
  simp only [attachParentSession, resuming]
  cases reaped : reapExpirations db (some input.codebaseId) now input.witnessOf with
  | error error => rfl
  | ok swept =>
    have hides' := hides_of_owners (reapExpirations_owners reaped) hides
    simp only [bind, Except.bind]
    cases swept.sessions.find? previous with
    | none => rfl
    | some row =>
      by_cases own : row.codebaseId = input.codebaseId
      · have hides'' : Hides { swept with
            sessions := swept.sessions.upsert (releasedSession row .superseded now) } previous ρ :=
          hides'
        simp only [Option.filter_some, own, decide_true]
        have resumed := congrArg (attachSession { swept with
          sessions := swept.sessions.upsert (releasedSession row .superseded now) } now input
            (some previous)) (resumed_veiled input.resumeDispatchIds hides'')
        by_cases known : input.previousSessionRevision = some row.revision ∧ row.live = true
        · exact (if_pos known).trans (resumed.trans (if_pos known).symm)
        · exact (if_neg known).trans (if_neg known).symm
      · simp only [Option.filter_some, own, decide_false, Bool.false_eq_true, if_false]

theorem veils (db : NativeDatabase) (now : Int) (request : Request) : Veils db now request := by
  cases request with
  | attach input previous => exact attach_veiled now input previous
  | detach input => exact detach_veiled now input
  | poll input => exact fun _ _ => rfl
  | question input => exact question_veiled now input
  | settle input => exact settle_veiled now input

theorem known_swept (reaped : sweep db now request = .ok swept) :
    Known swept request ↔ Known db request := by
  cases request with
  | attach input previous =>
    change OfCodebase swept previous _ ↔ OfCodebase db previous _
    rw [OfCodebase, OfCodebase, reapExpirations_codebases reaped previous]
  | detach input => exact Iff.rfl
  | poll input => exact Iff.rfl
  | question input => exact Iff.rfl
  | settle input => exact Iff.rfl

/-- Every request is fenced but an attachment with a previous session that is not known. -/
theorem fenced_iff (reachable : ReachableWith (fun _ _ _ => True) db) :
    (Fences db now request ∧ Veils db now request) ↔ Known db request := by
  obtain ⟨swept, reaped⟩ := sweep_total now request (grounded_reachable reachable)
  constructor
  · intro both
    obtain ⟨⟨swept', reaped', rejects⟩, _⟩ := both
    cases reaped.symm.trans reaped'
    rw [← known_swept reaped]
    cases request with
    | attach input previous =>
      by_contra unknown
      obtain ⟨code, rejected⟩ := rejects fun admitted => unknown admitted.1
      exact attach_unknown reaped unknown code rejected
    | detach input => trivial
    | poll input => trivial
    | question input => trivial
    | settle input => trivial
  · intro known
    rw [← known_swept reaped] at known
    refine ⟨⟨swept, reaped, ?_⟩, veils db now request⟩
    intro stale
    cases request with
    | attach input previous => exact attach_fenced reaped known stale
    | detach input => exact detach_fenced reaped stale
    | poll input => exact poll_fenced reaped stale
    | question input => exact question_fenced reaped stale
    | settle input => exact settle_fenced reaped stale

def staleSubmission : SettleInput where
  fence := ⟨0, 1, 2, 1, "run", "stage", 1⟩
  submissionId := "submission"
  submissionDigest := "digest"
  outcome := .failed
  failure := none
  witnessOf := silent

/-- The submission of a session whose revision a poll has moved on. -/
theorem stale_submission_fenced :
    ¬ Admitted claimed (.settle staleSubmission) ∧
      Fences claimed 0 (.settle staleSubmission) ∧ Veils claimed 0 (.settle staleSubmission) := by
  refine ⟨?_, (fenced_iff claimed_reached).mpr trivial⟩
  intro admitted
  obtain ⟨⟨session, found, _, revision⟩, _⟩ := admitted
  have stored : (claimed.sessions.find? 0).map ParentSession.revision = some 2 := by decide
  have same : (claimed.sessions.find? 0).map ParentSession.revision = some 1 := by
    have listed : claimed.sessions.find? 0 = some session := found
    rw [listed, Option.map_some, revision]
    rfl
  cases stored.symm.trans same

def reconnect : Request := .attach ⟨"code", none, some 1, [], none, silent⟩ 7

theorem unknown_previous_session_throws : ReachableWith (fun _ _ _ => True) emptyBridge ∧
    ¬ Admitted emptyBridge reconnect ∧ ¬ Fences emptyBridge 0 reconnect := by
  have unknown : ¬ OfCodebase emptyBridge 7 "code" := by
    intro known
    cases known
  have reaped : sweep emptyBridge 0 reconnect = .ok emptyBridge := rfl
  refine ⟨.refl, fun admitted => unknown admitted.1, ?_⟩
  intro fences
  obtain ⟨swept, reaped', rejects⟩ := fences
  cases reaped.symm.trans reaped'
  obtain ⟨code, rejected⟩ := rejects fun admitted => unknown admitted.1
  exact attach_unknown reaped unknown code rejected

end Heniek.NativeFencing
