import Heniek.NativeBridgeServiceSteps

/-!
The live dispatch of a native run. Whatever the sessions do and however late workspaces
fail, a run has one open dispatch at most, that of the last of its attempts, as long as a
failure for an abandoned dispatch comes before the run is dispatched again.
-/

namespace Heniek.LiveDispatch
open KeyedTable NativeBridge BridgeModel

/-- A failure that comes after its dispatch was abandoned finds the run with no open dispatch. -/
def InOrder (w : ServiceWorld) (service : ServiceCall) : Prop :=
  ∀ claim dispatch, failedClaim w service = some claim →
    w.db.dispatches.find? claim.dispatchId = some dispatch → dispatch.state = .abandoned →
      ∀ other ∈ w.db.dispatches.rows, other.runId = claim.runId → other.state.isOpen = false

def idleRules : Rules := ⟨Idle, fun _ _ => True⟩

variable {w : ServiceWorld} {service : ServiceCall} {v v' : Bridge} {db : NativeDatabase}

theorem view_dispatches_of_mem {dispatch : NativeDispatch}
    (listed : dispatch ∈ db.dispatches.rows) :
    (view db).dispatches dispatch.dispatchId = some (dispatchView dispatch) := by
  simp [view, Table.find?_key listed]

theorem allowed_of_inOrder (inOrder : InOrder w service) : Allowed idleRules w service where
  late := by
    intro claim x failed found abandoned
    obtain ⟨dispatch, listed, same⟩ := Option.map_eq_some_iff.mp found
    rw [← same] at abandoned
    intro d y found' own
    obtain ⟨other, listed', same'⟩ := Option.map_eq_some_iff.mp found'
    rw [← same'] at own ⊢
    exact inOrder claim dispatch failed listed abandoned other (Table.mem_of_find? listed') own
  answers _ _ := trivial

theorem inOrder_exclusive (served : ServedWith InOrder w) : Exclusive (view w.db) ∧ Flights w :=
  served_exclusive idleRules (fun _ _ _ idle => idle)
    (fun _ inOrder => allowed_of_inOrder inOrder) served

theorem attempts_kept {action : Action} (acts : Acts v action v') (other : ¬ Claims action) :
    v'.attempts = v.attempts := by
  cases acts with
  | claim => exact absurd ⟨_, _, _, rfl⟩ other
  | abandon => exact abandoned_attempts _ _ _
  | _ => rfl

variable {r : String}

theorem waiting_before {action : Action} {stage' : StageView} (acts : Acts v action v')
    (kinds : (∃ d, action = .abandon d) ∨ Claims action) (found : v'.stages r = some stage')
    (waits : stage'.state = .waitingForParent) : v.stages r = some stage' := by
  cases kinds with
  | inl abandons =>
    obtain ⟨d, same⟩ := abandons
    rw [same] at acts
    cases acts with
    | abandon found' current =>
      rw [abandoned_stages] at found
      split_ifs at found with own
      · obtain ⟨stage, listed, entered⟩ := Option.map_eq_some_iff.mp found
        split_ifs at entered
        · rw [← entered] at waits
          cases waits
        · rw [← entered, listed]
      · exact found
  | inr claims =>
    obtain ⟨r', a, d, same⟩ := claims
    rw [same] at acts
    cases acts with
    | claim found' waits' newAttempt newDispatch =>
      rw [Bridge.claimed, enter_stages] at found
      split_ifs at found with own
      · obtain ⟨stage, listed, entered⟩ := Option.map_eq_some_iff.mp found
        rw [← entered] at waits
        cases waits
      · exact found

def Untouched (v : Bridge) (r : String) : Prop :=
  ∃ stage, v.stages r = some stage ∧ stage.state = .waitingForParent

theorem polled_attempts {law : Bridge → Action → Prop} {a n : Nat}
    (kinds : ∀ v action, law v action → (∃ d, action = .abandon d) ∨ Claims action)
    (course : Guided law v v') (new : v.attempts a = none) (found : v'.attempts a = some (r, n)) :
    Untouched v r := by
  have both : (∀ r, Untouched v' r → Untouched v r) ∧
      ∀ r n, v'.attempts a = some (r, n) → Untouched v r := by
    clear found
    induction course with
    | refl =>
      refine ⟨fun _ waits => waits, ?_⟩
      intro r n found
      rw [new] at found
      cases found
    | tail _ last ih =>
      obtain ⟨action, lawful, acts⟩ := last
      have kind := kinds _ action lawful
      refine ⟨?_, ?_⟩
      · intro r waits
        obtain ⟨stage, listed, waiting⟩ := waits
        exact ih.1 r ⟨stage, waiting_before acts kind listed waiting, waiting⟩
      · intro r n found
        by_cases claims : Claims action
        · obtain ⟨r', a', d, same⟩ := claims
          rw [same] at acts
          cases acts with
          | claim found' waits newAttempt newDispatch =>
            by_cases own : a = a'
            · simp only [Bridge.claimed, Bridge.enter, Bridge.setRun, Bridge.mapStage, own,
                Function.update_self, Option.some.injEq, Prod.mk.injEq] at found
              rw [← found.1]
              exact ih.1 _ ⟨_, found', waits⟩
            · simp only [Bridge.claimed, Bridge.enter, Bridge.setRun, Bridge.mapStage,
                Function.update_of_ne own] at found
              exact ih.2 r n found
        · rw [attempts_kept acts claims] at found
          exact ih.2 r n found
  exact both.2 r n found

theorem untouched_idle (inv : Exclusive v) (waits : Untouched v r) : Idle v r := by
  intro d x found own
  by_contra current
  obtain ⟨stage, listed, engaged, _⟩ := inv.engaged found (by simpa using current)
  obtain ⟨stage', listed', waiting⟩ := waits
  rw [own, listed'] at listed
  cases listed
  rw [waiting] at engaged
  cases engaged

theorem claimed_idle {law : Bridge → Action → Prop} {a n : Nat} (inv : Exclusive v)
    (course : Guided law v v') (lawful : ∀ v action, law v action → Belongs service action)
    (new : v.attempts a = none) (found : v'.attempts a = some (r, n)) : Idle v r := by
  by_cases polls : ∃ input, service = .poll input
  · obtain ⟨input, same⟩ := polls
    rw [same] at lawful
    exact untouched_idle inv (polled_attempts lawful course new found)
  · have still : v'.attempts = v.attempts := by
      clear found new
      induction course with
      | refl => rfl
      | tail _ last ih =>
        obtain ⟨action, allowed, acts⟩ := last
        rw [attempts_kept acts, ih]
        intro claims
        obtain ⟨r', a', d, same⟩ := claims
        have belongs := lawful _ action allowed
        rw [same] at belongs
        cases service with
        | poll input => exact polls ⟨input, rfl⟩
        | resume => cases belongs
        | cancel => cases belongs
        | _ => exact belongs.1 ⟨_, _, _, rfl⟩
    rw [still, new] at found
    cases found

/-- One live dispatch of a run, that of its current attempt, and no attempt beside it. -/
theorem one_live_dispatch (served : ServedWith InOrder w) :
    (∀ dispatch ∈ w.db.dispatches.rows, dispatch.state.isOpen = true →
      (∀ other ∈ w.db.dispatches.rows, other.state.isOpen = true →
        other.runId = dispatch.runId → other = dispatch) ∧
      ∃ stage attempt, w.db.stages.find? dispatch.runId = some stage ∧
        stage.currentAttemptId = some dispatch.attemptId ∧
        w.db.attempts.find? dispatch.attemptId = some attempt ∧ attempt.runId = dispatch.runId ∧
        ∀ other ∈ w.db.attempts.rows, other.runId = dispatch.runId →
          other.attemptOrdinal ≤ attempt.attemptOrdinal) ∧
    ∀ now service, InOrder w service →
      ∀ attempt ∈ (call w now service).db.attempts.rows,
        w.db.attempts.find? attempt.attemptId = none →
          ∀ dispatch ∈ w.db.dispatches.rows, dispatch.runId = attempt.runId →
            dispatch.state.isOpen = false := by
  obtain ⟨inv, flights⟩ := inOrder_exclusive served
  refine ⟨?_, ?_⟩
  · intro dispatch listed current
    have seen := view_dispatches_of_mem listed
    refine ⟨?_, ?_⟩
    · intro other listed' current' own
      have same := inv.unique (view_dispatches_of_mem listed') seen current' current own
      exact Table.eq_of_key_eq listed' listed same
    · obtain ⟨stage, found, _, held⟩ := inv.engaged seen current
      obtain ⟨n, known⟩ := inv.attempted seen
      obtain ⟨stage', found', same'⟩ := Option.map_eq_some_iff.mp found
      obtain ⟨attempt, known', same⟩ := Option.map_eq_some_iff.mp known
      obtain ⟨last, listed', _, highest⟩ := inv.ordered known
      cases found.symm.trans listed'
      rw [← same'] at held
      refine ⟨stage', attempt, found', held, known', congrArg Prod.fst same, ?_⟩
      intro other member own
      have row : (view w.db).attempts other.attemptId =
          some (dispatch.runId, other.attemptOrdinal) := by
        simp [view, Table.find?_key member, attemptView, own]
      obtain ⟨stage'', listed'', bounded, _⟩ := inv.ordered row
      have equal : stage'' = stage := Option.some.inj (listed''.symm.trans found)
      have top : attempt.attemptOrdinal = n := congrArg Prod.snd same
      rw [top, highest (same' ▸ held), ← equal]
      exact bounded
  · intro now service inOrder attempt member new dispatch listed own
    obtain ⟨course, _⟩ := call_guided now inv flights (allowed_of_inOrder inOrder)
    have before : (view w.db).attempts attempt.attemptId = none := by simp [view, new]
    have after : (view (call w now service).db).attempts attempt.attemptId =
        some (attempt.runId, attempt.attemptOrdinal) := by
      simp [view, Table.find?_key member, attemptView]
    have idle := claimed_idle inv course (fun _ _ lawful => lawful.2) before after
    exact idle _ _ (view_dispatches_of_mem listed) own

theorem inOrder_of_quiet : SparesQuiet InOrder := by
  intro w service quiet _ claim dispatch failed
  rw [quiet] at failed
  cases failed

theorem one_live_dispatch_claimed :
    (∃ dispatch ∈ claimedOnce.db.dispatches.rows, dispatch.state.isOpen = true) ∧
      ∀ dispatch ∈ claimedOnce.db.dispatches.rows, dispatch.state.isOpen = true →
        ∃ stage attempt, claimedOnce.db.stages.find? dispatch.runId = some stage ∧
          stage.currentAttemptId = some dispatch.attemptId ∧
          claimedOnce.db.attempts.find? dispatch.attemptId = some attempt ∧
          attempt.runId = dispatch.runId ∧ ∀ other ∈ claimedOnce.db.attempts.rows,
            other.runId = dispatch.runId → other.attemptOrdinal ≤ attempt.attemptOrdinal := by
  have live := (one_live_dispatch (claimedOnce_served inOrder_of_quiet)).1
  refine ⟨by decide, ?_⟩
  intro dispatch listed current
  exact (live dispatch listed current).2

/-- A dispatch is handed back, the run is dispatched again, and then the first workspace fails. -/
def claimedTwice : ServiceWorld :=
  let w := call claimedOnce 0 (.detach ⟨0, 2, [(2, .notStarted)], silent⟩)
  let w := call w 0 (.attach ⟨"code", none, none, [], none, silent⟩)
  let w := call w 0 (.poll ⟨3, 1, "code", 1, none, none, silent⟩)
  let w := call w 0 (.provisioningFailed 0)
  call w 0 (.poll ⟨3, 2, "code", 1, none, none, silent⟩)

theorem two_live_dispatches : ∃ w, ServedWith (fun _ _ => True) w ∧
    ∃ dispatch ∈ w.db.dispatches.rows, ∃ other ∈ w.db.dispatches.rows,
      dispatch.state.isOpen = true ∧ other.state.isOpen = true ∧
        other.runId = dispatch.runId ∧ other.dispatchId ≠ dispatch.dispatchId := by
  refine ⟨claimedTwice, ?_, by decide⟩
  have once : ServedWith (fun _ _ => True) claimedOnce :=
    claimedOnce_served fun _ _ _ _ => trivial
  unfold claimedTwice
  exact ((((once.call _ trivial).call _ trivial).call _ trivial).call _ trivial).call _ trivial

end Heniek.LiveDispatch
