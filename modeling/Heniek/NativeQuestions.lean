import Heniek.NativeBridgeRuns

/-!
A question of a native stage and its dispatch. A dispatch that waits on its user has one
pending question, and a pending question has a dispatch that waits, as long as a dispatch
that waits is closed together with the question that it waits for.
-/

namespace Heniek.NativeQuestions
open KeyedTable NativeBridge BridgeModel

/-- The questions and the dispatches as they belong together. -/
structure Asked (v : Bridge) : Prop where
  raised : ∀ {k q}, v.questions k = some q → ∃ x, v.dispatches q.dispatchId = some x ∧
    x.runId = k.1 ∧ (q.state = .pending → x.state = .waitingOnUser) ∧
      (q.state = .cancelled → x.state.isOpen = false)
  waits : ∀ {d x}, v.dispatches d = some x → x.state = .waitingOnUser →
    ∃ k q, v.questions k = some q ∧ q.dispatchId = d ∧ q.state = .pending
  alone : ∀ {k k' q q'}, v.questions k = some q → v.questions k' = some q' →
    q.state = .pending → q'.state = .pending → q.dispatchId = q'.dispatchId → k = k'
  first : ∀ {d i}, v.first d = some i → ∃ x q, v.dispatches d = some x ∧
    v.questions (x.runId, i) = some q ∧ q.dispatchId = d
  unasked : ∀ {d}, v.first d = none → ∀ {k q}, v.questions k = some q → q.dispatchId ≠ d

theorem emptyView_asked : Asked emptyView where
  raised found := by cases found
  waits found := by cases found
  alone found := by cases found
  first found := by cases found
  unasked _ _ _ found := by cases found

variable {v v' : Bridge} {d : Nat} {x : DispatchView}

def OnFirst (v : Bridge) (d : Nat) : Prop :=
  ∃ x i q, v.dispatches d = some x ∧ v.first d = some i ∧
    v.questions (x.runId, i) = some q ∧ q.state = .pending

def Waiting (v : Bridge) (d : Nat) : Prop :=
  ∃ x, v.dispatches d = some x ∧ x.state = .waitingOnUser

/-- The actions that leave no question behind. -/
def Attended (v : Bridge) : Action → Prop
  | .abandon d => Waiting v d → OnFirst v d
  | .fail _ d => ¬ Waiting v d
  | .submit d => ¬ Waiting v d
  | _ => True

theorem Asked.same (inv : Asked v) (dispatches : v'.dispatches = v.dispatches)
    (questions : v'.questions = v.questions) (first : v'.first = v.first) : Asked v' := by
  refine ⟨?_, ?_, ?_, ?_, ?_⟩
  · intro k q found
    rw [questions] at found
    rw [dispatches]
    exact inv.raised found
  · intro d x found
    rw [dispatches] at found
    rw [questions]
    exact inv.waits found
  · intro k k' q q' found found'
    rw [questions] at found found'
    exact inv.alone found found'
  · intro d i found
    rw [first] at found
    rw [dispatches, questions]
    exact inv.first found
  · intro d absent k q found
    rw [first] at absent
    rw [questions] at found
    exact inv.unasked absent found

/-- Dispatches and questions changed where they are: a question pends as it did, with a dispatch
that waits, and a dispatch that waits has one. -/
theorem Asked.mapped (inv : Asked v) (change : Nat → DispatchView → DispatchView)
    (reply : String × String → QuestionView → QuestionView)
    (dispatches : ∀ d, v'.dispatches d = (v.dispatches d).map (change d))
    (questions : ∀ k, v'.questions k = (v.questions k).map (reply k))
    (first : v'.first = v.first) (run : ∀ d x, (change d x).runId = x.runId)
    (shown : ∀ {k q x}, v.questions k = some q → v.dispatches q.dispatchId = some x →
      (reply k q).dispatchId = q.dispatchId ∧
      ((reply k q).state = .pending → q.state = .pending ∧
        (change q.dispatchId x).state = .waitingOnUser) ∧
      ((reply k q).state = .cancelled → (change q.dispatchId x).state.isOpen = false))
    (waits : ∀ {d x}, v.dispatches d = some x → (change d x).state = .waitingOnUser →
      ∃ k q, v.questions k = some q ∧ q.dispatchId = d ∧ (reply k q).state = .pending) :
    Asked v' := by
  have dispatch : ∀ {d x}, v.dispatches d = some x → v'.dispatches d = some (change d x) := by
    intro d x found
    rw [dispatches, found, Option.map_some]
  have question : ∀ {k q}, v.questions k = some q → v'.questions k = some (reply k q) := by
    intro k q found
    rw [questions, found, Option.map_some]
  have back : ∀ {k q'}, v'.questions k = some q' → ∃ q x, v.questions k = some q ∧
      reply k q = q' ∧ v.dispatches q.dispatchId = some x ∧ x.runId = k.1 := by
    intro k q' found
    rw [questions] at found
    obtain ⟨q, before, same⟩ := Option.map_eq_some_iff.mp found
    obtain ⟨x, known, own, _⟩ := inv.raised before
    exact ⟨q, x, before, same, known, own⟩
  refine ⟨?_, ?_, ?_, ?_, ?_⟩
  · intro k q' found
    obtain ⟨q, x, before, rfl, known, own⟩ := back found
    obtain ⟨same, pending, cancelled⟩ := shown before known
    exact ⟨change q.dispatchId x, by rw [same]; exact dispatch known, (run _ x).trans own,
      fun pends => (pending pends).2, cancelled⟩
  · intro d x' found waiting
    rw [dispatches] at found
    obtain ⟨x, before, rfl⟩ := Option.map_eq_some_iff.mp found
    obtain ⟨k, q, asked, own, pending⟩ := waits before waiting
    obtain ⟨y, known, _⟩ := inv.raised asked
    exact ⟨k, reply k q, question asked, (shown asked known).1.trans own, pending⟩
  · intro k k' p p' found found' pending pending' same
    obtain ⟨q, x, before, rfl, known, _⟩ := back found
    obtain ⟨q', x', before', rfl, known', _⟩ := back found'
    have here := shown before known
    have there := shown before' known'
    exact inv.alone before before' (here.2.1 pending).1 (there.2.1 pending').1
      (here.1.symm.trans (same.trans there.1))
  · intro d i found
    rw [first] at found
    obtain ⟨x, q, known, asked, own⟩ := inv.first found
    refine ⟨change d x, reply (x.runId, i) q, dispatch known, ?_, ?_⟩
    · rw [run]
      exact question asked
    · exact (shown asked (own ▸ known)).1.trans own
  · intro d absent k q' found
    rw [first] at absent
    obtain ⟨q, x, before, rfl, known, _⟩ := back found
    rw [(shown before known).1]
    exact inv.unasked absent before

theorem Asked.ended (inv : Asked v) (ends : Nat → Prop) (change : Nat → DispatchView → DispatchView)
    (dispatches : ∀ d, v'.dispatches d = (v.dispatches d).map (change d))
    (run : ∀ d x, (change d x).runId = x.runId)
    (closed : ∀ d x, v.dispatches d = some x →
      (ends d ∧ (change d x).state.isOpen = false) ∨ (¬ ends d ∧ change d x = x))
    (first : v'.first = v.first)
    (questions : ∀ k, v'.questions k = v.questions k ∨
      ∃ q, v.questions k = some q ∧ ends q.dispatchId ∧ v'.questions k = some q.cancelled)
    (left : ∀ k q, v'.questions k = some q → ends q.dispatchId → q.state ≠ .pending) :
    Asked v' := by
  have after : ∀ {k q}, v.questions k = some q → ∃ q', v'.questions k = some q' ∧
      q'.dispatchId = q.dispatchId ∧ (q' = q ∨ ends q.dispatchId) := by
    intro k q before
    rcases questions k with same | ⟨_, asked, own, gone⟩
    · exact ⟨q, same.trans before, rfl, .inl rfl⟩
    · cases before.symm.trans asked
      exact ⟨_, gone, q.cancelled_dispatchId, .inr own⟩
  refine inv.mapped change (fun k q => (v'.questions k).getD q) dispatches ?_ first run ?_ ?_
  · intro k
    cases before : v.questions k with
    | none =>
      rcases questions k with same | ⟨_, asked, _⟩
      · rw [same, before]
        rfl
      · rw [before] at asked
        cases asked
    | some q =>
      obtain ⟨q', now, _⟩ := after before
      simp [now]
  · intro k q x before known
    obtain ⟨q', now, own, kind⟩ := after before
    obtain ⟨y, known', _, pending, cancelled⟩ := inv.raised before
    cases known.symm.trans known'
    rw [now, Option.getD_some]
    rcases closed _ _ known with ⟨ended, shut⟩ | ⟨current, same⟩
    · exact ⟨own, fun pends => absurd pends (left k q' now (own ▸ ended)), fun _ => shut⟩
    · rw [kind.resolve_right current, same]
      exact ⟨rfl, fun pends => ⟨pends, pending pends⟩, cancelled⟩
  · intro d x before waiting
    rcases closed d x before with ⟨_, shut⟩ | ⟨current, same⟩
    · rw [waiting] at shut
      cases shut
    · rw [same] at waiting
      obtain ⟨k, q, known, own, pending⟩ := inv.waits before waiting
      obtain ⟨q', now, _, kind⟩ := after known
      refine ⟨k, q, known, own, ?_⟩
      rw [now, Option.getD_some, kind.resolve_right (own ▸ current)]
      exact pending

theorem mapDispatch_change (v : Bridge) (d d' : Nat) (change : DispatchView → DispatchView) :
    (v.mapDispatch d change).dispatches d' =
      (v.dispatches d').map (if d' = d then change else id) := by
  rw [mapDispatch_dispatches]
  split_ifs
  · rfl
  · rw [Option.map_id_fun, id]

theorem Asked.closed (inv : Asked v) {state : DispatchState} (closed : state.isOpen = false)
    (dispatches : v'.dispatches = (v.mapDispatch d (DispatchView.entered state)).dispatches)
    (first : v'.first = v.first)
    (questions : ∀ k, v'.questions k = v.questions k ∨
      ∃ q, v.questions k = some q ∧ q.dispatchId = d ∧ v'.questions k = some q.cancelled)
    (left : ∀ k q, v'.questions k = some q → q.dispatchId = d → q.state ≠ .pending) :
    Asked v' := by
  apply inv.ended (fun other => other = d)
    (fun other => if other = d then DispatchView.entered state else id) _ _ _ first
    questions left
  · intro other
    rw [dispatches, mapDispatch_change]
  · intro other x
    split_ifs <;> rfl
  · intro other x _
    split_ifs with same
    · exact .inl ⟨same, closed⟩
    · exact .inr ⟨same, rfl⟩

theorem Asked.quiet (inv : Asked v) (state : DispatchState) (closed : state.isOpen = false)
    (idle : ¬ Waiting v d)
    (dispatches : v'.dispatches = (v.mapDispatch d (DispatchView.entered state)).dispatches)
    (first : v'.first = v.first) (questions : v'.questions = v.questions) : Asked v' := by
  apply inv.closed closed dispatches first
  · intro k
    rw [questions]
    exact .inl rfl
  · intro k q found own pending
    rw [questions] at found
    obtain ⟨x, known, _, waits, _⟩ := inv.raised found
    exact idle ⟨x, own ▸ known, waits pending⟩

theorem recovered_questions (v : Bridge) (r : String) :
    (v.recovered r).questions = v.questions ∧ (v.recovered r).first = v.first := by
  unfold Bridge.recovered
  split_ifs <;> exact ⟨rfl, rfl⟩

theorem Asked.abandoned (inv : Asked v) (found : v.dispatches d = some x)
    (attended : Waiting v d → OnFirst v d) : Asked (v.abandoned d x.runId) := by
  have tables := abandoned_dispatches v d x.runId
  cases asked : v.first d with
  | none =>
    have idle : ¬ Waiting v d := by
      intro waiting
      obtain ⟨x', i, q, _, first, _⟩ := attended waiting
      rw [asked] at first
      cases first
    have rows : (v.abandoned d x.runId).questions = v.questions ∧
        (v.abandoned d x.runId).first = v.first := by
      simp only [Bridge.abandoned, asked]
      exact recovered_questions _ _
    exact inv.quiet _ rfl idle tables rows.2 rows.1
  | some i =>
    have rows : (v.abandoned d x.runId).questions =
          (v.mapQuestion (x.runId, i) QuestionView.cancelled).questions ∧
        (v.abandoned d x.runId).first = v.first := by
      simp only [Bridge.abandoned, asked]
      exact recovered_questions _ _
    obtain ⟨x', q, known, listed, own⟩ := inv.first asked
    cases found.symm.trans known
    apply inv.closed rfl tables rows.2
    · intro k
      rw [rows.1]
      by_cases same : k = (x.runId, i)
      · refine .inr ⟨q, same ▸ listed, own, ?_⟩
        simp [same, Bridge.mapQuestion, listed]
      · exact .inl (Function.update_of_ne same _ _)
    · intro k q' found' own' pending
      rw [rows.1] at found'
      by_cases same : k = (x.runId, i)
      · simp only [same, Bridge.mapQuestion, Function.update_self,
          listed, Option.map_some] at found'
        cases found'
        exact q.cancelled_state pending
      · simp only [Bridge.mapQuestion, Function.update_of_ne same] at found'
        obtain ⟨y, known', _, waits, _⟩ := inv.raised found'
        rw [own'] at known'
        obtain ⟨x', i', p, found'', first, listed', pending'⟩ :=
          attended ⟨y, known', waits pending⟩
        cases found.symm.trans found''
        cases asked.symm.trans first
        cases listed.symm.trans listed'
        apply same
        exact inv.alone found' listed pending pending' (own'.trans own.symm)

theorem Asked.claimed {r : String} {a : Nat} {stage : StageView} (inv : Asked v)
    (newDispatch : v.dispatches d = none) : Asked (v.claimed r a d stage) := by
  have dispatches : ∀ d', (v.claimed r a d stage).dispatches d' =
      if d' = d then some ⟨r, a, .dispatched⟩ else v.dispatches d' := by
    simp [Bridge.claimed, Bridge.enter, Bridge.setRun, Bridge.mapStage, Function.update_apply]
  have kept : ∀ {d' x}, v.dispatches d' = some x →
      (v.claimed r a d stage).dispatches d' = some x := by
    intro d' x found
    rw [dispatches, if_neg, found]
    intro same
    rw [same, newDispatch] at found
    cases found
  refine ⟨?_, ?_, inv.alone, ?_, inv.unasked⟩
  · intro k q found
    obtain ⟨x, known, rest⟩ := inv.raised found
    exact ⟨x, kept known, rest⟩
  · intro d' x found waiting
    rw [dispatches] at found
    split_ifs at found
    · cases found
      cases waiting
    · exact inv.waits found waiting
  · intro d' i found
    obtain ⟨x, q, known, rest⟩ := inv.first found
    exact ⟨x, q, kept known, rest⟩

theorem Asked.raisedQuestion {i : String} (inv : Asked v) (found : v.dispatches d = some x)
    (current : x.state = .dispatched) (fresh : v.questions (x.runId, i) = none) :
    Asked (v.raised x.runId i d) := by
  have dispatches : ∀ d', (v.raised x.runId i d).dispatches d' =
      if d' = d then some (x.entered .waitingOnUser) else v.dispatches d' := by
    intro d'
    change (v.mapDispatch d (DispatchView.entered .waitingOnUser)).dispatches d' = _
    rw [mapDispatch_dispatches]
    split_ifs with same
    · rw [same, found, Option.map_some]
    · rfl
  have questions : ∀ k, (v.raised x.runId i d).questions k =
      if k = (x.runId, i) then some ⟨d, .pending⟩ else v.questions k := by
    intro k
    change Function.update v.questions (x.runId, i) (some ⟨d, .pending⟩) k = _
    rw [Function.update_apply]
  have first : ∀ d', (v.raised x.runId i d).first d' =
      if d' = d then (v.first d).or (some i) else v.first d' := by
    intro d'
    change Function.update v.first d ((v.first d).or (some i)) d' = _
    rw [Function.update_apply]
  have answered : ∀ {k q}, v.questions k = some q → q.dispatchId = d → q.state ≠ .pending := by
    intro k q asked own pending
    obtain ⟨y, known, _, waits, _⟩ := inv.raised asked
    rw [own, found] at known
    cases known
    rw [waits pending] at current
    cases current
  have older : ∀ {k q}, v.questions k = some q → (v.raised x.runId i d).questions k = some q := by
    intro k q asked
    rw [questions, if_neg, asked]
    intro same
    rw [same, fresh] at asked
    cases asked
  refine ⟨?_, ?_, ?_, ?_, ?_⟩
  · intro k q asked
    rw [questions] at asked
    split_ifs at asked with same
    · cases asked
      exact ⟨x.entered .waitingOnUser, by rw [dispatches, if_pos rfl], by rw [same]; rfl,
        fun _ => rfl, fun cancelled => by cases cancelled⟩
    · obtain ⟨y, known, own, waits, gone⟩ := inv.raised asked
      by_cases this : q.dispatchId = d
      · rw [this, found] at known
        cases known
        refine ⟨x.entered .waitingOnUser, by rw [dispatches, if_pos this], own, fun _ => rfl, ?_⟩
        intro cancelled
        have closed := gone cancelled
        rw [current] at closed
        cases closed
      · exact ⟨y, by rw [dispatches, if_neg this, known], own, waits, gone⟩
  · intro d' x' found' waiting
    rw [dispatches] at found'
    split_ifs at found' with same
    · cases found'
      exact ⟨(x.runId, i), ⟨d, .pending⟩, by rw [questions, if_pos rfl], same.symm, rfl⟩
    · obtain ⟨k, q, asked, own, pending⟩ := inv.waits found' waiting
      exact ⟨k, q, older asked, own, pending⟩
  · intro k k' q q' asked asked' pending pending' same
    rw [questions] at asked asked'
    split_ifs at asked asked' with new new' new'
    · rw [new, new']
    · cases asked
      exact absurd pending' (answered asked' same.symm)
    · cases asked'
      exact absurd pending (answered asked same)
    · exact inv.alone asked asked' pending pending' same
  · intro d' i' asked
    rw [first] at asked
    split_ifs at asked with same
    · rw [same]
      cases before : v.first d with
      | none =>
        rw [before, Option.none_or] at asked
        cases asked
        exact ⟨x.entered .waitingOnUser, ⟨d, .pending⟩, by rw [dispatches, if_pos rfl],
          by rw [questions]; exact if_pos rfl, rfl⟩
      | some j =>
        rw [before, Option.some_or] at asked
        cases asked
        obtain ⟨y, q, known, listed, own⟩ := inv.first before
        rw [found] at known
        cases known
        exact ⟨x.entered .waitingOnUser, q, by rw [dispatches, if_pos rfl], older listed, own⟩
    · obtain ⟨y, q, known, listed, own⟩ := inv.first asked
      exact ⟨y, q, by rw [dispatches, if_neg same, known], older listed, own⟩
  · intro d' absent k q asked
    rw [first] at absent
    rw [questions] at asked
    split_ifs at absent with same
    · cases before : v.first d with
      | none => simp [before] at absent
      | some j => simp [before] at absent
    · split_ifs at asked
      · cases asked
        exact fun own => same own.symm
      · exact inv.unasked absent asked

theorem Asked.answeredQuestion {r i : String} {question : QuestionView} (inv : Asked v)
    (found : v.questions (r, i) = some question) (pending : question.state = .pending) :
    Asked (v.answered r i question) := by
  obtain ⟨x, known, own, waits, _⟩ := inv.raised found
  have waiting := waits pending
  have answered : x.answered = x.entered .dispatched := if_pos waiting
  refine inv.mapped
    (fun d => if d = question.dispatchId then DispatchView.answered else id)
    (fun k q => if k = (r, i) then ⟨q.dispatchId, .answered⟩ else q) ?_ ?_ rfl ?_ ?_ ?_
  · intro d
    exact mapDispatch_change v question.dispatchId d DispatchView.answered
  · intro k
    change Function.update v.questions (r, i) (some ⟨question.dispatchId, .answered⟩) k = _
    rw [Function.update_apply]
    split_ifs with same
    · rw [same, found]
      rfl
    · exact Option.map_id'.symm
  · intro d y
    split_ifs
    · unfold DispatchView.answered
      split_ifs <;> rfl
    · rfl
  · intro k q y asked known'
    obtain ⟨y', known'', _, waits', gone⟩ := inv.raised asked
    cases known'.symm.trans known''
    split_ifs with same this this
    · exact ⟨rfl, nofun, nofun⟩
    · exact ⟨rfl, nofun, nofun⟩
    · rw [this, known] at known'
      cases known'
      refine ⟨rfl, fun pends => absurd (inv.alone asked found pends pending this) same, ?_⟩
      intro cancelled
      have shut := gone cancelled
      rw [waiting] at shut
      cases shut
    · exact ⟨rfl, fun pends => ⟨pends, waits' pends⟩, gone⟩
  · intro d y found' waiting'
    split_ifs at waiting' with same
    · rw [same, known] at found'
      cases found'
      rw [answered] at waiting'
      cases waiting'
    · obtain ⟨k, q, asked, own', pending'⟩ := inv.waits found' waiting'
      refine ⟨k, q, asked, own', ?_⟩
      rw [if_neg]
      · exact pending'
      · intro equal
        rw [equal, found] at asked
        cases asked
        exact same own'.symm

theorem Asked.revoked (inv : Asked v) (r : String) : Asked (v.revoked r) := by
  apply inv.ended (fun d => ∃ x, v.dispatches d = some x ∧ x.runId = r ∧ x.state.isOpen = true)
    (fun _ => DispatchView.revoked r)
  · intro d
    rfl
  · intro d x
    unfold DispatchView.revoked
    split_ifs <;> rfl
  · intro d x found
    unfold DispatchView.revoked
    split_ifs with closes
    · exact .inl ⟨⟨x, found, closes⟩, rfl⟩
    · refine .inr ⟨?_, rfl⟩
      intro ended
      obtain ⟨y, found', both⟩ := ended
      cases found.symm.trans found'
      exact closes both
  · rfl
  · intro k
    by_cases own : k.1 = r
    · cases asked : v.questions k with
      | none => exact .inl (by simp [Bridge.revoked, own, asked])
      | some q =>
        by_cases pending : q.state = .pending
        · obtain ⟨x, known, run, waits, _⟩ := inv.raised asked
          refine .inr ⟨q, rfl, ⟨x, known, run.trans own, ?_⟩, by simp [Bridge.revoked, own, asked]⟩
          rw [waits pending]
          rfl
        · have fixed : q.cancelled = q := if_neg pending
          exact .inl (by simp [Bridge.revoked, own, asked, fixed])
    · exact .inl (by simp [Bridge.revoked, own])
  · intro k q asked ended pending
    obtain ⟨x, found, own, _⟩ := ended
    by_cases run : k.1 = r
    · simp only [Bridge.revoked, run, if_true] at asked
      obtain ⟨p, _, same⟩ := Option.map_eq_some_iff.mp asked
      rw [← same] at pending
      exact p.cancelled_state pending
    · simp only [Bridge.revoked, run, if_false] at asked
      obtain ⟨y, known, own', _⟩ := inv.raised asked
      cases found.symm.trans known
      exact run (own'.symm.trans own)

theorem Asked.acted {action : Action} (inv : Asked v) (acts : Acts v action v')
    (attended : Attended v action) : Asked v' := by
  cases acts with
  | openRun fresh => exact inv.same rfl rfl rfl
  | create fresh => exact inv.same rfl rfl rfl
  | abandon found current => exact inv.abandoned found attended
  | release found current unasked =>
    refine inv.quiet .abandoned rfl ?_ rfl rfl rfl
    intro waiting
    obtain ⟨x, found', waits⟩ := waiting
    obtain ⟨k, q, asked, own, _⟩ := inv.waits found' waits
    exact inv.unasked unasked asked own
  | claim found waits newAttempt newDispatch => exact inv.claimed newDispatch
  | fail closable => exact inv.quiet _ rfl attended rfl rfl rfl
  | raise found current fresh => exact inv.raisedQuestion found current fresh
  | answer found pending => exact inv.answeredQuestion found pending
  | submit found current => exact inv.quiet _ rfl attended rfl rfl rfl
  | settle claimed => exact inv.same rfl rfl rfl
  | finish claimed => exact inv.same rfl rfl rfl
  | resume found lost => exact inv.same rfl rfl rfl
  | cancel found current claimed => exact (inv.revoked _).same rfl rfl rfl

theorem abandoned_first (v : Bridge) (d : Nat) (r : String) :
    (v.abandoned d r).first = v.first := by
  unfold Bridge.abandoned
  split <;> exact (recovered_questions _ _).2

theorem abandoned_questions {k : String × String} (v : Bridge) (d : Nat) (r : String)
    (other : ∀ i, v.first d = some i → k ≠ (r, i)) :
    (v.abandoned d r).questions k = v.questions k := by
  unfold Bridge.abandoned
  split
  · rw [(recovered_questions _ _).1]
    rfl
  · rename_i i asked
    rw [(recovered_questions _ _).1]
    exact Function.update_of_ne (other i asked) _ _

theorem onFirst_acted {d' : Nat} {action : Action} (inv : Asked v) (acts : Acts v action v')
    (closes : action = .abandon d' ∨ action = .release d') (firsts : Waiting v d → OnFirst v d)
    (waiting : Waiting v' d) : OnFirst v' d := by
  have other : ∀ {w : Bridge}, w.dispatches =
      (v.mapDispatch d' (DispatchView.entered .abandoned)).dispatches → Waiting w d →
        d ≠ d' ∧ w.dispatches d = v.dispatches d := by
    intro w same waits
    obtain ⟨x, found, state⟩ := waits
    rw [same, mapDispatch_dispatches] at found ⊢
    split_ifs at found ⊢ with equal
    · obtain ⟨y, _, entered⟩ := Option.map_eq_some_iff.mp found
      rw [← entered] at state
      cases state
    · exact ⟨equal, rfl⟩
  cases closes with
  | inl abandons =>
    rw [abandons] at acts
    cases acts with
    | abandon found current =>
      obtain ⟨different, dispatch⟩ := other (abandoned_dispatches _ _ _) waiting
      obtain ⟨x, known, state⟩ := waiting
      rw [dispatch] at known
      obtain ⟨x', i, q, known', first, asked, pending⟩ := firsts ⟨x, known, state⟩
      refine ⟨x', i, q, by rw [dispatch, known'], by rw [abandoned_first, first], ?_, pending⟩
      rw [abandoned_questions, asked]
      intro j first' same
      obtain ⟨y, p, found', asked', own'⟩ := inv.first first'
      obtain ⟨y', p', found'', asked'', own''⟩ := inv.first first
      cases found.symm.trans found'
      cases known'.symm.trans found''
      rw [same] at asked''
      cases asked'.symm.trans asked''
      exact different (own''.symm.trans own')
  | inr releases =>
    rw [releases] at acts
    cases acts with
    | release found current unasked =>
      obtain ⟨_, dispatch⟩ := other rfl waiting
      obtain ⟨x, known, state⟩ := waiting
      have before : v.dispatches d = some x := dispatch.symm.trans known
      obtain ⟨x', i, q, known', first, asked, pending⟩ := firsts ⟨x, before, state⟩
      exact ⟨x', i, q, dispatch.trans known', first, asked, pending⟩

theorem Asked.closes {kind : Action → Prop} (inv : Asked v) (ends : Nat → Prop)
    (kinds : ∀ action, kind action → ∃ d, ends d ∧ (action = .abandon d ∨ action = .release d))
    (firsts : ∀ d, ends d → Waiting v d → OnFirst v d) (course : Course kind v v') : Asked v' := by
  have both : Asked v' ∧ ∀ d, ends d → Waiting v' d → OnFirst v' d := by
    induction course with
    | refl => exact ⟨inv, firsts⟩
    | tail _ last ih =>
      obtain ⟨action, allowed, acts⟩ := last
      obtain ⟨d', ended, closes⟩ := kinds action allowed
      refine ⟨ih.1.acted acts ?_, ?_⟩
      · cases closes with
        | inl abandons =>
          rw [abandons]
          exact ih.2 d' ended
        | inr releases =>
          rw [releases]
          trivial
      · intro d ends'
        exact onFirst_acted ih.1 acts closes (ih.2 d ends')
  exact both.1

theorem Asked.claims (inv : Asked v) (course : Course Claims v v') : Asked v' := by
  induction course with
  | refl => exact inv
  | tail _ last ih =>
    obtain ⟨action, allowed, acts⟩ := last
    obtain ⟨r, a, d, same⟩ := allowed
    apply ih.acted acts
    rw [same]
    trivial

variable {db db' : NativeDatabase} {now : Int}

def onFirst (db : NativeDatabase) (dispatch : NativeDispatch) : Bool :=
  (firstQuestion db dispatch.dispatchId).any fun question => decide (question.state = .pending)

theorem onFirst_view {dispatch : NativeDispatch} (listed : dispatch ∈ db.dispatches.rows)
    (inv : Asked (view db)) (first : onFirst db dispatch = true) :
    OnFirst (view db) dispatch.dispatchId := by
  obtain ⟨question, asked, pending⟩ := (Option.any_eq_true _ _).mp first
  have member := List.mem_of_find?_eq_some asked
  have own : question.dispatchId = dispatch.dispatchId := by
    simpa using List.find?_some asked
  have known : (view db).dispatches dispatch.dispatchId = some (dispatchView dispatch) := by
    simp [view, Table.find?_key listed]
  have seen : (view db).questions (question.runId, question.interactionId) =
      some (questionView question) := by
    have found := Table.find?_key member
    simp only [view, found, Option.map_some]
  obtain ⟨x, known', run, _⟩ := inv.raised seen
  have same : x = dispatchView dispatch := by
    have known'' : (view db).dispatches question.dispatchId = some x := known'
    rw [own, known] at known''
    exact (Option.some.inj known'').symm
  refine ⟨dispatchView dispatch, question.interactionId, questionView question, known, ?_, ?_,
    of_decide_eq_true pending⟩
  · simp only [view, asked, Option.map_some]
  · rw [← same, run]
    exact seen

def sweepOf (db : NativeDatabase) : Operation → Option (Option String × WitnessClassifier)
  | .attach input => some (some input.codebaseId, input.witnessOf)
  | .detach input =>
    (codebaseForSession db input.sessionId).map fun codebaseId => (some codebaseId, input.witnessOf)
  | .poll input => some (some input.codebaseId, input.witnessOf)
  | .raise input =>
    (codebaseForSession db input.fence.sessionId).map fun codebaseId =>
      (some codebaseId, input.witnessOf)
  | .settle input =>
    (codebaseForSession db input.fence.sessionId).map fun codebaseId =>
      (some codebaseId, input.witnessOf)
  | .reap witnessOf => some (none, witnessOf)
  | _ => none

/-- A dispatch that waits is closed with the question that it waits for. -/
structure Orderly (db : NativeDatabase) (now : Int) (operation : Operation) : Prop where
  swept : ∀ {codebaseId witnessOf}, sweepOf db operation = some (codebaseId, witnessOf) →
    ∀ dispatch ∈ db.dispatches.rows, due db codebaseId now witnessOf dispatch = true →
      dispatch.state = .waitingOnUser → onFirst db dispatch = true
  detached : ∀ {input swept session}, operation = .detach input →
    sweepSession db input.sessionId now input.witnessOf = .ok swept →
      currentSession swept input.sessionId input.sessionRevision = .ok session →
        ∀ dispatch ∈ swept.dispatches.rows, dispatch.sessionId = input.sessionId →
          dispatch.dispatchId ∈ input.dispatches.map Prod.fst →
            dispatch.state = .waitingOnUser → onFirst swept dispatch = true
  settled : ∀ {input swept dispatch}, operation = .settle input →
    sweepSession db input.fence.sessionId now input.witnessOf = .ok swept →
      validateDispatchFence swept input.fence true = .ok dispatch →
        dispatch.state ≠ .waitingOnUser
  failed : ∀ {input dispatch}, operation = .workspaceFailure input →
    (db.runs.find? input.runId).isSome = true →
      db.dispatches.find? input.dispatchId = some dispatch → dispatch.state ≠ .waitingOnUser

theorem Asked.swept {codebaseId : Option String} {witnessOf : WitnessClassifier}
    {swept : NativeDatabase} (inv : Asked (view db))
    (firsts : ∀ dispatch ∈ db.dispatches.rows, due db codebaseId now witnessOf dispatch = true →
      dispatch.state = .waitingOnUser → onFirst db dispatch = true)
    (sweeps : Course (Sweeps db codebaseId now witnessOf) (view db) (view swept)) :
    Asked (view swept) := by
  apply inv.closes (fun d => ∃ dispatch ∈ db.dispatches.rows,
    due db codebaseId now witnessOf dispatch = true ∧ dispatch.dispatchId = d) _ _ sweeps
  · intro action swept
    obtain ⟨dispatch, listed, isDue, same⟩ := swept
    exact ⟨_, ⟨dispatch, listed, isDue, rfl⟩, .inl same⟩
  · intro d ended waiting
    obtain ⟨dispatch, listed, isDue, same⟩ := ended
    obtain ⟨x, known, waits⟩ := waiting
    rw [← same] at known ⊢
    simp only [view, Table.find?_key listed, Option.map_some, Option.some.injEq] at known
    rw [← known] at waits
    exact onFirst_view listed inv (firsts dispatch listed isDue waits)

theorem Asked.sweptSession {sessionId : Nat} {witnessOf : WitnessClassifier}
    {swept : NativeDatabase} (inv : Asked (view db))
    (firsts : ∀ {codebaseId}, codebaseForSession db sessionId = some codebaseId →
      ∀ dispatch ∈ db.dispatches.rows, due db (some codebaseId) now witnessOf dispatch = true →
        dispatch.state = .waitingOnUser → onFirst db dispatch = true)
    (ok : sweepSession db sessionId now witnessOf = .ok swept) : Asked (view swept) := by
  cases sweepSession_swept ok with
  | inl same =>
    rw [same]
    exact inv
  | inr sweeps =>
    obtain ⟨codebaseId, known, swept⟩ := sweeps
    exact inv.swept (firsts known) swept.course

theorem Asked.performed {operation : Operation} (inv : Asked (view db))
    (orderly : Orderly db now operation) : Asked (view (perform db now operation)) := by
  cases operation with
  | create input =>
    have course := createNativeStage_course db now input
    apply FallibleRun.steps_invariant _ inv course
    intro v v' asked step
    obtain ⟨action, allowed, acts⟩ := step
    apply asked.acted acts
    cases allowed with
    | inl opens => rw [opens]; trivial
    | inr creates => rw [creates]; trivial
  | attach input =>
    refine stored_of (P := fun db => Asked (view db)) inv ?_
    intro reply db' ok
    exact inv.swept (orderly.swept rfl) (attachParentSession_course ok)
  | detach input =>
    refine stored_of (P := fun db => Asked (view db)) inv ?_
    intro reply db' ok
    cases detachParentSession_ok ok with
    | inl same =>
      rw [same]
      exact inv
    | inr went =>
      obtain ⟨session, swept, found, reaped, rest⟩ := went
      have sweeps : sweepSession db input.sessionId now input.witnessOf = .ok swept := by
        simp only [sweepSession, codebaseForSession, found, Option.map_some]
        exact reaped
      have asked : Asked (view swept) := by
        apply inv.swept _ (reapExpirations_swept reaped).course
        apply orderly.swept
        simp [sweepOf, codebaseForSession, found]
      cases rest with
      | inl same =>
        rw [same]
        exact asked
      | inr detaches =>
        obtain ⟨⟨current, live⟩, course⟩ := detaches
        apply asked.closes (fun d => ∃ dispatch ∈ swept.dispatches.rows,
          dispatch.sessionId = input.sessionId ∧
            dispatch.dispatchId ∈ input.dispatches.map Prod.fst ∧
              dispatch.dispatchId = d) _ _ course
        · intro action kind
          obtain ⟨dispatch, listed, own, _, named, closes⟩ := kind
          exact ⟨_, ⟨dispatch, listed, own, named, rfl⟩, closes⟩
        · intro d ended waiting
          obtain ⟨dispatch, listed, own, named, same⟩ := ended
          obtain ⟨x, known, waits⟩ := waiting
          rw [← same] at known ⊢
          simp only [view, Table.find?_key listed, Option.map_some,
            Option.some.injEq] at known
          rw [← known] at waits
          exact onFirst_view listed asked
            (orderly.detached rfl sweeps live dispatch listed own named waits)
  | poll input =>
    refine stored_of (P := fun db => Asked (view db)) inv ?_
    intro reply db' ok
    obtain ⟨swept, reaped, claims, _⟩ := pollNativeBridge_ok ok
    exact (inv.swept (orderly.swept rfl) (reapExpirations_swept reaped).course).claims claims
  | assignWorkspace attemptId workspaceId =>
    refine kept_of (P := fun db => Asked (view db)) inv ?_
    intro db' ok
    rw [assignNativeAttemptWorkspace_view ok]
    exact inv
  | recordBaseline attemptId baseline =>
    rw [perform, recordNativeAttemptReadonlyBaseline_view]
    exact inv
  | workspaceFailure input =>
    refine kept_of (P := fun db => Asked (view db)) inv ?_
    intro db' ok
    apply inv.acted (recordNativeAttemptWorkspaceFailure_acts ok)
    intro waiting
    obtain ⟨x, known, waits⟩ := waiting
    obtain ⟨dispatch, found, same⟩ := Option.map_eq_some_iff.mp known
    rw [← same] at waits
    exact orderly.failed rfl (recordNativeAttemptWorkspaceFailure_run ok) found waits
  | raise input =>
    refine stored_of (P := fun db => Asked (view db)) inv ?_
    intro reply db' ok
    obtain ⟨swept, reaped, went⟩ := raiseNativeQuestion_ok ok
    have asked : Asked (view swept) := by
      apply inv.sweptSession _ reaped
      intro codebaseId known
      apply orderly.swept
      simp [sweepOf, known]
    cases went with
    | inl same =>
      rw [same]
      exact asked
    | inr acts => exact asked.acted acts trivial
  | answer input =>
    refine stored_of (P := fun db => Asked (view db)) inv ?_
    intro answered db' ok
    exact inv.acted (answerNativeQuestion_ok ok).2 trivial
  | settle input =>
    refine stored_of (P := fun db => Asked (view db)) inv ?_
    intro reply db' ok
    obtain ⟨swept, reaped, went⟩ := settleNativeDispatch_ok ok
    have asked : Asked (view swept) := by
      apply inv.sweptSession _ reaped
      intro codebaseId known
      apply orderly.swept
      simp [sweepOf, known]
    cases went with
    | inl same =>
      rw [same.1]
      exact asked
    | inr settles =>
      obtain ⟨dispatch, fenced, current, ⟨closed, submits, rest⟩, _⟩ := settles
      have idle : ¬ Waiting (view swept) input.fence.dispatchId := by
        intro waiting
        obtain ⟨x, known, waits⟩ := waiting
        simp only [view, (validateDispatchFence_ok fenced).1, Option.map_some,
          Option.some.injEq] at known
        rw [← known] at waits
        exact orderly.settled rfl reaped fenced waits
      have submitted : Asked closed := asked.acted submits idle
      split_ifs at rest
      · rw [rest]
        exact submitted
      · exact submitted.acted rest trivial
  | complete attemptId runId =>
    refine kept_of (P := fun db => Asked (view db)) inv ?_
    intro db' ok
    obtain ⟨stages, claimed⟩ := completeNativeAttemptArtifactOutcome_view ok
    rw [stages]
    exact inv.acted (Acts.finish claimed) trivial
  | downgrade attemptId runId reasonCode message =>
    refine kept_of (P := fun db => Asked (view db)) inv ?_
    intro db' ok
    exact inv.acted (downgradeNativeAttemptToFailed_acts ok) trivial
  | resume runId expectedRunRevision =>
    refine stored_of (P := fun db => Asked (view db)) inv ?_
    intro revision db' ok
    exact inv.acted (resumeNativeStage_acts ok) trivial
  | cancel runId =>
    refine stored_of (P := fun db => Asked (view db)) inv ?_
    intro status db' ok
    cases cancelNativeStage_ok ok with
    | inl same =>
      rw [same]
      exact inv
    | inr acts => exact inv.acted acts trivial
  | reap witnessOf =>
    refine kept_of (P := fun db => Asked (view db)) inv ?_
    intro db' ok
    exact inv.swept (orderly.swept rfl) (reapExpirations_swept ok).course

theorem reachable_asked (reached : ReachableWith Orderly db) : Asked (view db) := by
  apply FallibleRun.steps_invariant _ _ reached
  · intro db db' inv step
    obtain ⟨now, operation, orderly, same⟩ := step
    rw [same]
    exact inv.performed orderly
  · exact emptyView_asked

/-- A question is pending exactly as long as its dispatch waits for it, and no other one is. -/
theorem pending_iff_waiting (reached : ReachableWith Orderly db) :
    (∀ question ∈ db.questions.rows, ∃ dispatch,
      db.dispatches.find? question.dispatchId = some dispatch ∧
        (question.state = .pending ↔
          dispatch.state = .waitingOnUser ∧ question.state ≠ .answered)) ∧
    ∀ dispatch ∈ db.dispatches.rows,
      (dispatch.state = .waitingOnUser ↔ ∃ question ∈ db.questions.rows,
        question.dispatchId = dispatch.dispatchId ∧ question.state = .pending) ∧
      (dispatch.state = .waitingOnUser → ∃! question, question ∈ db.questions.rows ∧
        question.dispatchId = dispatch.dispatchId ∧ question.state = .pending) := by
  have inv := reachable_asked reached
  have seen : ∀ question ∈ db.questions.rows,
      (view db).questions (question.runId, question.interactionId) =
        some (questionView question) := by
    intro question listed
    have found := Table.find?_key listed
    simp only [view, found, Option.map_some]
  have dispatched : ∀ question ∈ db.questions.rows, ∃ dispatch,
      db.dispatches.find? question.dispatchId = some dispatch ∧
        (question.state = .pending → dispatch.state = .waitingOnUser) ∧
        (question.state = .cancelled → dispatch.state.isOpen = false) := by
    intro question listed
    obtain ⟨x, known, _, waits, gone⟩ := inv.raised (seen question listed)
    obtain ⟨dispatch, found, same⟩ := Option.map_eq_some_iff.mp known
    rw [← same] at waits gone
    exact ⟨dispatch, found, waits, gone⟩
  have waited : ∀ dispatch ∈ db.dispatches.rows, dispatch.state = .waitingOnUser →
      ∃ question ∈ db.questions.rows, question.dispatchId = dispatch.dispatchId ∧
        question.state = .pending := by
    intro dispatch listed waiting
    have known : (view db).dispatches dispatch.dispatchId = some (dispatchView dispatch) := by
      simp [view, Table.find?_key listed]
    obtain ⟨k, q, asked, own, pending⟩ := inv.waits known waiting
    obtain ⟨question, found, same⟩ := Option.map_eq_some_iff.mp asked
    rw [← same] at own pending
    exact ⟨question, Table.mem_of_find? found, own, pending⟩
  refine ⟨?_, ?_⟩
  · intro question listed
    obtain ⟨dispatch, found, waits, gone⟩ := dispatched question listed
    refine ⟨dispatch, found, ?_, ?_⟩
    · intro pending
      exact ⟨waits pending, by simp [pending]⟩
    · intro waiting
      cases state : question.state with
      | pending => rfl
      | answered => exact absurd state waiting.2
      | cancelled =>
        have closed := gone state
        rw [waiting.1] at closed
        cases closed
  · intro dispatch listed
    refine ⟨⟨waited dispatch listed, ?_⟩, ?_⟩
    · intro asked
      obtain ⟨question, member, own, pending⟩ := asked
      obtain ⟨other, found, waits, _⟩ := dispatched question member
      rw [own, Table.find?_key listed] at found
      cases found
      exact waits pending
    · intro waiting
      obtain ⟨question, member, own, pending⟩ := waited dispatch listed waiting
      refine ⟨question, ⟨member, own, pending⟩, ?_⟩
      intro other both
      have same := inv.alone (seen other both.1) (seen question member) both.2.2 pending
        (both.2.1.trans own.symm)
      exact Table.eq_of_key_eq both.1 member same

def begun : NativeDatabase :=
  let db := perform emptyBridge 0 (.create ⟨"run", "stage", "code", request⟩)
  let db := perform db 0 (.attach ⟨"code", none, none, [], none, silent⟩)
  perform db 0 (.poll ⟨0, 1, "code", 1, none, none, silent⟩)

def fence (dispatchRevision : Nat) : DispatchFence := ⟨0, 2, 2, dispatchRevision, "run", "stage", 1⟩

def ask (id : String) : Interactions.BackendInteraction where
  id := id
  questions := [⟨"q", "which?", none, [], false⟩]
  requestedAt := "2026-01-01T00:00:00.000Z"

def asked : NativeDatabase := perform begun 0 (.raise ⟨fence 1, ask "first", silent⟩)

def closesItself : Operation → Bool
  | .detach _ => true
  | .settle _ => true
  | .workspaceFailure _ => true
  | _ => false

theorem orderly_of_idle {operation : Operation} (quiet : closesItself operation = false)
    (idle : ∀ dispatch ∈ db.dispatches.rows, dispatch.state ≠ .waitingOnUser) :
    Orderly db now operation where
  swept _ dispatch listed _ waits := absurd waits (idle dispatch listed)
  detached same := by
    rw [same] at quiet
    cases quiet
  settled same := by
    rw [same] at quiet
    cases quiet
  failed same := by
    rw [same] at quiet
    cases quiet

theorem asked_reached : ReachableWith Orderly asked := by
  have created : ReachableWith Orderly
      (perform emptyBridge 0 (.create ⟨"run", "stage", "code", request⟩)) := by
    apply Relation.ReflTransGen.single
    exact ⟨0, _, orderly_of_idle rfl (by decide), rfl⟩
  have attached := Relation.ReflTransGen.tail created
    ⟨0, .attach ⟨"code", none, none, [], none, silent⟩,
      orderly_of_idle rfl (by decide), rfl⟩
  have polled := Relation.ReflTransGen.tail attached
    ⟨0, .poll ⟨0, 1, "code", 1, none, none, silent⟩,
      orderly_of_idle rfl (by decide), rfl⟩
  exact Relation.ReflTransGen.tail polled
    ⟨0, .raise ⟨fence 1, ask "first", silent⟩,
      orderly_of_idle rfl (by decide), rfl⟩

theorem pending_iff_waiting_asked :
    (∃ question ∈ asked.questions.rows, question.state = .pending) ∧
      ∀ dispatch ∈ asked.dispatches.rows, ∃! question, question ∈ asked.questions.rows ∧
        question.dispatchId = dispatch.dispatchId ∧ question.state = .pending := by
  obtain ⟨-, waiting⟩ := pending_iff_waiting asked_reached
  have waits : ∀ dispatch ∈ asked.dispatches.rows, dispatch.state = .waitingOnUser := by decide
  refine ⟨by decide, fun dispatch listed => ?_⟩
  exact (waiting dispatch listed).2 (waits dispatch listed)

def answer : Operation :=
  .answer ⟨"run", ⟨"first", 1, [.freeText "q" "this"]⟩, "key"⟩

def expired : NativeDatabase :=
  let db := perform (perform asked 0 answer) 0 (.raise ⟨fence 3, ask "second", silent⟩)
  perform db 90000 (.reap silent)

theorem question_left_pending : ∃ db, ReachableWith (fun _ _ _ => True) db ∧
    ∃ question ∈ db.questions.rows, question.state = .pending ∧
      (db.dispatches.find? question.dispatchId).map NativeDispatch.state = some .abandoned := by
  refine ⟨expired, ?_, by decide⟩
  have step : ∀ {db}, ReachableWith (fun _ _ _ => True) db → ∀ now operation,
      ReachableWith (fun _ _ _ => True) (perform db now operation) := by
    intro db reached now operation
    exact Relation.ReflTransGen.tail reached ⟨now, operation, trivial, rfl⟩
  have begins : ReachableWith (fun _ _ _ => True) begun := by
    unfold begun
    exact step (step (step .refl _ _) _ _) _ _
  unfold expired asked
  exact step (step (step (step begins _ _) _ _) _ _) _ _

end Heniek.NativeQuestions
