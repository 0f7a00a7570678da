import Heniek.NativeBridge
import Mathlib.Logic.Function.Basic

/-!
What the native bridge is about, apart from revisions, sessions and instants: the status
of a run, the stage, attempts and dispatches of the run, and the questions of a dispatch.
An operation of the store is a sequence of the actions below.
-/

namespace Heniek.BridgeModel
open NativeBridge
open ProjectionTables (RunStatus)

structure StageView where
  state : StageState
  current : Option Nat
  count : Nat
  waits : Bool
  deriving DecidableEq

structure DispatchView where
  runId : String
  attemptId : Nat
  state : DispatchState
  deriving DecidableEq

structure QuestionView where
  dispatchId : Nat
  state : QuestionState
  deriving DecidableEq

structure Bridge where
  runs : String → Option RunStatus
  stages : String → Option StageView
  attempts : Nat → Option (String × Nat)
  dispatches : Nat → Option DispatchView
  questions : String × String → Option QuestionView
  first : Nat → Option String

def emptyView : Bridge := ⟨fun _ => none, fun _ => none, fun _ => none, fun _ => none,
  fun _ => none, fun _ => none⟩

def StageView.waiting (stage : StageView) : StageView :=
  { stage with state := .waitingForParent, current := none, waits := true }

def StageView.settled (stage : StageView) : StageView :=
  { stage with state := .settled, current := none }

def StageView.claimed (a : Nat) (stage : StageView) : StageView :=
  ⟨.dispatched, some a, stage.count + 1, false⟩

def StageView.entered (state : StageState) (stage : StageView) : StageView :=
  { stage with state := state }

/-- An answer takes a stage back to its dispatch. -/
def StageView.answered (stage : StageView) : StageView :=
  if stage.state = .waitingOnUser then stage.entered .dispatched else stage

def DispatchView.entered (state : DispatchState) (dispatch : DispatchView) : DispatchView :=
  { dispatch with state := state }

def DispatchView.answered (dispatch : DispatchView) : DispatchView :=
  if dispatch.state = .waitingOnUser then dispatch.entered .dispatched else dispatch

def DispatchView.revoked (runId : String) (dispatch : DispatchView) : DispatchView :=
  if dispatch.runId = runId ∧ dispatch.state.isOpen = true then dispatch.entered .revoked
  else dispatch

def QuestionView.cancelled (question : QuestionView) : QuestionView :=
  if question.state = .pending then { question with state := .cancelled } else question

theorem QuestionView.cancelled_state (question : QuestionView) :
    question.cancelled.state ≠ .pending := by
  unfold QuestionView.cancelled
  split_ifs with pending
  · simp
  · exact pending

theorem QuestionView.cancelled_dispatchId (question : QuestionView) :
    question.cancelled.dispatchId = question.dispatchId := by
  unfold QuestionView.cancelled
  split_ifs <;> rfl

namespace Bridge

def setRun (v : Bridge) (r : String) (status : RunStatus) : Bridge :=
  { v with runs := Function.update v.runs r (some status) }

def mapStage (v : Bridge) (r : String) (change : StageView → StageView) : Bridge :=
  { v with stages := Function.update v.stages r ((v.stages r).map change) }

def mapDispatch (v : Bridge) (d : Nat) (change : DispatchView → DispatchView) : Bridge :=
  { v with dispatches := Function.update v.dispatches d ((v.dispatches d).map change) }

def mapQuestion (v : Bridge) (k : String × String) (change : QuestionView → QuestionView) :
    Bridge :=
  { v with questions := Function.update v.questions k ((v.questions k).map change) }

def enter (v : Bridge) (r : String) (change : StageView → StageView) (status : RunStatus) :
    Bridge :=
  (v.mapStage r change).setRun r status

def recovered (v : Bridge) (r : String) : Bridge :=
  if (v.stages r).any fun stage => stage.state.engaged then
    v.enter r (StageView.entered .recoveryRequired) .recoveryRequired
  else v

/-- A closed dispatch takes only the first of its questions with it. -/
def abandoned (v : Bridge) (d : Nat) (r : String) : Bridge :=
  let closed := v.mapDispatch d (DispatchView.entered .abandoned)
  match v.first d with
  | none => closed.recovered r
  | some i => (closed.mapQuestion (r, i) QuestionView.cancelled).recovered r

def created (v : Bridge) (r : String) : Bridge :=
  { v with
    stages := Function.update v.stages r (some ⟨.waitingForParent, none, 0, true⟩) }.setRun r
    .waitingForParentSession

def claimed (v : Bridge) (r : String) (a d : Nat) (stage : StageView) : Bridge :=
  { v with
    attempts := Function.update v.attempts a (some (r, stage.count + 1))
    dispatches := Function.update v.dispatches d (some ⟨r, a, .dispatched⟩) }.enter r
    (StageView.claimed a) .running

def raised (v : Bridge) (r i : String) (d : Nat) : Bridge :=
  ({ v with
    questions := Function.update v.questions (r, i) (some ⟨d, .pending⟩)
    first := Function.update v.first d ((v.first d).or (some i)) }.mapDispatch d
      (DispatchView.entered .waitingOnUser)).enter r (StageView.entered .waitingOnUser)
    .waitingOnUser

def answered (v : Bridge) (r i : String) (question : QuestionView) : Bridge :=
  ({ v with
    questions := Function.update v.questions (r, i) (some ⟨question.dispatchId, .answered⟩)
    }.mapDispatch question.dispatchId DispatchView.answered).enter r StageView.answered .running

def revoked (v : Bridge) (r : String) : Bridge :=
  { v with
    dispatches := fun d => (v.dispatches d).map (DispatchView.revoked r)
    questions := fun k =>
      if k.1 = r then (v.questions k).map QuestionView.cancelled else v.questions k }

end Bridge

inductive Action where
  | openRun (r : String)
  | create (r : String)
  | abandon (d : Nat)
  | release (d : Nat)
  | claim (r : String) (a d : Nat)
  | fail (r : String) (d : Nat)
  | raise (i : String) (d : Nat)
  | answer (r i : String)
  | submit (d : Nat)
  | settle (r : String) (status : RunStatus)
  | finish (r : String)
  | resume (r : String)
  | cancel (r : String)
  deriving DecidableEq

inductive Acts (v : Bridge) : Action → Bridge → Prop
  | openRun {r} (fresh : v.runs r = none) : Acts v (.openRun r) (v.setRun r .queued)
  | create {r} (fresh : v.stages r = none) : Acts v (.create r) (v.created r)
  | abandon {d x} (found : v.dispatches d = some x) (current : x.state.isOpen = true) :
      Acts v (.abandon d) (v.abandoned d x.runId)
  | release {d x} (found : v.dispatches d = some x) (current : x.state.isOpen = true)
      (unasked : v.first d = none) :
      Acts v (.release d) ((v.mapDispatch d (DispatchView.entered .abandoned)).enter x.runId
        StageView.waiting .waitingForParentSession)
  | claim {r a d stage} (found : v.stages r = some stage) (waits : stage.state = .waitingForParent)
      (newAttempt : v.attempts a = none) (newDispatch : v.dispatches d = none) :
      Acts v (.claim r a d) (v.claimed r a d stage)
  | fail {r d} (closable : ∀ x, v.dispatches d = some x →
        x.state.isOpen = true ∨ x.state = .abandoned) :
      Acts v (.fail r d) ((v.mapDispatch d (DispatchView.entered .abandoned)).enter r
        StageView.waiting .waitingForParentSession)
  | raise {i d x} (found : v.dispatches d = some x) (current : x.state = .dispatched)
      (fresh : v.questions (x.runId, i) = none) : Acts v (.raise i d) (v.raised x.runId i d)
  | answer {r i question} (found : v.questions (r, i) = some question)
      (pending : question.state = .pending) : Acts v (.answer r i) (v.answered r i question)
  | submit {d x} (found : v.dispatches d = some x) (current : x.state.isOpen = true) :
      Acts v (.submit d) (v.mapDispatch d (DispatchView.entered .submitted))
  | settle {r status} (claimed : ∀ stage, v.stages r = some stage → stage.waits = false) :
      Acts v (.settle r status) (v.enter r StageView.settled status)
  | finish {r} (claimed : ∀ stage, v.stages r = some stage → stage.waits = false) :
      Acts v (.finish r) (v.mapStage r StageView.settled)
  | resume {r stage} (found : v.stages r = some stage) (lost : stage.state = .recoveryRequired) :
      Acts v (.resume r) (v.enter r StageView.waiting .waitingForParentSession)
  | cancel {r stage} (found : v.stages r = some stage) (current : stage.state ≠ .settled)
      (claimed : stage.waits = false) :
      Acts v (.cancel r) ((v.revoked r).enter r StageView.settled .cancelled)

def Course (kind : Action → Prop) : Bridge → Bridge → Prop :=
  Relation.ReflTransGen fun v v' => ∃ action, kind action ∧ Acts v action v'

variable {kind : Action → Prop} {v v' : Bridge} {action : Action} {law : Bridge → Action → Prop}
  {change : StageView → StageView}

theorem Course.of_eq (same : v' = v) : Course kind v v' := by
  rw [same]
  exact Relation.ReflTransGen.refl

theorem Course.one (allowed : kind action) (acts : Acts v action v') : Course kind v v' :=
  Relation.ReflTransGen.single ⟨action, allowed, acts⟩

/-- Actions that are lawful where they happen. -/
def Guided (law : Bridge → Action → Prop) : Bridge → Bridge → Prop :=
  Relation.ReflTransGen fun v v' => ∃ action, law v action ∧ Acts v action v'

theorem Guided.of_eq (same : v' = v) : Guided law v v' := by
  rw [same]
  exact Relation.ReflTransGen.refl

theorem Guided.one (acts : Acts v action v') (lawful : law v action) : Guided law v v' :=
  Relation.ReflTransGen.single ⟨action, lawful, acts⟩

theorem Guided.also {v'' : Bridge} (course : Guided law v v') (acts : Acts v' action v'')
    (lawful : law v' action) : Guided law v v'' :=
  course.tail ⟨action, lawful, acts⟩

theorem Guided.mono {law' : Bridge → Action → Prop}
    (weaker : ∀ v action, law v action → law' v action) (course : Guided law v v') :
    Guided law' v v' := by
  induction course with
  | refl => exact Guided.of_eq rfl
  | tail _ acts ih =>
    obtain ⟨action, lawful, acted⟩ := acts
    exact ih.tail ⟨action, weaker _ action lawful, acted⟩

theorem Course.guided (course : Course kind v v')
    (lawful : ∀ v action, kind action → law v action) :
    Guided law v v' := by
  induction course with
  | refl => exact Guided.of_eq rfl
  | tail _ acts ih =>
    obtain ⟨action, allowed, acted⟩ := acts
    exact ih.tail ⟨action, lawful _ action allowed, acted⟩

structure Exclusive (v : Bridge) : Prop where
  engaged : ∀ {d x}, v.dispatches d = some x → x.state.isOpen = true →
    ∃ stage, v.stages x.runId = some stage ∧ stage.state.engaged = true ∧
      stage.current = some x.attemptId
  alone : ∀ {d d' x x'}, v.dispatches d = some x → v.dispatches d' = some x' →
    x.state.isOpen = true → x'.state.isOpen = true → x.attemptId = x'.attemptId → d = d'
  attempted : ∀ {d x}, v.dispatches d = some x → ∃ n, v.attempts x.attemptId = some (x.runId, n)
  ordered : ∀ {a r n}, v.attempts a = some (r, n) → ∃ stage, v.stages r = some stage ∧
    n ≤ stage.count ∧ (stage.current = some a → n = stage.count)
  checked : ∀ {r stage}, v.stages r = some stage →
    (stage.waits = true ↔ stage.state = .waitingForParent)

def Idle (v : Bridge) (r : String) : Prop :=
  ∀ d x, v.dispatches d = some x → x.runId = r → x.state.isOpen = false

def InTime (v : Bridge) : Action → Prop
  | .fail r d => ∃ x, v.dispatches d = some x ∧ x.runId = r ∧ (x.state = .abandoned → Idle v r)
  | .settle r _ => Idle v r
  | .finish r => Idle v r
  | _ => True

theorem emptyView_exclusive : Exclusive emptyView where
  engaged found := by cases found
  alone found := by cases found
  attempted found := by cases found
  ordered found := by cases found
  checked found := by cases found

variable {v v' : Bridge} {r r' : String} {d d' : Nat} {x x' : DispatchView}
variable {stage : StageView}

theorem Exclusive.unique (inv : Exclusive v) (found : v.dispatches d = some x)
    (found' : v.dispatches d' = some x') (current : x.state.isOpen = true)
    (current' : x'.state.isOpen = true) (same : x.runId = x'.runId) : d = d' := by
  obtain ⟨stage, listed, _, held⟩ := inv.engaged found current
  obtain ⟨stage', listed', _, held'⟩ := inv.engaged found' current'
  rw [same, listed'] at listed
  cases listed
  apply inv.alone found found' current current'
  exact Option.some.inj (held.symm.trans held')

theorem mapDispatch_dispatches (v : Bridge) (d d' : Nat) (change : DispatchView → DispatchView) :
    (v.mapDispatch d change).dispatches d' =
      if d' = d then (v.dispatches d').map change else v.dispatches d' := by
  by_cases same : d' = d
  · simp [Bridge.mapDispatch, same]
  · simp [Bridge.mapDispatch, same]

theorem mapStage_stages (v : Bridge) (r r' : String) (change : StageView → StageView) :
    (v.mapStage r change).stages r' =
      if r' = r then (v.stages r').map change else v.stages r' := by
  by_cases same : r' = r
  · simp [Bridge.mapStage, same]
  · simp [Bridge.mapStage, same]

theorem mapStage_of_none (absent : v.stages r = none) : v.mapStage r change = v := by
  simp only [Bridge.mapStage, absent, Option.map_none]
  rw [← absent, Function.update_eq_self]

theorem mapDispatch_of_none {change : DispatchView → DispatchView}
    (absent : v.dispatches d = none) : v.mapDispatch d change = v := by
  simp only [Bridge.mapDispatch, absent, Option.map_none]
  rw [← absent, Function.update_eq_self]

theorem mapDispatch_of_fixed {change : DispatchView → DispatchView}
    (found : v.dispatches d = some x) (fixed : change x = x) : v.mapDispatch d change = v := by
  simp only [Bridge.mapDispatch, found, Option.map_some, fixed]
  rw [← found, Function.update_eq_self]

theorem mapQuestion_of_none {k : String × String} {change : QuestionView → QuestionView}
    (absent : v.questions k = none) : v.mapQuestion k change = v := by
  simp only [Bridge.mapQuestion, absent, Option.map_none]
  rw [← absent, Function.update_eq_self]

theorem mapQuestion_of_fixed {k : String × String} {question : QuestionView}
    {change : QuestionView → QuestionView} (found : v.questions k = some question)
    (fixed : change question = question) : v.mapQuestion k change = v := by
  simp only [Bridge.mapQuestion, found, Option.map_some, fixed]
  rw [← found, Function.update_eq_self]

theorem mapStage_of_fixed (found : v.stages r = some stage) (fixed : change stage = stage) :
    v.mapStage r change = v := by
  simp only [Bridge.mapStage, found, Option.map_some, fixed]
  rw [← found, Function.update_eq_self]

theorem enter_stages (v : Bridge) (r r' : String) (change : StageView → StageView)
    (status : RunStatus) :
    (v.enter r change status).stages r' =
      if r' = r then (v.stages r').map change else v.stages r' :=
  mapStage_stages v r r' change

theorem idle_closed (inv : Exclusive v) (found : v.dispatches d = some x)
    (current : x.state.isOpen = true) {state : DispatchState} (closed : state.isOpen = false) :
    Idle (v.mapDispatch d (DispatchView.entered state)) x.runId := by
  intro d' x' found' same
  rw [mapDispatch_dispatches] at found'
  split_ifs at found' with equal
  · rw [equal, found] at found'
    cases found'
    exact closed
  · by_contra still
    apply equal
    exact inv.unique found' found (by simpa using still) current same

/-- What an action leaves of a stage, whose run may be idle after it. -/
structure StageKept (idle : Prop) (stage stage' : StageView) : Prop where
  count : stage'.count = stage.count
  current : stage'.current = none ∨ stage'.current = stage.current
  checked : (stage.waits = true ↔ stage.state = .waitingForParent) →
    (stage'.waits = true ↔ stage'.state = .waitingForParent)
  engaged : stage.state.engaged = true →
    idle ∨ stage'.state.engaged = true ∧ stage'.current = stage.current

theorem StageKept.refl (idle : Prop) (stage : StageView) : StageKept idle stage stage :=
  ⟨rfl, .inr rfl, id, fun engaged => .inr ⟨engaged, rfl⟩⟩

/-- An action that claims nothing: dispatches may close and stages may be left. -/
structure Amends (v v' : Bridge) : Prop where
  dispatches : ∀ {d x'}, v'.dispatches d = some x' → ∃ x, v.dispatches d = some x ∧
    x.runId = x'.runId ∧ x.attemptId = x'.attemptId ∧
      (x'.state.isOpen = true → x.state.isOpen = true)
  attempts : v'.attempts = v.attempts
  stages : ∀ r, Option.Rel (StageKept (Idle v' r)) (v.stages r) (v'.stages r)

theorem Amends.stage_forth (amends : Amends v v') (found : v.stages r = some stage) :
    ∃ stage', v'.stages r = some stage' ∧ StageKept (Idle v' r) stage stage' := by
  have related := amends.stages r
  rw [found] at related
  cases related' : v'.stages r with
  | none =>
    rw [related'] at related
    cases related
  | some stage' =>
    rw [related'] at related
    cases related with
    | some kept => exact ⟨stage', rfl, kept⟩

theorem Amends.stage_back (amends : Amends v v') {stage' : StageView}
    (found : v'.stages r = some stage') :
    ∃ stage, v.stages r = some stage ∧ StageKept (Idle v' r) stage stage' := by
  have related := amends.stages r
  rw [found] at related
  cases related' : v.stages r with
  | none =>
    rw [related'] at related
    cases related
  | some stage =>
    rw [related'] at related
    cases related with
    | some kept => exact ⟨stage, rfl, kept⟩

theorem Exclusive.amended (inv : Exclusive v) (amends : Amends v v') : Exclusive v' where
  engaged := by
    intro d x' found current
    obtain ⟨x, before, run, attempt, wasOpen⟩ := amends.dispatches found
    obtain ⟨stage, listed, engaged, held⟩ := inv.engaged before (wasOpen current)
    rw [run] at listed
    obtain ⟨stage', listed', kept⟩ := amends.stage_forth listed
    have still : stage'.state.engaged = true ∧ stage'.current = stage.current := by
      apply (kept.engaged engaged).resolve_left
      intro idle
      simp [idle d x' found rfl] at current
    exact ⟨stage', listed', still.1, by rw [still.2, held, attempt]⟩
  alone := by
    intro d d' x x' found found' current current' same
    obtain ⟨y, before, _, attempt, wasOpen⟩ := amends.dispatches found
    obtain ⟨y', before', _, attempt', wasOpen'⟩ := amends.dispatches found'
    apply inv.alone before before' (wasOpen current) (wasOpen' current')
    rw [attempt, attempt', same]
  attempted := by
    intro d x' found
    obtain ⟨x, before, run, attempt, _⟩ := amends.dispatches found
    rw [amends.attempts, ← run, ← attempt]
    exact inv.attempted before
  ordered := by
    intro a r n found
    rw [amends.attempts] at found
    obtain ⟨stage, listed, bounded, last⟩ := inv.ordered found
    obtain ⟨stage', listed', kept⟩ := amends.stage_forth listed
    refine ⟨stage', listed', by rw [kept.count]; exact bounded, ?_⟩
    intro held
    rw [kept.count]
    apply last
    cases kept.current with
    | inl none => simp [none] at held
    | inr same => rw [← same, held]
  checked := by
    intro r stage' found
    obtain ⟨stage, listed, kept⟩ := amends.stage_back found
    exact kept.checked (inv.checked listed)

theorem rel_of_mapped {idle : Prop}
    (kept : ∀ stage, v.stages r = some stage → StageKept idle stage (change stage)) :
    Option.Rel (StageKept idle) (v.stages r) ((v.stages r).map change) := by
  cases listed : v.stages r with
  | none => exact .none
  | some stage => exact .some (kept stage listed)

theorem rel_refl (idle : Prop) (option : Option StageView) :
    Option.Rel (StageKept idle) option option := by
  cases option with
  | none => exact .none
  | some stage => exact .some (StageKept.refl idle stage)

theorem amends_of_enter {status : RunStatus}
    (dispatches : ∀ {d x'}, v'.dispatches d = some x' → ∃ x, v.dispatches d = some x ∧
      x.runId = x'.runId ∧ x.attemptId = x'.attemptId ∧
      (x'.state.isOpen = true → x.state.isOpen = true))
    (attempts : v'.attempts = v.attempts) (stages : v'.stages = v.stages)
    (kept : ∀ stage, v.stages r = some stage → StageKept (Idle v' r) stage (change stage)) :
    Amends v (v'.enter r change status) where
  dispatches := dispatches
  attempts := attempts
  stages := by
    intro r'
    rw [enter_stages, stages]
    split_ifs with same
    · rw [same]
      exact rel_of_mapped kept
    · exact rel_refl _ _

theorem mapped_dispatches {change : DispatchView → DispatchView} {x' : DispatchView}
    (kept : ∀ x, v.dispatches d = some x → x.runId = (change x).runId ∧
      x.attemptId = (change x).attemptId ∧
        ((change x).state.isOpen = true → x.state.isOpen = true))
    (found : (v.mapDispatch d change).dispatches d' = some x') :
    ∃ x, v.dispatches d' = some x ∧ x.runId = x'.runId ∧ x.attemptId = x'.attemptId ∧
      (x'.state.isOpen = true → x.state.isOpen = true) := by
  rw [mapDispatch_dispatches] at found
  split_ifs at found with same
  · cases before : v.dispatches d' with
    | none => simp [before] at found
    | some x =>
      rw [before] at found
      cases found
      exact ⟨x, rfl, kept x (same ▸ before)⟩
  · exact ⟨x', found, rfl, rfl, id⟩

theorem closed_dispatches {state : DispatchState} (closed : state.isOpen = false)
    (found : (v.mapDispatch d (DispatchView.entered state)).dispatches d' = some x') :
    ∃ x, v.dispatches d' = some x ∧ x.runId = x'.runId ∧ x.attemptId = x'.attemptId ∧
      (x'.state.isOpen = true → x.state.isOpen = true) := by
  apply mapped_dispatches _ found
  intro x _
  exact ⟨rfl, rfl, fun current => by simp [DispatchView.entered, closed] at current⟩

theorem waiting_kept {idle : Prop} (stage : StageView)
    (left : stage.state.engaged = true → idle) : StageKept idle stage stage.waiting where
  count := rfl
  current := .inl rfl
  checked _ := by simp [StageView.waiting]
  engaged engaged := .inl (left engaged)

theorem settled_kept {idle : Prop} {stage : StageView} (claimed : stage.waits = false)
    (left : idle) : StageKept idle stage stage.settled where
  count := rfl
  current := .inl rfl
  checked _ := by simp [StageView.settled, claimed]
  engaged _ := .inl left

theorem recovered_dispatches (v : Bridge) (r : String) :
    (v.recovered r).dispatches = v.dispatches := by
  unfold Bridge.recovered
  split <;> rfl

theorem recovered_attempts (v : Bridge) (r : String) : (v.recovered r).attempts = v.attempts := by
  unfold Bridge.recovered
  split <;> rfl

theorem abandoned_dispatches (v : Bridge) (d : Nat) (r : String) :
    (v.abandoned d r).dispatches =
      (v.mapDispatch d (DispatchView.entered .abandoned)).dispatches := by
  unfold Bridge.abandoned
  cases v.first d <;> exact recovered_dispatches _ _

theorem abandoned_attempts (v : Bridge) (d : Nat) (r : String) :
    (v.abandoned d r).attempts = v.attempts := by
  unfold Bridge.abandoned
  cases v.first d <;> exact recovered_attempts _ _

theorem recovered_stages (v : Bridge) (r r' : String) :
    (v.recovered r).stages r' =
      if r' = r then (v.stages r').map fun stage =>
        if stage.state.engaged then stage.entered .recoveryRequired else stage
      else v.stages r' := by
  unfold Bridge.recovered
  cases listed : v.stages r with
  | none =>
    by_cases same : r' = r
    · simp [same, listed]
    · simp [same]
  | some stage =>
    by_cases engaged : stage.state.engaged = true
    · by_cases same : r' = r
      · simp [engaged, enter_stages, same, listed]
      · simp [engaged, enter_stages, same]
    · by_cases same : r' = r
      · simp [engaged, same, listed]
      · simp [engaged, same]

theorem abandoned_stages (v : Bridge) (d : Nat) (r r' : String) :
    (v.abandoned d r).stages r' =
      if r' = r then (v.stages r').map fun stage =>
        if stage.state.engaged then stage.entered .recoveryRequired else stage
      else v.stages r' := by
  unfold Bridge.abandoned
  cases v.first d <;> exact recovered_stages _ _ _

theorem recovered_kept {idle : Prop} (stage : StageView) (left : idle) :
    StageKept idle stage
      (if stage.state.engaged then stage.entered .recoveryRequired else stage) := by
  by_cases engaged : stage.state.engaged = true
  · rw [if_pos engaged]
    refine ⟨rfl, .inr rfl, ?_, fun _ => .inl left⟩
    intro checked
    have claimed : stage.state ≠ .waitingForParent := by
      intro waits
      simp [waits, StageState.engaged] at engaged
    simp [StageView.entered, checked, claimed]
  · rw [if_neg engaged]
    exact StageKept.refl idle stage

theorem abandoned_amends (inv : Exclusive v) (found : v.dispatches d = some x)
    (current : x.state.isOpen = true) : Amends v (v.abandoned d x.runId) where
  dispatches := by
    intro d' x' found'
    rw [abandoned_dispatches] at found'
    exact closed_dispatches rfl found'
  attempts := abandoned_attempts v d x.runId
  stages := by
    intro r'
    rw [abandoned_stages]
    split_ifs with same
    · apply rel_of_mapped
      intro stage _
      apply recovered_kept
      rw [same]
      unfold Idle
      rw [abandoned_dispatches]
      exact idle_closed inv found current rfl
    · exact rel_refl _ _

theorem raised_amends (inv : Exclusive v) (found : v.dispatches d = some x)
    (current : x.state = .dispatched) (i : String) : Amends v (v.raised x.runId i d) := by
  have isOpen : x.state.isOpen = true := by simp [current, DispatchState.isOpen]
  apply amends_of_enter
  · intro d' x' found'
    apply mapped_dispatches _ found'
    intro y before
    cases found.symm.trans before
    exact ⟨rfl, rfl, fun _ => isOpen⟩
  · rfl
  · rfl
  · intro stage listed
    obtain ⟨stage', listed', engaged, _⟩ := inv.engaged found isOpen
    cases listed.symm.trans listed'
    refine ⟨rfl, .inr rfl, ?_, fun _ => .inr ⟨rfl, rfl⟩⟩
    intro checked
    have claimed : stage.state ≠ .waitingForParent := by
      intro waits
      simp [waits, StageState.engaged] at engaged
    simp [StageView.entered, checked, claimed]

theorem answered_open (dispatch : DispatchView) :
    dispatch.answered.state.isOpen = dispatch.state.isOpen := by
  unfold DispatchView.answered
  split_ifs with waits
  · simp [DispatchView.entered, waits, DispatchState.isOpen]
  · rfl

theorem answered_kept (idle : Prop) (stage : StageView) :
    StageKept idle stage stage.answered := by
  unfold StageView.answered
  split_ifs with waits
  · refine ⟨rfl, .inr rfl, ?_, fun _ => .inr ⟨rfl, rfl⟩⟩
    intro checked
    simp [StageView.entered, checked, waits]
  · exact StageKept.refl idle stage

theorem answered_amends (v : Bridge) (r i : String) (question : QuestionView) :
    Amends v (v.answered r i question) := by
  apply amends_of_enter
  · intro d' x' found'
    apply mapped_dispatches _ found'
    intro x _
    rw [answered_open]
    unfold DispatchView.answered
    split_ifs <;> exact ⟨rfl, rfl, id⟩
  · rfl
  · rfl
  · intro stage _
    exact answered_kept _ stage

theorem revoked_dispatches (found : (v.revoked r).dispatches d = some x') :
    ∃ x, v.dispatches d = some x ∧ x.runId = x'.runId ∧ x.attemptId = x'.attemptId ∧
      (x'.state.isOpen = true → x.state.isOpen = true ∧ x.runId ≠ r) := by
  obtain ⟨x, before, same⟩ := Option.map_eq_some_iff.mp found
  unfold DispatchView.revoked at same
  split_ifs at same with closes
  · rw [← same]
    exact ⟨x, before, rfl, rfl, fun current => by cases current⟩
  · rw [← same]
    refine ⟨x, before, rfl, rfl, fun current => ⟨current, ?_⟩⟩
    intro own
    exact closes ⟨own, current⟩

theorem idle_revoked (v : Bridge) (r : String) : Idle (v.revoked r) r := by
  intro d x' found own
  obtain ⟨x, _, run, _, still⟩ := revoked_dispatches found
  by_contra current
  exact (still (by simpa using current)).2 (run.trans own)

theorem Acts.amends (acts : Acts v action v') (inv : Exclusive v) (inTime : InTime v action)
    (create : ∀ r, action ≠ .create r) (claim : ∀ r a d, action ≠ .claim r a d) : Amends v v' := by
  have same : ∀ {d x'}, v.dispatches d = some x' → ∃ x, v.dispatches d = some x ∧
      x.runId = x'.runId ∧ x.attemptId = x'.attemptId ∧
        (x'.state.isOpen = true → x.state.isOpen = true) :=
    fun {d x'} found => ⟨x', found, rfl, rfl, id⟩
  cases acts with
  | openRun fresh => exact ⟨same, rfl, fun r => rel_refl _ _⟩
  | create fresh => exact absurd rfl (create _)
  | claim found waits newAttempt newDispatch => exact absurd rfl (claim _ _ _)
  | abandon found current => exact abandoned_amends inv found current
  | release found current unasked =>
    apply amends_of_enter (closed_dispatches rfl) rfl rfl
    intro stage _
    apply waiting_kept
    intro _
    exact idle_closed inv found current rfl
  | fail closable =>
    obtain ⟨x, found, own, late⟩ := inTime
    apply amends_of_enter (closed_dispatches rfl) rfl rfl
    intro stage _
    apply waiting_kept
    intro _
    rw [← own]
    cases closable x found with
    | inl current => exact idle_closed inv found current rfl
    | inr closed =>
      intro d' x' found' run
      obtain ⟨y, before, run', _, wasOpen⟩ := closed_dispatches rfl found'
      by_contra current
      have idle := late closed _ _ before (run'.trans (run.trans own))
      simp [wasOpen (by simpa using current)] at idle
  | raise found current fresh => exact raised_amends inv found current _
  | answer found pending => exact answered_amends _ _ _ _
  | submit found current =>
    exact ⟨closed_dispatches rfl, rfl, fun r => rel_refl _ _⟩
  | settle claimed =>
    apply amends_of_enter same rfl rfl
    intro stage listed
    exact settled_kept (claimed stage listed) inTime
  | finish claimed =>
    refine ⟨same, rfl, fun r' => ?_⟩
    rw [mapStage_stages]
    split_ifs with equal
    · rw [equal]
      apply rel_of_mapped
      intro stage listed
      exact settled_kept (claimed stage listed) inTime
    · exact rel_refl _ _
  | resume found lost =>
    apply amends_of_enter same rfl rfl
    intro stage listed
    cases found.symm.trans listed
    apply waiting_kept
    intro engaged
    simp [lost, StageState.engaged] at engaged
  | cancel found current claimed =>
    apply amends_of_enter
    · intro d x' found'
      obtain ⟨x, before, run, attempt, still⟩ := revoked_dispatches found'
      exact ⟨x, before, run, attempt, fun current => (still current).1⟩
    · rfl
    · rfl
    · intro stage listed
      cases found.symm.trans listed
      exact settled_kept claimed (idle_revoked v _)

theorem Acts.dispatch_kept (acts : Acts v action v') (found : v.dispatches d = some x) :
    ∃ x', v'.dispatches d = some x' ∧ x'.runId = x.runId ∧
      x'.attemptId = x.attemptId := by
  have mapped : ∀ (d' : Nat) (change : DispatchView → DispatchView),
      (∀ x, (change x).runId = x.runId ∧ (change x).attemptId = x.attemptId) →
        ∃ x', (v.mapDispatch d' change).dispatches d = some x' ∧ x'.runId = x.runId ∧
          x'.attemptId = x.attemptId := by
    intro d' change keeps
    rw [mapDispatch_dispatches]
    split_ifs with same
    · exact ⟨change x, by simp [found], keeps x⟩
    · exact ⟨x, found, rfl, rfl⟩
  cases acts with
  | abandon found' current =>
    rw [abandoned_dispatches]
    exact mapped _ _ fun _ => ⟨rfl, rfl⟩
  | claim found' waits newAttempt newDispatch =>
    rename_i r a d' stage
    have other : d ≠ d' := by
      intro same
      rw [← same, found] at newDispatch
      cases newDispatch
    simp [Bridge.claimed, Bridge.enter, Bridge.setRun, Bridge.mapStage, other, found]
  | release => exact mapped _ _ fun _ => ⟨rfl, rfl⟩
  | fail => exact mapped _ _ fun _ => ⟨rfl, rfl⟩
  | raise => exact mapped _ _ fun _ => ⟨rfl, rfl⟩
  | submit => exact mapped _ _ fun _ => ⟨rfl, rfl⟩
  | answer =>
    apply mapped
    intro x
    unfold DispatchView.answered
    split_ifs <;> exact ⟨rfl, rfl⟩
  | cancel =>
    rename_i r stage _ _ _
    refine ⟨x.revoked r, by simp [Bridge.enter, Bridge.setRun, Bridge.mapStage, Bridge.revoked,
      found], ?_⟩
    unfold DispatchView.revoked
    split_ifs <;> exact ⟨rfl, rfl⟩
  | openRun => exact ⟨x, found, rfl, rfl⟩
  | create => exact ⟨x, found, rfl, rfl⟩
  | settle => exact ⟨x, found, rfl, rfl⟩
  | finish => exact ⟨x, found, rfl, rfl⟩
  | resume => exact ⟨x, found, rfl, rfl⟩

def OfRun (v : Bridge) (d : Nat) (r : String) : Prop :=
  ∃ x, v.dispatches d = some x ∧ x.runId = r

theorem Acts.ofRun (acts : Acts v action v') (known : OfRun v d r) : OfRun v' d r := by
  obtain ⟨x, found, own⟩ := known
  obtain ⟨x', found', run, _⟩ := acts.dispatch_kept found
  exact ⟨x', found', run.trans own⟩

theorem Guided.ofRun (course : Guided law v v') (known : OfRun v d r) : OfRun v' d r := by
  induction course with
  | refl => exact known
  | tail _ acts ih =>
    obtain ⟨_, _, acted⟩ := acts
    exact acted.ofRun ih

theorem created_exclusive (inv : Exclusive v) (fresh : v.stages r = none) :
    Exclusive (v.created r) := by
  have kept : ∀ {r' stage}, v.stages r' = some stage → (v.created r).stages r' = some stage := by
    intro r' stage listed
    have other : r' ≠ r := by
      intro same
      simp [same, fresh] at listed
    simp [Bridge.created, Bridge.setRun, other, listed]
  refine ⟨?_, inv.alone, inv.attempted, ?_, ?_⟩
  · intro d x found current
    obtain ⟨stage, listed, rest⟩ := inv.engaged found current
    exact ⟨stage, kept listed, rest⟩
  · intro a r' n found
    obtain ⟨stage, listed, rest⟩ := inv.ordered found
    exact ⟨stage, kept listed, rest⟩
  · intro r' stage listed
    by_cases same : r' = r
    · simp [Bridge.created, Bridge.setRun, same] at listed
      simp [← listed]
    · simp [Bridge.created, Bridge.setRun, same] at listed
      exact inv.checked listed

theorem claimed_stages {a : Nat} (found : v.stages r = some stage) (r' : String) :
    (v.claimed r a d stage).stages r' =
      if r' = r then some (stage.claimed a) else v.stages r' := by
  rw [Bridge.claimed, enter_stages]
  split_ifs with same
  · simp [same, found]
  · rfl

theorem claimed_attempts (v : Bridge) (r : String) (a d : Nat) (stage : StageView) (a' : Nat) :
    (v.claimed r a d stage).attempts a' =
      if a' = a then some (r, stage.count + 1) else v.attempts a' := by
  simp [Bridge.claimed, Bridge.enter, Bridge.setRun, Bridge.mapStage, Function.update_apply]

theorem claimed_exclusive {a : Nat} (inv : Exclusive v) (found : v.stages r = some stage)
    (waits : stage.state = .waitingForParent) (newAttempt : v.attempts a = none) :
    Exclusive (v.claimed r a d stage) := by
  have idle : Idle v r := by
    intro d' x' found' own
    by_contra current
    obtain ⟨stage', listed, engaged, _⟩ := inv.engaged found' (by simpa using current)
    rw [own, found] at listed
    cases listed
    simp [waits, StageState.engaged] at engaged
  have older : ∀ {d' x'}, v.dispatches d' = some x' → x'.attemptId ≠ a := by
    intro d' x' found' same
    obtain ⟨n, known⟩ := inv.attempted found'
    simp [same, newAttempt] at known
  have stages := claimed_stages (a := a) (d := d) found
  have dispatches : ∀ d', (v.claimed r a d stage).dispatches d' =
      if d' = d then some ⟨r, a, .dispatched⟩ else v.dispatches d' := by
    simp [Bridge.claimed, Bridge.enter, Bridge.setRun, Bridge.mapStage, Function.update_apply]
  have attempts := claimed_attempts v r a d stage
  refine ⟨?_, ?_, ?_, ?_, ?_⟩
  · intro d' x' found' current
    rw [dispatches] at found'
    split_ifs at found' with same
    · cases found'
      exact ⟨stage.claimed a, by rw [stages, if_pos rfl], rfl, rfl⟩
    · obtain ⟨stage', listed, rest⟩ := inv.engaged found' current
      have other : x'.runId ≠ r := by
        intro own
        simp [idle d' x' found' own] at current
      exact ⟨stage', by rw [stages, if_neg other, listed], rest⟩
  · intro d₁ d₂ x₁ x₂ found₁ found₂ current₁ current₂ same
    rw [dispatches] at found₁ found₂
    split_ifs at found₁ found₂ with first second second
    · rw [first, second]
    · cases found₁
      exact absurd same.symm (older found₂)
    · cases found₂
      exact absurd same (older found₁)
    · exact inv.alone found₁ found₂ current₁ current₂ same
  · intro d' x' found'
    rw [dispatches] at found'
    rw [attempts]
    split_ifs at found' with same
    · cases found'
      exact ⟨_, if_pos rfl⟩
    · rw [if_neg (older found')]
      exact inv.attempted found'
  · intro a' r' n known
    rw [attempts] at known
    rw [stages]
    split_ifs at known with same
    · cases known
      exact ⟨stage.claimed a, if_pos rfl, le_refl _, fun _ => rfl⟩
    · obtain ⟨stage', listed, bounded, last⟩ := inv.ordered known
      by_cases own : r' = r
      · rw [own, found] at listed
        cases listed
        refine ⟨stage.claimed a, if_pos own, Nat.le_succ_of_le bounded, ?_⟩
        intro held
        exact absurd (Option.some.inj held).symm same
      · exact ⟨stage', by rw [if_neg own, listed], bounded, last⟩
  · intro r' stage' listed
    rw [stages] at listed
    split_ifs at listed with same
    · cases listed
      simp [StageView.claimed]
    · exact inv.checked listed

theorem Exclusive.acted (inv : Exclusive v) (acts : Acts v action v') (inTime : InTime v action) :
    Exclusive v' := by
  by_cases creates : ∃ r, action = .create r
  · obtain ⟨r, same⟩ := creates
    cases same
    cases acts with
    | create fresh => exact created_exclusive inv fresh
  · by_cases claims : ∃ r a d, action = .claim r a d
    · obtain ⟨r, a, d, same⟩ := claims
      cases same
      cases acts with
      | claim found waits newAttempt newDispatch =>
        exact claimed_exclusive inv found waits newAttempt
    · apply inv.amended
      apply acts.amends inv inTime
      · intro r same
        exact creates ⟨r, same⟩
      · intro r a d same
        exact claims ⟨r, a, d, same⟩

end Heniek.BridgeModel
