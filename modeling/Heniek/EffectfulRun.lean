import Mathlib.Logic.Relation

/-!
Computations over a state that may throw and whose effects stay when they do.
`Ensures` relates the states before to the states after, with one postcondition
for a returned value and one for a throw, and has a rule for each way of
building a computation. A transaction is the exception: it throws without an
effect.
-/

namespace EffectfulRun

variable {ε σ τ α β : Type}

def Effect (ε σ α : Type) : Type := σ → Except ε α × σ

namespace Effect

def pure (a : α) : Effect ε σ α := fun s => (.ok a, s)

def bind (x : Effect ε σ α) (f : α → Effect ε σ β) : Effect ε σ β := fun s =>
  match x s with
  | (.ok a, s') => f a s'
  | (.error e, s') => (.error e, s')

instance : Monad (Effect ε σ) where
  pure := pure
  bind := bind

def throw (e : ε) : Effect ε σ α := fun s => (.error e, s)

def read (f : σ → α) : Effect ε σ α := fun s => (.ok (f s), s)

def modify (f : σ → σ) : Effect ε σ Unit := fun s => (.ok (), f s)

def transact (f : σ → Except ε (α × σ)) : Effect ε σ α := fun s =>
  match f s with
  | .ok (a, s') => (.ok a, s')
  | .error e => (.error e, s)

/-- The computation with its outcome as a value. -/
def attempt (x : Effect ε σ α) : Effect ε σ (Except ε α) := fun s => (.ok (x s).1, (x s).2)

def forEach (f : β → Effect ε σ Unit) : List β → Effect ε σ Unit
  | [] => pure ()
  | b :: bs => bind (f b) fun _ => forEach f bs

def mapEach (f : β → Effect ε σ α) : List β → Effect ε σ (List α)
  | [] => pure []
  | b :: bs => bind (f b) fun a => bind (mapEach f bs) fun as => pure (a :: as)

/-- A computation on a part of the state, with what it throws as the whole has it. -/
def within {δ : Type} (get : τ → σ) (set : τ → σ → τ) (lift : ε → δ) (x : Effect ε σ α) :
    Effect δ τ α := fun t =>
  ((x (get t)).1.mapError lift, set t (x (get t)).2)

end Effect

/-- From a state in `P` the computation returns a value and a state in `Q`, or throws in `E`. -/
def Ensures (P : σ → Prop) (x : Effect ε σ α) (Q : α → σ → Prop) (E : σ → Prop) : Prop :=
  ∀ s, P s → (∀ a, (x s).1 = .ok a → Q a (x s).2) ∧ (∀ e, (x s).1 = .error e → E (x s).2)

/-- From a state in `P` the computation returns or throws in `P`. -/
abbrev Preserves (P : σ → Prop) (x : Effect ε σ α) : Prop := Ensures P x (fun _ => P) P

namespace Ensures

variable {P P' : σ → Prop} {Q Q' : α → σ → Prop} {R : β → σ → Prop} {E E' : σ → Prop}
variable {x : Effect ε σ α} {f : α → Effect ε σ β}

theorem pure {a : α} (holds : ∀ s, P s → Q a s) : Ensures P (Effect.pure a : Effect ε σ α) Q E := by
  intro s start
  refine ⟨?_, nofun⟩
  rintro _ ⟨rfl⟩
  exact holds s start

theorem throw {e : ε} (holds : ∀ s, P s → E s) : Ensures P (Effect.throw e : Effect ε σ α) Q E := by
  intro s start
  refine ⟨nofun, ?_⟩
  rintro _ ⟨rfl⟩
  exact holds s start

theorem read {g : σ → α} (holds : ∀ s, P s → Q (g s) s) :
    Ensures P (Effect.read g : Effect ε σ α) Q E := by
  intro s start
  refine ⟨?_, nofun⟩
  rintro _ ⟨rfl⟩
  exact holds s start

theorem modify {g : σ → σ} {Q : Unit → σ → Prop} (holds : ∀ s, P s → Q () (g s)) :
    Ensures P (Effect.modify g : Effect ε σ Unit) Q E := by
  intro s start
  refine ⟨?_, nofun⟩
  rintro _ ⟨rfl⟩
  exact holds s start

theorem transact {g : σ → Except ε (α × σ)}
    (holds : ∀ s a s', P s → g s = .ok (a, s') → Q a s') (throws : ∀ s, P s → E s) :
    Ensures P (Effect.transact g) Q E := by
  intro s start
  unfold Effect.transact
  cases ran : g s with
  | ok result =>
    refine ⟨?_, nofun⟩
    rintro _ ⟨rfl⟩
    exact holds s result.1 result.2 start ran
  | error e =>
    refine ⟨nofun, ?_⟩
    rintro _ ⟨rfl⟩
    exact throws s start

theorem bind (first : Ensures P x Q E) (rest : ∀ a, Ensures (Q a) (f a) R E) :
    Ensures P (Effect.bind x f) R E := by
  intro s start
  obtain ⟨returns, throws⟩ := first s start
  unfold Effect.bind
  rcases ran : x s with ⟨result, s'⟩
  rw [ran] at returns throws
  cases result with
  | ok a => exact rest a s' (returns a rfl)
  | error e =>
    refine ⟨nofun, ?_⟩
    rintro _ ⟨rfl⟩
    exact throws e rfl

theorem pure_kept {a : α} : Ensures P (Effect.pure a : Effect ε σ α) (fun _ => P) E :=
  pure fun _ holds => holds

theorem read_kept {g : σ → α} : Ensures P (Effect.read g : Effect ε σ α) (fun _ => P) E :=
  read fun _ holds => holds

theorem attempt {R : Except ε α → σ → Prop} (ran : Ensures P x Q E)
    (returned : ∀ a s, Q a s → R (.ok a) s) (thrown : ∀ e s, E s → R (.error e) s) :
    Ensures P (Effect.attempt x) R E' := by
  intro s start
  obtain ⟨returns, throws⟩ := ran s start
  refine ⟨?_, nofun⟩
  rintro _ ⟨rfl⟩
  change R (x s).1 (x s).2
  cases outcome : (x s).1 with
  | ok a => exact returned a _ (returns a outcome)
  | error e => exact thrown e _ (throws e outcome)

theorem mono (ran : Ensures P x Q E) (pre : ∀ s, P' s → P s) (post : ∀ a s, Q a s → Q' a s)
    (thrown : ∀ s, E s → E' s) : Ensures P' x Q' E' := by
  intro s start
  obtain ⟨returns, throws⟩ := ran s (pre s start)
  exact ⟨fun a same => post a _ (returns a same), fun e same => thrown _ (throws e same)⟩

theorem weaken (ran : Ensures P x Q E) (post : ∀ a s, Q a s → Q' a s) : Ensures P x Q' E :=
  ran.mono (fun _ holds => holds) post fun _ holds => holds

/-- A fact about the values so far may be taken out of the precondition. -/
theorem given {p : Prop} (ran : p → Ensures P x Q E) : Ensures (fun s => p ∧ P s) x Q E :=
  fun s start => ran start.1 s start.2

theorem forEach {I : σ → Prop} {g : β → Effect ε σ Unit} {bs : List β}
    (step : ∀ b ∈ bs, Ensures I (g b) (fun _ => I) E) :
    Ensures I (Effect.forEach g bs) (fun _ => I) E := by
  induction bs with
  | nil => exact Ensures.pure_kept
  | cons b bs ih =>
    refine (step b List.mem_cons_self).bind fun _ => ih ?_
    exact fun later member => step later (List.mem_cons_of_mem b member)

theorem mapEach {I : σ → Prop} {r : β → α → Prop} {g : β → Effect ε σ α} {bs : List β}
    (step : ∀ b ∈ bs, Ensures I (g b) (fun a s => r b a ∧ I s) E) :
    Ensures I (Effect.mapEach g bs)
      (fun as s => ((∀ b ∈ bs, ∃ a ∈ as, r b a) ∧ ∀ a ∈ as, ∃ b ∈ bs, r b a) ∧ I s) E := by
  induction bs with
  | nil => exact Ensures.pure fun _ holds => ⟨⟨nofun, nofun⟩, holds⟩
  | cons b bs ih =>
    refine (step b List.mem_cons_self).bind fun a => ?_
    refine Ensures.given fun related => ?_
    refine Ensures.bind (ih fun later member => step later (List.mem_cons_of_mem b member)) ?_
    intro as
    refine Ensures.pure fun _ holds => ⟨⟨?_, ?_⟩, holds.2⟩
    · intro later member
      rcases List.mem_cons.mp member with rfl | inRest
      · exact ⟨a, List.mem_cons_self, related⟩
      · obtain ⟨image, inImages, relatedRest⟩ := holds.1.1 later inRest
        exact ⟨image, List.mem_cons_of_mem a inImages, relatedRest⟩
    · intro later member
      rcases List.mem_cons.mp member with rfl | inRest
      · exact ⟨b, List.mem_cons_self, related⟩
      · obtain ⟨source, inSources, relatedRest⟩ := holds.1.2 later inRest
        exact ⟨source, List.mem_cons_of_mem b inSources, relatedRest⟩

theorem within {δ : Type} {get : τ → σ} {set : τ → σ → τ} {lift : ε → δ} {P E : τ → Prop}
    (final : ∀ t, P t → E (set t (x (get t)).2)) :
    Ensures P (Effect.within get set lift x) (fun _ => E) E := by
  intro t start
  exact ⟨fun _ _ => final t start, fun _ _ => final t start⟩

end Ensures

theorem ensures_final {P E : σ → Prop} {x : Effect ε σ α} {s : σ}
    (ran : Ensures P x (fun _ => E) E) (start : P s) : E (x s).2 := by
  obtain ⟨returns, throws⟩ := ran s start
  cases outcome : (x s).1 with
  | ok a => exact returns a outcome
  | error e => exact throws e outcome

end EffectfulRun
