import Mathlib.Logic.Relation

/-!
Rules for computations that may throw: what a successful bind or fold went
through, which errors are possible, and invariants along the
reflexive-transitive closure of a step relation.
-/

namespace FallibleRun

variable {ε α β γ : Type}
variable {x : Except ε α} {b c : β} {a : α} {f : β → α → Except ε β} {l : List α} {r : β → β → Prop}
  {P : β → Prop}

theorem bind_eq_ok {f : α → Except ε β} : (x >>= f) = .ok b ↔ ∃ a, x = .ok a ∧ f a = .ok b := by
  cases x with
  | error e =>
    constructor
    · intro impossible
      cases impossible
    · rintro ⟨a, impossible, _⟩
      cases impossible
  | ok a =>
    constructor
    · intro same
      exact ⟨a, rfl, same⟩
    · rintro ⟨_, ⟨rfl⟩, same⟩
      exact same

theorem map_eq_ok {f : α → β} : x.map f = .ok b ↔ ∃ a, x = .ok a ∧ f a = b := by
  cases x with
  | error e => simp [Except.map]
  | ok a => simp [Except.map]

theorem mapError_eq_ok {δ : Type} {f : ε → δ} : x.mapError f = .ok a ↔ x = .ok a := by
  cases x with
  | error e => constructor <;> nofun
  | ok b =>
    constructor
    · intro same
      cases same
      rfl
    · intro same
      cases same
      rfl

theorem foldlM_cons_eq_ok :
    (a :: l).foldlM f b = .ok c ↔ ∃ m, f b a = .ok m ∧ l.foldlM f m = .ok c := by
  rw [List.foldlM_cons, bind_eq_ok]

theorem foldlM_concat_eq_ok :
    (l ++ [a]).foldlM f b = .ok c ↔ ∃ m, l.foldlM f b = .ok m ∧ f m a = .ok c := by
  rw [List.foldlM_append, bind_eq_ok]
  simp only [foldlM_cons_eq_ok, List.foldlM_nil, pure, Except.pure, Except.ok.injEq,
    exists_eq_right]

/-- A fold of computations that each run along `r` runs along `r`. -/
theorem foldlM_steps_prefix
    (step : ∀ done a rest m n, l = done ++ a :: rest → done.foldlM f b = .ok m →
      f m a = .ok n → Relation.ReflTransGen r m n)
    (folded : l.foldlM f b = .ok c) : Relation.ReflTransGen r b c := by
  induction l generalizing b with
  | nil =>
    cases folded
    exact Relation.ReflTransGen.refl
  | cons a l ih =>
    obtain ⟨m, first, rest⟩ := foldlM_cons_eq_ok.mp folded
    have later : Relation.ReflTransGen r m c := by
      refine ih ?_ rest
      intro done a' rest' m' n split before after
      refine step (a :: done) a' rest' m' n (by rw [split, List.cons_append]) ?_ after
      exact foldlM_cons_eq_ok.mpr ⟨m, first, before⟩
    exact (step [] a l b m rfl rfl first).trans later

theorem foldlM_steps (step : ∀ a ∈ l, ∀ b c, f b a = .ok c → Relation.ReflTransGen r b c)
    (folded : l.foldlM f b = .ok c) : Relation.ReflTransGen r b c := by
  refine foldlM_steps_prefix (fun done a rest m n split _ ran => ?_) folded
  exact step a (by simp [split]) m n ran

theorem foldlM_invariant (step : ∀ a ∈ l, ∀ b c, P b → f b a = .ok c → P c) (initial : P b)
    (folded : l.foldlM f b = .ok c) : P c := by
  induction l generalizing b with
  | nil =>
    cases folded
    exact initial
  | cons a l ih =>
    obtain ⟨m, first, rest⟩ := foldlM_cons_eq_ok.mp folded
    exact ih (fun a' ha' => step a' (List.mem_cons_of_mem a ha'))
      (step a List.mem_cons_self b m initial first) rest

theorem foldlM_total (step : ∀ a ∈ l, ∀ b, P b → ∃ c, f b a = .ok c ∧ P c) (initial : P b) :
    ∃ c, l.foldlM f b = .ok c ∧ P c := by
  induction l generalizing b with
  | nil => exact ⟨b, rfl, initial⟩
  | cons a l ih =>
    obtain ⟨m, first, holds⟩ := step a List.mem_cons_self b initial
    obtain ⟨c, rest, final⟩ := ih (fun a' ha' => step a' (List.mem_cons_of_mem a ha')) holds
    exact ⟨c, foldlM_cons_eq_ok.mpr ⟨m, first, rest⟩, final⟩

/-- A loop of checks that ends has made each of them. -/
theorem forM_ok {f : α → Except ε Unit} (ran : l.forM f = .ok ()) : ∀ a ∈ l, f a = .ok () := by
  induction l with
  | nil => simp
  | cons a l ih =>
    obtain ⟨⟨⟩, first, rest⟩ := bind_eq_ok.mp ran
    exact List.forall_mem_cons.mpr ⟨first, ih rest⟩

theorem foldlM_fixed {size : β → Nat}
    (grows : ∀ a ∈ l, ∀ b c, f b a = .ok c → c = b ∨ size b < size c)
    (folded : l.foldlM f b = .ok c) (still : size c ≤ size b) : c = b ∧ ∀ a ∈ l, f b a = .ok b := by
  induction l generalizing b with
  | nil =>
    cases folded
    exact ⟨rfl, by simp⟩
  | cons a l ih =>
    obtain ⟨m, first, rest⟩ := foldlM_cons_eq_ok.mp folded
    have later := fun a' ha' => grows a' (List.mem_cons_of_mem a ha')
    have larger : size m ≤ size c := by
      refine foldlM_invariant (P := fun x => size m ≤ size x) ?_ (Nat.le_refl _) rest
      intro a' ha' x y above stepped
      rcases later a' ha' x y stepped with rfl | grown
      · exact above
      · omega
    rcases grows a List.mem_cons_self b m first with rfl | grown
    · obtain ⟨same, others⟩ := ih later rest still
      exact ⟨same, List.forall_mem_cons.mpr ⟨first, others⟩⟩
    · omega

theorem steps_invariant (step : ∀ b c, P b → r b c → P c) (initial : P b)
    (run : Relation.ReflTransGen r b c) : P c := by
  induction run with
  | refl => exact initial
  | tail _ last ih => exact step _ _ ih last

def ThrowsOnly (allowed : ε → Prop) (x : Except ε α) : Prop := ∀ e, x = .error e → allowed e

variable {allowed : ε → Prop}

theorem throwsOnly_ok (a : α) : ThrowsOnly allowed (.ok a : Except ε α) := nofun

theorem throwsOnly_error {e : ε} (h : allowed e) : ThrowsOnly allowed (.error e : Except ε α) := by
  intro other same
  cases same
  exact h

theorem ThrowsOnly.bind {f : α → Except ε β} (first : ThrowsOnly allowed x)
    (rest : ∀ a, x = .ok a → ThrowsOnly allowed (f a)) : ThrowsOnly allowed (x >>= f) := by
  cases x with
  | error e =>
    intro other same
    cases same
    exact first e rfl
  | ok a => exact rest a rfl

theorem ThrowsOnly.map (f : α → β) (first : ThrowsOnly allowed x) :
    ThrowsOnly allowed (x.map f) := by
  cases x with
  | error e =>
    intro other same
    cases same
    exact first e rfl
  | ok a => exact throwsOnly_ok _

theorem ThrowsOnly.foldlM (each : ∀ a ∈ l, ∀ b, P b → ThrowsOnly allowed (f b a))
    (keeps : ∀ a ∈ l, ∀ b c, P b → f b a = .ok c → P c) (initial : P b) :
    ThrowsOnly allowed (l.foldlM f b) := by
  induction l generalizing b with
  | nil => exact throwsOnly_ok b
  | cons a l ih =>
    rw [List.foldlM_cons]
    refine (each a List.mem_cons_self b initial).bind ?_
    intro c stepped
    exact ih (fun a' ha' => each a' (List.mem_cons_of_mem a ha'))
      (fun a' ha' => keeps a' (List.mem_cons_of_mem a ha'))
      (keeps a List.mem_cons_self b c initial stepped)

end FallibleRun
