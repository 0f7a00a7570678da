import Mathlib.Data.List.Sort
import Mathlib.Data.List.Infix

/-!
Insertion sort keeps the order of the elements it does not separate, and a list sorted
by a strict order begins with every sorted part of it that comes before the rest.
-/

namespace StableOrder

variable {α : Type*}

/-- What a list sorted by `r` is sorted by, when it was sorted by `s` before. -/
def Refined (r s : α → α → Prop) (a b : α) : Prop := r a b ∧ (r b a → s a b)

section Insertion

variable {r s : α → α → Prop} [DecidableRel r]
variable {l : List α}

theorem pairwise_orderedInsert (total : ∀ a b, r a b ∨ r b a)
    (trans : ∀ a b c, r a b → r b c → r a c) {a : α} (sorted : l.Pairwise (Refined r s))
    (first : ∀ b ∈ l, s a b) : (l.orderedInsert r a).Pairwise (Refined r s) := by
  induction l with
  | nil => simp
  | cons b l ih =>
    rw [List.pairwise_cons] at sorted
    rw [List.orderedInsert_cons]
    split
    · rename_i here
      refine List.pairwise_cons.mpr ⟨?_, List.pairwise_cons.mpr sorted⟩
      intro c member
      refine ⟨?_, fun _ => first c member⟩
      rcases List.mem_cons.mp member with rfl | inRest
      · exact here
      · exact trans a b c here (sorted.1 c inRest).1
    · rename_i later
      refine List.pairwise_cons.mpr
        ⟨?_, ih sorted.2 fun c member => first c (List.mem_cons_of_mem b member)⟩
      intro c member
      rcases (List.mem_orderedInsert r).mp member with rfl | inRest
      · exact ⟨(total c b).resolve_left later, fun clash => absurd clash later⟩
      · exact sorted.1 c inRest

theorem pairwise_insertionSort (total : ∀ a b, r a b ∨ r b a)
    (trans : ∀ a b c, r a b → r b c → r a c) (listed : l.Pairwise s) :
    (l.insertionSort r).Pairwise (Refined r s) := by
  induction l with
  | nil => simp
  | cons a l ih =>
    rw [List.pairwise_cons] at listed
    refine pairwise_orderedInsert total trans (ih listed.2) ?_
    exact fun b member => listed.1 b ((List.mem_insertionSort r).mp member)

theorem pairwise_sorted (total : ∀ a b, r a b ∨ r b a) (trans : ∀ a b c, r a b → r b c → r a c)
    (l : List α) : (l.insertionSort r).Pairwise r := by
  have listed : l.Pairwise fun _ _ => True := List.pairwise_of_forall fun _ _ => trivial
  exact (pairwise_insertionSort total trans listed).imp And.left

theorem insertionSort_of_perm (total : ∀ a b, r a b ∨ r b a)
    (trans : ∀ a b c, r a b → r b c → r a c) {l' : List α} (same : l.Perm l')
    (apart : ∀ a ∈ l, ∀ b ∈ l, r a b → r b a → a = b) : l.insertionSort r = l'.insertionSort r := by
  have sorted := pairwise_sorted (r := r) total trans
  refine List.Perm.eq_of_pairwise ?_ (sorted l) (sorted l') ?_
  · intro a b member member'
    rw [List.mem_insertionSort] at member member'
    exact apart a member b (same.mem_iff.mpr member')
  · exact ((List.perm_insertionSort r l).trans same).trans (List.perm_insertionSort r l').symm

end Insertion

theorem prefix_of_pairwise {r : α → α → Prop} (asymm : ∀ a b, r a b → ¬ r b a)
    {part whole : List α} (sortedPart : part.Pairwise r) (sortedWhole : whole.Pairwise r)
    (contained : ∀ a ∈ part, a ∈ whole) (rest : ∀ a ∈ part, ∀ b ∈ whole, b ∉ part → r a b) :
    part <+: whole := by
  induction part generalizing whole with
  | nil => exact List.nil_prefix
  | cons a part ih =>
    rw [List.pairwise_cons] at sortedPart
    cases whole with
    | nil => exact absurd (contained a List.mem_cons_self) List.not_mem_nil
    | cons b whole =>
      rw [List.pairwise_cons] at sortedWhole
      have same : a = b := by
        rcases List.mem_cons.mp (contained a List.mem_cons_self) with same | inWhole
        · exact same
        · have before := sortedWhole.1 a inWhole
          by_cases inPart : b ∈ a :: part
          · rcases List.mem_cons.mp inPart with same | later
            · exact same.symm
            · exact absurd before (asymm a b (sortedPart.1 b later))
          · exact absurd before
              (asymm a b (rest a List.mem_cons_self b List.mem_cons_self inPart))
      subst same
      have different : ∀ c, r a c → c ≠ a := by
        rintro c after rfl
        exact asymm c c after after
      refine List.cons_prefix_cons.mpr ⟨rfl, ih sortedPart.2 sortedWhole.2 ?_ ?_⟩
      · intro c member
        rcases List.mem_cons.mp (contained c (List.mem_cons_of_mem a member)) with same | inWhole
        · exact absurd same (different c (sortedPart.1 c member))
        · exact inWhole
      · intro c member d inWhole outside
        refine rest c (List.mem_cons_of_mem a member) d (List.mem_cons_of_mem a inWhole) ?_
        rw [List.mem_cons, not_or]
        exact ⟨different d (sortedWhole.1 d inWhole), outside⟩

end StableOrder
