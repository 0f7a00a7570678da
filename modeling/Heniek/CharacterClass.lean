import Mathlib.Computability.RegularExpressions

/-!
Classes of characters as regular expressions, and the segments of a text between
the occurrences of a separator.
-/

namespace CharacterClass
open RegularExpression Computability

variable {α : Type*}

def oneOf (members : List α) : RegularExpression α :=
  (members.map RegularExpression.char).sum

@[simp]
theorem mem_oneOf {members : List α} {text : List α} :
    text ∈ (oneOf members).matches' ↔ ∃ c ∈ members, text = [c] := by
  induction members with
  | nil => exact ⟨False.elim, by simp⟩
  | cons c members ih =>
    have unfolded : oneOf (c :: members) = RegularExpression.char c + oneOf members := by
      simp [oneOf]
    rw [unfolded, matches'_add, Language.mem_add, ih]
    simp only [List.mem_cons, exists_eq_or_imp]
    exact Iff.rfl

theorem mem_star_oneOf {members text : List α} :
    text ∈ (oneOf members).star.matches' ↔ ∀ c ∈ text, c ∈ members := by
  constructor
  · rintro ⟨parts, rfl, classed⟩ c listed
    obtain ⟨part, part_mem, c_mem⟩ := List.mem_flatten.mp listed
    obtain ⟨d, d_mem, rfl⟩ := mem_oneOf.mp (classed part part_mem)
    rwa [List.mem_singleton.mp c_mem]
  · intro classed
    refine ⟨text.map fun c => [c], (List.flatMap_singleton' text).symm, ?_⟩
    intro part listed
    obtain ⟨c, c_mem, rfl⟩ := List.mem_map.mp listed
    exact mem_oneOf.mpr ⟨c, classed c c_mem, rfl⟩

theorem mem_of_mem_star {pattern : RegularExpression α} {members text : List α}
    (classed : ∀ part ∈ pattern.matches', ∀ c ∈ part, c ∈ members)
    (matched : text ∈ pattern.star.matches') : ∀ c ∈ text, c ∈ members := by
  obtain ⟨parts, rfl, each⟩ := matched
  intro c listed
  obtain ⟨part, part_mem, c_mem⟩ := List.mem_flatten.mp listed
  exact classed part (each part part_mem) c c_mem

section Segments

variable [DecidableEq α] {a : α}
variable {text : List α}

theorem mem_of_mem_segment {segment : List α} (listed : segment ∈ text.splitOn a) {c : α}
    (member : c ∈ segment) : c ∈ text ∧ c ≠ a := by
  induction text generalizing segment with
  | nil =>
    rw [List.splitOn_nil, List.mem_singleton] at listed
    simp [listed] at member
  | cons x text ih =>
    rw [List.splitOn_cons_eq_if_modifyHead] at listed
    split_ifs at listed with same
    · rcases List.mem_cons.mp listed with rfl | later
      · simp at member
      · have inside := ih later member
        exact ⟨List.mem_cons_of_mem _ inside.1, inside.2⟩
    · cases parts : text.splitOn a with
      | nil => exact absurd parts (List.splitOn_ne_nil a text)
      | cons head tail =>
        rw [parts] at ih listed
        rcases List.mem_cons.mp listed with rfl | later
        · rcases List.mem_cons.mp member with rfl | inner
          · exact ⟨List.mem_cons_self, by simpa using same⟩
          · have inside := ih List.mem_cons_self inner
            exact ⟨List.mem_cons_of_mem _ inside.1, inside.2⟩
        · have inside := ih (List.mem_cons_of_mem _ later) member
          exact ⟨List.mem_cons_of_mem _ inside.1, inside.2⟩

theorem nil_mem_splitOn :
    [] ∈ text.splitOn a ↔ text = [] ∨ [a] <+: text ∨ [] ∈ (text.splitOn a).tail := by
  cases text with
  | nil => simp
  | cons x text =>
    rw [List.splitOn_cons_eq_if_modifyHead]
    by_cases same : x = a
    · simp [same]
    · cases parts : text.splitOn a with
      | nil => exact absurd parts (List.splitOn_ne_nil a text)
      | cons head tail => simp [same, Ne.symm same]

/-- A segment after the first is empty just where a separator ends the text or follows another. -/
theorem nil_mem_tail_splitOn : [] ∈ (text.splitOn a).tail ↔ [a] <:+ text ∨ [a, a] <:+: text := by
  induction text with
  | nil => simp
  | cons x text ih =>
    rw [List.splitOn_cons_eq_if_modifyHead, List.suffix_cons_iff, List.infix_cons_iff]
    by_cases same : x = a
    · simp only [same, beq_self_eq_true, if_true, List.tail_cons, nil_mem_splitOn,
        List.cons.injEq, List.cons_prefix_cons]
      tauto
    · simp [same, Ne.symm same, ih]

end Segments

end CharacterClass
