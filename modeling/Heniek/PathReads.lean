import Heniek.CanonicalState

/-!
What a condition reads at a path, without the prefix that it reports as missing.
-/

namespace Heniek.PathReads
open CanonicalState ExpressionEvaluation

/-- What a condition reads at a path, the missing prefix forgotten. -/
def readable (value : JsonValue) (path : List String) : Option JsonValue :=
  (readPath value [] path).getLeft?

theorem getLeft?_readPath (value : JsonValue) (seen path : List String) :
    (readPath value seen path).getLeft? = readable value path := by
  suffices any : ∀ seen seen', (readPath value seen path).getLeft? =
      (readPath value seen' path).getLeft? from any seen []
  induction path generalizing value with
  | nil => intro seen seen'; simp only [readPath]
  | cons segment rest ih =>
    intro seen seen'
    cases value with
    | array items =>
      simp only [readPath]
      by_cases length : segment = "length"
      · rw [if_pos length, if_pos length]
        exact ih _ _ _
      · rw [if_neg length, if_neg length]
        rfl
    | object members =>
      simp only [readPath]
      cases members.find? fun member => member.1 = segment with
      | none => rfl
      | some member => exact ih _ _ _
    | null => rfl
    | bool => rfl
    | number => rfl
    | string => rfl

theorem readPath_eq_inl {value found : JsonValue} {seen path : List String} :
    readPath value seen path = .inl found ↔ readable value path = some found := by
  rw [← getLeft?_readPath value seen path]
  cases readPath value seen path <;> simp

@[simp] theorem readable_nil (value : JsonValue) : readable value [] = some value := by
  simp [readable, readPath]

theorem readable_object (members : Members) (segment : String) (rest : List String) :
    readable (.object members) (segment :: rest) =
      (property? members segment).bind fun inner => readable inner rest := by
  rw [readable, readPath, property?]
  cases members.find? fun member => member.1 = segment with
  | none => rfl
  | some member => exact getLeft?_readPath _ _ _

theorem readable_empty {path : List String} (nonempty : path ≠ []) :
    readable (.object []) path = none := by
  cases path with
  | nil => exact absurd rfl nonempty
  | cons => rfl

end Heniek.PathReads
