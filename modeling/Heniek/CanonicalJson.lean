import Heniek.CanonicalState
import Heniek.RecoveryPolicy

/-!
The canonical serialisation of payloads. An object is the list of its members in
the order in which its keys are enumerated: array indices in ascending order, then
the other keys as they were defined. The text of a number is the one part of a
serialisation that is not spelled out here.
-/

namespace Heniek.CanonicalJson
open ExpressionEvaluation CanonicalState ScriptText FallibleRun
open RecoveryPolicy (quote)

def maxDepth : Nat := 64

def rank (key : List Nat) : Nat := (arrayIndex? key).getD (2 ^ 32 - 1)

/-- Members in the order in which an object enumerates them, once defined in the given order. -/
def enumerate {β : Type} (members : List (String × β)) : List (String × β) :=
  members.insertionSort fun a b => rank (codeUnits a.1) ≤ rank (codeUnits b.1)

/-- The members once each value is there, or what the first of the values threw. -/
def settle : List (String × Except String JsonValue) → Except String Members
  | [] => .ok []
  | (key, result) :: rest => do
      let value ← result
      let members ← settle rest
      .ok ((key, value) :: members)

def within {α : Type} (what : String) (depth : Nat) (result : Except String α) : Except String α :=
  if maxDepth ≤ depth then
    .error (what ++ ": recursion depth exceeded " ++ toString maxDepth)
  else result

def canonicalNumber : JsonNumber → Except String JsonNumber
  | .finite value => .ok (.finite value)
  | .negativeZero => .ok (.finite 0)
  | .notFinite negative =>
    .error ("canonicalize: value is not a finite number (" ++
      (if negative then "-Infinity" else "Infinity") ++ ")")
  | .nan => .error "canonicalize: value is not a finite number (NaN)"

mutual

def canonicalize : (depth : Nat) → JsonValue → Except String JsonValue
  | depth, .null => within "canonicalize" depth (.ok .null)
  | depth, .bool value => within "canonicalize" depth (.ok (.bool value))
  | depth, .number value => within "canonicalize" depth ((canonicalNumber value).map .number)
  | depth, .string value => within "canonicalize" depth (.ok (.string value))
  | depth, .array items =>
    within "canonicalize" depth ((canonicalItems (depth + 1) items).map .array)
  | depth, .object members =>
    within "canonicalize" depth
      (((settle (sortBy Prod.fst (canonicalMembers (depth + 1) members))).map enumerate).map
        .object)

def canonicalItems : (depth : Nat) → List JsonValue → Except String (List JsonValue)
  | _, [] => .ok []
  | depth, item :: items => do
      let item ← canonicalize depth item
      let items ← canonicalItems depth items
      .ok (item :: items)

def canonicalMember : (depth : Nat) → String × JsonValue → String × Except String JsonValue
  | depth, (key, value) => (key, canonicalize depth value)

def canonicalMembers :
    (depth : Nat) → List (String × JsonValue) → List (String × Except String JsonValue)
  | _, [] => []
  | depth, member :: members => canonicalMember depth member :: canonicalMembers depth members

end

/-- The shortest decimal that reads back as the number. -/
class NumberText where
  render : ℚ → String

/-- The texts of the integers of up to 21 digits. -/
@[reducible] def integerTexts : NumberText := ⟨fun value => toString value.num⟩

section Text

variable [NumberText]

def numberText : JsonNumber → String
  | .finite value => NumberText.render value
  | .negativeZero => NumberText.render 0
  | .notFinite _ => "null"
  | .nan => "null"

mutual

def stringify : JsonValue → String
  | .null => "null"
  | .bool value => if value then "true" else "false"
  | .number value => numberText value
  | .string value => quote value
  | .array items => "[" ++ ",".intercalate (itemTexts items) ++ "]"
  | .object members => "\x7b" ++ ",".intercalate (memberTexts members) ++ "\x7d"

def itemTexts : List JsonValue → List String
  | [] => []
  | item :: items => stringify item :: itemTexts items

def memberText : String × JsonValue → String
  | (key, value) => quote key ++ ":" ++ stringify value

def memberTexts : List (String × JsonValue) → List String
  | [] => []
  | member :: members => memberText member :: memberTexts members

end

def stringifyCanonical (value : JsonValue) : Except String String :=
  (canonicalize 0 value).map stringify

end Text

def Canonical (value read : JsonValue) : Prop := ∃ depth, canonicalize depth value = .ok read

theorem within_eq_ok {α : Type} {what : String} {depth : Nat} {result : Except String α}
    {value : α} (passed : within what depth result = .ok value) : result = .ok value := by
  unfold within at passed
  split at passed
  · cases passed
  · exact passed

section Order

variable {β : Type} {r : String × β → String × β → Prop} [DecidableRel r]

theorem find?_orderedInsert (same : ∀ a b, a.1 = b.1 → r a b) (member : String × β)
    (members : List (String × β)) (key : String) :
    (members.orderedInsert r member).find? (fun m => m.1 = key) =
      (member :: members).find? fun m => m.1 = key := by
  induction members with
  | nil => rfl
  | cons first rest ih =>
    rw [List.orderedInsert_cons]
    split
    · rfl
    · rename_i later
      have apart : first.1 ≠ member.1 := fun equal => later (same _ _ equal.symm)
      rw [List.find?_cons, ih, List.find?_cons, List.find?_cons]
      by_cases here : first.1 = key
      · have other : member.1 ≠ key := fun equal => apart (here.trans equal.symm)
        simp [here, other]
      · simp [here]

theorem find?_insertionSort (same : ∀ a b, a.1 = b.1 → r a b) (members : List (String × β))
    (key : String) : (members.insertionSort r).find? (fun m => m.1 = key) =
      members.find? fun m => m.1 = key := by
  induction members with
  | nil => rfl
  | cons member members ih =>
    rw [List.insertionSort_cons, find?_orderedInsert same, List.find?_cons, List.find?_cons, ih]

end Order

theorem canonicalMembers_eq (depth : Nat) (members : Members) :
    canonicalMembers depth members = members.map fun m => (m.1, canonicalize depth m.2) := by
  induction members with
  | nil => rfl
  | cons member members ih =>
    rw [canonicalMembers, canonicalMember, ih]
    rfl

theorem find?_settle {results : List (String × Except String JsonValue)} {members : Members}
    (settled : settle results = .ok members) (key : String) :
    (results.find? fun m => m.1 = key).map Prod.snd =
      (property? members key).map Except.ok := by
  induction results generalizing members with
  | nil =>
    cases settled
    rfl
  | cons first rest ih =>
    obtain ⟨name, result⟩ := first
    obtain ⟨value, here, settled⟩ := bind_eq_ok.mp settled
    obtain ⟨others, later, settled⟩ := bind_eq_ok.mp settled
    cases settled
    by_cases same : name = key
    · simp [property?, same, here]
    · have rest := ih later
      simp only [property?] at rest ⊢
      simp [same, rest]

/-- Objects that hold what is read back from each other's values under the same keys. -/
def Alike (members read : Members) : Prop :=
  ∀ key, Option.Rel Canonical (property? members key) (property? read key)

theorem alike_settle {depth : Nat} {members read : Members}
    (settled : settle (sortBy Prod.fst (canonicalMembers depth members)) = .ok read) :
    Alike members (enumerate read) := by
  intro key
  have listed : property? (enumerate read) key = property? read key :=
    congrArg _ (find?_insertionSort (fun a b equal => by rw [equal]) read key)
  rw [listed]
  have found := find?_settle settled key
  have image : ((members.map fun m => (m.1, canonicalize depth m.2)).find? fun m => m.1 = key).map
      Prod.snd = (property? members key).map (canonicalize depth) := by
    rw [List.find?_map]
    simp only [property?, Option.map_map]
    rfl
  rw [sortBy, find?_insertionSort (fun a b equal => by simp [before, equal]),
    canonicalMembers_eq, image] at found
  cases first : property? members key with
  | none =>
    cases second : property? read key with
    | none => exact Option.Rel.none
    | some value => simp [first, second] at found
  | some value =>
    cases second : property? read key with
    | none => simp [first, second] at found
    | some other =>
      rw [first, second] at found
      exact Option.Rel.some ⟨depth, Option.some.inj found⟩

namespace Canonical

variable {value read : JsonValue} {members : Members} {items : List JsonValue}

theorem object (canonical : Canonical (.object members) read) :
    ∃ others, read = .object others ∧ Alike members others := by
  obtain ⟨depth, passed⟩ := canonical
  obtain ⟨others, listed, rfl⟩ := map_eq_ok.mp (within_eq_ok passed)
  obtain ⟨settled, ran, rfl⟩ := map_eq_ok.mp listed
  exact ⟨_, rfl, alike_settle ran⟩

end Canonical

end Heniek.CanonicalJson
