import Heniek.CanonicalForm

/-!
The canonical text of a payload is the one of its code units: the keys and the strings of a
payload are texts, those of a value of the language are code units. Writing a payload on
texts, with the numbers spelled out, and writing it on code units come to the same.
-/

namespace Heniek.CanonicalPayloads
open ExpressionEvaluation ScriptText JsonSyntax JsonWriter CanonicalForm DecimalText
open CanonicalJson (within canonicalNumber rank NumberText)
open RecoveryPolicy (quote escapeChar hexDigit)

theorem escapeUnits_single {unit : Nat} (single : isHighSurrogate unit = false)
    (units : List Nat) : escapeUnits (unit :: units) = escapeUnit unit ++ escapeUnits units := by
  cases units with
  | nil => exact (List.append_nil _).symm
  | cons next rest => rw [escapeUnits, if_neg (by simp [single])]

theorem escapeUnits_charUnits (c : Char) (units : List Nat) :
    escapeUnits (charUnits c ++ units) = escapeChar c ++ escapeUnits units := by
  have point : ∀ d : Char, c = d ↔ c.toNat = d.toNat :=
    fun d => ⟨congrArg _, fun points => Char.ext (UInt32.toNat_inj.mp points)⟩
  have quotation : '"'.toNat = 34 := rfl
  have backslash : '\\'.toNat = 92 := rfl
  simp only [escapeChar, point, quotation, backslash]
  rcases charUnits_cases c with ⟨small, single, other⟩ | ⟨large, high, low, pair, paired, whole⟩
  · have surrogate : isLowSurrogate c.toNat = false := by
      have valid : c.toNat < 0xD800 ∨ 0xDFFF < c.toNat ∧ c.toNat < 0x110000 := c.valid
      refine decide_eq_false ?_
      omega
    rw [single, List.singleton_append, escapeUnits_single other]
    simp only [escapeUnit, other, surrogate, Char.ofNat_toNat, unicodeEscape, hexDigit,
      Bool.false_eq_true, or_false]
    split_ifs <;> first | rfl | omega | skip
    have digits : c.toNat / 4096 % 16 = 0 ∧ c.toNat / 256 % 16 = 0 ∧
        c.toNat / 16 % 16 = c.toNat / 16 := by omega
    rw [digits.1, digits.2.1, digits.2.2]
    rfl
  · rw [pair, List.cons_append, List.singleton_append, escapeUnits, if_pos paired, whole]
    split_ifs <;> first | rfl | omega

theorem escapeUnits_codeUnits (text : String) :
    escapeUnits (codeUnits text) = text.toList.flatMap escapeChar := by
  rw [codeUnits_eq]
  induction text.toList with
  | nil => rfl
  | cons c cs ih => rw [List.flatMap_cons, escapeUnits_charUnits, ih, List.flatMap_cons]

theorem quote_toList (text : String) :
    (quote text).toList = quoted (escapeUnits (codeUnits text)) := by
  simp only [escapeUnits_codeUnits, quote, String.toList_append, String.toList_ofList,
    List.append_assoc]
  rfl

mutual

/-- A payload, its texts as code units. -/
def unitsOf : JsonValue → Json
  | .null => .null
  | .bool value => .bool value
  | .number value => .number value
  | .string value => .string (codeUnits value)
  | .array items => .array (unitsOfItems items)
  | .object members => .object (unitsOfMembers members)

def unitsOfItems : List JsonValue → List Json
  | [] => []
  | item :: items => unitsOf item :: unitsOfItems items

def unitsOfMember : String × JsonValue → List Nat × Json
  | (key, value) => (codeUnits key, unitsOf value)

def unitsOfMembers : List (String × JsonValue) → Members
  | [] => []
  | member :: members => unitsOfMember member :: unitsOfMembers members

end

@[reducible] def decimalTexts : NumberText := ⟨fun value => String.ofList (numberToString value)⟩

theorem numberText_toList (value : JsonNumber) :
    (@CanonicalJson.numberText decimalTexts value).toList = JsonWriter.numberText value := by
  cases value with
  | finite value => exact String.toList_ofList
  | negativeZero => decide
  | notFinite _ | nan => rfl

mutual

theorem stringify_toList : (value : JsonValue) →
    (@CanonicalJson.stringify decimalTexts value).toList = JsonWriter.stringify (unitsOf value)
  | .null => rfl
  | .bool value => by cases value <;> rfl
  | .number value => numberText_toList value
  | .string value => quote_toList value
  | .array items => by
    simp only [CanonicalJson.stringify, String.toList_append, String.toList_intercalate,
      itemTexts_toList items]
    rfl
  | .object members => by
    simp only [CanonicalJson.stringify, String.toList_append, String.toList_intercalate,
      memberTexts_toList members]
    rfl

theorem itemTexts_toList : (items : List JsonValue) →
    (@CanonicalJson.itemTexts decimalTexts items).map String.toList =
      JsonWriter.itemTexts (unitsOfItems items)
  | [] => rfl
  | item :: items => congrArg₂ List.cons (stringify_toList item) (itemTexts_toList items)

theorem memberText_toList : (member : String × JsonValue) →
    (@CanonicalJson.memberText decimalTexts member).toList =
      JsonWriter.memberText (unitsOfMember member)
  | (key, value) => by
    simp only [CanonicalJson.memberText, String.toList_append, quote_toList,
      stringify_toList value, List.append_assoc]
    rfl

theorem memberTexts_toList : (members : List (String × JsonValue)) →
    (@CanonicalJson.memberTexts decimalTexts members).map String.toList =
      JsonWriter.memberTexts (unitsOfMembers members)
  | [] => rfl
  | member :: members => congrArg₂ List.cons (memberText_toList member) (memberTexts_toList members)

end

theorem unitsOfMembers_eq (members : List (String × JsonValue)) :
    unitsOfMembers members = members.map unitsOfMember := by
  induction members with
  | nil => rfl
  | cons member members ih => rw [unitsOfMembers, ih, List.map_cons]

theorem within_map {α β : Type} (f : α → β) (what : String) (depth : Nat)
    (result : Except String α) :
    (within what depth result).map f = within what depth (result.map f) := by
  unfold within
  split <;> rfl

/-- The members once walked, in the order of their code units, as `settle` gathers them. -/
theorem defineAll_settle (results : List (String × Except String JsonValue)) :
    defineAll (results.map fun result => (codeUnits result.1, result.2.map unitsOf)) =
      ((CanonicalJson.settle results).map CanonicalJson.enumerate).map unitsOfMembers := by
  have all : allOf ((results.map fun result => (codeUnits result.1, result.2.map unitsOf)).map
      fun result => result.2.map (Prod.mk result.1)) =
        (CanonicalJson.settle results).map unitsOfMembers := by
    induction results with
    | nil => rfl
    | cons result results ih =>
      obtain ⟨key, value⟩ := result
      rw [List.map_cons, List.map_cons, allOf, ih]
      cases value with
      | error => rfl
      | ok value =>
        change _ = Except.map unitsOfMembers (do
          let members ← CanonicalJson.settle results
          .ok ((key, value) :: members))
        cases CanonicalJson.settle results <;> rfl
  rw [defineAll, all]
  cases CanonicalJson.settle results with
  | error => rfl
  | ok members =>
    refine congrArg Except.ok ?_
    have keys : ∀ member, (unitsOfMember member).1 = codeUnits member.1 := fun (_, _) => by
      rw [unitsOfMember]
    rw [unitsOfMembers_eq, unitsOfMembers_eq, CanonicalJson.enumerate,
      List.map_insertionSort _ (fun a b => rank a.1 ≤ rank b.1) unitsOfMember members
        fun a _ b _ => by rw [keys, keys]]
    rfl

mutual

theorem canonicalize_unitsOf : (depth : Nat) → (value : JsonValue) →
    canonicalize depth (unitsOf value) = (CanonicalJson.canonicalize depth value).map unitsOf
  | depth, .null | depth, .bool value | depth, .string value => by
    rw [CanonicalJson.canonicalize, within_map]
    rfl
  | depth, .number value => by
    rw [CanonicalJson.canonicalize, within_map]
    cases value <;> rfl
  | depth, .array items => by
    have each := canonicalItems_unitsOf (depth + 1) items
    rw [CanonicalJson.canonicalize, within_map]
    refine congrArg (within _ depth) ((congrArg (Except.map Value.array) each).trans ?_)
    cases CanonicalJson.canonicalItems (depth + 1) items <;> rfl
  | depth, .object members => by
    have each := canonicalMembers_unitsOf (depth + 1) members
    have sorted : sortNames (· ≤ ·) ((CanonicalJson.canonicalMembers (depth + 1) members).map
        fun result => (codeUnits result.1, result.2.map unitsOf)) =
          (sortBy Prod.fst (CanonicalJson.canonicalMembers (depth + 1) members)).map
            fun result => (codeUnits result.1, result.2.map unitsOf) :=
      (List.map_insertionSort _ _ _ _ fun a _ b _ => by simp [before]).symm
    rw [CanonicalJson.canonicalize, within_map]
    refine congrArg (within _ depth) ?_
    rw [each, sorted, defineAll_settle]
    cases (CanonicalJson.settle _).map _ <;> rfl

theorem canonicalItems_unitsOf : (depth : Nat) → (items : List JsonValue) →
    allOf (walkItems "canonicalize" canonicalNumber (· ≤ ·) depth (unitsOfItems items)) =
      (CanonicalJson.canonicalItems depth items).map unitsOfItems
  | _, [] => rfl
  | depth, item :: items => by
    have first := canonicalize_unitsOf depth item
    have rest := canonicalItems_unitsOf depth items
    rw [unitsOfItems, walkItems, allOf, rest]
    change (canonicalize depth (unitsOf item) >>= _) = _
    rw [first, CanonicalJson.canonicalItems]
    cases CanonicalJson.canonicalize depth item with
    | error => rfl
    | ok => cases CanonicalJson.canonicalItems depth items <;> rfl

theorem canonicalMembers_unitsOf : (depth : Nat) → (members : List (String × JsonValue)) →
    walkMembers "canonicalize" canonicalNumber (· ≤ ·) depth (unitsOfMembers members) =
      (CanonicalJson.canonicalMembers depth members).map fun result =>
        (codeUnits result.1, result.2.map unitsOf)
  | _, [] => rfl
  | depth, (_, value) :: members =>
    congrArg₂ List.cons (congrArg (Prod.mk _) (canonicalize_unitsOf depth value))
      (canonicalMembers_unitsOf depth members)

end

theorem stringifyCanonical_unitsOf (value : JsonValue) :
    stringifyCanonical (unitsOf value) =
      (@CanonicalJson.stringifyCanonical decimalTexts value).map String.toList := by
  unfold stringifyCanonical CanonicalJson.stringifyCanonical
  rw [canonicalize_unitsOf]
  cases CanonicalJson.canonicalize 0 value with
  | error => rfl
  | ok read => exact congrArg Except.ok (stringify_toList read).symm

end Heniek.CanonicalPayloads
