import Heniek.StableOrder
import Mathlib.Data.String.Basic

/-!
Text as the script language handles it. Comparison is by UTF-16 code units, the
order of `<` and of the default array sort there. Coordinates joined by a
separator can be taken apart again from the right as long as the last
coordinate is free of the separator, which a decimal numeral always is.
-/

namespace ScriptText

def codeUnits (s : String) : List Nat :=
  s.toList.flatMap fun c =>
    if c.toNat < 0x10000 then [c.toNat]
    else [0xD800 + (c.toNat - 0x10000) / 0x400, 0xDC00 + (c.toNat - 0x10000) % 0x400]

def before (a b : String) : Bool := decide (codeUnits a < codeUnits b)

/-- The array index that a property key is the text of. -/
def arrayIndex? (key : List Nat) : Option Nat :=
  let value := key.foldl (fun n unit => 10 * n + (unit - 48)) 0
  if key ≠ [] ∧ (∀ unit ∈ key, 48 ≤ unit ∧ unit ≤ 57) ∧ (key.head? = some 48 → key = [48]) ∧
      value < 2 ^ 32 - 1 then
    some value
  else none

def sortBy {α : Type*} (text : α → String) (l : List α) : List α :=
  l.insertionSort fun a b => before (text b) (text a) = false

/-- The sort by the texts that the pieces make when they are joined. -/
def sortByPieces {α : Type*} (pieces : α → List String) (l : List α) : List α :=
  l.insertionSort fun a b =>
    decide ((pieces b).flatMap codeUnits < (pieces a).flatMap codeUnits) = false

def sortTexts (l : List String) : List String := sortBy id l

variable {α : Type*} {l : List String} {a b : String}

theorem sortBy_perm (text : α → String) (l : List α) : (sortBy text l).Perm l :=
  List.perm_insertionSort _ l

@[simp] theorem mem_sortBy {text : α → String} {l : List α} {a : α} :
    a ∈ sortBy text l ↔ a ∈ l := List.mem_insertionSort _

@[simp] theorem mem_sortTexts : a ∈ sortTexts l ↔ a ∈ l := mem_sortBy

theorem units_inj {c d : Char} {rest rest' : List Nat}
    (same : (if c.toNat < 0x10000 then [c.toNat]
        else [0xD800 + (c.toNat - 0x10000) / 0x400, 0xDC00 + (c.toNat - 0x10000) % 0x400]) ++ rest =
      (if d.toNat < 0x10000 then [d.toNat]
        else [0xD800 + (d.toNat - 0x10000) / 0x400, 0xDC00 + (d.toNat - 0x10000) % 0x400]) ++
          rest') :
    c = d ∧ rest = rest' := by
  have valid : ∀ e : Char, e.toNat < 0xD800 ∨ 0xDFFF < e.toNat ∧ e.toNat < 0x110000 :=
    fun e => e.valid
  have first := valid c
  have second := valid d
  have equal : c.toNat = d.toNat → c = d := fun points => Char.ext (UInt32.toNat_inj.mp points)
  split at same <;> split at same <;>
    simp only [List.cons_append, List.cons.injEq] at same
  · exact ⟨equal same.1, same.2⟩
  · omega
  · omega
  · exact ⟨equal (by omega), same.2.2⟩

theorem codeUnits_append (a b : String) : codeUnits (a ++ b) = codeUnits a ++ codeUnits b := by
  simp [codeUnits]

theorem codeUnits_inj (same : codeUnits a = codeUnits b) : a = b := by
  apply String.toList_inj.mp
  unfold codeUnits at same
  generalize a.toList = cs at same ⊢
  generalize b.toList = ds at same ⊢
  have filled : ∀ e : Char, ∀ rest : List Nat, (if e.toNat < 0x10000 then [e.toNat]
      else [0xD800 + (e.toNat - 0x10000) / 0x400, 0xDC00 + (e.toNat - 0x10000) % 0x400]) ++ rest ≠
        [] := by
    intro e rest
    split <;> exact List.cons_ne_nil _ _
  induction cs generalizing ds with
  | nil =>
    cases ds with
    | nil => rfl
    | cons d ds => exact absurd same.symm (filled d _)
  | cons c cs ih =>
    cases ds with
    | nil => exact absurd same (filled c _)
    | cons d ds =>
      obtain ⟨heads, tails⟩ := units_inj same
      rw [heads, ih ds tails]

theorem before_total (a b : String) : before b a = false ∨ before a b = false := by
  simp only [before, decide_eq_false_iff_not, not_lt]
  exact le_total (codeUnits a) (codeUnits b)

theorem before_trans {c : String} (first : before b a = false) (second : before c b = false) :
    before c a = false := by
  simp only [before, decide_eq_false_iff_not, not_lt] at first second ⊢
  exact first.trans second

theorem before_antisymm (first : before b a = false) (second : before a b = false) : a = b := by
  simp only [before, decide_eq_false_iff_not, not_lt] at first second
  exact codeUnits_inj (le_antisymm first second)

theorem sortBy_of_perm {text : α → String} {l l' : List α} (same : l.Perm l')
    (apart : ∀ a ∈ l, ∀ b ∈ l, text a = text b → a = b) : sortBy text l = sortBy text l' :=
  StableOrder.insertionSort_of_perm (fun a b => before_total (text a) (text b))
    (fun _ _ _ => before_trans) same
    fun a first b second left right => apart a first b second (before_antisymm left right)

theorem sortTexts_of_perm {l' : List String} (same : l.Perm l') : sortTexts l = sortTexts l' :=
  sortBy_of_perm same fun _ _ _ _ => id

theorem sortTexts_ascending (distinct : l.Nodup) :
    (sortTexts l).Pairwise fun a b => before a b = true := by
  have sorted : (sortTexts l).Pairwise fun a b => before b a = false :=
    StableOrder.pairwise_sorted before_total (fun _ _ _ => before_trans) l
  have apart : (sortTexts l).Pairwise fun a b => a ≠ b := (sortBy_perm id l).nodup_iff.mpr distinct
  refine (sorted.and apart).imp ?_
  intro a b order
  by_contra other
  exact order.2 (before_antisymm order.1 (by simpa using other))

/-- The comparison by a text, with ties left to another comparison. -/
def thenBy {α : Type*} (text : α → String) (tie : α → α → Bool) (a b : α) : Bool :=
  if text a ≠ text b then before (text a) (text b) else tie a b

def inheritedNames : List String :=
  ["constructor", "__defineGetter__", "__defineSetter__", "hasOwnProperty", "__lookupGetter__",
    "__lookupSetter__", "isPrototypeOf", "propertyIsEnumerable", "toString", "valueOf", "__proto__",
    "toLocaleString"]

def inherited (name : String) : Bool := decide (name ∈ inheritedNames)

def codePoints (s : String) : List Nat := s.toList.map Char.toNat

/-- The binary collation of the database: UTF-8 bytes compare as code points do. -/
def binaryBefore (a b : String) : Bool := decide (codePoints a < codePoints b)

theorem codePoints_inj (same : codePoints a = codePoints b) : a = b := by
  have injective : Function.Injective Char.toNat :=
    fun c d same => Char.ext (UInt32.toNat_inj.mp same)
  exact String.toList_inj.mp (List.map_injective_iff.mpr injective same)

/-- The order of `localeCompare` in the locale of the host. Texts that collate alike may differ. -/
class Collation where
  precedes : String → String → Bool
  asymm : ∀ a b, precedes a b = true → precedes b a = false
  trans : ∀ a b c, precedes b a = false → precedes c b = false → precedes c a = false

def localeSort [Collation] {α : Type*} (text : α → String) (l : List α) : List α :=
  l.insertionSort fun a b => Collation.precedes (text b) (text a) = false

/-- The collation by code units, as it is on plain lower-case text. -/
@[reducible] def plainCollation : Collation where
  precedes := before
  asymm := by
    intro a b first
    simp only [before, decide_eq_true_eq, decide_eq_false_iff_not, not_lt] at first ⊢
    exact first.le
  trans := by
    intro a b c first second
    simp only [before, decide_eq_false_iff_not, not_lt] at first second ⊢
    exact first.trans second

/-- The longest part of a text within its first code units. -/
def withinUnits : Nat → List Char → List Char
  | _, [] => []
  | limit, c :: cs =>
    if (if c.toNat < 0x10000 then 1 else 2) ≤ limit then
      c :: withinUnits (limit - if c.toNat < 0x10000 then 1 else 2) cs
    else []

section Separator

variable {σ : Type*} [DecidableEq σ]

/-- `text.slice(0, text.lastIndexOf(separator))`, an absent separator counting as index -1. -/
def beforeLast (separator : σ) (cs : List σ) : List σ :=
  if separator ∈ cs then ((cs.reverse.dropWhile (· ≠ separator)).drop 1).reverse else cs.dropLast

theorem beforeLast_append (separator : σ) (head tail : List σ) (free : separator ∉ tail) :
    beforeLast separator (head ++ separator :: tail) = head := by
  have skipped : (head ++ separator :: tail).reverse.dropWhile (· ≠ separator) =
      separator :: head.reverse := by
    rw [List.reverse_append, List.reverse_cons, List.append_assoc, List.dropWhile_append_of_pos]
    · simp
    · intro c hc
      have different : c ≠ separator := fun same => free (same ▸ List.mem_reverse.mp hc)
      simp [different]
  rw [beforeLast, skipped]
  simp

theorem append_separator_inj {separator : σ} {head head' tail tail' : List σ}
    (free : separator ∉ tail) (free' : separator ∉ tail')
    (same : head ++ separator :: tail = head' ++ separator :: tail') :
    head = head' ∧ tail = tail' := by
  have heads : head = head' := by
    rw [← beforeLast_append separator head tail free, same, beforeLast_append _ _ _ free']
  subst heads
  exact ⟨rfl, (List.cons.inj (List.append_cancel_left same)).2⟩

end Separator

/-- A value that may be absent in either of the two ways of the script language. -/
inductive ScriptValue (α : Type*) where
  | undefined
  | null
  | value (a : α)

/-- `toNullableText`: what a nullable column is decoded as. -/
def toNullableText {α : Type*} : Option α → ScriptValue α
  | none => .null
  | some a => .value a

def ScriptValue.defined {α : Type*} : ScriptValue α → Bool
  | .undefined => false
  | _ => true

/-- `text.split("->")`. -/
def splitArrow : List Char → List (List Char)
  | [] => [[]]
  | '-' :: '>' :: rest => [] :: splitArrow rest
  | c :: rest =>
    match splitArrow rest with
    | [] => [[c]]
    | part :: parts => (c :: part) :: parts

def colonFree (s : String) : Prop := ':' ∉ s.toList

instance (s : String) : Decidable (colonFree s) := inferInstanceAs (Decidable (':' ∉ s.toList))

theorem colonFree_decimal (n : Nat) : colonFree (toString n) := by
  intro member
  rw [Nat.toString_eq_ofList_toDigits, String.toList_ofList] at member
  have digit := Nat.isDigit_of_mem_toDigits (by decide) (by decide) member
  revert digit
  decide

theorem decimal_inj {m n : Nat} (same : toString m = toString n) : m = n := by
  have digits := String.ofList_inj.mp same
  rw [← Nat.ofDigitChars_ten_toDigits (n := m), digits, Nat.ofDigitChars_ten_toDigits]

theorem colon_inj {head head' tail tail' : String} (free : colonFree tail) (free' : colonFree tail')
    (same : head ++ ":" ++ tail = head' ++ ":" ++ tail') : head = head' ∧ tail = tail' := by
  have chars := congrArg String.toList same
  have separator : ":".toList = [':'] := by decide
  simp only [String.toList_append, List.append_assoc, separator] at chars
  obtain ⟨heads, tails⟩ := append_separator_inj free free' chars
  exact ⟨String.toList_inj.mp heads, String.toList_inj.mp tails⟩

theorem colon_decimal_inj {head head' : String} {m n : Nat}
    (same : head ++ ":" ++ toString m = head' ++ ":" ++ toString n) : head = head' ∧ m = n := by
  obtain ⟨heads, numerals⟩ := colon_inj (colonFree_decimal m) (colonFree_decimal n) same
  exact ⟨heads, decimal_inj numerals⟩

end ScriptText
