import Heniek.DecimalText
import Heniek.RepeatedNames

/-!
The text of a value (`JSON.stringify`), on code units: lone surrogates and control
characters are escaped, numbers are written as their own texts. The text is that of a
tree without blanks, in which the names and the strings of the value read back.
-/

namespace Heniek.JsonWriter
open JsonSyntax ScriptText ExpressionEvaluation RpcCodec DecimalText CanonicalCut RepeatedNames

def isHighSurrogate (unit : Nat) : Bool := decide (0xD800 ≤ unit ∧ unit < 0xDC00)

def isLowSurrogate (unit : Nat) : Bool := decide (0xDC00 ≤ unit ∧ unit < 0xE000)

def unicodeEscape (unit : Nat) : List Char :=
  ['\\', 'u', Nat.digitChar (unit / 4096 % 16), Nat.digitChar (unit / 256 % 16),
    Nat.digitChar (unit / 16 % 16), Nat.digitChar (unit % 16)]

def escapeUnit (unit : Nat) : List Char :=
  if unit = 34 then ['\\', '"']
  else if unit = 92 then ['\\', '\\']
  else if unit = 8 then ['\\', 'b']
  else if unit = 9 then ['\\', 't']
  else if unit = 10 then ['\\', 'n']
  else if unit = 12 then ['\\', 'f']
  else if unit = 13 then ['\\', 'r']
  else if unit < 32 ∨ isHighSurrogate unit = true ∨ isLowSurrogate unit = true then
    unicodeEscape unit
  else [Char.ofNat unit]

/-- The character that two surrogates make. -/
def pairedChar (high low : Nat) : Char :=
  Char.ofNat (0x10000 + (high - 0xD800) * 0x400 + (low - 0xDC00))

def escapeUnits : List Nat → List Char
  | [] => []
  | [unit] => escapeUnit unit
  | unit :: next :: rest =>
    if isHighSurrogate unit = true ∧ isLowSurrogate next = true then
      pairedChar unit next :: escapeUnits rest
    else escapeUnit unit ++ escapeUnits (next :: rest)

def Units (units : List Nat) : Prop := ∀ unit ∈ units, unit < 0x10000

instance (units : List Nat) : Decidable (Units units) :=
  inferInstanceAs (Decidable (∀ unit ∈ units, _))

def numberText : JsonNumber → List Char
  | .finite value => numberToString value
  | .negativeZero => ['0']
  | .notFinite _ => "null".toList
  | .nan => "null".toList

mutual

def stringify : Value JsonNumber → List Char
  | .null => "null".toList
  | .bool value => if value then "true".toList else "false".toList
  | .number value => numberText value
  | .string units => quoted (escapeUnits units)
  | .array items => '[' :: ([','].intercalate (itemTexts items) ++ [']'])
  | .object members => '\x7b' :: ([','].intercalate (memberTexts members) ++ ['\x7d'])

def itemTexts : List (Value JsonNumber) → List (List Char)
  | [] => []
  | item :: items => stringify item :: itemTexts items

def memberText : List Nat × Value JsonNumber → List Char
  | (name, value) => quoted (escapeUnits name) ++ ':' :: stringify value

def memberTexts : List (List Nat × Value JsonNumber) → List (List Char)
  | [] => []
  | member :: members => memberText member :: memberTexts members

end

mutual

def writeTree : Value JsonNumber → Tree
  | .null => .word "null".toList
  | .bool value => .word (if value then "true".toList else "false".toList)
  | .number value => .word (numberText value)
  | .string units => .string (escapeUnits units)
  | .array items => .block .array [] (itemEntries items)
  | .object members => .block .object [] (memberEntries members)

def itemEntries : List (Value JsonNumber) → Entries
  | [] => .nil
  | item :: items => .cons [] none (writeTree item) [] (itemEntries items)

def valueTree : List Nat × Value JsonNumber → Tree
  | (_, value) => writeTree value

def memberEntries : List (List Nat × Value JsonNumber) → Entries
  | [] => .nil
  | member :: members =>
    .cons [] (some ⟨escapeUnits member.1, [], []⟩) (valueTree member) [] (memberEntries members)

end

mutual

/-- A value of the language: strings of code units, and objects that have each name once. -/
def Proper : Value JsonNumber → Prop
  | .null => True
  | .bool _ => True
  | .number _ => True
  | .string units => Units units
  | .array items => ProperItems items
  | .object members => (members.map Prod.fst).Nodup ∧ ProperMembers members

def ProperItems : List (Value JsonNumber) → Prop
  | [] => True
  | item :: items => Proper item ∧ ProperItems items

def ProperMember : List Nat × Value JsonNumber → Prop
  | (name, value) => Units name ∧ Proper value

def ProperMembers : List (List Nat × Value JsonNumber) → Prop
  | [] => True
  | member :: members => ProperMember member ∧ ProperMembers members

end

theorem hexDigit?_digitChar : ∀ digit < 16, hexDigit? (Nat.digitChar digit) = some digit := by
  decide

variable {unit : Nat} {key : List Nat} {value : Value JsonNumber}

theorem hexUnit?_unicodeEscape (small : unit < 0x10000) :
    hexUnit? (Nat.digitChar (unit / 4096 % 16)) (Nat.digitChar (unit / 256 % 16))
      (Nat.digitChar (unit / 16 % 16)) (Nat.digitChar (unit % 16)) = some unit := by
  have digit : ∀ n, hexDigit? (Nat.digitChar (n % 16)) = some (n % 16) :=
    fun n => hexDigit?_digitChar _ (Nat.mod_lt n (by decide))
  simp only [hexUnit?, digit, Option.bind_some, Option.map_some, Option.some.injEq]
  omega

theorem decodeBody_plain {c : Char} (escape : c ≠ '\\') (quotation : c ≠ '"')
    (visible : ¬ c.toNat < 32) (rest : List Char) :
    decodeBody (c :: rest) = (decodeBody rest).map fun units => charUnits c ++ units := by
  conv_lhs => unfold decodeBody
  rw [if_neg escape, if_neg (not_or.mpr ⟨quotation, visible⟩)]

theorem decodeBody_simple {e : Char} (letter : e ≠ 'u') (simple : simpleEscape? e = some unit)
    (rest : List Char) :
    decodeBody ('\\' :: e :: rest) = (decodeBody rest).map fun units => unit :: units := by
  conv_lhs => unfold decodeBody
  rw [if_pos rfl]
  simp only [if_neg letter, simple, Option.bind_some]

theorem decodeBody_unicode {a b c d : Char} (read : hexUnit? a b c d = some unit)
    (rest : List Char) :
    decodeBody ('\\' :: 'u' :: a :: b :: c :: d :: rest) =
      (decodeBody rest).map fun units => unit :: units := by
  conv_lhs => unfold decodeBody
  simp only [if_pos, read, Option.bind_some]

theorem toNat_ofNat (valid : unit.isValidChar) : (Char.ofNat unit).toNat = unit := by
  rw [Char.ofNat, dif_pos valid]
  rfl

theorem decodeBody_escapeUnit (small : unit < 0x10000) (rest : List Char) :
    decodeBody (escapeUnit unit ++ rest) = (decodeBody rest).map fun units => unit :: units := by
  unfold escapeUnit
  split_ifs with h1 h2 h3 h4 h5 h6 h7 escaped
  · subst h1
    exact decodeBody_simple (by decide) rfl rest
  · subst h2
    exact decodeBody_simple (by decide) rfl rest
  · subst h3
    exact decodeBody_simple (by decide) rfl rest
  · subst h4
    exact decodeBody_simple (by decide) rfl rest
  · subst h5
    exact decodeBody_simple (by decide) rfl rest
  · subst h6
    exact decodeBody_simple (by decide) rfl rest
  · subst h7
    exact decodeBody_simple (by decide) rfl rest
  · exact decodeBody_unicode (hexUnit?_unicodeEscape small) rest
  · simp only [isHighSurrogate, isLowSurrogate, decide_eq_true_eq, not_or]
      at escaped
    have valid : unit.isValidChar := by
      omega
    have code := toNat_ofNat valid
    have units : charUnits (Char.ofNat unit) = [unit] := by
      rw [charUnits_eq, code, if_pos small]
    have escape : Char.ofNat unit ≠ '\\' := fun same => by
      rw [same] at code
      exact h2 code.symm
    have quotation : Char.ofNat unit ≠ '"' := fun same => by
      rw [same] at code
      exact h1 code.symm
    rw [List.singleton_append, decodeBody_plain escape quotation (by omega), units]
    rfl

theorem decodeBody_pairedChar {high low : Nat} (first : isHighSurrogate high = true)
    (second : isLowSurrogate low = true) (rest : List Char) :
    decodeBody (pairedChar high low :: rest) =
      (decodeBody rest).map fun units => high :: low :: units := by
  simp only [isHighSurrogate, isLowSurrogate, decide_eq_true_eq] at first second
  have valid : (0x10000 + (high - 0xD800) * 0x400 + (low - 0xDC00)).isValidChar := by
    omega
  have code : (pairedChar high low).toNat = 0x10000 + (high - 0xD800) * 0x400 + (low - 0xDC00) :=
    toNat_ofNat valid
  have units : charUnits (pairedChar high low) = [high, low] := by
    rw [charUnits_eq, if_neg (by omega)]
    simp only [List.cons.injEq, and_true]
    omega
  have large : 0x10000 ≤ (pairedChar high low).toNat := by omega
  have escape : pairedChar high low ≠ '\\' := fun same => by
    rw [same] at large
    exact absurd large (by decide)
  have quotation : pairedChar high low ≠ '"' := fun same => by
    rw [same] at large
    exact absurd large (by decide)
  rw [decodeBody_plain escape quotation (by omega), units]
  rfl

/-- A character is one unit that starts no pair, or the pair of units that make it. -/
theorem charUnits_cases (c : Char) :
    c.toNat < 0x10000 ∧ charUnits c = [c.toNat] ∧ isHighSurrogate c.toNat = false ∨
      0x10000 ≤ c.toNat ∧ ∃ high low, charUnits c = [high, low] ∧
        (isHighSurrogate high = true ∧ isLowSurrogate low = true) ∧ pairedChar high low = c := by
  have valid : c.toNat < 0xD800 ∨ 0xDFFF < c.toNat ∧ c.toNat < 0x110000 := c.valid
  rw [charUnits_eq]
  by_cases small : c.toNat < 0x10000
  · refine Or.inl ⟨small, if_pos small, decide_eq_false ?_⟩
    omega
  · refine Or.inr ⟨not_lt.mp small, _, _, if_neg small, ⟨decide_eq_true ?_, decide_eq_true ?_⟩, ?_⟩
    · omega
    · omega
    · refine (congrArg Char.ofNat ?_).trans (Char.ofNat_toNat c)
      omega

/-- The text between the quotes reads as the string it was written for. -/
theorem decodeBody_escapeUnits (units : List Nat) (small : Units units) :
    decodeBody (escapeUnits units) = some units := by
  induction units using escapeUnits.induct with
  | case1 => rfl
  | case2 unit =>
    have alone := decodeBody_escapeUnit (small unit List.mem_cons_self) []
    rw [List.append_nil] at alone
    rw [escapeUnits, alone]
    rfl
  | case3 unit next rest paired ih =>
    have later : Units rest := fun other listed =>
      small other (List.mem_cons_of_mem _ (List.mem_cons_of_mem _ listed))
    rw [escapeUnits, if_pos paired, decodeBody_pairedChar paired.1 paired.2, ih later]
    rfl
  | case4 unit next rest single ih =>
    have later : Units (next :: rest) := fun other listed =>
      small other (List.mem_cons_of_mem _ listed)
    rw [escapeUnits, if_neg single, decodeBody_escapeUnit (small unit List.mem_cons_self),
      ih later]
    rfl

theorem intercalate_cons (text : List Char) (texts : List (List Char)) :
    [','].intercalate (text :: texts) =
      text ++ if texts = [] then [] else ',' :: [','].intercalate texts := by
  cases texts <;> simp [List.intercalate]

theorem further_of {entries : Entries} {texts : List (List Char)}
    (both : entries = .nil ↔ texts = []) (text : List Char) :
    further entries text = if texts = [] then [] else ',' :: text := by
  by_cases empty : entries = .nil
  · rw [empty, if_pos (both.mp empty)]
    rfl
  · rw [further_eq empty, if_neg fun none => empty (both.mpr none)]

mutual

theorem writeTree_render : (value : Value JsonNumber) → (writeTree value).render = stringify value
  | .null => rfl
  | .bool _ => rfl
  | .number _ => rfl
  | .string _ => rfl
  | .array items => by
      rw [writeTree, Tree.render, itemEntries_render items]
      rfl
  | .object members => by
      rw [writeTree, Tree.render, memberEntries_render members]
      rfl

theorem itemEntries_render : (items : List (Value JsonNumber)) →
    (itemEntries items).render = [','].intercalate (itemTexts items)
  | [] => rfl
  | item :: items => by
      have both : itemEntries items = .nil ↔ itemTexts items = [] := by
        cases items <;> simp [itemEntries, itemTexts]
      rw [itemEntries, Entries.render, writeTree_render item, itemEntries_render items,
        further_of both, itemTexts, intercalate_cons]
      simp [renderLabel]

theorem memberText_render : (member : List Nat × Value JsonNumber) →
    renderLabel (some ⟨escapeUnits member.1, [], []⟩) ++ (valueTree member).render =
      memberText member
  | (name, value) => by
      rw [valueTree, writeTree_render value]
      simp [renderLabel, Label.render, memberText]

theorem memberEntries_render : (members : List (List Nat × Value JsonNumber)) →
    (memberEntries members).render = [','].intercalate (memberTexts members)
  | [] => rfl
  | member :: members => by
      have both : memberEntries members = .nil ↔ memberTexts members = [] := by
        cases members <;> simp [memberEntries, memberTexts]
      rw [memberEntries, Entries.render, List.nil_append, memberText_render member,
        memberEntries_render members, further_of both, memberTexts, intercalate_cons]
      simp

end

theorem numberText_valid (value : JsonNumber) : validWord (numberText value) = true := by
  cases value with
  | finite value =>
    obtain ⟨numeral, read, _⟩ := numberToString_reads value
    rw [numberText, validWord, read]
    simp
  | negativeZero => decide
  | notFinite _ => exact (by decide : validWord "null".toList = true)
  | nan => decide

mutual

theorem writeTree_valid : (value : Value JsonNumber) → Proper value → (writeTree value).Valid
  | .null, _ => (by decide : validWord "null".toList = true)
  | .bool value, _ => by
      change validWord (if value then "true".toList else "false".toList) = true
      cases value <;> decide
  | .number value, _ => numberText_valid value
  | .string units, proper => by
      rw [writeTree, Tree.Valid, decodeBody_escapeUnits units proper]
      rfl
  | .array items, proper => by
      refine ⟨?_, itemEntries_valid items proper⟩
      cases items
      · exact blank_nil
      · rfl
  | .object members, proper => by
      refine ⟨?_, memberEntries_valid members proper.2⟩
      cases members
      · exact blank_nil
      · rfl

theorem itemEntries_valid : (items : List (Value JsonNumber)) → ProperItems items →
    (itemEntries items).Valid .array
  | [], _ => trivial
  | item :: items, proper =>
    ⟨blank_nil, rfl, writeTree_valid item proper.1, blank_nil, itemEntries_valid items proper.2⟩

theorem valueTree_valid : (member : List Nat × Value JsonNumber) → ProperMember member →
    (valueTree member).Valid ∧ Units member.1
  | (_, value), proper => ⟨writeTree_valid value proper.2, proper.1⟩

theorem memberEntries_valid : (members : List (List Nat × Value JsonNumber)) →
    ProperMembers members → (memberEntries members).Valid .object
  | [], _ => trivial
  | member :: members, proper => by
      obtain ⟨valued, small⟩ := valueTree_valid member proper.1
      have named : LabelValid .object (some ⟨escapeUnits member.1, [], []⟩) := by
        refine ⟨rfl, ?_, blank_nil, blank_nil⟩
        rw [decodeBody_escapeUnits _ small]
        rfl
      exact ⟨blank_nil, named, valued, blank_nil, memberEntries_valid members proper.2⟩

end

theorem labelUnits_escapeUnits {name : List Nat} (small : Units name) :
    labelUnits (some ⟨escapeUnits name, [], []⟩) = name := by
  rw [labelUnits, bodyUnits, decodeBody_escapeUnits name small]
  rfl

theorem names_memberEntries {members : List (List Nat × Value JsonNumber)}
    (proper : ProperMembers members) : names (memberEntries members) = members.map Prod.fst := by
  induction members with
  | nil => rfl
  | cons member members ih =>
    obtain ⟨_, small⟩ := valueTree_valid member proper.1
    rw [memberEntries, names, labelUnits_escapeUnits small, ih proper.2, List.map_cons]

theorem word_once (text : List Char) : ¬ RepeatsName (.word text) := by
  rintro ⟨_, _, within, _⟩
  cases within

theorem string_once (body : List Char) : ¬ RepeatsName (.string body) := by
  rintro ⟨_, _, within, _⟩
  cases within

mutual

theorem writeTree_once : (value : Value JsonNumber) → Proper value → ¬ RepeatsName (writeTree value)
  | .null, _ => word_once _
  | .bool _, _ => word_once _
  | .number _, _ => word_once _
  | .string _, _ => string_once _
  | .array items, proper => by
      rw [writeTree, repeatsName_block]
      rintro (⟨impossible, _⟩ | ⟨value, listed, repeated⟩)
      · cases impossible
      · exact itemEntries_once items proper value listed repeated
  | .object members, proper => by
      rw [writeTree, repeatsName_block, names_memberEntries proper.2]
      rintro (⟨_, repeated⟩ | ⟨value, listed, repeated⟩)
      · exact repeated proper.1
      · exact memberEntries_once members proper.2 value listed repeated

theorem itemEntries_once : (items : List (Value JsonNumber)) → ProperItems items →
    ∀ tree ∈ values (itemEntries items), ¬ RepeatsName tree
  | [], _ => fun _ impossible => absurd impossible List.not_mem_nil
  | item :: items, proper => by
      intro tree listed
      rw [itemEntries, values, List.mem_cons] at listed
      rcases listed with rfl | later
      · exact writeTree_once item proper.1
      · exact itemEntries_once items proper.2 tree later

theorem valueTree_once : (member : List Nat × Value JsonNumber) → ProperMember member →
    ¬ RepeatsName (valueTree member)
  | (_, value), proper => writeTree_once value proper.2

theorem memberEntries_once : (members : List (List Nat × Value JsonNumber)) →
    ProperMembers members → ∀ tree ∈ values (memberEntries members), ¬ RepeatsName tree
  | [], _ => fun _ impossible => absurd impossible List.not_mem_nil
  | member :: members, proper => by
      intro tree listed
      rw [memberEntries, values, List.mem_cons] at listed
      rcases listed with rfl | later
      · exact valueTree_once member proper.1
      · exact memberEntries_once members proper.2 tree later

end

theorem writeTree_string {units : List Nat} (small : Units units) :
    (writeTree (.string units)).value readNumeral = .string units := by
  rw [writeTree, Tree.value, bodyUnits, decodeBody_escapeUnits units small]
  rfl

theorem writeTree_number {q : ℚ} (binary : Binary64 q) :
    (writeTree (.number (.finite q))).value readNumeral = .number (.finite q) := by
  obtain ⟨numeral, read, value⟩ := numberToString_reads q
  rw [writeTree, Tree.value, numberText, wordValue, read]
  simp only [value binary]

theorem writeTree_natural {n : Nat} (bounded : n < 2 ^ 53) :
    (writeTree (.number (.finite n))).value readNumeral = .number (.finite n) :=
  writeTree_number (binary64_natCast bounded)

theorem properMembers_append {members others : List (List Nat × Value JsonNumber)} :
    ProperMembers (members ++ others) ↔ ProperMembers members ∧ ProperMembers others := by
  induction members with
  | nil => simp [ProperMembers]
  | cons member members ih => simp [ProperMembers, ih, and_assoc]

theorem members_memberEntries {members : List (List Nat × Value JsonNumber)}
    (proper : ProperMembers members) :
    (memberEntries members).members readNumeral =
      members.map fun member => (member.1, (valueTree member).value readNumeral) := by
  induction members with
  | nil => rfl
  | cons member members ih =>
    obtain ⟨_, small⟩ := valueTree_valid member proper.1
    rw [memberEntries, Entries.members, labelUnits_escapeUnits small, ih proper.2, List.map_cons]

theorem lookup_memberEntries {members : List (List Nat × Value JsonNumber)}
    (proper : ProperMembers members) : lookup key (memberEntries members) =
      (members.find? fun member => decide (member.1 = key)).map valueTree := by
  induction members with
  | nil => rfl
  | cons member members ih =>
    obtain ⟨_, small⟩ := valueTree_valid member proper.1
    rw [memberEntries, lookup, labelUnits_escapeUnits small, ih proper.2]
    by_cases named : member.1 = key
    · rw [if_pos named, List.find?_cons_of_pos (by simpa using named), Option.map_some]
    · rw [if_neg named, List.find?_cons_of_neg (by simpa using named)]

theorem replace_memberEntries {value' : Value JsonNumber}
    {members others : List (List Nat × Value JsonNumber)} (proper : ProperMembers members)
    (small : Units key) (fresh : key ∉ members.map Prod.fst) :
    replace key (writeTree value') (memberEntries (members ++ (key, value) :: others)) =
      memberEntries (members ++ (key, value') :: others) := by
  induction members with
  | nil =>
    rw [List.nil_append, List.nil_append, memberEntries, replace,
      if_pos (labelUnits_escapeUnits small)]
    rfl
  | cons member members ih =>
    rw [List.map_cons, List.mem_cons, not_or] at fresh
    obtain ⟨_, named⟩ := valueTree_valid member proper.1
    rw [List.cons_append, List.cons_append, memberEntries, replace, memberEntries,
      labelUnits_escapeUnits named, if_neg (Ne.symm fresh.1), ih proper.2 fresh.2]

theorem cutLater_memberEntries (small : Units key) (members : List (List Nat × Value JsonNumber)) :
    ∀ member : List Nat × Value JsonNumber,
    ProperMembers members → key ∉ members.map Prod.fst →
    cutLater key (memberEntries (member :: members ++ [(key, value)])) =
      memberEntries (member :: members) := by
  induction members with
  | nil =>
    intro member _ _
    have named := labelUnits_escapeUnits small
    simp only [List.cons_append, List.nil_append, memberEntries, cutLater, named, ↓reduceIte]
  | cons next members ih =>
    intro member proper fresh
    rw [List.map_cons, List.mem_cons, not_or] at fresh
    obtain ⟨_, named⟩ := valueTree_valid next proper.1
    have label := labelUnits_escapeUnits named
    have later := ih next proper.2 fresh.2
    rw [List.cons_append, memberEntries] at later
    rw [List.cons_append, List.cons_append, memberEntries, memberEntries, cutLater, label,
      if_neg (Ne.symm fresh.1), later]
    rfl

theorem cutTree_last {members : List (List Nat × Value JsonNumber)} (proper : ProperMembers members)
    (small : Units key) (fresh : key ∉ members.map Prod.fst) :
    cutTree key (writeTree (.object (members ++ [(key, value)]))) =
      writeTree (.object members) := by
  cases members with
  | nil =>
    have named := labelUnits_escapeUnits small
    simp only [List.nil_append, writeTree, memberEntries, cutTree, cutBlock, named, ↓reduceIte]
  | cons member members =>
    rw [List.map_cons, List.mem_cons, not_or] at fresh
    obtain ⟨_, named⟩ := valueTree_valid member proper.1
    have label := labelUnits_escapeUnits named
    have later := @cutLater_memberEntries key value small members member proper.2 fresh.2
    rw [List.cons_append, memberEntries] at later
    simp only [List.cons_append, writeTree, memberEntries, cutTree, cutBlock, label,
      if_neg (Ne.symm fresh.1), later]

end Heniek.JsonWriter
