import Heniek.RecoveryPolicy

/-!
Texts that end where their own syntax says they do: quoted strings, words such as
numerals, and lists of such texts between brackets. What follows a text in a longer one
is then determined, and so are the items and the members that were written.
-/

namespace Heniek.JsonTexts
open RecoveryPolicy

def hexValue (c : Char) : Nat := if c.isDigit then c.toNat - '0'.toNat else c.toNat + 10 - 'a'.toNat

/-- The character that an escape stands for after its backslash, and what follows. -/
def unescapeTail : List Char → Option (Char × List Char)
  | '"' :: rest => some ('"', rest)
  | '\\' :: rest => some ('\\', rest)
  | 'b' :: rest => some (Char.ofNat 8, rest)
  | 'f' :: rest => some (Char.ofNat 12, rest)
  | 'n' :: rest => some (Char.ofNat 10, rest)
  | 'r' :: rest => some (Char.ofNat 13, rest)
  | 't' :: rest => some (Char.ofNat 9, rest)
  | 'u' :: '0' :: '0' :: high :: low :: rest =>
    some (Char.ofNat (16 * hexValue high + hexValue low), rest)
  | _ => none

/-- The first character of an escaped text, and what follows, up to the closing quote. -/
def unescape : List Char → Option (Char × List Char)
  | [] => none
  | c :: rest =>
    if c = '"' then none else if c = '\\' then unescapeTail rest else some (c, rest)

theorem hexValue_control (n : Fin 32) :
    Char.ofNat (16 * hexValue (hexDigit (n.val / 16)) + hexValue (hexDigit (n.val % 16))) =
      Char.ofNat n.val := by
  revert n
  decide

theorem unescape_escapeChar (c : Char) (rest : List Char) :
    unescape (escapeChar c ++ rest) = some (c, rest) := by
  have number : ∀ n, c.toNat = n → c = Char.ofNat n := by
    rintro n rfl
    exact (Char.ofNat_toNat c).symm
  unfold escapeChar
  split_ifs with quotation backslash backspace feed newline carriage tabulator control
  · rw [quotation]
    rfl
  · rw [backslash]
    rfl
  · rw [number 8 backspace]
    rfl
  · rw [number 12 feed]
    rfl
  · rw [number 10 newline]
    rfl
  · rw [number 13 carriage]
    rfl
  · rw [number 9 tabulator]
    rfl
  · have decoded := hexValue_control ⟨c.toNat, control⟩
    simp [unescape, unescapeTail, decoded]
  · simp [unescape, quotation, backslash]

variable {s t text : List Char}

/-- An escaped text ends at the first quote that is not part of an escape. -/
theorem escaped_unique {a b : List Char}
    (same : a.flatMap escapeChar ++ '"' :: s = b.flatMap escapeChar ++ '"' :: t) :
    a = b ∧ s = t := by
  induction a generalizing b with
  | nil =>
    cases b with
    | nil => simpa using same
    | cons d b =>
      have read := congrArg unescape same
      rw [List.flatMap_cons, List.append_assoc, unescape_escapeChar] at read
      simp [unescape] at read
  | cons c a ih =>
    cases b with
    | nil =>
      have read := congrArg unescape same
      rw [List.flatMap_cons, List.append_assoc, unescape_escapeChar] at read
      simp [unescape] at read
    | cons d b =>
      have read := congrArg unescape same
      simp only [List.flatMap_cons, List.append_assoc, unescape_escapeChar, Option.some.injEq,
        Prod.mk.injEq] at read
      have later := ih read.2
      rw [read.1, later.1]
      exact ⟨rfl, later.2⟩

theorem quote_unique {a b : String} (same : (quote a).toList ++ s = (quote b).toList ++ t) :
    a = b ∧ s = t := by
  have escaped := escaped_unique (a := a.toList) (b := b.toList) (s := s) (t := t)
    (by simpa [quote] using same)
  exact ⟨String.toList_inj.mp escaped.1, escaped.2⟩

theorem quote_inj {a b : String} (same : quote a = quote b) : a = b :=
  (quote_unique (s := []) (t := []) (by rw [same])).1

/-- The characters that end a word. -/
def closing : List Char := [',', ']', '\x7d']

/-- A text after which a word has ended. -/
def Closes (text : List Char) : Prop := ∀ c ∈ text.head?, c ∈ closing

/-- A text that is told apart from a text of a class whatever closes the two. -/
def Unique (kind : List Char → Prop) (text : List Char) : Prop :=
  ∀ other, kind other → ∀ s t, Closes s → Closes t → text ++ s = other ++ t → text = other ∧ s = t

def Opens (text : List Char) : Prop := ∃ c rest, text = c :: rest ∧ c ∉ closing

/-- What is written after the first of the items. -/
def following (items : List (List Char)) : List Char := items.flatMap fun item => ',' :: item

theorem intercalate_comma (item : List Char) (items : List (List Char)) :
    [','].intercalate (item :: items) = item ++ following items := by
  induction items generalizing item with
  | nil => simp [following]
  | cons next items ih =>
    rw [List.intercalate_cons_cons, ih]
    simp [following]

section Items

variable {kind : List Char → Prop} {close : Char} {s t : List Char}

theorem closes_following (closer : close ∈ closing) (items : List (List Char)) (rest : List Char) :
    Closes (following items ++ close :: rest) := by
  cases items with
  | nil => simpa [Closes, following] using closer
  | cons item items => simp [Closes, following, closing]

theorem following_unique (closer : close ∈ closing) (separate : close ≠ ',')
    {items others : List (List Char)} (unique : ∀ item ∈ items, Unique kind item)
    (kinds : ∀ other ∈ others, kind other)
    (same : following items ++ close :: s = following others ++ close :: t) :
    items = others ∧ s = t := by
  induction items generalizing others with
  | nil =>
    cases others with
    | nil => simpa [following] using same
    | cons other others => simp [following, separate] at same
  | cons item items ih =>
    cases others with
    | nil => simp [following, separate.symm] at same
    | cons other others =>
      have both : item ++ (following items ++ close :: s) =
          other ++ (following others ++ close :: t) := by
        simpa [following] using same
      have first := unique item (by simp) other (kinds other (by simp)) _ _
        (closes_following closer items s) (closes_following closer others t) both
      have later := ih (fun next member => unique next (by simp [member]))
        (fun next member => kinds next (by simp [member])) first.2
      rw [first.1, later.1]
      exact ⟨rfl, later.2⟩

theorem not_close (closer : close ∈ closing) {text more : List Char} (opens : Opens text) :
    text ++ more ≠ close :: s := by
  obtain ⟨c, rest, rfl, different⟩ := opens
  rintro ⟨⟩
  exact different closer

theorem items_unique (closer : close ∈ closing) (separate : close ≠ ',')
    (opens : ∀ text, kind text → Opens text) {items others : List (List Char)}
    (kinds : ∀ item ∈ items, kind item) (unique : ∀ item ∈ items, Unique kind item)
    (kinds' : ∀ other ∈ others, kind other)
    (same : [','].intercalate items ++ close :: s = [','].intercalate others ++ close :: t) :
    items = others ∧ s = t := by
  cases items with
  | nil =>
    cases others with
    | nil => simpa using same
    | cons other others =>
      rw [intercalate_comma, List.append_assoc] at same
      exact absurd same.symm (not_close closer (opens other (kinds' other (by simp))))
  | cons item items =>
    cases others with
    | nil =>
      rw [intercalate_comma, List.append_assoc] at same
      exact absurd same (not_close closer (opens item (kinds item (by simp))))
    | cons other others =>
      rw [intercalate_comma, intercalate_comma, List.append_assoc, List.append_assoc] at same
      have first := unique item (by simp) other (kinds' other (by simp)) _ _
        (closes_following closer items s) (closes_following closer others t) same
      have later := following_unique closer separate
        (fun next member => unique next (by simp [member]))
        (fun next member => kinds' next (by simp [member])) first.2
      rw [first.1, later.1]
      exact ⟨rfl, later.2⟩

end Items

def wordChar (c : Char) : Bool := decide (c ∉ closing ∧ c ∉ ['"', '[', '\x7b', '\x00'])

/-- A member of an object, by its name and the text of its value. -/
def memberText (member : String × List Char) : List Char :=
  (quote member.1).toList ++ ':' :: member.2

inductive JsonText : List Char → Prop where
  | word (text : List Char) (filled : text ≠ []) (plain : ∀ c ∈ text, wordChar c = true) :
      JsonText text
  | string (s : String) : JsonText (quote s).toList
  | array (items : List (List Char)) (each : ∀ item ∈ items, JsonText item) :
      JsonText ('[' :: [','].intercalate items ++ [']'])
  | object (members : List (String × List Char)) (each : ∀ member ∈ members, JsonText member.2) :
      JsonText ('\x7b' :: [','].intercalate (members.map memberText) ++ ['\x7d'])

theorem quote_toList (s : String) :
    (quote s).toList = '"' :: (s.toList.flatMap escapeChar ++ ['"']) := by
  simp [quote]

theorem JsonText.opens (json : JsonText text) : Opens text := by
  cases json with
  | word _ filled plain =>
    cases text with
    | nil => exact absurd rfl filled
    | cons c rest =>
      have worded := plain c (by simp)
      simp only [wordChar, decide_eq_true_eq] at worded
      exact ⟨c, rest, rfl, worded.1⟩
  | string s => exact ⟨'"', _, quote_toList s, by decide⟩
  | array items => exact ⟨'[', _, rfl, by decide⟩
  | object members => exact ⟨'\x7b', _, rfl, by decide⟩

theorem word_unique {a b : List Char} (plain : ∀ c ∈ a, wordChar c = true)
    (plain' : ∀ c ∈ b, wordChar c = true) (closes : Closes s) (closes' : Closes t)
    (same : a ++ s = b ++ t) : a = b ∧ s = t := by
  have stops : ∀ text, Closes text → text.takeWhile wordChar = [] := by
    intro text closed
    cases text with
    | nil => rfl
    | cons c rest =>
      have closer : c ∈ closing := closed c rfl
      simp [wordChar, closer]
  have reads : ∀ word rest, (∀ c ∈ word, wordChar c = true) → Closes rest →
      (word ++ rest).takeWhile wordChar = word := by
    intro word rest worded closed
    rw [List.takeWhile_append_of_pos worded, stops rest closed, List.append_nil]
  have words : a = b := by rw [← reads a s plain closes, same, reads b t plain' closes']
  subst words
  exact ⟨rfl, List.append_cancel_left same⟩

theorem word_ne {word : List Char} {c : Char} (filled : word ≠ [])
    (plain : ∀ c ∈ word, wordChar c = true) (bracket : wordChar c = false) :
    word ++ s ≠ c :: text := by
  cases word with
  | nil => exact absurd rfl filled
  | cons first rest =>
    intro same
    rw [← (List.cons.inj same).1, plain first (by simp)] at bracket
    cases bracket

def IsMember (text : List Char) : Prop :=
  ∃ member : String × List Char, JsonText member.2 ∧ memberText member = text

theorem member_unique {member : String × List Char} (value : Unique JsonText member.2) :
    Unique IsMember (memberText member) := by
  rintro _ ⟨other, json, rfl⟩ s t closes closes' same
  simp only [memberText, List.append_assoc] at same
  have names := quote_unique same
  have values := value other.2 json s t closes closes' (List.cons.inj names.2).2
  rw [memberText, names.1, values.1]
  exact ⟨rfl, values.2⟩

theorem memberText_inj {member other : String × List Char}
    (same : memberText member = memberText other) : member = other := by
  have names := quote_unique same
  exact Prod.ext names.1 (List.cons.inj names.2).2

theorem members_unique {members others : List (String × List Char)}
    (each : ∀ member ∈ members, JsonText member.2)
    (unique : ∀ member ∈ members, Unique JsonText member.2)
    (each' : ∀ other ∈ others, JsonText other.2)
    (same : [','].intercalate (members.map memberText) ++ '\x7d' :: s =
      [','].intercalate (others.map memberText) ++ '\x7d' :: t) :
    members = others ∧ s = t := by
  have opens : ∀ text, IsMember text → Opens text := by
    rintro _ ⟨member, _, rfl⟩
    exact ⟨'"', _, by rw [memberText, quote_toList]; rfl, by decide⟩
  have texts := items_unique (by decide) (by decide) opens
    (List.forall_mem_map.mpr fun member listed => ⟨member, each member listed, rfl⟩)
    (List.forall_mem_map.mpr fun member listed => member_unique (unique member listed))
    (List.forall_mem_map.mpr fun member listed => ⟨member, each' member listed, rfl⟩) same
  exact ⟨List.map_injective_iff.mpr (fun _ _ => memberText_inj) texts.1, texts.2⟩

theorem JsonText.unique (json : JsonText text) : Unique JsonText text := by
  induction json with
  | word text filled plain =>
    intro other json' s t closes closes' same
    cases json' with
    | word _ _ plain' => exact word_unique plain plain' closes closes' same
    | string =>
      exact absurd (same.trans (by rw [quote_toList]; rfl)) (word_ne filled plain (by decide))
    | array => exact absurd same (word_ne filled plain (by decide))
    | object => exact absurd same (word_ne filled plain (by decide))
  | string a =>
    intro other json' s t closes closes' same
    cases json' with
    | word _ filled' plain' =>
      rw [quote_toList] at same
      exact absurd same.symm (word_ne filled' plain' (by decide))
    | string b =>
      have strings := quote_unique same
      rw [strings.1]
      exact ⟨rfl, strings.2⟩
    | array => simp [quote_toList] at same
    | object => simp [quote_toList] at same
  | array items each ih =>
    intro other json' s t closes closes' same
    cases json' with
    | word _ filled' plain' => exact absurd same.symm (word_ne filled' plain' (by decide))
    | string => simp [quote_toList] at same
    | array others each' =>
      simp only [List.cons_append, List.append_assoc, List.cons.injEq,
        true_and] at same
      have lists :=
        items_unique (by decide) (by decide) (fun _ => JsonText.opens) each ih each' same
      rw [lists.1]
      exact ⟨rfl, lists.2⟩
    | object => simp at same
  | object members each ih =>
    intro other json' s t closes closes' same
    cases json' with
    | word _ filled' plain' => exact absurd same.symm (word_ne filled' plain' (by decide))
    | string => simp [quote_toList] at same
    | array => simp at same
    | object others each' =>
      simp only [List.cons_append, List.append_assoc, List.cons.injEq,
        true_and] at same
      have lists := members_unique each ih each' same
      rw [lists.1]
      exact ⟨rfl, lists.2⟩

theorem null_escapeChar (c : Char) : '\x00' ∉ escapeChar c := by
  unfold escapeChar
  split_ifs with quotation backslash backspace feed newline carriage tabulator control
  all_goals try decide
  · have digits : ∀ n : Fin 16, hexDigit n.val ≠ '\x00' := by decide
    have high := digits ⟨c.toNat / 16, by omega⟩
    have low := digits ⟨c.toNat % 16, by omega⟩
    simp only [List.mem_cons, not_or]
    exact ⟨by decide, by decide, by decide, by decide, high.symm, low.symm, by simp⟩
  · rw [List.mem_singleton]
    rintro rfl
    exact control (by decide)

theorem null_quote (s : String) : '\x00' ∉ (quote s).toList := by
  rw [quote_toList]
  simp only [List.mem_cons, List.mem_append, List.mem_flatMap, List.not_mem_nil, not_or,
    not_exists, not_and]
  exact ⟨by decide, fun c _ => null_escapeChar c, by decide⟩

theorem null_intercalate {items : List (List Char)} (each : ∀ item ∈ items, '\x00' ∉ item) :
    '\x00' ∉ [','].intercalate items := by
  cases items with
  | nil => simp
  | cons item items =>
    rw [intercalate_comma, following]
    simp only [List.mem_append, List.mem_flatMap, not_or, not_exists, not_and]
    refine ⟨each item (by simp), fun next listed => ?_⟩
    rw [List.mem_cons, not_or]
    exact ⟨by decide, each next (by simp [listed])⟩

/-- The null character is always escaped. -/
theorem JsonText.no_null (json : JsonText text) : '\x00' ∉ text := by
  induction json with
  | word text _ plain =>
    intro member
    have worded := plain _ member
    revert worded
    decide
  | string s => exact null_quote s
  | array items _ ih =>
    simp only [List.cons_append, List.mem_cons, List.mem_append, List.not_mem_nil, not_or]
    exact ⟨by decide, null_intercalate ih, by decide⟩
  | object members _ ih =>
    have each : ∀ item ∈ members.map memberText, '\x00' ∉ item := by
      refine List.forall_mem_map.mpr fun member listed => ?_
      simp only [memberText, List.mem_append, List.mem_cons, not_or]
      exact ⟨null_quote member.1, by decide, ih member listed⟩
    simp only [List.cons_append, List.mem_cons, List.mem_append, List.not_mem_nil, not_or]
    exact ⟨by decide, null_intercalate each, by decide⟩

theorem array_inj {items others : List (List Char)} (each : ∀ item ∈ items, JsonText item)
    (each' : ∀ other ∈ others, JsonText other)
    (same : '[' :: [','].intercalate items ++ [']'] = '[' :: [','].intercalate others ++ [']']) :
    items = others := by
  simp only [List.cons_append, List.cons.injEq, true_and] at same
  exact (items_unique (by decide) (by decide) (fun _ => JsonText.opens) each
    (fun item listed => (each item listed).unique) each' same).1

theorem object_inj {members others : List (String × List Char)}
    (each : ∀ member ∈ members, JsonText member.2) (each' : ∀ other ∈ others, JsonText other.2)
    (same : '\x7b' :: [','].intercalate (members.map memberText) ++ ['\x7d'] =
      '\x7b' :: [','].intercalate (others.map memberText) ++ ['\x7d']) : members = others := by
  simp only [List.cons_append, List.cons.injEq, true_and] at same
  exact (members_unique each (fun member listed => (each member listed).unique) each' same).1

end Heniek.JsonTexts
