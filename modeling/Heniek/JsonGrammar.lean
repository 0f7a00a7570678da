import Heniek.JsonSyntax
import Mathlib.Data.List.TakeWhile
import Mathlib.Tactic.SplitIfs

/-!
Reading inverts rendering: what is read off a text is a valid tree with that very
text, and a valid tree is read back from its text whatever follows, as long as that
does not go on with its last word.
-/

namespace JsonSyntax
open ScriptText

/-- The characters of numerals and literals. -/
def plainChar (c : Char) : Bool := c.isAlphanum || decide (c ∈ ['-', '+', '.'])

variable {c : Char} {text rest : List Char} {parts : List Char × List Char} {fuel : Nat}

theorem plain_of_digit (digit : c.isDigit = true) : plainChar c = true := by
  simp [plainChar, Char.isAlphanum, digit]

theorem takeWhile_digits_plain (listed : c ∈ text.takeWhile Char.isDigit) : plainChar c = true :=
  plain_of_digit (List.mem_takeWhile_imp listed)

theorem wholePart_spec (read : wholePart text = some parts) :
    text = parts.1 ++ parts.2 ∧ parts.1 ≠ [] ∧ ∀ c ∈ parts.1, plainChar c = true := by
  unfold wholePart at read
  simp only at read
  split_ifs at read with empty leading
  cases read
  exact ⟨List.takeWhile_append_dropWhile.symm, empty, fun c listed => takeWhile_digits_plain listed⟩

theorem fractionPart_plain (read : fractionPart text = some parts)
    (rest : ∀ c ∈ parts.2, plainChar c = true) : ∀ c ∈ text, plainChar c = true := by
  unfold fractionPart at read
  split at read
  · rename_i digits
    split_ifs at read with empty
    cases read
    intro c listed
    rcases List.mem_cons.mp listed with rfl | listed
    · rfl
    · rw [← List.takeWhile_append_dropWhile (p := Char.isDigit) (l := digits)] at listed
      rcases List.mem_append.mp listed with early | late
      · exact takeWhile_digits_plain early
      · exact rest c late
  · cases read
    exact rest

theorem exponentDigits_plain {value : Int} (read : exponentDigits text = some value) :
    ∀ c ∈ text, plainChar c = true := by
  unfold exponentDigits at read
  split_ifs at read with digits
  exact fun c listed => plain_of_digit (List.all_eq_true.mp digits.2 c listed)

theorem exponentPart_plain {value : Int} (read : exponentPart text = some value) :
    ∀ c ∈ text, plainChar c = true := by
  cases text with
  | nil => exact fun c listed => absurd listed List.not_mem_nil
  | cons e text =>
    unfold exponentPart at read
    simp only at read
    split_ifs at read with exponent
    have letter : plainChar e = true := by
      rcases exponent with rfl | rfl <;> rfl
    split at read
    · obtain ⟨digits, read, _⟩ := Option.map_eq_some_iff.mp read
      simpa [letter, show plainChar '-' = true from rfl] using exponentDigits_plain read
    · simpa [letter, show plainChar '+' = true from rfl] using exponentDigits_plain read
    · simpa [letter] using exponentDigits_plain read

theorem unsignedNumeral_plain {negative : Bool} {numeral : Numeral}
    (read : unsignedNumeral negative text = some numeral) :
    text ≠ [] ∧ ∀ c ∈ text, plainChar c = true := by
  obtain ⟨whole, whole_read, read⟩ := Option.bind_eq_some_iff.mp read
  obtain ⟨fraction, fraction_read, read⟩ := Option.bind_eq_some_iff.mp read
  obtain ⟨exponent, exponent_read, _⟩ := Option.map_eq_some_iff.mp read
  obtain ⟨rfl, filled, digits⟩ := wholePart_spec whole_read
  refine ⟨by simp [filled], ?_⟩
  intro c listed
  rcases List.mem_append.mp listed with early | late
  · exact digits c early
  · exact fractionPart_plain fraction_read (exponentPart_plain exponent_read) c late

theorem numeral?_plain {numeral : Numeral} (read : numeral? text = some numeral) :
    text ≠ [] ∧ ∀ c ∈ text, plainChar c = true := by
  unfold numeral? at read
  split at read
  · obtain ⟨_, digits⟩ := unsignedNumeral_plain read
    exact ⟨by simp, by simpa [show plainChar '-' = true from rfl] using digits⟩
  · exact unsignedNumeral_plain read

theorem validWord_plain (valid : validWord text = true) :
    text ≠ [] ∧ ∀ c ∈ text, plainChar c = true := by
  unfold validWord at valid
  rcases Bool.or_eq_true_iff.mp valid with literal | numeral
  · have plain : (literals.all fun word => !word.isEmpty && word.all plainChar) = true := rfl
    have word := List.all_eq_true.mp plain text (of_decide_eq_true literal)
    rw [Bool.and_eq_true, Bool.not_eq_true', List.isEmpty_eq_false_iff, List.all_eq_true] at word
    exact word
  · obtain ⟨numeral, read⟩ := Option.isSome_iff_exists.mp numeral
    exact numeral?_plain read

theorem wordChar_of_plain (plain : plainChar c = true) :
    wordChar c = true ∧ c ≠ '"' ∧ c ≠ '[' ∧ c ≠ '\x7b' ∧ c ≠ ':' := by
  refine ⟨?_, ?_, ?_, ?_, ?_⟩
  · unfold wordChar isBlank
    simp only [Bool.and_eq_true, Bool.not_eq_true', decide_eq_false_iff_not, decide_eq_true_eq,
      List.mem_cons, List.not_mem_nil, or_false, not_or]
    refine ⟨⟨?_, ?_, ?_, ?_⟩, ?_, ?_, ?_⟩ <;>
      · rintro rfl
        exact absurd plain (by decide)
  all_goals
    rintro rfl
    exact absurd plain (by decide)

theorem splitBody_sound (split : splitBody text = some parts) :
    text = parts.1 ++ '"' :: parts.2 := by
  induction text using splitBody.induct generalizing parts with
  | case1 => cases split
  | case2 =>
    cases split
    rfl
  | case3 c quotation => simp [splitBody, quotation] at split
  | case4 e rest =>
    cases split
    rfl
  | case5 e rest quotation ih =>
    rw [splitBody, if_neg quotation, if_pos rfl] at split
    obtain ⟨tail, read, rfl⟩ := Option.map_eq_some_iff.mp split
    rw [ih read]
    rfl
  | case6 c e rest quotation escape ih =>
    rw [splitBody, if_neg quotation, if_neg escape] at split
    obtain ⟨tail, read, rfl⟩ := Option.map_eq_some_iff.mp split
    rw [ih read]
    rfl

theorem splitBody_pass {passed : List Char} (plain : ∀ c ∈ passed, c ≠ '"' ∧ c ≠ '\\')
    (text : List Char) :
    splitBody (passed ++ text) = (splitBody text).map fun parts =>
      (passed ++ parts.1, parts.2) := by
  induction passed with
  | nil => simp
  | cons c passed ih =>
    obtain ⟨quotation, escape⟩ := plain c List.mem_cons_self
    have rest := ih fun c listed => plain c (List.mem_cons_of_mem _ listed)
    have step : ∀ tail, splitBody (c :: tail) =
        (splitBody tail).map fun parts => (c :: parts.1, parts.2) := by
      intro tail
      cases tail with
      | nil => simp [splitBody, quotation]
      | cons e tail => rw [splitBody, if_neg quotation, if_neg escape]
    rw [List.cons_append, step, rest, Option.map_map]
    rfl

theorem splitBody_escape (e : Char) (rest : List Char) :
    splitBody ('\\' :: e :: rest) =
      (splitBody rest).map fun parts => ('\\' :: e :: parts.1, parts.2) := by
  rw [splitBody, if_neg (by decide), if_pos rfl]

theorem hexDigit?_plain {value : Nat} (read : hexDigit? c = some value) : c ≠ '"' ∧ c ≠ '\\' := by
  constructor <;>
    · rintro rfl
      cases read

theorem hexUnit?_plain {a b d : Char} {unit : Nat} (read : hexUnit? a b c d = some unit) :
    ∀ x ∈ [a, b, c, d], x ≠ '"' ∧ x ≠ '\\' := by
  obtain ⟨_, first, read⟩ := Option.bind_eq_some_iff.mp read
  obtain ⟨_, second, read⟩ := Option.bind_eq_some_iff.mp read
  obtain ⟨_, third, read⟩ := Option.bind_eq_some_iff.mp read
  obtain ⟨_, fourth, _⟩ := Option.map_eq_some_iff.mp read
  intro x listed
  simp only [List.mem_cons, List.not_mem_nil, or_false] at listed
  rcases listed with rfl | rfl | rfl | rfl
  · exact hexDigit?_plain first
  · exact hexDigit?_plain second
  · exact hexDigit?_plain third
  · exact hexDigit?_plain fourth

/-- A string that can be decoded ends where its own escapes say. -/
theorem splitBody_decoded {body : List Char} {units : List Nat}
    (decoded : decodeBody body = some units) (rest : List Char) :
    splitBody (body ++ '"' :: rest) = some (body, rest) := by
  induction body using decodeBody.induct generalizing units with
  | case1 => cases rest <;> rfl
  | case2 => cases decoded
  | case3 a b c d tail ih =>
    simp only [decodeBody, ↓reduceIte] at decoded
    obtain ⟨unit, read, decoded⟩ := Option.bind_eq_some_iff.mp decoded
    obtain ⟨_, decoded, _⟩ := Option.map_eq_some_iff.mp decoded
    have passed := splitBody_pass (hexUnit?_plain read) (tail ++ '"' :: rest)
    rw [ih decoded] at passed
    rw [List.cons_append, List.cons_append, splitBody_escape]
    simp only [List.cons_append, List.nil_append] at passed ⊢
    rw [passed]
    rfl
  | case4 text short =>
    simp only [decodeBody, ↓reduceIte, reduceCtorEq] at decoded
  | case5 e tail other ih =>
    unfold decodeBody at decoded
    simp only [↓reduceIte, other] at decoded
    obtain ⟨unit, _, decoded⟩ := Option.bind_eq_some_iff.mp decoded
    obtain ⟨_, decoded, _⟩ := Option.map_eq_some_iff.mp decoded
    rw [List.cons_append, List.cons_append, splitBody_escape, ih decoded]
    rfl
  | case6 c tail escape wrong =>
    unfold decodeBody at decoded
    simp only [escape, wrong, ↓reduceIte, reduceCtorEq] at decoded
  | case7 c tail escape right ih =>
    rw [not_or] at right
    have plain : ∀ x ∈ [c], x ≠ '"' ∧ x ≠ '\\' := by simp [right.1, escape]
    unfold decodeBody at decoded
    simp only [escape, right, or_self, ↓reduceIte] at decoded
    obtain ⟨_, decoded, _⟩ := Option.map_eq_some_iff.mp decoded
    have passed := splitBody_pass plain (tail ++ '"' :: rest)
    rw [ih decoded] at passed
    exact passed

theorem readBody_quoted {body : List Char} (valid : (decodeBody body).isSome = true)
    (rest : List Char) : readBody (quoted body ++ rest) = some (body, rest) := by
  obtain ⟨units, decoded⟩ := Option.isSome_iff_exists.mp valid
  have split := splitBody_decoded decoded rest
  simp [quoted, readBody, split, valid]

theorem readBody_sound (read : readBody text = some parts) :
    text = quoted parts.1 ++ parts.2 ∧ (decodeBody parts.1).isSome = true := by
  unfold readBody at read
  split at read
  · obtain ⟨halves, split, read⟩ := Option.bind_eq_some_iff.mp read
    split_ifs at read with valid
    cases read
    refine ⟨?_, valid⟩
    rw [splitBody_sound split]
    simp [quoted]
  · cases read

theorem blank_takeWhile (text : List Char) : Blank (text.takeWhile isBlank) :=
  fun _ listed => List.mem_takeWhile_imp listed

def Unblank (text : List Char) : Prop := ∀ c ∈ text.head?, isBlank c = false

theorem takeWhile_blank {blank : List Char} (valid : Blank blank) (starts : Unblank rest) :
    (blank ++ rest).takeWhile isBlank = blank ∧ (blank ++ rest).dropWhile isBlank = rest := by
  have stops : rest.takeWhile isBlank = [] ∧ rest.dropWhile isBlank = rest := by
    cases rest with
    | nil => exact ⟨rfl, rfl⟩
    | cons c rest =>
      have different : isBlank c = false := starts c rfl
      simp [different]
  rw [List.takeWhile_append_of_pos valid, List.dropWhile_append_of_pos valid, stops.1, stops.2]
  simp

theorem blank_split (text : List Char) :
    text = text.takeWhile isBlank ++ text.dropWhile isBlank :=
  List.takeWhile_append_dropWhile.symm

theorem readLabel_sound {kind : Kind} {parts : Option Label × List Char}
    (read : readLabel kind text = some parts) :
    text = renderLabel parts.1 ++ parts.2 ∧ LabelValid kind parts.1 := by
  cases kind with
  | array =>
    cases read
    exact ⟨rfl, rfl⟩
  | object =>
    obtain ⟨body, named, labelled⟩ := Option.bind_eq_some_iff.mp read
    obtain ⟨rfl, valid⟩ := readBody_sound named
    split at labelled
    · rename_i rest colon
      cases labelled
      refine ⟨?_, rfl, valid, blank_takeWhile _, blank_takeWhile _⟩
      have gap := blank_split body.2
      have lead := blank_split rest
      rw [colon] at gap
      simp only [renderLabel, Label.render, List.append_assoc, List.cons_append]
      rw [← lead, ← gap]
    · cases labelled

theorem readLabel_render {kind : Kind} {label : Option Label} (valid : LabelValid kind label)
    (starts : Unblank rest) : readLabel kind (renderLabel label ++ rest) = some (label, rest) := by
  cases label with
  | none =>
    obtain rfl : kind = .array := valid
    rfl
  | some label =>
    obtain ⟨rfl, decoded, gap, lead⟩ := valid
    have colon : Unblank (':' :: (label.lead ++ rest)) := by
      rintro c ⟨⟩
      rfl
    obtain ⟨gapTaken, gapDropped⟩ := takeWhile_blank gap colon
    obtain ⟨leadTaken, leadDropped⟩ := takeWhile_blank lead starts
    have text : renderLabel (some label) ++ rest =
        quoted label.body ++ (label.gap ++ ':' :: (label.lead ++ rest)) := by
      simp [renderLabel, Label.render]
    rw [text, readLabel, readBody_quoted decoded]
    simp only [Option.bind_some, gapDropped, gapTaken, leadTaken, leadDropped]

/-- What follows a tree does not go on with its last word. -/
def Ends (rest : List Char) : Prop := ∀ c ∈ rest.head?, wordChar c = false

theorem readWord_valid (valid : validWord text = true) (ends : Ends rest) :
    readWord (text ++ rest) = some (.word text, rest) := by
  have word : ∀ c ∈ text, wordChar c = true :=
    fun c listed => (wordChar_of_plain ((validWord_plain valid).2 c listed)).1
  have stops : rest.takeWhile wordChar = [] ∧ rest.dropWhile wordChar = rest := by
    cases rest with
    | nil => exact ⟨rfl, rfl⟩
    | cons c rest =>
      have different : wordChar c = false := ends c rfl
      simp [different]
  have taken : (text ++ rest).takeWhile wordChar = text := by
    rw [List.takeWhile_append_of_pos word, stops.1, List.append_nil]
  rw [readWord, taken, if_pos valid, List.dropWhile_append_of_pos word, stops.2]

theorem readWord_sound {parts : Tree × List Char} (read : readWord text = some parts) :
    text = parts.1.render ++ parts.2 ∧ parts.1.Valid := by
  unfold readWord at read
  split_ifs at read with valid
  cases read
  exact ⟨List.takeWhile_append_dropWhile.symm, valid⟩

def TreeSound (fuel : Nat) : Prop := ∀ text parts, readTree fuel text = some parts →
  text = parts.1.render ++ parts.2 ∧ parts.1.Valid

def BlockSound (fuel : Nat) : Prop := ∀ kind text parts, readBlock fuel kind text = some parts →
  kind.opening :: text = parts.1.render ++ parts.2 ∧ parts.1.Valid

def EntriesSound (fuel : Nat) : Prop := ∀ kind text parts, readEntries fuel kind text = some parts →
  parts.1 ≠ .nil ∧ text = parts.1.render ++ kind.closing :: parts.2 ∧ parts.1.Valid kind

theorem treeSound_succ (blocks : BlockSound fuel) : TreeSound (fuel + 1) := by
  intro text parts read
  cases text with
  | nil => cases read
  | cons c text =>
    simp only [readTree] at read
    split_ifs at read with quotation array object
    · obtain ⟨body, quoted, rfl⟩ := Option.map_eq_some_iff.mp read
      exact readBody_sound quoted
    · rw [array]
      exact blocks _ _ _ read
    · rw [object]
      exact blocks _ _ _ read
    · exact readWord_sound read

theorem further_eq {rest : Entries} (filled : rest ≠ .nil) (text : List Char) :
    further rest text = ',' :: text := by
  cases rest with
  | nil => exact absurd rfl filled
  | cons => rfl

theorem padValid_filled {entries : Entries} (filled : entries ≠ .nil) : PadValid [] entries := by
  cases entries with
  | nil => exact absurd rfl filled
  | cons => rfl

theorem blockSound_succ (entries : EntriesSound fuel) : BlockSound (fuel + 1) := by
  intro kind text parts read
  simp only [readBlock] at read
  split at read
  · cases read
  · rename_i c rest dropped
    split_ifs at read with closed
    · cases read
      have pad := blank_split text
      rw [dropped, closed] at pad
      refine ⟨?_, blank_takeWhile text, trivial⟩
      simp only [Tree.render, Entries.render, List.append_nil, List.cons_append,
        List.append_assoc, List.nil_append]
      rw [← pad]
    · obtain ⟨filled, inner, rfl⟩ := Option.map_eq_some_iff.mp read
      obtain ⟨nonempty, same, valid⟩ := entries kind text filled inner
      refine ⟨?_, padValid_filled nonempty, valid⟩
      rw [same]
      simp [Tree.render]

theorem entriesSound_succ (trees : TreeSound fuel) (entries : EntriesSound fuel) :
    EntriesSound (fuel + 1) := by
  intro kind text parts read
  simp only [readEntries] at read
  obtain ⟨label, labelled, read⟩ := Option.bind_eq_some_iff.mp read
  obtain ⟨value, valued, read⟩ := Option.bind_eq_some_iff.mp read
  obtain ⟨label_text, label_valid⟩ := readLabel_sound labelled
  obtain ⟨value_text, value_valid⟩ := trees _ _ valued
  have before := blank_split text
  have after := blank_split value.2
  split at read
  · cases read
  · rename_i c rest dropped
    rw [dropped] at after
    rw [label_text, value_text, after] at before
    split_ifs at read with comma closed
    · obtain ⟨others, inner, rfl⟩ := Option.map_eq_some_iff.mp read
      obtain ⟨nonempty, same, valid⟩ := entries kind rest others inner
      refine ⟨by simp, ?_, blank_takeWhile text, label_valid, value_valid, blank_takeWhile _, valid⟩
      rw [same, comma] at before
      simpa [Entries.render, further_eq nonempty] using before
    · cases read
      refine
        ⟨by simp, ?_, blank_takeWhile text, label_valid, value_valid, blank_takeWhile _, trivial⟩
      rw [closed] at before
      simpa [Entries.render, further] using before

theorem read_sound (fuel : Nat) : TreeSound fuel ∧ BlockSound fuel ∧ EntriesSound fuel := by
  induction fuel with
  | zero =>
    refine ⟨?_, ?_, ?_⟩
    · intro text parts impossible
      cases impossible
    · intro kind text parts impossible
      cases impossible
    · intro kind text parts impossible
      cases impossible
  | succ fuel ih =>
    exact ⟨treeSound_succ ih.2.1, blockSound_succ ih.2.2, entriesSound_succ ih.1 ih.2.2⟩

mutual

/-- The fuel that reading a tree takes. -/
def Tree.cost : Tree → Nat
  | .word _ => 1
  | .string _ => 1
  | .block _ _ entries => entries.cost + 2

def Entries.cost : Entries → Nat
  | .nil => 0
  | .cons _ _ value _ rest => max value.cost rest.cost + 1

end

def Begins (text : List Char) : Prop := ∃ c rest, text = c :: rest ∧ wordChar c = true

theorem Begins.append (begins : Begins text) (more : List Char) : Begins (text ++ more) := by
  obtain ⟨c, rest, rfl, word⟩ := begins
  exact ⟨c, rest ++ more, rfl, word⟩

theorem Begins.unblank (begins : Begins text) : Unblank text := by
  obtain ⟨c, rest, rfl, word⟩ := begins
  rintro d ⟨⟩
  simpa [wordChar] using (Bool.and_eq_true_iff.mp word).1

theorem Tree.begins {tree : Tree} (valid : tree.Valid) : Begins tree.render := by
  cases tree with
  | word text =>
    obtain ⟨filled, plain⟩ := validWord_plain valid
    obtain ⟨c, rest, rfl⟩ := List.exists_cons_of_ne_nil filled
    exact ⟨c, rest, rfl, (wordChar_of_plain (plain c List.mem_cons_self)).1⟩
  | string body => exact ⟨'"', body ++ ['"'], rfl, rfl⟩
  | block kind pad entries =>
    refine ⟨kind.opening, pad ++ entries.render ++ [kind.closing], rfl, ?_⟩
    cases kind <;> rfl

theorem begins_label (label : Option Label) (begins : Begins text) :
    Begins (renderLabel label ++ text) := by
  cases label with
  | none => exact begins
  | some label =>
    refine ⟨'"', label.body ++ ['"'] ++ label.gap ++ ':' :: label.lead ++ text, ?_, rfl⟩
    simp [renderLabel, Label.render, quoted]

theorem Kind.closing_spec (kind : Kind) :
    wordChar kind.closing = false ∧ isBlank kind.closing = false ∧ kind.closing ≠ ',' := by
  cases kind <;> decide

theorem unblank_cons (mark : isBlank c = false) (text : List Char) : Unblank (c :: text) := by
  rintro d ⟨⟩
  exact mark

theorem ends_blank {blank : List Char} (valid : Blank blank) (ends : Ends text) :
    Ends (blank ++ text) := by
  cases blank with
  | nil => exact ends
  | cons c blank =>
    rintro d ⟨⟩
    simp [wordChar, valid c List.mem_cons_self]

/-- What follows a value within its block. -/
def remainder (kind : Kind) (rest : Entries) (text : List Char) : List Char :=
  further rest rest.render ++ kind.closing :: text

theorem remainder_marks (kind : Kind) (rest : Entries) (text : List Char) :
    Unblank (remainder kind rest text) ∧ Ends (remainder kind rest text) := by
  cases rest with
  | nil =>
    constructor
    · rintro d ⟨⟩
      exact kind.closing_spec.2.1
    · rintro d ⟨⟩
      exact kind.closing_spec.1
  | cons before label value after rest =>
    constructor <;>
      · rintro d ⟨⟩
        rfl

mutual

theorem readTree_render : (tree : Tree) → tree.Valid → {fuel : Nat} → tree.cost ≤ fuel →
    {rest : List Char} → Ends rest → readTree fuel (tree.render ++ rest) = some (tree, rest)
  | .word text, valid, fuel, enough, rest, ends => by
      obtain ⟨fuel, rfl⟩ : ∃ n, fuel = n + 1 := ⟨fuel - 1, by simp [Tree.cost] at enough; omega⟩
      obtain ⟨filled, plain⟩ := validWord_plain valid
      have word := readWord_valid valid ends
      obtain ⟨c, tail, rfl⟩ := List.exists_cons_of_ne_nil filled
      obtain ⟨_, quotation, array, object, _⟩ := wordChar_of_plain (plain c List.mem_cons_self)
      rw [Tree.render, List.cons_append, readTree, if_neg quotation]
      simp only [Kind.opening, array, object, ↓reduceIte]
      exact word
  | .string body, valid, fuel, enough, rest, _ => by
      obtain ⟨fuel, rfl⟩ : ∃ n, fuel = n + 1 := ⟨fuel - 1, by simp [Tree.cost] at enough; omega⟩
      have read := readBody_quoted valid rest
      simp only [quoted, List.cons_append] at read
      rw [Tree.render, quoted, List.cons_append, readTree, if_pos rfl, read]
      rfl
  | .block kind pad .nil, valid, fuel, enough, rest, _ => by
      obtain ⟨fuel, rfl⟩ : ∃ n, fuel = n + 2 := ⟨fuel - 2, by simp [Tree.cost] at enough; omega⟩
      have blank : Blank pad := valid.1
      have stops : Unblank (kind.closing :: rest) := unblank_cons kind.closing_spec.2.1 rest
      obtain ⟨taken, dropped⟩ := takeWhile_blank blank stops
      have block : readBlock (fuel + 1) kind (pad ++ kind.closing :: rest) =
          some (.block kind pad .nil, rest) := by
        rw [readBlock, dropped]
        simp [taken]
      have text : (Tree.block kind pad .nil).render ++ rest =
          kind.opening :: (pad ++ kind.closing :: rest) := by
        simp [Tree.render, Entries.render]
      rw [text, readTree]
      cases kind <;> exact block
  | .block kind pad (.cons before label value after others), valid, fuel, enough, rest, _ => by
      obtain ⟨fuel, rfl⟩ : ∃ n, fuel = n + 2 := ⟨fuel - 2, by simp [Tree.cost] at enough; omega⟩
      have padded : pad = [] := valid.1
      have entriesValid := valid.2
      have room : (Entries.cons before label value after others).cost ≤ fuel := by
        simp only [Tree.cost] at enough
        omega
      have inner := readEntries_render (.cons before label value after others) entriesValid
        (by simp) room rest
      obtain ⟨c, tail, begun, word⟩ := begins_label label
        ((Tree.begins entriesValid.2.2.1).append (after ++ remainder kind others rest))
      have entriesText : (Entries.cons before label value after others).render ++
          kind.closing :: rest = before ++ c :: tail := by
        rw [← begun]
        simp [Entries.render, remainder]
      have starts : Unblank (c :: tail) :=
        unblank_cons (by simpa [wordChar] using (Bool.and_eq_true_iff.mp word).1) tail
      obtain ⟨_, dropped⟩ := takeWhile_blank entriesValid.1 starts
      have opened : ¬ c = kind.closing := fun same => by
        rw [same, kind.closing_spec.1] at word
        cases word
      have block : readBlock (fuel + 1) kind
          ((Entries.cons before label value after others).render ++ kind.closing :: rest) =
            some (.block kind [] (.cons before label value after others), rest) := by
        rw [readBlock, entriesText, dropped]
        simp only [opened, ↓reduceIte]
        rw [← entriesText, inner]
        rfl
      have text : (Tree.block kind pad (.cons before label value after others)).render ++ rest =
          kind.opening :: ((Entries.cons before label value after others).render ++
            kind.closing :: rest) := by
        simp [Tree.render, padded]
      rw [text, padded, readTree]
      cases kind <;> exact block

theorem readEntries_render : (entries : Entries) → {kind : Kind} → entries.Valid kind →
    entries ≠ .nil → {fuel : Nat} → entries.cost ≤ fuel → (rest : List Char) →
    readEntries fuel kind (entries.render ++ kind.closing :: rest) = some (entries, rest)
  | .nil, _, _, filled, _, _, _ => absurd rfl filled
  | .cons before label value after others, kind, valid, _, fuel, enough, rest => by
      obtain ⟨blankBefore, labelled, valued, blankAfter, othersValid⟩ := valid
      obtain ⟨fuel, rfl⟩ : ∃ n, fuel = n + 1 :=
        ⟨fuel - 1, by simp only [Entries.cost] at enough; omega⟩
      simp only [Entries.cost, Nat.add_le_add_iff_right, max_le_iff] at enough
      obtain ⟨unblank, ends⟩ := remainder_marks kind others rest
      have begins := Tree.begins valued
      have text : (Entries.cons before label value after others).render ++ kind.closing :: rest =
          before ++
            (renderLabel label ++ (value.render ++ (after ++ remainder kind others rest))) := by
        simp [Entries.render, remainder]
      obtain ⟨takenBefore, droppedBefore⟩ := takeWhile_blank blankBefore
        (begins_label label
          (begins.append (after ++ remainder kind others rest))).unblank
      obtain ⟨takenAfter, droppedAfter⟩ := takeWhile_blank blankAfter unblank
      have read := readTree_render value valued enough.1 (ends_blank blankAfter ends)
      rw [text, readEntries, droppedBefore, takenBefore,
        readLabel_render labelled (begins.append _).unblank]
      simp only [Option.bind_some, read, droppedAfter, takenAfter]
      cases others with
      | nil =>
        simp [remainder, further, kind.closing_spec.2.2]
      | cons before' label' value' after' rest' =>
        have inner := readEntries_render (.cons before' label' value' after' rest') othersValid
          (by simp) enough.2 rest
        simp only [remainder, further, List.cons_append, ↓reduceIte, inner]
        rfl

end

mutual

theorem Tree.cost_lt : (tree : Tree) → tree.Valid → tree.cost < 2 * tree.render.length
  | .word text, valid => by
      have filled := List.length_pos_iff.mpr (validWord_plain valid).1
      simp only [Tree.cost, Tree.render]
      omega
  | .string body, _ => by
      simp only [Tree.cost, Tree.render, quoted, List.length_cons, List.length_append]
      omega
  | .block kind pad entries, valid => by
      have inner := Entries.cost_le entries valid.2
      simp only [Tree.cost, Tree.render, List.length_cons, List.length_append, List.length_nil]
      omega

theorem Entries.cost_le : (entries : Entries) → {kind : Kind} → entries.Valid kind →
    entries.cost ≤ 2 * entries.render.length
  | .nil, _, _ => Nat.zero_le _
  | .cons before label value after .nil, _, valid => by
      have first := Tree.cost_lt value valid.2.2.1
      simp only [Entries.cost, Entries.render, further, List.length_append, List.length_nil]
      omega
  | .cons before label value after (.cons before' label' value' after' rest), _, valid => by
      have first := Tree.cost_lt value valid.2.2.1
      have others := Entries.cost_le (.cons before' label' value' after' rest) valid.2.2.2.2
      rw [Entries.cost, Entries.render, further]
      simp only [List.length_append, List.length_cons]
      omega

end

theorem readDocument_render {document : Document} (valid : document.Valid) :
    readDocument document.render = some document := by
  obtain ⟨before, root, after⟩ := document
  obtain ⟨blankBefore, rootValid, blankAfter⟩ := valid
  have ends : Ends after := by
    have none : Ends [] := fun c impossible => by cases impossible
    have blank := ends_blank blankAfter none
    rwa [List.append_nil] at blank
  have text : (Document.mk before root after).render = before ++ (root.render ++ after) := by
    simp [Document.render]
  have room : root.cost ≤ fuelFor (before ++ (root.render ++ after)) := by
    have bound := Tree.cost_lt root rootValid
    simp only [fuelFor, List.length_append]
    omega
  obtain ⟨taken, dropped⟩ := takeWhile_blank blankBefore
    ((Tree.begins rootValid).append after).unblank
  rw [text, readDocument, dropped, taken, readTree_render root rootValid room ends]
  have blank : after.all isBlank = true := List.all_eq_true.mpr blankAfter
  rw [Option.bind_some, if_pos blank]

theorem readDocument_sound {document : Document} (read : readDocument text = some document) :
    text = document.render ∧ document.Valid := by
  obtain ⟨parts, tree, read⟩ := Option.bind_eq_some_iff.mp read
  split_ifs at read with blank
  cases read
  obtain ⟨same, valid⟩ := (read_sound _).1 _ _ tree
  refine ⟨?_, blank_takeWhile text, valid, List.all_eq_true.mp blank⟩
  rw [Document.render, List.append_assoc, ← same]
  exact blank_split text

end JsonSyntax
