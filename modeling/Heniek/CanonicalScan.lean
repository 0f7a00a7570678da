import Heniek.AuthCanonical
import Heniek.JsonGrammar

/-!
The scanner on a text that stands for a tree: it ends where the tree ends, it finds
the member the tree has under a name, and it reports the names the tree repeats.
-/

namespace Heniek.CanonicalScan
open JsonSyntax ScriptText RpcCodec AuthCanonical

def At (text : List Char) (index : Nat) (rest : List Char) : Prop := text.drop index = rest

variable {text rest : List Char} {index : Nat} {label : Option Label}

theorem At.append {passed : List Char} (here : At text index (passed ++ rest)) :
    At text (index + passed.length) rest := by
  rw [At, ← List.drop_drop, here, List.drop_left]

theorem At.cons {c : Char} (here : At text index (c :: rest)) : At text (index + 1) rest := by
  have single : At text index ([c] ++ rest) := here
  exact single.append

theorem charAt_cons {c : Char} (here : At text index (c :: rest)) : charAt text index = some c := by
  rw [charAt, here]
  rfl

theorem skipWhitespace_at {blank : List Char} (valid : Blank blank) (starts : Unblank rest)
    (here : At text index (blank ++ rest)) : skipWhitespace text index = index + blank.length := by
  rw [skipWhitespace, here, (takeWhile_blank valid starts).1]

theorem stringEnd_split {parts : List Char × List Char} (split : splitBody text = some parts)
    (index : Nat) : stringEnd text index = .ok (index + parts.1.length + 1) := by
  induction text using splitBody.induct generalizing parts index with
  | case1 => cases split
  | case2 =>
    cases split
    rfl
  | case3 c quotation => simp [splitBody, quotation] at split
  | case4 e rest =>
    rw [splitBody, if_pos rfl] at split
    cases split
    rfl
  | case5 e rest quotation ih =>
    obtain ⟨tail, read, rfl⟩ := Option.map_eq_some_iff.mp split
    rw [stringEnd, if_pos rfl, ih read]
    simp only [List.length_cons]
    congr 1
    omega
  | case6 c e rest quotation escape ih =>
    rw [splitBody, if_neg quotation, if_neg escape] at split
    obtain ⟨tail, read, rfl⟩ := Option.map_eq_some_iff.mp split
    rw [stringEnd, if_neg escape, if_neg quotation, ih read]
    simp only [List.length_cons]
    congr 1
    omega

theorem endOfString_at {body : List Char} (valid : (decodeBody body).isSome = true)
    (here : At text index (quoted body ++ rest)) :
    endOfString text index = .ok (index + (quoted body).length) := by
  obtain ⟨units, decoded⟩ := Option.isSome_iff_exists.mp valid
  have opened : At text index ('"' :: (body ++ '"' :: rest)) := by
    simpa [quoted] using here
  have inner := opened.cons
  rw [endOfString, inner, stringEnd_split (splitBody_decoded decoded rest)]
  simp only [quoted, List.length_cons, List.length_append, List.length_nil]
  congr 1
  omega

theorem pastColon_at {gap : List Char} (valid : Blank gap)
    (here : At text index (gap ++ ':' :: rest)) :
    pastColon text index = .ok (index + gap.length + 1) := by
  have colon : Unblank (':' :: rest) := unblank_cons rfl rest
  rw [pastColon, skipWhitespace_at valid colon here, charAt_cons here.append]
  rfl

theorem endOfLabel_at {label : Label} (valid : LabelValid .object (some label))
    (here : At text index (label.render ++ rest)) :
    endOfString text index = .ok (index + (quoted label.body).length) ∧
      pastColon text (index + (quoted label.body).length) =
        .ok (index + (quoted label.body).length + label.gap.length + 1) ∧
      At text (index + (quoted label.body).length + label.gap.length + 1) (label.lead ++ rest) := by
  obtain ⟨_, decoded, gap, _⟩ := valid
  have named : At text index (quoted label.body ++ (label.gap ++ ':' :: (label.lead ++ rest))) := by
    simpa [Label.render] using here
  have coloned := named.append
  exact ⟨endOfString_at decoded named, pastColon_at gap coloned, coloned.append.cons⟩

theorem endOfLiteral_at {word : List Char} (valid : validWord word = true) (ends : Ends rest)
    (here : At text index (word ++ rest)) :
    endOfLiteral text index = .ok (index + word.length) := by
  obtain ⟨filled, plain⟩ := validWord_plain valid
  have passed : ∀ c ∈ word, wordChar c = true :=
    fun c listed => (wordChar_of_plain (plain c listed)).1
  have taken : (word ++ rest).takeWhile wordChar = word := by
    rw [List.takeWhile_append_of_pos passed]
    cases rest with
    | nil => simp
    | cons c rest =>
      have different : wordChar c = false := ends c rfl
      simp [different]
  have long := List.length_pos_iff.mpr filled
  rw [endOfLiteral, here, taken]
  simp only [if_neg (show ¬ index + word.length = index by omega)]

mutual

/-- The fuel that passing a tree takes. -/
def treeCost : Tree → Nat
  | .word _ => 1
  | .string _ => 1
  | .block _ _ entries => entriesCost entries + 1

def entriesCost : Entries → Nat
  | .nil => 1
  | .cons _ _ value _ rest => max (treeCost value) (entriesCost rest + 1) + 1

end

section Fuel

variable {tree value : Tree} {before after : List Char} {label : Option Label} {others : Entries}
variable {fuel : Nat}

theorem exists_fuel (enough : treeCost tree ≤ fuel) : ∃ n, fuel = n + 1 := by
  refine Nat.exists_eq_add_one.mpr ?_
  cases tree <;> simp only [treeCost] at enough <;> omega

theorem exists_fuel_block {kind : Kind} {pad : List Char}
    (enough : treeCost (.block kind pad others) ≤ fuel) :
    ∃ n, fuel = n + 1 ∧ entriesCost others ≤ n := by
  simp only [treeCost] at enough
  exact ⟨fuel - 1, by omega, by omega⟩

theorem exists_fuel_nil (enough : entriesCost .nil ≤ fuel) : ∃ n, fuel = n + 1 :=
  Nat.exists_eq_add_one.mpr enough

theorem exists_fuel_cons (enough : entriesCost (.cons before label value after others) ≤ fuel) :
    ∃ n, fuel = n + 2 ∧ treeCost value ≤ n + 1 ∧ entriesCost others ≤ n := by
  simp only [entriesCost] at enough
  exact ⟨fuel - 2, by omega, by omega, by omega⟩

end Fuel

mutual

theorem treeCost_le : (tree : Tree) → tree.Valid → treeCost tree ≤ 2 * tree.render.length
  | .word text, valid => by
      have filled := List.length_pos_iff.mpr (validWord_plain valid).1
      simp only [treeCost, Tree.render]
      omega
  | .string body, _ => by
      simp only [treeCost, Tree.render, quoted, List.length_cons]
      omega
  | .block kind pad entries, valid => by
      have inner := entriesCost_le entries valid.2
      simp only [treeCost, Tree.render, List.length_cons, List.length_append, List.length_nil]
      omega

theorem entriesCost_le : (entries : Entries) → {kind : Kind} → entries.Valid kind →
    entriesCost entries ≤ 2 * entries.render.length + 1
  | .nil, _, _ => by simp [entriesCost]
  | .cons before label value after .nil, _, valid => by
      have first := treeCost_le value valid.2.2.1
      obtain ⟨_, _, begun, _⟩ := Tree.begins valid.2.2.1
      have filled : 0 < value.render.length := by simp [begun]
      simp only [entriesCost, Entries.render, further, List.length_append, List.length_nil]
      omega
  | .cons before label value after (.cons before' label' value' after' rest), _, valid => by
      have first := treeCost_le value valid.2.2.1
      obtain ⟨_, _, begun, _⟩ := Tree.begins valid.2.2.1
      have filled : 0 < value.render.length := by simp [begun]
      have others := entriesCost_le (.cons before' label' value' after' rest) valid.2.2.2.2
      rw [entriesCost, Entries.render, further]
      simp only [List.length_append, List.length_cons]
      omega

end

theorem begins_ne_closing (begins : Begins text) (kind : Kind) :
    ∃ c rest, text = c :: rest ∧ isBlank c = false ∧ c ≠ kind.closing ∧ c ≠ ',' := by
  obtain ⟨c, rest, rfl, word⟩ := begins
  have blank : isBlank c = false := by simpa [wordChar] using (Bool.and_eq_true_iff.mp word).1
  refine ⟨c, rest, rfl, blank, ?_, ?_⟩
  · rintro rfl
    rw [kind.closing_spec.1] at word
    cases word
  · rintro rfl
    exact absurd word (by decide)

theorem entry_at {before : List Char} {value : Tree} (kind : Kind) (blank : Blank before)
    (valued : value.Valid)
    (here : At text index (before ++ (renderLabel label ++ (value.render ++ rest)))) :
    skipWhitespace text index = index + before.length ∧
      ∃ c, charAt text (index + before.length) = some c ∧ c ≠ kind.closing ∧ c ≠ ',' := by
  have begins := begins_label label ((Tree.begins valued).append rest)
  obtain ⟨c, tail, begun, _, closing, comma⟩ := begins_ne_closing begins kind
  refine ⟨skipWhitespace_at blank begins.unblank here, c, ?_, closing, comma⟩
  have start := here.append
  rw [begun] at start
  exact charAt_cons start

/-- Behind an entry comes the comma before the next one, or the end of the block. -/
theorem remainder_at {after : List Char} {kind : Kind} {others : Entries} (blank : Blank after)
    (here : At text index (after ++ remainder kind others rest)) :
    skipWhitespace text index = index + after.length ∧
      ((others = .nil ∧ charAt text (index + after.length) = some kind.closing) ∨
        (others ≠ .nil ∧ charAt text (index + after.length) = some ',' ∧
          At text (index + after.length + 1) (others.render ++ kind.closing :: rest))) := by
  refine ⟨skipWhitespace_at blank (remainder_marks kind others rest).1 here, ?_⟩
  have start := here.append
  cases others with
  | nil => exact Or.inl ⟨rfl, charAt_cons start⟩
  | cons before label value after' others =>
    exact Or.inr ⟨by simp, charAt_cons start, At.cons start⟩

theorem entries_text (kind : Kind) (before : List Char) (label : Option Label) (value : Tree)
    (after : List Char) (others : Entries) (rest : List Char) :
    (Entries.cons before label value after others).render ++ kind.closing :: rest =
      before ++ (renderLabel label ++ (value.render ++ (after ++ remainder kind others rest))) := by
  simp [Entries.render, remainder]

section Lexemes

variable {word pad lead before after : List Char} {kind : Kind} {entries others : Entries}
variable {value : Tree}

theorem value_at (tree : Tree) (valid : tree.Valid) (blank : Blank lead)
    (here : At text index (lead ++ (tree.render ++ rest))) :
    skipWhitespace text index = index + lead.length :=
  skipWhitespace_at blank ((Tree.begins valid).append rest).unblank here

theorem word_at (valid : validWord word = true)
    (here : At text index (lead ++ ((Tree.word word).render ++ rest))) :
    ∃ c, charAt text (index + lead.length) = some c ∧ c ≠ '"' ∧ c ≠ '[' ∧ c ≠ '\x7b' := by
  obtain ⟨filled, plain⟩ := validWord_plain valid
  have start := here.append
  obtain ⟨c, tail, begun⟩ := List.exists_cons_of_ne_nil filled
  obtain ⟨_, quotation, array, object, _⟩ :=
    wordChar_of_plain (plain c (begun ▸ List.mem_cons_self))
  rw [Tree.render, begun] at start
  exact ⟨c, charAt_cons start, quotation, array, object⟩

theorem block_at (here : At text index (lead ++ ((Tree.block kind pad entries).render ++ rest))) :
    At text (index + lead.length)
      (kind.opening :: (pad ++ (entries.render ++ kind.closing :: rest))) := by
  simpa [Tree.render] using here.append

theorem nil_at (padded : PadValid pad .nil)
    (here : At text index (pad ++ (Entries.nil.render ++ kind.closing :: rest))) :
    skipWhitespace text index = index + pad.length ∧
      charAt text (index + pad.length) = some kind.closing := by
  have closing : Unblank (kind.closing :: rest) := unblank_cons kind.closing_spec.2.1 rest
  have close : At text index (pad ++ kind.closing :: rest) := here
  exact ⟨skipWhitespace_at padded closing close, charAt_cons close.append⟩

theorem cons_at (here : At text index
      ([] ++ ((Entries.cons before label value after others).render ++ kind.closing :: rest))) :
    At text index
      (before ++
        (renderLabel label ++ (value.render ++ (after ++ remainder kind others rest)))) := by
  rw [← entries_text]
  exact here

end Lexemes

theorem valueStart_at {kind : Kind} (valid : LabelValid kind label)
    (here : At text index (renderLabel label ++ rest)) : ∃ lead, Blank lead ∧
      pastName text kind index = .ok (index + (renderLabel label).length - lead.length) ∧
      lead.length ≤ (renderLabel label).length ∧
      At text (index + (renderLabel label).length - lead.length) (lead ++ rest) := by
  cases label with
  | none =>
    obtain rfl : kind = .array := valid
    exact ⟨[], blank_nil, rfl, le_rfl, here⟩
  | some label =>
    obtain ⟨rfl, decoded, gap, lead⟩ := valid
    obtain ⟨ended, coloned, start⟩ := endOfLabel_at ⟨rfl, decoded, gap, lead⟩ here
    have length : (renderLabel (some label)).length =
        (quoted label.body).length + label.gap.length + 1 + label.lead.length := by
      simp only [renderLabel, Label.render, List.length_append, List.length_cons]
      omega
    have index_eq : index + (renderLabel (some label)).length - label.lead.length =
        index + (quoted label.body).length + label.gap.length + 1 := by omega
    refine ⟨label.lead, lead, ?_, by omega, index_eq ▸ start⟩
    rw [index_eq, pastName, ended]
    exact coloned

theorem ends_remainder {after : List Char} (blank : Blank after) (kind : Kind) (others : Entries)
    (rest : List Char) : Ends (after ++ remainder kind others rest) :=
  ends_blank blank (remainder_marks kind others rest).2

mutual

theorem endOfValueWith_at : (tree : Tree) → tree.Valid → {fuel : Nat} → treeCost tree ≤ fuel →
    {text lead rest : List Char} → {index : Nat} → Blank lead → Ends rest →
    At text index (lead ++ (tree.render ++ rest)) →
    endOfValueWith fuel text index = .ok (index + lead.length + tree.render.length)
  | .word word, valid, fuel, enough, text, lead, rest, index, blank, ends, here => by
      obtain ⟨fuel, rfl⟩ := exists_fuel enough
      obtain ⟨c, first, quotation, array, object⟩ := word_at valid here
      rw [endOfValueWith, value_at (.word word) valid blank here, first]
      simp only [Option.some.injEq, quotation, object, array, ↓reduceIte]
      exact endOfLiteral_at valid ends here.append
  | .string body, valid, fuel, enough, text, lead, rest, index, blank, _, here => by
      obtain ⟨fuel, rfl⟩ := exists_fuel enough
      have start := here.append
      have first : charAt text (index + lead.length) = some '"' := by
        rw [Tree.render, quoted, List.cons_append] at start
        exact charAt_cons start
      rw [endOfValueWith, value_at (.string body) valid blank here, first, if_pos rfl]
      exact endOfString_at valid start
  | .block kind pad entries, valid, fuel, enough, text, lead, rest, index, blank, _, here => by
      obtain ⟨fuel, rfl, costs⟩ := exists_fuel_block enough
      have opened := block_at here
      have inner := containerEnd_at entries valid.2 valid.1 costs opened.cons
      have length : index + lead.length + (Tree.block kind pad entries).render.length =
          index + lead.length + 1 + pad.length + entries.render.length + 1 := by
        simp only [Tree.render, List.length_cons, List.length_append, List.length_nil]
        omega
      rw [endOfValueWith, value_at (.block kind pad entries) valid blank here, charAt_cons opened,
        length]
      cases kind <;> exact inner

theorem containerEnd_at : (entries : Entries) → {kind : Kind} → entries.Valid kind →
    {pad : List Char} → PadValid pad entries → {fuel : Nat} → entriesCost entries ≤ fuel →
    {text rest : List Char} → {index : Nat} →
    At text index (pad ++ (entries.render ++ kind.closing :: rest)) →
    containerEnd fuel text kind index = .ok (index + pad.length + entries.render.length + 1)
  | .nil, kind, _, pad, padded, fuel, enough, text, rest, index, here => by
      obtain ⟨fuel, rfl⟩ := exists_fuel_nil enough
      obtain ⟨skipped, closed⟩ := nil_at padded here
      rw [containerEnd, skipped, closed]
      simp [Entries.render]
  | .cons before label value after others, kind, valid, pad, padded, fuel, enough, text, rest,
      index, here => by
      obtain ⟨fuel, rfl, costs⟩ := exists_fuel_cons enough
      obtain ⟨blankBefore, labelled, valued, blankAfter, othersValid⟩ := valid
      obtain rfl : pad = [] := padded
      have entry := cons_at here
      obtain ⟨skipped, c, first, closing, comma⟩ := entry_at kind blankBefore valued entry
      obtain ⟨lead, blankLead, started, bounded, valueHere⟩ := valueStart_at labelled entry.append
      have ended := endOfValueWith_at value valued costs.1 blankLead
        (ends_remainder blankAfter kind others rest) valueHere
      have stop : index + before.length + (renderLabel label).length - lead.length + lead.length +
          value.render.length =
            index + before.length + (renderLabel label).length + value.render.length := by omega
      rw [stop] at ended
      have behind := entry.append.append.append
      obtain ⟨skippedAfter, remainder⟩ := remainder_at blankAfter behind
      have length : (Entries.cons before label value after others).render.length =
          before.length + (renderLabel label).length + value.render.length + after.length +
            (further others others.render).length := by
        simp only [Entries.render, List.length_append]
      have rest_of_loop : containerEnd (fuel + 1) text kind
          (index + before.length + (renderLabel label).length + value.render.length) =
            .ok (index + (Entries.cons before label value after others).render.length + 1) := by
        rw [containerEnd, skippedAfter, length]
        rcases remainder with ⟨rfl, closed⟩ | ⟨nonempty, separated, next⟩
        · rw [closed]
          simp only [↓reduceIte, further, List.length_nil]
          congr 1
          omega
        · have others_end := containerEnd_at others othersValid (padValid_filled nonempty) costs.2
            next
          rw [separated, further_eq nonempty]
          simp only [Ne.symm kind.closing_spec.2.2, ↓reduceIte, others_end, List.length_cons,
            List.length_nil]
          congr 1
          omega
      rw [containerEnd, skipped, first]
      simp only [closing, comma, ↓reduceIte]
      rw [started]
      change (endOfValueWith (fuel + 1) text _ >>= _) = _
      rw [ended]
      exact rest_of_loop

end

theorem endOfValue_at {tree : Tree} (valid : tree.Valid) {lead : List Char} (blank : Blank lead)
    (ends : Ends rest) (here : At text index (lead ++ (tree.render ++ rest))) :
    endOfValue text index = .ok (index + lead.length + tree.render.length) := by
  refine endOfValueWith_at tree valid ?_ blank ends here
  have bound := treeCost_le tree valid
  have within : (lead ++ (tree.render ++ rest)).length ≤ text.length := by
    rw [← here, List.length_drop]
    omega
  simp only [List.length_append] at within
  unfold scanFuel
  omega

theorem slice_at {here : List Char} (stands : At text index (here ++ rest)) :
    (text.take (index + here.length)).drop index = here := by
  rw [List.drop_take, stands, Nat.add_sub_cancel_left, List.take_left]

theorem parseLine_render {document : Document} (valid : document.Valid) :
    parseLine document.render = some (document.root.value readNumeral) := by
  rw [parseLine, parse, readDocument_render valid]
  rfl

theorem readName_at {body : List Char} (valid : (decodeBody body).isSome = true)
    (here : At text index (quoted body ++ rest)) :
    readName text index (index + (quoted body).length) = .ok (bodyUnits body) := by
  have name : (Document.mk [] (.string body) []).Valid := ⟨blank_nil, valid, blank_nil⟩
  have parsed := parseLine_render name
  have rendered : (Document.mk [] (.string body) []).render = quoted body := by
    simp [Document.render, Tree.render]
  rw [rendered] at parsed
  rw [readName, slice_at here, parsed]
  rfl

def entryMember (index : Nat) (before : List Char) (label : Option Label) (value : Tree) : Member :=
  let start := index + before.length
  let valueStart := start + (renderLabel label).length
  ⟨labelUnits label, ⟨start, valueStart + value.render.length⟩, valueStart⟩

theorem scanMember_at {before : List Char} {value : Tree} (labelled : LabelValid .object label)
    (valued : value.Valid) (ends : Ends rest)
    (here : At text index (before ++ (renderLabel label ++ (value.render ++ rest)))) :
    scanMember text (index + before.length) = .ok (entryMember index before label value) := by
  cases label with
  | none => cases labelled
  | some label =>
    have start := here.append
    obtain ⟨ended, coloned, valueHere⟩ := endOfLabel_at labelled start
    obtain ⟨_, decoded, _, lead⟩ := labelled
    have named : At text (index + before.length) (quoted label.body ++
        (label.gap ++ ':' :: (label.lead ++ (value.render ++ rest)))) := by
      simpa [renderLabel, Label.render] using start
    have skipped := skipWhitespace_at lead ((Tree.begins valued).append rest).unblank valueHere
    have passed := endOfValue_at valued blank_nil ends valueHere.append
    have length : (renderLabel (some label)).length =
        (quoted label.body).length + label.gap.length + 1 + label.lead.length := by
      simp only [renderLabel, Label.render, List.length_append, List.length_cons]
      omega
    have valueStart : index + before.length + (quoted label.body).length + label.gap.length + 1 +
        label.lead.length = index + before.length + (renderLabel (some label)).length := by omega
    rw [valueStart] at skipped passed
    rw [scanMember, ended]
    change (readName text _ _ >>= _) = _
    rw [readName_at decoded named]
    rw [coloned]
    change (endOfValue text (skipWhitespace text _) >>= _) = _
    rw [skipped, passed]
    rfl

/-- The first entry under a name, the blanks of the first one starting at the index. -/
def findEntry (key : List Nat) : Entries → Nat → Option Member
  | .nil, _ => none
  | .cons before label value after rest, index =>
    if labelUnits label = key then some (entryMember index before label value)
    else findEntry key rest ((entryMember index before label value).span.stop + after.length + 1)

theorem entryMember_stop (index : Nat) (before : List Char) (label : Option Label) (value : Tree) :
    (entryMember index before label value).span.stop =
      index + before.length + (renderLabel label).length + value.render.length := rfl

theorem findMemberFrom_at (key : List Nat) : (entries : Entries) → entries.Valid .object →
    {pad : List Char} → PadValid pad entries → {fuel : Nat} → entriesCost entries ≤ fuel →
    {text rest : List Char} → {index : Nat} →
    At text index (pad ++ (entries.render ++ Kind.object.closing :: rest)) →
    findMemberFrom fuel text key index = .ok (findEntry key entries (index + pad.length))
  | .nil, _, pad, padded, fuel, enough, text, rest, index, here => by
      obtain ⟨fuel, rfl⟩ := exists_fuel_nil enough
      obtain ⟨skipped, closed⟩ := nil_at padded here
      rw [findMemberFrom, skipped, closed]
      rfl
  | .cons before label value after others, valid, pad, padded, fuel, enough, text, rest, index,
      here => by
      obtain ⟨fuel, rfl, costs⟩ := exists_fuel_cons enough
      obtain ⟨blankBefore, labelled, valued, blankAfter, othersValid⟩ := valid
      obtain rfl : pad = [] := padded
      have entry := cons_at here
      obtain ⟨skipped, c, first, closing, comma⟩ := entry_at .object blankBefore valued entry
      have scanned := scanMember_at labelled valued (ends_remainder blankAfter .object others rest)
        entry
      rw [findMemberFrom, skipped, first]
      simp only [show ¬ c = '\x7d' from closing, comma, ↓reduceIte]
      rw [scanned]
      change (if (entryMember index before label value).name = key then _ else _) = _
      by_cases named : labelUnits label = key
      · rw [if_pos (show (entryMember index before label value).name = key from named), findEntry,
          if_pos named]
        rfl
      · rw [if_neg (show ¬ (entryMember index before label value).name = key from named), findEntry,
          if_neg named]
        have behind := entry.append.append.append
        rw [← entryMember_stop index before label value] at behind
        obtain ⟨skippedAfter, remainder⟩ := remainder_at blankAfter behind
        rw [findMemberFrom, skippedAfter]
        rcases remainder with ⟨rfl, closed⟩ | ⟨nonempty, separated, next⟩
        · rw [closed]
          rfl
        · rw [separated]
          exact findMemberFrom_at key others othersValid (padValid_filled nonempty) costs.2 next

theorem findMember_at {pad : List Char} {entries : Entries}
    (valid : (Tree.block .object pad entries).Valid)
    (here : At text index ((Tree.block .object pad entries).render ++ rest)) (key : String) :
    findMember text index key =
      .ok (findEntry (codeUnits key) entries (index + 1 + pad.length)) := by
  have opened : At text index
      (Kind.object.opening :: (pad ++ (entries.render ++ Kind.object.closing :: rest))) := by
    simpa [Tree.render] using here
  have bound := entriesCost_le entries valid.2
  have within : ((Tree.block .object pad entries).render ++ rest).length ≤ text.length := by
    rw [← here, List.length_drop]
    omega
  simp only [Tree.render, List.length_cons, List.length_append] at within
  have enough : entriesCost entries ≤ scanFuel text := by
    unfold scanFuel
    omega
  rw [findMember, charAt_cons opened]
  exact findMemberFrom_at _ entries valid.2 valid.1 enough opened.cons

end Heniek.CanonicalScan
