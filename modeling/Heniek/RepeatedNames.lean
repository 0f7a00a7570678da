import Heniek.CanonicalCut

/-!
The scanner for repeated names reports exactly the texts in which some object, at
any depth, has two members whose names read alike.
-/

namespace Heniek.RepeatedNames
open JsonSyntax ScriptText AuthCanonical CanonicalScan CanonicalCut

def values : Entries → List Tree
  | .nil => []
  | .cons _ _ value _ rest => value :: values rest

/-- The trees that stand anywhere in a tree, itself included. -/
inductive Within : Tree → Tree → Prop where
  | self (tree : Tree) : Within tree tree
  | inside {tree value : Tree} (kind : Kind) (pad : List Char) (entries : Entries)
      (listed : value ∈ values entries) (within : Within tree value) :
      Within tree (.block kind pad entries)

def RepeatsName (tree : Tree) : Prop :=
  ∃ pad entries, Within (.block .object pad entries) tree ∧ ¬ (names entries).Nodup

mutual

def treeRepeats : Tree → Bool
  | .word _ => false
  | .string _ => false
  | .block .object _ entries => objectRepeats [] entries
  | .block .array _ entries => arrayRepeats entries

def objectRepeats : List (List Nat) → Entries → Bool
  | _, .nil => false
  | seen, .cons _ label value _ rest =>
    decide (labelUnits label ∈ seen) || treeRepeats value ||
      objectRepeats (labelUnits label :: seen) rest

def arrayRepeats : Entries → Bool
  | .nil => false
  | .cons _ _ value _ rest => treeRepeats value || arrayRepeats rest

end

theorem objectRepeats_iff : {entries : Entries} → {seen : List (List Nat)} →
    (objectRepeats seen entries = true ↔
      (∃ name ∈ names entries, name ∈ seen) ∨ ¬ (names entries).Nodup ∨
        ∃ value ∈ values entries, treeRepeats value = true)
  | .nil, seen => by simp [objectRepeats, names, values]
  | .cons _ label value _ rest, seen => by
      simp only [objectRepeats, Bool.or_eq_true, decide_eq_true_eq, objectRepeats_iff, names,
        values, List.mem_cons, List.nodup_cons, exists_eq_or_imp]
      constructor
      · rintro ((taken | repeated) | ⟨name, listed, same | earlier⟩ | repeated | found)
        · exact Or.inl (Or.inl taken)
        · exact Or.inr (Or.inr (Or.inl repeated))
        · exact Or.inr (Or.inl fun distinct => distinct.1 (same ▸ listed))
        · exact Or.inl (Or.inr ⟨name, listed, earlier⟩)
        · exact Or.inr (Or.inl fun distinct => repeated distinct.2)
        · exact Or.inr (Or.inr (Or.inr found))
      · rintro ((taken | ⟨name, listed, earlier⟩) | repeated | repeated | found)
        · exact Or.inl (Or.inl taken)
        · exact Or.inr (Or.inl ⟨name, listed, Or.inr earlier⟩)
        · by_cases again : labelUnits label ∈ names rest
          · exact Or.inr (Or.inl ⟨_, again, Or.inl rfl⟩)
          · exact Or.inr (Or.inr (Or.inl fun distinct => repeated ⟨again, distinct⟩))
        · exact Or.inl (Or.inr repeated)
        · exact Or.inr (Or.inr (Or.inr found))

theorem arrayRepeats_iff : {entries : Entries} →
    (arrayRepeats entries = true ↔ ∃ value ∈ values entries, treeRepeats value = true)
  | .nil => by simp [arrayRepeats, values]
  | .cons _ _ value _ rest => by
      simp only [arrayRepeats, Bool.or_eq_true, arrayRepeats_iff, values, List.mem_cons,
        exists_eq_or_imp]

theorem repeatsName_block {kind : Kind} {pad : List Char} {entries : Entries} :
    RepeatsName (.block kind pad entries) ↔
      (kind = .object ∧ ¬ (names entries).Nodup) ∨ ∃ value ∈ values entries, RepeatsName value := by
  constructor
  · rintro ⟨pad', entries', within, repeated⟩
    cases within with
    | self => exact Or.inl ⟨rfl, repeated⟩
    | inside _ _ _ listed deeper => exact Or.inr ⟨_, listed, pad', entries', deeper, repeated⟩
  · rintro (⟨rfl, repeated⟩ | ⟨value, listed, pad', entries', within, repeated⟩)
    · exact ⟨pad, entries, .self _, repeated⟩
    · exact ⟨pad', entries', .inside kind pad entries listed within, repeated⟩

mutual

theorem treeRepeats_iff : (tree : Tree) → (treeRepeats tree = true ↔ RepeatsName tree)
  | .word text => by
      simp only [treeRepeats, Bool.false_eq_true, false_iff]
      rintro ⟨_, _, within, _⟩
      cases within
  | .string body => by
      simp only [treeRepeats, Bool.false_eq_true, false_iff]
      rintro ⟨_, _, within, _⟩
      cases within
  | .block .object pad entries => by
      rw [treeRepeats, objectRepeats_iff, repeatsName_block]
      simp only [List.not_mem_nil, and_false, exists_false, false_or, true_and]
      exact or_congr_right (valuesRepeat_iff entries)
  | .block .array pad entries => by
      rw [treeRepeats, arrayRepeats_iff, repeatsName_block]
      simp only [reduceCtorEq, false_and, false_or]
      exact valuesRepeat_iff entries

theorem valuesRepeat_iff : (entries : Entries) →
    ((∃ value ∈ values entries, treeRepeats value = true) ↔
      ∃ value ∈ values entries, RepeatsName value)
  | .nil => by simp [values]
  | .cons _ _ value _ rest => by
      simp only [values, List.mem_cons, exists_eq_or_imp]
      exact or_congr (treeRepeats_iff value) (valuesRepeat_iff rest)

end

mutual

theorem valueHasDuplicateKey_at : (tree : Tree) → tree.Valid → {fuel : Nat} →
    treeCost tree ≤ fuel → {text lead rest : List Char} → {index : Nat} → Blank lead →
    At text index (lead ++ (tree.render ++ rest)) →
    valueHasDuplicateKey fuel text index = .ok (treeRepeats tree)
  | .word word, valid, fuel, enough, text, lead, rest, index, blank, here => by
      obtain ⟨fuel, rfl⟩ := exists_fuel enough
      obtain ⟨c, first, _, array, object⟩ := word_at valid here
      rw [valueHasDuplicateKey, value_at (.word word) valid blank here, first]
      simp only [Option.some.injEq, object, array, ↓reduceIte]
      rfl
  | .string body, valid, fuel, enough, text, lead, rest, index, blank, here => by
      obtain ⟨fuel, rfl⟩ := exists_fuel enough
      have start := here.append
      rw [Tree.render, quoted, List.cons_append] at start
      rw [valueHasDuplicateKey, value_at (.string body) valid blank here, charAt_cons start]
      rfl
  | .block .object pad entries, valid, fuel, enough, text, lead, rest, index, blank, here => by
      obtain ⟨fuel, rfl, costs⟩ := exists_fuel_block enough
      have opened := block_at here
      rw [valueHasDuplicateKey, value_at (.block .object pad entries) valid blank here,
        charAt_cons opened]
      exact objectHasDuplicateKey_at entries valid.2 valid.1 costs opened.cons
  | .block .array pad entries, valid, fuel, enough, text, lead, rest, index, blank, here => by
      obtain ⟨fuel, rfl, costs⟩ := exists_fuel_block enough
      have opened := block_at here
      rw [valueHasDuplicateKey, value_at (.block .array pad entries) valid blank here,
        charAt_cons opened]
      exact arrayHasDuplicateKey_at entries valid.2 valid.1 costs opened.cons

theorem objectHasDuplicateKey_at : (entries : Entries) → entries.Valid .object →
    {pad : List Char} → PadValid pad entries → {fuel : Nat} → entriesCost entries ≤ fuel →
    {text rest : List Char} → {seen : List (List Nat)} → {index : Nat} →
    At text index (pad ++ (entries.render ++ Kind.object.closing :: rest)) →
    objectHasDuplicateKey fuel text seen index = .ok (objectRepeats seen entries)
  | .nil, _, pad, padded, fuel, enough, text, rest, seen, index, here => by
      obtain ⟨fuel, rfl⟩ := exists_fuel_nil enough
      obtain ⟨skipped, closed⟩ := nil_at padded here
      rw [objectHasDuplicateKey, skipped, closed]
      rfl
  | .cons before none value after others, valid, _, _, _, _, _, _, _, _, _ => by
      cases valid.2.1
  | .cons before (some label) value after others, valid, pad, padded, fuel, enough, text, rest,
      seen, index, here => by
      obtain ⟨fuel, rfl, costs⟩ := exists_fuel_cons enough
      obtain ⟨blankBefore, labelled, valued, blankAfter, othersValid⟩ := valid
      obtain rfl : pad = [] := padded
      have entry := cons_at here
      obtain ⟨skipped, c, first, closing, comma⟩ := entry_at .object blankBefore valued entry
      have start := entry.append
      obtain ⟨ended, coloned, valueHere⟩ := endOfLabel_at labelled start
      have named : At text (index + before.length) (quoted label.body ++ (label.gap ++ ':' ::
          (label.lead ++ (value.render ++ (after ++ remainder .object others rest))))) := by
        simpa [renderLabel, Label.render] using start
      obtain ⟨_, decoded, _, lead⟩ := labelled
      have skippedLead := skipWhitespace_at lead
        ((Tree.begins valued).append (after ++ remainder .object others rest)).unblank valueHere
      have inner := valueHasDuplicateKey_at value valued costs.1 blank_nil valueHere.append
      have passed := endOfValue_at valued blank_nil (ends_remainder blankAfter .object others rest)
        valueHere.append
      have behind := valueHere.append.append
      obtain ⟨skippedAfter, remainder⟩ := remainder_at blankAfter behind
      rw [objectHasDuplicateKey, skipped, first]
      simp only [show ¬ c = '\x7d' from closing, comma, ↓reduceIte]
      rw [ended]
      change (readName text _ _ >>= _) = _
      rw [readName_at decoded named]
      change (if bodyUnits label.body ∈ seen then _ else _) = _
      by_cases taken : bodyUnits label.body ∈ seen
      · have shown : labelUnits (some label) ∈ seen := taken
        simp [taken, objectRepeats, shown]
      · have fresh : labelUnits (some label) ∉ seen := taken
        rw [if_neg taken, objectRepeats, decide_eq_false fresh, Bool.false_or]
        change (pastColon text _ >>= _) = _
        rw [coloned]
        change (valueHasDuplicateKey _ text (skipWhitespace text _) >>= _) = _
        rw [skippedLead, inner]
        cases repeated : treeRepeats value with
        | true => rfl
        | false =>
          change (endOfValue text _ >>= _) = _
          rw [passed]
          change objectHasDuplicateKey (fuel + 1) text _ _ = _
          rw [objectHasDuplicateKey, List.length_nil, Nat.add_zero, skippedAfter]
          rcases remainder with ⟨rfl, closed⟩ | ⟨nonempty, separated, next⟩
          · rw [closed]
            rfl
          · rw [separated]
            exact objectHasDuplicateKey_at others othersValid (padValid_filled nonempty)
              costs.2 next

theorem arrayHasDuplicateKey_at : (entries : Entries) → entries.Valid .array →
    {pad : List Char} → PadValid pad entries → {fuel : Nat} → entriesCost entries ≤ fuel →
    {text rest : List Char} → {index : Nat} →
    At text index (pad ++ (entries.render ++ Kind.array.closing :: rest)) →
    arrayHasDuplicateKey fuel text index = .ok (arrayRepeats entries)
  | .nil, _, pad, padded, fuel, enough, text, rest, index, here => by
      obtain ⟨fuel, rfl⟩ := exists_fuel_nil enough
      obtain ⟨skipped, closed⟩ := nil_at padded here
      rw [arrayHasDuplicateKey, skipped, closed]
      rfl
  | .cons before (some label) value after others, valid, _, _, _, _, _, _, _, _ => by
      cases valid.2.1.1
  | .cons before none value after others, valid, pad, padded, fuel, enough, text, rest, index,
      here => by
      obtain ⟨fuel, rfl, costs⟩ := exists_fuel_cons enough
      obtain ⟨blankBefore, labelled, valued, blankAfter, othersValid⟩ := valid
      obtain rfl : pad = [] := padded
      have entry := cons_at here
      obtain ⟨skipped, c, first, closing, comma⟩ := entry_at .array blankBefore valued entry
      have valueHere : At text (index + before.length)
          ([] ++ (value.render ++ (after ++ remainder .array others rest))) := entry.append
      have inner := valueHasDuplicateKey_at value valued costs.1 blank_nil valueHere
      have passed := endOfValue_at valued blank_nil (ends_remainder blankAfter .array others rest)
        valueHere
      have behind := valueHere.append.append
      obtain ⟨skippedAfter, remainder⟩ := remainder_at blankAfter behind
      rw [arrayHasDuplicateKey, skipped, first]
      simp only [show ¬ c = ']' from closing, comma, ↓reduceIte]
      rw [inner, arrayRepeats]
      cases repeated : treeRepeats value with
      | true => rfl
      | false =>
        change (endOfValue text _ >>= _) = _
        rw [passed]
        change arrayHasDuplicateKey (fuel + 1) text _ = _
        rw [arrayHasDuplicateKey, skippedAfter]
        rcases remainder with ⟨rfl, closed⟩ | ⟨nonempty, separated, next⟩
        · rw [closed]
          rfl
        · rw [separated]
          exact arrayHasDuplicateKey_at others othersValid (padValid_filled nonempty) costs.2 next

end

theorem hasDuplicateKey_render {document : Document} (valid : document.Valid) :
    hasDuplicateKey document.render = .ok (treeRepeats document.root) := by
  obtain ⟨before, root, after⟩ := document
  obtain ⟨blankBefore, rootValid, _⟩ := valid
  have here : At (Document.mk before root after).render 0 (before ++ (root.render ++ after)) := by
    simp [At, Document.render]
  have skipped := skipWhitespace_at blankBefore ((Tree.begins rootValid).append after).unblank here
  have start : At (Document.mk before root after).render (0 + before.length)
      ([] ++ (root.render ++ after)) := here.append
  have bound := treeCost_le root rootValid
  have enough : treeCost root ≤ scanFuel (Document.mk before root after).render := by
    simp only [scanFuel, Document.render, List.length_append]
    omega
  rw [hasDuplicateKey, skipped]
  exact valueHasDuplicateKey_at root rootValid enough blank_nil start

end Heniek.RepeatedNames
