import Heniek.CanonicalScan

/-!
What cutting a member out of a text does to the tree: one entry of a block goes,
its blanks stay with a neighbour, and everything else is as it was.
-/

namespace Heniek.CanonicalCut
open KeyedTable JsonSyntax ScriptText AuthCanonical CanonicalScan

def names : Entries → List (List Nat)
  | .nil => []
  | .cons _ label _ _ rest => labelUnits label :: names rest

def lookup (key : List Nat) : Entries → Option Tree
  | .nil => none
  | .cons _ label value _ rest => if labelUnits label = key then some value else lookup key rest

def replace (key : List Nat) (value' : Tree) : Entries → Entries
  | .nil => .nil
  | .cons before label value after rest =>
    if labelUnits label = key then .cons before label value' after rest
    else .cons before label value after (replace key value' rest)

/-- The entries without the first one under the name, which is not at their head. -/
def cutLater (key : List Nat) : Entries → Entries
  | .nil => .nil
  | .cons before label value after .nil => .cons before label value after .nil
  | .cons before label value after (.cons before' label' value' after' rest) =>
    if labelUnits label' = key then .cons before label value (after ++ after') rest
    else .cons before label value after (cutLater key (.cons before' label' value' after' rest))

/-- The inside of a block without the first entry under the name. -/
def cutBlock (key : List Nat) (pad : List Char) : Entries → List Char × Entries
  | .nil => (pad, .nil)
  | .cons before label value after rest =>
    if labelUnits label = key then
      match rest with
      | .nil => (before ++ after, .nil)
      | .cons before' label' value' after' rest =>
        ([], .cons (before ++ before') label' value' after' rest)
    else (pad, cutLater key (.cons before label value after rest))

def cutTree (key : List Nat) : Tree → Tree
  | .block .object pad entries =>
    .block .object (cutBlock key pad entries).1 (cutBlock key pad entries).2
  | tree => tree

variable {key : List Nat}

theorem findEntry_eq_none : {entries : Entries} → {index : Nat} →
    (findEntry key entries index = none ↔ lookup key entries = none)
  | .nil, _ => by simp [findEntry, lookup]
  | .cons before label value after rest, index => by
      unfold findEntry lookup
      split
      · simp
      · exact findEntry_eq_none

theorem lookup_eq_none : {entries : Entries} →
    (lookup key entries = none ↔ key ∉ names entries)
  | .nil => by simp [lookup, names]
  | .cons before label value after rest => by
      unfold lookup names
      split
      · rename_i same
        simp [same]
      · rename_i different
        rw [lookup_eq_none, List.mem_cons, not_or]
        exact ⟨fun absent => ⟨Ne.symm different, absent⟩, And.right⟩

theorem lookup_split {found : Tree} : {entries : Entries} →
    lookup key entries = some found → ∃ front back,
      entries.render = front ++ found.render ++ back ∧
      (∀ value', (replace key value' entries).render = front ++ value'.render ++ back) ∧
      ∀ index, ∃ start, findEntry key entries index =
        some ⟨key, ⟨start, index + front.length + found.render.length⟩, index + front.length⟩
  | .nil, located => by cases located
  | .cons before label value after rest, located => by
      unfold lookup at located
      split at located
      · rename_i named
        cases located
        refine ⟨before ++ renderLabel label, after ++ further rest rest.render, ?_, ?_, ?_⟩
        · simp [Entries.render]
        · simp [replace, named, Entries.render]
        · intro index
          simp [findEntry, named, entryMember, Nat.add_assoc]
      · rename_i different
        obtain ⟨front, back, text, replaced, indexed⟩ := lookup_split located
        have nonempty : rest ≠ .nil := by
          rintro rfl
          cases located
        have kept : ∀ value', replace key value' rest ≠ .nil := by
          intro value' empty
          cases rest with
          | nil => exact nonempty rfl
          | cons =>
            unfold replace at empty
            split at empty <;> cases empty
        refine ⟨before ++ renderLabel label ++ value.render ++ after ++ ',' :: front, back,
          ?_, ?_, ?_⟩
        · simp [Entries.render, further_eq nonempty, text]
        · intro value'
          simp [replace, different, Entries.render, further_eq (kept value'), replaced value']
        · intro index
          obtain ⟨start, here⟩ :=
            indexed ((entryMember index before label value).span.stop + after.length + 1)
          refine ⟨start, ?_⟩
          rw [findEntry, if_neg different, here, entryMember_stop]
          simp only [Option.some.injEq, Member.mk.injEq, Span.mk.injEq, true_and,
            List.length_append, List.length_cons]
          constructor <;> omega

theorem removeMember_comma (front member back : List Char) {blank : List Char}
    (valid : Blank blank) (start stop : Nat) (starts : start = (front ++ ',' :: blank).length)
    (stops : stop = (front ++ ',' :: blank ++ member).length) :
    removeMember (front ++ ',' :: blank ++ member ++ back) ⟨start, stop⟩ = front ++ back := by
  have taken : (front ++ ',' :: blank ++ member ++ back).take start = front ++ ',' :: blank := by
    rw [starts, List.append_assoc, List.take_left]
  have dropped : (front ++ ',' :: blank ++ member ++ back).drop stop = back := by
    rw [stops, List.drop_left]
  have reversed : (front ++ ',' :: blank).reverse.dropWhile isBlank = ',' :: front.reverse := by
    rw [List.reverse_append, List.reverse_cons, List.append_assoc,
      List.dropWhile_append_of_pos fun c listed => valid c (List.mem_reverse.mp listed)]
    rfl
  simp only [removeMember, taken, reversed, dropped, List.reverse_reverse]

theorem removeMember_first (front member back : List Char) {blank : List Char}
    (valid : Blank blank) (start stop : Nat) (starts : start = (front ++ '\x7b' :: blank).length)
    (stops : stop = (front ++ '\x7b' :: blank ++ member).length) :
    removeMember (front ++ '\x7b' :: blank ++ member ++ back) ⟨start, stop⟩ =
      front ++ '\x7b' :: blank ++
        (if (back.dropWhile isBlank).head? = some ',' then (back.dropWhile isBlank).drop 1
          else back) := by
  have taken : (front ++ '\x7b' :: blank ++ member ++ back).take start =
      front ++ '\x7b' :: blank := by
    rw [starts, List.append_assoc, List.take_left]
  have dropped : (front ++ '\x7b' :: blank ++ member ++ back).drop stop = back := by
    rw [stops, List.drop_left]
  have reversed : (front ++ '\x7b' :: blank).reverse.dropWhile isBlank =
      '\x7b' :: front.reverse := by
    rw [List.reverse_append, List.reverse_cons, List.append_assoc,
      List.dropWhile_append_of_pos fun c listed => valid c (List.mem_reverse.mp listed)]
    rfl
  have following : (front ++ '\x7b' :: blank ++ member ++ back).drop
      (stop + (back.takeWhile isBlank).length) = back.dropWhile isBlank := by
    have passed : (back.takeWhile isBlank ++ back.dropWhile isBlank).drop
        (back.takeWhile isBlank).length = back.dropWhile isBlank := List.drop_left
    rw [← blank_split back] at passed
    rw [← List.drop_drop, dropped, passed]
  simp only [removeMember, taken, reversed, skipWhitespace, charAt, dropped, following]
  split
  · rename_i clash
    exact absurd (List.cons.inj clash).1 (by decide)
  · split
    · rw [← List.drop_drop, following]
    · rfl

theorem cutLater_ne_nil {entries : Entries} (nonempty : entries ≠ .nil) :
    cutLater key entries ≠ .nil := by
  intro empty
  cases entries with
  | nil => exact nonempty rfl
  | cons before label value after rest =>
    cases rest with
    | nil => cases empty
    | cons =>
      unfold cutLater at empty
      split at empty <;> cases empty

theorem removeMember_later (back : List Char) {member : Member} :
    (front : List Char) → {before : List Char} → {label : Option Label} →
      {value : Tree} → {after : List Char} →
    (rest : Entries) → (Entries.cons before label value after rest).Valid .object →
    labelUnits label ≠ key →
    findEntry key (.cons before label value after rest) front.length = some member →
    removeMember (front ++ (Entries.cons before label value after rest).render ++ back)
        member.span =
      front ++ (cutLater key (.cons before label value after rest)).render ++ back
  | front, before, label, value, after, .nil, _, different, found => by
      simp [findEntry, different] at found
  | front, before, label, value, after, .cons before' label' value' after' rest, valid,
      different, found => by
      have blank' : Blank before' := valid.2.2.2.2.1
      rw [findEntry, if_neg different] at found
      by_cases named : labelUnits label' = key
      · rw [findEntry, if_pos named] at found
        obtain rfl := (Option.some.inj found).symm
        have cut := removeMember_comma
          (front ++ before ++ renderLabel label ++ value.render ++ after)
          (renderLabel label' ++ value'.render) (after' ++ further rest rest.render ++ back) blank'
          (front.length + before.length + (renderLabel label).length +
            value.render.length + after.length + 1 + before'.length)
          (front.length + before.length + (renderLabel label).length +
            value.render.length + after.length + 1 + before'.length +
              (renderLabel label').length + value'.render.length)
          (by simp only [List.length_append, List.length_cons]; omega)
          (by simp only [List.length_append, List.length_cons]; omega)
        have whole : front ++ before ++ renderLabel label ++ value.render ++ after ++
            ',' :: before' ++ (renderLabel label' ++ value'.render) ++
              (after' ++ further rest rest.render ++ back) =
            front ++ (Entries.cons before label value after
              (.cons before' label' value' after' rest)).render ++ back := by
          simp [Entries.render, further]
        rw [whole] at cut
        rw [cutLater, if_pos named]
        refine cut.trans ?_
        simp [Entries.render]
      · have here : findEntry key (.cons before' label' value' after' rest)
            (front ++ before ++ renderLabel label ++ value.render ++ after ++ [',']).length =
              some member := by
          simp only [List.length_append, List.length_cons]
          exact found
        have deeper := removeMember_later back _ rest valid.2.2.2.2 named here
        have whole : front ++ before ++ renderLabel label ++ value.render ++ after ++ [','] ++
            (Entries.cons before' label' value' after' rest).render ++ back =
            front ++ (Entries.cons before label value after
              (.cons before' label' value' after' rest)).render ++ back := by
          simp [Entries.render, further]
        rw [whole] at deeper
        have filled : cutLater key (.cons before' label' value' after' rest) ≠ .nil :=
          cutLater_ne_nil (by simp)
        rw [cutLater, if_neg named]
        refine deeper.trans ?_
        simp [Entries.render, further_eq filled]

theorem removeMember_block {front back pad : List Char} {entries : Entries} {member : Member}
    (valid : (Tree.block .object pad entries).Valid)
    (found : findEntry key entries (front.length + 1 + pad.length) = some member) :
    removeMember (front ++ (Tree.block .object pad entries).render ++ back) member.span =
      front ++ (cutTree key (.block .object pad entries)).render ++ back := by
  cases entries with
  | nil => cases found
  | cons before label value after rest =>
    obtain ⟨rfl, blankBefore, labelled, valued, blankAfter, restValid⟩ := valid
    by_cases named : labelUnits label = key
    · rw [findEntry, if_pos named] at found
      obtain rfl := (Option.some.inj found).symm
      have stops : (remainder .object rest back).dropWhile isBlank =
          remainder .object rest back :=
        (takeWhile_blank blank_nil (remainder_marks .object rest back).1).2
      have dropped : (after ++ remainder .object rest back).dropWhile isBlank =
          remainder .object rest back := by
        rw [List.dropWhile_append_of_pos blankAfter, stops]
      have cut := removeMember_first front (renderLabel label ++ value.render)
        (after ++ remainder .object rest back) blankBefore
        (front.length + 1 + before.length)
        (front.length + 1 + before.length + (renderLabel label).length + value.render.length)
        (by simp only [List.length_append, List.length_cons]; omega)
        (by simp only [List.length_append, List.length_cons]; omega)
      rw [dropped] at cut
      have whole : front ++ '\x7b' :: before ++ (renderLabel label ++ value.render) ++
          (after ++ remainder .object rest back) =
          front ++ (Tree.block .object [] (.cons before label value after rest)).render ++
            back := by
        simp [Tree.render, Entries.render, remainder, Kind.opening]
      rw [whole] at cut
      refine cut.trans ?_
      cases rest with
      | nil =>
        simp [remainder, further, cutTree, cutBlock, named, Tree.render, Entries.render,
          Kind.opening, Kind.closing]
      | cons before' label' value' after' rest =>
        simp [remainder, further, cutTree, cutBlock, named, Tree.render, Entries.render,
          Kind.opening]
    · have here : findEntry key (.cons before label value after rest)
          (front ++ ['\x7b']).length = some member := by
        simpa using found
      have later := removeMember_later (Kind.object.closing :: back) _ rest
        ⟨blankBefore, labelled, valued, blankAfter, restValid⟩ named here
      have whole : front ++ ['\x7b'] ++ (Entries.cons before label value after rest).render ++
          Kind.object.closing :: back =
          front ++ (Tree.block .object [] (.cons before label value after rest)).render ++
            back := by
        simp [Tree.render, Kind.opening]
      rw [whole] at later
      refine later.trans ?_
      simp [cutTree, cutBlock, named, Tree.render, Kind.opening]

theorem blank_append {first second : List Char} (one : Blank first) (two : Blank second) :
    Blank (first ++ second) := by
  intro c listed
  rcases List.mem_append.mp listed with early | late
  · exact one c early
  · exact two c late

theorem cutLater_valid : {entries : Entries} → entries.Valid .object →
    (cutLater key entries).Valid .object
  | .nil, valid => valid
  | .cons _ _ _ _ .nil, valid => valid
  | .cons before label value after (.cons before' label' value' after' rest), valid => by
      obtain ⟨blank, labelled, valued, blankAfter, blank', labelled',
        valued', after'Blank, rested⟩ :=
        valid
      unfold cutLater
      split
      · exact ⟨blank, labelled, valued, blank_append blankAfter after'Blank, rested⟩
      · exact ⟨blank, labelled, valued, blankAfter,
          cutLater_valid ⟨blank', labelled', valued', after'Blank, rested⟩⟩

theorem cutTree_valid {tree : Tree} (valid : tree.Valid) : (cutTree key tree).Valid := by
  unfold cutTree
  split
  · rename_i pad entries
    cases entries with
    | nil => exact valid
    | cons before label value after rest =>
      obtain ⟨padded, blank, labelled, valued, blankAfter, rested⟩ := valid
      obtain rfl : pad = [] := padded
      by_cases named : labelUnits label = key
      · cases rest with
        | nil =>
          simp only [cutBlock, if_pos named]
          exact ⟨blank_append blank blankAfter, trivial⟩
        | cons before' label' value' after' rest =>
          simp only [cutBlock, if_pos named]
          exact ⟨rfl, blank_append blank rested.1, rested.2⟩
      · simp only [cutBlock, if_neg named]
        exact ⟨padValid_filled (cutLater_ne_nil (by simp)),
          cutLater_valid ⟨blank, labelled, valued, blankAfter, rested⟩⟩
  · exact valid

theorem replace_valid {value' : Tree} (valid' : value'.Valid) {kind : Kind} :
    {entries : Entries} → entries.Valid kind → (replace key value' entries).Valid kind
  | .nil, valid => valid
  | .cons before label value after rest, valid => by
      obtain ⟨blank, labelled, valued, blankAfter, rested⟩ := valid
      unfold replace
      split
      · exact ⟨blank, labelled, valid', blankAfter, rested⟩
      · exact ⟨blank, labelled, valued, blankAfter, replace_valid valid' rested⟩

theorem replace_padValid {value' : Tree} {pad : List Char} {entries : Entries}
    (padded : PadValid pad entries) : PadValid pad (replace key value' entries) := by
  cases entries with
  | nil => exact padded
  | cons before label value after rest =>
    unfold replace
    split <;> exact padded

theorem lookup_valid {kind : Kind} {found : Tree} : {entries : Entries} →
    entries.Valid kind → lookup key entries = some found → found.Valid
  | .cons before label value after rest, valid, located => by
      unfold lookup at located
      split at located
      · cases located
        exact valid.2.2.1
      · exact lookup_valid valid.2.2.2.2 located

section Values

variable {ν : Type} (read : Numeral → ν)

theorem map_fst_members : (entries : Entries) → (entries.members read).map Prod.fst = names entries
  | .nil => by simp [Entries.members, names]
  | .cons _ _ _ _ rest => by simp [Entries.members, names, map_fst_members rest]

theorem settle_nodup {members : List (List Nat × Value ν)}
    (distinct : (members.map Prod.fst).Nodup) : settle members = members := by
  have appended : ∀ (table : Table (Prod.fst : List Nat × Value ν → List Nat)),
      (table.keys ++ members.map Prod.fst).Nodup →
        (table.upsertAll members).rows = table.rows ++ members := by
    clear distinct
    induction members with
    | nil => simp [Table.upsertAll]
    | cons member members ih =>
      intro table free
      have fresh : member.1 ∉ table.keys := fun taken =>
        (List.nodup_append.mp free).2.2 _ taken _ List.mem_cons_self rfl
      have rows := Table.rows_upsert_of_not_mem fresh
      have keys : (table.upsert member).keys = table.keys ++ [member.1] := by
        rw [Table.keys_upsert, if_neg fresh]
      have rest := ih (table.upsert member) (by
        rw [keys, List.append_assoc]
        exact free)
      change ((table.upsert member).upsertAll members).rows = _
      rw [rest, rows, List.append_assoc]
      rfl
  exact appended .empty distinct

variable {key : List Nat}

theorem members_cutLater : {before : List Char} → {label : Option Label} →
    {value : Tree} → {after : List Char} → (rest : Entries) →
    (cutLater key (.cons before label value after rest)).members read =
      (labelUnits label, value.value read) ::
        (rest.members read).eraseP fun member => decide (member.1 = key)
  | _, _, _, _, .nil => by simp [cutLater, Entries.members]
  | _, _, _, _, .cons before' label' value' after' rest => by
      unfold cutLater
      split
      · rename_i named
        simp [Entries.members, named]
      · rename_i different
        simp [Entries.members, different, members_cutLater rest]

theorem members_cutBlock (pad : List Char) (entries : Entries) :
    (cutBlock key pad entries).2.members read =
      (entries.members read).eraseP fun member => decide (member.1 = key) := by
  cases entries with
  | nil => simp [cutBlock, Entries.members]
  | cons before label value after rest =>
    by_cases named : labelUnits label = key
    · cases rest <;> simp [cutBlock, Entries.members, named]
    · simp only [cutBlock, if_neg named]
      rw [members_cutLater]
      simp [Entries.members, named]

theorem eraseP_nodup {members : List (List Nat × Value ν)} (key : List Nat)
    (distinct : (members.map Prod.fst).Nodup) :
    members.eraseP (fun member => decide (member.1 = key)) =
      members.filter fun member => decide (member.1 ≠ key) := by
  induction members with
  | nil => rfl
  | cons member members ih =>
    rw [List.map_cons, List.nodup_cons] at distinct
    by_cases named : member.1 = key
    · have kept : members.filter (fun member => decide (member.1 ≠ key)) = members := by
        refine List.filter_eq_self.mpr fun other listed => ?_
        have different : other.1 ≠ key := fun same =>
          distinct.1 (List.mem_map.mpr ⟨other, listed, same.trans named.symm⟩)
        simp [different]
      rw [List.eraseP_cons_of_pos (by simp [named]), List.filter_cons_of_neg (by simp [named]),
        kept]
    · simp [named, ih distinct.2]

theorem members_replace {value' : Tree} : (entries : Entries) →
    (names entries).Nodup →
    (replace key value' entries).members read =
      (entries.members read).map fun member =>
        if member.1 = key then (member.1, value'.value read) else member
  | .nil, _ => by simp [replace, Entries.members]
  | .cons before label value after rest, distinct => by
      rw [names, List.nodup_cons] at distinct
      unfold replace
      split
      · rename_i named
        have kept : (rest.members read).map (fun member =>
            if member.1 = key then (member.1, value'.value read) else member) =
              rest.members read := by
          refine (List.map_congr_left fun member listed => ?_).trans (List.map_id _)
          have different : member.1 ≠ key := fun same => distinct.1 (by
            rw [named, ← same, ← map_fst_members read]
            exact List.mem_map_of_mem listed)
          exact if_neg different
        simp [Entries.members, named, kept]
      · rename_i different
        simp [Entries.members, different, members_replace rest distinct.2]

theorem find?_members : (entries : Entries) →
    ((entries.members read).find? fun member => decide (member.1 = key)).map Prod.snd =
      (lookup key entries).map (Tree.value read)
  | .nil => by simp [Entries.members, lookup]
  | .cons before label value after rest => by
      by_cases named : labelUnits label = key
      · simp [Entries.members, lookup, named]
      · simp [Entries.members, lookup, named, find?_members rest]

end Values

end Heniek.CanonicalCut
