import Heniek.ConfigurationRestriction
import Mathlib.Algebra.Order.BigOperators.Group.List

/-!
The resolution of documents beside that of the documents whose overrides are restricted.
Both have the same entries and values exactly when no override with a part that is left out
is the last to decide a path at which the others merge to something of another shape, and
none is cut down where they merge to a leaf.
-/

namespace Heniek.ConfigurationOverrides
open ExpressionEvaluation CanonicalState ConfigurationLayers
open ConfigurationMerge ConfigurationLeaves ConfigurationFold ConfigurationWinners
open ConfigurationProvenance ConfigurationRestriction ScriptText

theorem blocks_iff (path : List String) : ∀ {value : JsonValue}, blocks value path = true ↔
    ∃ above rest leaf, path = above ++ rest ∧ rest ≠ [] ∧ valueAt value above = some leaf ∧
      isPlainObject leaf = false := by
  induction path with
  | nil =>
    refine iff_of_false (by simp [blocks]) ?_
    rintro ⟨above, rest, leaf, same, nonempty, -⟩
    exact nonempty (List.append_eq_nil_iff.mp same.symm).2
  | cons segment path ih =>
    intro value
    by_cases scalar : isPlainObject value = false
    · exact iff_of_true (view_cons_of_not_object scalar segment path).2
        ⟨[], segment :: path, value, rfl, List.cons_ne_nil _ _, rfl, scalar⟩
    · obtain ⟨members, rfl⟩ := isPlainObject_iff.mp (Bool.eq_true_of_not_eq_false scalar)
      rw [blocks]
      cases held : property? members segment with
      | none =>
        refine iff_of_false (by simp) ?_
        rintro ⟨above, rest, leaf, same, nonempty, located, shape⟩
        cases above with
        | nil =>
          obtain rfl : JsonValue.object members = leaf := Option.some.inj located
          exact scalar shape
        | cons first above =>
          obtain ⟨rfl, -⟩ := List.cons.inj same
          rw [valueAt_object, held] at located
          cases located
      | some child =>
        refine ih.trans ?_
        constructor
        · rintro ⟨above, rest, leaf, rfl, nonempty, located, shape⟩
          refine ⟨segment :: above, rest, leaf, rfl, nonempty, ?_, shape⟩
          rw [valueAt_object, held]
          exact located
        · rintro ⟨above, rest, leaf, same, nonempty, located, shape⟩
          cases above with
          | nil =>
            obtain rfl : JsonValue.object members = leaf := Option.some.inj located
            exact absurd shape scalar
          | cons first above =>
            obtain ⟨rfl, inner⟩ := List.cons.inj same
            rw [valueAt_object, held] at located
            exact ⟨above, rest, leaf, inner, nonempty, located, shape⟩

theorem object_above {value found : JsonValue} {above rest : List String} (nonempty : rest ≠ [])
    (located : valueAt value (above ++ rest) = some found) :
    ∃ upper, valueAt value above = some upper ∧ isPlainObject upper = true := by
  rw [valueAt_append] at located
  obtain ⟨upper, held, beneath⟩ := Option.bind_eq_some_iff.mp located
  refine ⟨upper, held, Bool.eq_true_of_not_eq_false fun scalar => ?_⟩
  cases rest with
  | nil => exact nonempty rfl
  | cons segment rest =>
    rw [view_eq_none.mp (view_cons_of_not_object scalar segment rest).1] at beneath
    cases beneath

theorem view_of_blocked {value leaf : JsonValue} {above rest : List String} (nonempty : rest ≠ [])
    (located : valueAt value above = some leaf) (scalar : isPlainObject leaf = false) :
    view value (above ++ rest) = none := by
  refine view_eq_none.mpr ?_
  cases held : valueAt value (above ++ rest) with
  | none => rfl
  | some found =>
    obtain ⟨upper, here, object⟩ := object_above nonempty held
    obtain rfl := Option.some.inj (located.symm.trans here)
    rw [scalar] at object
    cases object

theorem view_of_object {value found : JsonValue} {path : List String}
    (located : valueAt value path = some found) (object : isPlainObject found = true) :
    view value path = some .branch := by
  obtain ⟨members, rfl⟩ := isPlainObject_iff.mp object
  exact view_eq_branch.mpr ⟨members, located⟩

section LeftOut

variable {policy : IndexedConfigurationPolicy} {document : SanitizedDocument} {path : List String}

theorem decides_iff :
    decides document path = true ↔ (∃ value, valueAt document.values path = some value) ∨
      ∃ above rest leaf, path = above ++ rest ∧ rest ≠ [] ∧
        valueAt document.values above = some leaf ∧ isPlainObject leaf = false := by
  rw [decides, Bool.or_eq_true_iff, Option.isSome_iff_exists, blocks_iff]

theorem decides_of_restricted
    (sound : Distinct document.values ∧ isPlainObject document.values = true)
    (decided : decides (restrictDocument policy document) path = true) :
    decides document path = true := by
  rw [decides_iff] at decided ⊢
  rcases decided with ⟨value, located⟩ | ⟨above, rest, leaf, same, nonempty, located, scalar⟩
  · by_cases object : isPlainObject value = true
    · obtain ⟨whole, held, -⟩ := object_restrictDocument sound object located
      exact Or.inl ⟨whole, held⟩
    · have held := (leaf_restrictDocument sound (Bool.eq_false_of_not_eq_true object)).mp located
      exact Or.inl ⟨value, held.1⟩
  · exact Or.inr ⟨above, rest, leaf, same, nonempty,
      ((leaf_restrictDocument sound scalar).mp located).1, scalar⟩

theorem view_restrictDocument
    (sound : Distinct document.values ∧ isPlainObject document.values = true)
    (decided : decides (restrictDocument policy document) path = true) :
    view (restrictDocument policy document).values path = view document.values path := by
  rcases decides_iff.mp decided with ⟨value, located⟩ |
    ⟨above, rest, leaf, rfl, nonempty, located, scalar⟩
  · by_cases object : isPlainObject value = true
    · obtain ⟨whole, held, shape⟩ := object_restrictDocument sound object located
      rw [view_of_object located object, view_of_object held shape]
    · have scalar := Bool.eq_false_of_not_eq_true object
      have held := ((leaf_restrictDocument sound scalar).mp located).1
      rw [view_eq_leaf.mpr ⟨located, scalar⟩, view_eq_leaf.mpr ⟨held, scalar⟩]
  · have held := ((leaf_restrictDocument sound scalar).mp located).1
    rw [view_of_blocked nonempty located scalar, view_of_blocked nonempty held scalar]

end LeftOut

section Deciding

variable {policy : IndexedConfigurationPolicy} {documents : List SanitizedDocument}
variable {path : List String} {document : SanitizedDocument}

theorem mem_of_deciding (last : deciding documents path = some document) :
    document ∈ documents := by
  obtain ⟨-, front, back, rfl, -⟩ := deciding_eq_some.mp last
  simp

theorem deciding_restrict (sound : Sound documents) (last : deciding documents path = some document)
    (still : decides (restrictDocument policy document) path = true) :
    deciding (documents.map (restrictDocument policy)) path =
      some (restrictDocument policy document) := by
  obtain ⟨-, front, back, rfl, later⟩ := deciding_eq_some.mp last
  refine deciding_eq_some.mpr ⟨still, front.map (restrictDocument policy),
    back.map (restrictDocument policy), by simp, ?_⟩
  intro other listed
  obtain ⟨original, member, rfl⟩ := List.mem_map.mp listed
  refine Bool.eq_false_of_not_eq_true fun decided => ?_
  have before := decides_of_restricted (sound original (by simp [member])) decided
  rw [later original member] at before
  cases before

theorem deciding_eq_none (documents : List SanitizedDocument) (path : List String) :
    deciding documents path = none ↔ ∀ document ∈ documents, decides document path = false := by
  unfold deciding
  simp

theorem view_of_deciding (sound : Sound documents)
    (last : deciding documents path = some document) :
    view (mergeDocuments documents) path = view document.values path := by
  rw [view_mergeDocuments sound, last]
  rfl

theorem view_of_undecided (sound : Sound documents) (never : deciding documents path = none) :
    view (mergeDocuments documents) path = view (.object []) path := by
  rw [view_mergeDocuments sound, never]
  rfl

end Deciding

section Undisturbed

variable (policy : IndexedConfigurationPolicy) (documents : List SanitizedDocument)

def mergeRestricted : JsonValue := mergeDocuments (documents.map (restrictDocument policy))

/-- The last document to decide the path is an override that decides it only by what its
restriction leaves out. -/
def LeftOut (path : List String) (document : SanitizedDocument) : Prop :=
  deciding documents path = some document ∧ decides (restrictDocument policy document) path = false

/-- What is left out where it decides a path stands for something of its own shape: an object
for an object, a leaf for a leaf or for what no admitted document holds, and beneath a leaf
there is nothing. Where the restricted documents merge to a leaf, no admitted document is cut
down. -/
structure Undisturbed : Prop where
  objects : ∀ path document, LeftOut policy documents path document →
    view document.values path = some .branch →
      view (mergeRestricted policy documents) path = some .branch
  leaves : ∀ path document leaf, LeftOut policy documents path document →
    view document.values path = some (.leaf leaf) →
      (∃ kept, view (mergeRestricted policy documents) path = some (.leaf kept)) ∨
        view (mergeRestricted policy documents) path = none ∧ leafChain policy documents path = []
  covered : ∀ path document, LeftOut policy documents path document →
    view document.values path = none → view (mergeRestricted policy documents) path = none
  whole : ∀ path leaf, view (mergeRestricted policy documents) path = some (.leaf leaf) →
    ∀ document ∈ documents, permitted policy (pathToPointer path) document.layer = true →
      valueAt (restrictDocument policy document).values path = valueAt document.values path

variable {policy documents} {path : List String} {leaf : JsonValue}

theorem restricted_undecided (sound : Sound documents) (never : deciding documents path = none) :
    view (mergeRestricted policy documents) path = view (.object []) path := by
  refine view_of_undecided (sound_restrict sound) ((deciding_eq_none _ _).mpr ?_)
  intro other listed
  obtain ⟨original, member, rfl⟩ := List.mem_map.mp listed
  refine Bool.eq_false_of_not_eq_true fun decided => ?_
  have before := decides_of_restricted (sound original member) decided
  rw [(deciding_eq_none _ _).mp never original member] at before
  cases before

theorem same_or_left_out (sound : Sound documents) (path : List String) :
    view (mergeDocuments documents) path = view (mergeRestricted policy documents) path ∨
      ∃ document, LeftOut policy documents path document ∧
        view (mergeDocuments documents) path = view document.values path := by
  cases last : deciding documents path with
  | none =>
    rw [view_of_undecided sound last, restricted_undecided sound last]
    exact Or.inl rfl
  | some document =>
    have shown := view_of_deciding sound last
    by_cases still : decides (restrictDocument policy document) path = true
    · left
      have kept := view_of_deciding (sound_restrict sound) (deciding_restrict sound last still)
      rw [shown, mergeRestricted, kept,
        view_restrictDocument (sound document (mem_of_deciding last)) still]
    · exact Or.inr ⟨document, ⟨last, Bool.eq_false_of_not_eq_true still⟩, shown⟩

theorem branch_restricted (sound : Sound documents) (calm : Undisturbed policy documents)
    (merged : view (mergeDocuments documents) path = some .branch) :
    view (mergeRestricted policy documents) path = some .branch := by
  rcases same_or_left_out sound path with same | ⟨document, out, shown⟩
  · exact same.symm.trans merged
  · exact calm.objects path document out (shown.symm.trans merged)

theorem leaf_restricted (sound : Sound documents) (calm : Undisturbed policy documents)
    (merged : view (mergeDocuments documents) path = some (.leaf leaf)) :
    (∃ kept, view (mergeRestricted policy documents) path = some (.leaf kept)) ∨
      view (mergeRestricted policy documents) path = none ∧
        leafChain policy documents path = [] := by
  rcases same_or_left_out sound path with same | ⟨document, out, shown⟩
  · exact Or.inl ⟨leaf, same.symm.trans merged⟩
  · exact calm.leaves path document leaf out (shown.symm.trans merged)

theorem none_restricted (sound : Sound documents) (calm : Undisturbed policy documents)
    (merged : view (mergeDocuments documents) path = none) :
    view (mergeRestricted policy documents) path = none := by
  rcases same_or_left_out sound path with same | ⟨document, out, shown⟩
  · exact same.symm.trans merged
  · exact calm.covered path document out (shown.symm.trans merged)

theorem branch_of_restricted (sound : Sound documents) (calm : Undisturbed policy documents)
    (kept : view (mergeRestricted policy documents) path = some .branch) :
    view (mergeDocuments documents) path = some .branch := by
  cases merged : view (mergeDocuments documents) path with
  | none =>
    rw [none_restricted sound calm merged] at kept
    cases kept
  | some node =>
    cases node with
    | branch => rfl
    | leaf leaf =>
      rcases leaf_restricted sound calm merged with ⟨other, shown⟩ | ⟨gone, -⟩
      · rw [shown] at kept
        cases kept
      · rw [gone] at kept
        cases kept

theorem leaf_of_restricted (sound : Sound documents) (calm : Undisturbed policy documents)
    (kept : view (mergeRestricted policy documents) path = some (.leaf leaf)) :
    ∃ found, view (mergeDocuments documents) path = some (.leaf found) := by
  cases merged : view (mergeDocuments documents) path with
  | none =>
    rw [none_restricted sound calm merged] at kept
    cases kept
  | some node =>
    cases node with
    | leaf found => exact ⟨found, rfl⟩
    | branch =>
      rw [branch_restricted sound calm merged] at kept
      cases kept

theorem leafChain_restrict (calm : Undisturbed policy documents)
    (kept : view (mergeRestricted policy documents) path = some (.leaf leaf)) :
    leafChain policy (documents.map (restrictDocument policy)) path =
      leafChain policy documents path := by
  unfold leafChain
  rw [List.filterMap_map]
  refine List.filterMap_congr fun document listed => ?_
  rw [Function.comp_apply, layer_restrictDocument, sourcePath_restrictDocument]
  by_cases admitted : permitted policy (pathToPointer path) document.layer = true
  · rw [if_pos admitted, if_pos admitted, calm.whole path leaf kept document listed admitted]
  · rw [if_neg admitted, if_neg admitted]

end Undisturbed

section Size

variable {policy : IndexedConfigurationPolicy}

theorem size_kept {value : JsonValue} (scalar : isPlainObject value = false) (base : List String) :
    ∀ kept ∈ restrictValue policy base value, kept = value ∨ sizeOf kept < sizeOf value := by
  intro kept shown
  exact Or.inl ((restrictValue_scalar shown).2 scalar).1.symm

mutual

theorem size_restrictValue : (value : JsonValue) → (base : List String) →
    ∀ kept ∈ restrictValue policy base value, kept = value ∨ sizeOf kept < sizeOf value
  | .object members, base => by
      rw [restrictValue_object]
      intro kept shown
      unfold unlessEmpty at shown
      split at shown
      · cases shown
      · cases shown
        rcases size_restrictMembers members base with same | smaller
        · exact Or.inl (by rw [same])
        · right
          rw [JsonValue.object.sizeOf_spec, JsonValue.object.sizeOf_spec]
          omega
  | .null, base => size_kept rfl base
  | .bool _, base => size_kept rfl base
  | .number _, base => size_kept rfl base
  | .string _, base => size_kept rfl base
  | .array _, base => size_kept rfl base

theorem size_restrictMember : (member : String × JsonValue) → (base : List String) →
    ∀ kept ∈ restrictMember policy base member, kept = member ∨ sizeOf kept < sizeOf member
  | (key, value), base => by
      rintro kept shown
      obtain ⟨child, inner, rfl⟩ := Option.map_eq_some_iff.mp shown
      rcases size_restrictValue value (base ++ [key]) child inner with rfl | smaller
      · exact Or.inl rfl
      · right
        rw [Prod.mk.sizeOf_spec, Prod.mk.sizeOf_spec]
        omega

theorem size_restrictMembers : (members : List (String × JsonValue)) → (base : List String) →
    restrictMembers policy base members = members ∨
      sizeOf (restrictMembers policy base members) < sizeOf members
  | [], _ => Or.inl rfl
  | member :: members, base => by
      have first := size_restrictMember member base
      have later := size_restrictMembers members base
      rw [restrictMembers]
      cases kept : restrictMember policy base member with
      | none =>
        right
        dsimp only
        rw [List.cons.sizeOf_spec]
        rcases later with same | smaller
        · rw [same]
          omega
        · omega
      | some child =>
        rw [List.cons.sizeOf_spec, List.cons.sizeOf_spec]
        rcases first child kept with rfl | smaller
        · rcases later with same | smaller
          · exact Or.inl (by rw [same])
          · exact Or.inr (by omega)
        · rcases later with same | smaller'
          · exact Or.inr (by rw [same]; omega)
          · exact Or.inr (by omega)

end

variable {documents : List SanitizedDocument} {document : SanitizedDocument} {path : List String}

noncomputable def added (policy : IndexedConfigurationPolicy) (path : List String)
    (document : SanitizedDocument) : Nat :=
  if permitted policy (pathToPointer path) document.layer then
    ((valueAt document.values path).map fun value => 1 + sizeOf value).getD 0
  else 0

theorem sum_leafChain (documents : List SanitizedDocument) :
    ((leafChain policy documents path).map fun entry => 1 + sizeOf entry.value).sum =
      (documents.map (added policy path)).sum := by
  induction documents with
  | nil => rfl
  | cons document documents ih =>
    rw [List.map_cons, List.sum_cons, ← ih, ← List.singleton_append, leafChain_append,
      List.map_append, List.sum_append]
    congr 1
    unfold leafChain added
    rw [List.filterMap_cons, List.filterMap_nil]
    by_cases admitted : permitted policy (pathToPointer path) document.layer = true
    · rw [if_pos admitted, if_pos admitted]
      cases valueAt document.values path <;> simp
    · rw [if_neg admitted, if_neg admitted]
      rfl

theorem added_restrict (distinct : Distinct document.values) (nonempty : path ≠ [])
    (admitted : permitted policy (pathToPointer path) document.layer = true) :
    valueAt (restrictDocument policy document).values path = valueAt document.values path ∨
      added policy path (restrictDocument policy document) < added policy path document := by
  by_cases level : document.layer = .invocationOverride
  · obtain ⟨segment, rest, rfl⟩ := List.exists_cons_of_ne_nil nonempty
    unfold added
    rw [layer_restrictDocument, if_pos admitted, if_pos admitted,
      valueAt_restrictDocument level distinct]
    cases valueAt document.values (segment :: rest) with
    | none => exact Or.inl rfl
    | some value =>
      rw [Option.bind_some]
      cases kept : restrictValue policy (segment :: rest) value with
      | none => exact Or.inr (by simp)
      | some child =>
        rcases size_restrictValue value (segment :: rest) child kept with rfl | smaller
        · exact Or.inl rfl
        · exact Or.inr (by simpa using smaller)
  · exact Or.inl (by rw [restrictDocument_of_layer level])

theorem added_restrict_le (distinct : Distinct document.values) (nonempty : path ≠ []) :
    added policy path (restrictDocument policy document) ≤ added policy path document := by
  by_cases admitted : permitted policy (pathToPointer path) document.layer = true
  · rcases added_restrict distinct nonempty admitted with same | smaller
    · unfold added
      rw [layer_restrictDocument, same]
    · exact smaller.le
  · unfold added
    rw [layer_restrictDocument, if_neg admitted, if_neg admitted]

theorem whole_of_perm (sound : Sound documents) (nonempty : path ≠ [])
    (same : (leafChain policy (documents.map (restrictDocument policy)) path).Perm
      (leafChain policy documents path)) (listed : document ∈ documents)
    (admitted : permitted policy (pathToPointer path) document.layer = true) :
    valueAt (restrictDocument policy document).values path = valueAt document.values path := by
  have sums := (same.map fun entry => 1 + sizeOf entry.value).sum_eq
  rw [sum_leafChain, sum_leafChain, List.map_map] at sums
  by_contra cut
  have smaller := (added_restrict (sound document listed).1 nonempty admitted).resolve_left cut
  have less : (documents.map _).sum < (documents.map _).sum := List.sum_lt_sum
    (fun other => added policy path (restrictDocument policy other)) (added policy path)
    (fun other member => added_restrict_le (sound other member).1 nonempty)
    ⟨document, listed, smaller⟩
  exact less.ne sums

end Size

section Resolved

variable (describeValue : JsonValue → String) {policy : IndexedConfigurationPolicy}
variable {documents others : List SanitizedDocument} {path : List String} {leaf : JsonValue}

def resolvedProvenance (policy : IndexedConfigurationPolicy) (documents : List SanitizedDocument) :
    List ConfigurationProvenance :=
  sortBy ConfigurationProvenance.pointer
    ((collectLeafPaths (mergeDocuments documents)).filterMap
      (leafProvenance describeValue policy documents))

theorem mem_leaves_iff (sound : Sound documents) :
    path ∈ collectLeafPaths (mergeDocuments documents) ↔
      ∃ leaf, view (mergeDocuments documents) path = some (.leaf leaf) :=
  mem_collectLeafPaths _ (distinct_mergeDocuments sound) path

theorem winnerAt_congr
    (same : leafChain policy others path = leafChain policy documents path) :
    winnerAt policy others path = winnerAt policy documents path := by
  unfold winnerAt
  rw [same]

theorem leafProvenance_congr
    (same : leafChain policy others path = leafChain policy documents path) :
    leafProvenance describeValue policy others path =
      leafProvenance describeValue policy documents path := by
  unfold leafProvenance leafResolution
  rw [same]

theorem filled_of_winner {winner : ConfigurationProvenanceEntry}
    (won : winnerAt policy documents path = some winner) :
    leafChain policy documents path ≠ [] := by
  intro empty
  rw [winnerAt_eq_none.mpr empty] at won
  cases won

theorem mem_creditedPaths :
    path ∈ creditedPaths policy documents ↔
      path ∈ collectLeafPaths (mergeDocuments documents) ∧
        ∃ winner, winnerAt policy documents path = some winner := by
  rw [creditedPaths, List.mem_filter, Option.isSome_iff_exists]

theorem credited_of_leaf (sound : Sound documents)
    (kept : view (mergeRestricted policy documents) path = some (.leaf leaf)) :
    path ∈ creditedPaths policy (documents.map (restrictDocument policy)) := by
  have listed := (mem_leaves_iff (sound_restrict sound)).mpr ⟨leaf, kept⟩
  obtain ⟨document, here⟩ := (mem_merged_leaves (sound_restrict sound)).mp listed
  obtain ⟨front, back, value, same, located, scalar, -⟩ := id here
  have member : document ∈ documents.map (restrictDocument policy) := by simp [same]
  obtain ⟨original, held, rfl⟩ := List.mem_map.mp member
  have admitted := ((leaf_restrictDocument (sound original held) scalar).mp located).2
  rw [← @layer_restrictDocument policy] at admitted
  obtain ⟨last, final, -⟩ := last_of_leaf here admitted
  refine mem_creditedPaths.mpr ⟨listed, winner_exists fun empty => ?_⟩
  rw [empty] at final
  cases final

theorem restricted_winner_scalar (sound : Sound documents) :
    Uncovered policy (documents.map (restrictDocument policy)) := by
  rintro path document ⟨front, back, leaf, same, located, scalar, -⟩ denied
  have listed : document ∈ documents.map (restrictDocument policy) := by simp [same]
  obtain ⟨original, member, rfl⟩ := List.mem_map.mp listed
  have admitted := ((leaf_restrictDocument (sound original member) scalar).mp located).2
  rw [layer_restrictDocument, admitted] at denied
  cases denied

theorem resolved_leaf_iff (sound : Sound documents) (uncovered : Uncovered policy documents) :
    view (resolvedValues describeValue policy documents) path = some (.leaf leaf) ↔
      path ∈ creditedPaths policy documents ∧
        (winnerAt policy documents path).map (fun winner => winner.value) = some leaf := by
  have leaves := (leaves_iff describeValue sound).mpr ((uncovered_iff sound).mp uncovered) path
  have distinct : Distinct (resolvedValues describeValue policy documents) :=
    distinct_resolvedValues describeValue sound
  rw [leaves, mem_collectLeafPaths _ distinct]
  constructor
  · intro shown
    have credited := leaves.mpr ((mem_collectLeafPaths _ distinct path).mpr ⟨leaf, shown⟩)
    refine ⟨⟨leaf, shown⟩, ?_⟩
    rw [← values_at_leaf describeValue sound (mem_creditedPaths.mp credited).1,
      (view_eq_leaf.mp shown).1]
  · rintro ⟨⟨other, shown⟩, value⟩
    have credited := leaves.mpr ((mem_collectLeafPaths _ distinct path).mpr ⟨other, shown⟩)
    have located := (view_eq_leaf.mp shown).1
    rw [values_at_leaf describeValue sound (mem_creditedPaths.mp credited).1, value] at located
    rw [shown, Option.some.inj located]

theorem branch_of_merged (sound : Sound documents)
    (merged : view (mergeDocuments documents) path = some .branch) :
    view (resolvedValues describeValue policy documents) path = some .branch := by
  obtain ⟨members, located⟩ := view_eq_branch.mp merged
  obtain ⟨edited, values⟩ := @values_at_object describeValue policy _ sound _ _ located
  exact view_eq_branch.mpr ⟨edited, values⟩

theorem merged_of_branch (sound : Sound documents)
    (shown : view (resolvedValues describeValue policy documents) path = some .branch) :
    view (mergeDocuments documents) path = some .branch ∨
      ∃ above rest winner, path = above ++ rest ∧
        above ∈ collectLeafPaths (mergeDocuments documents) ∧
          winnerAt policy documents above = some winner ∧ isPlainObject winner.value = true := by
  obtain ⟨members, located⟩ := view_eq_branch.mp shown
  cases merged : view (mergeDocuments documents) path with
  | none =>
    rcases @values_at_absent describeValue policy _ sound _ (view_eq_none.mp merged) with
      gone | ⟨above, rest, rfl, nonempty, listed, beneath⟩
    · rw [gone] at located
      cases located
    · rw [beneath] at located
      obtain ⟨winner, won, held⟩ := Option.bind_eq_some_iff.mp located
      obtain ⟨upper, same, object⟩ := @object_above _ _ [] _ nonempty held
      obtain rfl : winner.value = upper := Option.some.inj same
      exact Or.inr ⟨above, rest, winner, rfl, listed, won, object⟩
  | some node =>
    cases node with
    | branch => exact Or.inl rfl
    | leaf leaf =>
      have listed := (mem_leaves_iff sound).mpr ⟨leaf, merged⟩
      rw [values_at_leaf describeValue sound listed] at located
      obtain ⟨winner, won, value⟩ := Option.map_eq_some_iff.mp located
      exact Or.inr ⟨path, [], winner, by simp, listed, won, by rw [value]; rfl⟩

theorem resolved_branch_iff (sound : Sound documents) (uncovered : Uncovered policy documents) :
    view (resolvedValues describeValue policy documents) path = some .branch ↔
      view (mergeDocuments documents) path = some .branch := by
  refine ⟨fun shown => ?_, branch_of_merged describeValue sound⟩
  rcases merged_of_branch describeValue sound shown with
    merged | ⟨above, rest, winner, -, listed, won, object⟩
  · exact merged
  · rw [(uncovered_iff sound).mp uncovered above listed winner won] at object
    cases object

theorem view_ext {first second : JsonValue}
    (leaves : ∀ leaf, view first path = some (.leaf leaf) ↔ view second path = some (.leaf leaf))
    (branches : view first path = some .branch ↔ view second path = some .branch) :
    view first path = view second path := by
  refine Option.ext fun node => ?_
  cases node with
  | branch => exact branches
  | leaf leaf => exact leaves leaf

theorem mem_resolvedProvenance {entry : ConfigurationProvenance} :
    entry ∈ resolvedProvenance describeValue policy documents ↔
      ∃ path ∈ collectLeafPaths (mergeDocuments documents),
        leafProvenance describeValue policy documents path = some entry := by
  rw [resolvedProvenance, mem_sortBy, List.mem_filterMap]

theorem credited_of_built {entry : ConfigurationProvenance}
    (built : leafProvenance describeValue policy documents path = some entry) :
    entry.pointer = pathToPointer path ∧
      ∃ winner, winnerAt policy documents path = some winner := by
  obtain ⟨resolution, resolved, rfl⟩ := Option.map_eq_some_iff.mp built
  refine ⟨rfl, resolution.winner, ?_⟩
  rw [← winner_leafResolution describeValue, resolved]
  rfl

theorem built_of_credited (credited : path ∈ creditedPaths policy documents) :
    ∃ entry, leafProvenance describeValue policy documents path = some entry := by
  obtain ⟨-, winner, won⟩ := mem_creditedPaths.mp credited
  rw [← winner_leafResolution describeValue] at won
  obtain ⟨resolution, resolved, -⟩ := Option.map_eq_some_iff.mp won
  exact ⟨_, by rw [leafProvenance, resolved]; rfl⟩

end Resolved

section Sufficient

variable (describeValue : JsonValue → String) {policy : IndexedConfigurationPolicy}
variable {documents : List SanitizedDocument} {path : List String}

theorem creditedPaths_restrict (sound : Sound documents) (calm : Undisturbed policy documents) :
    path ∈ creditedPaths policy (documents.map (restrictDocument policy)) ↔
      path ∈ creditedPaths policy documents := by
  rw [mem_creditedPaths, mem_creditedPaths]
  constructor
  · rintro ⟨listed, winner, won⟩
    obtain ⟨leaf, kept⟩ := (mem_leaves_iff (sound_restrict sound)).mp listed
    have merged := leaf_of_restricted sound calm kept
    rw [winnerAt_congr (leafChain_restrict calm kept)] at won
    exact ⟨(mem_leaves_iff sound).mpr merged, winner, won⟩
  · rintro ⟨listed, winner, won⟩
    obtain ⟨leaf, merged⟩ := (mem_leaves_iff sound).mp listed
    rcases leaf_restricted sound calm merged with ⟨other, kept⟩ | ⟨-, empty⟩
    · rw [← winnerAt_congr (leafChain_restrict calm kept)] at won
      exact ⟨(mem_leaves_iff (sound_restrict sound)).mpr ⟨other, kept⟩, winner, won⟩
    · exact absurd empty (filled_of_winner won)

theorem chain_of_credited (sound : Sound documents) (calm : Undisturbed policy documents)
    (credited : path ∈ creditedPaths policy documents) :
    leafChain policy (documents.map (restrictDocument policy)) path =
      leafChain policy documents path := by
  have listed := (mem_creditedPaths.mp ((creditedPaths_restrict sound calm).mpr credited)).1
  obtain ⟨leaf, kept⟩ := (mem_leaves_iff (sound_restrict sound)).mp listed
  exact leafChain_restrict calm kept

theorem winner_scalar (sound : Sound documents) (calm : Undisturbed policy documents) :
    Uncovered policy documents := by
  refine (uncovered_iff sound).mpr fun path listed winner won => ?_
  have credited := mem_creditedPaths.mpr ⟨listed, winner, won⟩
  have restricted := (mem_creditedPaths.mp ((creditedPaths_restrict sound calm).mpr credited)).1
  rw [← winnerAt_congr (chain_of_credited sound calm credited)] at won
  exact (uncovered_iff (sound_restrict sound)).mp (restricted_winner_scalar sound) path restricted
    winner won

theorem values_restrict (sound : Sound documents) (calm : Undisturbed policy documents)
    (path : List String) :
    view (resolvedValues describeValue policy documents) path =
      view
        (resolvedValues describeValue policy (documents.map (restrictDocument policy))) path := by
  have whole := winner_scalar sound calm
  have restricted := @restricted_winner_scalar policy _ sound
  refine view_ext (fun leaf => ?_) ?_
  · rw [resolved_leaf_iff describeValue sound whole,
      resolved_leaf_iff describeValue (sound_restrict sound) restricted,
      creditedPaths_restrict sound calm]
    refine and_congr_right fun credited => ?_
    rw [winnerAt_congr (chain_of_credited sound calm credited)]
  · rw [resolved_branch_iff describeValue sound whole,
      resolved_branch_iff describeValue (sound_restrict sound) restricted]
    exact ⟨branch_restricted sound calm, branch_of_restricted sound calm⟩

theorem provenance_restrict (sound : Sound documents) (calm : Undisturbed policy documents) :
    resolvedProvenance describeValue policy documents =
      resolvedProvenance describeValue policy (documents.map (restrictDocument policy)) := by
  have single : ∀ docs : List SanitizedDocument, Sound docs →
      (((collectLeafPaths (mergeDocuments docs)).filterMap
        (leafProvenance describeValue policy docs)).map ConfigurationProvenance.pointer).Nodup := by
    intro docs fine
    rw [pointers_leafProvenance]
    exact ((nodup_collectLeafPaths _ (distinct_mergeDocuments fine)).filter _).map
      pathToPointer_injective
  refine sortBy_of_perm ?_ fun a first b second same =>
    List.inj_on_of_nodup_map (single documents sound) first second same
  refine (List.perm_ext_iff_of_nodup (single documents sound).of_map
    (single _ (sound_restrict sound)).of_map).mpr fun entry => ?_
  rw [List.mem_filterMap, List.mem_filterMap]
  constructor
  · rintro ⟨path, listed, built⟩
    have credited := mem_creditedPaths.mpr ⟨listed, (credited_of_built describeValue built).2⟩
    have restricted := (creditedPaths_restrict sound calm).mpr credited
    refine ⟨path, (mem_creditedPaths.mp restricted).1, ?_⟩
    rw [leafProvenance_congr describeValue (chain_of_credited sound calm credited), built]
  · rintro ⟨path, listed, built⟩
    have restricted := mem_creditedPaths.mpr ⟨listed, (credited_of_built describeValue built).2⟩
    have credited := (creditedPaths_restrict sound calm).mp restricted
    refine ⟨path, (mem_creditedPaths.mp credited).1, ?_⟩
    rw [← leafProvenance_congr describeValue (chain_of_credited sound calm credited), built]

end Sufficient

section Necessary

variable (describeValue : JsonValue → String) {policy : IndexedConfigurationPolicy}
variable {documents others : List SanitizedDocument} {path : List String} {leaf : JsonValue}

theorem perm_of_zipIdx : ∀ (chain : List ConfigurationProvenanceEntry) (start index : Nat)
    {winner : ConfigurationProvenanceEntry}, chain[index]? = some winner →
    chain.Perm (winner ::
      ((chain.zipIdx start).filter fun entry => entry.2 ≠ index + start).map Prod.fst)
  | [], _, _, _, located => by simp at located
  | first :: chain, start, 0, winner, located => by
      obtain rfl : first = winner := Option.some.inj located
      have later : ∀ entry ∈ chain.zipIdx (start + 1), decide (entry.2 ≠ 0 + start) = true := by
        intro entry listed
        have after := List.le_snd_of_mem_zipIdx listed
        rw [decide_eq_true_eq]
        omega
      rw [List.zipIdx_cons, List.filter_cons_of_neg (by simp), List.filter_eq_self.mpr later,
        List.zipIdx_map_fst]
  | first :: chain, start, index + 1, winner, located => by
      have inner := perm_of_zipIdx chain (start + 1) index located
      rw [List.zipIdx_cons,
        List.filter_cons_of_pos (by rw [decide_eq_true_eq]; omega), List.map_cons]
      rw [show index + (start + 1) = index + 1 + start by omega] at inner
      exact (inner.cons first).trans (List.Perm.swap _ _ _)

theorem perm_of_resolveChain {pointer : String} {chain : List ConfigurationProvenanceEntry}
    {resolution : ChainResolution}
    (resolved : resolveChain describeValue pointer chain policy = some resolution) :
    chain.Perm (resolution.winner :: resolution.overridden) := by
  obtain ⟨winner, located, rfl⟩ := Option.map_eq_some_iff.mp resolved
  exact perm_of_zipIdx chain 0 _ located

theorem perm_of_leafProvenance {entry : ConfigurationProvenance}
    (built : leafProvenance describeValue policy documents path = some entry)
    (same : leafProvenance describeValue policy others path = some entry) :
    (leafChain policy others path).Perm (leafChain policy documents path) := by
  obtain ⟨resolution, resolved, rfl⟩ := Option.map_eq_some_iff.mp built
  obtain ⟨resolution', resolved', equal⟩ := Option.map_eq_some_iff.mp same
  obtain ⟨-, level, source, value, overridden⟩ := ConfigurationProvenance.mk.inj equal
  have winner : resolution'.winner = resolution.winner := by
    cases first : resolution'.winner
    cases second : resolution.winner
    rw [first, second] at level source value
    cases level
    cases source
    cases value
    rfl
  have chain := perm_of_resolveChain describeValue resolved'
  rw [winner, overridden] at chain
  exact chain.trans (perm_of_resolveChain describeValue resolved).symm

theorem credited_of_entries
    (entries : resolvedProvenance describeValue policy documents =
      resolvedProvenance describeValue policy others)
    (credited : path ∈ creditedPaths policy documents) :
    path ∈ creditedPaths policy others ∧ ∃ entry,
      leafProvenance describeValue policy documents path = some entry ∧
        leafProvenance describeValue policy others path = some entry := by
  obtain ⟨entry, built⟩ := built_of_credited describeValue credited
  have listed := (mem_resolvedProvenance describeValue).mpr
    ⟨path, (mem_creditedPaths.mp credited).1, built⟩
  rw [entries] at listed
  obtain ⟨path', listed', built'⟩ := (mem_resolvedProvenance describeValue).mp listed
  have pointers := (credited_of_built describeValue built).1.symm.trans
    (credited_of_built describeValue built').1
  obtain rfl := pathToPointer_injective pointers
  exact ⟨mem_creditedPaths.mpr ⟨listed', (credited_of_built describeValue built').2⟩, entry, built,
    built'⟩

theorem kept_of_winner (sound : Sound documents)
    (entries : resolvedProvenance describeValue policy documents =
      resolvedProvenance describeValue policy (documents.map (restrictDocument policy)))
    (listed : path ∈ collectLeafPaths (mergeDocuments documents))
    {winner : ConfigurationProvenanceEntry} (won : winnerAt policy documents path = some winner) :
    ∃ leaf, view (mergeRestricted policy documents) path = some (.leaf leaf) := by
  have credited := mem_creditedPaths.mpr ⟨listed, winner, won⟩
  have restricted := (credited_of_entries describeValue entries credited).1
  exact (mem_leaves_iff (sound_restrict sound)).mp (mem_creditedPaths.mp restricted).1

theorem leaf_of_kept (sound : Sound documents)
    (entries : resolvedProvenance describeValue policy documents =
      resolvedProvenance describeValue policy (documents.map (restrictDocument policy)))
    (kept : view (mergeRestricted policy documents) path = some (.leaf leaf)) :
    path ∈ collectLeafPaths (mergeDocuments documents) := by
  have restricted := credited_of_leaf sound kept
  exact (mem_creditedPaths.mp (credited_of_entries describeValue entries.symm restricted).1).1

theorem none_of_resolved (sound : Sound documents)
    (gone : view (resolvedValues describeValue policy
      (documents.map (restrictDocument policy))) path = none) :
    view (mergeRestricted policy documents) path = none := by
  cases kept : view (mergeRestricted policy documents) path with
  | none => rfl
  | some node =>
    cases node with
    | branch =>
      rw [branch_of_merged describeValue (sound_restrict sound) kept] at gone
      cases gone
    | leaf leaf =>
      obtain ⟨listed, winner, won⟩ := mem_creditedPaths.mp (credited_of_leaf sound kept)
      have located := @values_at_leaf describeValue policy _ (sound_restrict sound) _ listed
      rw [won, view_eq_none.mp gone] at located
      cases located

theorem none_of_covered (sound : Sound documents)
    (entries : resolvedProvenance describeValue policy documents =
      resolvedProvenance describeValue policy (documents.map (restrictDocument policy)))
    (values : view (resolvedValues describeValue policy documents) path =
      view (resolvedValues describeValue policy (documents.map (restrictDocument policy))) path)
    (merged : view (mergeDocuments documents) path = none) :
    view (mergeRestricted policy documents) path = none := by
  cases kept : view (mergeRestricted policy documents) path with
  | none => rfl
  | some node =>
    cases node with
    | leaf leaf =>
      obtain ⟨found, shown⟩ :=
        (mem_leaves_iff sound).mp (leaf_of_kept describeValue sound entries kept)
      rw [merged] at shown
      cases shown
    | branch =>
      have shown := values.trans (branch_of_merged describeValue (sound_restrict sound) kept)
      rcases merged_of_branch describeValue sound shown with
        object | ⟨above, rest, winner, rfl, listed, won, -⟩
      · rw [merged] at object
        cases object
      · -- The restricted documents merge to a leaf above, so to no object here.
        obtain ⟨leaf, upper⟩ := kept_of_winner describeValue sound entries listed won
        obtain ⟨located, scalar⟩ := view_eq_leaf.mp upper
        by_cases here : rest = []
        · rw [here, List.append_nil, upper] at kept
          cases kept
        · rw [view_of_blocked here located scalar] at kept
          cases kept

theorem undisturbed_of_same (sound : Sound documents)
    (entries : resolvedProvenance describeValue policy documents =
      resolvedProvenance describeValue policy (documents.map (restrictDocument policy)))
    (values : ∀ path, view (resolvedValues describeValue policy documents) path =
      view (resolvedValues describeValue policy (documents.map (restrictDocument policy))) path) :
    Undisturbed policy documents := by
  have sound' : Sound (documents.map (restrictDocument policy)) := sound_restrict sound
  refine ⟨fun path document out shown => ?_, fun path document leaf out shown => ?_,
    fun path document out shown => ?_, fun path leaf kept document listed admitted => ?_⟩
  · have merged := (view_of_deciding sound out.1).trans shown
    have object := @branch_of_merged describeValue policy _ _ sound merged
    exact (resolved_branch_iff describeValue sound' (restricted_winner_scalar sound)).mp
      ((values path).symm.trans object)
  · have merged := (view_of_deciding sound out.1).trans shown
    have listed := (mem_leaves_iff sound).mpr ⟨leaf, merged⟩
    cases won : winnerAt policy documents path with
    | some winner => exact Or.inl (kept_of_winner describeValue sound entries listed won)
    | none =>
      have gone := @values_at_leaf describeValue policy _ sound _ listed
      rw [won, Option.map_none] at gone
      exact Or.inr ⟨none_of_resolved describeValue sound
        ((values path).symm.trans (view_eq_none.mpr gone)), winnerAt_eq_none.mp won⟩
  · exact none_of_covered describeValue sound entries (values path)
      ((view_of_deciding sound out.1).trans shown)
  · obtain ⟨-, entry, built, built'⟩ :=
      credited_of_entries describeValue entries.symm (credited_of_leaf sound kept)
    refine whole_of_perm sound ?_
      (perm_of_leafProvenance describeValue built' built) listed admitted
    rintro rfl
    obtain ⟨members, merged⟩ := merged_object sound'
    rw [mergeRestricted, merged] at kept
    cases kept

end Necessary

/-- The same entries, and the same values up to the order of the members. -/
structure Inert (resolved restricted : ResolvedConfiguration) : Prop where
  provenance : resolved.provenance = restricted.provenance
  values : ∀ path, view resolved.values path = view restricted.values path

/-- The documents are pruned to the restrictions of what the others are pruned to. -/
def Restricted (rules : List ConfigurationRule)
    (documents documents' : List ConfigurationLayerDocument) : Prop :=
  documents'.map (fun document => (sanitizeDocument document).1) =
    documents.map fun document =>
      restrictDocument (indexConfigurationPolicy rules) (sanitizeDocument document).1

section Documents

variable (describeValue : JsonValue → String) {rules : List ConfigurationRule}
variable {documents documents' : List ConfigurationLayerDocument}

theorem sort_map {ν μ : Type} (f : LayerDocument ν → LayerDocument μ)
    (level : ∀ document, (f document).layer = document.layer) (documents : List (LayerDocument ν)) :
    (sortConfigurationDocuments documents).map f =
      sortConfigurationDocuments (documents.map f) := by
  refine List.map_insertionSort _ _ f documents fun a _ b _ => ?_
  rw [level, level]

theorem sanitizedDocuments_eq (documents : List ConfigurationLayerDocument) :
    sanitizedDocuments documents =
      sortConfigurationDocuments (documents.map fun document => (sanitizeDocument document).1) :=
  sort_map (fun document => (sanitizeDocument document).1) (fun _ => rfl) documents

theorem sanitizedDocuments_restricted (replaced : Restricted rules documents documents') :
    sanitizedDocuments documents' =
      (sanitizedDocuments documents).map (restrictDocument (indexConfigurationPolicy rules)) := by
  rw [sanitizedDocuments_eq, replaced, sanitizedDocuments_eq,
    sort_map _ (fun _ => layer_restrictDocument), List.map_map]
  rfl

/-- What is left out of the overrides makes no difference exactly when it disturbs nothing. -/
theorem denied_override_inert_iff (replaced : Restricted rules documents documents') :
    Inert (resolveConfiguration describeValue documents rules)
        (resolveConfiguration describeValue documents' rules) ↔
      Undisturbed (indexConfigurationPolicy rules) (sanitizedDocuments documents) := by
  have sound := sound_sanitizedDocuments documents
  have provenance : ∀ docs, (resolveConfiguration describeValue docs rules).provenance =
      resolvedProvenance describeValue (indexConfigurationPolicy rules) (sanitizedDocuments docs) :=
    fun _ => rfl
  constructor
  · rintro ⟨entries, values⟩
    rw [provenance, provenance, sanitizedDocuments_restricted replaced] at entries
    refine undisturbed_of_same describeValue sound entries fun path => ?_
    rw [← sanitizedDocuments_restricted replaced]
    exact values path
  · intro calm
    refine ⟨?_, fun path => ?_⟩
    · rw [provenance, provenance, sanitizedDocuments_restricted replaced]
      exact provenance_restrict describeValue sound calm
    · rw [values_resolveConfiguration, values_resolveConfiguration,
        sanitizedDocuments_restricted replaced]
      exact values_restrict describeValue sound calm path

end Documents

def blankedDocuments : List ConfigurationLayerDocument :=
  [⟨.builtInDefaults, none,
      [("section", .object [("a", .number (.finite 1)), ("b", .number (.finite 2))])]⟩,
    ⟨.repository, none, [("section", .object [("a", .number (.finite 3))])]⟩,
    ⟨.invocationOverride, none, [("section", .null)]⟩]

def withoutBlank : List ConfigurationLayerDocument :=
  [⟨.builtInDefaults, none,
      [("section", .object [("a", .number (.finite 1)), ("b", .number (.finite 2))])]⟩,
    ⟨.repository, none, [("section", .object [("a", .number (.finite 3))])]⟩,
    ⟨.invocationOverride, none, []⟩]

/-- The denied null leaves of the section what the repository holds; the default of b is lost. -/
theorem denied_null_restructures : ¬ ∀ (describeValue : JsonValue → String)
    (rules : List ConfigurationRule) (documents documents' : List ConfigurationLayerDocument),
    Restricted rules documents documents' →
      Inert (resolveConfiguration describeValue documents rules)
        (resolveConfiguration describeValue documents' rules) := by
  intro inert
  have replaced : Restricted [] blankedDocuments withoutBlank := rfl
  have same :=
    (inert (fun _ => "") [] blankedDocuments withoutBlank replaced).values ["section", "b"]
  have lost : (valueAt (resolveConfiguration (fun _ => "") blankedDocuments []).values
      ["section", "b"]).isSome = false := by decide +kernel
  have held : (valueAt (resolveConfiguration (fun _ => "") withoutBlank []).values
      ["section", "b"]).isSome = true := by decide +kernel
  rw [Option.isSome_eq_false_iff, Option.isNone_iff_eq_none, ← view_eq_none, same,
    view_eq_none] at lost
  rw [lost] at held
  cases held

/-- A default and a denied override of its leaf. -/
def deniedDocuments : List ConfigurationLayerDocument :=
  [⟨.builtInDefaults, none, [("a", .number (.finite 1))]⟩,
    ⟨.invocationOverride, none, [("a", .number (.finite 2))]⟩]

def withoutDenied : List ConfigurationLayerDocument :=
  [⟨.builtInDefaults, none, [("a", .number (.finite 1))]⟩, ⟨.invocationOverride, none, []⟩]

theorem view_single {key : String} {leaf : JsonValue} (scalar : isPlainObject leaf = false)
    (path : List String) :
    view (.object [(key, leaf)]) path =
      if path = [] then some .branch else if path = [key] then some (.leaf leaf) else none := by
  cases path with
  | nil => rfl
  | cons segment rest =>
    rw [if_neg (List.cons_ne_nil _ _), view, valueAt_object, property?_cons]
    by_cases here : key = segment
    · subst here
      rw [if_pos rfl, Option.bind_some]
      cases rest with
      | nil =>
        rw [if_pos rfl]
        exact congrArg some (node_of_not_object scalar)
      | cons next rest =>
        rw [if_neg (by simp)]
        exact (view_cons_of_not_object scalar next rest).1
    · rw [if_neg here, if_neg (by simp [Ne.symm here])]
      rfl

theorem denied_undisturbed :
    Undisturbed (indexConfigurationPolicy []) (sanitizedDocuments deniedDocuments) := by
  have one : ∀ document ∈ sanitizedDocuments deniedDocuments, ∃ leaf : JsonValue,
      isPlainObject leaf = false ∧ document.values = .object [("a", leaf)] := by
    intro document listed
    rcases List.mem_cons.mp listed with rfl | second
    · exact ⟨_, rfl, rfl⟩
    · rw [List.mem_singleton.mp second]
      exact ⟨_, rfl, rfl⟩
  have merged : mergeRestricted (indexConfigurationPolicy []) (sanitizedDocuments deniedDocuments) =
      .object [("a", .number (.finite 1))] := rfl
  have scalar : isPlainObject (.number (.finite 1)) = false := rfl
  refine ⟨fun path document out shown => ?_, fun path document leaf out shown => ?_,
    fun path document out shown => ?_, fun path leaf kept document listed admitted => ?_⟩
  · obtain ⟨held, fine, values⟩ := one document (mem_of_deciding out.1)
    rw [values, view_single fine] at shown
    rw [merged, view_single scalar]
    split at shown
    · rename_i root
      rw [if_pos root]
    · split at shown <;> cases shown
  · obtain ⟨held, fine, values⟩ := one document (mem_of_deciding out.1)
    rw [values, view_single fine] at shown
    rw [merged, view_single scalar]
    split at shown
    · cases shown
    · rename_i beneath
      rw [if_neg beneath]
      split at shown
      · rename_i here
        rw [if_pos here]
        exact Or.inl ⟨_, rfl⟩
      · cases shown
  · obtain ⟨held, fine, values⟩ := one document (mem_of_deciding out.1)
    rw [values, view_single fine] at shown
    rw [merged, view_single scalar]
    split at shown
    · cases shown
    · rename_i beneath
      rw [if_neg beneath]
      split at shown
      · cases shown
      · rename_i apart
        rw [if_neg apart]
  · rw [merged, view_single scalar] at kept
    split at kept
    · cases kept
    · split at kept
      · rename_i here
        subst here
        rcases List.mem_cons.mp listed with rfl | second
        · rfl
        · rw [List.mem_singleton.mp second] at admitted
          exact absurd admitted (by decide)
      · cases kept

theorem denied_override_inert_sample :
    Inert (resolveConfiguration (fun _ => "") deniedDocuments [])
      (resolveConfiguration (fun _ => "") withoutDenied []) := by
  have replaced : Restricted [] deniedDocuments withoutDenied := rfl
  exact (denied_override_inert_iff (fun _ => "") replaced).mpr denied_undisturbed

end Heniek.ConfigurationOverrides
