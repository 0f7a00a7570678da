import Heniek.ConfigurationWinners

/-!
The provenance of the resolved values. Every leaf of the merged document gets the value of
the winner among the admitted documents; the entries are those of the leaves as long as no
override that is not admitted lays a scalar or an array over an object of the others.
-/

namespace Heniek.ConfigurationProvenance
open ExpressionEvaluation CanonicalState ConfigurationLayers
open ConfigurationMerge ConfigurationLeaves ConfigurationEdits ConfigurationFold
open ConfigurationWinners ScriptText

section Values

variable (describeValue : JsonValue → String) (policy : IndexedConfigurationPolicy)
variable (documents : List SanitizedDocument)

def winnerAt (path : List String) : Option ConfigurationProvenanceEntry :=
  (leafChain policy documents path)[
    winnerIndex (pathToPointer path) (leafChain policy documents path) policy]?

def resolvedValues : JsonValue :=
  (applyEdits (leafEdit describeValue policy documents
    (collectLeafPaths (mergeDocuments documents))) [] (mergeDocuments documents)).getD (.object [])

variable {policy documents}

theorem winner_leafResolution (path : List String) :
    (leafResolution describeValue policy documents path).map ChainResolution.winner =
      winnerAt policy documents path := by
  unfold leafResolution resolveChain winnerAt
  rw [Option.map_map]
  exact congrFun Option.map_id _

theorem mem_leafChain {path : List String} {entry : ConfigurationProvenanceEntry} :
    entry ∈ leafChain policy documents path ↔
      ∃ document ∈ documents, permitted policy (pathToPointer path) document.layer = true ∧
        document.layer = entry.layer ∧ document.sourcePath = entry.sourcePath ∧
          valueAt document.values path = some entry.value := by
  unfold leafChain
  rw [List.mem_filterMap]
  constructor
  · rintro ⟨document, listed, built⟩
    split at built
    · rename_i admitted
      obtain ⟨value, located, rfl⟩ := Option.map_eq_some_iff.mp built
      exact ⟨document, listed, admitted, rfl, rfl, located⟩
    · cases built
  · rintro ⟨document, listed, admitted, level, source, located⟩
    refine ⟨document, listed, ?_⟩
    rw [if_pos admitted, located, level, source]
    rfl

theorem mem_of_winnerAt {path : List String} {winner : ConfigurationProvenanceEntry}
    (won : winnerAt policy documents path = some winner) :
    winner ∈ leafChain policy documents path := List.mem_of_getElem? won

theorem winnerAt_eq_none {path : List String} :
    winnerAt policy documents path = none ↔ leafChain policy documents path = [] := by
  constructor
  · intro lost
    by_contra filled
    obtain ⟨winner, won⟩ : ∃ winner, winnerAt policy documents path = some winner :=
      winner_exists filled
    rw [won] at lost
    cases lost
  · intro empty
    unfold winnerAt
    rw [empty]
    rfl

theorem leafEdit_of_leaf {paths : List (List String)} {path : List String} (listed : path ∈ paths) :
    leafEdit describeValue policy documents paths (pathToPointer path) =
      some (((winnerAt policy documents path).map fun winner => LeafEdit.set winner.value).getD
        .delete) := by
  have found : (paths.reverse.find? fun other => pathToPointer other = pathToPointer path) =
      some path := by
    cases search : paths.reverse.find? fun other => pathToPointer other = pathToPointer path with
    | none =>
      have absent := List.find?_eq_none.mp search path (List.mem_reverse.mpr listed)
      simp at absent
    | some other =>
      have same := List.find?_some search
      rw [decide_eq_true_eq] at same
      rw [pathToPointer_injective same]
  unfold leafEdit
  rw [found, ← winner_leafResolution describeValue, Option.map_some]
  cases leafResolution describeValue policy documents path <;> rfl

theorem leafEdit_set {paths : List (List String)} {pointer : String} {value : JsonValue}
    (edit : leafEdit describeValue policy documents paths pointer = some (.set value)) :
    ∃ path winner, winnerAt policy documents path = some winner ∧ winner.value = value := by
  obtain ⟨path, -, chosen⟩ := Option.map_eq_some_iff.mp edit
  cases resolved : leafResolution describeValue policy documents path with
  | none =>
    rw [resolved] at chosen
    cases chosen
  | some resolution =>
    rw [resolved] at chosen
    cases chosen
    refine ⟨path, resolution.winner, ?_, rfl⟩
    rw [← winner_leafResolution describeValue, resolved]
    rfl

theorem distinct_valueAt (path : List String) : ∀ {value inner : JsonValue}, Distinct value →
    valueAt value path = some inner → Distinct inner := by
  induction path with
  | nil =>
    intro value inner distinct located
    obtain rfl : value = inner := Option.some.inj located
    exact distinct
  | cons segment path ih =>
    intro value inner distinct located
    by_cases scalar : isPlainObject value = false
    · have hidden := view_eq_none.mp (view_cons_of_not_object scalar segment path).1
      rw [hidden] at located
      cases located
    · obtain ⟨members, rfl⟩ := isPlainObject_iff.mp (Bool.eq_true_of_not_eq_false scalar)
      rw [valueAt_object] at located
      obtain ⟨child, held, beneath⟩ := Option.bind_eq_some_iff.mp located
      exact ih (distinct_property? distinct held) beneath

theorem distinct_winner (sound : Sound documents) {path : List String}
    {winner : ConfigurationProvenanceEntry} (won : winnerAt policy documents path = some winner) :
    Distinct winner.value := by
  obtain ⟨document, listed, -, -, -, located⟩ := mem_leafChain.mp (mem_of_winnerAt won)
  exact distinct_valueAt path (sound document listed).1 located

theorem merged_object (sound : Sound documents) :
    ∃ members, mergeDocuments documents = .object members := by
  induction documents using List.reverseRecOn with
  | nil => exact ⟨[], rfl⟩
  | append_singleton documents document ih =>
    obtain ⟨members, values⟩ := isPlainObject_iff.mp (sound document (by simp)).2
    obtain ⟨before, merged⟩ := ih fun other listed =>
      sound other (List.mem_append_left _ listed)
    rw [mergeDocuments_append, merged, values]
    exact ⟨_, by rw [mergeJsonValue]⟩

theorem resolvedValues_some (sound : Sound documents) :
    applyEdits
      (leafEdit describeValue policy documents (collectLeafPaths (mergeDocuments documents)))
      [] (mergeDocuments documents) = some (resolvedValues describeValue policy documents) := by
  obtain ⟨members, merged⟩ := merged_object sound
  unfold resolvedValues
  rw [merged]
  rfl

theorem distinct_resolvedValues (sound : Sound documents) :
    Distinct (resolvedValues describeValue policy documents) := by
  refine distinct_applyEdits ?_ _ (distinct_mergeDocuments sound)
    [] _ (resolvedValues_some describeValue sound)
  intro pointer value edit
  obtain ⟨path, winner, won, rfl⟩ := leafEdit_set describeValue edit
  exact distinct_winner sound won

theorem applyEdits_merged {path : List String}
    (listed : path ∈ collectLeafPaths (mergeDocuments documents)) {leaf : JsonValue}
    (scalar : isPlainObject leaf = false) :
    applyEdits
      (leafEdit describeValue policy documents (collectLeafPaths (mergeDocuments documents)))
      path leaf = (winnerAt policy documents path).map fun winner => winner.value := by
  rw [applyEdits_leaf scalar, leafEdit_of_leaf describeValue listed]
  cases winnerAt policy documents path <;> rfl

theorem values_of_edits (sound : Sound documents) (path : List String) :
    valueAt (resolvedValues describeValue policy documents) path =
      (applyEdits (leafEdit describeValue policy documents
        (collectLeafPaths (mergeDocuments documents))) [] (mergeDocuments documents)).bind
          fun edited => valueAt edited path := by
  rw [resolvedValues_some describeValue sound, Option.bind_some]

theorem values_at_leaf (sound : Sound documents) {path : List String}
    (listed : path ∈ collectLeafPaths (mergeDocuments documents)) :
    valueAt (resolvedValues describeValue policy documents) path =
      (winnerAt policy documents path).map fun winner => winner.value := by
  have distinct := distinct_mergeDocuments sound
  obtain ⟨leaf, shown⟩ := (mem_collectLeafPaths _ distinct path).mp listed
  obtain ⟨located, scalar⟩ := view_eq_leaf.mp shown
  rw [values_of_edits describeValue sound, applyEdits_at path [] distinct located, List.nil_append,
    applyEdits_merged describeValue listed scalar]

theorem values_at_object (sound : Sound documents) {path : List String} {members : Members}
    (located : valueAt (mergeDocuments documents) path = some (.object members)) :
    ∃ edited, valueAt (resolvedValues describeValue policy documents) path =
      some (.object edited) := by
  rw [values_of_edits describeValue sound, applyEdits_at path []
    (distinct_mergeDocuments sound) located]
  exact ⟨_, rfl⟩

theorem values_at_absent (sound : Sound documents) {path : List String}
    (absent : valueAt (mergeDocuments documents) path = none) :
    valueAt (resolvedValues describeValue policy documents) path = none ∨
      ∃ above rest, path = above ++ rest ∧ rest ≠ [] ∧
        above ∈ collectLeafPaths (mergeDocuments documents) ∧
        valueAt (resolvedValues describeValue policy documents) path =
          (winnerAt policy documents above).bind fun winner => valueAt winner.value rest := by
  have distinct := distinct_mergeDocuments sound
  rw [values_of_edits describeValue sound]
  rcases applyEdits_absent path [] distinct absent with
    gone | ⟨above, rest, leaf, same, nonempty, located, scalar, edited⟩
  · exact Or.inl gone
  · have listed : above ∈ collectLeafPaths (mergeDocuments documents) :=
      (mem_collectLeafPaths _ distinct above).mpr ⟨leaf, view_eq_leaf.mpr ⟨located, scalar⟩⟩
    refine Or.inr ⟨above, rest, same, nonempty, listed, ?_⟩
    rw [edited, List.nil_append, applyEdits_merged describeValue listed scalar, Option.bind_map]
    rfl

end Values

section Exact

variable (describeValue : JsonValue → String) {policy : IndexedConfigurationPolicy}
variable {documents : List SanitizedDocument}

/-- Where an override that is not admitted lays a scalar or an array over an object, the
policy can compare an admitted value. -/
def Uncovered (policy : IndexedConfigurationPolicy) (documents : List SanitizedDocument) : Prop :=
  ∀ path document, LeafOf documents path document →
    permitted policy (pathToPointer path) document.layer = false →
      ∀ last, (leafChain policy documents path).getLast? = some last →
        isPlainObject last.value = true →
          ∃ entry ∈ leafChain policy documents path,
            comparable policy (pathToPointer path) entry.value = true

theorem leafChain_eq_nil {path : List String}
    (absent : ∀ document ∈ documents, valueAt document.values path = none) :
    leafChain policy documents path = [] := by
  unfold leafChain
  rw [List.filterMap_eq_nil_iff]
  intro document listed
  split
  · rw [absent document listed]
    rfl
  · rfl

theorem leafChain_append (front back : List SanitizedDocument) (path : List String) :
    leafChain policy (front ++ back) path =
      leafChain policy front path ++ leafChain policy back path :=
  List.filterMap_append

theorem last_of_leaf {path : List String} {document : SanitizedDocument}
    (here : LeafOf documents path document)
    (admitted : permitted policy (pathToPointer path) document.layer = true) :
    ∃ last, (leafChain policy documents path).getLast? = some last ∧
      isPlainObject last.value = false := by
  obtain ⟨front, back, leaf, rfl, located, scalar, later⟩ := here
  have ended : leafChain policy back path = [] :=
    leafChain_eq_nil fun other listed => (decides_eq_false.mp (later other listed)).1
  have single : leafChain policy [document] path =
      [⟨document.layer, document.sourcePath, leaf⟩] := by simp [leafChain, admitted, located]
  refine ⟨⟨document.layer, document.sourcePath, leaf⟩, ?_, scalar⟩
  rw [← List.singleton_append, leafChain_append, leafChain_append, ended, single]
  simp

theorem uncovered_iff (sound : Sound documents) :
    Uncovered policy documents ↔ ∀ path ∈ collectLeafPaths (mergeDocuments documents),
      ∀ winner, winnerAt policy documents path = some winner →
        isPlainObject winner.value = false := by
  constructor
  · intro uncovered path listed winner won
    obtain ⟨document, here⟩ := (mem_merged_leaves sound).mp listed
    refine Bool.eq_false_of_not_eq_true fun object => ?_
    obtain ⟨incomparable, last, final, covered⟩ := (winner_object_iff won).mp object
    by_cases admitted : permitted policy (pathToPointer path) document.layer = true
    · obtain ⟨other, final', scalar⟩ := last_of_leaf here admitted
      obtain rfl := Option.some.inj (final.symm.trans final')
      rw [scalar] at covered
      cases covered
    · obtain ⟨entry, member, fits⟩ := uncovered path document here
        (Bool.eq_false_of_not_eq_true admitted) last final covered
      rw [incomparable entry member] at fits
      cases fits
  · intro scalars path document here denied last final object
    have listed := (mem_merged_leaves sound).mpr ⟨document, here⟩
    by_contra incomparable
    have filled : leafChain policy documents path ≠ [] := by
      intro empty
      rw [empty] at final
      cases final
    obtain ⟨winner, won⟩ : ∃ winner, winnerAt policy documents path = some winner :=
      winner_exists filled
    have covered := (winner_object_iff won).mpr ⟨fun entry member =>
      Bool.eq_false_of_not_eq_true fun fits =>
        incomparable ⟨entry, member, fits⟩, last, final, object⟩
    rw [scalars path listed winner won] at covered
    cases covered

def creditedPaths (policy : IndexedConfigurationPolicy) (documents : List SanitizedDocument) :
    List (List String) :=
  (collectLeafPaths (mergeDocuments documents)).filter fun path =>
    (winnerAt policy documents path).isSome

theorem pointers_leafProvenance (paths : List (List String)) :
    (paths.filterMap (leafProvenance describeValue policy documents)).map
        ConfigurationProvenance.pointer =
      (paths.filter fun path => (winnerAt policy documents path).isSome).map pathToPointer := by
  induction paths with
  | nil => rfl
  | cons path paths ih =>
    rw [List.filterMap_cons, List.filter_cons,
      ← winner_leafResolution describeValue, leafProvenance]
    cases leafResolution describeValue policy documents path with
    | none => exact ih
    | some resolution =>
      rw [Option.map_some, List.map_cons, ih]
      rfl

theorem leaves_iff (sound : Sound documents) :
    (∀ path, path ∈ creditedPaths policy documents ↔
        path ∈ collectLeafPaths (resolvedValues describeValue policy documents)) ↔
      ∀ path ∈ collectLeafPaths (mergeDocuments documents), ∀ winner,
        winnerAt policy documents path = some winner → isPlainObject winner.value = false := by
  have distinct : Distinct (resolvedValues describeValue policy documents) :=
    distinct_resolvedValues describeValue sound
  constructor
  · intro same path listed winner won
    have credited : path ∈ creditedPaths policy documents :=
      List.mem_filter.mpr ⟨listed, by simp [won]⟩
    obtain ⟨leaf, shown⟩ := (mem_collectLeafPaths _ distinct path).mp ((same path).mp credited)
    obtain ⟨located, scalar⟩ := view_eq_leaf.mp shown
    rw [values_at_leaf describeValue sound listed, won, Option.map_some] at located
    rwa [Option.some.inj located]
  · intro scalars path
    rw [mem_collectLeafPaths _ distinct, creditedPaths, List.mem_filter]
    constructor
    · rintro ⟨listed, credited⟩
      obtain ⟨winner, won⟩ := Option.isSome_iff_exists.mp credited
      refine ⟨winner.value, view_eq_leaf.mpr ⟨?_, scalars path listed winner won⟩⟩
      rw [values_at_leaf describeValue sound listed, won, Option.map_some]
    · rintro ⟨leaf, shown⟩
      obtain ⟨located, scalar⟩ := view_eq_leaf.mp shown
      cases merged : valueAt (mergeDocuments documents) path with
      | none =>
        rcases @values_at_absent describeValue policy _ sound _ merged with
          gone | ⟨above, rest, rfl, nonempty, listed, beneath⟩
        · rw [gone] at located
          cases located
        · rw [beneath] at located
          obtain ⟨winner, won, held⟩ := Option.bind_eq_some_iff.mp located
          cases rest with
          | nil => exact absurd rfl nonempty
          | cons segment rest =>
            have hidden :=
              (view_cons_of_not_object (scalars above listed winner won) segment rest).1
            rw [view_eq_none.mp hidden] at held
            cases held
      | some value =>
        by_cases object : isPlainObject value = true
        · obtain ⟨members, rfl⟩ := isPlainObject_iff.mp object
          obtain ⟨edited, values⟩ := @values_at_object describeValue policy _ sound _ _ merged
          rw [values] at located
          cases located
          cases scalar
        · have listed : path ∈ collectLeafPaths (mergeDocuments documents) :=
            (mem_collectLeafPaths _ (distinct_mergeDocuments sound) path).mpr
              ⟨value, view_eq_leaf.mpr ⟨merged, Bool.eq_false_of_not_eq_true object⟩⟩
          rw [values_at_leaf describeValue sound listed] at located
          obtain ⟨winner, won, -⟩ := Option.map_eq_some_iff.mp located
          exact ⟨listed, by simp [won]⟩

end Exact

structure ExactProvenance (describeValue : JsonValue → String)
    (documents : List ConfigurationLayerDocument) (rules : List ConfigurationRule) : Prop where
  leaves : ((resolveConfiguration describeValue documents rules).provenance.map
      ConfigurationProvenance.pointer).Perm
    ((collectLeafPaths (resolveConfiguration describeValue documents rules).values).map
      pathToPointer)
  distinct : ((collectLeafPaths (resolveConfiguration describeValue documents rules).values).map
    pathToPointer).Nodup
  held : ∀ entry ∈ (resolveConfiguration describeValue documents rules).provenance,
    ∃ path document, pathToPointer path = entry.pointer ∧
      valueAt (resolveConfiguration describeValue documents rules).values path = some entry.value ∧
      document ∈ sanitizedDocuments documents ∧ document.layer = entry.layer ∧
      document.sourcePath = entry.sourcePath ∧ valueAt document.values path = some entry.value
  ordered : ∀ documents' : List ConfigurationLayerDocument,
    (∀ layer, ofLayer documents' layer = ofLayer documents layer) →
      resolveConfiguration describeValue documents' rules =
        resolveConfiguration describeValue documents rules

section Resolution

variable (describeValue : JsonValue → String) (documents : List ConfigurationLayerDocument)
variable (rules : List ConfigurationRule)

theorem values_resolveConfiguration :
    (resolveConfiguration describeValue documents rules).values =
      resolvedValues describeValue (indexConfigurationPolicy rules)
        (sanitizedDocuments documents) :=
  rfl

theorem provenance_perm :
    ((resolveConfiguration describeValue documents rules).provenance.map
        ConfigurationProvenance.pointer).Perm
      ((creditedPaths (indexConfigurationPolicy rules) (sanitizedDocuments documents)).map
        pathToPointer) := by
  have sorted := (sortBy_perm ConfigurationProvenance.pointer
    ((collectLeafPaths (mergeDocuments (sanitizedDocuments documents))).filterMap
      (leafProvenance describeValue (indexConfigurationPolicy rules)
        (sanitizedDocuments documents)))).map ConfigurationProvenance.pointer
  rw [pointers_leafProvenance] at sorted
  exact sorted

theorem resolve_congr {documents' : List ConfigurationLayerDocument}
    (same : ∀ layer, ofLayer documents' layer = ofLayer documents layer) :
    resolveConfiguration describeValue documents' rules =
      resolveConfiguration describeValue documents rules := by
  unfold resolveConfiguration sanitizedDocuments
  rw [sort_congr same]

theorem provenance_held {entry : ConfigurationProvenance}
    (listed : entry ∈ (resolveConfiguration describeValue documents rules).provenance) :
    ∃ path document, pathToPointer path = entry.pointer ∧
      valueAt (resolveConfiguration describeValue documents rules).values path = some entry.value ∧
      document ∈ sanitizedDocuments documents ∧ document.layer = entry.layer ∧
      document.sourcePath = entry.sourcePath ∧ valueAt document.values path = some entry.value := by
  obtain ⟨path, leaf, built⟩ := List.mem_filterMap.mp (mem_sortBy.mp listed)
  obtain ⟨resolution, resolved, rfl⟩ := Option.map_eq_some_iff.mp built
  have won : winnerAt (indexConfigurationPolicy rules) (sanitizedDocuments documents) path =
      some resolution.winner := by
    rw [← winner_leafResolution describeValue, resolved]
    rfl
  obtain ⟨document, member, -, level, source, located⟩ := mem_leafChain.mp (mem_of_winnerAt won)
  refine ⟨path, document, rfl, ?_, member, level, source, located⟩
  rw [values_resolveConfiguration,
    values_at_leaf describeValue (sound_sanitizedDocuments documents) leaf, won]
  rfl

/-- The entries are those of the leaves exactly when no override that is not admitted covers
an object of the other documents. -/
theorem exactProvenance_iff :
    ExactProvenance describeValue documents rules ↔
      Uncovered (indexConfigurationPolicy rules) (sanitizedDocuments documents) := by
  have sound := sound_sanitizedDocuments documents
  have entries := provenance_perm describeValue documents rules
  rw [uncovered_iff sound, ← leaves_iff describeValue sound]
  have single :
      (collectLeafPaths (resolveConfiguration describeValue documents rules).values).Nodup :=
    nodup_collectLeafPaths _ (distinct_resolvedValues describeValue sound)
  constructor
  · intro exact path
    have same := (entries.symm.trans exact.leaves).mem_iff (a := pathToPointer path)
    rwa [List.mem_map_of_injective pathToPointer_injective,
      List.mem_map_of_injective pathToPointer_injective] at same
  · intro same
    refine ⟨entries.trans (List.Perm.map _ ?_), single.map pathToPointer_injective,
      fun entry => provenance_held describeValue documents rules,
      fun documents' => resolve_congr describeValue documents rules⟩
    have credited : (creditedPaths (indexConfigurationPolicy rules)
        (sanitizedDocuments documents)).Nodup :=
      (nodup_collectLeafPaths _ (distinct_mergeDocuments sound)).filter _
    exact (List.perm_ext_iff_of_nodup credited single).mpr same

end Resolution

/-- A scalar that an invocation override may not set, over an object of the defaults. -/
def coveredDocuments : List ConfigurationLayerDocument :=
  [⟨.builtInDefaults, none, [("section", .object [("a", .number (.finite 1))])]⟩,
    ⟨.invocationOverride, none, [("section", .null)]⟩]

theorem coveredDocuments_inexact : ¬ ExactProvenance (fun _ => "") coveredDocuments [] := by
  intro exact
  have entries : (resolveConfiguration (fun _ => "") coveredDocuments []).provenance.map
      ConfigurationProvenance.pointer = ["/section"] := by decide +kernel
  have leaves :
      (collectLeafPaths (resolveConfiguration (fun _ => "") coveredDocuments []).values).map
      pathToPointer = ["/section/a"] := by decide +kernel
  have same := exact.leaves
  exact absurd same (by decide)

end Heniek.ConfigurationProvenance
