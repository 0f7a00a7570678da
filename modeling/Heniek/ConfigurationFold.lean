import Heniek.ConfigurationEdits

/-!
The documents that are folded and what the fold shows: a leaf of the merged document is a
scalar or an array of a document after which no other one decides the path. The sorted
documents are those of each layer in turn, in the order in which they were supplied.
-/

namespace Heniek.ConfigurationFold
open CanonicalState ConfigurationLayers
open ConfigurationMerge ConfigurationLeaves

section Sorted

variable {ν : Type}

def ofLayer (documents : List (LayerDocument ν)) (layer : ConfigurationLayer) :
    List (LayerDocument ν) := documents.filter fun document => document.layer = layer

theorem rank_injective : Function.Injective configurationLayerRank := by
  intro a b same
  cases a <;> cases b <;> first | rfl | exact absurd same (by decide)

theorem ofLayer_cons (document : LayerDocument ν) (documents : List (LayerDocument ν))
    (layer : ConfigurationLayer) :
    ofLayer (document :: documents) layer =
      if document.layer = layer then document :: ofLayer documents layer
      else ofLayer documents layer := by
  unfold ofLayer
  rw [List.filter_cons]
  simp only [decide_eq_true_eq]

theorem ofLayer_orderedInsert (document : LayerDocument ν) (documents : List (LayerDocument ν))
    (layer : ConfigurationLayer) :
    ofLayer (documents.orderedInsert (fun a b =>
      configurationLayerRank a.layer ≤ configurationLayerRank b.layer) document) layer =
      ofLayer (document :: documents) layer := by
  induction documents with
  | nil => rfl
  | cons first documents ih =>
    rw [List.orderedInsert_cons]
    split
    · rfl
    · rename_i later
      have apart : document.layer ≠ first.layer := fun same => later (same ▸ Nat.le_refl _)
      rw [ofLayer_cons first, ih, ofLayer_cons document, ofLayer_cons document, ofLayer_cons first]
      by_cases mine : document.layer = layer
      · have other : first.layer ≠ layer := fun same => apart (mine.trans same.symm)
        simp only [if_neg other]
      · simp only [if_neg mine]

theorem ofLayer_sort (documents : List (LayerDocument ν)) (layer : ConfigurationLayer) :
    ofLayer (sortConfigurationDocuments documents) layer = ofLayer documents layer := by
  unfold sortConfigurationDocuments
  induction documents with
  | nil => rfl
  | cons document documents ih =>
    rw [List.insertionSort_cons, ofLayer_orderedInsert, ofLayer_cons, ofLayer_cons, ih]

theorem pairwise_sort (documents : List (LayerDocument ν)) :
    (sortConfigurationDocuments documents).Pairwise fun a b =>
      configurationLayerRank a.layer ≤ configurationLayerRank b.layer := by
  refine StableOrder.pairwise_sorted ?_ ?_ documents
  · exact fun a b => Nat.le_total _ _
  · exact fun a b c => Nat.le_trans

theorem sorted_ext {first second : List (LayerDocument ν)}
    (ordered : first.Pairwise fun a b =>
      configurationLayerRank a.layer ≤ configurationLayerRank b.layer)
    (ordered' : second.Pairwise fun a b =>
      configurationLayerRank a.layer ≤ configurationLayerRank b.layer)
    (same : ∀ layer, ofLayer first layer = ofLayer second layer) : first = second := by
  induction first generalizing second with
  | nil =>
    cases second with
    | nil => rfl
    | cons document second =>
      have clash := same document.layer
      rw [ofLayer_cons, if_pos rfl] at clash
      cases clash
  | cons document first ih =>
    cases second with
    | nil =>
      have clash := same document.layer
      rw [ofLayer_cons, if_pos rfl] at clash
      cases clash
    | cons document' second =>
      rw [List.pairwise_cons] at ordered ordered'
      have mine : document ∈ document' :: second := by
        have listed : document ∈ ofLayer (document :: first) document.layer := by simp [ofLayer]
        rw [same] at listed
        exact (List.mem_filter.mp listed).1
      have theirs : document' ∈ document :: first := by
        have listed : document' ∈ ofLayer (document' :: second) document'.layer := by
          simp [ofLayer]
        rw [← same] at listed
        exact (List.mem_filter.mp listed).1
      have below : configurationLayerRank document'.layer ≤
          configurationLayerRank document.layer := by
        rcases List.mem_cons.mp mine with rfl | later
        · exact Nat.le_refl _
        · exact ordered'.1 document later
      have above : configurationLayerRank document.layer ≤
          configurationLayerRank document'.layer := by
        rcases List.mem_cons.mp theirs with rfl | later
        · exact Nat.le_refl _
        · exact ordered.1 document' later
      have level : document.layer = document'.layer := rank_injective (Nat.le_antisymm above below)
      have heads := same document.layer
      rw [ofLayer_cons, ofLayer_cons, if_pos rfl, if_pos level.symm] at heads
      obtain ⟨rfl, -⟩ := List.cons.inj heads
      rw [ih ordered.2 ordered'.2]
      intro layer
      have inner := same layer
      rw [ofLayer_cons, ofLayer_cons] at inner
      split at inner
      · exact (List.cons.inj inner).2
      · exact inner

theorem sort_congr {documents documents' : List (LayerDocument ν)}
    (same : ∀ layer, ofLayer documents layer = ofLayer documents' layer) :
    sortConfigurationDocuments documents = sortConfigurationDocuments documents' := by
  refine sorted_ext (pairwise_sort documents) (pairwise_sort documents') fun layer => ?_
  rw [ofLayer_sort, ofLayer_sort, same]

end Sorted

section Pruned

variable {layer : ConfigurationLayer} {sourcePath : Option String}

mutual

theorem distinct_sanitizeConfigurationValue : (value : RawValue) → (path : List String) →
    ∀ json ∈ (sanitizeConfigurationValue layer sourcePath path value).1, Distinct json
  | .undefined, path => by simp [sanitizeConfigurationValue]
  | .unsupported type, path => by simp [sanitizeConfigurationValue]
  | .null, path => by simp [sanitizeConfigurationValue, Distinct]
  | .bool value, path => by simp [sanitizeConfigurationValue, Distinct]
  | .number value, path => by
      rw [sanitizeConfigurationValue]
      split <;> simp [Distinct]
  | .string value, path => by simp [sanitizeConfigurationValue, Distinct]
  | .array items, path => by
      rw [sanitizeConfigurationValue]
      split <;> simp [Distinct]
  | .object members, path => by
      rw [sanitizeConfigurationValue]
      rintro json built
      cases built
      exact distinct_sanitizeMembers members path ⟨List.nodup_nil, trivial⟩

theorem distinct_sanitizeMember : (member : String × RawValue) → (path : List String) →
    {out : Members} → Distinct (.object out) →
    Distinct (.object (sanitizeMember layer sourcePath path out member).1)
  | (key, value), path, out, before => by
      have valued := distinct_sanitizeConfigurationValue value (path ++ [key])
      rw [sanitizeMember]
      cases built : (sanitizeConfigurationValue layer sourcePath (path ++ [key]) value).1 with
      | none => exact before
      | some json => exact distinct_defineProperty before (valued json built)

theorem distinct_sanitizeMembers : (members : List (String × RawValue)) → (path : List String) →
    {out : Members} → Distinct (.object out) →
    Distinct (.object (sanitizeMembers layer sourcePath path out members).1)
  | [], _, _, before => by rwa [sanitizeMembers]
  | member :: members, path, _, before => by
      rw [sanitizeMembers]
      exact distinct_sanitizeMembers members path (distinct_sanitizeMember member path before)

end

/-- The documents of a fold are objects with distinct keys. -/
def Sound (documents : List SanitizedDocument) : Prop :=
  ∀ document ∈ documents, Distinct document.values ∧ isPlainObject document.values = true

theorem sound_sanitizedDocuments (documents : List ConfigurationLayerDocument) :
    Sound (sanitizedDocuments documents) := by
  intro document listed
  obtain ⟨source, -, rfl⟩ := List.mem_map.mp listed
  exact ⟨distinct_sanitizeMembers source.values [] ⟨List.nodup_nil, trivial⟩, rfl⟩

end Pruned

/-- The document holds something at the path, or a scalar or an array above it. -/
def decides (document : SanitizedDocument) (path : List String) : Bool :=
  (valueAt document.values path).isSome || blocks document.values path

variable {document : SanitizedDocument} {path : List String} {documents : List SanitizedDocument}

theorem decides_eq_false : decides document path = false ↔
      valueAt document.values path = none ∧ blocks document.values path = false := by
  unfold decides
  rw [Bool.or_eq_false_iff, Option.isSome_eq_false_iff, Option.isNone_iff_eq_none]

theorem mergeDocuments_append (documents : List SanitizedDocument) (document : SanitizedDocument) :
    mergeDocuments (documents ++ [document]) =
      mergeJsonValue (some (mergeDocuments documents)) document.values := by
  unfold mergeDocuments
  rw [List.foldl_append]
  rfl

theorem distinct_mergeDocuments (sound : Sound documents) :
    Distinct (mergeDocuments documents) := by
  induction documents using List.reverseRecOn with
  | nil => exact ⟨List.nodup_nil, trivial⟩
  | append_singleton documents document ih =>
    rw [mergeDocuments_append]
    refine distinct_mergeJsonValue _ (sound document (by simp)).1 ?_
    rintro value shown
    cases shown
    exact ih fun document listed => sound document (List.mem_append_left _ listed)

theorem view_mergeDocuments_append (sound : Sound (documents ++ [document])) (path : List String) :
    view (mergeDocuments (documents ++ [document])) path =
      if decides document path then view document.values path
      else view (mergeDocuments documents) path := by
  rw [mergeDocuments_append, view_mergeJsonValue path _ _ (sound document (by simp)).1]
  by_cases decided : decides document path = true
  · rw [if_pos decided]
    cases shown : view document.values path with
    | some shown => rfl
    | none =>
      have blocked : blocks document.values path = true := by
        simpa [decides, view_eq_none.mp shown] using decided
      simp [blocked]
  · rw [if_neg decided]
    obtain ⟨absent, free⟩ := decides_eq_false.mp (Bool.eq_false_of_not_eq_true decided)
    simp [view_eq_none.mpr absent, free]

def deciding (documents : List SanitizedDocument) (path : List String) : Option SanitizedDocument :=
  documents.reverse.find? fun document => decides document path

theorem deciding_append (documents : List SanitizedDocument) (document : SanitizedDocument)
    (path : List String) :
    deciding (documents ++ [document]) path =
      if decides document path then some document else deciding documents path := by
  unfold deciding
  rw [List.reverse_append, List.reverse_singleton, List.singleton_append, List.find?_cons]
  cases decides document path <;> rfl

theorem view_mergeDocuments (sound : Sound documents) (path : List String) :
    view (mergeDocuments documents) path =
      ((deciding documents path).map fun document => view document.values path).getD
        (view (.object []) path) := by
  induction documents using List.reverseRecOn with
  | nil => rfl
  | append_singleton documents document ih =>
    have inner : Sound documents := fun document listed =>
      sound document (List.mem_append_left _ listed)
    rw [view_mergeDocuments_append sound, deciding_append, ih inner]
    split <;> rfl

theorem deciding_eq_some : deciding documents path = some document ↔ decides document path = true ∧
      ∃ front back, documents = front ++ document :: back ∧
        ∀ later ∈ back, decides later path = false := by
  unfold deciding
  rw [List.find?_eq_some_iff_append]
  refine and_congr_right fun _ => ?_
  constructor
  · rintro ⟨back, front, same, later⟩
    refine ⟨front.reverse, back.reverse, ?_, fun other listed => ?_⟩
    · rw [← List.reverse_inj, same]
      simp
    · simpa using later other (List.mem_reverse.mp listed)
  · rintro ⟨front, back, rfl, later⟩
    refine ⟨back.reverse, front.reverse, by simp, fun other listed => ?_⟩
    simp [later other (List.mem_reverse.mp listed)]

def LeafOf (documents : List SanitizedDocument) (path : List String)
    (document : SanitizedDocument) : Prop :=
  ∃ front back leaf, documents = front ++ document :: back ∧
    valueAt document.values path = some leaf ∧ isPlainObject leaf = false ∧
      ∀ later ∈ back, decides later path = false

theorem leafOf_iff : LeafOf documents path document ↔ deciding documents path = some document ∧
      ∃ leaf, view document.values path = some (.leaf leaf) := by
  rw [deciding_eq_some]
  constructor
  · rintro ⟨front, back, leaf, same, located, scalar, later⟩
    refine ⟨⟨?_, front, back, same, later⟩, leaf, view_eq_leaf.mpr ⟨located, scalar⟩⟩
    simp [decides, located]
  · rintro ⟨⟨-, front, back, same, later⟩, leaf, shown⟩
    obtain ⟨located, scalar⟩ := view_eq_leaf.mp shown
    exact ⟨front, back, leaf, same, located, scalar, later⟩

theorem mem_merged_leaves (sound : Sound documents) :
    path ∈ collectLeafPaths (mergeDocuments documents) ↔
      ∃ document, LeafOf documents path document := by
  rw [mem_collectLeafPaths _ (distinct_mergeDocuments sound)]
  simp only [leafOf_iff, view_mergeDocuments sound]
  cases deciding documents path with
  | none => cases path <;> simp [view, valueAt, node, property?]
  | some document => simp

end Heniek.ConfigurationFold
