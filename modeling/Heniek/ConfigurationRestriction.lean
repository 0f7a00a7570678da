import Heniek.ConfigurationProvenance

/-!
An invocation override beside its restriction to the overridable pointers. A document and
its restriction hold the same permitted leaves, and the objects of the restriction are
objects of the document; so where what is left out neither covers an object nor lays one
over a leaf, the two resolutions credit the same leaves with the same values.
-/

namespace Heniek.ConfigurationRestriction
open ExpressionEvaluation CanonicalState ConfigurationLayers
open ConfigurationMerge ConfigurationEdits ConfigurationFold
open ScriptText

section Restrict

variable (policy : IndexedConfigurationPolicy)

def unlessEmpty (members : Members) : Option JsonValue :=
  if members.isEmpty then none else some (.object members)

mutual

/-- The overridable leaves of a value, without the objects that are left with none. -/
def restrictValue : List String → JsonValue → Option JsonValue
  | path, .object members => unlessEmpty (restrictMembers path members)
  | path, value => if policy.overridable (pathToPointer path) then some value else none

def restrictMember (path : List String) : String × JsonValue → Option (String × JsonValue)
  | (key, value) => (restrictValue (path ++ [key]) value).map fun child => (key, child)

def restrictMembers (path : List String) : List (String × JsonValue) → Members
  | [] => []
  | member :: members =>
    match restrictMember path member with
    | none => restrictMembers path members
    | some kept => kept :: restrictMembers path members

end

def restrictDocument (document : SanitizedDocument) : SanitizedDocument :=
  if document.layer = .invocationOverride then
    { document with values := (restrictValue policy [] document.values).getD (.object []) }
  else document

variable {policy}

theorem restrictValue_leaf {value : JsonValue} (scalar : isPlainObject value = false)
    (base : List String) :
    restrictValue policy base value =
      if policy.overridable (pathToPointer base) then some value else none := by
  rw [restrictValue]
  rintro members rfl
  cases scalar

theorem restrictValue_object (base : List String) (members : Members) :
    restrictValue policy base (.object members) =
      unlessEmpty (restrictMembers policy base members) := by
  rw [restrictValue]

theorem restrictMembers_eq (base : List String) (members : Members) :
    restrictMembers policy base members = members.filterMap (restrictMember policy base) := by
  induction members with
  | nil => rfl
  | cons member members ih =>
    rw [restrictMembers, List.filterMap_cons, ← ih]
    cases restrictMember policy base member <;> rfl

theorem property?_restrictMembers (base : List String) (members : Members)
    (keys : (members.map Prod.fst).Nodup) (key : String) :
    property? (restrictMembers policy base members) key =
      (property? members key).bind fun value => restrictValue policy (base ++ [key]) value := by
  rw [restrictMembers_eq, property?_filterMap (fun _ _ => by rw [restrictMember]) members keys]

theorem valueAt_unlessEmpty (members : Members) (segment : String) (rest : List String) :
    ((unlessEmpty members).bind fun value => valueAt value (segment :: rest)) =
      (property? members segment).bind fun child => valueAt child rest := by
  cases members <;> rfl

theorem restrict_at (path : List String) : ∀ {value : JsonValue} (base : List String),
    Distinct value →
    ((restrictValue policy base value).bind fun kept => valueAt kept path) =
      (valueAt value path).bind fun inner => restrictValue policy (base ++ path) inner := by
  induction path with
  | nil =>
    intro value base _
    rw [List.append_nil]
    change _ = restrictValue policy base value
    cases restrictValue policy base value <;> rfl
  | cons segment path ih =>
    intro value base distinct
    by_cases scalar : isPlainObject value = false
    · have hidden := view_eq_none.mp (view_cons_of_not_object scalar segment path).1
      rw [hidden, restrictValue_leaf scalar]
      split
      · exact hidden
      · rfl
    · obtain ⟨members, rfl⟩ := isPlainObject_iff.mp (Bool.eq_true_of_not_eq_false scalar)
      have keys := (distinct_object.mp distinct).1
      rw [restrictValue_object, valueAt_unlessEmpty, property?_restrictMembers base members keys,
        valueAt_object]
      cases held : property? members segment with
      | none => rfl
      | some child =>
        rw [Option.bind_some, Option.bind_some, ih _ (distinct_property? distinct held),
          List.append_assoc, List.singleton_append]

theorem distinct_unlessEmpty {members : Members} (distinct : Distinct (.object members)) :
    ∀ kept ∈ unlessEmpty members, Distinct kept := by
  unfold unlessEmpty
  rintro kept shown
  split at shown
  · cases shown
  · cases shown
    exact distinct

theorem distinct_kept {value : JsonValue} (scalar : isPlainObject value = false)
    (distinct : Distinct value) (base : List String) :
    ∀ kept ∈ restrictValue policy base value, Distinct kept := by
  rw [restrictValue_leaf scalar]
  rintro kept shown
  split at shown
  · cases shown
    exact distinct
  · cases shown

mutual

theorem distinct_restrictValue : (value : JsonValue) → Distinct value → (base : List String) →
    ∀ kept ∈ restrictValue policy base value, Distinct kept
  | .object members, distinct, base => by
      rw [restrictValue_object]
      refine distinct_unlessEmpty ?_
      rw [Distinct]
      refine ⟨distinct.1.sublist ?_, distinct_restrictMembers members distinct.2 base⟩
      rw [restrictMembers_eq]
      exact keys_filterMap (fun _ _ => by rw [restrictMember]) members
  | .null, distinct, base => distinct_kept rfl distinct base
  | .bool _, distinct, base => distinct_kept rfl distinct base
  | .number _, distinct, base => distinct_kept rfl distinct base
  | .string _, distinct, base => distinct_kept rfl distinct base
  | .array _, distinct, base => distinct_kept rfl distinct base

theorem distinct_restrictMember : (member : String × JsonValue) → DistinctMember member →
    (base : List String) → ∀ kept ∈ restrictMember policy base member, DistinctMember kept
  | (key, value), distinct, base => by
      rintro kept shown
      obtain ⟨child, inner, rfl⟩ := Option.map_eq_some_iff.mp shown
      exact distinct_restrictValue value distinct (base ++ [key]) child inner

theorem distinct_restrictMembers : (members : List (String × JsonValue)) →
    DistinctMembers members → (base : List String) →
    DistinctMembers (restrictMembers policy base members)
  | [], _, _ => trivial
  | member :: members, distinct, base => by
      have first := distinct_restrictMember member distinct.1 base
      have later := distinct_restrictMembers members distinct.2 base
      rw [restrictMembers]
      cases kept : restrictMember policy base member with
      | none => exact later
      | some child => exact ⟨first child kept, later⟩

end

end Restrict

section Document

variable {policy : IndexedConfigurationPolicy} {document : SanitizedDocument}

@[simp] theorem layer_restrictDocument :
    (restrictDocument policy document).layer = document.layer := by
  unfold restrictDocument
  split <;> rfl

@[simp] theorem sourcePath_restrictDocument :
    (restrictDocument policy document).sourcePath = document.sourcePath := by
  unfold restrictDocument
  split <;> rfl

theorem restrictDocument_of_layer (other : document.layer ≠ .invocationOverride) :
    restrictDocument policy document = document := if_neg other

theorem values_restrictDocument (level : document.layer = .invocationOverride) :
    (restrictDocument policy document).values =
      (restrictValue policy [] document.values).getD (.object []) := by
  rw [restrictDocument, if_pos level]

theorem getD_unlessEmpty (members : Members) :
    ∃ kept, (unlessEmpty members).getD (.object []) = .object kept := by
  unfold unlessEmpty
  split
  · exact ⟨[], rfl⟩
  · exact ⟨members, rfl⟩

theorem object_root (object : isPlainObject document.values = true) :
    isPlainObject (restrictDocument policy document).values = true := by
  by_cases level : document.layer = .invocationOverride
  · obtain ⟨members, values⟩ := isPlainObject_iff.mp object
    rw [values_restrictDocument level, values]
    exact isPlainObject_iff.mpr (getD_unlessEmpty _)
  · rwa [restrictDocument_of_layer level]

theorem distinct_restrictDocument (distinct : Distinct document.values) :
    Distinct (restrictDocument policy document).values := by
  by_cases level : document.layer = .invocationOverride
  · rw [values_restrictDocument level]
    cases kept : restrictValue policy [] document.values with
    | none => exact ⟨List.nodup_nil, trivial⟩
    | some value => exact distinct_restrictValue _ distinct [] value kept
  · rwa [restrictDocument_of_layer level]

theorem sound_restrict {documents : List SanitizedDocument} (sound : Sound documents) :
    Sound (documents.map (restrictDocument policy)) := by
  intro restricted listed
  obtain ⟨document, member, rfl⟩ := List.mem_map.mp listed
  exact ⟨distinct_restrictDocument (sound document member).1, object_root (sound document member).2⟩

theorem valueAt_restrictDocument (level : document.layer = .invocationOverride)
    (distinct : Distinct document.values) (segment : String) (rest : List String) :
    valueAt (restrictDocument policy document).values (segment :: rest) =
      (valueAt document.values (segment :: rest)).bind
        (restrictValue policy (segment :: rest)) := by
  have inner := @restrict_at policy (segment :: rest) _ [] distinct
  rw [List.nil_append] at inner
  rw [values_restrictDocument level, ← inner]
  cases restrictValue policy [] document.values <;> rfl

variable {path : List String}

theorem restrictValue_scalar {value kept : JsonValue}
    (restricted : restrictValue policy path value = some kept) :
    isPlainObject value = isPlainObject kept ∧
      (isPlainObject value = false → value = kept ∧
        policy.overridable (pathToPointer path) = true) := by
  by_cases scalar : isPlainObject value = false
  · rw [restrictValue_leaf scalar] at restricted
    split at restricted
    · rename_i declared
      cases restricted
      exact ⟨rfl, fun _ => ⟨rfl, declared⟩⟩
    · cases restricted
  · obtain ⟨members, rfl⟩ := isPlainObject_iff.mp (Bool.eq_true_of_not_eq_false scalar)
    rw [restrictValue_object, unlessEmpty] at restricted
    split at restricted
    · cases restricted
    · cases restricted
      exact ⟨rfl, fun never => absurd never scalar⟩

theorem leaf_restrictDocument
    (sound : Distinct document.values ∧ isPlainObject document.values = true) {leaf : JsonValue}
    (scalar : isPlainObject leaf = false) :
    valueAt (restrictDocument policy document).values path = some leaf ↔
      valueAt document.values path = some leaf ∧
        permitted policy (pathToPointer path) document.layer = true := by
  by_cases level : document.layer = .invocationOverride
  · cases path with
    | nil =>
      have root : ∀ value : JsonValue, isPlainObject value = true →
          valueAt value [] ≠ some leaf := by
        rintro value object located
        obtain rfl : value = leaf := Option.some.inj located
        rw [scalar] at object
        cases object
      exact iff_of_false (root _ (object_root sound.2)) fun both => root _ sound.2 both.1
    | cons segment rest =>
      rw [valueAt_restrictDocument level sound.1, Option.bind_eq_some_iff]
      have rule : permitted policy (pathToPointer (segment :: rest)) document.layer =
          policy.overridable (pathToPointer (segment :: rest)) := by simp [permitted, level]
      rw [rule]
      constructor
      · rintro ⟨value, located, kept⟩
        obtain ⟨same, whole⟩ := restrictValue_scalar kept
        obtain ⟨rfl, declared⟩ := whole (same.trans scalar)
        exact ⟨located, declared⟩
      · rintro ⟨located, declared⟩
        refine ⟨leaf, located, ?_⟩
        rw [restrictValue_leaf scalar, if_pos declared]
  · rw [restrictDocument_of_layer level]
    simp [permitted, level]

theorem object_restrictDocument
    (sound : Distinct document.values ∧ isPlainObject document.values = true) {kept : JsonValue}
    (object : isPlainObject kept = true)
    (located : valueAt (restrictDocument policy document).values path = some kept) :
    ∃ value, valueAt document.values path = some value ∧ isPlainObject value = true := by
  by_cases level : document.layer = .invocationOverride
  · cases path with
    | nil => exact ⟨_, rfl, sound.2⟩
    | cons segment rest =>
      rw [valueAt_restrictDocument level sound.1] at located
      obtain ⟨value, held, restricted⟩ := Option.bind_eq_some_iff.mp located
      exact ⟨value, held, (restrictValue_scalar restricted).1.trans object⟩
  · rw [restrictDocument_of_layer level] at located
    exact ⟨kept, located, object⟩

end Document

end Heniek.ConfigurationRestriction
