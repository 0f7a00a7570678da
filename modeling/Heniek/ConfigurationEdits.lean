import Heniek.ConfigurationLeaves

/-!
The edits of the leaves of a document, seen at every path, and the documents that the
resolution starts from: pruned, merged and edited they have distinct keys throughout.
-/

namespace Heniek.ConfigurationEdits
open ExpressionEvaluation CanonicalState ConfigurationLayers
open ConfigurationMerge

section Members

variable {f : String × JsonValue → Option (String × JsonValue)}
variable {g : String → JsonValue → Option JsonValue}

theorem property?_filterMap (spec : ∀ key value, f (key, value) = (g key value).map (Prod.mk key))
    (members : Members) (keys : (members.map Prod.fst).Nodup) (key : String) :
    property? (members.filterMap f) key = (property? members key).bind (g key) := by
  induction members with
  | nil => rfl
  | cons member members ih =>
    obtain ⟨name, value⟩ := member
    rw [List.map_cons, List.nodup_cons] at keys
    rw [List.filterMap_cons, property?_cons, spec]
    by_cases here : name = key
    · subst here
      cases kept : g name value with
      | none => simp [ih keys.2, property?_eq_none.mpr keys.1, kept]
      | some child => simp [property?_cons, kept]
    · cases g name value with
      | none => simp [ih keys.2, here]
      | some child => simp [property?_cons, ih keys.2, here]

theorem keys_filterMap (spec : ∀ key value, f (key, value) = (g key value).map (Prod.mk key))
    (members : Members) : ((members.filterMap f).map Prod.fst).Sublist (members.map Prod.fst) := by
  induction members with
  | nil => exact List.Sublist.slnil
  | cons member members ih =>
    obtain ⟨name, value⟩ := member
    rw [List.filterMap_cons, spec]
    cases g name value with
    | none => exact ih.cons name
    | some child => exact ih.cons_cons name

end Members

section Edits

variable {edits : String → Option LeafEdit}

theorem applyEdits_object (base : List String) (members : Members) :
    applyEdits edits base (.object members) = some (.object (editMembers edits base members)) := by
  rw [applyEdits]

theorem applyEdits_leaf {value : JsonValue} (scalar : isPlainObject value = false)
    (base : List String) :
    applyEdits edits base value = editLeaf (edits (pathToPointer base)) value := by
  rw [applyEdits]
  rintro members rfl
  cases scalar

theorem editMembers_eq (base : List String) (members : Members) :
    editMembers edits base members = members.filterMap (editMember edits base) := by
  induction members with
  | nil => rfl
  | cons member members ih =>
    rw [editMembers, List.filterMap_cons, ← ih]
    cases editMember edits base member <;> rfl

theorem property?_editMembers (base : List String) (members : Members)
    (keys : (members.map Prod.fst).Nodup) (key : String) :
    property? (editMembers edits base members) key =
      (property? members key).bind fun value => applyEdits edits (base ++ [key]) value := by
  rw [editMembers_eq, property?_filterMap (fun _ _ => by rw [editMember]) members keys]

theorem applyEdits_at (path : List String) : ∀ {value inner : JsonValue} (base : List String),
    Distinct value → valueAt value path = some inner →
    ((applyEdits edits base value).bind fun edited => valueAt edited path) =
      applyEdits edits (base ++ path) inner := by
  induction path with
  | nil =>
    intro value inner base _ located
    obtain rfl : value = inner := Option.some.inj located
    rw [List.append_nil]
    cases applyEdits edits base value <;> rfl
  | cons segment path ih =>
    intro value inner base distinct located
    cases value with
    | object members =>
      obtain ⟨child, held, beneath⟩ := Option.bind_eq_some_iff.mp located
      have keys := (distinct_object.mp distinct).1
      rw [applyEdits_object, Option.bind_some, valueAt_object,
        property?_editMembers base members keys, held, Option.bind_some,
        ih _ (distinct_property? distinct held) beneath, List.append_assoc, List.singleton_append]
    | null => cases located
    | bool => cases located
    | number => cases located
    | string => cases located
    | array => cases located

theorem applyEdits_absent (path : List String) : ∀ {value : JsonValue} (base : List String),
    Distinct value → valueAt value path = none →
    ((applyEdits edits base value).bind fun edited => valueAt edited path) = none ∨
      ∃ above rest leaf, path = above ++ rest ∧ rest ≠ [] ∧ valueAt value above = some leaf ∧
        isPlainObject leaf = false ∧
        ((applyEdits edits base value).bind fun edited => valueAt edited path) =
          (applyEdits edits (base ++ above) leaf).bind fun edited => valueAt edited rest := by
  induction path with
  | nil =>
    intro value base _ located
    cases located
  | cons segment path ih =>
    intro value base distinct located
    by_cases scalar : isPlainObject value = false
    · refine Or.inr ⟨[], segment :: path, value, rfl, List.cons_ne_nil _ _, rfl, scalar, ?_⟩
      rw [List.append_nil]
    obtain ⟨members, rfl⟩ := isPlainObject_iff.mp (Bool.eq_true_of_not_eq_false scalar)
    have keys := (distinct_object.mp distinct).1
    rw [applyEdits_object, Option.bind_some, valueAt_object,
      property?_editMembers base members keys]
    rw [valueAt_object] at located
    cases held : property? members segment with
    | none => exact Or.inl rfl
    | some child =>
      rw [held] at located
      rw [Option.bind_some]
      rcases ih (base ++ [segment]) (distinct_property? distinct held) located with
        gone | ⟨above, rest, leaf, rfl, nonempty, inner, scalar, edited⟩
      · exact Or.inl gone
      · refine Or.inr ⟨segment :: above, rest, leaf, rfl, nonempty, ?_, scalar, ?_⟩
        · rw [valueAt_object, held]
          exact inner
        · rw [edited, List.append_assoc, List.singleton_append]

theorem distinct_edited (fine : ∀ pointer value, edits pointer = some (.set value) → Distinct value)
    {value : JsonValue} (scalar : isPlainObject value = false) (distinct : Distinct value)
    (base : List String) : ∀ edited ∈ applyEdits edits base value, Distinct edited := by
  rintro edited shown
  rw [applyEdits_leaf scalar] at shown
  cases edit : edits (pathToPointer base) with
  | none =>
    rw [edit] at shown
    cases shown
    exact distinct
  | some change =>
    rw [edit] at shown
    cases change with
    | delete => cases shown
    | set chosen =>
      cases shown
      exact fine _ _ edit

mutual

theorem distinct_applyEdits
    (fine : ∀ pointer value, edits pointer = some (.set value) → Distinct value) :
    (value : JsonValue) → Distinct value → (base : List String) →
    ∀ edited ∈ applyEdits edits base value, Distinct edited
  | .object members, distinct, base => by
      rintro edited shown
      rw [applyEdits_object, Option.mem_some] at shown
      subst shown
      rw [Distinct]
      refine ⟨distinct.1.sublist ?_, distinct_editMembers fine members distinct.2 base⟩
      rw [editMembers_eq]
      exact keys_filterMap (fun _ _ => by rw [editMember]) members
  | .null, distinct, base => distinct_edited fine rfl distinct base
  | .bool _, distinct, base => distinct_edited fine rfl distinct base
  | .number _, distinct, base => distinct_edited fine rfl distinct base
  | .string _, distinct, base => distinct_edited fine rfl distinct base
  | .array _, distinct, base => distinct_edited fine rfl distinct base

theorem distinct_editMember
    (fine : ∀ pointer value, edits pointer = some (.set value) → Distinct value) :
    (member : String × JsonValue) → DistinctMember member → (base : List String) →
    ∀ edited ∈ editMember edits base member, DistinctMember edited
  | (key, value), distinct, base => by
      rintro edited shown
      obtain ⟨child, inner, rfl⟩ := Option.map_eq_some_iff.mp shown
      exact distinct_applyEdits fine value distinct (base ++ [key]) child inner

theorem distinct_editMembers
    (fine : ∀ pointer value, edits pointer = some (.set value) → Distinct value) :
    (members : List (String × JsonValue)) → DistinctMembers members → (base : List String) →
    DistinctMembers (editMembers edits base members)
  | [], _, _ => trivial
  | member :: members, distinct, base => by
      have first := distinct_editMember fine member distinct.1 base
      have later := distinct_editMembers fine members distinct.2 base
      rw [editMembers]
      cases edited : editMember edits base member with
      | none => exact later
      | some child => exact ⟨first child edited, later⟩

end

end Edits

end Heniek.ConfigurationEdits
