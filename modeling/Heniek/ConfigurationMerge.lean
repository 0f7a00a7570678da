import Heniek.ConfigurationLayers

/-!
What the fold of the layers and the edits of its leaves show at each path. A document
decides a path when it holds something there, or a scalar or an array above it; the
merged document shows what the last of the deciding documents shows.
-/

namespace Heniek.ConfigurationMerge
open ExpressionEvaluation CanonicalState ConfigurationLayers

mutual

def Distinct : JsonValue → Prop
  | .object members => (members.map Prod.fst).Nodup ∧ DistinctMembers members
  | _ => True

def DistinctMember : String × JsonValue → Prop
  | (_, value) => Distinct value

def DistinctMembers : List (String × JsonValue) → Prop
  | [] => True
  | member :: members => DistinctMember member ∧ DistinctMembers members

end

theorem distinctMembers_iff {members : Members} :
    DistinctMembers members ↔ ∀ member ∈ members, Distinct member.2 := by
  induction members with
  | nil => simp [DistinctMembers]
  | cons member members ih =>
    obtain ⟨key, value⟩ := member
    simp [DistinctMembers, DistinctMember, ih]

theorem distinct_object {members : Members} :
    Distinct (.object members) ↔
      (members.map Prod.fst).Nodup ∧ ∀ member ∈ members, Distinct member.2 := by
  rw [Distinct, distinctMembers_iff]

theorem keys_defineProperty (members : Members) (key : String) (value : JsonValue) :
    (defineProperty members key value).map Prod.fst =
      if key ∈ members.map Prod.fst then members.map Prod.fst
        else members.map Prod.fst ++ [key] := by
  induction members with
  | nil => simp [defineProperty]
  | cons member members ih =>
    by_cases here : member.1 = key
    · simp [defineProperty, here]
    · have other : key ≠ member.1 := Ne.symm here
      rw [defineProperty, if_neg here, List.map_cons, ih, List.map_cons]
      by_cases later : key ∈ members.map Prod.fst
      · rw [if_pos later, if_pos (List.mem_cons_of_mem _ later)]
      · rw [if_neg later, if_neg (by simpa [other] using later), List.cons_append]

variable {key : String} {value : JsonValue} {base : Option JsonValue} {path : List String}

theorem mem_defineProperty {members : Members} {member : String × JsonValue}
    (listed : member ∈ defineProperty members key value) :
    member = (key, value) ∨ member ∈ members := by
  induction members with
  | nil => exact Or.inl (by simpa [defineProperty] using listed)
  | cons first members ih =>
    by_cases here : first.1 = key
    · rw [defineProperty, if_pos here, List.mem_cons] at listed
      exact listed.imp_right (List.mem_cons_of_mem _)
    · rw [defineProperty, if_neg here, List.mem_cons] at listed
      rcases listed with rfl | later
      · exact Or.inr List.mem_cons_self
      · exact (ih later).imp_right (List.mem_cons_of_mem _)

theorem distinct_defineProperty {members : Members} (distinct : Distinct (.object members))
    (valued : Distinct value) : Distinct (.object (defineProperty members key value)) := by
  rw [distinct_object] at distinct ⊢
  constructor
  · rw [keys_defineProperty]
    split
    · exact distinct.1
    · rename_i fresh
      refine List.nodup_append.mpr ⟨distinct.1, List.nodup_singleton key, ?_⟩
      intro taken listed other single same
      rw [same, List.mem_singleton.mp single] at listed
      exact fresh listed
  · intro member listed
    rcases mem_defineProperty listed with rfl | earlier
    · exact valued
    · exact distinct.2 member earlier

theorem property?_mem {members : Members} (found : property? members key = some value) :
    (key, value) ∈ members := by
  obtain ⟨member, located, rfl⟩ := Option.map_eq_some_iff.mp found
  have named : member.1 = key := by simpa using List.find?_some located
  rw [← named]
  exact List.mem_of_find?_eq_some located

theorem distinct_property? {members : Members} (distinct : Distinct (.object members))
    (found : property? members key = some value) :
    Distinct value := (distinct_object.mp distinct).2 _ (property?_mem found)

theorem property?_cons (member : String × JsonValue) (members : Members) (key : String) :
    property? (member :: members) key =
      if member.1 = key then some member.2 else property? members key := by
  unfold property?
  by_cases here : member.1 = key
  · rw [if_pos here, List.find?_cons_of_pos (by simpa using here), Option.map_some]
  · rw [if_neg here, List.find?_cons_of_neg (by simpa using here)]

theorem property?_eq_none {members : Members} :
    property? members key = none ↔ key ∉ members.map Prod.fst := by
  induction members with
  | nil => simp [property?]
  | cons member members ih =>
    rw [property?_cons, List.map_cons, List.mem_cons, not_or]
    by_cases here : member.1 = key
    · simp [here]
    · rw [if_neg here, ih]
      exact ⟨fun absent => ⟨Ne.symm here, absent⟩, And.right⟩

/-- The document has a scalar or an array above the path. -/
def blocks : JsonValue → List String → Bool
  | _, [] => false
  | .object members, segment :: rest =>
    match property? members segment with
    | none => false
    | some child => blocks child rest
  | _, _ :: _ => true

theorem property?_mergeMembers (incoming : List (String × JsonValue)) : ∀ merged : Members,
    (incoming.map Prod.fst).Nodup → ∀ key : String,
    property? (mergeMembers merged incoming) key =
      ((property? incoming key).map fun child => mergeJsonValue (property? merged key) child).or
        (property? merged key) := by
  induction incoming with
  | nil => intro merged _ key; rfl
  | cons member incoming ih =>
    obtain ⟨name, child⟩ := member
    intro merged distinct key
    rw [List.map_cons, List.nodup_cons] at distinct
    rw [mergeMembers, ih _ distinct.2, mergeMember, property?_defineProperty, property?_cons]
    by_cases here : name = key
    · subst here
      have absent := property?_eq_none.mpr distinct.1
      simp [absent]
    · have other : key ≠ name := Ne.symm here
      simp only [if_neg other, if_neg here]

theorem isPlainObject_iff : isPlainObject value = true ↔ ∃ members, value = .object members := by
  cases value <;> simp [isPlainObject]

theorem any_eq_true : base.any isPlainObject = true ↔ ∃ members, base = some (.object members) := by
  cases base with
  | none => simp
  | some base => cases base <;> simp [isPlainObject]

theorem mergeJsonValue_of_not_object {incoming : JsonValue}
    (scalar : isPlainObject incoming = false) : mergeJsonValue base incoming = incoming := by
  rw [mergeJsonValue]
  rintro old members - rfl
  cases scalar

theorem mergeJsonValue_of_base (scalar : base.any isPlainObject = false) (incoming : JsonValue) :
    mergeJsonValue base incoming = incoming := by
  rw [mergeJsonValue]
  rintro old members rfl
  cases scalar

mutual

theorem distinct_mergeJsonValue : (incoming : JsonValue) → Distinct incoming →
    {base : Option JsonValue} → (∀ value ∈ base, Distinct value) →
    Distinct (mergeJsonValue base incoming)
  | .object incoming, distinct, base, before => by
      by_cases scalar : base.any isPlainObject = false
      · rw [mergeJsonValue_of_base scalar]
        exact distinct
      · obtain ⟨members, rfl⟩ := any_eq_true.mp (Bool.eq_true_of_not_eq_false scalar)
        exact distinct_mergeMembers incoming distinct.2 (before _ rfl)
  | .null, distinct, _, _ => by rwa [mergeJsonValue_of_not_object rfl]
  | .bool _, distinct, _, _ => by rwa [mergeJsonValue_of_not_object rfl]
  | .number _, distinct, _, _ => by rwa [mergeJsonValue_of_not_object rfl]
  | .string _, distinct, _, _ => by rwa [mergeJsonValue_of_not_object rfl]
  | .array _, distinct, _, _ => by rwa [mergeJsonValue_of_not_object rfl]

theorem distinct_mergeMember : (member : String × JsonValue) → DistinctMember member →
    {merged : Members} → Distinct (.object merged) → Distinct (.object (mergeMember merged member))
  | (key, child), distinct, merged, before => by
      refine distinct_defineProperty before (distinct_mergeJsonValue child distinct ?_)
      exact fun value found => distinct_property? before found

theorem distinct_mergeMembers : (incoming : List (String × JsonValue)) → DistinctMembers incoming →
    {merged : Members} → Distinct (.object merged) →
    Distinct (.object (mergeMembers merged incoming))
  | [], _, _, before => before
  | member :: incoming, distinct, _, before =>
    distinct_mergeMembers incoming distinct.2 (distinct_mergeMember member distinct.1 before)

end

theorem view_nil (value : JsonValue) : view value [] = some (node value) := rfl

theorem view_cons_of_not_object (scalar : isPlainObject value = false) (segment : String)
    (rest : List String) :
    view value (segment :: rest) = none ∧ blocks value (segment :: rest) = true := by
  cases value <;> first | exact ⟨rfl, rfl⟩ | cases scalar

theorem node_of_not_object (scalar : isPlainObject value = false) : node value = .leaf value := by
  cases value <;> first | rfl | cases scalar

theorem view_eq_leaf {leaf : JsonValue} : view value path = some (.leaf leaf) ↔
      valueAt value path = some leaf ∧ isPlainObject leaf = false := by
  unfold view
  constructor
  · intro shown
    obtain ⟨found, located, shape⟩ := Option.map_eq_some_iff.mp shown
    cases found <;> cases shape <;> exact ⟨located, rfl⟩
  · rintro ⟨located, scalar⟩
    rw [located, Option.map_some, node_of_not_object scalar]

theorem view_eq_branch :
    view value path = some .branch ↔ ∃ members, valueAt value path = some (.object members) := by
  unfold view
  constructor
  · intro shown
    obtain ⟨found, located, shape⟩ := Option.map_eq_some_iff.mp shown
    cases found <;> cases shape
    exact ⟨_, located⟩
  · rintro ⟨members, located⟩
    rw [located]
    rfl

theorem view_eq_none : view value path = none ↔ valueAt value path = none := by
  exact Option.map_eq_none_iff

theorem view_mergeJsonValue (path : List String) : ∀ (base : Option JsonValue)
    (incoming : JsonValue), Distinct incoming →
    view (mergeJsonValue base incoming) path = (view incoming path).or
      (if blocks incoming path then none else base.bind fun value => view value path) := by
  induction path with
  | nil =>
    intro base incoming _
    rw [view_nil, view_nil, Option.some_or]
    cases incoming with
    | object members =>
      cases base with
      | none => rfl
      | some base => cases base <;> rfl
    | null => rw [mergeJsonValue_of_not_object rfl]
    | bool => rw [mergeJsonValue_of_not_object rfl]
    | number => rw [mergeJsonValue_of_not_object rfl]
    | string => rw [mergeJsonValue_of_not_object rfl]
    | array => rw [mergeJsonValue_of_not_object rfl]
  | cons segment rest ih =>
    intro base incoming distinct
    by_cases scalar : isPlainObject incoming = false
    · obtain ⟨absent, blocked⟩ := view_cons_of_not_object scalar segment rest
      rw [mergeJsonValue_of_not_object scalar, absent, blocked]
      rfl
    obtain ⟨members, rfl⟩ := isPlainObject_iff.mp (Bool.eq_true_of_not_eq_false scalar)
    by_cases fresh : base.any isPlainObject = false
    · have beneath : (base.bind fun value => view value (segment :: rest)) = none := by
        cases base with
        | none => rfl
        | some base => exact (view_cons_of_not_object fresh segment rest).1
      rw [mergeJsonValue_of_base fresh, beneath]
      cases view (.object members) (segment :: rest) <;> simp
    obtain ⟨old, rfl⟩ := any_eq_true.mp (Bool.eq_true_of_not_eq_false fresh)
    have keys := (distinct_object.mp distinct).1
    rw [mergeJsonValue, view_object, view_object, property?_mergeMembers members old keys]
    cases present : property? members segment with
    | none => simp [blocks, present, view_object]
    | some child =>
      have inner := ih (property? old segment) child (distinct_property? distinct present)
      simp only [Option.map_some, Option.some_or, Option.bind_some, inner, blocks, present,
        view_object]

end Heniek.ConfigurationMerge
