import Heniek.ConfigurationMerge

/-!
The leaves of a document, one pointer for each, and what the edits of its leaves leave at
every path: an object where there was one, the edited value at a leaf, and below a leaf
what the edited value holds there.
-/

namespace Heniek.ConfigurationLeaves
open ExpressionEvaluation CanonicalState GraphValidation ConfigurationLayers
open ConfigurationMerge

theorem view_member {key : String} {value : JsonValue} {members : Members} {segment : String}
    {rest : List String} :
    view (.object ((key, value) :: members)) (segment :: rest) =
      if key = segment then view value rest else view (.object members) (segment :: rest) := by
  rw [view_object, view_object, property?_cons]
  split <;> rfl

theorem view_absent {members : Members} {segment : String} {rest : List String}
    (absent : segment ∉ members.map Prod.fst) :
    view (.object members) (segment :: rest) = none := by
  rw [view_object, property?_eq_none.mpr absent]
  rfl

mutual

theorem mem_collectLeafPaths : (value : JsonValue) → Distinct value → (path : List String) →
    (path ∈ collectLeafPaths value ↔ ∃ leaf, view value path = some (.leaf leaf))
  | .object members, distinct, path => by
      rw [collectLeafPaths]
      exact mem_memberLeafPaths members distinct.1 distinct.2 path
  | .null, _, path => by cases path <;> simp [collectLeafPaths, view, valueAt, node]
  | .bool _, _, path => by cases path <;> simp [collectLeafPaths, view, valueAt, node]
  | .number _, _, path => by cases path <;> simp [collectLeafPaths, view, valueAt, node]
  | .string _, _, path => by cases path <;> simp [collectLeafPaths, view, valueAt, node]
  | .array _, _, path => by cases path <;> simp [collectLeafPaths, view, valueAt, node]

theorem mem_leafPathsUnder : (member : String × JsonValue) → DistinctMember member →
    (path : List String) → (path ∈ leafPathsUnder member ↔
      ∃ rest leaf, path = member.1 :: rest ∧ view member.2 rest = some (.leaf leaf))
  | (key, value), distinct, path => by
      rw [leafPathsUnder, List.mem_map]
      constructor
      · rintro ⟨rest, listed, rfl⟩
        obtain ⟨leaf, shown⟩ := (mem_collectLeafPaths value distinct rest).mp listed
        exact ⟨rest, leaf, rfl, shown⟩
      · rintro ⟨rest, leaf, rfl, shown⟩
        exact ⟨rest, (mem_collectLeafPaths value distinct rest).mpr ⟨leaf, shown⟩, rfl⟩

theorem mem_memberLeafPaths : (members : List (String × JsonValue)) →
    (members.map Prod.fst).Nodup → DistinctMembers members → (path : List String) →
    (path ∈ memberLeafPaths members ↔ ∃ leaf, view (.object members) path = some (.leaf leaf))
  | [], _, _, path => by cases path <;> simp [memberLeafPaths, view, valueAt, node, property?]
  | (key, value) :: members, keys, distinct, path => by
      rw [List.map_cons, List.nodup_cons] at keys
      rw [memberLeafPaths, List.mem_append, mem_leafPathsUnder (key, value) distinct.1,
        mem_memberLeafPaths members keys.2 distinct.2]
      cases path with
      | nil => simp [view, valueAt, node]
      | cons segment rest =>
        rw [view_member]
        by_cases here : key = segment
        · subst here
          simp [view_absent keys.1]
        · have other : segment ≠ key := Ne.symm here
          simp [here, other]

end

mutual

theorem nodup_collectLeafPaths : (value : JsonValue) → Distinct value →
    (collectLeafPaths value).Nodup
  | .object members, distinct => by
      rw [collectLeafPaths]
      exact nodup_memberLeafPaths members distinct.1 distinct.2
  | .null, _ => List.nodup_singleton []
  | .bool _, _ => List.nodup_singleton []
  | .number _, _ => List.nodup_singleton []
  | .string _, _ => List.nodup_singleton []
  | .array _, _ => List.nodup_singleton []

theorem nodup_leafPathsUnder : (member : String × JsonValue) → DistinctMember member →
    (leafPathsUnder member).Nodup
  | (key, value), distinct => by
      rw [leafPathsUnder]
      exact (nodup_collectLeafPaths value distinct).map (List.cons_injective)

theorem nodup_memberLeafPaths : (members : List (String × JsonValue)) →
    (members.map Prod.fst).Nodup → DistinctMembers members → (memberLeafPaths members).Nodup
  | [], _, _ => List.nodup_nil
  | (key, value) :: members, keys, distinct => by
      rw [List.map_cons, List.nodup_cons] at keys
      rw [memberLeafPaths]
      refine List.nodup_append.mpr ⟨nodup_leafPathsUnder (key, value) distinct.1,
        nodup_memberLeafPaths members keys.2 distinct.2, ?_⟩
      intro path first path' later same
      obtain ⟨rest, leaf, named, -⟩ := (mem_leafPathsUnder (key, value) distinct.1 path).mp first
      obtain ⟨leaf', shown⟩ := (mem_memberLeafPaths members keys.2 distinct.2 path').mp later
      rw [← same, named, view_absent keys.1] at shown
      cases shown

end

def escapeChar (c : Char) : List Char :=
  if c = '~' then ['~', '0'] else if c = '/' then ['~', '1'] else [c]

theorem escapePointerSegment_toList (segment : String) :
    (escapePointerSegment segment).toList = segment.toList.flatMap escapeChar := by
  unfold escapePointerSegment
  rw [String.toList_ofList]
  rfl

theorem slash_not_mem (cs : List Char) : '/' ∉ cs.flatMap escapeChar := by
  rw [List.mem_flatMap]
  rintro ⟨c, -, listed⟩
  unfold escapeChar at listed
  split at listed
  · simp at listed
  · split at listed
    · simp at listed
    · rename_i slash
      exact slash (List.mem_singleton.mp listed).symm

theorem escapeChar_ne_nil (c : Char) (rest : List Char) : escapeChar c ++ rest ≠ [] := by
  unfold escapeChar
  split_ifs <;> exact List.cons_ne_nil _ _

theorem escapeChar_inj {c d : Char} {cs ds : List Char}
    (same : escapeChar c ++ cs = escapeChar d ++ ds) : c = d ∧ cs = ds := by
  unfold escapeChar at same
  split_ifs at same <;> simp only [List.cons_append] at same <;>
    grind

theorem escape_injective {cs ds : List Char}
    (same : cs.flatMap escapeChar = ds.flatMap escapeChar) :
    cs = ds := by
  induction cs generalizing ds with
  | nil =>
    cases ds with
    | nil => rfl
    | cons d ds => exact absurd same.symm (escapeChar_ne_nil d _)
  | cons c cs ih =>
    cases ds with
    | nil => exact absurd same (escapeChar_ne_nil c _)
    | cons d ds =>
      obtain ⟨heads, tails⟩ := escapeChar_inj same
      rw [heads, ih tails]

def pointerTail (path : List String) : List Char :=
  path.flatMap fun segment => '/' :: segment.toList.flatMap escapeChar

theorem foldl_joinPointer (path : List String) (base : String) :
    (path.foldl joinPointer base).toList = base.toList ++ pointerTail path := by
  induction path generalizing base with
  | nil => simp [pointerTail]
  | cons segment path ih =>
    rw [List.foldl_cons, ih, joinPointer, String.toList_append,
      escapePointerSegment_toList, pointerTail, pointerTail]
    simp

theorem takeWhile_pointerTail (path : List String) (cs : List Char) :
    (cs.flatMap escapeChar ++ pointerTail path).takeWhile (· ≠ '/') = cs.flatMap escapeChar := by
  have plain : ∀ c ∈ cs.flatMap escapeChar, decide (c ≠ '/') = true := by
    intro c listed
    have different : c ≠ '/' := fun slash => slash_not_mem cs (slash ▸ listed)
    simp [different]
  have stopped : (pointerTail path).takeWhile (· ≠ '/') = [] := by
    cases path <;> simp [pointerTail]
  rw [List.takeWhile_append_of_pos plain, stopped, List.append_nil]

theorem pointerTail_injective {path path' : List String}
    (same : pointerTail path = pointerTail path') : path = path' := by
  induction path generalizing path' with
  | nil => cases path' <;> first | rfl | cases same
  | cons segment path ih =>
    cases path' with
    | nil => cases same
    | cons segment' path' =>
      simp only [pointerTail, List.flatMap_cons, List.cons_append, List.cons.injEq,
        true_and] at same
      have front := congrArg (List.takeWhile (· ≠ '/')) same
      have heads := (takeWhile_pointerTail path segment.toList).symm.trans
        (front.trans (takeWhile_pointerTail path' segment'.toList))
      rw [heads] at same
      rw [String.toList_inj.mp (escape_injective heads), ih (List.append_cancel_left same)]

theorem pathToPointer_injective : Function.Injective pathToPointer := by
  intro path path' same
  have texts := congrArg String.toList same
  unfold pathToPointer at texts
  rw [foldl_joinPointer, foldl_joinPointer] at texts
  exact pointerTail_injective (List.append_cancel_left texts)

end Heniek.ConfigurationLeaves
