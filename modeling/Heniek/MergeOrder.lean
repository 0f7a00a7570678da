import Heniek.CanonicalState

/-!
Merging the outputs of two stages that may finish in either order. Values at
paths neither of which is a prefix of the other can be merged in any order and
none is lost. The validator compares whole references, so it admits two
unordered stages one of which writes below what the other writes.
-/

namespace Heniek.MergeOrder
open PipelineDocument ExpressionEvaluation GraphValidation PathOverlay
open CanonicalState

def contribution? (outputs : List FinalizedOutput) (write : String) :
    Option (List String × JsonValue) :=
  match writeOf outputs write with
  | none => none
  | some (_, value) =>
    if isSafeStatePath (splitDots write) then some (splitDots write, value) else none

def put (root : Members) (entry : List String × JsonValue) : Members :=
  match place root [] entry.1 entry.2 with
  | .ok root => root
  | .error _ => root

section Entries

variable {outputs : List FinalizedOutput} {built : Materialized} {root : Members}

theorem contribution?_eq_some {write : String} {entry : List String × JsonValue} :
    contribution? outputs write = some entry ↔ entry.1 = splitDots write ∧
      isSafeStatePath entry.1 = true ∧ writeOf outputs write = some (write, entry.2) := by
  unfold contribution?
  cases made : writeOf outputs write with
  | none => simp
  | some given =>
    obtain ⟨named, value⟩ := given
    have here : named = write := (writeOf_eq_some made).1
    obtain ⟨path, held⟩ := entry
    by_cases safe : isSafeStatePath (splitDots write) = true
    · simp only [safe, if_true, Option.some.injEq, Prod.mk.injEq, here, true_and]
      constructor
      · rintro ⟨rfl, rfl⟩
        exact ⟨rfl, safe, rfl⟩
      · rintro ⟨rfl, _, rfl⟩
        exact ⟨rfl, rfl⟩
    · simp only [safe, if_false, reduceCtorEq, false_iff]
      rintro ⟨rfl, refused, _⟩
      exact safe refused

theorem materializePath_root (segments : List String) (value : JsonValue) :
    (materializePath built segments value).root =
      if isSafeStatePath segments then put built.root (segments, value) else built.root := by
  unfold materializePath put
  cases safe : isSafeStatePath segments with
  | false => rfl
  | true =>
    cases place built.root [] segments value <;> rfl

theorem applyWrite_root (write : String) :
    (applyWrite outputs built write).root =
      match contribution? outputs write with
      | some entry => put built.root entry
      | none => built.root := by
  unfold contribution?
  rcases applyWrite_cases outputs built write with
    ⟨value, made, same⟩ | ⟨none, ⟨path, code, message, same⟩ | ⟨same, _⟩⟩
  · rw [same, made, materializePath_root]
    cases isSafeStatePath (splitDots write) <;> rfl
  · rw [same, none]
    rfl
  · rw [same, none]

theorem applyWrites_root (writes : List String) :
    (writes.foldl (applyWrite outputs) built).root =
      (writes.filterMap (contribution? outputs)).foldl put built.root := by
  induction writes generalizing built with
  | nil => rfl
  | cons write writes ih =>
    rw [List.foldl_cons, ih, applyWrite_root, List.filterMap_cons]
    cases contribution? outputs write <;> rfl

end Entries

def shown (entry : List String × JsonValue) : List String × View String JsonValue :=
  (entry.1, view entry.2)

section Views

variable {root : Members} {entry : List String × JsonValue}

theorem view_put (nonempty : entry.1 ≠ []) :
    view (.object (put root entry)) = write (view (.object root)) (shown entry) := by
  unfold put
  split
  · rename_i placed
    have free : ¬ Blocked (view (.object root)) (shown entry).1 := not_blocked_of_place placed
    rw [view_place nonempty placed, write_free free]
    rfl
  · rename_i failed
    have blocked : Blocked (view (.object root)) (shown entry).1 := by
      by_contra free
      obtain ⟨other, placed⟩ := exists_place [] entry.2 free
      rw [show (shown entry).1 = entry.1 from rfl, failed] at placed
      cases placed
    rw [write_blocked blocked]

theorem view_foldl_put {entries : List (List String × JsonValue)}
    (nonempty : ∀ entry ∈ entries, entry.1 ≠ []) :
    view (.object (entries.foldl put root)) =
      (entries.map shown).foldl write (view (.object root)) := by
  induction entries generalizing root with
  | nil => rfl
  | cons entry entries ih =>
    rw [List.foldl_cons, List.map_cons, List.foldl_cons,
      ih fun other member => nonempty other (List.mem_cons_of_mem entry member),
      view_put (nonempty entry List.mem_cons_self)]

theorem valueAt_put {other : List String × JsonValue}
    (apart : other = entry ∨ Incomparable other.1 entry.1) (nonempty : other.1 ≠ [])
    (present : valueAt (.object root) entry.1 = some entry.2) :
    valueAt (.object (put root other)) entry.1 = some entry.2 := by
  unfold put
  split
  · rename_i placed
    rcases apart with rfl | beside
    · rw [(valueAt_place nonempty placed other.1).1 (List.prefix_refl _), List.drop_length]
      rfl
    · rw [(valueAt_place nonempty placed entry.1).2.2 beside, present]
  · exact present

theorem valueAt_foldl_put {entries : List (List String × JsonValue)}
    (apart : ∀ other ∈ entries, other = entry ∨ Incomparable other.1 entry.1)
    (nonempty : ∀ other ∈ entries, other.1 ≠ [])
    (present : valueAt (.object root) entry.1 = some entry.2) :
    valueAt (.object (entries.foldl put root)) entry.1 = some entry.2 := by
  induction entries generalizing root with
  | nil => exact present
  | cons other entries ih =>
    refine ih (fun next member => apart next (List.mem_cons_of_mem other member))
      (fun next member => nonempty next (List.mem_cons_of_mem other member)) ?_
    exact valueAt_put (apart other List.mem_cons_self) (nonempty other List.mem_cons_self) present

end Views

/-- `asObjectState` keeps the members: every number is finite and every key safe. -/
structure Sound (root : Members) : Prop where
  json : membersJson root = true
  safe : ∀ member ∈ root, safeSegment member.1 = true

section Sound

variable {root root' : Members} {value : JsonValue}

theorem membersJson_iff : membersJson root = true ↔ ∀ member ∈ root,
    isJsonValue member.2 = true := by
  induction root with
  | nil => simp [membersJson]
  | cons member root ih =>
    obtain ⟨key, value⟩ := member
    simp [membersJson, memberJson, ih]

theorem mem_defineProperty {key : String} {member : String × JsonValue}
    (listed : member ∈ defineProperty root key value) : member = (key, value) ∨ member ∈ root := by
  induction root with
  | nil => exact Or.inl (List.mem_singleton.mp listed)
  | cons first root ih =>
    rw [defineProperty] at listed
    split at listed
    · rcases List.mem_cons.mp listed with same | later
      · exact Or.inl same
      · exact Or.inr (List.mem_cons_of_mem first later)
    · rcases List.mem_cons.mp listed with same | later
      · exact Or.inr (same ▸ List.mem_cons_self)
      · exact (ih later).imp_right (List.mem_cons_of_mem first)

theorem mem_of_property? {key : String} (found : property? root key = some value) :
    ∃ member ∈ root, member.2 = value := by
  obtain ⟨member, located, rfl⟩ := Option.map_eq_some_iff.mp found
  exact ⟨member, List.mem_of_find?_eq_some located, rfl⟩

theorem membersJson_place {seen segments : List String} (finite : isJsonValue value = true)
    (json : membersJson root = true) (placed : place root seen segments value = .ok root') :
    membersJson root' = true := by
  induction segments generalizing root root' seen with
  | nil =>
    cases placed
    exact json
  | cons segment rest ih =>
    rw [membersJson_iff] at json ⊢
    intro member listed
    cases rest with
    | nil =>
      cases placed
      rcases mem_defineProperty listed with rfl | old
      · exact finite
      · exact json member old
    | cons next rest =>
      obtain ⟨old, inner, entered, walked, rfl⟩ := place_cons_eq_ok placed
      rcases mem_defineProperty listed with rfl | kept
      · refine ih ?_ walked
        rcases entered with ⟨_, rfl⟩ | present
        · rfl
        · obtain ⟨member, there, same⟩ := mem_of_property? present
          simpa [same, isJsonValue] using json member there
      · exact json member kept

theorem safe_place {seen segments : List String} (safe : isSafeStatePath segments = true)
    (keys : ∀ member ∈ root, safeSegment member.1 = true)
    (placed : place root seen segments value = .ok root') :
    ∀ member ∈ root', safeSegment member.1 = true := by
  intro member listed
  cases segments with
  | nil => simp [isSafeStatePath] at safe
  | cons segment rest =>
    have first : safeSegment segment = true := by
      simp only [isSafeStatePath, List.all_cons, Bool.and_eq_true] at safe
      exact safe.2.1
    cases rest with
    | nil =>
      cases placed
      rcases mem_defineProperty listed with rfl | old
      · exact first
      · exact keys member old
    | cons next rest =>
      obtain ⟨old, inner, _, _, rfl⟩ := place_cons_eq_ok placed
      rcases mem_defineProperty listed with rfl | kept
      · exact first
      · exact keys member kept

theorem Sound.put {entry : List String × JsonValue} (sound : Sound root)
    (safe : isSafeStatePath entry.1 = true) (finite : isJsonValue entry.2 = true) :
    Sound (put root entry) := by
  unfold MergeOrder.put
  split
  · rename_i placed
    exact ⟨membersJson_place finite sound.json placed, safe_place safe sound.safe placed⟩
  · exact sound

theorem Sound.foldl_put {entries : List (List String × JsonValue)} (sound : Sound root)
    (safe : ∀ entry ∈ entries, isSafeStatePath entry.1 = true)
    (finite : ∀ entry ∈ entries, isJsonValue entry.2 = true) :
    Sound (entries.foldl MergeOrder.put root) := by
  induction entries generalizing root with
  | nil => exact sound
  | cons entry entries ih =>
    exact ih (sound.put (safe entry List.mem_cons_self) (finite entry List.mem_cons_self))
      (fun other member => safe other (List.mem_cons_of_mem entry member))
      (fun other member => finite other (List.mem_cons_of_mem entry member))

theorem isSafeStatePath_singleton (key : String) : isSafeStatePath [key] = safeSegment key := by
  simp [isSafeStatePath]

theorem sound_asObjectState (base : Unknown) : Sound (asObjectState base).root := by
  have empty : Sound [] := ⟨rfl, by simp⟩
  unfold asObjectState
  cases base with
  | undefined => exact empty
  | foreign => exact empty
  | json value =>
    simp only
    split
    · rename_i finite
      split
      · exact empty
      · have json := membersJson_iff.mp finite
        constructor
        · rw [membersJson_iff]
          intro member listed
          exact json member (List.mem_filter.mp listed).1
        · intro member listed
          rw [← isSafeStatePath_singleton]
          exact (List.mem_filter.mp listed).2
      · exact empty
    · exact empty

/-- A sound root is read back as it is and without an error. -/
theorem asObjectState_of_sound (sound : Sound root) :
    asObjectState (.json (.object root)) = ⟨root, []⟩ := by
  have finite : isJsonValue (.object root) = true := sound.json
  have kept : (root.filter fun member => isSafeStatePath [member.1]) = root := by
    rw [List.filter_eq_self]
    intro member listed
    rw [isSafeStatePath_singleton]
    exact sound.safe member listed
  have none : (root.filter fun member => isSafeStatePath [member.1] = false) = [] := by
    rw [List.filter_eq_nil_iff]
    intro member listed
    rw [isSafeStatePath_singleton, sound.safe member listed]
    decide
  simp only [asObjectState, finite, if_true, kept, none, List.map_nil]

end Sound

/-- Outputs that pass the completion check: one for every declared write, and no other. -/
structure Finalizes (stage : PipelineStage) (outputs : List FinalizedOutput) : Prop where
  covers : ∀ write ∈ stage.writes, ∃ output ∈ outputs, output.reference = write
  declared : ∀ output ∈ outputs, output.reference ∈ stage.writes

def finalizedBinding (stage : PipelineStage) (outputs : List FinalizedOutput) :
    FinalizedOutputBinding where
  stageId := stage.id
  writes := stage.writes
  outputs := outputs
  validationValid := true

def merge (base : Unknown) (stage : PipelineStage) (outputs : List FinalizedOutput) : Unknown :=
  .json (buildCanonicalConditionState base [finalizedBinding stage outputs]).state

abbrev Completion := PipelineStage × List FinalizedOutput

def merged (base : Unknown) (first second : Completion) : JsonValue :=
  (buildCanonicalConditionState (merge base first.1 first.2)
    [finalizedBinding second.1 second.2]).state

/-- The value a write hands over, when it is merged without an error. -/
def accepted? (outputs : List FinalizedOutput) (built : Materialized) (write : String) :
    Option (List String × JsonValue) :=
  match byReference outputs write with
  | some ⟨_, .value, .json value⟩ =>
    if (applyWrite outputs built write).errors = built.errors then some (splitDots write, value)
    else none
  | _ => none

def acceptedValues (outputs : List FinalizedOutput) :
    Materialized → List String → List (List String × JsonValue)
  | _, [] => []
  | built, write :: writes =>
    (accepted? outputs built write).toList ++
      acceptedValues outputs (applyWrite outputs built write) writes

/-- Every value accepted for either stage stands at its path in the end. -/
def KeepsAccepted (base : Unknown) (first second : Completion) : Prop :=
  ∀ entry ∈ acceptedValues first.2 (asObjectState base) first.1.writes ++
      acceptedValues second.2 (asObjectState (merge base first.1 first.2)) second.1.writes,
    valueAt (merged base first second) entry.1 = some entry.2

/-- The order in which two stages complete does not matter. -/
def OrderIndependent (left right : PipelineStage) : Prop :=
  ∀ base leftOutputs rightOutputs, Finalizes left leftOutputs → Finalizes right rightOutputs →
    view (merged base (left, leftOutputs) (right, rightOutputs)) =
        view (merged base (right, rightOutputs) (left, leftOutputs)) ∧
      KeepsAccepted base (left, leftOutputs) (right, rightOutputs) ∧
      KeepsAccepted base (right, rightOutputs) (left, leftOutputs)

/-- No safe reference is a dotted prefix of another. -/
def PrefixFree (references : List String) : Prop :=
  ∀ p ∈ references, ∀ q ∈ references, isSafeStatePath (splitDots p) = true →
    isSafeStatePath (splitDots q) = true → splitDots p <+: splitDots q → p = q

def entries (completion : Completion) : List (List String × JsonValue) :=
  completion.1.writes.filterMap (contribution? completion.2)

section Completions

variable {base : Unknown} {first second completion : Completion}
variable {entry : List String × JsonValue}

theorem mem_entries (member : entry ∈ entries completion) :
    ∃ write ∈ completion.1.writes, contribution? completion.2 write = some entry :=
  List.mem_filterMap.mp member

theorem entries_safe (member : entry ∈ entries completion) : isSafeStatePath entry.1 = true := by
  obtain ⟨write, _, found⟩ := mem_entries member
  exact (contribution?_eq_some.mp found).2.1

theorem entries_json (member : entry ∈ entries completion) : isJsonValue entry.2 = true := by
  obtain ⟨write, _, found⟩ := mem_entries member
  exact (writeOf_eq_some (contribution?_eq_some.mp found).2.2).2.1

theorem ne_nil_of_safe {path : List String} (safe : isSafeStatePath path = true) : path ≠ [] := by
  rintro rfl
  cases safe

theorem applyBinding_root (built : Materialized) (completion : Completion) :
    (applyBinding built (finalizedBinding completion.1 completion.2)).root =
      (entries completion).foldl put built.root := applyWrites_root completion.1.writes

theorem merge_eq (base : Unknown) (completion : Completion) :
    merge base completion.1 completion.2 =
      .json (.object ((entries completion).foldl put (asObjectState base).root)) :=
  congrArg (fun root => Unknown.json (.object root))
    (applyBinding_root (asObjectState base) completion)

theorem asObjectState_merge (base : Unknown) (completion : Completion) :
    asObjectState (merge base completion.1 completion.2) =
      ⟨(entries completion).foldl put (asObjectState base).root, []⟩ := by
  rw [merge_eq]
  exact asObjectState_of_sound ((sound_asObjectState base).foldl_put
    (fun _ member => entries_safe member) fun _ member => entries_json member)

theorem merged_eq (base : Unknown) (first second : Completion) :
    merged base first second =
      .object ((entries first ++ entries second).foldl put (asObjectState base).root) := by
  have root := applyBinding_root (asObjectState (merge base first.1 first.2)) second
  rw [asObjectState_merge] at root
  rw [List.foldl_append]
  exact (congrArg JsonValue.object
    (congrArg Materialized.root
      (congrArg (applyBinding · _) (asObjectState_merge base first)))).trans
      (congrArg JsonValue.object root)

end Completions

section Accepted

variable {outputs : List FinalizedOutput} {built : Materialized} {write : String}
variable {entry : List String × JsonValue}

theorem report_errors (path : String) (code : CanonicalStateCode) (message : String) :
    (built.report path code message).errors ≠ built.errors := by
  intro same
  simp [Materialized.report] at same

theorem accepted?_eq_some :
    accepted? outputs built write = some entry ↔
      contribution? outputs write = some entry ∧
        ∃ root, place built.root [] entry.1 entry.2 = .ok root := by
  rcases applyWrite_cases outputs built write with
    ⟨value, made, same⟩ | ⟨none, refused⟩
  · obtain ⟨_, _, ⟨reference, kind, given⟩, located, rfl, rfl⟩ := writeOf_eq_some made
    unfold accepted? contribution?
    rw [located, made, same, materializePath]
    by_cases safe : isSafeStatePath (splitDots write) = true
    · simp only [safe, if_true, Bool.true_eq_false, if_false, Option.some.injEq]
      cases placed : place built.root [] (splitDots write) value with
      | error conflict =>
        simp only [report_errors, if_false, reduceCtorEq, false_iff]
        rintro ⟨rfl, root, done⟩
        rw [placed] at done
        cases done
      | ok root =>
        simp only [if_true, Option.some.injEq]
        constructor
        · rintro rfl
          exact ⟨rfl, root, placed⟩
        · exact fun found => found.1
    · simp only [safe, if_true, report_errors, if_false, reduceCtorEq, false_and]
  · have uncontributed : contribution? outputs write = Option.none := by
      rw [contribution?, none]
    have rejected : accepted? outputs built write = Option.none := by
      unfold accepted?
      rcases refused with ⟨path, code, message, same⟩ | ⟨_, free⟩
      · rw [same]
        split
        · exact if_neg (report_errors _ _ _)
        · rfl
      · split
        · rename_i located
          exact absurd rfl (free _ located)
        · rfl
    rw [rejected, uncontributed]
    simp only [reduceCtorEq, false_and]

theorem mem_acceptedValues {writes : List String}
    (member : entry ∈ acceptedValues outputs built writes) :
    ∃ earlier later, writes.filterMap (contribution? outputs) = earlier ++ entry :: later ∧
      ∃ root, place (earlier.foldl put built.root) [] entry.1 entry.2 = .ok root := by
  induction writes generalizing built with
  | nil => cases member
  | cons write writes ih =>
    rw [acceptedValues, List.mem_append, Option.mem_toList] at member
    rw [List.filterMap_cons]
    rcases member with here | later
    · obtain ⟨found, root, placed⟩ := accepted?_eq_some.mp here
      rw [found]
      exact ⟨[], _, rfl, root, placed⟩
    · obtain ⟨earlier, rest, split, root, placed⟩ := ih later
      rw [applyWrite_root] at placed
      cases found : contribution? outputs write with
      | none =>
        rw [found] at placed
        exact ⟨earlier, rest, split, root, placed⟩
      | some first =>
        rw [found] at placed
        exact ⟨first :: earlier, rest, congrArg (List.cons first) split, root, placed⟩

end Accepted

section Positive

variable {base : Unknown} {first second : Completion}

def Apart (first second : Completion) : Prop :=
  ∀ left ∈ entries first ++ entries second, ∀ right ∈ entries first ++ entries second,
    left = right ∨ Incomparable left.1 right.1

theorem Apart.symm (apart : Apart first second) : Apart second first := by
  intro left hleft right hright
  rw [List.mem_append, or_comm, ← List.mem_append] at hleft hright
  exact apart left hleft right hright

theorem entries_ne_nil {entry : List String × JsonValue}
    (member : entry ∈ entries first ++ entries second) : entry.1 ≠ [] := by
  rcases List.mem_append.mp member with here | there
  · exact ne_nil_of_safe (entries_safe here)
  · exact ne_nil_of_safe (entries_safe there)

theorem view_merged_comm (apart : Apart first second) :
    view (merged base first second) = view (merged base second first) := by
  rw [merged_eq, merged_eq, view_foldl_put fun entry member => entries_ne_nil member,
    view_foldl_put fun entry member => entries_ne_nil member]
  refine foldl_write_perm (List.perm_append_comm.map shown) ?_ _
  intro left hleft right hright
  obtain ⟨left, memberLeft, rfl⟩ := List.mem_map.mp hleft
  obtain ⟨right, memberRight, rfl⟩ := List.mem_map.mp hright
  exact (apart left memberLeft right memberRight).imp_left (congrArg shown)

theorem kept_after (apart : Apart first second) (earlier later : List (List String × JsonValue))
    {entry : List String × JsonValue} {root placedRoot : Members}
    (split : entries first ++ entries second = earlier ++ entry :: later)
    (placed : place (earlier.foldl put root) [] entry.1 entry.2 = .ok placedRoot) :
    valueAt (.object ((entries first ++ entries second).foldl put root)) entry.1 =
      some entry.2 := by
  have members : ∀ other ∈ entry :: later, other ∈ entries first ++ entries second := by
    intro other member
    rw [split]
    exact List.mem_append_right earlier member
  have here := members entry List.mem_cons_self
  have present : valueAt (.object (put (earlier.foldl put root) entry)) entry.1 = some entry.2 := by
    have done : put (earlier.foldl put root) entry = placedRoot := by rw [put, placed]
    rw [done, (valueAt_place (entries_ne_nil here) placed entry.1).1 (List.prefix_refl _),
      List.drop_length]
    rfl
  rw [split, List.foldl_append]
  apply valueAt_foldl_put _ _ present
  · intro other member
    exact apart other (members other (List.mem_cons_of_mem entry member)) entry here
  · intro other member
    exact entries_ne_nil (members other (List.mem_cons_of_mem entry member))

theorem keepsAccepted_of_apart (apart : Apart first second) : KeepsAccepted base first second := by
  intro entry member
  rw [merged_eq]
  rcases List.mem_append.mp member with former | latter
  · obtain ⟨earlier, later, split, root, placed⟩ := mem_acceptedValues former
    refine kept_after apart earlier (later ++ entries second) ?_ placed
    rw [entries, split, List.append_assoc, List.cons_append]
  · obtain ⟨earlier, later, split, root, placed⟩ := mem_acceptedValues latter
    rw [asObjectState_merge, ← List.foldl_append] at placed
    refine kept_after apart (entries first ++ earlier) later ?_ placed
    rw [List.append_assoc, ← split]
    rfl

end Positive

/-- An empty object at the one reference, null at the other, and nothing else. -/
def probe (p q write : String) : FinalizedOutput :=
  if write = p then ⟨write, .value, .json (.object [])⟩
  else if write = q then ⟨write, .value, .json .null⟩
  else ⟨write, .artifact, .undefined⟩

def probeOutputs (p q : String) (stage : PipelineStage) : List FinalizedOutput :=
  stage.writes.map (probe p q)

section Probe

variable {p q write : String} {stage : PipelineStage}

theorem probe_reference (p q write : String) : (probe p q write).reference = write := by
  unfold probe
  split
  · rfl
  · split <;> rfl

theorem probe_finalizes (p q : String) (stage : PipelineStage) :
    Finalizes stage (probeOutputs p q stage) := by
  constructor
  · intro write member
    exact ⟨probe p q write, List.mem_map_of_mem member, probe_reference p q write⟩
  · intro output member
    obtain ⟨write, listed, rfl⟩ := List.mem_map.mp member
    rwa [probe_reference]

theorem byReference_probe (member : write ∈ stage.writes) :
    byReference (probeOutputs p q stage) write = some (probe p q write) := by
  unfold byReference
  cases found : (probeOutputs p q stage).reverse.find? fun output => output.reference = write with
  | none =>
    have absent := List.find?_eq_none.mp found (probe p q write)
      (List.mem_reverse.mpr (List.mem_map_of_mem member))
    simp [probe_reference] at absent
  | some output =>
    have named : output.reference = write := by simpa using List.find?_some found
    obtain ⟨other, _, rfl⟩ :=
      List.mem_map.mp (List.mem_reverse.mp (List.mem_of_find?_eq_some found))
    rw [probe_reference] at named
    rw [named]

def probeEntries (p q : String) : List (List String × JsonValue) :=
  [(splitDots p, .object []), (splitDots q, .null)]

theorem contribution?_probe_left (safe : isSafeStatePath (splitDots p) = true)
    (member : p ∈ stage.writes) :
    contribution? (probeOutputs p q stage) p = some (splitDots p, .object []) := by
  refine contribution?_eq_some.mpr ⟨rfl, safe, ?_⟩
  rw [writeOf, byReference_probe member, probe, if_pos rfl]
  rfl

theorem contribution?_probe_right (different : p ≠ q) (safe : isSafeStatePath (splitDots q) = true)
    (member : q ∈ stage.writes) :
    contribution? (probeOutputs p q stage) q = some (splitDots q, .null) := by
  refine contribution?_eq_some.mpr ⟨rfl, safe, ?_⟩
  rw [writeOf, byReference_probe member, probe, if_neg different.symm, if_pos rfl]
  rfl

theorem contribution?_probe {entry : List String × JsonValue} (member : write ∈ stage.writes)
    (found : contribution? (probeOutputs p q stage) write = some entry) :
    entry ∈ probeEntries p q := by
  obtain ⟨path, _, made⟩ := contribution?_eq_some.mp found
  obtain ⟨_, _, output, located, kind, value⟩ := writeOf_eq_some made
  rw [byReference_probe member] at located
  obtain ⟨segments, held⟩ := entry
  cases located
  unfold probe at kind value
  split at value
  · rename_i same
    cases value
    rw [show segments = splitDots p from same ▸ path]
    exact List.mem_cons_self
  · rename_i other
    rw [if_neg other] at kind
    split at value
    · rename_i same
      cases value
      rw [show segments = splitDots q from same ▸ path]
      exact List.mem_cons_of_mem _ List.mem_cons_self
    · rename_i neither
      rw [if_neg neither] at kind
      cases kind

end Probe

section Lost

variable {p q : String} {stage left right : PipelineStage} {root : Members}

theorem not_blocked_put (safe : isSafeStatePath (splitDots p) = true)
    (safe' : isSafeStatePath (splitDots q) = true)
    {entry : List String × JsonValue} (member : entry ∈ probeEntries p q)
    (free : ¬ Blocked (view (.object root)) (splitDots q)) :
    ¬ Blocked (view (.object (put root entry))) (splitDots q) := by
  have nonempty : entry.1 ≠ [] := by
    rcases List.mem_cons.mp member with rfl | rest
    · exact ne_nil_of_safe safe
    · rw [List.mem_singleton.mp rest]
      exact ne_nil_of_safe safe'
  rw [view_put nonempty]
  by_cases obstacle : Blocked (view (.object root)) (shown entry).1
  · rwa [write_blocked obstacle]
  rw [write_free obstacle]
  rintro ⟨above, leaf, inner, reaches, different, held⟩
  by_cases below : (shown entry).1 <+: above
  · rw [overlay_below below] at held
    rcases List.mem_cons.mp member with rfl | rest
    · cases rest : above.drop (shown (splitDots p, JsonValue.object [])).1.length with
      | nil =>
        rw [rest] at held
        cases held
      | cons segment tail =>
        rw [rest] at held
        cases held
    · rw [List.mem_singleton.mp rest] at below
      exact different (reaches.eq_of_length_le below.length_le)
  · by_cases upper : above <+: (shown entry).1
    · rw [overlay_above upper below] at held
      cases held
    · rw [overlay_beside ⟨below, upper⟩] at held
      exact free ⟨above, leaf, inner, reaches, different, held⟩

theorem blocked_longer {view : View String JsonValue} {path longer : List String}
    (extends_ : path <+: longer) (blocked : Blocked view path) : Blocked view longer := by
  obtain ⟨above, leaf, inner, reaches, different, held⟩ := blocked
  refine ⟨above, leaf, inner, reaches.trans extends_, ?_, held⟩
  rintro rfl
  exact different (reaches.eq_of_length_le extends_.length_le)

theorem not_blocked_foldl_put (safe : isSafeStatePath (splitDots p) = true)
    (safe' : isSafeStatePath (splitDots q) = true) {entries : List (List String × JsonValue)}
    (members : ∀ entry ∈ entries, entry ∈ probeEntries p q)
    (free : ¬ Blocked (view (.object root)) (splitDots q)) :
    ¬ Blocked (view (.object (entries.foldl put root))) (splitDots q) := by
  induction entries generalizing root with
  | nil => exact free
  | cons entry entries ih =>
    exact ih (fun other member => members other (List.mem_cons_of_mem entry member))
      (not_blocked_put safe safe' (members entry List.mem_cons_self) free)

theorem probe_accepted (safe : isSafeStatePath (splitDots p) = true)
    (safe' : isSafeStatePath (splitDots q) = true) (shorter : splitDots p <+: splitDots q)
    {built : Materialized} (free : ¬ Blocked (view (.object built.root)) (splitDots q))
    {writes : List String} (declared : ∀ write ∈ writes, write ∈ stage.writes)
    {entry : List String × JsonValue} {write : String} (member : write ∈ writes)
    (found : contribution? (probeOutputs p q stage) write = some entry) :
    entry ∈ acceptedValues (probeOutputs p q stage) built writes := by
  induction writes generalizing built with
  | nil => cases member
  | cons first writes ih =>
    rw [acceptedValues, List.mem_append, Option.mem_toList]
    rcases List.mem_cons.mp member with rfl | later
    · left
      have listed := contribution?_probe (declared write List.mem_cons_self) found
      have clear : ¬ Blocked (view (.object built.root)) entry.1 := by
        rcases List.mem_cons.mp listed with rfl | rest
        · exact fun blocked => free (blocked_longer shorter blocked)
        · rw [List.mem_singleton.mp rest]
          exact free
      exact accepted?_eq_some.mpr ⟨found, exists_place [] entry.2 clear⟩
    · right
      refine ih ?_ (fun other listed => declared other (List.mem_cons_of_mem first listed)) later
      rw [applyWrite_root]
      cases made : contribution? (probeOutputs p q stage) first with
      | none => exact free
      | some other =>
        exact not_blocked_put safe safe'
          (contribution?_probe (declared first List.mem_cons_self) made) free

theorem prefixFree_of_orderIndependent (independent : OrderIndependent left right) :
    PrefixFree (left.writes ++ right.writes) := by
  intro p memberP q memberQ safe safe' shorter
  by_contra different
  let first : Completion := (left, probeOutputs p q left)
  let second : Completion := (right, probeOutputs p q right)
  obtain ⟨_, kept, _⟩ := independent .undefined _ _ (probe_finalizes p q left)
    (probe_finalizes p q right)
  have start : ¬ Blocked (view (.object (asObjectState .undefined).root)) (splitDots q) :=
    not_blocked_empty _
  have next : ¬ Blocked (view (.object (asObjectState (merge .undefined first.1 first.2)).root))
      (splitDots q) := by
    rw [asObjectState_merge]
    refine not_blocked_foldl_put safe safe' ?_ start
    intro entry member
    obtain ⟨write, listed, found⟩ := mem_entries member
    exact contribution?_probe listed found
  have stands : ∀ {write : String} {entry : List String × JsonValue},
      write ∈ left.writes ++ right.writes →
      (∀ stage : PipelineStage, write ∈ stage.writes →
        contribution? (probeOutputs p q stage) write = some entry) →
      valueAt (merged .undefined first second) entry.1 = some entry.2 := by
    intro write entry listed found
    apply kept
    rcases List.mem_append.mp listed with here | there
    · exact List.mem_append_left _
        (probe_accepted safe safe' shorter start (fun _ => id) here (found left here))
    · exact List.mem_append_right _
        (probe_accepted safe safe' shorter next (fun _ => id) there (found right there))
  have upper := stands memberP fun stage listed => contribution?_probe_left safe listed
  have lower := stands memberQ fun stage listed => contribution?_probe_right different safe' listed
  obtain ⟨tail, extended⟩ := shorter
  rw [← extended, valueAt_append, upper] at lower
  cases tail with
  | nil =>
    rw [List.append_nil] at extended
    exact different (splitDots_inj extended)
  | cons segment rest => cases lower

end Lost

section Unordered

variable {normalized : NormalizedPipeline} {left right : StageDeclaration}

theorem apart_of_prefixFree (accepted : Accepted normalized)
    (memberLeft : left ∈ normalized.declared.stages)
    (memberRight : right ∈ normalized.declared.stages) (different : left.id ≠ right.id)
    (unordered : Unordered normalized.declared left.id right.id)
    (free : PrefixFree (left.writes ++ right.writes))
    (leftOutputs rightOutputs : List FinalizedOutput) :
    Apart (left.toPipelineStage, leftOutputs) (right.toPipelineStage, rightOutputs) := by
  have disjoint : ∀ {write : String}, write ∈ left.writes → write ∉ right.writes :=
    fun here there => accepted.ordered memberLeft memberRight different here there unordered
  intro first hfirst second hsecond
  -- A common reference belongs to one of the two stages, whose outputs fix the entry.
  have located : ∀ {entry : List String × JsonValue},
      entry ∈ entries (left.toPipelineStage, leftOutputs) ++
        entries (right.toPipelineStage, rightOutputs) →
      ∃ write ∈ left.writes ++ right.writes, entry.1 = splitDots write ∧
        isSafeStatePath (splitDots write) = true ∧
        (write ∈ left.writes ∧ contribution? leftOutputs write = some entry ∨
          write ∈ right.writes ∧ contribution? rightOutputs write = some entry) := by
    intro entry member
    rcases List.mem_append.mp member with here | there
    · obtain ⟨write, listed, found⟩ := mem_entries here
      obtain ⟨path, safe, _⟩ := contribution?_eq_some.mp found
      exact ⟨write, List.mem_append_left _ listed, path, path ▸ safe, Or.inl ⟨listed, found⟩⟩
    · obtain ⟨write, listed, found⟩ := mem_entries there
      obtain ⟨path, safe, _⟩ := contribution?_eq_some.mp found
      exact ⟨write, List.mem_append_right _ listed, path, path ▸ safe, Or.inr ⟨listed, found⟩⟩
  obtain ⟨write, listed, path, safe, origin⟩ := located hfirst
  obtain ⟨write', listed', path', safe', origin'⟩ := located hsecond
  by_cases same : write = write'
  · subst same
    left
    rcases origin with ⟨here, found⟩ | ⟨there, found⟩ <;>
      rcases origin' with ⟨here', found'⟩ | ⟨there', found'⟩
    · rw [found] at found'
      exact Option.some.inj found'
    · exact absurd there' (disjoint here)
    · exact absurd there (disjoint here')
    · rw [found] at found'
      exact Option.some.inj found'
  · right
    rw [path, path']
    exact ⟨fun shorter => same (free write listed write' listed' safe safe' shorter),
      fun shorter => same (free write' listed' write listed safe' safe shorter).symm⟩

/-- Two unordered stages of an accepted graph can complete in either order exactly when none of
their safe writes lies below another. -/
theorem order_independent_iff (accepted : Accepted normalized)
    (memberLeft : left ∈ normalized.declared.stages)
    (memberRight : right ∈ normalized.declared.stages) (different : left.id ≠ right.id)
    (unordered : Unordered normalized.declared left.id right.id) :
    OrderIndependent left.toPipelineStage right.toPipelineStage ↔
      PrefixFree (left.writes ++ right.writes) := by
  constructor
  · exact prefixFree_of_orderIndependent
  · intro free base leftOutputs rightOutputs _ _
    have apart := apart_of_prefixFree accepted memberLeft memberRight different unordered free
      leftOutputs rightOutputs
    exact ⟨view_merged_comm apart, keepsAccepted_of_apart apart, keepsAccepted_of_apart apart.symm⟩

end Unordered

def draftStage (id : String) (writes : List String) : StageDeclaration where
  id := id
  type := .agent
  mode := .autonomous
  optional := false
  writes := writes
  profile := some "drafter"

def sideBySide (left right : StageDeclaration) : NormalizedPipeline where
  declared :=
    { mode := .autonomous
      stages := [left, right]
      edges := [] }
  stagePointers := fun _ => none
  edgePointers := []

theorem unordered_sideBySide (left right : StageDeclaration) (first second : String) :
    Unordered (sideBySide left right).declared first second := by
  have none : ∀ {first second : String},
      ¬ Relation.TransGen (Precedes (sideBySide left right).declared) first second := by
    intro first second path
    cases path with
    | single edge => exact absurd edge.choose_spec.1 List.not_mem_nil
    | tail _ edge => exact absurd edge.choose_spec.1 List.not_mem_nil
  exact ⟨none, none⟩

def designStage : StageDeclaration := draftStage "design" ["artifacts.design"]

def notesStage : StageDeclaration := draftStage "notes" ["artifacts.notes"]

def selectStage : StageDeclaration := draftStage "select" ["artifacts.design.selected"]

theorem order_independent_iff_sample :
    OrderIndependent designStage.toPipelineStage notesStage.toPipelineStage := by
  have accepted : Accepted (sideBySide designStage notesStage) := ⟨none, by decide +kernel⟩
  refine (order_independent_iff accepted List.mem_cons_self
    (List.mem_cons_of_mem _ List.mem_cons_self) (by decide)
    (unordered_sideBySide _ _ _ _)).mpr ?_
  unfold PrefixFree
  decide +kernel

theorem order_dependent :
    ¬ ∀ normalized, Accepted normalized → ∀ left ∈ normalized.declared.stages,
      ∀ right ∈ normalized.declared.stages, left.id ≠ right.id →
        Unordered normalized.declared left.id right.id →
          OrderIndependent left.toPipelineStage right.toPipelineStage := by
  intro claim
  have accepted : Accepted (sideBySide designStage selectStage) := ⟨none, by decide +kernel⟩
  have independent := claim _ accepted designStage List.mem_cons_self selectStage
    (List.mem_cons_of_mem _ List.mem_cons_self) (by decide) (unordered_sideBySide _ _ _ _)
  have free := prefixFree_of_orderIndependent independent
  revert free
  unfold PrefixFree
  decide +kernel

end Heniek.MergeOrder
