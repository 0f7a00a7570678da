import Heniek.PathReads

/-!
What the canonical state shows of the outputs written into it. A build without
errors is a chain of writes; each write is read back whole below its reference
and leaves every path beside it as it was, an array's length included.
-/

namespace Heniek.MaterializedWrites
open CanonicalState ExpressionEvaluation GraphValidation PathOverlay PathReads

section Place

variable {members members' : Members} {value : JsonValue} {seen segments path : List String}

theorem readable_place (nonempty : segments ≠ [])
    (placed : place members seen segments value = .ok members') (rest : List String) :
    readable (.object members') (segments ++ rest) = readable value rest := by
  induction segments generalizing members members' seen with
  | nil => exact absurd rfl nonempty
  | cons segment more ih =>
    rw [List.cons_append, readable_object]
    cases more with
    | nil =>
      cases placed
      rw [property?_defineProperty, if_pos rfl]
      rfl
    | cons next more =>
      obtain ⟨old, inner, _, walked, rfl⟩ := place_cons_eq_ok placed
      rw [property?_defineProperty, if_pos rfl]
      exact ih nofun walked

theorem readable_place_beside (placed : place members seen segments value = .ok members')
    (apart : Incomparable segments path) :
    readable (.object members') path = readable (.object members) path := by
  induction segments generalizing members members' seen path with
  | nil => exact absurd List.nil_prefix apart.1
  | cons segment more ih =>
    cases path with
    | nil => exact absurd List.nil_prefix apart.2
    | cons key path =>
      rw [readable_object, readable_object]
      cases more with
      | nil =>
        cases placed
        have other : key ≠ segment := by
          rintro rfl
          exact apart.1 (List.cons_prefix_cons.mpr ⟨rfl, List.nil_prefix⟩)
        rw [property?_defineProperty, if_neg other]
      | cons next more =>
        obtain ⟨old, inner, entered, walked, rfl⟩ := place_cons_eq_ok placed
        rw [property?_defineProperty]
        by_cases same : key = segment
        · subst same
          have inside : Incomparable (next :: more) path := by
            constructor
            · exact fun under => apart.1 (List.cons_prefix_cons.mpr ⟨rfl, under⟩)
            · exact fun reaches => apart.2 (List.cons_prefix_cons.mpr ⟨rfl, reaches⟩)
          rw [if_pos rfl, Option.bind_some, ih walked inside]
          rcases entered with ⟨missing, rfl⟩ | present
          · have deeper : path ≠ [] := by
              rintro rfl
              exact inside.2 List.nil_prefix
            rw [missing, readable_empty deeper, Option.bind_none]
          · rw [present, Option.bind_some]
        · rw [if_neg same]

end Place

abbrev Writes := List (String × JsonValue)

/-- The writes go in one after the other, none of them refused. -/
inductive Written : (members : Members) → (writes : Writes) → (members' : Members) → Prop
  | nil (members : Members) : Written members [] members
  | cons {members members' members'' : Members} {reference : String} {value : JsonValue}
      {writes : Writes} (nonempty : splitDots reference ≠ [])
      (placed : place members [] (splitDots reference) value = .ok members')
      (rest : Written members' writes members'') :
      Written members ((reference, value) :: writes) members''

/-- No write of the list stands at, above or below the path. -/
def Untouched (writes : Writes) (path : List String) : Prop :=
  ∀ write ∈ writes, Incomparable (splitDots write.1) path

section Chain

variable {members members' members'' : Members} {first second later : Writes} {path : List String}

theorem Written.append (left : Written members first members')
    (right : Written members' second members'') : Written members (first ++ second) members'' := by
  induction left with
  | nil => exact right
  | cons nonempty placed _ ih => exact .cons nonempty placed (ih right)

theorem Written.split (written : Written members (first ++ second) members'') :
    ∃ members', Written members first members' ∧ Written members' second members'' := by
  induction first generalizing members with
  | nil => exact ⟨members, .nil members, written⟩
  | cons write first ih =>
    cases written with
    | cons nonempty placed rest =>
      obtain ⟨middle, left, right⟩ := ih rest
      exact ⟨middle, .cons nonempty placed left, right⟩

theorem readable_written (written : Written members later members')
    (untouched : Untouched later path) :
    readable (.object members') path = readable (.object members) path := by
  induction written with
  | nil => rfl
  | cons nonempty placed _ ih =>
    have rest := fun write listed => untouched write (List.mem_cons_of_mem _ listed)
    have beside := untouched _ List.mem_cons_self
    rw [ih rest, readable_place_beside placed beside]

end Chain

def bindingWrites (binding : FinalizedOutputBinding) : Writes :=
  if binding.validationValid then binding.writes.filterMap (writeOf binding.outputs) else []

/-- The value outputs of the declared writes of the valid bindings, in the order of the writes. -/
def valueWrites (bindings : List FinalizedOutputBinding) : Writes := bindings.flatMap bindingWrites

section Build

variable {built : Materialized}

theorem materializePath_sound {segments : List String} {value : JsonValue}
    (clean : (materializePath built segments value).errors = []) :
    built.errors = [] ∧ segments ≠ [] ∧
      place built.root [] segments value = .ok (materializePath built segments value).root := by
  rw [materializePath] at clean ⊢
  by_cases refused : isSafeStatePath segments = false
  · rw [if_pos refused] at clean
    simp [Materialized.report] at clean
  · have nonempty : segments ≠ [] := by
      rintro rfl
      exact refused (by simp [isSafeStatePath])
    rw [if_neg refused] at clean ⊢
    cases placed : place built.root [] segments value with
    | error conflict =>
      rw [placed] at clean
      simp [Materialized.report] at clean
    | ok root =>
      rw [placed] at clean
      exact ⟨clean, nonempty, rfl⟩

variable {outputs : List FinalizedOutput} {binding : FinalizedOutputBinding}
  {bindings : List FinalizedOutputBinding}

theorem applyWrite_sound {write : String} (clean : (applyWrite outputs built write).errors = []) :
    built.errors = [] ∧
      Written built.root (writeOf outputs write).toList (applyWrite outputs built write).root := by
  rcases applyWrite_cases outputs built write with
    ⟨value, made, same⟩ | ⟨none, ⟨path, code, message, same⟩ | ⟨same, _⟩⟩
  · rw [same] at clean ⊢
    obtain ⟨earlier, nonempty, placed⟩ := materializePath_sound clean
    rw [made]
    exact ⟨earlier, .cons nonempty placed (.nil _)⟩
  · rw [same] at clean
    simp [Materialized.report] at clean
  · rw [same] at clean ⊢
    rw [none]
    exact ⟨clean, .nil _⟩

theorem writeOf_of_clean {write : String} {output : FinalizedOutput}
    (clean : (applyWrite outputs built write).errors = [])
    (kept : byReference outputs write = some output) (carries : output.kind = .value) :
    ∃ value, output.value = .json value ∧ writeOf outputs write = some (write, value) := by
  rcases applyWrite_cases outputs built write with
    ⟨value, made, _⟩ | ⟨_, ⟨path, code, message, same⟩ | ⟨_, free⟩⟩
  · obtain ⟨_, _, other, located, _, held⟩ := writeOf_eq_some made
    cases kept.symm.trans located
    exact ⟨value, held, made⟩
  · rw [same] at clean
    simp [Materialized.report] at clean
  · exact absurd carries (free output kept)

theorem applyWrites_sound {writes : List String}
    (clean : (writes.foldl (applyWrite outputs) built).errors = []) :
    built.errors = [] ∧ Written built.root (writes.filterMap (writeOf outputs))
      (writes.foldl (applyWrite outputs) built).root := by
  induction writes generalizing built with
  | nil => exact ⟨clean, .nil _⟩
  | cons write writes ih =>
    obtain ⟨middle, rest⟩ := ih clean
    obtain ⟨earlier, written⟩ := applyWrite_sound middle
    refine ⟨earlier, ?_⟩
    have listed : (write :: writes).filterMap (writeOf outputs) =
        (writeOf outputs write).toList ++ writes.filterMap (writeOf outputs) := by
      rw [List.filterMap_cons]
      cases writeOf outputs write <;> rfl
    rw [listed]
    exact written.append rest

theorem exists_applyWrite {writes : List String} {write : String}
    (clean : (writes.foldl (applyWrite outputs) built).errors = []) (declared : write ∈ writes) :
    ∃ middle, (applyWrite outputs middle write).errors = [] := by
  induction writes generalizing built with
  | nil => simp at declared
  | cons first writes ih =>
    rcases List.mem_cons.mp declared with rfl | later
    · have remaining : (writes.foldl (applyWrite outputs) (applyWrite outputs built write)).errors =
          [] := clean
      exact ⟨built, (applyWrites_sound remaining).1⟩
    · exact ih clean later

theorem applyBinding_sound (clean : (applyBinding built binding).errors = []) : built.errors = [] ∧
      Written built.root (bindingWrites binding) (applyBinding built binding).root := by
  rw [applyBinding] at clean ⊢
  rw [bindingWrites]
  by_cases valid : binding.validationValid = true
  · rw [if_pos valid] at clean ⊢
    rw [if_pos valid]
    exact applyWrites_sound clean
  · rw [if_neg valid] at clean ⊢
    rw [if_neg valid]
    exact ⟨clean, .nil _⟩

theorem applyBindings_sound (clean : (bindings.foldl applyBinding built).errors = []) :
    built.errors = [] ∧
      Written built.root (valueWrites bindings) (bindings.foldl applyBinding built).root := by
  induction bindings generalizing built with
  | nil => exact ⟨clean, .nil _⟩
  | cons binding bindings ih =>
    obtain ⟨middle, rest⟩ := ih clean
    obtain ⟨earlier, written⟩ := applyBinding_sound middle
    exact ⟨earlier, written.append rest⟩

theorem exists_applyBinding (clean : (bindings.foldl applyBinding built).errors = [])
    (listed : binding ∈ bindings) : ∃ middle, (applyBinding middle binding).errors = [] := by
  induction bindings generalizing built with
  | nil => simp at listed
  | cons first bindings ih =>
    rcases List.mem_cons.mp listed with rfl | later
    · have remaining :
          (bindings.foldl applyBinding (applyBinding built binding)).errors = [] := clean
      exact ⟨built, (applyBindings_sound remaining).1⟩
    · exact ih clean later

theorem mem_valueWrites {write : String} {output : FinalizedOutput}
    (clean : (bindings.foldl applyBinding built).errors = []) (listed : binding ∈ bindings)
    (valid : binding.validationValid = true) (declared : write ∈ binding.writes)
    (kept : byReference binding.outputs write = some output) (carries : output.kind = .value) :
    ∃ value, output.value = .json value ∧ (write, value) ∈ valueWrites bindings := by
  obtain ⟨middle, applied⟩ := exists_applyBinding clean listed
  rw [applyBinding, if_pos valid] at applied
  obtain ⟨inner, written⟩ := exists_applyWrite applied declared
  obtain ⟨value, carried, made⟩ := writeOf_of_clean written kept carries
  refine ⟨value, carried, List.mem_flatMap.mpr ⟨binding, listed, ?_⟩⟩
  rw [bindingWrites, if_pos valid]
  exact List.mem_filterMap.mpr ⟨write, declared, made⟩

theorem applyBindings_filter (bindings : List FinalizedOutputBinding) :
    bindings.foldl applyBinding built =
      (bindings.filter fun binding => binding.validationValid).foldl applyBinding built := by
  induction bindings generalizing built with
  | nil => rfl
  | cons binding bindings ih =>
    by_cases valid : binding.validationValid = true
    · rw [List.filter_cons_of_pos valid, List.foldl_cons, List.foldl_cons, ih]
    · have skipped : applyBinding built binding = built := by rw [applyBinding, if_neg valid]
      rw [List.filter_cons_of_neg valid, List.foldl_cons, skipped, ih]

end Build

theorem asObjectState_object {members : Members}
    (clean : (asObjectState (.json (.object members))).errors = []) :
    (asObjectState (.json (.object members))).root = members := by
  unfold asObjectState at clean ⊢
  by_cases finite : isJsonValue (.object members) = true
  · simp only [if_pos finite] at clean ⊢
    have safe : ∀ member ∈ members, isSafeStatePath [member.1] = true := by
      intro member listed
      have none : (members.filter fun member => isSafeStatePath [member.1] = false) = [] :=
        List.map_eq_nil_iff.mp clean
      simpa using List.filter_eq_nil_iff.mp none member listed
    exact List.filter_eq_self.mpr safe
  · simp [finite] at clean

theorem readable_asObjectState {base : Unknown} (clean : (asObjectState base).errors = [])
    {path : List String} (nonempty : path ≠ []) (found : JsonValue) :
    readable (.object (asObjectState base).root) path = some found ↔
      ∃ value, base = .json value ∧ readable value path = some found := by
  cases base with
  | undefined =>
    rw [asObjectState, readable_empty nonempty]
    simp
  | foreign => simp [asObjectState] at clean
  | json value =>
    have read : ∀ members, readable (.object members) path = readable value path →
        (readable (.object members) path = some found ↔
          ∃ base, Unknown.json value = .json base ∧ readable base path = some found) := by
      intro members same
      rw [same]
      constructor
      · exact fun shown => ⟨value, rfl, shown⟩
      · rintro ⟨_, ⟨rfl⟩, shown⟩
        exact shown
    cases value with
    | null =>
      refine read [] ?_
      cases path with
      | nil => exact absurd rfl nonempty
      | cons => rfl
    | object members => exact read _ (by rw [asObjectState_object clean])
    | bool => simp [asObjectState] at clean
    | string => simp [asObjectState] at clean
    | number => simp [asObjectState] at clean
    | array => simp [asObjectState] at clean

/-- In a build without errors every kept value output of a declared write is written, and is read
wherever no later write touches it; the base is read wherever no write touches it; and the
bindings that did not validate contribute nothing. -/
theorem no_write_lost (base : Unknown) (outputs : List FinalizedOutputBinding)
    (clean : (buildCanonicalConditionState base outputs).errors = []) :
    (∀ binding ∈ outputs, binding.validationValid = true → ∀ write ∈ binding.writes,
      ∀ output, byReference binding.outputs write = some output → output.kind = .value →
      ∃ value, output.value = .json value ∧ (write, value) ∈ valueWrites outputs) ∧
    (∀ earlier reference value later,
      valueWrites outputs = earlier ++ (reference, value) :: later →
      ∀ rest, Untouched later (splitDots reference ++ rest) → ∀ found,
      (readPath (buildCanonicalConditionState base outputs).state [] (splitDots reference ++ rest) =
          .inl found ↔ readPath value [] rest = .inl found)) ∧
    (∀ path, (path ≠ [] ∨ ∃ members, base = .json (.object members)) →
      Untouched (valueWrites outputs) path → ∀ found,
      (readPath (buildCanonicalConditionState base outputs).state [] path = .inl found ↔
        ∃ value, base = .json value ∧ readPath value [] path = .inl found)) ∧
    buildCanonicalConditionState base outputs =
      buildCanonicalConditionState base
        (outputs.filter fun binding => binding.validationValid) := by
  obtain ⟨started, written⟩ := applyBindings_sound clean
  refine ⟨?_, ?_, ?_, ?_⟩
  · intro binding listed valid write declared output kept carries
    exact mem_valueWrites clean listed valid declared kept carries
  · intro earlier reference value later order rest untouched found
    rw [order] at written
    obtain ⟨first, _, remaining⟩ := written.split
    cases remaining with
    | cons nonempty placed after =>
      rw [readPath_eq_inl, readPath_eq_inl, buildCanonicalConditionState,
        readable_written after untouched, readable_place nonempty placed]
  · intro path proper untouched found
    simp only [readPath_eq_inl]
    rw [buildCanonicalConditionState, readable_written written untouched]
    rcases proper with nonempty | ⟨members, rfl⟩
    · exact readable_asObjectState started nonempty found
    · by_cases nonempty : path = []
      · rw [asObjectState_object started]
        simp
      · exact readable_asObjectState started nonempty found
  · rw [buildCanonicalConditionState, applyBindings_filter]
    rfl

def sampleBase : Unknown := .json (.object [("run", .object [("id", .number (.finite 7))])])

def sampleReport : JsonValue := .object [("score", .number (.finite 1)), ("files", .array [.null])]

def sampleOutputs : List FinalizedOutputBinding :=
  [⟨"review", ["out.report", "out.report.note"],
      [⟨"out.report", .value, .json sampleReport⟩, ⟨"out.report.note", .value, .json (.bool true)⟩],
      true⟩,
    ⟨"failed", ["run"], [⟨"run", .value, .json .null⟩], false⟩]

theorem no_write_lost_sample :
    readPath (buildCanonicalConditionState sampleBase sampleOutputs).state []
        ["out", "report", "files", "length"] = .inl (.number (.finite 1)) ∧
      readPath (buildCanonicalConditionState sampleBase sampleOutputs).state [] ["run", "id"] =
        .inl (.number (.finite 7)) := by
  obtain ⟨_, whole, beside, _⟩ := no_write_lost sampleBase sampleOutputs (by rfl)
  refine ⟨?_, ?_⟩
  · refine (whole [] "out.report" sampleReport [("out.report.note", .bool true)] rfl
      ["files", "length"] ?_ _).mpr (by simp [sampleReport, readPath])
    intro write listed
    rw [List.mem_singleton.mp listed]
    exact ⟨by decide +kernel, by decide +kernel⟩
  · refine (beside ["run", "id"] (.inl (List.cons_ne_nil _ _)) ?_ _).mpr
      ⟨_, rfl, by simp [readPath]⟩
    intro write listed
    have either : write.1 = "out.report" ∨ write.1 = "out.report.note" := by
      have refs : (valueWrites sampleOutputs).map Prod.fst =
          ["out.report", "out.report.note"] := rfl
      simpa [refs] using List.mem_map_of_mem listed (f := Prod.fst)
    rcases either with named | named <;> rw [named] <;> exact ⟨by decide +kernel, by decide +kernel⟩

/-- A later write nested below an output changes what is read at the output's own path. -/
theorem nested_write_changes_value :
    ¬ ∀ (base : Unknown) (outputs : List FinalizedOutputBinding),
      (buildCanonicalConditionState base outputs).errors = [] →
      ∀ earlier reference value later,
      valueWrites outputs = earlier ++ (reference, value) :: later →
      (∀ write ∈ later, ¬ splitDots write.1 <+: splitDots reference) →
      readPath (buildCanonicalConditionState base outputs).state [] (splitDots reference) =
        .inl value := by
  intro claimed
  have wrong := claimed .undefined sampleOutputs (by rfl) [] "out.report" sampleReport
    [("out.report.note", .bool true)] rfl (by
      intro write listed
      rw [List.mem_singleton.mp listed]
      decide +kernel)
  have grown : (readPath (buildCanonicalConditionState .undefined sampleOutputs).state []
      (splitDots "out.report")) = .inl (.object [("score", .number (.finite 1)),
        ("files", .array [.null]), ("note", .bool true)]) := by rfl
  rw [grown] at wrong
  simp [sampleReport] at wrong

end Heniek.MaterializedWrites
