import Heniek.CanonicalState
import Heniek.CharacterClass

/-!
The references that the schema of a stage admits, and the paths that the canonical
state accepts. The pattern lets a segment hold dots and any word; a path must have no
empty segment and none that names a prototype.
-/

namespace Heniek.StateReferences
open CharacterClass RegularExpression CanonicalState GraphValidation

def lowerCase : List Char := "abcdefghijklmnopqrstuvwxyz".toList

def upperCase : List Char := "ABCDEFGHIJKLMNOPQRSTUVWXYZ".toList

def digits : List Char := "0123456789".toList

def headTail : List Char := lowerCase ++ digits ++ ['_']

def alphanumeric : List Char := lowerCase ++ upperCase ++ digits

def segmentTail : List Char := alphanumeric ++ ['.', '_', '-']

/-- `\\.[a-zA-Z0-9][a-zA-Z0-9._-]*` -/
def segmentPattern : RegularExpression Char :=
  RegularExpression.char '.' * oneOf alphanumeric * (oneOf segmentTail).star

/-- `^[a-z][a-z0-9_]*(?:\\.[a-zA-Z0-9][a-zA-Z0-9._-]*)+$` -/
def referencePattern : RegularExpression Char :=
  oneOf lowerCase * (oneOf headTail).star * (segmentPattern * segmentPattern.star)

def admitsReference (reference : String) : Bool :=
  decide (1 ≤ reference.length) && referencePattern.rmatch reference.toList

def AdmitsWrites (declared : GraphDeclaration) : Prop :=
  ∀ stage ∈ declared.stages, ∀ write ∈ stage.writes, admitsReference write = true

/-- No two dots in a row, no dot at the end, and no segment that names a prototype. -/
structure SoundReference (reference : String) : Prop where
  undoubled : ¬ ['.', '.'] <:+: reference.toList
  unended : ¬ ['.'] <:+ reference.toList
  unreserved : ∀ segment ∈ splitDots reference, segment ∉ unsafeSegments

theorem mem_segmentPattern {text : List Char} (matched : text ∈ segmentPattern.matches') :
    ∀ c ∈ text, c ∈ segmentTail := by
  simp only [segmentPattern, matches'_mul, Language.mem_mul, mem_oneOf, mem_star_oneOf] at matched
  obtain ⟨_, ⟨dot, dotted, _, ⟨first, classed, rfl⟩, rfl⟩, rest, tail, rfl⟩ := matched
  obtain rfl : dot = ['.'] := dotted
  intro c member
  simp only [List.cons_append, List.nil_append, List.mem_cons] at member
  rcases member with rfl | rfl | later
  · simp [segmentTail]
  · exact List.mem_append_left _ classed
  · exact tail c later

variable {reference : String}

theorem admitsReference_shape (admitted : admitsReference reference = true) :
    ∃ head tail, reference.toList = head :: tail ∧ head ∈ lowerCase ∧
      ∀ c ∈ tail, c ∈ segmentTail := by
  rw [admitsReference, Bool.and_eq_true, rmatch_iff_matches'] at admitted
  have matched := admitted.2
  simp only [referencePattern, matches'_mul, Language.mem_mul, mem_oneOf, mem_star_oneOf] at matched
  obtain ⟨_, ⟨_, ⟨head, lower, rfl⟩, body, word, rfl⟩, _, ⟨group, grouped, more, moreover, rfl⟩,
    text⟩ := matched
  refine ⟨head, body ++ (group ++ more), by simp [← text], lower, ?_⟩
  intro c member
  rcases List.mem_append.mp member with inBody | inGroups
  · have subset : headTail ⊆ segmentTail := by
      intro c listed
      rcases List.mem_append.mp listed with classed | underscore
      · refine List.mem_append_left _ ?_
        rcases List.mem_append.mp classed with lower | digit
        · exact List.mem_append_left _ (List.mem_append_left _ lower)
        · exact List.mem_append_right _ digit
      · rw [List.mem_singleton.mp underscore]
        exact List.mem_append_right _ (List.mem_cons_of_mem _ List.mem_cons_self)
    exact subset (word c inBody)
  · rcases List.mem_append.mp inGroups with first | later
    · exact mem_segmentPattern grouped c first
    · exact mem_of_mem_star (fun _ => mem_segmentPattern) moreover c later

theorem no_null (admitted : admitsReference reference = true) : '\x00' ∉ reference.toList := by
  obtain ⟨head, tail, text, lower, classed⟩ := admitsReference_shape admitted
  rw [text]
  intro member
  have excluded : '\x00' ∉ lowerCase ∧ '\x00' ∉ segmentTail := by decide
  rcases List.mem_cons.mp member with rfl | later
  · exact excluded.1 lower
  · exact excluded.2 (classed _ later)

theorem empty_segment_iff (admitted : admitsReference reference = true) :
    "" ∈ splitDots reference ↔ ['.'] <:+ reference.toList ∨ ['.', '.'] <:+: reference.toList := by
  obtain ⟨head, tail, text, lower, _⟩ := admitsReference_shape admitted
  have undotted : head ≠ '.' := by
    rintro rfl
    revert lower
    decide
  have listed : "" ∈ splitDots reference ↔ [] ∈ reference.toList.splitOn '.' := by
    simp [splitDots]
  rw [listed, nil_mem_splitOn, nil_mem_tail_splitOn, text]
  simp [Ne.symm undotted]

theorem safeSegment_iff {segment : String} (admitted : admitsReference reference = true)
    (listed : segment ∈ splitDots reference) :
    safeSegment segment = true ↔ segment ≠ "" ∧ segment ∉ unsafeSegments := by
  obtain ⟨chars, part, rfl⟩ := List.mem_map.mp listed
  have inside : ∀ c ∈ chars, c ∈ reference.toList ∧ c ≠ '.' := fun c => mem_of_mem_segment part
  have dotless : '.' ∉ chars := fun member => (inside '.' member).2 rfl
  have nullless : '\x00' ∉ chars := fun member => no_null admitted (inside _ member).1
  have single : String.ofList chars ≠ "." := by
    intro same
    exact dotless (by rw [← String.toList_ofList (l := chars), same]; decide)
  have double : String.ofList chars ≠ ".." := by
    intro same
    exact dotless (by rw [← String.toList_ofList (l := chars), same]; decide)
  simp [safeSegment, single, double, nullless]

theorem isSafeStatePath_iff (admitted : admitsReference reference = true) :
    isSafeStatePath (splitDots reference) = true ↔ SoundReference reference := by
  have some_segment : splitDots reference ≠ [] := by
    simp [splitDots]
  have safe : isSafeStatePath (splitDots reference) = true ↔
      "" ∉ splitDots reference ∧ ∀ segment ∈ splitDots reference, segment ∉ unsafeSegments := by
    simp only [isSafeStatePath, some_segment, ne_eq, not_false_eq_true, decide_true, Bool.true_and,
      List.all_eq_true]
    constructor
    · intro each
      refine ⟨fun blank => ?_, fun segment listed => ?_⟩
      · exact ((safeSegment_iff admitted blank).mp (each _ blank)).1 rfl
      · exact ((safeSegment_iff admitted listed).mp (each _ listed)).2
    · intro ⟨filled, unreserved⟩ segment listed
      refine (safeSegment_iff admitted listed).mpr ⟨?_, unreserved segment listed⟩
      rintro rfl
      exact filled listed
  rw [safe, empty_segment_iff admitted, not_or]
  exact ⟨fun ⟨⟨unended, undoubled⟩, unreserved⟩ => ⟨undoubled, unended, unreserved⟩,
    fun sound => ⟨⟨sound.unended, sound.undoubled⟩, sound.unreserved⟩⟩

/-- Whatever the stages have put out over whatever base state, no write is refused as unsafe. -/
def NeverRefused (declared : GraphDeclaration) : Prop :=
  ∀ baseState finalizedOutputs,
    (∀ binding ∈ finalizedOutputs, ∃ stage ∈ declared.stages,
      binding.stageId = stage.id ∧ binding.writes = stage.writes) →
    ∀ error ∈ (buildCanonicalConditionState baseState finalizedOutputs).errors,
      error.code = .unsafePath → error ∈ (asObjectState baseState).errors

section Errors

variable {built : Materialized} {error : CanonicalStateError}

theorem mem_report {path message : String} {code : CanonicalStateCode}
    (listed : error ∈ (built.report path code message).errors) :
    error ∈ built.errors ∨ error.code = code := by
  rcases List.mem_append.mp listed with old | new
  · exact Or.inl old
  · right
    rw [List.mem_singleton.mp new]

theorem unsafe_of_applyWrite {outputs : List FinalizedOutput} {write : String}
    (safe : isSafeStatePath (splitDots write) = true) (code : error.code = .unsafePath)
    (listed : error ∈ (applyWrite outputs built write).errors) : error ∈ built.errors := by
  have reported : ∀ {path message : String} {other : CanonicalStateCode}, other ≠ .unsafePath →
      error ∈ (built.report path other message).errors → error ∈ built.errors := by
    intro path message other different member
    exact (mem_report member).resolve_right fun same => different (same.symm.trans code)
  simp only [applyWrite, materializePath, safe, Bool.true_eq_false, if_false] at listed
  split at listed
  · exact listed
  · split at listed
    · exact listed
    · exact reported (by decide) listed
    · exact reported (by decide) listed
    · split at listed
      · split at listed
        · exact listed
        · exact reported (by decide) listed
      · exact reported (by decide) listed

theorem unsafe_of_writes {outputs : List FinalizedOutput} {writes : List String}
    (safe : ∀ write ∈ writes, isSafeStatePath (splitDots write) = true)
    (code : error.code = .unsafePath)
    (listed : error ∈ (writes.foldl (applyWrite outputs) built).errors) : error ∈ built.errors := by
  induction writes generalizing built with
  | nil => exact listed
  | cons write writes ih =>
    exact unsafe_of_applyWrite (safe write (by simp)) code
      (ih (fun other member => safe other (by simp [member])) listed)

theorem unsafe_of_bindings {bindings : List FinalizedOutputBinding}
    (safe : ∀ binding ∈ bindings, ∀ write ∈ binding.writes,
      isSafeStatePath (splitDots write) = true)
    (code : error.code = .unsafePath)
    (listed : error ∈ (bindings.foldl applyBinding built).errors) : error ∈ built.errors := by
  induction bindings generalizing built with
  | nil => exact listed
  | cons binding bindings ih =>
    have earlier := ih (fun other member => safe other (by simp [member])) listed
    rw [applyBinding] at earlier
    split_ifs at earlier
    · exact unsafe_of_writes (safe binding (by simp)) code earlier
    · exact earlier

theorem errors_applyWrite (outputs : List FinalizedOutput) (write : String) :
    built.errors ⊆ (applyWrite outputs built write).errors := by
  have grows : ∀ path code message, built.errors ⊆ (built.report path code message).errors :=
    fun _ _ _ => List.subset_append_left _ _
  simp only [applyWrite, materializePath]
  repeat' split
  all_goals first | exact grows _ _ _ | exact List.Subset.refl _

theorem errors_writes (outputs : List FinalizedOutput) (writes : List String) :
    built.errors ⊆ (writes.foldl (applyWrite outputs) built).errors := by
  induction writes generalizing built with
  | nil => exact List.Subset.refl _
  | cons write writes ih => exact List.Subset.trans (errors_applyWrite outputs write) ih

variable (built) in
theorem reported_of_unsafe {reference : String} {writes : List String}
    (declared : reference ∈ writes)
    (refused : isSafeStatePath (splitDots reference) = false) :
    ∃ error ∈ (writes.foldl (applyWrite [⟨reference, .value, .json .null⟩]) built).errors,
      error.code = .unsafePath := by
  obtain ⟨earlier, later, rfl⟩ := List.append_of_mem declared
  rw [List.foldl_append, List.foldl_cons]
  refine ⟨⟨joined (splitDots reference), .unsafePath,
    "rejected unsafe state path " ++ joined (splitDots reference)⟩, errors_writes _ later ?_, rfl⟩
  simp only [applyWrite, byReference, materializePath, isJsonValue, refused, List.reverse_singleton,
    List.find?_singleton, if_true, decide_true]
  exact List.mem_append_right _ (List.mem_singleton_self _)

end Errors

/-- For a graph whose writes are admitted, all of its writes are safe paths just when their
references are sound, and just then none is ever refused. -/
theorem references_agree_iff {declared : GraphDeclaration} (admitted : AdmitsWrites declared) :
    ((∀ stage ∈ declared.stages, ∀ write ∈ stage.writes,
        isSafeStatePath (splitDots write) = true) ↔
      ∀ stage ∈ declared.stages, ∀ write ∈ stage.writes, SoundReference write) ∧
    (NeverRefused declared ↔
      ∀ stage ∈ declared.stages, ∀ write ∈ stage.writes, SoundReference write) := by
  have safe_iff : ∀ stage ∈ declared.stages, ∀ write ∈ stage.writes,
      (isSafeStatePath (splitDots write) = true ↔ SoundReference write) :=
    fun stage member write listed => isSafeStatePath_iff (admitted stage member write listed)
  refine ⟨⟨?_, ?_⟩, ⟨?_, ?_⟩⟩
  · exact fun safe stage member write listed =>
      (safe_iff stage member write listed).mp (safe stage member write listed)
  · exact fun sound stage member write listed =>
      (safe_iff stage member write listed).mpr (sound stage member write listed)
  · intro kept stage member write listed
    rw [← safe_iff stage member write listed]
    by_contra refused
    obtain ⟨error, reported, code⟩ := reported_of_unsafe (asObjectState .undefined) listed
      (Bool.eq_false_of_not_eq_true refused)
    have known := kept .undefined [⟨stage.id, stage.writes, [⟨write, .value, .json .null⟩], true⟩]
      (by simpa using ⟨stage, member, rfl, rfl⟩) error reported code
    simp [asObjectState] at known
  · intro sound baseState finalizedOutputs bound error reported code
    refine unsafe_of_bindings ?_ code reported
    intro binding member write listed
    obtain ⟨stage, stage_mem, _, same⟩ := bound binding member
    rw [same] at listed
    exact (safe_iff stage stage_mem write listed).mpr (sound stage stage_mem write listed)

def writing (reference : String) : GraphDeclaration where
  mode := .autonomous
  stages :=
    [{ id := "design", type := .agent, mode := .autonomous, optional :=
      false, writes := [reference] }]
  edges := []

theorem references_agree_iff_selected :
    NeverRefused (writing "artifacts.a.b") := by
  have admitted : AdmitsWrites (writing "artifacts.a.b") := by
    simp only [AdmitsWrites, writing]
    decide +kernel
  refine (references_agree_iff admitted).2.mpr ?_
  simp only [writing, List.forall_mem_singleton]
  exact ⟨by decide +kernel, by decide +kernel, by decide +kernel⟩

/-- A doubled dot is admitted and refused. -/
theorem references_disagree :
    ¬ ∀ declared, AdmitsWrites declared →
      (∀ stage ∈ declared.stages, ∀ write ∈ stage.writes,
        isSafeStatePath (splitDots write) = true) ∧ NeverRefused declared := by
  intro agree
  have admitted : AdmitsWrites (writing "artifacts.a..b") := by
    simp only [AdmitsWrites, writing]
    decide +kernel
  have safe := (agree _ admitted).1
  revert safe
  decide +kernel

end Heniek.StateReferences
