import Heniek.ConfigurationProvenance

/-!
What a protected pointer is left with. The winner of a chain is as strict as every
comparable entry of it under the rule that chose it, so the setting is kept where the
merged document has a leaf there; elsewhere only an object that is put back can keep it.
-/

namespace Heniek.ConfigurationStrictness
open ExpressionEvaluation CanonicalState ConfigurationLayers
open ConfigurationMerge ConfigurationLeaves ConfigurationFold ConfigurationWinners
open ConfigurationProvenance

section Strict

variable (policy : IndexedConfigurationPolicy) (documents : List SanitizedDocument)
variable (path : List String) (value : JsonValue)

def LimitStrictest : Prop :=
  ∀ strictest, policy.hardLimits (pathToPointer path) = some strictest →
    (∃ entry ∈ leafChain policy documents path,
      limitComparable policy (pathToPointer path) entry.value = true) →
    ∃ magnitude, hardLimitMagnitude value = some magnitude ∧
      ∀ other ∈ leafChain policy documents path, ∀ measure,
        hardLimitMagnitude other.value = some measure →
          stricterLimit strictest measure magnitude = false

def PrivacyStrictest : Prop :=
  ∀ strictestFirst, policy.privacy (pathToPointer path) = some strictestFirst →
    (∃ entry ∈ leafChain policy documents path,
      privacyComparable policy (pathToPointer path) entry.value = true) →
    ∃ rank, privacyRank strictestFirst value = some rank ∧
      ∀ other ∈ leafChain policy documents path, ∀ place,
        privacyRank strictestFirst other.value = some place → rank ≤ place

def Strict : Prop :=
  LimitStrictest policy documents path value ∧ PrivacyStrictest policy documents path value

/-- Some admitted document holds a value that a rule of the pointer can compare. -/
def Protected : Prop :=
  ∃ entry ∈ leafChain policy documents path,
    comparable policy (pathToPointer path) entry.value = true

/-- Where both rules compare, the strictest values of the privacy order are strictest as limits. -/
def Coherent : Prop :=
  ∀ entry ∈ leafChain policy documents path,
    (∃ entry ∈ leafChain policy documents path,
      privacyComparable policy (pathToPointer path) entry.value = true) →
    PrivacyStrictest policy documents path entry.value →
      LimitStrictest policy documents path entry.value

/-- Above the path an override that is not admitted covers an object that is put back, and
the object holds a strictest value at the path. -/
def Restored : Prop :=
  ∃ above rest document last value, path = above ++ rest ∧ rest ≠ [] ∧
    LeafOf documents above document ∧
    (∀ entry ∈ leafChain policy documents above,
      comparable policy (pathToPointer above) entry.value = false) ∧
    (leafChain policy documents above).getLast? = some last ∧
    valueAt last.value rest = some value ∧ Strict policy documents path value

/-- The last document that decides the path holds a scalar or an array there, on which the
rules agree, or a strictest value is put back with an object above the path. -/
def Kept : Prop :=
  (∃ document, LeafOf documents path document) ∧ Coherent policy documents path ∨
    Restored policy documents path

variable {policy documents path value}

def scalarMagnitude : JsonScalar → Option (WithTop ℚ)
  | .number value => value.finite?.map fun value => (value : WithTop ℚ)
  | .string text => durationMagnitude text.toList
  | _ => none

theorem finite_of_sameNumber {a b : JsonNumber} (same : sameNumber a b = true) :
    a.finite? = b.finite? := by
  cases a <;> cases b <;> simp_all [sameNumber]

theorem magnitude_of_sameScalar {value : JsonValue} {scalar : JsonScalar}
    (same : sameScalar value scalar = true) :
    hardLimitMagnitude value = scalarMagnitude scalar := by
  cases value with
  | null => cases scalar <;> first | rfl | cases same
  | bool flag => cases scalar <;> first | rfl | cases same
  | number n =>
    cases scalar with
    | number other => rw [hardLimitMagnitude, scalarMagnitude, finite_of_sameNumber same]
    | null => cases same
    | bool => cases same
    | string => cases same
  | string text =>
    cases scalar with
    | string other =>
      obtain rfl : text = other := of_decide_eq_true same
      rfl
    | null => cases same
    | bool => cases same
    | number => cases same
  | array => cases scalar <;> cases same
  | object => cases scalar <;> cases same

theorem magnitude_of_rank {strictestFirst : List JsonScalar} {a b : JsonValue} {rank : Nat}
    (first : privacyRank strictestFirst a = some rank)
    (second : privacyRank strictestFirst b = some rank) :
    hardLimitMagnitude a = hardLimitMagnitude b := by
  obtain ⟨inside, same, -⟩ := List.findIdx?_eq_some_iff_getElem.mp first
  obtain ⟨_, same', -⟩ := List.findIdx?_eq_some_iff_getElem.mp second
  rw [magnitude_of_sameScalar same, magnitude_of_sameScalar same']

theorem limitStrictest_congr {other : JsonValue}
    (same : hardLimitMagnitude value = hardLimitMagnitude other)
    (strictest : LimitStrictest policy documents path value) :
    LimitStrictest policy documents path other := by
  intro direction declared compared
  rw [← same]
  exact strictest direction declared compared

theorem comparable_split (guarded : Protected policy documents path) :
    (∃ entry ∈ leafChain policy documents path,
      limitComparable policy (pathToPointer path) entry.value = true) ∨
    ∃ entry ∈ leafChain policy documents path,
      privacyComparable policy (pathToPointer path) entry.value = true := by
  obtain ⟨entry, listed, fits⟩ := guarded
  exact (Bool.or_eq_true_iff.mp fits).imp (fun limited => ⟨entry, listed, limited⟩)
    fun ordered => ⟨entry, listed, ordered⟩

theorem scalar_of_strict (guarded : Protected policy documents path)
    (strict : Strict policy documents path value) : isPlainObject value = false := by
  rcases comparable_split guarded with ⟨entry, listed, limited⟩ | ⟨entry, listed, ordered⟩
  · obtain ⟨strictest, declared⟩ :=
      Option.isSome_iff_exists.mp (Bool.and_eq_true_iff.mp limited).1
    obtain ⟨magnitude, measured, -⟩ := strict.1 strictest declared ⟨entry, listed, limited⟩
    exact scalar_of_magnitude measured
  · obtain ⟨strictestFirst, declared, -⟩ := (Option.any_eq_true _ _).mp ordered
    obtain ⟨rank, ranked, -⟩ := strict.2 strictestFirst declared ⟨entry, listed, ordered⟩
    exact scalar_of_rank ranked

variable {winner : ConfigurationProvenanceEntry}

theorem privacyStrictest_winner (won : winnerAt policy documents path = some winner) :
    PrivacyStrictest policy documents path winner.value := by
  rintro strictestFirst declared ⟨entry, listed, ordered⟩
  obtain ⟨other, rank, located, ranked, least⟩ := winnerIndex_spec declared listed ordered
  obtain rfl := Option.some.inj (won.symm.trans located)
  refine ⟨rank, ranked, fun other member place placed => ?_⟩
  have later := of_decide_eq_false (least other member place placed)
  omega

theorem limitStrictest_winner (won : winnerAt policy documents path = some winner)
    (unranked : ∀ entry ∈ leafChain policy documents path,
      privacyComparable policy (pathToPointer path) entry.value = false) :
    LimitStrictest policy documents path winner.value := by
  rintro strictest declared ⟨entry, listed, limited⟩
  obtain ⟨other, magnitude, located, measured, least⟩ := limitedIndex_spec declared listed limited
  rw [← winnerIndex_of_unranked unranked] at located
  obtain rfl := Option.some.inj (won.symm.trans located)
  exact ⟨magnitude, measured, least⟩

theorem strict_winner_iff (won : winnerAt policy documents path = some winner) :
    Strict policy documents path winner.value ↔ Coherent policy documents path := by
  have first := privacyStrictest_winner won
  constructor
  · rintro ⟨limits, -⟩ entry listed ⟨ordered, member, fits⟩ strictest
    obtain ⟨strictestFirst, declared, -⟩ := (Option.any_eq_true _ _).mp fits
    obtain ⟨rank, ranked, least⟩ := first strictestFirst declared ⟨ordered, member, fits⟩
    obtain ⟨place, placed, least'⟩ := strictest strictestFirst declared ⟨ordered, member, fits⟩
    have below := least entry listed place placed
    have above := least' winner (mem_of_winnerAt won) rank ranked
    obtain rfl : rank = place := Nat.le_antisymm below above
    exact limitStrictest_congr (magnitude_of_rank ranked placed) limits
  · intro coherent
    refine ⟨?_, first⟩
    by_cases ordered : ∃ entry ∈ leafChain policy documents path,
        privacyComparable policy (pathToPointer path) entry.value = true
    · exact coherent winner (mem_of_winnerAt won) ordered first
    · refine limitStrictest_winner won fun entry listed => ?_
      exact Bool.eq_false_of_not_eq_true fun fits => ordered ⟨entry, listed, fits⟩

end Strict

section Resolution

variable (describeValue : JsonValue → String) (documents : List ConfigurationLayerDocument)
variable (rules : List ConfigurationRule) (path : List String)

/-- The resolved values hold a strictest value wherever some admitted value is comparable. -/
def Tightened : Prop :=
  Protected (indexConfigurationPolicy rules) (sanitizedDocuments documents) path →
    ∃ value, valueAt (resolveConfiguration describeValue documents rules).values path = some value ∧
      Strict (indexConfigurationPolicy rules) (sanitizedDocuments documents) path value

variable {policy : IndexedConfigurationPolicy} {merged : List SanitizedDocument} {path}

theorem values_beneath (sound : Sound merged) {above rest : List String}
    (listed : above ∈ collectLeafPaths (mergeDocuments merged)) :
    valueAt (resolvedValues describeValue policy merged) (above ++ rest) =
      (winnerAt policy merged above).bind fun winner => valueAt winner.value rest := by
  rw [valueAt_append, values_at_leaf describeValue sound listed, Option.bind_map]
  rfl

theorem kept_of_strict (sound : Sound merged) (guarded : Protected policy merged path)
    {value : JsonValue}
    (held : valueAt (resolvedValues describeValue policy merged) path = some value)
    (strict : Strict policy merged path value) : Kept policy merged path := by
  have distinct := distinct_mergeDocuments sound
  cases located : valueAt (mergeDocuments merged) path with
  | none =>
    rcases @values_at_absent describeValue policy _ sound _ located with
      gone | ⟨above, rest, rfl, nonempty, listed, beneath⟩
    · rw [gone] at held
      cases held
    · rw [beneath] at held
      obtain ⟨winner, won, inner⟩ := Option.bind_eq_some_iff.mp held
      obtain ⟨document, here⟩ := (mem_merged_leaves sound).mp listed
      have object : isPlainObject winner.value = true := by
        refine Bool.eq_true_of_not_eq_false fun scalar => ?_
        cases rest with
        | nil => exact nonempty rfl
        | cons segment rest =>
          have hidden := (view_cons_of_not_object scalar segment rest).1
          rw [view_eq_none.mp hidden] at inner
          cases inner
      obtain ⟨incomparable, last, final, -⟩ := (winner_object_iff won).mp object
      have same : winner = last := by
        have ended := winner_of_incomparable incomparable
        rw [final] at ended
        exact Option.some.inj (won.symm.trans ended)
      subst same
      exact Or.inr ⟨above, rest, document, winner, value, rfl, nonempty, here, incomparable, final,
        inner, strict⟩
  | some found =>
    by_cases object : isPlainObject found = true
    · obtain ⟨members, rfl⟩ := isPlainObject_iff.mp object
      obtain ⟨edited, values⟩ := @values_at_object describeValue policy _ sound _ _ located
      obtain rfl := Option.some.inj (values.symm.trans held)
      have scalar := scalar_of_strict guarded strict
      cases scalar
    · have listed : path ∈ collectLeafPaths (mergeDocuments merged) :=
        (mem_collectLeafPaths _ distinct path).mpr
          ⟨found, view_eq_leaf.mpr ⟨located, Bool.eq_false_of_not_eq_true object⟩⟩
      rw [values_at_leaf describeValue sound listed] at held
      obtain ⟨winner, won, rfl⟩ := Option.map_eq_some_iff.mp held
      exact Or.inl ⟨(mem_merged_leaves sound).mp listed, (strict_winner_iff won).mp strict⟩

theorem strict_of_kept (sound : Sound merged) (guarded : Protected policy merged path)
    (kept : Kept policy merged path) :
    ∃ value, valueAt (resolvedValues describeValue policy merged) path = some value ∧
      Strict policy merged path value := by
  rcases kept with ⟨here, coherent⟩ |
    ⟨above, rest, document, last, value, rfl, -, here, incomparable,
    final, inner, strict⟩
  · have listed := (mem_merged_leaves sound).mpr here
    obtain ⟨entry, member, -⟩ := guarded
    obtain ⟨winner, won⟩ : ∃ winner, winnerAt policy merged path = some winner :=
      winner_exists (List.ne_nil_of_mem member)
    refine ⟨winner.value, ?_, (strict_winner_iff won).mpr coherent⟩
    rw [values_at_leaf describeValue sound listed, won]
    rfl
  · have listed := (mem_merged_leaves sound).mpr ⟨document, here⟩
    have won : winnerAt policy merged above = some last :=
      (winner_of_incomparable incomparable).trans final
    refine ⟨value, ?_, strict⟩
    rw [values_beneath describeValue sound listed, won]
    exact inner

variable (path)

/-- A protected setting is kept exactly where the last document that decides it holds a scalar
or an array, and the rules agree, or where a strictest value is put back from above. -/
theorem tightened_iff :
    Tightened describeValue documents rules path ↔
      (Protected (indexConfigurationPolicy rules) (sanitizedDocuments documents) path →
        Kept (indexConfigurationPolicy rules) (sanitizedDocuments documents) path) := by
  have sound := sound_sanitizedDocuments documents
  constructor
  · intro tightened guarded
    obtain ⟨value, held, strict⟩ := tightened guarded
    exact kept_of_strict describeValue sound guarded held strict
  · intro kept guarded
    exact strict_of_kept describeValue sound guarded (kept guarded)

end Resolution

def clearedDocuments : List ConfigurationLayerDocument :=
  [⟨.builtInDefaults, none, [("limits", .object [("active", .number (.finite 4))])]⟩,
    ⟨.repository, none, [("limits", .null)]⟩]

theorem clearedDocuments_loosened :
    ¬ Tightened (fun _ => "") clearedDocuments [.hardLimit "/limits/active" .lower]
      ["limits", "active"] := by
  intro tightened
  have guarded : Protected (indexConfigurationPolicy [.hardLimit "/limits/active" .lower])
      (sanitizedDocuments clearedDocuments) ["limits", "active"] :=
    ⟨⟨.builtInDefaults, none, .number (.finite 4)⟩, List.mem_cons_self, by decide +kernel⟩
  obtain ⟨value, held, -⟩ := tightened guarded
  have gone : (valueAt (resolveConfiguration (fun _ => "") clearedDocuments
      [.hardLimit "/limits/active" .lower]).values ["limits", "active"]).isSome = false := by
    decide +kernel
  rw [held] at gone
  cases gone

end Heniek.ConfigurationStrictness
