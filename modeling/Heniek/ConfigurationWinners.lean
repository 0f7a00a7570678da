import Heniek.ConfigurationFold

/-!
Which entry of a chain the policy keeps: the first that no comparable entry is stricter
than, by the privacy order when it ranks one of them, else by the hard limit when it
measures one of them, else the last.
-/

namespace Heniek.ConfigurationWinners
open ExpressionEvaluation CanonicalState ConfigurationLayers

section Strictest

variable {μ : Type} {rank : JsonValue → Option μ} {stricter : μ → μ → Bool}

def Scanned (rank : JsonValue → Option μ) (stricter : μ → μ → Bool)
    (entries : List (ConfigurationProvenanceEntry × Nat)) : Option (Nat × μ) → Prop
  | none => ∀ entry ∈ entries, rank entry.1.value = none
  | some best => (∃ entry ∈ entries, entry.2 = best.1 ∧ rank entry.1.value = some best.2) ∧
      ∀ entry ∈ entries, ∀ magnitude, rank entry.1.value = some magnitude →
        stricter magnitude best.2 = false

theorem scanned_step (irrefl : ∀ a, stricter a a = false)
    (trans : ∀ a b c, stricter a b = true → stricter b c = true → stricter a c = true)
    {entries : List (ConfigurationProvenanceEntry × Nat)} {best : Option (Nat × μ)}
    (scanned : Scanned rank stricter entries best) (entry : ConfigurationProvenanceEntry × Nat) :
    Scanned rank stricter (entries ++ [entry]) (strictestStep rank stricter best entry) := by
  unfold strictestStep
  cases ranked : rank entry.1.value with
  | none =>
    cases best with
    | none =>
      intro other listed
      rcases List.mem_append.mp listed with early | last
      · exact scanned other early
      · rwa [List.mem_singleton.mp last]
    | some best =>
      obtain ⟨⟨found, listed, here⟩, strict⟩ := scanned
      refine ⟨⟨found, List.mem_append_left _ listed, here⟩, ?_⟩
      intro other listed magnitude measured
      rcases List.mem_append.mp listed with early | last
      · exact strict other early magnitude measured
      · rw [List.mem_singleton.mp last, ranked] at measured
        cases measured
  | some magnitude =>
    cases best with
    | none =>
      refine ⟨⟨entry, by simp, rfl, ranked⟩, ?_⟩
      intro other listed measure measured
      rcases List.mem_append.mp listed with early | last
      · rw [scanned other early] at measured
        cases measured
      · rw [List.mem_singleton.mp last, ranked] at measured
        cases measured
        exact irrefl magnitude
    | some best =>
      obtain ⟨⟨found, listed, here⟩, strict⟩ := scanned
      by_cases improved : stricter magnitude best.2 = true
      · simp only [improved]
        refine ⟨⟨entry, by simp, rfl, ranked⟩, ?_⟩
        intro other listed measure measured
        rcases List.mem_append.mp listed with early | last
        · refine Bool.eq_false_of_not_eq_true fun still => ?_
          have before := strict other early measure measured
          rw [trans measure magnitude best.2 still improved] at before
          cases before
        · rw [List.mem_singleton.mp last, ranked] at measured
          cases measured
          exact irrefl magnitude
      · simp only [if_neg improved]
        refine ⟨⟨found, List.mem_append_left _ listed, here⟩, ?_⟩
        intro other listed measure measured
        rcases List.mem_append.mp listed with early | last
        · exact strict other early measure measured
        · rw [List.mem_singleton.mp last, ranked] at measured
          cases measured
          exact Bool.eq_false_of_not_eq_true improved

theorem scanned_foldl (irrefl : ∀ a, stricter a a = false)
    (trans : ∀ a b c, stricter a b = true → stricter b c = true → stricter a c = true)
    (entries : List (ConfigurationProvenanceEntry × Nat)) :
    Scanned rank stricter entries (entries.foldl (strictestStep rank stricter) none) := by
  induction entries using List.reverseRecOn with
  | nil => exact fun _ listed => absurd listed List.not_mem_nil
  | append_singleton entries entry ih =>
    rw [List.foldl_append]
    exact scanned_step irrefl trans ih entry

variable {chain : List ConfigurationProvenanceEntry}

theorem strictestIndex_eq_none (irrefl : ∀ a, stricter a a = false)
    (trans : ∀ a b c, stricter a b = true → stricter b c = true → stricter a c = true) :
    strictestIndex rank stricter chain = none ↔ ∀ entry ∈ chain, rank entry.value = none := by
  have scanned : Scanned rank stricter chain.zipIdx
      (chain.zipIdx.foldl (strictestStep rank stricter) none) := scanned_foldl irrefl trans _
  unfold strictestIndex
  rw [Option.map_eq_none_iff]
  constructor
  · intro unfound entry listed
    rw [unfound] at scanned
    obtain ⟨index, located, rfl⟩ := List.mem_iff_getElem.mp listed
    exact scanned (chain[index], index) (List.mk_mem_zipIdx_iff_getElem?.mpr (by simp [located]))
  · intro unranked
    cases found : chain.zipIdx.foldl (strictestStep rank stricter) none with
    | none => rfl
    | some best =>
      rw [found] at scanned
      obtain ⟨⟨entry, listed, -, ranked⟩, -⟩ := scanned
      rw [unranked entry.1 (List.fst_mem_of_mem_zipIdx listed)] at ranked
      cases ranked

theorem strictestIndex_spec (irrefl : ∀ a, stricter a a = false)
    (trans : ∀ a b c, stricter a b = true → stricter b c = true → stricter a c = true)
    {index : Nat} (found : strictestIndex rank stricter chain = some index) :
    ∃ entry magnitude, chain[index]? = some entry ∧ rank entry.value = some magnitude ∧
      ∀ other ∈ chain, ∀ measure, rank other.value = some measure →
        stricter measure magnitude = false := by
  have scanned : Scanned rank stricter chain.zipIdx
      (chain.zipIdx.foldl (strictestStep rank stricter) none) := scanned_foldl irrefl trans _
  obtain ⟨best, reached, rfl⟩ := Option.map_eq_some_iff.mp found
  rw [reached] at scanned
  obtain ⟨⟨entry, listed, here, ranked⟩, strict⟩ := scanned
  have located : chain[best.1]? = some entry.1 := by
    rw [← here]
    exact List.mem_zipIdx_iff_getElem?.mp listed
  refine ⟨entry.1, best.2, located, ranked, ?_⟩
  intro other member measure measured
  obtain ⟨position, inside, rfl⟩ := List.mem_iff_getElem.mp member
  exact strict (chain[position], position)
    (List.mk_mem_zipIdx_iff_getElem?.mpr (by simp [inside])) measure measured

end Strictest

section Winner

variable (policy : IndexedConfigurationPolicy) (pointer : String)

def limitComparable (value : JsonValue) : Bool :=
  (policy.hardLimits pointer).isSome && (hardLimitMagnitude value).isSome

def privacyComparable (value : JsonValue) : Bool :=
  (policy.privacy pointer).any fun strictestFirst => (privacyRank strictestFirst value).isSome

def comparable (value : JsonValue) : Bool :=
  limitComparable policy pointer value || privacyComparable policy pointer value

variable {policy : IndexedConfigurationPolicy} {pointer : String}
variable {value : JsonValue} {entry : ConfigurationProvenanceEntry}

theorem scalar_of_magnitude {magnitude : WithTop ℚ}
    (measured : hardLimitMagnitude value = some magnitude) : isPlainObject value = false := by
  cases value <;> first | rfl | cases measured

theorem scalar_of_rank {strictestFirst : List JsonScalar} {rank : Nat}
    (ranked : privacyRank strictestFirst value = some rank) : isPlainObject value = false := by
  obtain ⟨inside, same, -⟩ := List.findIdx?_eq_some_iff_getElem.mp ranked
  cases value with
  | object members => cases same
  | null => rfl
  | bool => rfl
  | number => rfl
  | string => rfl
  | array => rfl

theorem comparable_scalar (fits : comparable policy pointer value = true) :
    isPlainObject value = false := by
  rcases Bool.or_eq_true_iff.mp fits with limited | ordered
  · obtain ⟨magnitude, measured⟩ := Option.isSome_iff_exists.mp (Bool.and_eq_true_iff.mp limited).2
    exact scalar_of_magnitude measured
  · obtain ⟨strictestFirst, -, ranked⟩ := (Option.any_eq_true _ _).mp ordered
    obtain ⟨rank, found⟩ := Option.isSome_iff_exists.mp ranked
    exact scalar_of_rank found

theorem stricterLimit_irrefl (strictest : Strictest) (a : WithTop ℚ) :
    stricterLimit strictest a a = false := by cases strictest <;> simp [stricterLimit]

theorem stricterLimit_trans (strictest : Strictest) (a b c : WithTop ℚ)
    (first : stricterLimit strictest a b = true) (second : stricterLimit strictest b c = true) :
    stricterLimit strictest a c = true := by
  cases strictest with
  | lower =>
    simp only [stricterLimit, decide_eq_true_eq] at first second ⊢
    exact first.trans second
  | higher =>
    simp only [stricterLimit, decide_eq_true_eq] at first second ⊢
    exact second.trans first

theorem earlier_irrefl (a : Nat) : decide (a < a) = false := by simp

theorem earlier_trans (a b c : Nat) (first : decide (a < b) = true)
    (second : decide (b < c) = true) :
    decide (a < c) = true := by
  rw [decide_eq_true_eq] at first second ⊢
  exact first.trans second

variable {chain : List ConfigurationProvenanceEntry}

theorem limitedIndex_of_none (unlimited : ∀ entry ∈ chain,
    limitComparable policy pointer entry.value = false) :
    limitedIndex pointer chain policy = chain.length - 1 := by
  unfold limitedIndex
  cases limited : policy.hardLimits pointer with
  | none => rfl
  | some strictest =>
    have unmeasured : ∀ entry ∈ chain, hardLimitMagnitude entry.value = none := by
      intro entry listed
      simpa [limitComparable, limited] using unlimited entry listed
    have unfound := (strictestIndex_eq_none (stricterLimit_irrefl strictest)
      (stricterLimit_trans strictest)).mpr unmeasured
    simp only [unfound, Option.getD_none]

theorem limitedIndex_spec {strictest : Strictest}
    (limited : policy.hardLimits pointer = some strictest) (listed : entry ∈ chain)
    (fits : limitComparable policy pointer entry.value = true) :
    ∃ winner magnitude, chain[limitedIndex pointer chain policy]? = some winner ∧
      hardLimitMagnitude winner.value = some magnitude ∧
      ∀ other ∈ chain, ∀ measure, hardLimitMagnitude other.value = some measure →
        stricterLimit strictest measure magnitude = false := by
  have measured := (Bool.and_eq_true_iff.mp fits).2
  cases found : strictestIndex hardLimitMagnitude (stricterLimit strictest) chain with
  | none =>
    have unmeasured := (strictestIndex_eq_none (stricterLimit_irrefl strictest)
      (stricterLimit_trans strictest)).mp found entry listed
    rw [unmeasured] at measured
    cases measured
  | some index =>
    have here : limitedIndex pointer chain policy = index := by
      unfold limitedIndex
      simp only [limited, found, Option.getD_some]
    rw [here]
    exact strictestIndex_spec (stricterLimit_irrefl strictest) (stricterLimit_trans strictest) found

theorem winnerIndex_of_unranked (unranked : ∀ entry ∈ chain,
    privacyComparable policy pointer entry.value = false) :
    winnerIndex pointer chain policy = limitedIndex pointer chain policy := by
  unfold winnerIndex
  cases ordered : policy.privacy pointer with
  | none => rfl
  | some strictestFirst =>
    have absent : ∀ entry ∈ chain, privacyRank strictestFirst entry.value = none := by
      intro entry listed
      simpa [privacyComparable, ordered] using unranked entry listed
    have unfound := (strictestIndex_eq_none earlier_irrefl earlier_trans).mpr absent
    simp only [unfound, Option.getD_none]

theorem winnerIndex_spec {strictestFirst : List JsonScalar}
    (ordered : policy.privacy pointer = some strictestFirst) (listed : entry ∈ chain)
    (fits : privacyComparable policy pointer entry.value = true) :
    ∃ winner rank, chain[winnerIndex pointer chain policy]? = some winner ∧
      privacyRank strictestFirst winner.value = some rank ∧
      ∀ other ∈ chain, ∀ place, privacyRank strictestFirst other.value = some place →
        decide (place < rank) = false := by
  have ranked : (privacyRank strictestFirst entry.value).isSome = true := by
    simpa [privacyComparable, ordered] using fits
  cases found : strictestIndex (privacyRank strictestFirst)
      (fun rank least => decide (rank < least)) chain with
  | none =>
    have unranked := (strictestIndex_eq_none earlier_irrefl earlier_trans).mp found entry listed
    rw [unranked] at ranked
    cases ranked
  | some index =>
    have here : winnerIndex pointer chain policy = index := by
      unfold winnerIndex
      simp only [ordered, found, Option.getD_some]
    rw [here]
    exact strictestIndex_spec earlier_irrefl earlier_trans found

theorem winner_of_incomparable (incomparable : ∀ entry ∈ chain,
    comparable policy pointer entry.value = false) :
    chain[winnerIndex pointer chain policy]? = chain.getLast? := by
  have apart := fun entry listed => Bool.or_eq_false_iff.mp (incomparable entry listed)
  rw [winnerIndex_of_unranked fun entry listed => (apart entry listed).2,
    limitedIndex_of_none fun entry listed => (apart entry listed).1, List.getLast?_eq_getElem?]

theorem winner_of_comparable (listed : entry ∈ chain)
    (fits : comparable policy pointer entry.value = true) :
    ∃ winner, chain[winnerIndex pointer chain policy]? = some winner ∧
      comparable policy pointer winner.value = true := by
  by_cases ordered : ∃ other ∈ chain, privacyComparable policy pointer other.value = true
  · obtain ⟨other, member, ranked⟩ := ordered
    obtain ⟨strictestFirst, declared, -⟩ := (Option.any_eq_true _ _).mp ranked
    obtain ⟨winner, rank, located, here, -⟩ := winnerIndex_spec declared member ranked
    refine ⟨winner, located, Bool.or_eq_true_iff.mpr (Or.inr ?_)⟩
    simp [privacyComparable, declared, here]
  · have unranked : ∀ other ∈ chain, privacyComparable policy pointer other.value = false :=
      fun other member => Bool.eq_false_of_not_eq_true fun ranked => ordered ⟨other, member, ranked⟩
    have limited : limitComparable policy pointer entry.value = true := by
      simpa [comparable, unranked entry listed] using fits
    obtain ⟨strictest, declared⟩ :=
      Option.isSome_iff_exists.mp (Bool.and_eq_true_iff.mp limited).1
    obtain ⟨winner, magnitude, located, here, -⟩ := limitedIndex_spec declared listed limited
    rw [winnerIndex_of_unranked unranked]
    refine ⟨winner, located, Bool.or_eq_true_iff.mpr (Or.inl ?_)⟩
    simp [limitComparable, declared, here]

theorem winner_exists (filled : chain ≠ []) :
    ∃ winner, chain[winnerIndex pointer chain policy]? = some winner := by
  by_cases fits : ∃ entry ∈ chain, comparable policy pointer entry.value = true
  · obtain ⟨entry, listed, fits⟩ := fits
    obtain ⟨winner, located, -⟩ := winner_of_comparable listed fits
    exact ⟨winner, located⟩
  · rw [winner_of_incomparable fun entry listed =>
      Bool.eq_false_of_not_eq_true fun still => fits ⟨entry, listed, still⟩]
    exact ⟨chain.getLast filled, List.getLast?_eq_some_getLast filled⟩

theorem winner_object_iff {winner : ConfigurationProvenanceEntry}
    (located : chain[winnerIndex pointer chain policy]? = some winner) :
    isPlainObject winner.value = true ↔
      (∀ entry ∈ chain, comparable policy pointer entry.value = false) ∧
        ∃ last, chain.getLast? = some last ∧ isPlainObject last.value = true := by
  by_cases fits : ∃ entry ∈ chain, comparable policy pointer entry.value = true
  · obtain ⟨entry, listed, fits⟩ := fits
    obtain ⟨other, located', still⟩ := winner_of_comparable listed fits
    obtain rfl := Option.some.inj (located.symm.trans located')
    rw [comparable_scalar still]
    refine iff_of_false (by simp) ?_
    rintro ⟨none, -⟩
    rw [none entry listed] at fits
    cases fits
  · have incomparable : ∀ entry ∈ chain, comparable policy pointer entry.value = false :=
      fun entry listed => Bool.eq_false_of_not_eq_true fun still => fits ⟨entry, listed, still⟩
    rw [winner_of_incomparable incomparable] at located
    constructor
    · exact fun object => ⟨incomparable, winner, located, object⟩
    · rintro ⟨-, last, final, object⟩
      obtain rfl := Option.some.inj (located.symm.trans final)
      exact object

end Winner

end Heniek.ConfigurationWinners
