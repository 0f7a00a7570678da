import Heniek.JsonWriter

/-!
The truncation of a narrative on UTF-16 code units, lone surrogates included. What is
kept is the longest run of whole code points that leaves room for the omission marker;
the marker counts the bytes above the bound, the result those that were left out.
-/

namespace Heniek.NarrativeTruncation
open ScriptText JsonSyntax JsonWriter
open ContinuationCapsule (narrativeMaxBytes withinBytes)

/-- The units of each step of an iteration over the text: two for a surrogate pair. -/
def codePoints : List Nat → List (List Nat)
  | [] => []
  | [unit] => [[unit]]
  | unit :: next :: rest =>
    if isHighSurrogate unit = true ∧ isLowSurrogate next = true then
      [unit, next] :: codePoints rest
    else [unit] :: codePoints (next :: rest)

/-- The UTF-8 bytes of a code point; those of U+FFFD for a lone surrogate. -/
def pointBytes : List Nat → Nat
  | [unit] => if unit < 0x80 then 1 else if unit < 0x800 then 2 else 3
  | _ => 4

def bytesOf (points : List (List Nat)) : Nat := (points.map pointBytes).sum

def utf8ByteLength (units : List Nat) : Nat := bytesOf (codePoints units)

structure Truncated where
  text : List Nat
  omittedBytes : Nat

def omissionMarker (omitted : Nat) : List Nat :=
  codeUnits (ContinuationCapsule.omissionMarker omitted)

/-- The loop over the code points: how far it comes and the bytes up to there. -/
def walk (budget : Nat) : (points : List (List Nat)) → (stop used : Nat) → Nat × Nat
  | [], stop, used => (stop, used)
  | point :: points, stop, used =>
    if budget < used + pointBytes point then (stop, used)
    else walk budget points (stop + point.length) (used + pointBytes point)

def truncateNarrative (narrative : List Nat) (maxBytes : Nat := narrativeMaxBytes) : Truncated :=
  let total := utf8ByteLength narrative
  if total ≤ maxBytes then ⟨narrative, 0⟩
  else
    let marker := omissionMarker (total - maxBytes)
    let reached := walk (maxBytes - utf8ByteLength marker) (codePoints narrative) 0 0
    ⟨narrative.take reached.1 ++ marker, total - reached.2⟩

/-- The narrative's longest start that leaves room for a marker, then this marker. -/
structure LongestCut (narrative : List Nat) (maxBytes stated : Nat) (truncated : Truncated)
    (kept : List (List Nat)) : Prop where
  start : kept <+: codePoints narrative
  text : truncated.text = kept.flatten ++ omissionMarker stated
  room : bytesOf kept + utf8ByteLength (omissionMarker stated) ≤ maxBytes
  longest : ∀ more, more <+: codePoints narrative →
    bytesOf more + utf8ByteLength (omissionMarker stated) ≤ maxBytes → more.length ≤ kept.length
  accounted : bytesOf kept + truncated.omittedBytes = utf8ByteLength narrative

structure Faithful (narrative : List Nat) (maxBytes : Nat) (truncated : Truncated) : Prop where
  bounded : utf8ByteLength truncated.text ≤ maxBytes
  whole : utf8ByteLength narrative ≤ maxBytes → truncated = ⟨narrative, 0⟩
  cut : maxBytes < utf8ByteLength narrative →
    ∃ kept, LongestCut narrative maxBytes truncated.omittedBytes truncated kept

section Points

theorem flatten_codePoints (units : List Nat) : (codePoints units).flatten = units := by
  induction units using codePoints.induct with
  | case1 => rfl
  | case2 unit => rfl
  | case3 unit next rest paired ih =>
    rw [codePoints, if_pos paired, List.flatten_cons, ih]
    rfl
  | case4 unit next rest single ih =>
    rw [codePoints, if_neg single, List.flatten_cons, ih]
    rfl

def Starts (units : List Nat) : Prop := ∀ unit ∈ units.head?, isLowSurrogate unit = false

theorem codePoints_single {unit : Nat} {rest : List Nat}
    (apart : isHighSurrogate unit = true → Starts rest) :
    codePoints (unit :: rest) = [unit] :: codePoints rest := by
  cases rest with
  | nil => rfl
  | cons next rest =>
    rw [codePoints, if_neg]
    rintro ⟨high, low⟩
    rw [apart high next rfl] at low
    cases low

theorem codePoints_cons_head {unit : Nat} {rest point : List Nat} {points : List (List Nat)}
    (split : codePoints (unit :: rest) = point :: points) : point.head? = some unit := by
  cases rest with
  | nil =>
    cases split
    rfl
  | cons next rest =>
    rw [codePoints] at split
    split at split <;> cases split <;> rfl

theorem codePoints_append {units tail : List Nat} (starts : Starts tail)
    {kept : List (List Nat)} (start : kept <+: codePoints units) :
    codePoints (kept.flatten ++ tail) = kept ++ codePoints tail := by
  induction units using codePoints.induct generalizing kept with
  | case1 =>
    obtain rfl := List.prefix_nil.mp start
    rfl
  | case2 unit =>
    rcases List.prefix_cons_iff.mp start with rfl | ⟨rest, rfl, rest_start⟩
    · rfl
    · obtain rfl := List.prefix_nil.mp rest_start
      exact codePoints_single fun _ => starts
  | case3 unit next rest paired ih =>
    rw [codePoints, if_pos paired] at start
    rcases List.prefix_cons_iff.mp start with rfl | ⟨others, rfl, others_start⟩
    · rfl
    · change codePoints (unit :: next :: (others.flatten ++ tail)) = _
      rw [codePoints, if_pos paired, ih others_start, List.cons_append]
  | case4 unit next rest single ih =>
    rw [codePoints, if_neg single] at start
    rcases List.prefix_cons_iff.mp start with rfl | ⟨others, rfl, others_start⟩
    · rfl
    · have apart : isHighSurrogate unit = true → Starts (others.flatten ++ tail) := by
        intro high
        cases others with
        | nil => exact starts
        | cons point others =>
          obtain ⟨more, same⟩ := others_start
          have first := codePoints_cons_head same.symm
          intro other begins
          rw [List.flatten_cons, List.append_assoc, List.head?_append, first] at begins
          cases begins
          exact Bool.eq_false_of_not_eq_true fun low => single ⟨high, low⟩
      change codePoints (unit :: (others.flatten ++ tail)) = _
      rw [codePoints_single apart, ih others_start, List.cons_append]

end Points

section Walk

variable {budget : Nat} {points : List (List Nat)}

theorem bytesOf_append (first second : List (List Nat)) :
    bytesOf (first ++ second) = bytesOf first + bytesOf second := by
  rw [bytesOf, List.map_append, List.sum_append]
  rfl

theorem walk_longest (points : List (List Nat)) (stop : Nat) {used : Nat}
    (within : used ≤ budget) :
    ∃ kept, kept <+: points ∧
      walk budget points stop used = (stop + kept.flatten.length, used + bytesOf kept) ∧
      used + bytesOf kept ≤ budget ∧
      ∀ more, more <+: points → used + bytesOf more ≤ budget → more.length ≤ kept.length := by
  induction points generalizing stop used with
  | nil => exact ⟨[], List.nil_prefix, rfl, within, fun more start _ => start.length_le⟩
  | cons point points ih =>
    rw [walk]
    split
    · refine ⟨[], List.nil_prefix, rfl, within, fun more start fits => ?_⟩
      rcases List.prefix_cons_iff.mp start with rfl | ⟨others, rfl, _⟩
      · exact le_rfl
      · simp only [bytesOf, List.map_cons, List.sum_cons] at fits
        omega
    · rename_i room
      obtain ⟨kept, start, walked, fits, longest⟩ := ih (stop + point.length) (Nat.not_lt.mp room)
      refine ⟨point :: kept, List.cons_prefix_cons.mpr ⟨rfl, start⟩, ?_, ?_, ?_⟩
      · rw [walked, List.flatten_cons, List.length_append, bytesOf, bytesOf, List.map_cons,
          List.sum_cons, Nat.add_assoc, Nat.add_assoc]
      · simp only [bytesOf, List.map_cons, List.sum_cons] at fits ⊢
        omega
      · intro more others fits
        rcases List.prefix_cons_iff.mp others with rfl | ⟨rest, rfl, rest_start⟩
        · exact Nat.zero_le _
        · refine Nat.succ_le_succ (longest rest rest_start ?_)
          simp only [bytesOf, List.map_cons, List.sum_cons] at fits ⊢
          omega

end Walk

theorem omissionMarker_eq (omitted : Nat) : omissionMarker omitted =
    codeUnits "\n\n[…omitted" ++ 32 :: (codeUnits (toString omitted) ++ codeUnits " bytes]\n") := by
  have blank : codeUnits "\n\n[…omitted " = codeUnits "\n\n[…omitted" ++ [32] := by decide +kernel
  change codeUnits ("\n\n[…omitted " ++ toString omitted ++ " bytes]\n") = _
  rw [codeUnits_append, codeUnits_append, blank, List.append_assoc,
    List.append_assoc, List.singleton_append]

theorem blank_not_mem_decimal (n : Nat) : 32 ∉ codeUnits (toString n) := by
  intro listed
  obtain ⟨c, member, here⟩ := List.mem_flatMap.mp listed
  rw [Nat.toString_eq_ofList_toDigits, String.toList_ofList] at member
  have digit : 48 ≤ c.toNat ∧ c.toNat ≤ 57 :=
    Char.isDigit_iff_toNat.mp (Nat.isDigit_of_mem_toDigits (by decide) (by decide) member)
  rw [if_pos (by omega), List.mem_singleton] at here
  omega

theorem omissionMarker_inj {first second : List Nat} {m n : Nat}
    (same : first ++ omissionMarker m = second ++ omissionMarker n) : m = n := by
  rw [omissionMarker_eq, omissionMarker_eq, ← List.append_assoc, ← List.append_assoc,
    ← List.cons_append, ← List.cons_append, ← List.append_assoc, ← List.append_assoc] at same
  obtain ⟨_, numerals⟩ := append_separator_inj (blank_not_mem_decimal m) (blank_not_mem_decimal n)
    (List.append_cancel_right same)
  exact decimal_inj (codeUnits_inj numerals)

theorem omissionMarker_head (omitted : Nat) : ∃ rest, omissionMarker omitted = 10 :: rest := by
  rw [omissionMarker_eq]
  exact ⟨_, rfl⟩

theorem starts_omissionMarker (omitted : Nat) : Starts (omissionMarker omitted) := by
  obtain ⟨rest, marker⟩ := omissionMarker_head omitted
  intro unit first
  rw [marker] at first
  cases first
  rfl

theorem omissionMarker_filled (omitted : Nat) : 0 < utf8ByteLength (omissionMarker omitted) := by
  obtain ⟨rest, marker⟩ := omissionMarker_head omitted
  rw [marker, utf8ByteLength, codePoints_single fun high =>
    absurd high (by decide), bytesOf, List.map_cons]
  exact Nat.add_pos_left (by decide) _

section Truncation

variable {narrative : List Nat} {maxBytes : Nat}

theorem LongestCut.bounded {stated : Nat} {truncated : Truncated} {kept : List (List Nat)}
    (cut : LongestCut narrative maxBytes stated truncated kept) :
    utf8ByteLength truncated.text ≤ maxBytes := by
  rw [utf8ByteLength, cut.text, codePoints_append (starts_omissionMarker stated) cut.start,
    bytesOf_append]
  exact cut.room

theorem truncateNarrative_whole (fits : utf8ByteLength narrative ≤ maxBytes) :
    truncateNarrative narrative maxBytes = ⟨narrative, 0⟩ := if_pos fits

theorem truncateNarrative_cut (long : maxBytes < utf8ByteLength narrative)
    (room : utf8ByteLength (omissionMarker (utf8ByteLength narrative - maxBytes)) ≤ maxBytes) :
    ∃ kept, LongestCut narrative maxBytes (utf8ByteLength narrative - maxBytes)
      (truncateNarrative narrative maxBytes) kept := by
  obtain ⟨kept, start, walked, fits, longest⟩ := walk_longest (codePoints narrative) 0
    (Nat.zero_le (maxBytes -
      utf8ByteLength (omissionMarker (utf8ByteLength narrative - maxBytes))))
  have total : bytesOf kept ≤ utf8ByteLength narrative := by
    obtain ⟨rest, same⟩ := start
    rw [utf8ByteLength, ← same, bytesOf_append]
    exact Nat.le_add_right _ _
  have taken : narrative.take kept.flatten.length = kept.flatten := by
    obtain ⟨rest, same⟩ := start
    have flat := flatten_codePoints narrative
    rw [← same, List.flatten_append] at flat
    rw [← flat, List.take_left]
  have cut : truncateNarrative narrative maxBytes = ⟨kept.flatten ++
      omissionMarker (utf8ByteLength narrative - maxBytes),
        utf8ByteLength narrative - bytesOf kept⟩ := by
    rw [truncateNarrative, if_neg (Nat.not_le.mpr long)]
    simp only [walked, Nat.zero_add, taken]
  rw [cut]
  refine ⟨kept, start, rfl, by omega, fun more others enough => ?_, Nat.add_sub_of_le total⟩
  exact longest more others (by omega)

/-- The marker never states what was omitted: it leaves out its own bytes. -/
theorem truncateNarrative_misstated (long : maxBytes < utf8ByteLength narrative)
    (room : utf8ByteLength (omissionMarker (utf8ByteLength narrative - maxBytes)) ≤ maxBytes) :
    ¬ Faithful narrative maxBytes (truncateNarrative narrative maxBytes) := by
  intro faithful
  obtain ⟨kept, stated⟩ := faithful.cut long
  obtain ⟨others, cut⟩ := truncateNarrative_cut long room
  have same := omissionMarker_inj (stated.text.symm.trans cut.text)
  have filled := omissionMarker_filled (utf8ByteLength narrative - maxBytes)
  have accounted := cut.accounted
  have within := cut.room
  omega

/-- Truncation keeps to the bound and to whole code points; with the number that the marker
states it is faithful just where nothing is cut. -/
theorem truncateNarrative_faithful_iff (narrative : List Nat) (maxBytes : Nat)
    (room : maxBytes < utf8ByteLength narrative →
      utf8ByteLength (omissionMarker (utf8ByteLength narrative - maxBytes)) ≤ maxBytes) :
    (maxBytes < utf8ByteLength narrative → ∃ kept, LongestCut narrative maxBytes
        (utf8ByteLength narrative - maxBytes) (truncateNarrative narrative maxBytes) kept) ∧
      utf8ByteLength (truncateNarrative narrative maxBytes).text ≤ maxBytes ∧
        (Faithful narrative maxBytes (truncateNarrative narrative maxBytes) ↔
          utf8ByteLength narrative ≤ maxBytes) := by
  refine ⟨fun long => truncateNarrative_cut long (room long), ?_, ?_⟩
  · rcases Nat.lt_or_ge maxBytes (utf8ByteLength narrative) with long | fits
    · obtain ⟨kept, cut⟩ := truncateNarrative_cut long (room long)
      exact cut.bounded
    · rw [truncateNarrative_whole fits]
      exact fits
  constructor
  · intro faithful
    by_contra long
    rw [not_le] at long
    exact truncateNarrative_misstated long (room long) faithful
  · intro fits
    rw [truncateNarrative_whole fits]
    exact ⟨fits, fun _ => rfl, fun long => absurd fits (Nat.not_le.mpr long)⟩

end Truncation

section Strings

theorem codePoints_charUnits (cs : List Char) :
    codePoints (cs.flatMap charUnits) = cs.map charUnits := by
  induction cs with
  | nil => rfl
  | cons c cs ih =>
    rw [List.flatMap_cons, List.map_cons, ← ih]
    rcases charUnits_cases c with ⟨_, single, other⟩ | ⟨_, high, low, pair, paired, _⟩
    · rw [single]
      exact codePoints_single (by simp [other])
    · rw [pair]
      exact if_pos paired

theorem pointBytes_charUnits (c : Char) : pointBytes (charUnits c) = c.utf8Size := by
  have size : c.utf8Size = if c.toNat ≤ 0x7F then 1 else if c.toNat ≤ 0x7FF then 2 else
    if c.toNat ≤ 0xFFFF then 3 else 4 := rfl
  rw [charUnits_eq, size]
  by_cases small : c.toNat < 0x10000
  · simp only [if_pos small, pointBytes]
    split_ifs <;> omega
  · simp only [if_neg small, pointBytes]
    split_ifs <;> omega

theorem bytesOf_charUnits (cs : List Char) :
    bytesOf (cs.map charUnits) = (String.ofList cs).utf8ByteSize := by
  induction cs with
  | nil => rfl
  | cons c cs ih =>
    rw [← List.singleton_append, String.ofList_append, String.utf8ByteSize_append, ← ih,
      ← String.singleton_eq_ofList, String.utf8ByteSize_singleton, ← pointBytes_charUnits]
    rfl

theorem utf8ByteLength_codeUnits (text : String) :
    utf8ByteLength (codeUnits text) = text.utf8ByteSize := by
  rw [codeUnits_eq, utf8ByteLength, codePoints_charUnits, bytesOf_charUnits, String.ofList_toList]

theorem walk_charUnits (cs : List Char) {budget : Nat} (stop : Nat)
    {used : Nat} (within : used ≤ budget) :
    walk budget (cs.map charUnits) stop used =
      (stop + ((withinBytes (budget - used) cs).1.flatMap charUnits).length,
        used + (withinBytes (budget - used) cs).2) := by
  induction cs generalizing stop used with
  | nil => rfl
  | cons c cs ih =>
    rw [List.map_cons, walk, pointBytes_charUnits, withinBytes]
    by_cases room : c.utf8Size ≤ budget - used
    · rw [if_neg (by omega), if_pos room, ih _ (by omega), Nat.sub_sub]
      simp only [List.flatMap_cons, List.length_append, Nat.add_assoc]
    · rw [if_pos (by omega), if_neg room]
      rfl

theorem isPrefix_withinBytes (budget : Nat) (cs : List Char) :
    (withinBytes budget cs).1 <+: cs := by
  induction cs generalizing budget with
  | nil => exact List.nil_prefix
  | cons c cs ih =>
    rw [withinBytes]
    split
    · exact List.cons_prefix_cons.mpr ⟨rfl, ih _⟩
    · exact List.nil_prefix

/-- On the code units of a text the truncation is the one of the capsule. -/
theorem truncateNarrative_codeUnits (text : String) (maxBytes : Nat) :
    truncateNarrative (codeUnits text) maxBytes =
      ⟨codeUnits (ContinuationCapsule.truncateNarrative text maxBytes).text,
        (ContinuationCapsule.truncateNarrative text maxBytes).omittedBytes⟩ := by
  simp only [truncateNarrative, ContinuationCapsule.truncateNarrative, utf8ByteLength_codeUnits,
    omissionMarker]
  split
  · rfl
  · rw [codeUnits_eq text, codePoints_charUnits, walk_charUnits _ _ (Nat.zero_le _)]
    simp only [Nat.zero_add, Nat.sub_zero]
    rw [← List.prefix_iff_eq_take.mp ((isPrefix_withinBytes _ text.toList).flatMap charUnits),
      codeUnits_eq, codeUnits_eq, String.toList_append, List.flatMap_append, String.toList_ofList]

end Strings

def longNarrative : List Nat := List.replicate 60 120

theorem truncateNarrative_faithful_iff_sample :
    ¬ Faithful longNarrative 40 (truncateNarrative longNarrative 40) := by
  have cut := truncateNarrative_faithful_iff longNarrative 40 fun _ => by decide +kernel
  intro faithful
  exact absurd (cut.2.2.mp faithful) (by decide +kernel)

/-- Of sixty bytes cut to forty the marker says that 20 are missing; 44 are. -/
theorem marker_understates : ¬ ∀ (narrative : List Nat) (maxBytes : Nat),
    (maxBytes < utf8ByteLength narrative →
      utf8ByteLength (omissionMarker (utf8ByteLength narrative - maxBytes)) ≤ maxBytes) →
        Faithful narrative maxBytes (truncateNarrative narrative maxBytes) := by
  intro always
  exact truncateNarrative_misstated (by decide +kernel) (by decide +kernel)
    (always longNarrative 40 fun _ => by decide +kernel)

end Heniek.NarrativeTruncation
