import Heniek.CanonicalJson
import Heniek.JsonWriter

/-!
Canonical JSON on code units (`canonicalize`, `stringifyCanonical`, `parseJsonValue`). The
writer and the reader walk a value alike: they differ in what they do to a number and in the
order in which they define the members of an object. An object enumerates its array indices
in ascending order before its other keys.
-/

namespace Heniek.CanonicalForm
open JsonSyntax ExpressionEvaluation RpcCodec DecimalText CanonicalCut FallibleRun
open ScriptText (arrayIndex?)
open CanonicalJson (maxDepth within canonicalNumber rank)
open JsonWriter (Proper ProperItems ProperMember ProperMembers Units writeTree itemEntries
  memberEntries)

abbrev Json := Value JsonNumber

abbrev Members := List (List Nat × Json)

section Keys

variable {β : Type} (r : List Nat → List Nat → Prop) [DecidableRel r]

def sortNames (members : List (List Nat × β)) : List (List Nat × β) :=
  members.insertionSort fun a b => r a.1 b.1

end Keys

/-- Keys in the order of their code units. -/
abbrev sortKeys {β : Type} : List (List Nat × β) → List (List Nat × β) := sortNames (· ≤ ·)

/-- Members in the order in which an object enumerates them, once defined in the given order. -/
abbrev enumerate {β : Type} : List (List Nat × β) → List (List Nat × β) :=
  sortNames fun a b => rank a ≤ rank b

/-- The values, or what the first of them threw. -/
def allOf {α : Type} : List (Except String α) → Except String (List α)
  | [] => .ok []
  | result :: results => do
      let value ← result
      let values ← allOf results
      .ok (value :: values)

def defineAll (results : List (List Nat × Except String Json)) : Except String Members :=
  (allOf (results.map fun result => result.2.map (Prod.mk result.1))).map enumerate

section Walk

variable (what : String) (number : JsonNumber → Except String JsonNumber)
variable (r : List Nat → List Nat → Prop) [DecidableRel r]

mutual

def walk : (depth : Nat) → Json → Except String Json
  | depth, .null => within what depth (.ok .null)
  | depth, .bool value => within what depth (.ok (.bool value))
  | depth, .number value => within what depth ((number value).map .number)
  | depth, .string units => within what depth (.ok (.string units))
  | depth, .array items => within what depth ((allOf (walkItems (depth + 1) items)).map .array)
  | depth, .object members =>
    within what depth ((defineAll (sortNames r (walkMembers (depth + 1) members))).map .object)

def walkItems : (depth : Nat) → List Json → List (Except String Json)
  | _, [] => []
  | depth, item :: items => walk depth item :: walkItems depth items

def walkMember : (depth : Nat) → List Nat × Json → List Nat × Except String Json
  | depth, (key, value) => (key, walk depth value)

def walkMembers : (depth : Nat) → Members → List (List Nat × Except String Json)
  | _, [] => []
  | depth, member :: members => walkMember depth member :: walkMembers depth members

end

end Walk

def canonicalize : (depth : Nat) → Json → Except String Json :=
  walk "canonicalize" canonicalNumber (· ≤ ·)

def stringifyCanonical (value : Json) : Except String (List Char) :=
  (canonicalize 0 value).map JsonWriter.stringify

def assertJsonValue (what : String) : (depth : Nat) → Json → Except String Json :=
  walk what .ok fun a b => rank a ≤ rank b

def parseJsonValue (what : String) (text : List Char) : Except String Json :=
  match parse readNumeral text with
  | none =>
    .error (what ++ " is not valid JSON (" ++ toString (String.ofList text).utf8ByteSize ++
      " bytes)")
  | some value => assertJsonValue what 0 value

def Double : JsonNumber → Prop
  | .finite value => Binary64 value
  | _ => True

inductive IsJson : Json → Prop
  | null : IsJson .null
  | bool (value : Bool) : IsJson (.bool value)
  | number {value : JsonNumber} (double : Double value) : IsJson (.number value)
  | string {units : List Nat} (small : Units units) : IsJson (.string units)
  | array {items : List Json} (each : ∀ item ∈ items, IsJson item) : IsJson (.array items)
  | object {members : Members} (named : ∀ member ∈ members, Units member.1)
      (distinct : (members.map Prod.fst).Nodup) (each : ∀ member ∈ members, IsJson member.2) :
      IsJson (.object members)

/-- Equality up to the order of keys and the sign of zero. -/
inductive Same : Json → Json → Prop
  | refl (value : Json) : Same value value
  | symm {first second : Json} (same : Same first second) : Same second first
  | trans {first second third : Json} (same : Same first second) (other : Same second third) :
      Same first third
  | zero : Same (.number .negativeZero) (.number (.finite 0))
  | order {members others : Members} (same : members.Perm others) :
      Same (.object members) (.object others)
  | item (before after : List Json) {first second : Json} (same : Same first second) :
      Same (.array (before ++ first :: after)) (.array (before ++ second :: after))
  | member (before after : Members) (key : List Nat) {first second : Json}
      (same : Same first second) :
      Same (.object (before ++ (key, first) :: after)) (.object (before ++ (key, second) :: after))

/-- What stands in a value, so many levels down. -/
inductive Nested : Json → Nat → Json → Prop
  | here (value : Json) : Nested value 0 value
  | item {items : List Json} {item inner : Json} {level : Nat} (listed : item ∈ items)
      (nested : Nested item level inner) : Nested (.array items) (level + 1) inner
  | member {members : Members} {member : List Nat × Json} {inner : Json} {level : Nat}
      (listed : member ∈ members) (nested : Nested member.2 level inner) :
      Nested (.object members) (level + 1) inner

def NonFinite : Json → Prop
  | .number value => value.finite? = none
  | _ => False

/-- What the writer makes of a value. -/
inductive Canonical : (depth : Nat) → Json → Prop
  | null {depth : Nat} (inside : depth < maxDepth) : Canonical depth .null
  | bool {depth : Nat} (value : Bool) (inside : depth < maxDepth) : Canonical depth (.bool value)
  | number {depth : Nat} {value : ℚ} (inside : depth < maxDepth) (double : Binary64 value) :
      Canonical depth (.number (.finite value))
  | string {depth : Nat} {units : List Nat} (inside : depth < maxDepth) (small : Units units) :
      Canonical depth (.string units)
  | array {depth : Nat} {items : List Json} (inside : depth < maxDepth)
      (each : ∀ item ∈ items, Canonical (depth + 1) item) : Canonical depth (.array items)
  | object {depth : Nat} {members : Members} (inside : depth < maxDepth)
      (named : ∀ member ∈ members, Units member.1) (distinct : (members.map Prod.fst).Nodup)
      (ordered : enumerate (sortKeys members) = members)
      (each : ∀ member ∈ members, Canonical (depth + 1) member.2) :
      Canonical depth (.object members)

section Sorting

variable {β γ : Type} {r : List Nat → List Nat → Prop} [DecidableRel r]

theorem sortNames_perm (members : List (List Nat × β)) : (sortNames r members).Perm members :=
  List.perm_insertionSort _ _

theorem sortNames_map (f : β → γ) (members : List (List Nat × β)) :
    sortNames r (members.map fun member => (member.1, f member.2)) =
      (sortNames r members).map fun member => (member.1, f member.2) :=
  (List.map_insertionSort _ _ (fun member : List Nat × β => (member.1, f member.2)) members
    fun _ _ _ _ => Iff.rfl).symm

theorem sortNames_pairwise (total : ∀ a b, r a b ∨ r b a)
    (trans : ∀ a b c, r a b → r b c → r a c) (members : List (List Nat × β)) :
    (sortNames r members).Pairwise fun a b => r a.1 b.1 :=
  StableOrder.pairwise_sorted (fun a b => total a.1 b.1) (fun a b c => trans a.1 b.1 c.1) members

theorem sortKeys_pairwise (members : List (List Nat × β)) :
    (sortKeys members).Pairwise fun a b => a.1 ≤ b.1 :=
  sortNames_pairwise le_total (fun _ _ _ => le_trans) members

theorem sortKeys_of_perm {members others : List (List Nat × β)} (same : members.Perm others)
    (distinct : (members.map Prod.fst).Nodup) : sortKeys members = sortKeys others := by
  refine List.Perm.eq_of_pairwise (fun a b first second below above => ?_)
    (sortKeys_pairwise members) (sortKeys_pairwise others)
    ((sortNames_perm members).trans (same.trans (sortNames_perm others).symm))
  exact List.inj_on_of_nodup_map distinct ((sortNames_perm members).mem_iff.mp first)
    (same.mem_iff.mpr ((sortNames_perm others).mem_iff.mp second)) (le_antisymm below above)

theorem sortNames_sorted {members : List (List Nat × β)}
    (sorted : members.Pairwise fun a b => r a.1 b.1) : sortNames r members = members :=
  List.Pairwise.insertionSort_eq sorted

theorem enumerate_enumerate (members : List (List Nat × β)) :
    enumerate (enumerate members) = enumerate members :=
  sortNames_sorted (sortNames_pairwise (fun a b => le_total (rank a) (rank b))
    (fun _ _ _ => le_trans) members)

end Sorting

theorem allOf_map {α β : Type} {f : α → Except String β} {items : List α} {values : List β} :
    allOf (items.map f) = .ok values ↔
      List.Forall₂ (fun item value => f item = .ok value) items values := by
  induction items generalizing values with
  | nil =>
    rw [List.forall₂_nil_left_iff, List.map_nil, allOf, Except.ok.injEq]
    exact eq_comm
  | cons item items ih =>
    rw [List.map_cons, allOf, bind_eq_ok]
    constructor
    · rintro ⟨value, here, ran⟩
      obtain ⟨values, later, same⟩ := bind_eq_ok.mp ran
      cases same
      exact List.Forall₂.cons here (ih.mp later)
    · intro matched
      cases matched with
      | cons here later =>
        refine ⟨_, here, bind_eq_ok.mpr ⟨_, ih.mpr later, rfl⟩⟩

variable {what : String} {depth : Nat} {value : Json}

theorem within_ok {result : Except String Json} :
    within what depth result = .ok value ↔ depth < maxDepth ∧ result = .ok value := by
  unfold within
  split
  · rename_i deep
    simp [Nat.not_lt.mpr deep]
  · rename_i inside
    simp [Nat.not_le.mp inside]

section Walked

variable {what : String} {number : JsonNumber → Except String JsonNumber}
variable {r : List Nat → List Nat → Prop} [DecidableRel r] {depth : Nat}

theorem walkItems_eq (items : List Json) :
    walkItems what number r depth items = items.map (walk what number r depth) := by
  induction items with
  | nil => rfl
  | cons item items ih => rw [walkItems, ih, List.map_cons]

theorem walkMembers_eq (members : Members) : walkMembers what number r depth members =
    members.map fun member => (member.1, walk what number r depth member.2) := by
  induction members with
  | nil => rfl
  | cons member members ih =>
    rw [walkMembers, walkMember, ih, List.map_cons]

variable {value : Json}

theorem walk_array {items : List Json} :
    walk what number r depth (.array items) = .ok value ↔ depth < maxDepth ∧ ∃ others,
      List.Forall₂ (fun item other => walk what number r (depth + 1) item = .ok other)
        items others ∧ Value.array others = value := by
  rw [walk, within_ok, map_eq_ok, walkItems_eq]
  simp only [allOf_map]

theorem walk_object {members : Members} :
    walk what number r depth (.object members) = .ok value ↔ depth < maxDepth ∧ ∃ others,
      List.Forall₂ (fun member other : List Nat × Json => other.1 = member.1 ∧
        walk what number r (depth + 1) member.2 = .ok other.2) (sortNames r members) others ∧
          Value.object (enumerate others) = value := by
  have each : ∀ member other : List Nat × Json,
      (walk what number r (depth + 1) member.2).map (Prod.mk member.1) = .ok other ↔
        other.1 = member.1 ∧ walk what number r (depth + 1) member.2 = .ok other.2 := by
    intro member other
    rw [map_eq_ok]
    constructor
    · rintro ⟨read, ran, rfl⟩
      exact ⟨rfl, ran⟩
    · rintro ⟨named, ran⟩
      exact ⟨other.2, ran, by rw [← named]⟩
  rw [walk, within_ok, walkMembers_eq, sortNames_map, defineAll, List.map_map]
  simp only [map_eq_ok, Function.comp_def, allOf_map, each, exists_exists_and_eq_and]

theorem walk_canonical (numbers : ∀ value, number (.finite value) = .ok (.finite value))
    (orders : ∀ members : Members, enumerate (sortKeys members) = members →
      enumerate (sortNames r members) = members)
    (canonical : Canonical depth value) : walk what number r depth value = .ok value := by
  induction canonical with
  | null inside => rw [walk, within_ok]; exact ⟨inside, rfl⟩
  | bool value inside => rw [walk, within_ok]; exact ⟨inside, rfl⟩
  | number inside double =>
    rw [walk, within_ok, numbers]
    exact ⟨inside, rfl⟩
  | string inside small => rw [walk, within_ok]; exact ⟨inside, rfl⟩
  | array inside _ ih =>
    exact walk_array.mpr ⟨inside, _, List.forall₂_same.mpr ih, rfl⟩
  | object inside named distinct ordered _ ih =>
    refine walk_object.mpr ⟨inside, _, List.forall₂_same.mpr fun member listed => ?_,
      congrArg Value.object (orders _ ordered)⟩
    exact ⟨rfl, ih member ((sortNames_perm _).mem_iff.mp listed)⟩

end Walked

theorem canonicalize_canonical (canonical : Canonical depth value) :
    canonicalize depth value = .ok value := by
  exact walk_canonical (fun value => show canonicalNumber (.finite value) = _ from rfl)
    (fun _ ordered => ordered) canonical

theorem assertJsonValue_canonical (canonical : Canonical depth value) :
    assertJsonValue what depth value = .ok value := by
  refine walk_canonical (fun _ => rfl) (fun members ordered => ?_) canonical
  rw [enumerate_enumerate, ← ordered, enumerate_enumerate]

section Sameness

variable {depth : Nat}

theorem same_array {items others : List Json} (each : List.Forall₂ Same items others)
    (before : List Json) : Same (.array (before ++ items)) (.array (before ++ others)) := by
  induction each generalizing before with
  | nil => exact .refl _
  | @cons item other items others same _ ih =>
    refine (Same.item before items same).trans ?_
    rw [List.append_cons before other items, List.append_cons before other others]
    exact ih (before ++ [other])

theorem same_object {members others : Members} (each : List.Forall₂
    (fun member other : List Nat × Json => other.1 = member.1 ∧ Same member.2 other.2)
    members others) (before : Members) :
    Same (.object (before ++ members)) (.object (before ++ others)) := by
  induction each generalizing before with
  | nil => exact .refl _
  | @cons member other members others same _ ih =>
    obtain ⟨key, value⟩ := member
    obtain ⟨name, read⟩ := other
    obtain ⟨rfl, same⟩ := same
    refine (Same.member before members name same).trans ?_
    rw [List.append_cons before (name, read) members, List.append_cons before (name, read) others]
    exact ih (before ++ [(name, read)])

theorem names_of_forall₂ {P : List Nat × Json → List Nat × Json → Prop} {members others : Members}
    (each : List.Forall₂ (fun member other => other.1 = member.1 ∧ P member other) members others) :
    others.map Prod.fst = members.map Prod.fst := by
  induction each with
  | nil => rfl
  | cons same _ ih => rw [List.map_cons, List.map_cons, same.1, ih]

theorem exists_of_forall₂ {α β : Type} {R : α → β → Prop} {items : List α} {others : List β}
    (each : List.Forall₂ R items others) {other : β} (listed : other ∈ others) :
    ∃ item ∈ items, R item other := by
  induction each with
  | nil => cases listed
  | cons first _ ih =>
    rcases List.mem_cons.mp listed with rfl | later
    · exact ⟨_, List.mem_cons_self, first⟩
    · obtain ⟨item, member, held⟩ := ih later
      exact ⟨item, List.mem_cons_of_mem _ member, held⟩

theorem forall₂_of_mem {α β : Type} {R S : α → β → Prop} {items : List α} {others : List β}
    (each : List.Forall₂ R items others)
    (more : ∀ item ∈ items, ∀ other, R item other → S item other) :
    List.Forall₂ S items others := by
  induction each with
  | nil => exact List.Forall₂.nil
  | cons first _ ih =>
    exact List.Forall₂.cons (more _ List.mem_cons_self _ first)
      (ih fun item listed => more item (List.mem_cons_of_mem _ listed))

theorem canonical_of_canonicalize {value read : Json} (json : IsJson value)
    (ran : canonicalize depth value = .ok read) : Canonical depth read ∧ Same value read := by
  induction json generalizing depth read with
  | null =>
    rw [canonicalize, walk, within_ok] at ran
    obtain ⟨inside, same⟩ := ran
    cases same
    exact ⟨.null inside, .refl _⟩
  | bool value =>
    rw [canonicalize, walk, within_ok] at ran
    obtain ⟨inside, same⟩ := ran
    cases same
    exact ⟨.bool value inside, .refl _⟩
  | @number value double =>
    rw [canonicalize, walk, within_ok] at ran
    obtain ⟨inside, same⟩ := ran
    cases value with
    | finite value =>
      cases same
      exact ⟨.number inside double, .refl _⟩
    | negativeZero =>
      cases same
      exact ⟨.number inside (by simp [Binary64, roundBinary64]), .zero⟩
    | notFinite => cases same
    | nan => cases same
  | string small =>
    rw [canonicalize, walk, within_ok] at ran
    obtain ⟨inside, same⟩ := ran
    cases same
    exact ⟨.string inside small, .refl _⟩
  | @array items _ ih =>
    obtain ⟨inside, others, each, rfl⟩ := walk_array.mp ran
    refine ⟨.array inside fun other listed => ?_, ?_⟩
    · obtain ⟨item, member, held⟩ := exists_of_forall₂ each listed
      exact (ih item member held).1
    · exact same_array (forall₂_of_mem each fun item member _ held => (ih item member held).2) []
  | @object members named distinct _ ih =>
    obtain ⟨inside, others, each, rfl⟩ := walk_object.mp ran
    have sorted : (sortKeys members).Perm members := sortNames_perm members
    have listing : (enumerate others).Perm others := sortNames_perm others
    have names : others.map Prod.fst = (sortKeys members).map Prod.fst := names_of_forall₂ each
    have distinct' : (others.map Prod.fst).Nodup := by
      rw [names]
      exact (sorted.map Prod.fst).nodup_iff.mpr distinct
    have ascending : sortKeys others = others := by
      refine sortNames_sorted ?_
      have pairs := List.pairwise_map.mpr (sortKeys_pairwise members)
      rw [← names] at pairs
      exact List.pairwise_map.mp pairs
    have ordered : enumerate (sortKeys (enumerate others)) = enumerate others := by
      rw [sortKeys_of_perm listing ((listing.map Prod.fst).nodup_iff.mpr distinct'), ascending]
    refine ⟨.object inside ?_ ((listing.map Prod.fst).nodup_iff.mpr distinct') ordered ?_, ?_⟩
    · intro other listed
      obtain ⟨member, present, held⟩ := exists_of_forall₂ each (listing.mem_iff.mp listed)
      rw [held.1]
      exact named member (sorted.mem_iff.mp present)
    · intro other listed
      obtain ⟨member, present, held⟩ := exists_of_forall₂ each (listing.mem_iff.mp listed)
      exact (ih member (sorted.mem_iff.mp present) held.2).1
    · refine (Same.order sorted.symm).trans (Same.trans (same_object ?_ []) (.order listing.symm))
      refine forall₂_of_mem each fun member present other held => ⟨held.1, ?_⟩
      exact (ih member (sorted.mem_iff.mp present) held.2).2

theorem json_object_iff {members : Members} : IsJson (.object members) ↔
    (∀ member ∈ members, Units member.1) ∧ (members.map Prod.fst).Nodup ∧
      ∀ member ∈ members, IsJson member.2 := by
  constructor
  · intro json
    cases json with
    | object named distinct each => exact ⟨named, distinct, each⟩
  · rintro ⟨named, distinct, each⟩
    exact .object named distinct each

theorem json_array_iff {items : List Json} :
    IsJson (.array items) ↔ ∀ item ∈ items, IsJson item := by
  constructor
  · intro json
    cases json with
    | array each => exact each
  · exact .array

theorem canonicalize_same {first second : Json} (same : Same first second) :
    (IsJson first ↔ IsJson second) ∧
      (IsJson first → ∀ depth, canonicalize depth first = canonicalize depth second) := by
  induction same with
  | refl value => exact ⟨Iff.rfl, fun _ _ => rfl⟩
  | symm _ ih => exact ⟨ih.1.symm, fun json depth => (ih.2 (ih.1.mpr json) depth).symm⟩
  | trans _ _ ih ih' =>
    exact ⟨ih.1.trans ih'.1, fun json depth => (ih.2 json depth).trans (ih'.2 (ih.1.mp json) depth)⟩
  | zero =>
    refine ⟨⟨fun _ => .number (by simp [Double, Binary64, roundBinary64]), fun _ =>
      .number trivial⟩, fun _ depth => ?_⟩
    rfl
  | @order members others same =>
    refine ⟨?_, fun json depth => ?_⟩
    · rw [json_object_iff, json_object_iff, (same.map Prod.fst).nodup_iff]
      simp only [same.mem_iff]
    · rw [canonicalize, walk, walk, walkMembers_eq, walkMembers_eq, sortNames_map, sortNames_map]
      have sorted : sortNames (· ≤ ·) members = sortNames (· ≤ ·) others :=
        sortKeys_of_perm same (json_object_iff.mp json).2.1
      rw [sorted]
  | item before after same ih =>
    refine ⟨?_, fun json depth => ?_⟩
    · simp only [json_array_iff, List.forall_mem_append, List.forall_mem_cons, ih.1]
    · have here := ih.2 (json_array_iff.mp json _ (by simp)) (depth + 1)
      unfold canonicalize at here ⊢
      rw [walk, walk, walkItems_eq, walkItems_eq, List.map_append, List.map_append, List.map_cons,
        List.map_cons, here]
  | member before after key same ih =>
    refine ⟨?_, fun json depth => ?_⟩
    · simp only [json_object_iff, List.forall_mem_append, List.forall_mem_cons, List.map_append,
        List.map_cons, ih.1]
    · have here := ih.2 ((json_object_iff.mp json).2.2 _ (List.mem_append_right _
        List.mem_cons_self)) (depth + 1)
      unfold canonicalize at here ⊢
      rw [walk, walk, walkMembers_eq, walkMembers_eq, List.map_append, List.map_append,
        List.map_cons, List.map_cons, here]

end Sameness

section Acceptance

variable {depth : Nat}

theorem exists_forall₂ {α β : Type} {R : α → β → Prop} {items : List α} :
    (∃ others, List.Forall₂ R items others) ↔ ∀ item ∈ items, ∃ other, R item other := by
  induction items with
  | nil => simp
  | cons item items ih =>
    rw [List.forall_mem_cons, ← ih]
    constructor
    · rintro ⟨_, each⟩
      cases each with
      | cons first rest => exact ⟨⟨_, first⟩, _, rest⟩
    · rintro ⟨⟨other, first⟩, others, rest⟩
      exact ⟨other :: others, List.Forall₂.cons first rest⟩

variable {P : Nat → Json → Prop}

theorem nested_leaf {value : Json}
    (leaf : ∀ {level inner}, Nested value level inner → level = 0 ∧ inner = value) :
    (∀ level inner, Nested value level inner → P level inner) ↔ P 0 value := by
  constructor
  · exact fun all => all 0 value (.here value)
  · intro held level inner nested
    obtain ⟨rfl, rfl⟩ := leaf nested
    exact held

theorem nested_array {items : List Json} :
    (∀ level inner, Nested (.array items) level inner → P level inner) ↔
      P 0 (.array items) ∧ ∀ item ∈ items, ∀ level inner, Nested item level inner →
        P (level + 1) inner := by
  constructor
  · exact fun all => ⟨all 0 _ (.here _), fun item listed level inner nested =>
      all (level + 1) inner (.item listed nested)⟩
  · rintro ⟨here, below⟩ level inner nested
    cases nested with
    | here => exact here
    | item listed nested => exact below _ listed _ _ nested

theorem nested_object {members : Members} :
    (∀ level inner, Nested (.object members) level inner → P level inner) ↔
      P 0 (.object members) ∧ ∀ member ∈ members, ∀ level inner,
        Nested member.2 level inner → P (level + 1) inner := by
  constructor
  · exact fun all => ⟨all 0 _ (.here _), fun member listed level inner nested =>
      all (level + 1) inner (.member listed nested)⟩
  · rintro ⟨here, below⟩ level inner nested
    cases nested with
    | here => exact here
    | member listed nested => exact below _ listed _ _ nested

theorem accepts_iff {value : Json} (json : IsJson value) :
    (∃ read, canonicalize depth value = .ok read) ↔ ∀ level inner, Nested value level inner →
      depth + level < maxDepth ∧ ¬ NonFinite inner := by
  induction json generalizing depth with
  | null =>
    rw [nested_leaf (by rintro _ _ ⟨⟩; exact ⟨rfl, rfl⟩), canonicalize]
    simp [walk, within_ok, NonFinite]
  | bool value =>
    rw [nested_leaf (by rintro _ _ ⟨⟩; exact ⟨rfl, rfl⟩), canonicalize]
    simp [walk, within_ok, NonFinite]
  | @number value _ =>
    rw [nested_leaf (by rintro _ _ ⟨⟩; exact ⟨rfl, rfl⟩), canonicalize]
    cases value <;>
      simp [walk, within_ok, NonFinite, JsonNumber.finite?, canonicalNumber, Except.map]
  | string =>
    rw [nested_leaf (by rintro _ _ ⟨⟩; exact ⟨rfl, rfl⟩), canonicalize]
    simp [walk, within_ok, NonFinite]
  | @array items _ ih =>
    have each : (∃ read, canonicalize depth (.array items) = .ok read) ↔ depth < maxDepth ∧
        ∀ item ∈ items, ∃ other, canonicalize (depth + 1) item = .ok other := by
      rw [← exists_forall₂]
      constructor
      · rintro ⟨_, ran⟩
        obtain ⟨inside, others, matched, _⟩ := walk_array.mp ran
        exact ⟨inside, others, matched⟩
      · rintro ⟨inside, others, matched⟩
        exact ⟨_, walk_array.mpr ⟨inside, others, matched, rfl⟩⟩
    rw [each, nested_array]
    refine and_congr (by simp [NonFinite]) (forall₂_congr fun item listed => ?_)
    rw [ih item listed]
    simp only [Nat.add_assoc, Nat.add_comm 1]
  | @object members _ _ _ ih =>
    have sorted : (sortKeys members).Perm members := sortNames_perm members
    have each : (∃ read, canonicalize depth (.object members) = .ok read) ↔ depth < maxDepth ∧
        ∀ member ∈ members, ∃ other, canonicalize (depth + 1) member.2 = .ok other := by
      constructor
      · rintro ⟨_, ran⟩
        obtain ⟨inside, others, matched, _⟩ := walk_object.mp ran
        refine ⟨inside, fun member listed => ?_⟩
        have found := exists_forall₂.mp (Exists.intro others matched)
        obtain ⟨other, held⟩ := found member (sorted.mem_iff.mpr listed)
        exact ⟨other.2, held.2⟩
      · rintro ⟨inside, accepted⟩
        have found : ∃ others, List.Forall₂ (fun member other : List Nat × Json =>
            other.1 = member.1 ∧ canonicalize (depth + 1) member.2 = .ok other.2)
            (sortKeys members) others := by
          refine exists_forall₂.mpr fun member listed => ?_
          obtain ⟨other, ran⟩ := accepted member (sorted.mem_iff.mp listed)
          exact ⟨(member.1, other), rfl, ran⟩
        obtain ⟨others, matched⟩ := found
        exact ⟨_, walk_object.mpr ⟨inside, others, matched, rfl⟩⟩
    rw [each, nested_object]
    refine and_congr (by simp [NonFinite]) (forall₂_congr fun member listed => ?_)
    rw [ih member listed]
    simp only [Nat.add_assoc, Nat.add_comm 1]

end Acceptance

theorem itemEntries_values (items : List Json) :
    ((itemEntries items).members readNumeral).map Prod.snd =
      items.map fun item => (writeTree item).value readNumeral := by
  induction items with
  | nil => rfl
  | cons item items ih => rw [itemEntries, Entries.members, List.map_cons, ih, List.map_cons]

theorem properItems_iff {items : List Json} : ProperItems items ↔ ∀ item ∈ items, Proper item := by
  induction items with
  | nil => simp [ProperItems]
  | cons item items ih => simp [ProperItems, ih]

theorem properMembers_iff {members : Members} :
    ProperMembers members ↔ ∀ member ∈ members, Units member.1 ∧ Proper member.2 := by
  induction members with
  | nil => simp [ProperMembers]
  | cons member members ih =>
    obtain ⟨name, value⟩ := member
    simp [ProperMembers, ProperMember, ih]

theorem written_value (canonical : Canonical depth value) :
    Proper value ∧ (writeTree value).value readNumeral = value := by
  induction canonical with
  | null => exact ⟨trivial, rfl⟩
  | bool value => cases value <;> exact ⟨trivial, rfl⟩
  | number _ double => exact ⟨trivial, JsonWriter.writeTree_number double⟩
  | string _ small => exact ⟨small, JsonWriter.writeTree_string small⟩
  | @array _ items _ _ ih =>
    refine ⟨properItems_iff.mpr fun item listed => (ih item listed).1, ?_⟩
    rw [writeTree, Tree.value, itemEntries_values]
    exact congrArg Value.array ((List.map_congr_left fun item listed =>
      (ih item listed).2).trans (List.map_id items))
  | @object _ members _ named distinct _ _ ih =>
    have proper : ProperMembers members :=
      properMembers_iff.mpr fun member listed => ⟨named member listed, (ih member listed).1⟩
    have names : ((memberEntries members).members readNumeral).map Prod.fst =
        members.map Prod.fst := by
      rw [map_fst_members, JsonWriter.names_memberEntries proper]
    refine ⟨⟨distinct, proper⟩, ?_⟩
    rw [writeTree, Tree.value, settle_nodup (by rwa [names]),
      JsonWriter.members_memberEntries proper]
    refine congrArg Value.object ((List.map_congr_left fun member listed => ?_).trans
      (List.map_id members))
    obtain ⟨name, value⟩ := member
    exact congrArg (Prod.mk name) (ih (name, value) listed).2

theorem parse_stringify (proper : Proper value) :
    parse readNumeral (JsonWriter.stringify value) =
      some ((writeTree value).value readNumeral) := by
  have valid : (⟨[], writeTree value, []⟩ : Document).Valid :=
    ⟨blank_nil, JsonWriter.writeTree_valid value proper, blank_nil⟩
  have document := readDocument_render valid
  rw [Document.render, List.nil_append, List.append_nil, JsonWriter.writeTree_render] at document
  rw [parse, document]
  rfl

theorem parseJsonValue_canonical (canonical : Canonical 0 value) :
    parseJsonValue what (JsonWriter.stringify value) = .ok value := by
  obtain ⟨proper, same⟩ := written_value canonical
  rw [parseJsonValue, parse_stringify proper, same]
  exact assertJsonValue_canonical canonical

theorem read_back (what : String) (json : IsJson value) {text : List Char}
    (written : stringifyCanonical value = .ok text) :
    ∃ read, canonicalize 0 value = .ok read ∧ parseJsonValue what text = .ok read := by
  obtain ⟨read, ran, rfl⟩ := map_eq_ok.mp written
  exact ⟨read, ran, parseJsonValue_canonical (canonical_of_canonicalize json ran).1⟩

theorem same_of_text {first second : Json} (json : IsJson first) (json' : IsJson second)
    {text : List Char} (written : stringifyCanonical first = .ok text)
    (written' : stringifyCanonical second = .ok text) : Same first second := by
  obtain ⟨read, ran, parsed⟩ := read_back "" json written
  obtain ⟨read', ran', parsed'⟩ := read_back "" json' written'
  obtain rfl : read = read' := Except.ok.inj (parsed.symm.trans parsed')
  exact (canonical_of_canonicalize json ran).2.trans
    (canonical_of_canonicalize json' ran').2.symm

/-- Canonical JSON is a normal form: it is written once and for all, tells values apart, is read
back as it was, and is refused to what is not finite or too deep. -/
theorem canonical_normal_form (what : String) :
    (∀ value, IsJson value → ∀ depth read, canonicalize depth value = .ok read →
      canonicalize depth read = .ok read) ∧
    (∀ first second, IsJson first → IsJson second →
      (Same first second → stringifyCanonical first = stringifyCanonical second) ∧
        ∀ text, stringifyCanonical first = .ok text → stringifyCanonical second = .ok text →
          Same first second) ∧
    (∀ value, IsJson value → ∀ text, stringifyCanonical value = .ok text →
      ∃ read, canonicalize 0 value = .ok read ∧ parseJsonValue what text = .ok read) ∧
    ∀ value, IsJson value → ((∃ text, stringifyCanonical value = .ok text) ↔
      ∀ level inner, Nested value level inner → level < maxDepth ∧ ¬ NonFinite inner) := by
  refine ⟨fun value json depth read ran => ?_, fun first second json json' => ⟨fun same => ?_,
    fun text => same_of_text json json'⟩, fun value json text => read_back what json,
    fun value json => ?_⟩
  · exact canonicalize_canonical (canonical_of_canonicalize json ran).1
  · exact congrArg (Except.map JsonWriter.stringify) ((canonicalize_same same).2 json 0)
  · have accepted := @accepts_iff 0 _ json
    simp only [Nat.zero_add] at accepted
    rw [← accepted]
    constructor
    · rintro ⟨text, written⟩
      obtain ⟨read, ran, _⟩ := map_eq_ok.mp written
      exact ⟨read, ran⟩
    · rintro ⟨read, ran⟩
      exact ⟨_, map_eq_ok.mpr ⟨read, ran, rfl⟩⟩

theorem canonical_normal_form_sample : ∃ read, canonicalize 0 (.object
      [([95, 95], .null), ([49, 48], .bool true), ([57], .string [0xD800])]) = .ok read ∧
    parseJsonValue "payload"
      "\x7b\"9\":\"\\ud800\",\"10\":true,\"__\":null\x7d".toList = .ok read := by
  refine (canonical_normal_form "payload").2.2.1 _ ?_ _ (by decide +kernel)
  refine .object (by decide) (by decide) ?_
  simp only [List.forall_mem_cons]
  exact ⟨.null, .bool true, .string (by decide), fun _ none => nomatch none⟩

end Heniek.CanonicalForm
