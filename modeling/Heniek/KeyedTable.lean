import Mathlib.Data.List.Basic
import Mathlib.Data.List.Nodup
import Mathlib.Data.List.Sort

/-!
Rows kept in insertion order under a primary key that is read off the row.
`upsert` replaces a row in place or appends it, as setting a key of an
insertion-ordered map does; `insert?` refuses a taken key, as a primary-key
constraint does. The distinctness of the keys is part of the table.
-/

namespace KeyedTable

variable {α κ : Type*}

structure Table (key : α → κ) where
  rows : List α
  distinct : (rows.map key).Nodup

namespace Table

variable {key : α → κ}

def empty : Table key := ⟨[], List.nodup_nil⟩

def keys (t : Table key) : List κ := t.rows.map key

instance decidableMemKeys [DecidableEq κ] (k : κ) (t : Table key) : Decidable (k ∈ t.keys) :=
  inferInstanceAs (Decidable (k ∈ t.rows.map key))

@[simp] theorem keys_empty : (empty : Table key).keys = [] := rfl

variable {t u : Table key} {a b : α} {f : α → α} {keeps : ∀ a, key (f a) = key a} {k : κ}
  {as : List α}

theorem mem_keys_of_mem (member : a ∈ t.rows) : key a ∈ t.keys :=
  List.mem_map_of_mem member

theorem eq_of_key_eq (ha : a ∈ t.rows) (hb : b ∈ t.rows) (same : key a = key b) : a = b :=
  List.inj_on_of_nodup_map t.distinct ha hb same

def mapAll (t : Table key) (f : α → α) (keeps : ∀ a, key (f a) = key a) : Table key where
  rows := t.rows.map f
  distinct := by
    have same : (t.rows.map f).map key = t.rows.map key := by
      rw [List.map_map]
      exact List.map_congr_left fun a _ => keeps a
    rw [same]
    exact t.distinct

theorem mem_mapAll : b ∈ (t.mapAll f keeps).rows ↔ ∃ a ∈ t.rows, f a = b :=
  List.mem_map

@[simp] theorem keys_mapAll (keeps : ∀ a, key (f a) = key a) :
    (t.mapAll f keeps).keys = t.keys := by
  simp only [keys, mapAll, List.map_map]
  exact List.map_congr_left fun a _ => keeps a

/-- `DELETE` of the rows that satisfy a condition. -/
def deleteWhere (t : Table key) (p : α → Bool) : Table key where
  rows := t.rows.filter fun a => !p a
  distinct := t.distinct.sublist (List.filter_sublist.map key)

theorem mem_deleteWhere {p : α → Bool} : b ∈ (t.deleteWhere p).rows ↔ b ∈ t.rows ∧ p b = false := by
  simp [deleteWhere]

variable [DecidableEq κ]

def find? (t : Table key) (k : κ) : Option α := t.rows.find? fun a => key a = k

theorem find?_eq_some : t.find? k = some a ↔ a ∈ t.rows ∧ key a = k := by
  constructor
  · intro found
    exact ⟨List.mem_of_find?_eq_some found, by simpa using List.find?_some found⟩
  · rintro ⟨member, same⟩
    cases result : t.find? k with
    | none =>
      have absent := List.find?_eq_none.mp result a member
      simp [same] at absent
    | some b =>
      have hb : key b = k := by simpa using List.find?_some result
      rw [eq_of_key_eq member (List.mem_of_find?_eq_some result) (same.trans hb.symm)]

theorem find?_key (member : a ∈ t.rows) : t.find? (key a) = some a :=
  find?_eq_some.mpr ⟨member, rfl⟩

theorem key_of_find? (found : t.find? k = some a) : key a = k :=
  (find?_eq_some.mp found).2

theorem mem_of_find? (found : t.find? k = some a) : a ∈ t.rows :=
  (find?_eq_some.mp found).1

theorem find?_eq_none : t.find? k = none ↔ k ∉ t.keys := by
  simp [find?, keys]

theorem find?_isSome : (t.find? k).isSome ↔ k ∈ t.keys := by
  rw [Option.isSome_iff_ne_none, Ne, find?_eq_none, not_not]

theorem exists_find? (present : k ∈ t.keys) : ∃ a, t.find? k = some a :=
  Option.isSome_iff_exists.mp (find?_isSome.mpr present)

@[simp] theorem find?_empty (k : κ) : (empty : Table key).find? k = none := rfl

private def put (key : α → κ) (a : α) (rows : List α) : List α :=
  if key a ∈ rows.map key then rows.map fun b => if key b = key a then a else b else rows ++ [a]

private theorem map_put (a : α) (rows : List α) :
    (put key a rows).map key =
      if key a ∈ rows.map key then rows.map key else rows.map key ++ [key a] := by
  unfold put
  split
  · rw [List.map_map]
    apply List.map_congr_left
    intro b _
    by_cases same : key b = key a <;> simp [same]
  · simp

/-- The insertion-ordered map update: in place when the key is present, else at the end. -/
def upsert (t : Table key) (a : α) : Table key where
  rows := put key a t.rows
  distinct := by
    rw [map_put]
    split
    · exact t.distinct
    · rename_i fresh
      exact List.nodup_append.mpr ⟨t.distinct, by simp, by
        intro k hk b hb same
        rw [List.mem_singleton] at hb
        exact fresh (hb ▸ same ▸ hk)⟩

theorem keys_upsert (t : Table key) (a : α) :
    (t.upsert a).keys = if key a ∈ t.keys then t.keys else t.keys ++ [key a] := map_put a t.rows

theorem keys_upsert_of_mem (present : key a ∈ t.keys) : (t.upsert a).keys = t.keys := by
  rw [keys_upsert, if_pos present]

theorem mem_keys_upsert : k ∈ (t.upsert a).keys ↔ k ∈ t.keys ∨ k = key a := by
  rw [keys_upsert]
  split
  · rename_i present
    constructor
    · exact Or.inl
    · rintro (h | rfl)
      · exact h
      · exact present
  · simp

theorem mem_upsert : b ∈ (t.upsert a).rows ↔ b = a ∨ (b ∈ t.rows ∧ key b ≠ key a) := by
  change b ∈ put key a t.rows ↔ _
  unfold put
  split
  · rename_i present
    rw [List.mem_map]
    constructor
    · rintro ⟨c, hc, rfl⟩
      by_cases same : key c = key a
      · exact Or.inl (if_pos same)
      · exact Or.inr (by simpa only [if_neg same] using ⟨hc, same⟩)
    · rintro (rfl | ⟨hb, different⟩)
      · obtain ⟨c, hc, same⟩ := List.mem_map.mp present
        exact ⟨c, hc, if_pos same⟩
      · exact ⟨b, hb, if_neg different⟩
  · rename_i fresh
    rw [List.mem_append, List.mem_singleton]
    constructor
    · rintro (hb | rfl)
      · exact Or.inr ⟨hb, fun same => fresh (same ▸ List.mem_map_of_mem hb)⟩
      · exact Or.inl rfl
    · rintro (rfl | ⟨hb, _⟩)
      · exact Or.inr rfl
      · exact Or.inl hb

theorem find?_upsert (t : Table key) (a : α) (k : κ) :
    (t.upsert a).find? k = if k = key a then some a else t.find? k := by
  split
  · rename_i same
    exact find?_eq_some.mpr ⟨mem_upsert.mpr (Or.inl rfl), same.symm⟩
  · rename_i different
    apply Option.ext
    intro b
    rw [find?_eq_some, find?_eq_some, mem_upsert]
    constructor
    · rintro ⟨rfl | ⟨hb, _⟩, hk⟩
      · exact absurd hk.symm different
      · exact ⟨hb, hk⟩
    · rintro ⟨hb, hk⟩
      exact ⟨Or.inr ⟨hb, fun same => different (hk ▸ same)⟩, hk⟩

@[simp] theorem find?_upsert_self (t : Table key) (a : α) :
    (t.upsert a).find? (key a) = some a := by
  rw [find?_upsert, if_pos rfl]

theorem find?_upsert_of_ne (t : Table key) (different : k ≠ key a) :
    (t.upsert a).find? k = t.find? k := by
  rw [find?_upsert, if_neg different]

theorem upsert_upsert (t : Table key) (same : key a = key b) :
    (t.upsert a).upsert b = t.upsert b := by
  have rows : put key b (put key a t.rows) = put key b t.rows := by
    by_cases present : key b ∈ t.rows.map key
    · have first : key a ∈ t.rows.map key := same ▸ present
      have kept : key b ∈ (put key a t.rows).map key := by rwa [map_put, if_pos first]
      rw [put, if_pos kept, put, if_pos first, put, if_pos present, List.map_map]
      apply List.map_congr_left
      intro c _
      by_cases replaced : key c = key a
      · simp [replaced, same]
      · simp [replaced, same ▸ replaced]
    · have first : key a ∉ t.rows.map key := same ▸ present
      have appended : put key a t.rows = t.rows ++ [a] := if_neg first
      have untouched : t.rows.map (fun c => if key c = key b then b else c) = t.rows := by
        refine (List.map_congr_left ?_).trans (List.map_id t.rows)
        intro c hc
        exact if_neg fun clash => present (List.mem_map.mpr ⟨c, hc, clash⟩)
      rw [appended, put, if_pos (by simp [same]), put, if_neg present, List.map_append, untouched]
      simp [same]
  simp only [upsert, rows]

theorem rows_upsert_of_mem (member : b ∈ t.rows) (same : key b = key a) :
    ∃ left right, t.rows = left ++ b :: right ∧ (t.upsert a).rows = left ++ a :: right := by
  obtain ⟨left, right, split⟩ := List.append_of_mem member
  refine ⟨left, right, split, ?_⟩
  have distinct := t.distinct
  rw [split, List.map_append, List.map_cons, List.nodup_middle, List.nodup_cons, List.mem_append,
    not_or] at distinct
  have kept : ∀ rows : List α, key b ∉ rows.map key →
      rows.map (fun c => if key c = key a then a else c) = rows := by
    intro rows absent
    refine (List.map_congr_left ?_).trans (List.map_id rows)
    intro c listed
    exact if_neg fun clash => absent (List.mem_map.mpr ⟨c, listed, clash.trans same.symm⟩)
  have present : key a ∈ t.rows.map key := same ▸ List.mem_map_of_mem member
  calc
    (t.upsert a).rows = t.rows.map fun c => if key c = key a then a else c := if_pos present
    _ = left ++ a :: right := by
      rw [split, List.map_append, List.map_cons, if_pos same, kept left distinct.1.1,
        kept right distinct.1.2]

theorem rows_upsert_of_not_mem (fresh : key a ∉ t.keys) :
    (t.upsert a).rows = t.rows ++ [a] := if_neg fresh

theorem mem_upsert_of_fresh (fresh : key a ∉ t.keys) (member : b ∈ t.rows) :
    b ∈ (t.upsert a).rows :=
  mem_upsert.mpr (Or.inr ⟨member, fun same => fresh (same ▸ mem_keys_of_mem member)⟩)

theorem countP_upsert (p : α → Bool) (member : b ∈ t.rows) (same : key b = key a) :
    (t.upsert a).rows.countP p + (if p b then 1 else 0) =
      t.rows.countP p + if p a then 1 else 0 := by
  obtain ⟨left, right, split, replaced⟩ := rows_upsert_of_mem member same
  simp only [split, replaced, List.countP_append, List.countP_cons]
  omega

def upsertAll (t : Table key) (as : List α) : Table key := as.foldl upsert t

theorem mem_keys_upsertAll : k ∈ (t.upsertAll as).keys ↔ k ∈ t.keys ∨ k ∈ as.map key := by
  induction as generalizing t with
  | nil => simp [upsertAll]
  | cons a as ih =>
    change k ∈ ((t.upsert a).upsertAll as).keys ↔ _
    rw [ih, mem_keys_upsert, List.map_cons, List.mem_cons, or_assoc]

theorem find?_upsertAll_of_not_mem (absent : k ∉ as.map key) :
    (t.upsertAll as).find? k = t.find? k := by
  induction as generalizing t with
  | nil => rfl
  | cons a as ih =>
    rw [List.map_cons, List.mem_cons, not_or] at absent
    change ((t.upsert a).upsertAll as).find? k = _
    rw [ih absent.2, find?_upsert_of_ne t absent.1]

theorem find?_upsertAll_of_nodup (distinct : (as.map key).Nodup) (member : a ∈ as) :
    (t.upsertAll as).find? (key a) = some a := by
  induction as generalizing t with
  | nil => cases member
  | cons b as ih =>
    rw [List.map_cons, List.nodup_cons] at distinct
    change ((t.upsert b).upsertAll as).find? (key a) = _
    rcases List.mem_cons.mp member with rfl | member
    · rw [find?_upsertAll_of_not_mem distinct.1, find?_upsert_self]
    · exact ih distinct.2 member

theorem mem_of_find?_upsertAll (found : (t.upsertAll as).find? k = some a) :
    a ∈ as ∨ t.find? k = some a := by
  induction as generalizing t with
  | nil => exact Or.inr found
  | cons b as ih =>
    rcases ih found with member | found
    · exact Or.inl (List.mem_cons_of_mem b member)
    · rw [find?_upsert] at found
      split at found
      · exact Or.inl (Option.some.inj found ▸ List.mem_cons_self)
      · exact Or.inr found

theorem mem_of_mem_upsertAll (member : a ∈ ((empty : Table key).upsertAll as).rows) : a ∈ as :=
  (mem_of_find?_upsertAll (find?_key member)).resolve_right (by simp)

theorem exists_find?_upsertAll (listed : k ∈ as.map key) :
    ∃ a ∈ as, key a = k ∧ ((empty : Table key).upsertAll as).find? k = some a := by
  obtain ⟨a, found⟩ := exists_find? (mem_keys_upsertAll.mpr (Or.inr listed))
  exact ⟨a, mem_of_mem_upsertAll (mem_of_find? found), key_of_find? found, found⟩

/-- The primary-key constraint: a row whose key is taken is refused. -/
def insert? (t : Table key) (a : α) : Option (Table key) :=
  if key a ∈ t.keys then none else some (t.upsert a)

theorem insert?_eq_some {t' : Table key} :
    t.insert? a = some t' ↔ key a ∉ t.keys ∧ t' = t.upsert a := by
  unfold insert?
  split
  · rename_i present
    simp [present]
  · rename_i absent
    simp [absent, eq_comm]

def insertOrIgnore (t : Table key) (a : α) : Table key := (t.insert? a).getD t

theorem mem_insertOrIgnore (member : b ∈ (t.insertOrIgnore a).rows) : b ∈ t.rows ∨ b = a := by
  unfold insertOrIgnore insert? at member
  split at member
  · exact Or.inl member
  · exact (mem_upsert.mp member).symm.imp And.left id

theorem mem_insertOrIgnore_of_mem (member : b ∈ t.rows) : b ∈ (t.insertOrIgnore a).rows := by
  unfold insertOrIgnore insert?
  split
  · exact member
  · rename_i fresh
    exact mem_upsert_of_fresh fresh member

theorem insertOrIgnore_of_mem (present : key a ∈ t.keys) : t.insertOrIgnore a = t := by
  rw [insertOrIgnore, insert?, if_pos present, Option.getD_none]

theorem rows_insertOrIgnore (fresh : key a ∉ t.keys) :
    (t.insertOrIgnore a).rows = t.rows ++ [a] := by
  rw [insertOrIgnore, insert?, if_neg fresh, Option.getD_some, rows_upsert_of_not_mem fresh]

theorem mem_keys_insertOrIgnore : k ∈ (t.insertOrIgnore a).keys ↔ k ∈ t.keys ∨ k = key a := by
  by_cases present : key a ∈ t.keys
  · rw [insertOrIgnore_of_mem present]
    constructor
    · exact Or.inl
    · rintro (listed | rfl)
      · exact listed
      · exact present
  · simp [keys, rows_insertOrIgnore present]

theorem find?_insertOrIgnore (t : Table key) (a : α) (k : κ) :
    (t.insertOrIgnore a).find? k =
      if k = key a then some ((t.find? k).getD a) else t.find? k := by
  unfold insertOrIgnore insert?
  by_cases present : key a ∈ t.keys
  · rw [if_pos present, Option.getD_none]
    split
    · rename_i same
      obtain ⟨b, found⟩ := exists_find? present
      rw [same, found, Option.getD_some]
    · rfl
  · rw [if_neg present, Option.getD_some, find?_upsert]
    split
    · rename_i same
      rw [same, find?_eq_none.mpr present, Option.getD_none]
    · rfl

/-- Of several rows under one key, the one that is there or comes first is kept. -/
theorem find?_foldl_insertOrIgnore (t : Table key) (as : List α) (k : κ) :
    (as.foldl insertOrIgnore t).find? k = (t.find? k).or (as.find? fun a => key a = k) := by
  induction as generalizing t with
  | nil => simp
  | cons a as ih =>
    rw [List.foldl_cons, ih, find?_insertOrIgnore, List.find?_cons]
    by_cases same : k = key a
    · subst same
      cases t.find? (key a) <;> simp
    · have different : ¬ key a = k := fun clash => same clash.symm
      simp only [if_neg same, different, decide_false]

/-- `UPDATE` of one row: nothing happens to an absent one. -/
def modify (t : Table key) (k : κ) (f : α → α) (keeps : ∀ a, key (f a) = key a) : Table key where
  rows := t.rows.map fun a => if key a = k then f a else a
  distinct := by
    have same : (t.rows.map fun a => if key a = k then f a else a).map key = t.rows.map key := by
      rw [List.map_map]
      apply List.map_congr_left
      intro a _
      by_cases here : key a = k <;> simp [here, keeps]
    rw [same]
    exact t.distinct

theorem mem_modify :
    b ∈ (t.modify k f keeps).rows ↔ ∃ a ∈ t.rows, (if key a = k then f a else a) = b :=
  List.mem_map

@[simp] theorem keys_modify (keeps : ∀ a, key (f a) = key a) :
    (t.modify k f keeps).keys = t.keys := by
  simp only [keys, modify, List.map_map]
  refine List.map_congr_left fun a _ => ?_
  by_cases here : key a = k <;> simp [here, keeps]

theorem mem_modify_of_ne (keeps : ∀ a, key (f a) = key a) (other : key b ≠ k) :
    b ∈ (t.modify k f keeps).rows ↔ b ∈ t.rows := by
  rw [mem_modify]
  constructor
  · rintro ⟨a, stored, rfl⟩
    split at other
    · rename_i here
      exact absurd ((keeps a).trans here) other
    · rename_i elsewhere
      rwa [if_neg elsewhere]
  · exact fun stored => ⟨b, stored, if_neg other⟩

theorem modify_eq_upsert (found : t.find? k = some a) : t.modify k f keeps = t.upsert (f a) := by
  obtain ⟨member, rfl⟩ := find?_eq_some.mp found
  have present : key (f a) ∈ t.rows.map key := keeps a ▸ List.mem_map_of_mem member
  have rows : (t.modify (key a) f keeps).rows = (t.upsert (f a)).rows := by
    change _ = put key (f a) t.rows
    rw [put, if_pos present]
    refine List.map_congr_left fun b listed => ?_
    rw [keeps a]
    split
    · rename_i same
      rw [eq_of_key_eq listed member same]
    · rfl
  cases modified : t.modify (key a) f keeps
  cases updated : t.upsert (f a)
  simp only [modified, updated] at rows
  subst rows
  rfl

end Table

theorem Table.nodup_slice {ι μ : Type*} [DecidableEq ι] {first : α → ι} {second : α → μ}
    (t : Table fun a => (first a, second a)) (i : ι) :
    ((t.rows.filter fun a => first a = i).map second).Nodup := by
  have keys : ((t.rows.filter fun a => first a = i).map fun a => (first a, second a)).Nodup :=
    t.distinct.sublist (List.filter_sublist.map _)
  rw [List.Nodup, List.pairwise_map] at keys ⊢
  refine keys.imp_of_mem ?_
  intro a b ha hb different same
  have here := of_decide_eq_true (List.mem_filter.mp ha).2
  have there := of_decide_eq_true (List.mem_filter.mp hb).2
  exact different (Prod.ext (here.trans there.symm) same)

end KeyedTable
