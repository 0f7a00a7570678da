import Heniek.KeyedTable

/-!
Rows in the order of a primary key that is read off the row, as a keyed table lists
them. One list stands for each set of rows, so tables with the same rows are equal.
-/

variable {α κ : Type*} [LinearOrder κ]

structure SortedTable (key : α → κ) where
  rows : List α
  ascending : rows.Pairwise fun a b => key a < key b

namespace SortedTable

variable {key : α → κ}

def empty : SortedTable key := ⟨[], List.Pairwise.nil⟩

def find? (t : SortedTable key) (k : κ) : Option α := t.rows.find? fun a => key a = k

def table (t : SortedTable key) : KeyedTable.Table key where
  rows := t.rows
  distinct := by
    rw [List.Nodup, List.pairwise_map]
    exact t.ascending.imp fun below => below.ne

theorem find?_eq_some {t : SortedTable key} {k : κ} {a : α} :
    t.find? k = some a ↔ a ∈ t.rows ∧ key a = k :=
  KeyedTable.Table.find?_eq_some (t := t.table)

theorem key_of_find? {t : SortedTable key} {k : κ} {a : α} (found : t.find? k = some a) :
    key a = k := (find?_eq_some.mp found).2

@[simp] theorem find?_empty (k : κ) : (empty : SortedTable key).find? k = none := rfl

private def place (key : α → κ) (a : α) : List α → List α
  | [] => [a]
  | b :: rest =>
    if key a < key b then a :: b :: rest
    else if key a = key b then a :: rest
    else b :: place key a rest

private theorem mem_place {a b : α} {rows : List α} (member : b ∈ place key a rows) :
    b = a ∨ b ∈ rows := by
  induction rows with
  | nil => simpa [place] using member
  | cons c rest ih =>
    rw [place] at member
    split at member
    · simpa using member
    · split at member
      · rcases List.mem_cons.mp member with same | later
        · exact Or.inl same
        · exact Or.inr (List.mem_cons_of_mem c later)
      · rcases List.mem_cons.mp member with same | later
        · exact Or.inr (same ▸ List.mem_cons_self)
        · exact (ih later).imp_right (List.mem_cons_of_mem c)

private theorem ascending_place {a : α} {rows : List α}
    (sorted : rows.Pairwise fun a b => key a < key b) :
    (place key a rows).Pairwise fun a b => key a < key b := by
  induction rows with
  | nil => simp [place]
  | cons c rest ih =>
    rw [List.pairwise_cons] at sorted
    rw [place]
    split
    · rename_i below
      refine List.pairwise_cons.mpr ⟨?_, List.pairwise_cons.mpr sorted⟩
      intro b member
      rcases List.mem_cons.mp member with rfl | later
      · exact below
      · exact below.trans (sorted.1 b later)
    · split
      · rename_i same
        refine List.pairwise_cons.mpr ⟨fun b member => ?_, sorted.2⟩
        rw [same]
        exact sorted.1 b member
      · rename_i notBelow different
        refine List.pairwise_cons.mpr ⟨?_, ih sorted.2⟩
        intro b member
        rcases mem_place member with rfl | later
        · exact lt_of_le_of_ne (not_lt.mp notBelow) (Ne.symm different)
        · exact sorted.1 b later

/-- `INSERT`, or `UPDATE` of the row that has the key. -/
def put (t : SortedTable key) (a : α) : SortedTable key where
  rows := place key a t.rows
  ascending := ascending_place t.ascending

private theorem find?_place (a : α) (rows : List α) (k : κ) :
    (place key a rows).find? (fun b => key b = k) =
      if key a = k then some a else rows.find? fun b => key b = k := by
  induction rows with
  | nil => by_cases same : key a = k <;> simp [place]
  | cons c rest ih =>
    rw [place]
    split
    · by_cases same : key a = k <;> simp [same]
    · split
      · rename_i equal
        by_cases same : key a = k
        · simp [same]
        · have other : ¬ key c = k := equal ▸ same
          simp [same, other]
      · rename_i different
        rw [List.find?_cons, ih]
        by_cases here : key c = k
        · have other : ¬ key a = k := fun same => different (same.trans here.symm)
          simp [here, other]
        · simp [here]

@[simp] theorem find?_put_self (t : SortedTable key) (a : α) :
    (t.put a).find? (key a) = some a := by
  simp only [find?, put, find?_place, if_true]

theorem find?_put_of_ne (t : SortedTable key) {a : α} {k : κ} (different : key a ≠ k) :
    (t.put a).find? k = t.find? k := by
  simp only [find?, put, find?_place, if_neg different]

variable {scope : κ → Bool}

end SortedTable
