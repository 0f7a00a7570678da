import Heniek.KeyedTable

/-!
Rows that outlive a change of their table: each has a later row that it is related to. An
update of one row, or a new one, needs the relation for the rows under that key alone.
-/

namespace KeyedTable

variable {α κ : Type*} {key : α → κ} {R : α → α → Prop} {rows later last : List α}

def Lasting (R : α → α → Prop) (rows later : List α) : Prop :=
    ∀ row ∈ rows, ∃ next ∈ later, R row next

theorem Lasting.refl (same : ∀ row, R row row) (rows : List α) : Lasting R rows rows :=
  fun row member => ⟨row, member, same row⟩

theorem Lasting.trans (compose : ∀ {row next last}, R row next → R next last → R row last)
    (first : Lasting R rows later) (second : Lasting R later last) : Lasting R rows last := by
  intro row member
  obtain ⟨next, there, related⟩ := first row member
  obtain ⟨final, stored, related'⟩ := second next there
  exact ⟨final, stored, compose related related'⟩

variable [DecidableEq κ] {t : Table key}

theorem Lasting.upsert (same : ∀ row, R row row) {a : α}
    (changed : ∀ row ∈ t.rows, key row = key a → R row a) :
    Lasting R t.rows (t.upsert a).rows := by
  intro row member
  by_cases here : key row = key a
  · exact ⟨a, Table.mem_upsert.mpr (Or.inl rfl), changed row member here⟩
  · exact ⟨row, Table.mem_upsert.mpr (Or.inr ⟨member, here⟩), same row⟩

theorem Lasting.added (same : ∀ row, R row row) {a : α} (fresh : key a ∉ t.keys) :
    Lasting R t.rows (t.upsert a).rows :=
  .upsert same fun _ member here => absurd (here ▸ Table.mem_keys_of_mem member) fresh

theorem Lasting.modify (same : ∀ row, R row row) {k : κ} {f : α → α}
    (keeps : ∀ a, key (f a) = key a) (changed : ∀ row ∈ t.rows, key row = k → R row (f row)) :
    Lasting R t.rows (t.modify k f keeps).rows := by
  intro row member
  refine ⟨if key row = k then f row else row, Table.mem_modify.mpr ⟨row, member, rfl⟩, ?_⟩
  split
  · rename_i here
    exact changed row member here
  · exact same row

end KeyedTable
