import Mathlib.Data.List.Nodup
import Mathlib.Data.List.Perm.Subperm
import Mathlib.Logic.Relation

/-!
A depth-first search for a cycle among arrows that are listed by their source. The
marks are the nodes on the path from the root and the nodes that are done with; a done
node comes after its successors, which is why none of them lies on a cycle.
-/

namespace DepthFirst
open Relation

variable {α : Type*}

structure Marks (α : Type*) where
  visiting : List α := []
  visited : List α := []

def Arrow (children : α → List α) (a b : α) : Prop := b ∈ children a

def Acyclic (arrow : α → α → Prop) : Prop := ∀ a, ¬ TransGen arrow a a

section Union

variable {first second : α → α → Prop}

def Union (first second : α → α → Prop) (a b : α) : Prop := first a b ∨ second a b

theorem path_cases {a b : α} (path : TransGen (Union first second) a b) :
    TransGen second a b ∨ ∃ x y, first x y ∧ ReflTransGen (Union first second) a x ∧
      ReflTransGen (Union first second) y b := by
  induction path with
  | single arrow =>
    rcases arrow with here | here
    · exact .inr ⟨_, _, here, .refl, .refl⟩
    · exact .inl (.single here)
  | tail path arrow ih =>
    rcases arrow with here | here
    · exact .inr ⟨_, _, here, path.to_reflTransGen, .refl⟩
    · rcases ih with within | ⟨x, y, taken, before, after⟩
      · exact .inl (within.tail here)
      · exact .inr ⟨x, y, taken, before, after.tail (.inr here)⟩

theorem Acyclic.mono (acyclic : Acyclic second) (within : ∀ a b, first a b → second a b) :
    Acyclic first := by
  intro a cycle
  exact acyclic a (TransGen.mono within _ _ cycle)

theorem acyclic_union (acyclic : Acyclic second)
    (closes : ∀ x y, first x y → ¬ ReflTransGen (Union first second) y x) :
    Acyclic (Union first second) := by
  intro a cycle
  rcases path_cases cycle with within | ⟨x, y, taken, before, after⟩
  · exact acyclic a within
  · exact closes x y taken (after.trans before)

end Union

section Search

variable [DecidableEq α]

/-- A visit of a node; nothing is returned when the path comes back to one of its own nodes. -/
def visit (children : α → List α) : (fuel : Nat) → Marks α → α → Option (Marks α)
  | 0, _, _ => none
  | fuel + 1, marks, item =>
    if item ∈ marks.visiting then none
    else if item ∈ marks.visited then some marks
    else do
      let left ← (children item).foldlM (visit children fuel)
        { marks with visiting := item :: marks.visiting }
      some ⟨left.visiting.erase item, left.visited.insert item⟩

def search (children : α → List α) (fuel : Nat) (roots : List α) : Option (Marks α) :=
  roots.foldlM (visit children fuel) {}

end Search

/-- A list in which the successors of each node stand behind it. -/
inductive Finished (children : α → List α) : List α → Prop
  | nil : Finished children []
  | cons {item : α} {rest : List α} (fresh : item ∉ rest)
    (closed : ∀ child ∈ children item, child ∈ rest)
      (finished : Finished children rest) : Finished children (item :: rest)

variable {children : α → List α}
variable {done : List α} {a : α}

theorem Finished.closed (finished : Finished children done) {b : α} (listed : a ∈ done)
    (arrow : Arrow children a b) : b ∈ done := by
  induction finished with
  | nil => cases listed
  | cons _ closed _ ih =>
    rcases List.mem_cons.mp listed with rfl | later
    · exact List.mem_cons_of_mem _ (closed b arrow)
    · exact List.mem_cons_of_mem _ (ih later)

theorem Finished.reaches (finished : Finished children done) {b : α} (listed : a ∈ done)
    (path : ReflTransGen (Arrow children) a b) : b ∈ done := by
  induction path with
  | refl => exact listed
  | tail _ arrow ih => exact finished.closed ih arrow

theorem Finished.no_cycle (finished : Finished children done) (listed : a ∈ done) :
    ¬ TransGen (Arrow children) a a := by
  induction finished with
  | nil => cases listed
  | cons fresh closed finished ih =>
    rcases List.mem_cons.mp listed with rfl | later
    · intro cycle
      obtain ⟨next, first, rest⟩ := TransGen.head'_iff.mp cycle
      exact fresh (finished.reaches (closed next first) rest)
    · exact ih later

structure Leaves (children : α → List α) (items : List α) (before after : Marks α) : Prop where
  finished : Finished children before.visited → Finished children after.visited
  kept : before.visited ⊆ after.visited
  done : items ⊆ after.visited

theorem leaves_foldlM {act : Marks α → α → Option (Marks α)}
    (each : ∀ item before after, act before item = some after → Leaves children [item] before after)
    {items : List α} {before after : Marks α} (ran : items.foldlM act before = some after) :
    Leaves children items before after := by
  induction items generalizing before with
  | nil =>
    obtain rfl : before = after := by simpa using ran
    exact ⟨id, fun _ => id, List.nil_subset _⟩
  | cons item items ih =>
    obtain ⟨middle, first, rest⟩ := Option.bind_eq_some_iff.mp ran
    have here := each item before middle first
    have later := ih rest
    refine ⟨later.finished ∘ here.finished, List.Subset.trans here.kept later.kept, ?_⟩
    rintro other listed
    rcases List.mem_cons.mp listed with rfl | listed
    · exact later.kept (here.done (List.mem_singleton_self _))
    · exact later.done listed

section Search

variable [DecidableEq α]

theorem Finished.insert {done : List α} (finished : Finished children done) {item : α}
    (closed : ∀ child ∈ children item, child ∈ done) : Finished children (done.insert item) := by
  by_cases listed : item ∈ done
  · rwa [List.insert_of_mem listed]
  · rw [List.insert_of_not_mem listed]
    exact .cons listed closed finished

theorem leaves_visit {fuel : Nat} {item : α} {before after : Marks α}
    (ran : visit children fuel before item = some after) : Leaves children [item] before after := by
  induction fuel generalizing item before after with
  | zero => cases ran
  | succ fuel ih =>
    rw [visit] at ran
    split_ifs at ran with back again
    · obtain rfl := Option.some.inj ran
      exact ⟨id, fun _ => id, by simpa using again⟩
    · obtain ⟨left, walked, rest⟩ := Option.bind_eq_some_iff.mp ran
      obtain rfl := Option.some.inj rest
      have inner := leaves_foldlM (fun _ _ _ => ih) walked
      refine ⟨fun finished => (inner.finished finished).insert inner.done, ?_, by simp⟩
      exact List.Subset.trans inner.kept fun _ => List.mem_insert_of_mem

theorem no_cycle_of_search {fuel : Nat} {roots : List α} {marks : Marks α}
    (found : search children fuel roots = some marks) {a : α} (root : a ∈ roots) :
    ¬ TransGen (Arrow children) a a := by
  have left := leaves_foldlM (fun _ _ _ => leaves_visit) found
  exact (left.finished .nil).no_cycle (left.done root)

end Search

end DepthFirst
