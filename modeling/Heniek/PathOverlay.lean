import Mathlib.Data.List.Basic
import Mathlib.Data.List.Infix
import Mathlib.Data.List.Perm.Basic

/-!
Trees addressed by paths, seen from outside: what stands at each path. Putting
a tree at a path leaves a branch at every prefix of the path and touches nothing
that is neither above nor below it. Two paths neither of which is a prefix of
the other can be written in either order.
-/

namespace PathOverlay

variable {σ α : Type*}

inductive Node (α : Type*) where
  | branch
  | leaf (value : α)

abbrev View (σ α : Type*) := List σ → Option (Node α)

def Incomparable (p q : List σ) : Prop := ¬ p <+: q ∧ ¬ q <+: p

theorem Incomparable.symm {p q : List σ} (apart : Incomparable p q) : Incomparable q p :=
  ⟨apart.2, apart.1⟩

/-- A leaf strictly above the path, and below the root, stands in the way. -/
def Blocked (view : View σ α) (path : List σ) : Prop :=
  ∃ above value, above ≠ [] ∧ above <+: path ∧ above ≠ path ∧ view above = some (.leaf value)

open Classical in
noncomputable def overlay (view tree : View σ α) (path : List σ) : View σ α := fun position =>
  if path <+: position then tree (position.drop path.length)
  else if position <+: path then some .branch
  else view position

open Classical in
/-- The write of a tree at a path, void when it is blocked. -/
noncomputable def write (view : View σ α) (entry : List σ × View σ α) : View σ α :=
  if Blocked view entry.1 then view else overlay view entry.2 entry.1

section Overlay

variable {view tree other : View σ α} {p q position : List σ}

theorem overlay_below (below : p <+: position) :
    overlay view tree p position = tree (position.drop p.length) := if_pos below

theorem overlay_above (above : position <+: p) (proper : ¬ p <+: position) :
    overlay view tree p position = some .branch := by
  rw [overlay, if_neg proper, if_pos above]

theorem overlay_beside (apart : Incomparable p position) :
    overlay view tree p position = view position := by
  rw [overlay, if_neg apart.1, if_neg apart.2]

theorem overlay_comm (apart : Incomparable p q) :
    overlay (overlay view tree p) other q = overlay (overlay view other q) tree p := by
  funext position
  by_cases below : p <+: position
  · have beside : Incomparable q position := by
      constructor
      · intro second
        exact (List.prefix_or_prefix_of_prefix below second).elim apart.1 apart.2
      · intro above
        exact apart.1 (below.trans above)
    rw [overlay_beside beside, overlay_below below, overlay_below below]
  by_cases second : q <+: position
  · have beside : Incomparable p position := ⟨below, fun above => apart.2 (second.trans above)⟩
    rw [overlay_below second, overlay_beside beside, overlay_below second]
  by_cases above : position <+: p
  · rw [overlay_above above below]
    by_cases reaches : position <+: q
    · rw [overlay_above reaches second]
    · rw [overlay_beside ⟨second, reaches⟩, overlay_above above below]
  · rw [overlay_beside ⟨below, above⟩]
    by_cases reaches : position <+: q
    · rw [overlay_above reaches second, overlay_above reaches second]
    · rw [overlay_beside ⟨second, reaches⟩, overlay_beside ⟨second, reaches⟩,
        overlay_beside ⟨below, above⟩]

theorem blocked_overlay (apart : Incomparable p q) (free : ¬ Blocked view p) :
    Blocked (overlay view tree p) q ↔ Blocked view q := by
  have same : ∀ above : List σ, above ≠ [] → above <+: q → ∀ value,
      (overlay view tree p above = some (.leaf value) ↔ view above = some (.leaf value)) := by
    intro above inner reaches value
    have proper : ¬ p <+: above := fun below => apart.1 (below.trans reaches)
    by_cases upper : above <+: p
    · rw [overlay_above upper proper]
      constructor
      · nofun
      · intro leaf
        refine absurd ⟨above, value, inner, upper, ?_, leaf⟩ free
        rintro rfl
        exact proper (List.prefix_refl above)
    · rw [overlay_beside ⟨proper, upper⟩]
  constructor
  · rintro ⟨above, value, inner, reaches, different, leaf⟩
    exact ⟨above, value, inner, reaches, different, (same above inner reaches value).mp leaf⟩
  · rintro ⟨above, value, inner, reaches, different, leaf⟩
    exact ⟨above, value, inner, reaches, different, (same above inner reaches value).mpr leaf⟩

end Overlay

section Write

variable {view : View σ α} {entry first second : List σ × View σ α}

theorem write_blocked (blocked : Blocked view entry.1) : write view entry = view := if_pos blocked

theorem write_free (free : ¬ Blocked view entry.1) :
    write view entry = overlay view entry.2 entry.1 := if_neg free

theorem write_comm (apart : Incomparable first.1 second.1) :
    write (write view first) second = write (write view second) first := by
  by_cases left : Blocked view first.1 <;> by_cases right : Blocked view second.1
  · rw [write_blocked left, write_blocked right, write_blocked left]
  · have still : Blocked (overlay view second.2 second.1) first.1 :=
      (blocked_overlay apart.symm right).mpr left
    rw [write_blocked left, write_free right, write_blocked still]
  · have still : Blocked (overlay view first.2 first.1) second.1 :=
      (blocked_overlay apart left).mpr right
    rw [write_blocked right, write_free left, write_blocked still]
  · have leftFree : ¬ Blocked (overlay view second.2 second.1) first.1 :=
      fun blocked => left ((blocked_overlay apart.symm right).mp blocked)
    have rightFree : ¬ Blocked (overlay view first.2 first.1) second.1 :=
      fun blocked => right ((blocked_overlay apart left).mp blocked)
    rw [write_free left, write_free right, write_free rightFree, write_free leftFree,
      overlay_comm apart]

end Write

theorem foldl_write_perm {entries entries' : List (List σ × View σ α)}
    (perm : entries.Perm entries')
    (apart : ∀ first ∈ entries, ∀ second ∈ entries,
      first = second ∨ Incomparable first.1 second.1) (view : View σ α) :
    entries.foldl write view = entries'.foldl write view := by
  refine perm.foldl_eq' ?_ view
  intro first hfirst second hsecond view
  rcases apart first hfirst second hsecond with rfl | different
  · rfl
  · exact write_comm different

end PathOverlay
