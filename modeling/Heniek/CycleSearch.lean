import Heniek.DepthFirst
import Heniek.GraphValidation
import Mathlib.Algebra.BigOperators.Group.Finset.Piecewise
import Mathlib.Algebra.GroupWithZero.Nat
import Mathlib.Algebra.Order.BigOperators.Group.Finset
import Mathlib.Data.List.Chain
import Mathlib.Order.WellFoundedSet

/-!
The two walks over a pipeline graph. The search for a cycle holds the frames of the
path it is on; a stage is done once its successors are, so nothing done lies on a
cycle, and a stage met again on the path closes one. The walk from the entries
reaches whatever an edge leads to from what it has reached.
-/

namespace Heniek.CycleSearch
open PipelineDocument GraphValidation ScriptText DepthFirst Relation

section Loop

variable (children : String → List String)

/-- One turn over the frames that goes on. -/
inductive Turn : Search → Search → Prop
  | close {search : Search} {id : String} {index : Nat} {rest : List (String × Nat)}
      (top : search.stack = (id, index) :: rest) (last : (children id)[index]? = none) :
      Turn search ⟨(id, .done) :: search.marks, rest, search.path.dropLast⟩
  | pass {search : Search} {id child : String} {index : Nat} {rest : List (String × Nat)}
      (top : search.stack = (id, index) :: rest) (next : (children id)[index]? = some child)
      (done : search.mark? child = some .done) :
      Turn search { search with stack := (id, index + 1) :: rest }
  | enter {search : Search} {id child : String} {index : Nat} {rest : List (String × Nat)}
      (top : search.stack = (id, index) :: rest) (next : (children id)[index]? = some child)
      (fresh : search.mark? child = none) :
      Turn search (({ search with stack := (id, index + 1) :: rest } : Search).push child)

/-- A turn that comes back to a stage of the path. -/
inductive Back : Search → List String → Prop
  | here {search : Search} {id child : String} {index : Nat} {rest : List (String × Nat)}
      (top : search.stack = (id, index) :: rest) (next : (children id)[index]? = some child)
      (met : search.mark? child = some .visiting) :
      Back search (search.path.drop (search.path.idxOf child) ++ [child])

/-- The loop over the frames comes to an end. -/
inductive Ends : Search → Search ⊕ List String → Prop
  | dry {search : Search} (empty : search.stack = []) : Ends search (.inl search)
  | back {search : Search} {cycle : List String} (back : Back children search cycle) :
      Ends search (.inr cycle)
  | turn {search next : Search} {outcome : Search ⊕ List String}
      (turn : Turn children search next) (ends : Ends next outcome) : Ends search outcome

/-- The loop over the roots comes to an end. -/
inductive Returns : List String → Search → Option (List String) → Prop
  | nil {search : Search} : Returns [] search none
  | skip {search : Search} {root : String} {roots : List String} {result : Option (List String)}
      (done : search.mark? root = some .done) (rest : Returns roots search result) :
      Returns (root :: roots) search result
  | clear {search next : Search} {root : String} {roots : List String}
      {result : Option (List String)} (unfinished : search.mark? root ≠ some .done)
      (ends : Ends children (search.push root) (.inl next)) (rest : Returns roots next result) :
      Returns (root :: roots) search result
  | cycle {search : Search} {root : String} {roots cycle : List String}
      (unfinished : search.mark? root ≠ some .done)
      (ends : Ends children (search.push root) (.inr cycle)) :
      Returns (root :: roots) search (some cycle)

end Loop

theorem mark?_cons (search : Search) (id other : String) (mark : Mark)
    (stack : List (String × Nat)) (path : List String) :
    (⟨(id, mark) :: search.marks, stack, path⟩ : Search).mark? other =
      if id = other then some mark else search.mark? other := by
  unfold Search.mark?
  by_cases same : id = other <;> simp [same]

theorem mark?_push (search : Search) (id other : String) :
    (search.push id).mark? other = if id = other then some .visiting else search.mark? other :=
  mark?_cons search id other .visiting _ _

section Search

variable {children : String → List String} {search next : Search}

theorem turn_cases (children : String → List String) (search : Search) : search.stack = [] ∨
    (∃ cycle, Back children search cycle ∧
      ∀ fuel, searchFrames children (fuel + 1) search = .inr cycle) ∨
    ∃ next, Turn children search next ∧
      ∀ fuel, searchFrames children (fuel + 1) search = searchFrames children fuel next := by
  cases top : search.stack with
  | nil => exact .inl rfl
  | cons frame rest =>
    obtain ⟨id, index⟩ := frame
    right
    cases scan : (children id)[index]? with
    | none =>
      refine .inr ⟨_, .close top scan, fun fuel => ?_⟩
      simp only [searchFrames, top, scan]
    | some child =>
      cases met : search.mark? child with
      | none =>
        refine .inr ⟨_, .enter top scan met, fun fuel => ?_⟩
        simp only [searchFrames, top, scan, met]
      | some mark =>
        cases mark with
        | visiting =>
          refine .inl ⟨_, .here top scan met, fun fuel => ?_⟩
          simp only [searchFrames, top, scan, met]
        | done =>
          refine .inr ⟨_, .pass top scan met, fun fuel => ?_⟩
          simp only [searchFrames, top, scan, met]

/-- The stages that have not been met. -/
def unmet (nodes : Finset String) (search : Search) : Finset String :=
  nodes.filter fun id => search.mark? id = none

/-- The turns that are left: what the frames have to look at, and the stages not yet met. -/
def budget (children : String → List String) (nodes : Finset String) (search : Search) : Nat :=
  (search.stack.map fun frame => (children frame.1).length - frame.2 + 1).sum +
    ∑ id ∈ unmet nodes search, ((children id).length + 1)

theorem unmet_push (nodes : Finset String) (search : Search) (id : String) :
    unmet nodes (search.push id) = (unmet nodes search).erase id := by
  ext other
  simp only [unmet, mark?_push]
  by_cases same : id = other
  · simp [same]
  · simp [same, Ne.symm same]

variable {nodes : Finset String} {id : String}

theorem budget_push (fresh : search.mark? id = none) (known : id ∈ nodes) :
    budget children nodes (search.push id) = budget children nodes search := by
  have listed : id ∈ unmet nodes search := Finset.mem_filter.mpr ⟨known, fresh⟩
  have whole := Finset.add_sum_erase _ (fun id => (children id).length + 1) listed
  unfold budget
  rw [unmet_push]
  simp only [Search.push, List.map_cons, List.sum_cons]
  omega

theorem Turn.budget_lt (closed : ∀ id, ∀ child ∈ children id, child ∈ nodes)
    (turn : Turn children search next) :
    budget children nodes next < budget children nodes search := by
  cases turn with
  | @close id index rest top last =>
    have fewer : unmet nodes ⟨(id, .done) :: search.marks, rest, search.path.dropLast⟩ ⊆
        unmet nodes search := by
      intro other
      simp only [unmet, Finset.mem_filter, mark?_cons]
      split <;> simp
    have bound : ∑ id ∈ unmet nodes ⟨(id, .done) :: search.marks, rest, search.path.dropLast⟩,
        ((children id).length + 1) ≤ ∑ id ∈ unmet nodes search, ((children id).length + 1) :=
      Finset.sum_le_sum_of_subset fewer
    unfold budget
    simp only [top, List.map_cons, List.sum_cons]
    omega
  | @pass id child index rest top next done =>
    have more := (List.getElem?_eq_some_iff.mp next).1
    have same : unmet nodes { search with stack := (id, index + 1) :: rest } =
        unmet nodes search := rfl
    unfold budget
    simp only [same, top, List.map_cons, List.sum_cons]
    omega
  | @enter id child index rest top next fresh =>
    have more := (List.getElem?_eq_some_iff.mp next).1
    have known := closed id child (List.mem_of_getElem? next)
    have same : unmet nodes { search with stack := (id, index + 1) :: rest } =
        unmet nodes search := rfl
    have entered : budget children nodes
        (({ search with stack := (id, index + 1) :: rest } : Search).push child) =
        budget children nodes { search with stack := (id, index + 1) :: rest } :=
      budget_push fresh known
    rw [entered]
    unfold budget
    simp only [same, top, List.map_cons, List.sum_cons]
    omega

theorem ends_searchFrames (closed : ∀ id, ∀ child ∈ children id, child ∈ nodes) {fuel : Nat}
    (enough : budget children nodes search < fuel) :
    Ends children search (searchFrames children fuel search) := by
  induction fuel generalizing search with
  | zero => omega
  | succ fuel ih =>
    rcases turn_cases children search with empty | found | going
    · have idle : searchFrames children (fuel + 1) search = .inl search := by
        rw [searchFrames, empty]
      rw [idle]
      exact .dry empty
    · obtain ⟨cycle, back, same⟩ := found
      rw [same]
      exact .back back
    · obtain ⟨next, turn, same⟩ := going
      rw [same]
      have fewer := turn.budget_lt closed
      exact .turn turn (ih (by omega))

def ids (stack : List (String × Nat)) : List String := stack.map Prod.fst

/-- A frame leads to the one above it; all else it has looked at is done. -/
structure Under (children : String → List String) (done : List String)
    (upper lower : String × Nat) : Prop where
  arrow : upper.1 ∈ children lower.1
  scanned : ∀ child ∈ (children lower.1).take lower.2, child ∈ done ∨ child = upper.1

structure Walking (children : String → List String) (done : List String) (search : Search) :
    Prop where
  path : search.path = (ids search.stack).reverse
  distinct : (ids search.stack).Nodup
  visiting : ∀ id, search.mark? id = some .visiting ↔ id ∈ ids search.stack
  marked : ∀ id, search.mark? id = some .done ↔ id ∈ done
  finished : Finished children done
  scanned : ∀ frame ∈ search.stack.head?, ∀ child ∈ (children frame.1).take frame.2, child ∈ done
  chain : search.stack.IsChain (Under children done)

variable {done : List String}

theorem Under.mono {more : List String} (within : done ⊆ more) {upper lower : String × Nat}
    (under : Under children done upper lower) : Under children more upper lower :=
  ⟨under.arrow, fun child listed => (under.scanned child listed).imp_left fun old => within old⟩

theorem Under.advance {index index' : Nat} {lower : String × Nat}
    (under : Under children done (id, index) lower) : Under children done (id, index') lower :=
  ⟨under.arrow, under.scanned⟩

theorem Walking.start {roots : Search} (walking : Walking children done roots)
    (idle : roots.stack = []) {root : String} (fresh : root ∉ done) :
    Walking children done (roots.push root) := by
  have unmarked : ∀ id, roots.mark? id ≠ some .visiting := by
    intro id met
    rw [walking.visiting, idle] at met
    cases met
  refine ⟨?_, ?_, ?_, ?_, walking.finished, ?_, ?_⟩
  · simp [Search.push, walking.path, ids]
  · simp [Search.push, idle, ids]
  · intro id
    rw [mark?_push]
    by_cases same : root = id
    · simp [Search.push, ids, same]
    · simp [Search.push, ids, same, Ne.symm same, idle, unmarked id]
  · intro id
    rw [mark?_push, ← walking.marked]
    by_cases same : root = id
    · subst same
      simpa [walking.marked] using fresh
    · simp [same]
  · simp [Search.push]
  · simp [Search.push, idle]

theorem Turn.walking (turn : Turn children search next) (walking : Walking children done search) :
    ∃ done', done ⊆ done' ∧ Walking children done' next := by
  obtain ⟨path, distinct, visiting, marked, finished, scanned, chain⟩ := walking
  cases turn with
  | @close id index rest top last =>
    simp only [top, ids, List.map_cons, List.nodup_cons, List.head?_cons, Option.mem_def,
      Option.some.injEq, forall_eq'] at path distinct visiting scanned chain
    have unfinished : id ∉ done := by
      rw [← marked, (visiting id).mpr List.mem_cons_self]
      simp
    have all : (children id).take index = children id :=
      List.take_of_length_le (List.getElem?_eq_none_iff.mp last)
    rw [all] at scanned
    refine ⟨id :: done, List.subset_cons_self _ _, ?_, distinct.2, ?_, ?_,
      .cons unfinished scanned finished, ?_, ?_⟩
    · simp [path, ids]
    · intro other
      rw [mark?_cons]
      by_cases same : id = other
      · subst same
        simpa [ids] using distinct.1
      · simp [same, visiting, Ne.symm same, ids]
    · intro other
      rw [mark?_cons]
      by_cases same : id = other
      · simp [same]
      · simp [same, marked, Ne.symm same]
    · cases rest with
      | nil => simp
      | cons lower rest =>
        rw [List.isChain_cons_cons] at chain
        intro frame first child listed
        obtain rfl := Option.some.inj first
        rcases chain.1.scanned child listed with old | here
        · exact List.mem_cons_of_mem _ old
        · rw [here]
          exact List.mem_cons_self
    · exact chain.tail.imp fun _ _ under => under.mono (List.subset_cons_self _ _)
  | @pass id child index rest top here met =>
    simp only [top, ids, List.head?_cons, Option.mem_def,
      Option.some.injEq, forall_eq'] at path distinct visiting scanned chain
    refine ⟨done, List.Subset.refl _, path, distinct, visiting, marked, finished, ?_, ?_⟩
    · intro frame first other listed
      obtain rfl := Option.some.inj first
      rw [List.take_add_one, here, Option.toList_some, List.mem_append,
        List.mem_singleton] at listed
      rcases listed with old | rfl
      · exact scanned other old
      · exact (marked other).mp met
    · cases rest with
      | nil => simp
      | cons lower rest =>
        rw [List.isChain_cons_cons] at chain
        exact List.isChain_cons_cons.mpr ⟨chain.1.advance, chain.2⟩
  | @enter id child index rest top here fresh =>
    simp only [top, ids, List.map_cons, List.head?_cons, Option.mem_def,
      Option.some.injEq, forall_eq'] at path distinct visiting scanned chain
    have apart : child ∉ id :: rest.map Prod.fst := by
      rw [← visiting, fresh]
      simp
    have unfinished : child ∉ done := by
      rw [← marked, fresh]
      simp
    have marks : ∀ other, (({ search with stack := (id, index + 1) :: rest } : Search).push
        child).mark? other = if child = other then some .visiting else search.mark? other :=
      mark?_push _ _
    refine ⟨done, List.Subset.refl _, ?_, ?_, ?_, ?_, finished, ?_, ?_⟩
    · simp [Search.push, path, ids]
    · exact List.nodup_cons.mpr ⟨apart, distinct⟩
    · intro other
      rw [marks]
      by_cases same : child = other
      · simp [same, Search.push, ids]
      · simp [same, visiting, Ne.symm same, Search.push, ids]
    · intro other
      rw [marks]
      by_cases same : child = other
      · subst same
        simpa using unfinished
      · simp [same, marked]
    · simp [Search.push]
    · have under : Under children done (child, 0) (id, index + 1) := by
        refine ⟨List.mem_of_getElem? here, fun other listed => ?_⟩
        rw [List.take_add_one, here, Option.toList_some, List.mem_append,
          List.mem_singleton] at listed
        exact listed.imp_left (scanned other)
      refine List.isChain_cons_cons.mpr ⟨under, ?_⟩
      cases rest with
      | nil => simp
      | cons lower rest =>
        rw [List.isChain_cons_cons] at chain
        exact List.isChain_cons_cons.mpr ⟨chain.1.advance, chain.2⟩

theorem Turn.keeps_marks (turn : Turn children search next) (met : search.mark? id ≠ none) :
    next.mark? id ≠ none := by
  cases turn with
  | close =>
    rw [mark?_cons]
    split <;> simp_all
  | pass => exact met
  | enter =>
    rw [mark?_push]
    split
    · simp
    · exact met

theorem Ends.dry_walking {outcome : Search ⊕ List String} (ends : Ends children search outcome)
    {last : Search} (dry : outcome = .inl last) (walking : Walking children done search) :
    ∃ done', done ⊆ done' ∧ Walking children done' last ∧ last.stack = [] ∧
      ∀ id, search.mark? id ≠ none → id ∈ done' := by
  induction ends generalizing done with
  | @dry search empty =>
    obtain rfl := Sum.inl.inj dry
    refine ⟨done, List.Subset.refl _, walking, empty, fun id met => ?_⟩
    cases mark : search.mark? id with
    | none => exact absurd mark met
    | some found =>
      cases found with
      | visiting =>
        rw [walking.visiting, empty] at mark
        cases mark
      | done => exact (walking.marked id).mp mark
  | back => cases dry
  | turn turn _ ih =>
    obtain ⟨middle, first, between⟩ := turn.walking walking
    obtain ⟨done', more, after, empty, all⟩ := ih dry between
    exact ⟨done', List.Subset.trans first more, after, empty,
      fun id met => all id (turn.keeps_marks met)⟩

/-- A walk along arrows that comes back to where it began. -/
structure Cycle (arrow : String → String → Prop) (cycle : List String) : Prop where
  long : 2 ≤ cycle.length
  arrows : cycle.IsChain arrow
  closed : cycle.head? = cycle.getLast?
  simple : cycle.dropLast.Nodup

theorem Back.cycle {cycle : List String} (back : Back children search cycle)
    (walking : Walking children done search) : Cycle (Arrow children) cycle := by
  cases back with
  | @here id child index rest top scan met =>
    have listed : child ∈ search.path := by
      rw [walking.path, List.mem_reverse, ← walking.visiting]
      exact met
    have place := List.idxOf_lt_length_of_mem listed
    have whole : search.path.drop (search.path.idxOf child) ++ [child] =
        (search.path ++ [child]).drop (search.path.idxOf child) :=
      (List.drop_append_of_le_length (Nat.le_of_lt place)).symm
    have last : search.path.getLast? = some id := by
      rw [walking.path, List.getLast?_reverse, top]
      rfl
    have arrows : (search.path ++ [child]).IsChain (Arrow children) := by
      refine List.isChain_append.mpr ⟨?_, List.isChain_singleton _, ?_⟩
      · rw [walking.path, List.isChain_reverse, ids, List.isChain_map]
        exact walking.chain.imp fun _ _ under => under.arrow
      · intro final isFinal first isFirst
        rw [last] at isFinal
        obtain rfl := Option.some.inj isFinal
        obtain rfl := Option.some.inj isFirst
        exact List.mem_of_getElem? scan
    refine ⟨?_, whole ▸ arrows.drop _, ?_, ?_⟩
    · rw [List.length_append, List.length_drop, List.length_singleton]
      omega
    · have first : (search.path.drop (search.path.idxOf child)).head? = some child := by
        rw [List.head?_drop, List.getElem?_idxOf listed]
      rw [List.head?_append, first, List.getLast?_concat]
      rfl
    · have path : search.path.Nodup := by
        rw [walking.path, List.nodup_reverse]
        exact walking.distinct
      rw [List.dropLast_concat]
      exact path.sublist (List.drop_sublist _ _)

theorem Ends.back_cycle {outcome : Search ⊕ List String} (ends : Ends children search outcome)
    {cycle : List String} (found : outcome = .inr cycle) (walking : Walking children done search) :
    Cycle (Arrow children) cycle := by
  induction ends generalizing done with
  | dry => cases found
  | back back =>
    obtain rfl := Sum.inr.inj found
    exact back.cycle walking
  | turn turn _ ih =>
    obtain ⟨middle, _, between⟩ := turn.walking walking
    exact ih found between

theorem Returns.cycle_of_some {roots : List String} {result : Option (List String)}
    (returns : Returns children roots search result) {cycle : List String}
    (found : result = some cycle) (walking : Walking children done search)
    (idle : search.stack = []) : Cycle (Arrow children) cycle := by
  induction returns generalizing done with
  | nil => cases found
  | skip _ _ ih => exact ih found walking idle
  | clear unfinished ends _ ih =>
    rw [ne_eq, walking.marked] at unfinished
    obtain ⟨_, _, after, empty, _⟩ := ends.dry_walking rfl (walking.start idle unfinished)
    exact ih found after empty
  | cycle unfinished ends =>
    obtain rfl := Option.some.inj found
    rw [ne_eq, walking.marked] at unfinished
    exact ends.back_cycle rfl (walking.start idle unfinished)

theorem Returns.finished_of_none {roots : List String} {result : Option (List String)}
    (returns : Returns children roots search result) (nothing : result = none)
    (walking : Walking children done search) (idle : search.stack = []) :
    ∃ done', done ⊆ done' ∧ Finished children done' ∧ roots ⊆ done' := by
  induction returns generalizing done with
  | nil => exact ⟨done, List.Subset.refl _, walking.finished, List.nil_subset _⟩
  | skip met _ ih =>
    obtain ⟨done', more, finished, all⟩ := ih nothing walking idle
    rw [walking.marked] at met
    exact ⟨done', more, finished, List.cons_subset.mpr ⟨more met, all⟩⟩
  | @clear search next root roots result unfinished ends _ ih =>
    rw [ne_eq, walking.marked] at unfinished
    obtain ⟨middle, first, after, empty, met⟩ :=
      ends.dry_walking rfl (walking.start idle unfinished)
    obtain ⟨done', more, finished, all⟩ := ih nothing after empty
    have here : root ∈ middle := by
      apply met
      rw [mark?_push]
      simp
    exact ⟨done', List.Subset.trans first more, finished, List.cons_subset.mpr ⟨more here, all⟩⟩
  | cycle => cases nothing

end Search

section Graph

variable {declared : GraphDeclaration}

def targets (declared : GraphDeclaration) : Finset String :=
  (declared.edges.map PipelineEdge.toStageId).toFinset

theorem mem_buildSuccessors {id child : String} : child ∈ buildSuccessors declared id ↔
    id ∈ declared.stages.map (fun stage => stage.id) ∧ Precedes declared id child := by
  unfold buildSuccessors Precedes
  split
  · rename_i known
    simp [known, and_assoc]
  · rename_i unknown
    simp [unknown]

theorem arrow_iff_precedes (resolved : edgesResolved declared.graph = true) :
    Arrow (buildSuccessors declared) = Precedes declared := by
  funext left right
  rw [Arrow, mem_buildSuccessors, eq_iff_iff, and_iff_right_iff_imp]
  rintro ⟨edge, listed, rfl, _⟩
  have known := (edgesResolved_iff.mp resolved edge listed).1
  simpa [stageIds, GraphDeclaration.graph] using known

theorem mem_targets {id child : String} (listed : child ∈ buildSuccessors declared id) :
    child ∈ targets declared := by
  obtain ⟨_, edge, member, _, rfl⟩ := mem_buildSuccessors.mp listed
  exact List.mem_toFinset.mpr (List.mem_map_of_mem member)

theorem card_targets : (targets declared).card ≤ declared.edges.length :=
  (List.toFinset_card_le _).trans (List.length_map _).le

theorem length_buildSuccessors (id : String) : (buildSuccessors declared id).length ≤
    declared.edges.countP fun edge => edge.fromStageId = id := by
  unfold buildSuccessors
  split
  · rw [sortTexts, (sortBy_perm _ _).length_eq, List.length_map, List.countP_eq_length_filter]
  · exact Nat.zero_le _

theorem sum_leaving (edges : List PipelineEdge) (s : Finset String) :
    ∑ id ∈ s, edges.countP (fun edge => edge.fromStageId = id) ≤ edges.length := by
  induction edges with
  | nil => simp
  | cons edge edges ih =>
    have one : ∑ id ∈ s, (if edge.fromStageId = id then 1 else 0) ≤ 1 := by
      rw [Finset.sum_ite_eq]
      split <;> simp
    simp only [List.countP_cons, decide_eq_true_eq, Finset.sum_add_distrib, List.length_cons]
    omega

theorem sum_buildSuccessors (s : Finset String) :
    ∑ id ∈ s, (buildSuccessors declared id).length ≤ declared.edges.length :=
  (Finset.sum_le_sum fun id _ => length_buildSuccessors id).trans (sum_leaving _ s)

theorem budget_root {search : Search} (idle : search.stack = []) (root : String) :
    budget (buildSuccessors declared) (targets declared) (search.push root) ≤
      2 * declared.edges.length + 1 := by
  have apart : root ∉ unmet (targets declared) (search.push root) := by
    rw [unmet_push]
    exact Finset.notMem_erase _ _
  have leaving : ∑ id ∈ insert root (unmet (targets declared) (search.push root)),
      (buildSuccessors declared id).length ≤ declared.edges.length := sum_buildSuccessors _
  have fewer : (unmet (targets declared) (search.push root)).card ≤ declared.edges.length :=
    (Finset.card_le_card (Finset.filter_subset _ _)).trans card_targets
  rw [Finset.sum_insert apart] at leaving
  unfold budget
  rw [Finset.sum_add_distrib, ← Finset.card_eq_sum_ones]
  simp only [Search.push, idle, List.map_cons, List.map_nil, List.sum_cons, List.sum_nil] at *
  omega

theorem returns_searchRoots {fuel : Nat} (enough : 2 * declared.edges.length + 1 < fuel)
    (roots : List String) {done : List String} {search : Search}
    (walking : Walking (buildSuccessors declared) done search) (idle : search.stack = []) :
    Returns (buildSuccessors declared) roots search
      (searchRoots (buildSuccessors declared) fuel roots search) := by
  induction roots generalizing done search with
  | nil => exact .nil
  | cons root roots ih =>
    rw [searchRoots]
    by_cases met : search.mark? root = some .done
    · rw [if_pos met]
      exact .skip met (ih walking idle)
    · rw [if_neg met]
      have ends : Ends (buildSuccessors declared) (search.push root)
          (searchFrames (buildSuccessors declared) fuel (search.push root)) :=
        ends_searchFrames (fun _ _ => mem_targets)
          ((budget_root idle root).trans_lt enough)
      have unfinished := met
      rw [walking.marked] at unfinished
      cases outcome : searchFrames (buildSuccessors declared) fuel (search.push root) with
      | inl next =>
        rw [outcome] at ends
        obtain ⟨_, _, after, empty, _⟩ := ends.dry_walking rfl (walking.start idle unfinished)
        exact .clear met ends (ih after empty)
      | inr cycle =>
        rw [outcome] at ends
        exact .cycle met ends

theorem walking_initial {children : String → List String} :
    Walking children [] ⟨[], [], []⟩ := by
  refine ⟨rfl, List.nodup_nil, ?_, ?_, .nil, ?_, .nil⟩ <;> simp [Search.mark?, ids]

theorem returns_findCycle : Returns (buildSuccessors declared)
    (declared.stages.map fun stage => stage.id) ⟨[], [], []⟩ (findCycle declared) := by
  have enough : 2 * declared.edges.length + 1 <
      declared.stages.length + 3 * declared.edges.length + 2 := by
    omega
  exact returns_searchRoots enough _ walking_initial rfl

theorem Cycle.transGen {arrow : String → String → Prop} {cycle : List String}
    (real : Cycle arrow cycle) : ∃ id, TransGen arrow id id := by
  obtain ⟨long, arrows, closed, _⟩ := real
  cases cycle with
  | nil => cases long
  | cons first cycle =>
    cases cycle with
    | nil => simp at long
    | cons second rest =>
      rw [List.isChain_cons_cons] at arrows
      have onward : ReflTransGen arrow second
          ((second :: rest).getLast (List.cons_ne_nil _ _)) :=
        List.relationReflTransGen_of_exists_isChain_cons rest arrows.2 rfl
      have last : (second :: rest).getLast (List.cons_ne_nil _ _) = first := by
        exact (Option.some.inj closed).symm
      rw [last] at onward
      exact ⟨first, TransGen.head' arrows.1 onward⟩

theorem fold_fresh {reached children : List String} {found : List String} (distinct : found.Nodup)
    (new : ∀ id ∈ found, id ∉ reached) :
    ∃ fresh, children.foldl (fun found child =>
        if child ∈ reached ∨ child ∈ found then found else found ++ [child]) found = fresh ∧
      fresh.Nodup ∧ (∀ id ∈ fresh, id ∉ reached) ∧
      ∀ id, id ∈ fresh ↔ id ∈ found ∨ id ∈ children ∧ id ∉ reached := by
  induction children generalizing found with
  | nil => exact ⟨found, rfl, distinct, new, by simp⟩
  | cons child children ih =>
    rw [List.foldl_cons]
    by_cases old : child ∈ reached ∨ child ∈ found
    · rw [if_pos old]
      obtain ⟨fresh, same, nodup, outside, all⟩ := ih distinct new
      refine ⟨fresh, same, nodup, outside, fun id => ?_⟩
      rw [all]
      by_cases here : id = child
      · subst here
        rcases old with old | old <;> simp [old]
      · simp [here]
    · rw [if_neg old]
      rw [not_or] at old
      have more : (found ++ [child]).Nodup := by
        rw [List.nodup_append]
        refine ⟨distinct, List.nodup_singleton _, ?_⟩
        rintro id listed _ (_ | ⟨_, none⟩) same
        · exact old.2 (same ▸ listed)
        · cases none
      obtain ⟨fresh, same, nodup, outside, all⟩ := ih more (by
        intro id listed
        rcases List.mem_append.mp listed with listed | listed
        · exact new id listed
        · rw [List.mem_singleton.mp listed]
          exact old.1)
      refine ⟨fresh, same, nodup, outside, fun id => ?_⟩
      rw [all]
      by_cases here : id = child
      · simp [here, old.1]
      · simp [here]

theorem reachFrom_closed {children : String → List String} {nodes : Finset String}
    (within : ∀ id, ∀ child ∈ children id, child ∈ nodes) {fuel : Nat} {queue reached : List String}
    (explored : ∀ id ∈ reached, id ∉ queue → ∀ child ∈ children id, child ∈ reached)
    (enough : queue.length + (nodes \ reached.toFinset).card < fuel) :
    reached ⊆ reachFrom children fuel queue reached ∧
      ∀ id ∈ reachFrom children fuel queue reached, ∀ child ∈ children id,
        child ∈ reachFrom children fuel queue reached := by
  induction fuel generalizing queue reached with
  | zero => omega
  | succ fuel ih =>
    cases queue with
    | nil => exact ⟨List.Subset.refl _, fun id listed => explored id listed (List.not_mem_nil)⟩
    | cons current queue =>
      obtain ⟨fresh, same, nodup, outside, all⟩ :=
        @fold_fresh reached (children current) [] List.nodup_nil (by simp)
      rw [reachFrom, same]
      have first : ∀ child ∈ children current, child ∈ reached ++ fresh := by
        intro child listed
        rw [List.mem_append, all]
        by_cases old : child ∈ reached
        · exact .inl old
        · exact .inr (.inr ⟨listed, old⟩)
      have part : fresh.toFinset ⊆ nodes \ reached.toFinset := by
        intro id listed
        rw [List.mem_toFinset] at listed
        have child := ((all id).mp listed).resolve_left (List.not_mem_nil)
        simp [within current id child.1, child.2]
      have left : nodes \ (reached ++ fresh).toFinset =
          (nodes \ reached.toFinset) \ fresh.toFinset := by
        rw [List.toFinset_append, Finset.sdiff_union_distrib, ← Finset.sdiff_sdiff_left']
      have count := Finset.card_sdiff_add_card_eq_card part
      rw [List.toFinset_card_of_nodup nodup] at count
      obtain ⟨kept, closed⟩ := @ih (queue ++ fresh) (reached ++ fresh) (by
        intro id listed waiting child arrow
        rw [List.mem_append, not_or] at waiting
        by_cases here : id = current
        · exact first child (here ▸ arrow)
        · have old := (List.mem_append.mp listed).resolve_right waiting.2
          refine List.mem_append_left _ (explored id old ?_ child arrow)
          rw [List.mem_cons, not_or]
          exact ⟨here, waiting.1⟩) (by
        rw [left, List.length_append]
        simp only [List.length_cons] at enough
        omega)
      exact ⟨fun id listed => kept (List.mem_append_left _ listed), closed⟩

theorem mem_entryStages {stage : StageDeclaration} : stage ∈ entryStages declared ↔
    stage ∈ declared.stages ∧ ∀ id, ¬ Precedes declared id stage.id := by
  have swapped : (∀ edge ∈ declared.edges, edge.toStageId ≠ stage.id) ↔
      ∀ id, ¬ Precedes declared id stage.id := by
    constructor
    · rintro apart id ⟨edge, listed, _, target⟩
      exact apart edge listed target
    · intro apart edge listed target
      exact apart edge.fromStageId ⟨edge, listed, rfl, target⟩
  rw [← swapped]
  simp [entryStages]

theorem reached_of_acyclic (resolved : edgesResolved declared.graph = true)
    (acyclic : Acyclic (Precedes declared)) {reached : List String}
    (entries : ∀ stage ∈ entryStages declared, stage.id ∈ reached)
    (closed : ∀ id ∈ reached, ∀ child ∈ buildSuccessors declared id, child ∈ reached) :
    ∀ stage ∈ declared.stages, stage.id ∈ reached := by
  have order : IsStrictOrder String (TransGen (Precedes declared)) :=
    { irrefl := acyclic, trans := fun _ _ _ => TransGen.trans }
  have founded : {id | id ∈ stageIds declared.graph}.WellFoundedOn (TransGen (Precedes declared)) :=
    (List.finite_toSet _).wellFoundedOn
  have stages : ∀ id, id ∈ stageIds declared.graph ↔ ∃ stage ∈ declared.stages, stage.id = id := by
    simp [stageIds, GraphDeclaration.graph]
  intro stage listed
  have known : stage.id ∈ {id | id ∈ stageIds declared.graph} := (stages _).mpr ⟨stage, listed, rfl⟩
  refine @Set.WellFoundedOn.induction _ _ _ _ founded known (fun id => id ∈ reached) ?_
  intro id member earlier
  by_cases first : ∀ source, ¬ Precedes declared source id
  · obtain ⟨entry, present, rfl⟩ := (stages id).mp member
    exact entries entry (mem_entryStages.mpr ⟨present, first⟩)
  · obtain ⟨source, edge, within, leaving, target⟩ := not_forall_not.mp first
    have arrow : Precedes declared source id := ⟨edge, within, leaving, target⟩
    have declaredSource := (edgesResolved_iff.mp resolved edge within).1
    rw [leaving] at declaredSource
    have child : Arrow (buildSuccessors declared) source id := by
      rw [arrow_iff_precedes resolved]
      exact arrow
    exact closed source (earlier source declaredSource (.single arrow)) id child

theorem reachability_of_acyclic {normalized : NormalizedPipeline}
    (resolved : edgesResolved normalized.declared.graph = true)
    (acyclic : Acyclic (Precedes normalized.declared)) (filled : normalized.declared.stages ≠ []) :
    validateStageReachability normalized = [] := by
  have enough : ((entryStages normalized.declared).map fun stage => stage.id).length +
      (targets normalized.declared \
        ((entryStages normalized.declared).map fun stage => stage.id).toFinset).card <
      normalized.declared.stages.length + normalized.declared.edges.length + 1 := by
    have few : ((entryStages normalized.declared).map fun stage => stage.id).length ≤
        normalized.declared.stages.length := by
      rw [List.length_map]
      exact List.length_filter_le _ _
    have fewer : (targets normalized.declared \
        ((entryStages normalized.declared).map fun stage => stage.id).toFinset).card ≤
        normalized.declared.edges.length :=
      (Finset.card_le_card Finset.sdiff_subset).trans card_targets
    omega
  have start : ∀ id ∈ (entryStages normalized.declared).map fun stage => stage.id,
      id ∉ ((entryStages normalized.declared).map fun stage => stage.id) →
      ∀ child ∈ buildSuccessors normalized.declared id,
        child ∈ (entryStages normalized.declared).map fun stage => stage.id :=
    fun _ listed waiting => absurd listed waiting
  obtain ⟨kept, closed⟩ := reachFrom_closed (fun _ _ => mem_targets) start enough
  have all := reached_of_acyclic resolved acyclic
    (fun stage listed => kept (List.mem_map_of_mem listed)) closed
  have begins : (entryStages normalized.declared).map (fun stage => stage.id) ≠ [] := by
    intro none
    rw [List.map_eq_nil_iff] at none
    have nowhere : ∀ stage ∈ normalized.declared.stages, stage.id ∈ ([] : List String) :=
      reached_of_acyclic resolved acyclic (by simp [none]) (by simp)
    obtain ⟨stage, listed⟩ := List.exists_mem_of_ne_nil _ filled
    exact List.not_mem_nil (nowhere stage listed)
  unfold validateStageReachability
  rw [if_neg begins, List.flatMap_eq_nil_iff]
  exact fun stage listed => if_pos (all stage listed)

end Graph

/-- A cycle is found just when there is one and is one; without one every stage is reached. -/
theorem findCycle_exact (normalized : NormalizedPipeline) :
    Returns (buildSuccessors normalized.declared)
        (normalized.declared.stages.map fun stage => stage.id) ⟨[], [], []⟩
        (findCycle normalized.declared) ∧
      (edgesResolved normalized.declared.graph = true →
        ((findCycle normalized.declared).isSome = true ↔
          ∃ id, TransGen (Precedes normalized.declared) id id) ∧
        (∀ cycle, findCycle normalized.declared = some cycle →
          Cycle (Precedes normalized.declared) cycle) ∧
        (normalized.declared.stages ≠ [] →
          (¬ ∃ id, TransGen (Precedes normalized.declared) id id) →
          validateStageReachability normalized = [])) := by
  refine ⟨returns_findCycle, fun resolved => ?_⟩
  have arrows := arrow_iff_precedes resolved
  have real : ∀ cycle, findCycle normalized.declared = some cycle →
      Cycle (Precedes normalized.declared) cycle := by
    intro cycle found
    rw [← arrows]
    exact returns_findCycle.cycle_of_some found walking_initial rfl
  refine ⟨?_, real, ?_⟩
  · constructor
    · intro found
      obtain ⟨cycle, found⟩ := Option.isSome_iff_exists.mp found
      exact (real cycle found).transGen
    · rintro ⟨id, round⟩
      by_contra missing
      have nothing : findCycle normalized.declared = none := by simpa using missing
      obtain ⟨done, _, finished, all⟩ :=
        returns_findCycle.finished_of_none nothing walking_initial rfl
      obtain ⟨next, first, _⟩ := TransGen.head'_iff.mp round
      obtain ⟨edge, listed, leaving, _⟩ := first
      have known := (edgesResolved_iff.mp resolved edge listed).1
      rw [leaving] at known
      have root : id ∈ normalized.declared.stages.map fun stage => stage.id := by
        simpa [stageIds, GraphDeclaration.graph] using known
      rw [← arrows] at round
      exact finished.no_cycle (all root) round
  · intro filled acyclic
    exact reachability_of_acyclic resolved (fun id round => acyclic ⟨id, round⟩) filled

/-- Two stages of one edge, and the edge back. -/
def twoStages (back : List PipelineEdge) : NormalizedPipeline where
  declared :=
    { mode := .autonomous
      stages := ["build", "check"].map fun id =>
        { id := id, type := .command, mode := .autonomous, optional := false }
      edges := { fromStageId := "build", toStageId := "check" } :: back }
  stagePointers := fun _ => none
  edgePointers := []

theorem findCycle_exact_sample :
    (∃ id, TransGen (Precedes
      (twoStages [{ fromStageId := "check", toStageId := "build" }]).declared) id id) ∧
      validateStageReachability (twoStages []) = [] := by
  have around := (findCycle_exact
    (twoStages [{ fromStageId := "check", toStageId := "build" }])).2 (by decide)
  have onward := (findCycle_exact (twoStages [])).2 (by decide)
  refine ⟨around.1.mp (by decide +kernel), onward.2.2 (by simp [twoStages]) ?_⟩
  rw [← onward.1]
  decide +kernel

end Heniek.CycleSearch
