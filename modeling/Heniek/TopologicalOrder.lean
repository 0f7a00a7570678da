import Heniek.DagValidation

/-!
The loop that orders the tasks of a graph: the count of a task is that of the
dependencies it still waits for, so a task becomes ready once, and the order holds
every task exactly once when no task is left over as cyclic.
-/

namespace Heniek.TopologicalOrder
open KeyedTable ScriptText TaskGraph DagValidation

/-- The dependencies that count in the topology, each from its source to the task. -/
def edges (dag : TaskDag) (nodes : NodeTable) : List (String × String) :=
  dag.nodes.flatMap fun node =>
    (node.task.dependencies.filter (counts nodes node.taskId)).map fun predecessor =>
      (predecessor, node.taskId)

/-- The edges into a task from sources that are not placed. -/
def waiting (arrows : List (String × String)) (placed : List String) (taskId : String) : Nat :=
  arrows.countP fun arrow => decide (arrow.2 = taskId ∧ arrow.1 ∉ placed)

def degreeOf (topology : Topology) (taskId : String) : Nat :=
  ((topology.indegree.find? taskId).map Prod.snd).getD 0

section Edges

variable {dag : TaskDag} {nodes : NodeTable}

theorem indegreeOf_eq (taskId : String) :
    indegreeOf dag nodes taskId = waiting (edges dag nodes) [] taskId := by
  unfold indegreeOf waiting edges
  rw [List.length_flatMap, List.countP_flatMap]
  congr 1
  apply List.map_congr_left
  intro node _
  rw [Function.comp_apply, List.countP_map]
  by_cases here : node.taskId = taskId
  · subst here
    simp [List.countP_eq_length_filter]
  · rw [if_neg here, List.length_nil]
    symm
    rw [List.countP_eq_zero]
    simp [here]

theorem count_successorsOf (taskId successor : String) :
    (successorsOf dag nodes taskId).count successor =
      (edges dag nodes).countP fun arrow => decide (arrow.2 = successor ∧ arrow.1 = taskId) := by
  unfold successorsOf edges sortTexts
  rw [(sortBy_perm id _).count_eq, List.count_flatMap, List.countP_flatMap]
  congr 1
  apply List.map_congr_left
  intro node _
  rw [Function.comp_apply, Function.comp_apply, List.countP_map, List.count, List.countP_map,
    List.countP_filter, List.countP_filter]
  apply List.countP_congr
  simp only [Function.comp_apply, Bool.and_eq_true, beq_iff_eq, decide_eq_true_eq]
  tauto

theorem mem_keys_of_successor (within : ∀ node ∈ dag.nodes, node.taskId ∈ nodes.keys)
    {taskId successor : String} (member : successor ∈ successorsOf dag nodes taskId) :
    successor ∈ nodes.keys := by
  simp only [successorsOf, mem_sortTexts, List.mem_flatMap, List.mem_map] at member
  obtain ⟨node, listed, _, _, rfl⟩ := member
  exact within node listed

theorem waiting_place {arrows : List (String × String)} {placed : List String} {taskId : String}
    (unplaced : taskId ∉ placed) (successor : String) :
    waiting arrows placed successor = waiting arrows (placed ++ [taskId]) successor +
      arrows.countP fun arrow => decide (arrow.2 = successor ∧ arrow.1 = taskId) := by
  unfold waiting
  induction arrows with
  | nil => rfl
  | cons arrow arrows ih =>
    rw [List.countP_cons, List.countP_cons, List.countP_cons, ih]
    by_cases here : arrow.1 = taskId
    · subst here
      by_cases into : arrow.2 = successor
      · simp only [into, unplaced, not_false_eq_true, and_self, decide_true, List.mem_append,
          List.mem_singleton, or_true, not_true_eq_false, and_false,
          decide_false, Bool.false_eq_true, if_false]
        omega
      · simp [into]
    · simp only [here, and_false, decide_false, Bool.false_eq_true, if_false, List.mem_append,
        List.mem_singleton, or_false]
      omega

end Edges

/-- What the loop keeps: `left` are the successors of the task just placed that are not
released yet. -/
structure Placing (arrows : List (String × String)) (nodes : NodeTable) (left : List String)
    (topology : Topology) : Prop where
  keys : ∀ taskId, taskId ∈ topology.indegree.keys ↔ taskId ∈ nodes.keys
  degree : ∀ taskId ∈ nodes.keys,
    degreeOf topology taskId = waiting arrows topology.order taskId + left.count taskId
  distinct : (topology.order ++ topology.ready).Nodup
  reached : ∀ taskId, taskId ∈ topology.order ++ topology.ready ↔
    taskId ∈ nodes.keys ∧ degreeOf topology taskId = 0

section Loop

variable {dag : TaskDag} {nodes : NodeTable} {topology : Topology}

theorem degreeOf_release (successor taskId : String) :
    degreeOf (release topology successor) taskId =
      if taskId = successor then degreeOf topology successor - 1
      else degreeOf topology taskId := by
  unfold degreeOf release
  simp only [Table.find?_upsert]
  split <;> simp

theorem ready_release (successor : String) :
    (release topology successor).ready = if degreeOf topology successor - 1 = 0 then
      insertSorted topology.ready successor else topology.ready := rfl

theorem insertSorted_perm (values : List String) (value : String) :
    (insertSorted values value).Perm (value :: values) := by
  refine List.perm_middle.trans ?_
  rw [List.takeWhile_append_dropWhile]

variable {arrows : List (String × String)} {fuel : Nat}

theorem Placing.release {successor : String} {left : List String}
    (placing : Placing arrows nodes (successor :: left) topology) (known : successor ∈ nodes.keys) :
    Placing arrows nodes left (release topology successor) := by
  have positive : 0 < degreeOf topology successor := by
    rw [placing.degree successor known, List.count_cons_self]
    omega
  have unreached : successor ∉ topology.order ++ topology.ready := by
    intro member
    have zero := ((placing.reached successor).mp member).2
    omega
  have ready : (topology.order ++ (DagValidation.release topology successor).ready).Perm
      (if degreeOf topology successor - 1 = 0 then successor :: (topology.order ++ topology.ready)
        else topology.order ++ topology.ready) := by
    rw [ready_release]
    split
    · exact ((insertSorted_perm _ _).append_left _).trans List.perm_middle
    · exact List.Perm.refl _
  refine ⟨?_, ?_, ?_, ?_⟩
  · intro taskId
    change taskId ∈ (topology.indegree.upsert _).keys ↔ _
    rw [Table.mem_keys_upsert, placing.keys]
    constructor
    · rintro (member | rfl)
      · exact member
      · exact known
    · exact Or.inl
  · intro taskId member
    rw [degreeOf_release]
    have degree := placing.degree taskId member
    change _ = waiting arrows topology.order taskId + _
    split
    · rename_i same
      subst same
      rw [List.count_cons_self] at degree
      omega
    · rename_i other
      rw [List.count_cons_of_ne (Ne.symm other)] at degree
      exact degree
  · change (topology.order ++ (DagValidation.release topology successor).ready).Nodup
    rw [ready.nodup_iff]
    split
    · exact List.nodup_cons.mpr ⟨unreached, placing.distinct⟩
    · exact placing.distinct
  · intro taskId
    change taskId ∈ topology.order ++ (DagValidation.release topology successor).ready ↔ _
    rw [ready.mem_iff, degreeOf_release]
    by_cases same : taskId = successor
    · subst same
      by_cases last : degreeOf topology taskId - 1 = 0
      · simp [last, known]
      · simp [last, unreached]
    · rw [if_neg same, ← placing.reached taskId]
      split
      · simp [same]
      · exact Iff.rfl

theorem Placing.releaseAll {left : List String} (placing : Placing arrows nodes left topology)
    (known : ∀ taskId ∈ left, taskId ∈ nodes.keys) :
    Placing arrows nodes [] (left.foldl DagValidation.release topology) := by
  induction left generalizing topology with
  | nil => exact placing
  | cons successor left ih =>
    exact ih (placing.release (known successor List.mem_cons_self))
      fun taskId member => known taskId (List.mem_cons_of_mem _ member)

theorem order_releaseAll (left : List String) :
    (left.foldl DagValidation.release topology).order = topology.order := by
  induction left generalizing topology with
  | nil => rfl
  | cons successor left ih => exact ih

theorem Placing.place (placing : Placing (edges dag nodes) nodes [] topology) {taskId : String}
    {ready : List String} (next : topology.ready = taskId :: ready) :
    Placing (edges dag nodes) nodes (successorsOf dag nodes taskId)
      { topology with ready := ready, order := topology.order ++ [taskId] } := by
  have same : topology.order ++ topology.ready = (topology.order ++ [taskId]) ++ ready := by
    simp [next]
  have unplaced : taskId ∉ topology.order := by
    have distinct := placing.distinct
    rw [next] at distinct
    intro member
    exact (List.disjoint_of_nodup_append distinct) member List.mem_cons_self
  refine ⟨placing.keys, ?_, same ▸ placing.distinct, ?_⟩
  · intro successor known
    change degreeOf topology successor = _
    rw [placing.degree successor known, waiting_place unplaced, count_successorsOf]
    simp
  · intro other
    rw [← same]
    exact placing.reached other

theorem placing_initial : Placing (edges dag nodes) nodes [] (initialTopology dag nodes) := by
  let counted := nodes.keys.map fun taskId => (taskId, indegreeOf dag nodes taskId)
  have names : counted.map Prod.fst = nodes.keys := by
    rw [List.map_map]
    exact List.map_id' _
  have degree : ∀ taskId ∈ nodes.keys,
      degreeOf (initialTopology dag nodes) taskId = indegreeOf dag nodes taskId := by
    intro taskId member
    have found : (Table.empty.upsertAll counted : Table fun item : String × Nat => item.1).find?
        taskId = some (taskId, indegreeOf dag nodes taskId) :=
      Table.find?_upsertAll_of_nodup (a := (taskId, indegreeOf dag nodes taskId))
        (names ▸ nodes.distinct) (List.mem_map_of_mem member)
    unfold degreeOf initialTopology
    rw [found]
    rfl
  have ready : ∀ taskId, taskId ∈ (initialTopology dag nodes).ready ↔
      taskId ∈ nodes.keys ∧ indegreeOf dag nodes taskId = 0 := by
    simp [initialTopology]
  refine ⟨?_, ?_, ?_, ?_⟩
  · intro taskId
    change taskId ∈
      (Table.empty.upsertAll counted : Table fun item : String × Nat => item.1).keys ↔ _
    rw [Table.mem_keys_upsertAll]
    simp [counted]
  · intro taskId member
    rw [degree taskId member, indegreeOf_eq]
    rfl
  · change ([] ++ sortTexts ((counted.filter fun item : String × Nat => item.2 = 0).map
      Prod.fst)).Nodup
    refine (sortBy_perm id _).nodup_iff.mpr ?_
    have part : ((counted.filter fun item : String × Nat => item.2 = 0).map Prod.fst).Sublist
        nodes.keys := names ▸ List.filter_sublist.map Prod.fst
    exact nodes.distinct.sublist part
  · intro taskId
    change taskId ∈ [] ++ (initialTopology dag nodes).ready ↔ _
    rw [List.nil_append, ready]
    constructor
    · rintro ⟨known, zero⟩
      exact ⟨known, (degree taskId known).trans zero⟩
    · rintro ⟨known, zero⟩
      exact ⟨known, (degree taskId known).symm.trans zero⟩

theorem placing_placeTasks (within : ∀ node ∈ dag.nodes, node.taskId ∈ nodes.keys)
    (placing : Placing (edges dag nodes) nodes [] topology) :
    Placing (edges dag nodes) nodes [] (placeTasks dag nodes fuel topology) := by
  induction fuel generalizing topology with
  | zero => exact placing
  | succ fuel ih =>
    unfold placeTasks
    split
    · exact placing
    · rename_i taskId ready next
      exact ih ((placing.place next).releaseAll fun _ => mem_keys_of_successor within)

theorem ready_placeTasks (within : ∀ node ∈ dag.nodes, node.taskId ∈ nodes.keys)
    (placing : Placing (edges dag nodes) nodes [] topology)
    (enough : nodes.rows.length ≤ fuel + topology.order.length) :
    (placeTasks dag nodes fuel topology).ready = [] := by
  induction fuel generalizing topology with
  | zero =>
    have part : (topology.order ++ topology.ready).length ≤ nodes.keys.length :=
      (List.subperm_of_subset placing.distinct
        fun taskId member => ((placing.reached taskId).mp member).1).length_le
    have size : nodes.keys.length = nodes.rows.length := List.length_map ..
    rw [List.length_append] at part
    exact List.length_eq_zero_iff.mp (by
      change topology.ready.length = 0
      omega)
  | succ fuel ih =>
    unfold placeTasks
    split
    · assumption
    · rename_i taskId ready next
      refine ih ((placing.place next).releaseAll fun _ => mem_keys_of_successor within) ?_
      rw [order_releaseAll]
      simp only [List.length_append, List.length_singleton]
      omega

/-- Every task of the order comes after the ones it depends on. -/
def Ranked (arrows : List (String × String)) (order : List String) : Prop :=
  ∀ arrow ∈ arrows, arrow.2 ∈ order →
    arrow.1 ∈ order ∧ order.idxOf arrow.1 < order.idxOf arrow.2

theorem Ranked.append {order : List String} {taskId : String} (ranked : Ranked arrows order)
    (fresh : taskId ∉ order) (ready : waiting arrows order taskId = 0) :
    Ranked arrows (order ++ [taskId]) := by
  intro arrow listed target
  by_cases placed : arrow.2 ∈ order
  · have earlier := ranked arrow listed placed
    rw [List.idxOf_append_of_mem earlier.1, List.idxOf_append_of_mem placed]
    exact ⟨List.mem_append_left _ earlier.1, earlier.2⟩
  · have here : arrow.2 = taskId := by simpa [placed] using target
    have source : arrow.1 ∈ order := by
      have counted := List.countP_eq_zero.mp ready arrow listed
      simpa [here] using counted
    refine ⟨List.mem_append_left _ source, ?_⟩
    rw [here, List.idxOf_append_of_mem source, List.idxOf_append_of_notMem fresh]
    have bounded := List.idxOf_lt_length_of_mem source
    omega

theorem ranked_placeTasks (within : ∀ node ∈ dag.nodes, node.taskId ∈ nodes.keys)
    (placing : Placing (edges dag nodes) nodes [] topology)
    (ranked : Ranked (edges dag nodes) topology.order) :
    Ranked (edges dag nodes) (placeTasks dag nodes fuel topology).order := by
  induction fuel generalizing topology with
  | zero => exact ranked
  | succ fuel ih =>
    unfold placeTasks
    split
    · exact ranked
    · rename_i taskId ready next
      refine ih ((placing.place next).releaseAll fun _ => mem_keys_of_successor within) ?_
      rw [order_releaseAll]
      have reached := (placing.reached taskId).mp (by simp [next])
      have degree := placing.degree taskId reached.1
      refine ranked.append ?_ (by omega)
      have distinct := placing.distinct
      rw [next] at distinct
      exact fun member => (List.disjoint_of_nodup_append distinct) member List.mem_cons_self

end Loop

section Order

variable {dag : TaskDag} {nodes : NodeTable}

theorem nodup_order (within : ∀ node ∈ dag.nodes, node.taskId ∈ nodes.keys) :
    (buildTopologicalOrder dag nodes).1.Nodup :=
  (List.nodup_append.mp (placing_placeTasks within placing_initial).distinct).1

theorem mem_keys_of_order (within : ∀ node ∈ dag.nodes, node.taskId ∈ nodes.keys) {taskId : String}
    (member : taskId ∈ (buildTopologicalOrder dag nodes).1) : taskId ∈ nodes.keys :=
  (((placing_placeTasks within placing_initial).reached taskId).mp
    (List.mem_append_left _ member)).1

theorem order_complete (within : ∀ node ∈ dag.nodes, node.taskId ∈ nodes.keys)
    (acyclic : (buildTopologicalOrder dag nodes).2 = []) :
    (buildTopologicalOrder dag nodes).1.Perm nodes.keys := by
  have placing : Placing (edges dag nodes) nodes []
      (placeTasks dag nodes nodes.rows.length (initialTopology dag nodes)) :=
    placing_placeTasks within placing_initial
  have finished : (placeTasks dag nodes nodes.rows.length (initialTopology dag nodes)).ready = [] :=
    ready_placeTasks within placing_initial (Nat.le_add_right _ _)
  refine (List.perm_ext_iff_of_nodup (nodup_order within) nodes.distinct).mpr fun taskId => ?_
  constructor
  · exact mem_keys_of_order within
  · intro known
    have settled : degreeOf (placeTasks dag nodes nodes.rows.length (initialTopology dag nodes))
        taskId = 0 := by
      obtain ⟨item, found⟩ := Table.exists_find? ((placing.keys taskId).mpr known)
      by_contra positive
      have left : taskId ∈ (buildTopologicalOrder dag nodes).2 := by
        simp only [buildTopologicalOrder, mem_sortTexts, List.mem_map, List.mem_filter]
        refine ⟨item, ⟨Table.mem_of_find? found, ?_⟩, Table.key_of_find? found⟩
        simp only [degreeOf, found, Option.map_some] at positive
        simpa using Nat.pos_of_ne_zero positive
      rw [acyclic] at left
      cases left
    have reached := (placing.reached taskId).mpr ⟨known, settled⟩
    rw [finished, List.append_nil] at reached
    exact reached

theorem ranked_order (within : ∀ node ∈ dag.nodes, node.taskId ∈ nodes.keys) :
    Ranked (edges dag nodes) (buildTopologicalOrder dag nodes).1 :=
  ranked_placeTasks within placing_initial fun _ _ placed => nomatch placed

end Order

end Heniek.TopologicalOrder
