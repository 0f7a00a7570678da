import Heniek.GraphRevision
import Heniek.WaveExclusivity
import Mathlib.Data.List.Lex
import Mathlib.Order.WellFoundedSet

/-!
What the diagnostics of a task graph say, taken together: they are empty just when the
graph and its states are well formed. The order that is reported then begins, wherever
it parts from another topological order, with the task that comes first.
-/

namespace Heniek.DagExactness
open KeyedTable ScriptText TaskGraph DagValidation TopologicalOrder WaveExclusivity
open Relation
open GraphRevision (freshState)

def Comparable (dag : TaskDag) (first second : String) : Prop :=
  TransGen (DependsOn dag) first second ∨ TransGen (DependsOn dag) second first

structure WellFormed (dag : TaskDag) (states : List TaskPlanningState) : Prop where
  filled : dag.nodes ≠ []
  distinct : dag.taskIds.Nodup
  known : ∀ node ∈ dag.nodes, ∀ predecessor ∈ node.task.dependencies,
    predecessor ∈ dag.taskIds ∧ predecessor ≠ node.taskId
  unrepeated : ∀ node ∈ dag.nodes, node.task.dependencies.Nodup
  acyclic : ∀ taskId, ¬ TransGen (DependsOn dag) taskId taskId
  writers : ∀ first ∈ dag.nodes, ∀ second ∈ dag.nodes, first.taskId ≠ second.taskId →
    ∀ repositoryId ∈ first.task.writeSet, repositoryId ∈ second.task.writeSet →
      Comparable dag first.taskId second.taskId
  covered : (states.map TaskPlanningState.taskId).Perm dag.taskIds
  settled : ∀ state ∈ states, state.outcome = .active ∨ state.outcome = .succeeded →
    ∀ predecessor, DependsOn dag state.taskId predecessor →
      ∃ earlier ∈ states, earlier.taskId = predecessor ∧ earlier.outcome = .succeeded ∧
        earlier.completionContract = .passed ∧ earlier.integration = .passed ∧
        earlier.combinedVerification = .passed

structure Topological (dag : TaskDag) (order : List String) : Prop where
  all : order.Perm dag.taskIds
  follows : order.Pairwise fun earlier later => ¬ DependsOn dag earlier later

/-- A topological order that comes before every other by the code units of the ids. -/
def Least (dag : TaskDag) (order : List String) : Prop :=
  Topological dag order ∧ ∀ other, Topological dag other →
    other = order ∨ List.Lex (fun a b => before a b = true) order other

section Nodes

variable {dag : TaskDag}

theorem repeated_of_nodup {seen items : List String} (distinct : items.Nodup)
    (apart : ∀ item ∈ items, item ∉ seen) : repeated seen items = [] := by
  induction items generalizing seen with
  | nil => rfl
  | cons item items ih =>
    rw [List.nodup_cons] at distinct
    rw [repeated, if_neg (apart item List.mem_cons_self)]
    refine ih distinct.2 fun other listed => ?_
    rw [List.mem_append, List.mem_singleton, not_or]
    refine ⟨apart other (List.mem_cons_of_mem _ listed), ?_⟩
    rintro rfl
    exact distinct.1 listed

theorem repeated_nil_iff {items : List String} : repeated [] items = [] ↔ items.Nodup :=
  ⟨fun none => (repeated_eq_nil none).1, fun distinct => repeated_of_nodup distinct (by simp)⟩

theorem rows_firstNodes (distinct : dag.taskIds.Nodup) : (firstNodes dag).rows = dag.nodes := by
  have fold : ∀ (nodes : List TaskDagNode) (table : NodeTable),
      (table.keys ++ nodes.map TaskDagNode.taskId).Nodup →
      (nodes.foldl Table.insertOrIgnore table).rows = table.rows ++ nodes := by
    intro nodes
    induction nodes with
    | nil => simp
    | cons node nodes ih =>
      intro table distinct
      have fresh : node.taskId ∉ table.keys := by
        intro member
        exact (List.disjoint_of_nodup_append distinct) member (by simp)
      have grown := Table.rows_insertOrIgnore fresh
      have keys : (table.insertOrIgnore node).keys = table.keys ++ [node.taskId] := by
        simp [Table.keys, grown]
      rw [List.foldl_cons, ih _ (by rw [keys]; simpa using distinct), grown]
      simp
  have whole : (firstNodes dag).rows = [] ++ dag.nodes :=
    fold dag.nodes Table.empty (by
      simpa [Table.keys, Table.empty, TaskDag.taskIds] using distinct)
  exact whole

theorem keys_firstNodes_eq (distinct : dag.taskIds.Nodup) :
    (firstNodes dag).keys = dag.taskIds := by
  unfold Table.keys
  rw [rows_firstNodes distinct]
  rfl

theorem dependencyDiagnostics_nil {nodes : NodeTable} {node : TaskDagNode} :
    dependencyDiagnostics nodes node = [] ↔
      (∀ predecessor ∈ node.task.dependencies,
        predecessor ∈ nodes.keys ∧ predecessor ≠ node.taskId) ∧
      node.task.dependencies.Nodup := by
  unfold dependencyDiagnostics
  rw [List.append_eq_nil_iff, List.map_eq_nil_iff, repeated_nil_iff, List.flatMap_eq_nil_iff]
  refine and_congr_left fun _ => forall₂_congr fun predecessor _ => ?_
  by_cases own : predecessor = node.taskId
  · simp [own]
  · by_cases known : predecessor ∈ nodes.keys <;> simp [own]

end Nodes

section Order

variable {dag : TaskDag}

theorem arrow_of_dependsOn
    (known : ∀ node ∈ dag.nodes, ∀ predecessor ∈ node.task.dependencies,
      predecessor ∈ (firstNodes dag).keys ∧ predecessor ≠ node.taskId)
    {taskId predecessor : String} :
    (predecessor, taskId) ∈ edges dag (firstNodes dag) ↔ DependsOn dag taskId predecessor := by
  simp only [edges, List.mem_flatMap, List.mem_map, List.mem_filter, Prod.mk.injEq]
  constructor
  · rintro ⟨node, listed, _, ⟨depends, _⟩, rfl, rfl⟩
    exact ⟨node, listed, rfl, depends⟩
  · rintro ⟨node, listed, rfl, depends⟩
    exact ⟨node, listed, predecessor,
      ⟨depends, decide_eq_true (known node listed predecessor depends)⟩, rfl, rfl⟩

/-- The loop leaves no task of an acyclic graph over. -/
theorem mem_order_of_acyclic
    (known : ∀ node ∈ dag.nodes, ∀ predecessor ∈ node.task.dependencies,
      predecessor ∈ (firstNodes dag).keys ∧ predecessor ≠ node.taskId)
    (acyclic : ∀ taskId, ¬ TransGen (DependsOn dag) taskId taskId) :
    ∀ taskId ∈ (firstNodes dag).keys,
      taskId ∈ (buildTopologicalOrder dag (firstNodes dag)).1 := by
  have within : ∀ node ∈ dag.nodes, node.taskId ∈ (firstNodes dag).keys := fun _ => keys_firstNodes
  have placing : Placing (edges dag (firstNodes dag)) (firstNodes dag) []
      (placeTasks dag (firstNodes dag) (firstNodes dag).rows.length
        (initialTopology dag (firstNodes dag))) := placing_placeTasks within placing_initial
  have finished : (placeTasks dag (firstNodes dag) (firstNodes dag).rows.length
      (initialTopology dag (firstNodes dag))).ready = [] :=
    ready_placeTasks within placing_initial (Nat.le_add_right _ _)
  have order : IsStrictOrder String fun a b => TransGen (DependsOn dag) b a :=
    { irrefl := acyclic, trans := fun _ _ _ first second => second.trans first }
  have founded : {taskId | taskId ∈ (firstNodes dag).keys}.WellFoundedOn
      fun a b => TransGen (DependsOn dag) b a := (List.finite_toSet _).wellFoundedOn
  intro taskId member
  have start : taskId ∈ {taskId | taskId ∈ (firstNodes dag).keys} := member
  refine @Set.WellFoundedOn.induction _ _ _ _ founded start
    (fun taskId => taskId ∈ (buildTopologicalOrder dag (firstNodes dag)).1) ?_
  intro taskId here earlier
  have free : waiting (edges dag (firstNodes dag)) (placeTasks dag (firstNodes dag)
      (firstNodes dag).rows.length (initialTopology dag (firstNodes dag))).order taskId = 0 := by
    refine List.countP_eq_zero.mpr fun arrow listed => ?_
    rw [decide_eq_true_eq, not_and, not_not]
    intro target
    have depends : DependsOn dag taskId arrow.1 := by
      rw [← arrow_of_dependsOn known, ← target]
      exact listed
    obtain ⟨node, inNodes, _, direct⟩ := depends
    refine earlier arrow.1 (known node inNodes arrow.1 direct).1 (.single ?_)
    rw [← arrow_of_dependsOn known, ← target]
    exact listed
  have degree := placing.degree taskId here
  rw [free] at degree
  have reached := (placing.reached taskId).mpr ⟨here, degree⟩
  rw [finished, List.append_nil] at reached
  exact reached

theorem cyclic_nil_iff
    (known : ∀ node ∈ dag.nodes, ∀ predecessor ∈ node.task.dependencies,
      predecessor ∈ (firstNodes dag).keys ∧ predecessor ≠ node.taskId) :
    (buildTopologicalOrder dag (firstNodes dag)).2 = [] ↔
      ∀ taskId, ¬ TransGen (DependsOn dag) taskId taskId := by
  have within : ∀ node ∈ dag.nodes, node.taskId ∈ (firstNodes dag).keys := fun _ => keys_firstNodes
  constructor
  · intro none taskId cycle
    have complete := order_complete within none
    have rank : ∀ a b, DependsOn dag a b →
        (buildTopologicalOrder dag (firstNodes dag)).1.idxOf b <
          (buildTopologicalOrder dag (firstNodes dag)).1.idxOf a := by
      intro a b depends
      have arrow := (arrow_of_dependsOn known).mpr depends
      obtain ⟨node, listed, rfl, _⟩ := depends
      exact (ranked_order within _ arrow (complete.mem_iff.mpr (within node listed))).2
    have fall : TransGen (fun a b : Nat => a > b)
        ((buildTopologicalOrder dag (firstNodes dag)).1.idxOf taskId)
        ((buildTopologicalOrder dag (firstNodes dag)).1.idxOf taskId) :=
      cycle.lift (fun id => (buildTopologicalOrder dag (firstNodes dag)).1.idxOf id) rank
    rw [transGen_eq_self] at fall
    exact Nat.lt_irrefl _ fall
  · intro acyclic
    have placing : Placing (edges dag (firstNodes dag)) (firstNodes dag) []
        (placeTasks dag (firstNodes dag) (firstNodes dag).rows.length
          (initialTopology dag (firstNodes dag))) := placing_placeTasks within placing_initial
    by_contra left
    obtain ⟨taskId, listed⟩ := List.exists_mem_of_ne_nil _ left
    simp only [buildTopologicalOrder, mem_sortTexts, List.mem_map, List.mem_filter,
      decide_eq_true_eq] at listed
    obtain ⟨item, ⟨inRows, positive⟩, rfl⟩ := listed
    have key : item.1 ∈ (firstNodes dag).keys :=
      (placing.keys item.1).mp (Table.mem_keys_of_mem inRows)
    have placed := mem_order_of_acyclic known acyclic item.1 key
    have zero := ((placing.reached item.1).mp (List.mem_append_left _ placed)).2
    have found := Table.find?_key inRows
    unfold degreeOf at zero
    rw [found, Option.map_some, Option.getD_some] at zero
    omega

theorem insertSorted_ascending {values : List String} {value : String}
    (ascending : values.Pairwise fun a b => before a b = true) (fresh : value ∉ values) :
    (insertSorted values value).Pairwise fun a b => before a b = true := by
  have split : values.takeWhile (fun candidate => !before value candidate) ++
      values.dropWhile (fun candidate => !before value candidate) = values :=
    List.takeWhile_append_dropWhile
  have parts := split ▸ ascending
  rw [List.pairwise_append] at parts
  obtain ⟨front, back, across⟩ := parts
  have earlier : ∀ a ∈ values.takeWhile (fun candidate => !before value candidate),
      before a value = true := by
    intro a listed
    have inside : a ∈ values := (List.takeWhile_sublist _).subset listed
    have late : before value a = false := by
      simpa using List.all_eq_true.mp List.all_takeWhile a listed
    by_contra other
    exact fresh (before_antisymm (by simpa using other) late ▸ inside)
  have later : ∀ b ∈ values.dropWhile (fun candidate => !before value candidate),
      before value b = true := by
    intro b listed
    cases rest : values.dropWhile (fun candidate => !before value candidate) with
    | nil => simp [rest] at listed
    | cons first others =>
      have head : before value first = true := by
        have stop := List.head_dropWhile_not (p := fun candidate => !before value candidate)
          (l := values) (by simp [rest])
        simpa [rest] using stop
      rw [rest] at listed back
      rcases List.mem_cons.mp listed with rfl | further
      · exact head
      · have next := (List.pairwise_cons.mp back).1 b further
        simp only [before, decide_eq_true_eq] at head next ⊢
        exact head.trans next
  unfold insertSorted
  rw [List.pairwise_append, List.pairwise_cons]
  refine ⟨front, ⟨later, back⟩, ?_⟩
  intro a listed b behind
  rcases List.mem_cons.mp behind with rfl | behind
  · exact earlier a listed
  · exact across a listed b behind

variable {nodes : NodeTable}

theorem ready_releaseAll {topology : Topology} {successors : List String}
    {arrows : List (String × String)} (placing : Placing arrows nodes successors topology)
    (known : ∀ taskId ∈ successors, taskId ∈ nodes.keys)
    (ascending : topology.ready.Pairwise fun a b => before a b = true) :
    (successors.foldl release topology).ready.Pairwise fun a b => before a b = true := by
  induction successors generalizing topology with
  | nil => exact ascending
  | cons successor successors ih =>
    have here := known successor List.mem_cons_self
    refine ih (placing.release here)
      (fun taskId listed => known taskId (List.mem_cons_of_mem _ listed)) ?_
    rw [ready_release]
    split
    · refine insertSorted_ascending ascending fun listed => ?_
      have reached := (placing.reached successor).mp (List.mem_append_right _ listed)
      have degree := placing.degree successor here
      rw [List.count_cons_self] at degree
      omega
    · exact ascending

theorem prefix_placeTasks {fuel : Nat} {topology : Topology} :
    topology.order <+: (placeTasks dag nodes fuel topology).order := by
  induction fuel generalizing topology with
  | zero => exact List.prefix_refl _
  | succ fuel ih =>
    unfold placeTasks
    split
    · exact List.prefix_refl _
    · refine List.IsPrefix.trans ?_ ih
      rw [order_releaseAll]
      exact List.prefix_append _ _

theorem lex_append {a b : String} {left right : List String} (less : before a b = true) :
    (common : List String) → List.Lex (fun a b => before a b = true) (common ++ a :: left)
      (common ++ b :: right)
  | [] => .rel less
  | _ :: common => .cons (lex_append less common)

/-- What is placed so far begins a topological order. -/
structure Begins (arrows : List (String × String)) (nodes : NodeTable) (placed rest : List String) :
    Prop where
  all : (placed ++ rest).Perm nodes.keys
  follows : (placed ++ rest).Pairwise fun earlier later => (later, earlier) ∉ arrows

theorem mem_ready_of_begins {topology : Topology} {arrows : List (String × String)}
    (placing : Placing arrows nodes [] topology)
    (apart : ∀ arrow ∈ arrows, arrow.1 ≠ arrow.2 ∧ arrow.1 ∈ nodes.keys) {taskId : String}
    {rest : List String} (begins : Begins arrows nodes topology.order (taskId :: rest)) :
    taskId ∈ topology.ready := by
  have known : taskId ∈ nodes.keys := begins.all.mem_iff.mp (by simp)
  have distinct := begins.all.nodup_iff.mpr nodes.distinct
  have unplaced : taskId ∉ topology.order := by
    intro placed
    exact (List.disjoint_of_nodup_append distinct) placed List.mem_cons_self
  have free : waiting arrows topology.order taskId = 0 := by
    refine List.countP_eq_zero.mpr fun arrow listed => ?_
    rw [decide_eq_true_eq, not_and, not_not]
    rintro rfl
    have source := apart arrow listed
    have placed := begins.all.mem_iff.mpr source.2
    rw [List.mem_append, List.mem_cons] at placed
    rcases placed with placed | same | late
    · exact placed
    · exact absurd same source.1
    · have follows := begins.follows
      rw [List.pairwise_append, List.pairwise_cons] at follows
      exact absurd listed (follows.2.1.1 arrow.1 late)
  have degree := placing.degree taskId known
  rw [free] at degree
  have reached := (placing.reached taskId).mpr ⟨known, degree⟩
  exact (List.mem_append.mp reached).resolve_left unplaced

/-- A topological order that begins like the loop goes on as the loop does, or comes later. -/
theorem least_placeTasks (within : ∀ node ∈ dag.nodes, node.taskId ∈ nodes.keys)
    (apart : ∀ arrow ∈ edges dag nodes, arrow.1 ≠ arrow.2 ∧ arrow.1 ∈ nodes.keys) {fuel : Nat}
    {topology : Topology} (placing : Placing (edges dag nodes) nodes [] topology)
    (ascending : topology.ready.Pairwise fun a b => before a b = true)
    (enough : nodes.rows.length ≤ fuel + topology.order.length) {rest : List String}
    (begins : Begins (edges dag nodes) nodes topology.order rest) :
    topology.order ++ rest = (placeTasks dag nodes fuel topology).order ∨
      List.Lex (fun a b => before a b = true) (placeTasks dag nodes fuel topology).order
        (topology.order ++ rest) := by
  have idle : topology.ready = [] → rest = [] := by
    intro finished
    cases rest with
    | nil => rfl
    | cons taskId rest =>
      have listed := mem_ready_of_begins placing apart begins
      rw [finished] at listed
      cases listed
  induction fuel generalizing topology rest with
  | zero =>
    have finished := ready_placeTasks within placing enough
    rw [idle finished, List.append_nil]
    exact .inl rfl
  | succ fuel ih =>
    unfold placeTasks
    split
    · rename_i finished
      rw [idle finished, List.append_nil]
      exact .inl rfl
    · rename_i taskId ready next
      have placed := placing.place next
      have order : ((successorsOf dag nodes taskId).foldl release
          { topology with ready := ready, order := topology.order ++ [taskId] }).order =
          topology.order ++ [taskId] := order_releaseAll _
      rw [next, List.pairwise_cons] at ascending
      cases rest with
      | nil =>
        have known := ((placing.reached taskId).mp (by simp [next])).1
        have listed := begins.all.mem_iff.mpr known
        have distinct := placing.distinct
        rw [List.append_nil] at listed
        rw [next] at distinct
        exact absurd List.mem_cons_self (List.disjoint_of_nodup_append distinct listed)
      | cons first rest =>
        have listed := mem_ready_of_begins placing apart begins
        rw [next, List.mem_cons] at listed
        rcases listed with rfl | later
        · have regroup : topology.order ++ first :: rest =
              ((successorsOf dag nodes first).foldl release
                { topology with ready := ready, order := topology.order ++ [first] }).order ++
                rest := by
            rw [order, List.append_assoc, List.singleton_append]
          rw [regroup]
          have released := placed.releaseAll fun _ => mem_keys_of_successor within
          have going : Begins (edges dag nodes) nodes
              ((successorsOf dag nodes first).foldl release
                { topology with ready := ready, order := topology.order ++ [first] }).order
              rest := ⟨regroup ▸ begins.all, regroup ▸ begins.follows⟩
          refine ih released (ready_releaseAll placed (fun _ => mem_keys_of_successor within)
            ascending.2) ?_ going ?_
          · rw [order, List.length_append, List.length_singleton]
            omega
          · intro finished
            cases rest with
            | nil => rfl
            | cons second rest =>
              have waiting := mem_ready_of_begins released apart going
              rw [finished] at waiting
              cases waiting
        · right
          obtain ⟨left, whole⟩ := @prefix_placeTasks dag nodes fuel
            ((successorsOf dag nodes taskId).foldl release
              { topology with ready := ready, order := topology.order ++ [taskId] })
          rw [← whole, order, List.append_assoc]
          exact lex_append (ascending.1 first later) _

theorem least_order (distinct : dag.taskIds.Nodup)
    (known : ∀ node ∈ dag.nodes, ∀ predecessor ∈ node.task.dependencies,
      predecessor ∈ (firstNodes dag).keys ∧ predecessor ≠ node.taskId)
    (acyclic : ∀ taskId, ¬ TransGen (DependsOn dag) taskId taskId) :
    Least dag (buildTopologicalOrder dag (firstNodes dag)).1 := by
  have within : ∀ node ∈ dag.nodes, node.taskId ∈ (firstNodes dag).keys := fun _ => keys_firstNodes
  have keys := keys_firstNodes_eq distinct
  have complete := order_complete within ((cyclic_nil_iff known).mpr acyclic)
  have placing : Placing (edges dag (firstNodes dag)) (firstNodes dag) []
      (initialTopology dag (firstNodes dag)) := placing_initial
  refine ⟨⟨keys ▸ complete, ?_⟩, ?_⟩
  · refine List.pairwise_iff_getElem.mpr fun i j left right earlier depends => ?_
    have arrow := (arrow_of_dependsOn known).mpr depends
    have rank := (ranked_order within _ arrow (List.getElem_mem left)).2
    have nodup := nodup_order within
    rw [List.Nodup.idxOf_getElem nodup, List.Nodup.idxOf_getElem nodup] at rank
    omega
  · intro other topological
    have apart : ∀ arrow ∈ edges dag (firstNodes dag),
        arrow.1 ≠ arrow.2 ∧ arrow.1 ∈ (firstNodes dag).keys := by
      intro arrow listed
      obtain ⟨node, inNodes, named, direct⟩ := (arrow_of_dependsOn known).mp listed
      have source := known node inNodes arrow.1 direct
      exact ⟨named ▸ source.2, source.1⟩
    have ascending : (initialTopology dag (firstNodes dag)).ready.Pairwise
        fun a b => before a b = true := by
      refine sortTexts_ascending ?_
      have names : ((firstNodes dag).keys.map fun taskId =>
          (taskId, indegreeOf dag (firstNodes dag) taskId)).map Prod.fst =
            (firstNodes dag).keys := by
        rw [List.map_map]
        exact List.map_id' _
      have part : ((((firstNodes dag).keys.map fun taskId =>
          (taskId, indegreeOf dag (firstNodes dag) taskId)).filter
            fun item => item.2 = 0).map Prod.fst).Sublist
          (((firstNodes dag).keys.map fun taskId =>
            (taskId, indegreeOf dag (firstNodes dag) taskId)).map Prod.fst) :=
        List.filter_sublist.map Prod.fst
      rw [names] at part
      exact (firstNodes dag).distinct.sublist part
    have begins : Begins (edges dag (firstNodes dag)) (firstNodes dag)
        (initialTopology dag (firstNodes dag)).order other := by
      refine ⟨keys ▸ topological.all, topological.follows.imp fun free listed => ?_⟩
      exact free ((arrow_of_dependsOn known).mp listed)
    exact least_placeTasks within apart placing ascending (Nat.le_add_right _ _) begins

end Order

section Writers

variable {dag : TaskDag}

theorem computeAncestors_complete (distinct : dag.taskIds.Nodup) (order : List String)
    (nodup : order.Nodup)
      (ranked : ∀ taskId ∈ order, ∀ predecessor, DependsOn dag taskId predecessor →
      predecessor ∈ order ∧ order.idxOf predecessor < order.idxOf taskId)
    {taskId ancestor : String} (placed : taskId ∈ order)
    (path : TransGen (DependsOn dag) taskId ancestor) :
    ancestor ∈ ancestorsOf (computeAncestors order (firstNodes dag)) taskId := by
  have direct : ∀ {taskId predecessor : String}, DependsOn dag taskId predecessor →
      predecessor ∈ dependenciesOf (firstNodes dag) taskId := by
    rintro _ predecessor ⟨node, listed, rfl, depends⟩
    unfold dependenciesOf
    rw [find?_firstNodes distinct listed]
    exact depends
  induction order using List.reverseRecOn generalizing taskId ancestor with
  | nil => cases placed
  | append_singleton order last ih =>
    have fresh : last ∉ order := by
      rw [List.nodup_append] at nodup
      exact fun listed => nodup.2.2 last listed last List.mem_cons_self rfl
    have unfolded : computeAncestors (order ++ [last]) (firstNodes dag) =
        (computeAncestors order (firstNodes dag)).upsert (last,
          (dependenciesOf (firstNodes dag) last).flatMap fun predecessor =>
            predecessor :: ancestorsOf (computeAncestors order (firstNodes dag)) predecessor) := by
      unfold computeAncestors
      rw [List.foldl_append]
      rfl
    have earlier : ∀ taskId ∈ order ++ [last], ∀ predecessor, DependsOn dag taskId predecessor →
        predecessor ∈ order := by
      intro taskId listed predecessor depends
      have rank := ranked taskId listed predecessor depends
      rcases List.mem_append.mp rank.1 with inside | final
      · exact inside
      · rw [List.mem_singleton] at final
        subst final
        rw [List.idxOf_append_of_notMem fresh] at rank
        have bounded := List.idxOf_lt_length_of_mem listed
        rw [List.length_append, List.length_singleton] at bounded
        omega
    have within : ∀ taskId ∈ order, ∀ predecessor, DependsOn dag taskId predecessor →
        predecessor ∈ order ∧ order.idxOf predecessor < order.idxOf taskId := by
      intro taskId listed predecessor depends
      have member := earlier taskId (List.mem_append_left _ listed) predecessor depends
      have rank := (ranked taskId (List.mem_append_left _ listed) predecessor depends).2
      rw [List.idxOf_append_of_mem member, List.idxOf_append_of_mem listed] at rank
      exact ⟨member, rank⟩
    have known := @ih (List.nodup_append.mp nodup).1 within
    rw [unfolded, ancestorsOf_upsert]
    by_cases here : taskId = last
    · rw [if_pos here, List.mem_flatMap]
      obtain ⟨predecessor, first, rest⟩ := TransGen.head'_iff.mp path
      refine ⟨predecessor, here ▸ direct first, ?_⟩
      rcases reflTransGen_iff_eq_or_transGen.mp rest with same | further
      · rw [same]
        exact List.mem_cons_self
      · exact List.mem_cons_of_mem _ (known (earlier taskId placed predecessor first) further)
    · rw [if_neg here]
      refine known ?_ path
      simpa [here] using placed

theorem ancestors_iff (sound : SoundGraph dag) (taskId ancestor : String) :
    ancestor ∈ ancestorsOf (computeAncestors (buildTopologicalOrder dag (firstNodes dag)).1
        (firstNodes dag)) taskId ↔ TransGen (DependsOn dag) taskId ancestor := by
  refine ⟨computeAncestors_sound _, fun path => ?_⟩
  have placed : ∀ {taskId predecessor : String}, DependsOn dag taskId predecessor →
      taskId ∈ (buildTopologicalOrder dag (firstNodes dag)).1 := by
    rintro _ _ ⟨node, listed, rfl, _⟩
    exact sound.order.mem_iff.mpr (keys_firstNodes listed)
  refine computeAncestors_complete sound.distinct _
    (nodup_order fun _ => keys_firstNodes) ?_ ?_ path
  · intro taskId _ predecessor depends
    refine ⟨?_, sound.rank depends⟩
    obtain ⟨node, listed, _, direct⟩ := depends
    exact sound.order.mem_iff.mpr (sound.known node listed predecessor direct).1
  · obtain ⟨_, first, _⟩ := TransGen.head'_iff.mp path
    exact placed first

def repositoryWriters (nodes : List TaskDagNode) (repositoryId : String) : List String :=
  nodes.flatMap fun node =>
    (node.task.writeSet.filter fun other => other = repositoryId).map fun _ => node.taskId

theorem ancestorsOf_writersOf (nodes : NodeTable) (repositoryId : String) :
    ancestorsOf (writersOf nodes) repositoryId = repositoryWriters nodes.rows repositoryId := by
  have inner : ∀ (repositories : List String) (writers : AncestorTable) (taskId : String),
      ancestorsOf (repositories.foldl (fun writers repositoryId =>
        addWriter writers repositoryId taskId) writers) repositoryId =
        ancestorsOf writers repositoryId ++
          (repositories.filter fun other => other = repositoryId).map fun _ => taskId := by
    intro repositories
    induction repositories with
    | nil => simp
    | cons repository repositories ih =>
      intro writers taskId
      rw [List.foldl_cons, ih, addWriter, ancestorsOf_upsert]
      by_cases same : repositoryId = repository
      · subst same
        simp
      · simp [same, Ne.symm same]
  have outer : ∀ (rows : List TaskDagNode) (writers : AncestorTable),
      ancestorsOf (rows.foldl (fun writers node =>
        node.task.writeSet.foldl (fun writers repositoryId =>
          addWriter writers repositoryId node.taskId) writers) writers) repositoryId =
        ancestorsOf writers repositoryId ++ repositoryWriters rows repositoryId := by
    intro rows
    induction rows with
    | nil => simp [repositoryWriters]
    | cons row rows ih =>
      intro writers
      rw [List.foldl_cons, ih, inner]
      simp [repositoryWriters]
  exact outer nodes.rows Table.empty

theorem pairs_pairwise {relation : String → String → Prop} {items : List String} :
    (∀ pair ∈ pairs items, relation pair.1 pair.2) ↔ items.Pairwise relation := by
  induction items with
  | nil => simp [pairs]
  | cons first rest ih =>
    rw [pairs, List.pairwise_cons, ← ih]
    simp only [List.mem_append, or_imp, forall_and, List.forall_mem_map]

theorem Comparable.symm {first second : String} (comparable : Comparable dag first second) :
    Comparable dag second first := Or.symm comparable

theorem conflictingWrites_nil {order : List String}
    (recorded : ∀ taskId ancestor,
      ancestor ∈ ancestorsOf (computeAncestors order (firstNodes dag)) taskId ↔
        TransGen (DependsOn dag) taskId ancestor) :
    conflictingWrites order (firstNodes dag) = [] ↔
      ∀ repositoryId, (repositoryWriters (firstNodes dag).rows repositoryId).Pairwise
        (Comparable dag) := by
  have quiet : ∀ item ∈ (writersOf (firstNodes dag)).rows,
      (((pairs (sortTexts item.2)).filter fun pair =>
        !(decide (pair.2 ∈ ancestorsOf (computeAncestors order (firstNodes dag)) pair.1) ||
          decide (pair.1 ∈ ancestorsOf (computeAncestors order (firstNodes dag)) pair.2))) = [] ↔
        (repositoryWriters (firstNodes dag).rows item.1).Pairwise (Comparable dag)) := by
    intro item listed
    have found : ancestorsOf (writersOf (firstNodes dag)) item.1 = item.2 := by
      unfold ancestorsOf
      rw [Table.find?_key listed, Option.map_some, Option.getD_some]
    rw [← ancestorsOf_writersOf, found,
      ← ((sortBy_perm id item.2).pairwise_iff fun first => first.symm), ← pairs_pairwise,
      List.filter_eq_nil_iff]
    refine forall₂_congr fun pair _ => ?_
    simp only [recorded, Comparable, Bool.not_eq_true', Bool.not_eq_false, Bool.or_eq_true,
      decide_eq_true_eq]
  unfold conflictingWrites
  rw [List.flatMap_eq_nil_iff]
  constructor
  · intro none repositoryId
    cases found : (writersOf (firstNodes dag)).find? repositoryId with
    | none =>
      have absent : ancestorsOf (writersOf (firstNodes dag)) repositoryId = [] := by
        unfold ancestorsOf
        rw [found, Option.map_none, Option.getD_none]
      rw [← ancestorsOf_writersOf, absent]
      exact .nil
    | some item =>
      have listed := Table.mem_of_find? found
      have silent := none item (mem_sortBy.mpr listed)
      rw [← Table.key_of_find? found]
      exact (quiet item listed).mp (List.map_eq_nil_iff.mp silent)
  · intro ordered item listed
    rw [List.map_eq_nil_iff]
    exact (quiet item (mem_sortBy.mp listed)).mpr (ordered item.1)

theorem repositoryWriters_pairwise (distinct : dag.taskIds.Nodup)
    (acyclic : ∀ taskId, ¬ TransGen (DependsOn dag) taskId taskId) :
    (∀ repositoryId, (repositoryWriters dag.nodes repositoryId).Pairwise (Comparable dag)) ↔
      (∀ first ∈ dag.nodes, ∀ second ∈ dag.nodes, first.taskId ≠ second.taskId →
        ∀ repositoryId ∈ first.task.writeSet, repositoryId ∈ second.task.writeSet →
          Comparable dag first.taskId second.taskId) ∧
        ∀ node ∈ dag.nodes, node.task.writeSet.Nodup := by
  have mem : ∀ (node : TaskDagNode) (repositoryId writer : String),
      writer ∈ (node.task.writeSet.filter fun other => other = repositoryId).map
        (fun _ => node.taskId) ↔ repositoryId ∈ node.task.writeSet ∧ writer = node.taskId := by
    intro node repositoryId writer
    simp only [List.mem_map, List.mem_filter, decide_eq_true_eq]
    constructor
    · rintro ⟨_, ⟨listed, rfl⟩, rfl⟩
      exact ⟨listed, rfl⟩
    · rintro ⟨listed, rfl⟩
      exact ⟨repositoryId, ⟨listed, rfl⟩, rfl⟩
  have own : ∀ (node : TaskDagNode) (repositoryId : String),
      (((node.task.writeSet.filter fun other => other = repositoryId).map
        fun _ => node.taskId).Pairwise (Comparable dag) ↔
          node.task.writeSet.count repositoryId ≤ 1) := by
    intro node repositoryId
    have alone : ¬ Comparable dag node.taskId node.taskId :=
      fun around => around.elim (acyclic _) (acyclic _)
    have size : ((node.task.writeSet.filter fun other => other = repositoryId).map
        fun _ => node.taskId) =
        List.replicate (node.task.writeSet.count repositoryId) node.taskId := by
      rw [List.map_const', ← List.countP_eq_length_filter]
      rfl
    rw [size]
    simp [alone]
  simp only [repositoryWriters, List.pairwise_flatMap, own, mem]
  constructor
  · intro ordered
    refine ⟨?_, ?_⟩
    · intro first inFirst second inSecond different repositoryId writes writes'
      have across : dag.nodes.Pairwise fun first second => repositoryId ∈ first.task.writeSet →
          repositoryId ∈ second.task.writeSet → Comparable dag first.taskId second.taskId :=
        (ordered repositoryId).2.imp fun apart writes writes' =>
          apart _ ⟨writes, rfl⟩ _ ⟨writes', rfl⟩
      have either : Std.Symm fun first second : TaskDagNode =>
          repositoryId ∈ first.task.writeSet → repositoryId ∈ second.task.writeSet →
            Comparable dag first.taskId second.taskId :=
        ⟨fun _ _ apart writes writes' => (apart writes' writes).symm⟩
      exact across.forall inFirst inSecond (fun same => different (same ▸ rfl)) writes writes'
    · intro node listed
      exact List.nodup_iff_count_le_one.mpr fun repositoryId => (ordered repositoryId).1 node listed
  · rintro ⟨ordered, single⟩ repositoryId
    refine ⟨fun node listed => List.nodup_iff_count_le_one.mp (single node listed) repositoryId, ?_⟩
    have apart : dag.nodes.Pairwise fun first second => first.taskId ≠ second.taskId :=
      List.pairwise_map.mp distinct
    refine apart.imp_of_mem fun inFirst inSecond different x left y right => ?_
    rw [left.2, right.2]
    exact ordered _ inFirst _ inSecond different repositoryId left.1 right.1

end Writers

section States

variable {dag : TaskDag} {states : List TaskPlanningState}

theorem stateDiagnostics_nil {nodes : NodeTable} : stateDiagnostics nodes states = [] ↔
    (states.map TaskPlanningState.taskId).Perm nodes.keys := by
  have parts : stateDiagnostics nodes states = [] ↔
      (states.map TaskPlanningState.taskId).Nodup ∧
        (∀ taskId ∈ states.map TaskPlanningState.taskId, taskId ∈ nodes.keys) ∧
        ∀ taskId ∈ nodes.keys, taskId ∈ states.map TaskPlanningState.taskId := by
    unfold stateDiagnostics
    rw [List.append_eq_nil_iff, List.append_eq_nil_iff, List.map_eq_nil_iff, repeated_nil_iff,
      List.map_eq_nil_iff, List.map_eq_nil_iff, List.filter_eq_nil_iff, List.filter_eq_nil_iff,
      and_assoc]
    simp only [decide_eq_true_eq, not_not, List.forall_mem_map]
  rw [parts]
  constructor
  · rintro ⟨single, known, covered⟩
    exact (List.perm_ext_iff_of_nodup single nodes.distinct).mpr
      fun taskId => ⟨known taskId, covered taskId⟩
  · intro same
    exact ⟨same.nodup_iff.mpr nodes.distinct, fun taskId => same.mem_iff.mp,
      fun taskId => same.mem_iff.mpr⟩

theorem satisfied_iff {state : TaskPlanningState} : state.satisfied = true ↔
    state.outcome = .succeeded ∧ state.completionContract = .passed ∧
      state.integration = .passed ∧ state.combinedVerification = .passed := decide_eq_true_iff

theorem validateTerminalDependencies_nil
    (single : (states.map TaskPlanningState.taskId).Nodup)
    (known : ∀ node ∈ dag.nodes, ∀ predecessor ∈ node.task.dependencies,
      predecessor ∈ (firstNodes dag).keys) :
    validateTerminalDependencies dag (firstNodes dag) states = [] ↔
      ∀ state ∈ states, state.outcome = .active ∨ state.outcome = .succeeded →
        ∀ predecessor, DependsOn dag state.taskId predecessor →
          ∃ earlier ∈ states, earlier.taskId = predecessor ∧ earlier.satisfied = true := by
  constructor
  · intro none state listed started predecessor depends
    exact settled_of_validateTerminalDependencies none single known listed started depends
  · intro settled
    refine List.flatMap_eq_nil_iff.mpr fun node inNodes => ?_
    cases found : (stateMap states).find? node.taskId with
    | none => rfl
    | some state =>
      obtain ⟨listed, named⟩ := mem_of_stateMap found
      dsimp only
      split
      · rename_i started
        rw [List.map_eq_nil_iff, List.filter_eq_nil_iff]
        intro predecessor depends
        obtain ⟨earlier, inStates, rfl, satisfied⟩ :=
          settled state listed started predecessor ⟨node, inNodes, named.symm, depends⟩
        rw [find?_stateMap single inStates]
        simp [satisfied]
      · rfl

theorem dagDiagnostics_nil : dagDiagnostics dag (some states) = [] ↔
    WellFormed dag states ∧ ∀ node ∈ dag.nodes, node.task.writeSet.Nodup := by
  constructor
  · intro none
    have sound := soundGraph_of_dagDiagnostics none
    have keys := keys_firstNodes_eq sound.distinct
    simp only [dagDiagnostics, List.append_eq_nil_iff,
      Option.toList_some, List.flatMap_cons] at none
    obtain ⟨⟨⟨⟨⟨filled, _⟩, dependencies⟩, cycle⟩, conflicts⟩, ⟨stateless, terminal⟩, _⟩ := none
    have kept := fun node listed =>
      dependencyDiagnostics_nil.mp (List.flatMap_eq_nil_iff.mp dependencies node listed)
    have acyclic := (cyclic_nil_iff fun node listed => (kept node listed).1).mp (by
      by_contra left
      simp [cycleDiagnostics, left] at cycle)
    have complete : (buildTopologicalOrder dag (firstNodes dag)).1.length =
        (firstNodes dag).rows.length := sound.order.length_eq.trans (List.length_map ..)
    rw [if_pos complete, conflictingWrites_nil (ancestors_iff sound),
      rows_firstNodes sound.distinct] at conflicts
    obtain ⟨writers, unlisted⟩ := (repositoryWriters_pairwise sound.distinct acyclic).mp conflicts
    have covered := keys ▸ stateDiagnostics_nil.mp stateless
    have settled := (validateTerminalDependencies_nil (covered.nodup_iff.mpr sound.distinct)
      fun node listed predecessor depends =>
        ((kept node listed).1 predecessor depends).1).mp terminal
    refine ⟨⟨?_, sound.distinct, ?_, fun node listed => (kept node listed).2, acyclic, writers,
      covered, ?_⟩, unlisted⟩
    · intro empty
      simp [empty] at filled
    · rw [← keys]
      exact fun node listed => (kept node listed).1
    · simpa only [satisfied_iff] using settled
  · rintro ⟨⟨filled, distinct, known, unrepeated, acyclic, writers, covered, settled⟩, unlisted⟩
    have keys := keys_firstNodes_eq distinct
    rw [← keys] at known covered
    have order := order_complete (fun _ => keys_firstNodes) ((cyclic_nil_iff known).mpr acyclic)
    have sound : SoundGraph dag := ⟨distinct, known, order⟩
    simp only [dagDiagnostics, List.append_eq_nil_iff, Option.toList_some, List.flatMap_cons,
      List.flatMap_nil]
    refine ⟨⟨⟨⟨⟨if_neg filled, ?_⟩, ?_⟩, ?_⟩, ?_⟩, ⟨stateDiagnostics_nil.mpr covered, ?_⟩, trivial⟩
    · rw [duplicateNodes, repeated_nil_iff.mpr distinct, List.map_nil]
    · exact List.flatMap_eq_nil_iff.mpr fun node listed =>
        dependencyDiagnostics_nil.mpr ⟨known node listed, unrepeated node listed⟩
    · rw [cycleDiagnostics, if_pos ((cyclic_nil_iff known).mpr acyclic)]
    · split
      · rw [conflictingWrites_nil (ancestors_iff sound), rows_firstNodes distinct]
        exact (repositoryWriters_pairwise distinct acyclic).mpr ⟨writers, unlisted⟩
      · rfl
    · refine (validateTerminalDependencies_nil (covered.nodup_iff.mpr (firstNodes dag).distinct)
        fun node listed predecessor depends => (known node listed predecessor depends).1).mpr ?_
      simpa only [satisfied_iff] using settled

end States

/-- A graph is valid when it is well formed with its states and no task lists a repository twice;
the order of a valid graph is the least. -/
theorem validateTaskDag_exact (dag : TaskDag) (states : List TaskPlanningState) :
    ((validateTaskDag dag (some states)).valid = true ↔
      WellFormed dag states ∧ ∀ node ∈ dag.nodes, node.task.writeSet.Nodup) ∧
    ((validateTaskDag dag (some states)).valid = true →
      Least dag (validateTaskDag dag (some states)).topologicalOrder) := by
  have valid : (validateTaskDag dag (some states)).valid = true ↔
      dagDiagnostics dag (some states) = [] := List.isEmpty_iff
  refine ⟨valid.trans dagDiagnostics_nil, fun clean => ?_⟩
  obtain ⟨formed, _⟩ := dagDiagnostics_nil.mp (valid.mp clean)
  have order : (validateTaskDag dag (some states)).topologicalOrder =
      (buildTopologicalOrder dag (firstNodes dag)).1 := if_pos clean
  have known := formed.known
  rw [← keys_firstNodes_eq formed.distinct] at known
  rw [order]
  exact least_order formed.distinct known formed.acyclic

/-- A task that writes one repository, which it lists as often as given. -/
def writerNode (taskId : String) (dependencies : List String) (listings : Nat) : TaskDagNode where
  task :=
    { taskId := taskId
      revision := 1
      revisionSha256 := taskId
      predecessorRevisionSha256 := none
      analysisPacketId := "packet"
      analysisPacketSha256 := "packet"
      objective := "change"
      rationale := "requested"
      primaryRepositoryId := "api"
      readSet := ["api"]
      writeSet := List.replicate listings "api"
      excludedRepositories := []
      dependencies := dependencies
      artifacts := []
      verification := []
      createdAt := "now" }
  pipelineId := "change"
  profileId := "builder"
  accountId := none

def writersDag (nodes : List TaskDagNode) : TaskDag where
  graphId := "graph"
  graphRevision := 1
  nodes := nodes
  createdAt := "now"

theorem validateTaskDag_exact_sample :
    Least (writersDag [writerNode "second" ["first"] 1, writerNode "first" [] 1])
      ["first", "second"] := by
  have valid : (validateTaskDag (writersDag [writerNode "second" ["first"] 1,
      writerNode "first" [] 1]) (some [freshState "first", freshState "second"])).valid = true := by
    decide +kernel
  have order : (validateTaskDag (writersDag [writerNode "second" ["first"] 1,
      writerNode "first" [] 1]) (some [freshState "first", freshState "second"])).topologicalOrder =
        ["first", "second"] := by
    decide +kernel
  exact (validateTaskDag_exact _ _).2 valid

/-- A task that lists a repository twice conflicts with itself. -/
theorem repeated_repository_invalid :
    ¬ ∀ dag states, (validateTaskDag dag (some states)).valid = true ↔ WellFormed dag states := by
  intro exactly
  have free : ∀ taskId predecessor,
      ¬ DependsOn (writersDag [writerNode "twice" [] 2]) taskId predecessor := by
    rintro _ _ ⟨node, listed, _, depends⟩
    obtain rfl := List.mem_singleton.mp listed
    exact List.not_mem_nil depends
  have formed : WellFormed (writersDag [writerNode "twice" [] 2]) [freshState "twice"] := by
    refine ⟨List.cons_ne_nil _ _, List.nodup_singleton _, ?_, ?_, ?_, ?_, List.Perm.refl _, ?_⟩
    · intro node listed predecessor depends
      exact absurd ⟨node, listed, rfl, depends⟩ (free node.taskId predecessor)
    · intro node listed
      obtain rfl := List.mem_singleton.mp listed
      exact List.nodup_nil
    · intro taskId cycle
      obtain ⟨_, first, _⟩ := TransGen.head'_iff.mp cycle
      exact free _ _ first
    · intro first inFirst second inSecond different
      obtain rfl := List.mem_singleton.mp inFirst
      obtain rfl := List.mem_singleton.mp inSecond
      exact absurd rfl different
    · exact fun state _ _ predecessor depends => absurd depends (free _ _)
  have invalid : (validateTaskDag (writersDag [writerNode "twice" [] 2])
      (some [freshState "twice"])).valid = false := by
    decide +kernel
  rw [(exactly _ _).mpr formed] at invalid
  cases invalid

end Heniek.DagExactness
