import Heniek.DagExactness

/-!
The structural waves of a valid task graph are its levels: the ordinals are computed along
the topological order, where those of the dependencies are there already. A revision's
affected tasks are read off two such computations, of which that of an invalid graph is empty.
-/

namespace Heniek.StructuralWaves
open KeyedTable ScriptText RecoveryPolicy TaskGraph DagValidation WaveExclusivity
open DagExactness GraphRevision

/-- The ordinal of the wave that lists the task. -/
def ordinalIn (waves : List TaskStructuralWave) (taskId : String) : Option Nat :=
  (waves.find? fun wave => decide (taskId ∈ wave.taskIds)).map TaskStructuralWave.ordinal

/-- Each task stands in one wave, one above the highest of its dependencies, from 1 on. -/
structure Levels (dag : TaskDag) (waves : List TaskStructuralWave) : Prop where
  distinct : dag.taskIds.Nodup
  partition : (waves.flatMap TaskStructuralWave.taskIds).Perm dag.taskIds
  known : ∀ node ∈ dag.nodes, ∀ predecessor ∈ node.task.dependencies, predecessor ∈ dag.taskIds
  level : ∀ node ∈ dag.nodes, ordinalIn waves node.taskId = some ((node.task.dependencies.map
    fun predecessor => (ordinalIn waves predecessor).getD 0).foldl max 0 + 1)
  consecutive : waves.map TaskStructuralWave.ordinal = List.range' 1 waves.length

/-- The task's node is another one, or on one side only. -/
def NodeChanged (beforeDag afterDag : TaskDag) (taskId : String) : Prop :=
  ((nodeMap beforeDag).find? taskId).map TaskDagNode.json ≠
    ((nodeMap afterDag).find? taskId).map TaskDagNode.json

section Ordinals

variable {order : List String} {nodes : NodeTable} {taskId : String}

def ordinalAfter (ordinals : OrdinalTable) (nodes : NodeTable) (taskId : String) : Nat :=
  (dependenciesOf nodes taskId).foldl (fun maximum predecessor =>
    max maximum ((ordinalOf ordinals predecessor).getD 0)) 0 + 1

theorem taskOrdinals_append : taskOrdinals (order ++ [taskId]) nodes =
    (taskOrdinals order nodes).upsert
      (taskId, ordinalAfter (taskOrdinals order nodes) nodes taskId) := by
  rw [taskOrdinals, List.foldl_append]
  rfl

theorem keys_taskOrdinals (distinct : order.Nodup) : (taskOrdinals order nodes).keys = order := by
  induction order using List.reverseRecOn with
  | nil => rfl
  | append_singleton order taskId ih =>
    have parts := List.nodup_append.mp distinct
    have fresh : taskId ∉ (taskOrdinals order nodes).keys := by
      rw [ih parts.1]
      exact fun member => parts.2.2 taskId member taskId List.mem_cons_self rfl
    rw [taskOrdinals_append, Table.keys_upsert, if_neg fresh, ih parts.1]

theorem ordinalOf_appended {later : List String} (apart : taskId ∉ later) :
    ordinalOf (taskOrdinals (order ++ later) nodes) taskId =
      ordinalOf (taskOrdinals order nodes) taskId := by
  induction later using List.reverseRecOn with
  | nil => rw [List.append_nil]
  | append_singleton later other ih =>
    rw [List.mem_append, List.mem_singleton, not_or] at apart
    rw [← List.append_assoc, taskOrdinals_append, ordinalOf, Table.find?_upsert_of_ne _ apart.2]
    exact ih apart.1

theorem ordinalOf_placed {later : List String} (distinct : (order ++ taskId :: later).Nodup)
    (earlier : ∀ predecessor ∈ dependenciesOf nodes taskId, predecessor ∈ order) :
    ordinalOf (taskOrdinals (order ++ taskId :: later) nodes) taskId =
      some (ordinalAfter (taskOrdinals (order ++ taskId :: later) nodes) nodes taskId) := by
  have parts := List.nodup_append.mp distinct
  have split : order ++ taskId :: later = (order ++ [taskId]) ++ later := List.append_cons _ _ _
  have placed : ordinalOf (taskOrdinals (order ++ taskId :: later) nodes) taskId =
      some (ordinalAfter (taskOrdinals order nodes) nodes taskId) := by
    rw [split, ordinalOf_appended (List.nodup_cons.mp parts.2.1).1, taskOrdinals_append, ordinalOf,
      Table.find?_upsert_self]
    rfl
  rw [placed]
  refine congrArg (fun highest => some (highest + 1)) ?_
  refine List.foldl_ext _ _ _ fun maximum predecessor depends => ?_
  rw [ordinalOf_appended fun later =>
    parts.2.2 predecessor (earlier predecessor depends) predecessor
    later rfl]

end Ordinals

section Waves

variable {dag : TaskDag}

/-- The ordinals of a graph, once it is valid. -/
def ordinalsOf (dag : TaskDag) : OrdinalTable :=
  taskOrdinals (buildTopologicalOrder dag (firstNodes dag)).1 (nodeMap dag)

def wavesOf (ordinals : OrdinalTable) : List TaskStructuralWave :=
  ((ordinals.rows.map Prod.snd).dedup.insertionSort fun left right => left ≤ right).map
    fun wave => ⟨wave, sortTexts ((ordinals.rows.filter fun item => item.2 = wave).map Prod.fst)⟩

theorem computeWaves_eq (dag : TaskDag) : computeWaves dag =
    if (validateTaskDag dag none).valid then wavesOf (ordinalsOf dag) else [] := by
  by_cases valid : (validateTaskDag dag none).valid = true
  · have order : (validateTaskDag dag none).topologicalOrder =
        (buildTopologicalOrder dag (firstNodes dag)).1 := if_pos valid
    rw [if_pos valid, ordinalsOf, ← order]
    exact if_pos valid
  · rw [if_neg valid]
    exact if_neg valid

theorem mem_waves {ordinals : OrdinalTable} {wave : TaskStructuralWave} {taskId : String}
    (listed : wave ∈ wavesOf ordinals) :
    taskId ∈ wave.taskIds ↔ ordinalOf ordinals taskId = some wave.ordinal := by
  obtain ⟨ordinal, _, rfl⟩ := List.mem_map.mp listed
  rw [mem_sortTexts, List.mem_map]
  constructor
  · rintro ⟨item, member, rfl⟩
    rw [List.mem_filter, decide_eq_true_eq] at member
    rw [ordinalOf, Table.find?_key member.1, ← member.2]
    rfl
  · intro found
    obtain ⟨item, here, same⟩ := Option.map_eq_some_iff.mp found
    refine ⟨item, List.mem_filter.mpr ⟨Table.mem_of_find? here, decide_eq_true same⟩, ?_⟩
    exact Table.key_of_find? here

theorem exists_wave {ordinals : OrdinalTable} {taskId : String} {ordinal : Nat}
    (found : ordinalOf ordinals taskId = some ordinal) :
    ∃ wave ∈ wavesOf ordinals, wave.ordinal = ordinal := by
  obtain ⟨item, here, same⟩ := Option.map_eq_some_iff.mp found
  refine ⟨_, List.mem_map_of_mem ?_, rfl⟩
  rw [List.mem_insertionSort, List.mem_dedup, ← same]
  exact List.mem_map_of_mem (Table.mem_of_find? here)

theorem ordinalIn_wavesOf (ordinals : OrdinalTable) (taskId : String) :
    ordinalIn (wavesOf ordinals) taskId = ordinalOf ordinals taskId := by
  unfold ordinalIn
  cases found : (wavesOf ordinals).find? fun wave => decide (taskId ∈ wave.taskIds) with
  | some wave =>
    have here : taskId ∈ wave.taskIds := by simpa using List.find?_some found
    exact ((mem_waves (List.mem_of_find?_eq_some found)).mp here).symm
  | none =>
    cases ordinal : ordinalOf ordinals taskId with
    | none => rfl
    | some ordinal' =>
      obtain ⟨wave, listed, same⟩ := exists_wave ordinal
      have absent := List.find?_eq_none.mp found wave listed
      rw [decide_eq_true_eq, mem_waves listed, same] at absent
      exact absurd ordinal absent

theorem nodup_ordinals (ordinals : OrdinalTable) :
    ((ordinals.rows.map Prod.snd).dedup.insertionSort fun left right => left ≤ right).Nodup :=
  (List.perm_insertionSort _ _).nodup_iff.mpr (List.nodup_dedup _)

theorem partition_wavesOf (ordinals : OrdinalTable) :
    ((wavesOf ordinals).flatMap TaskStructuralWave.taskIds).Perm ordinals.keys := by
  have each : ∀ wave ∈ wavesOf ordinals, wave.taskIds.Nodup := by
    intro wave listed
    obtain ⟨ordinal, _, rfl⟩ := List.mem_map.mp listed
    exact (sortBy_perm id _).nodup_iff.mpr (ordinals.distinct.sublist
      (List.Sublist.map Prod.fst List.filter_sublist))
  have apart : (wavesOf ordinals).Pairwise fun first second =>
      first.taskIds.Disjoint second.taskIds := by
    have ordered : (wavesOf ordinals).Pairwise fun first second =>
        first.ordinal ≠ second.ordinal := List.pairwise_map.mpr (nodup_ordinals ordinals)
    refine List.Pairwise.imp_of_mem (fun left right different taskId here there => ?_) ordered
    have first := (mem_waves left).mp here
    rw [(mem_waves right).mp there] at first
    exact different (Option.some.inj first).symm
  refine (List.perm_ext_iff_of_nodup (List.nodup_flatMap.mpr ⟨each, apart⟩) ordinals.distinct).mpr
    fun taskId => ?_
  change _ ↔ taskId ∈ ordinals.keys
  rw [List.mem_flatMap, ← Table.find?_isSome]
  constructor
  · rintro ⟨wave, listed, here⟩
    exact Option.isSome_map.symm.trans (Option.isSome_of_mem ((mem_waves listed).mp here))
  · intro present
    obtain ⟨item, found⟩ := Option.isSome_iff_exists.mp present
    have ordinal : ordinalOf ordinals taskId = some item.2 := congrArg (Option.map Prod.snd) found
    obtain ⟨wave, listed, same⟩ := exists_wave ordinal
    exact ⟨wave, listed, (mem_waves listed).mpr (same ▸ ordinal)⟩

theorem ordinalOf_waveMembership (ordinals : OrdinalTable) (taskId : String) :
    ordinalOf (waveMembership (wavesOf ordinals)) taskId = ordinalOf ordinals taskId := by
  have listed : ((wavesOf ordinals).flatMap fun wave => wave.taskIds.map fun taskId =>
      (taskId, wave.ordinal)).map Prod.fst =
        (wavesOf ordinals).flatMap TaskStructuralWave.taskIds := by
    rw [List.map_flatMap]
    refine List.flatMap_congr fun wave _ => ?_
    rw [List.map_map]
    exact List.map_id _
  have partition := partition_wavesOf ordinals
  rw [← listed] at partition
  cases ordinal : ordinalOf ordinals taskId with
  | some ordinal' =>
    obtain ⟨wave, member, same⟩ := exists_wave ordinal
    have here : (taskId, ordinal') ∈ (wavesOf ordinals).flatMap fun wave =>
        wave.taskIds.map fun taskId => (taskId, wave.ordinal) :=
      List.mem_flatMap.mpr ⟨wave, member, List.mem_map.mpr
        ⟨taskId, (mem_waves member).mpr (same ▸ ordinal), by rw [same]⟩⟩
    exact congrArg (Option.map Prod.snd)
      (Table.find?_upsertAll_of_nodup (partition.nodup_iff.mpr ordinals.distinct) here)
  | none =>
    have absent : taskId ∉ ordinals.keys :=
      Table.find?_eq_none.mp (Option.map_eq_none_iff.mp ordinal)
    refine congrArg (Option.map Prod.snd) ((Table.find?_upsertAll_of_not_mem ?_).trans
      (Table.find?_empty taskId))
    exact fun there => absent (partition.mem_iff.mp there)

theorem ordinalOf_computeWaves (dag : TaskDag) (taskId : String) :
    ordinalOf (waveMembership (computeWaves dag)) taskId = ordinalIn (computeWaves dag) taskId := by
  rw [computeWaves_eq]
  split
  · rw [ordinalOf_waveMembership, ordinalIn_wavesOf]
  · rfl

end Waves

section Numbers

theorem foldl_max_mem (values : List Nat) (start : Nat) :
    values.foldl max start ∈ start :: values := by
  induction values generalizing start with
  | nil => exact List.mem_cons_self
  | cons value values ih =>
    rw [List.foldl_cons]
    rcases List.mem_cons.mp (ih (max start value)) with same | later
    · rw [same]
      rcases max_choice start value with first | second
      · rw [first]
        exact List.mem_cons_self
      · rw [second]
        exact List.mem_cons_of_mem _ List.mem_cons_self
    · exact List.mem_cons_of_mem _ (List.mem_cons_of_mem _ later)

theorem rising_eq_range {values : List Nat}
    (rising : values.Pairwise fun first last => first < last)
    (positive : ∀ value ∈ values, 0 < value)
    (closed : ∀ value ∈ values, ∀ smaller, 0 < smaller → smaller < value → smaller ∈ values) :
    values = List.range' 1 values.length := by
  induction values using List.reverseRecOn with
  | nil => rfl
  | append_singleton values last ih =>
    obtain ⟨before, _, below⟩ := List.pairwise_append.mp rising
    have less : ∀ value ∈ values, value < last := fun value member =>
      below value member last List.mem_cons_self
    have there : last ∈ values ++ [last] := List.mem_append_right _ List.mem_cons_self
    have inner : ∀ value ∈ values ++ [last], value < last → value ∈ values := by
      intro value member smaller
      rcases List.mem_append.mp member with here | final
      · exact here
      · exact absurd smaller (List.mem_singleton.mp final ▸ Nat.lt_irrefl _)
    have counted : values = List.range' 1 values.length := by
      refine ih before (fun value member => positive value (List.mem_append_left _ member)) ?_
      intro value member smaller nonzero under
      exact inner smaller (closed value (List.mem_append_left _ member) smaller nonzero under)
        (under.trans (less value member))
    have bounds : ∀ value, value ∈ values ↔ 1 ≤ value ∧ value < 1 + values.length := by
      intro value
      rw [counted, List.mem_range'_1, List.length_range']
    have final : last = 1 + values.length := by
      have positive' := positive last there
      by_contra different
      rcases Nat.lt_or_gt_of_ne different with lower | higher
      · exact Nat.lt_irrefl _ (less last ((bounds last).mpr ⟨positive', lower⟩))
      · have gap := closed last there (1 + values.length) (by omega) higher
        exact Nat.lt_irrefl _ ((bounds _).mp (inner _ gap higher)).2
    rw [List.length_append, List.length_singleton, List.range'_1_concat, ← counted, final]

end Numbers

section Sound

variable {dag : TaskDag}

theorem perm_order (sound : SoundGraph dag) :
    (buildTopologicalOrder dag (firstNodes dag)).1.Perm dag.taskIds := by
  rw [← keys_firstNodes_eq sound.distinct]
  exact sound.order

theorem keys_ordinalsOf (sound : SoundGraph dag) :
    (ordinalsOf dag).keys = (buildTopologicalOrder dag (firstNodes dag)).1 :=
  keys_taskOrdinals ((perm_order sound).nodup_iff.mpr sound.distinct)

theorem level_ordinalsOf (sound : SoundGraph dag) {node : TaskDagNode} (listed : node ∈ dag.nodes) :
    ordinalOf (ordinalsOf dag) node.taskId = some ((node.task.dependencies.map fun predecessor =>
      (ordinalOf (ordinalsOf dag) predecessor).getD 0).foldl max 0 + 1) := by
  have own : dependenciesOf (nodeMap dag) node.taskId = node.task.dependencies := by
    rw [dependenciesOf, find?_nodeMap sound.distinct listed]
    rfl
  have distinct := (perm_order sound).nodup_iff.mpr sound.distinct
  have placed : node.taskId ∈ (buildTopologicalOrder dag (firstNodes dag)).1 :=
    (perm_order sound).mem_iff.mpr (List.mem_map_of_mem listed)
  have rank : ∀ predecessor ∈ dependenciesOf (nodeMap dag) node.taskId,
      (buildTopologicalOrder dag (firstNodes dag)).1.idxOf predecessor <
        (buildTopologicalOrder dag (firstNodes dag)).1.idxOf node.taskId :=
    fun predecessor depends => sound.rank ((dependsOn_iff sound).mp depends)
  obtain ⟨earlier, later, split⟩ := List.append_of_mem placed
  rw [split] at distinct rank
  have fresh : node.taskId ∉ earlier := fun here =>
    (List.nodup_append.mp distinct).2.2 node.taskId here node.taskId List.mem_cons_self rfl
  have preceding : ∀ predecessor ∈ dependenciesOf (nodeMap dag) node.taskId,
      predecessor ∈ earlier := by
    intro predecessor depends
    by_contra missing
    have lower := rank predecessor depends
    rw [List.idxOf_append_of_notMem fresh, List.idxOf_append_of_notMem missing,
      List.idxOf_cons_self] at lower
    omega
  have ordinal := ordinalOf_placed distinct preceding
  rw [← split] at ordinal
  rw [ordinalsOf, ordinal, ordinalAfter, own, List.foldl_map]

theorem lower_level (sound : SoundGraph dag) {taskId : String} {ordinal : Nat}
    (found : ordinalOf (ordinalsOf dag) taskId = some (ordinal + 1)) (positive : 0 < ordinal) :
    ∃ predecessor, ordinalOf (ordinalsOf dag) predecessor = some ordinal := by
  have present : taskId ∈ (ordinalsOf dag).keys := by
    obtain ⟨item, here, _⟩ := Option.map_eq_some_iff.mp found
    exact Table.find?_isSome.mp (Option.isSome_of_mem here)
  rw [keys_ordinalsOf sound, (perm_order sound).mem_iff] at present
  obtain ⟨node, listed, rfl⟩ := List.mem_map.mp present
  rw [level_ordinalsOf sound listed, Option.some.injEq, Nat.add_right_cancel_iff] at found
  have member := foldl_max_mem (node.task.dependencies.map fun predecessor =>
    (ordinalOf (ordinalsOf dag) predecessor).getD 0) 0
  rw [found] at member
  rcases List.mem_cons.mp member with zero | mapped
  · omega
  · obtain ⟨predecessor, _, same⟩ := List.mem_map.mp mapped
    cases own : ordinalOf (ordinalsOf dag) predecessor with
    | none =>
      rw [own] at same
      exact absurd same.symm (Nat.pos_iff_ne_zero.mp positive)
    | some value =>
      rw [own] at same
      exact ⟨predecessor, own.trans (congrArg some same)⟩

theorem mem_ordinals_wavesOf {ordinals : OrdinalTable} {ordinal : Nat} :
    ordinal ∈ (wavesOf ordinals).map TaskStructuralWave.ordinal ↔
      ∃ taskId, ordinalOf ordinals taskId = some ordinal := by
  constructor
  · intro member
    obtain ⟨wave, listed, rfl⟩ := List.mem_map.mp member
    obtain ⟨value, here, rfl⟩ := List.mem_map.mp listed
    rw [List.mem_insertionSort, List.mem_dedup, List.mem_map] at here
    obtain ⟨item, held, rfl⟩ := here
    exact ⟨item.1, congrArg (Option.map Prod.snd) (Table.find?_key held)⟩
  · rintro ⟨taskId, found⟩
    obtain ⟨wave, listed, same⟩ := exists_wave found
    exact List.mem_map.mpr ⟨wave, listed, same⟩

theorem rising_wavesOf (ordinals : OrdinalTable) :
    ((wavesOf ordinals).map TaskStructuralWave.ordinal).Pairwise
      fun first last => first < last := by
  have same : (wavesOf ordinals).map TaskStructuralWave.ordinal =
      (ordinals.rows.map Prod.snd).dedup.insertionSort fun left right => left ≤ right := by
    rw [wavesOf, List.map_map]
    exact List.map_id _
  rw [same]
  exact ((List.pairwise_insertionSort _ _).and (nodup_ordinals ordinals)).imp fun both =>
    lt_of_le_of_ne both.1 both.2

theorem consecutive_wavesOf (sound : SoundGraph dag) :
    (wavesOf (ordinalsOf dag)).map TaskStructuralWave.ordinal =
      List.range' 1 (wavesOf (ordinalsOf dag)).length := by
  have counted := rising_eq_range (rising_wavesOf (ordinalsOf dag)) ?_ ?_
  · rw [List.length_map] at counted
    exact counted
  · intro value member
    obtain ⟨taskId, found⟩ := mem_ordinals_wavesOf.mp member
    have present : taskId ∈ (ordinalsOf dag).keys := by
      obtain ⟨item, here, _⟩ := Option.map_eq_some_iff.mp found
      exact Table.find?_isSome.mp (Option.isSome_of_mem here)
    rw [keys_ordinalsOf sound, (perm_order sound).mem_iff] at present
    obtain ⟨node, listed, rfl⟩ := List.mem_map.mp present
    rw [level_ordinalsOf sound listed, Option.some.injEq] at found
    exact found ▸ Nat.succ_pos _
  · intro value
    induction value with
    | zero => exact fun _ smaller _ under => absurd under (Nat.not_lt_zero smaller)
    | succ value ih =>
      intro member smaller nonzero under
      obtain ⟨taskId, found⟩ := mem_ordinals_wavesOf.mp member
      have lower : value ∈ (wavesOf (ordinalsOf dag)).map TaskStructuralWave.ordinal :=
        mem_ordinals_wavesOf.mpr (lower_level sound found (by omega))
      rcases Nat.lt_succ_iff_lt_or_eq.mp under with less | rfl
      · exact ih lower smaller nonzero less
      · exact lower

theorem levels_computeWaves (valid : (validateTaskDag dag none).valid = true) :
    Levels dag (computeWaves dag) := by
  have sound : SoundGraph dag := soundGraph_of_dagDiagnostics (List.isEmpty_iff.mp valid)
  rw [computeWaves_eq, if_pos valid]
  refine ⟨sound.distinct, ?_, ?_, ?_, consecutive_wavesOf sound⟩
  · exact (partition_wavesOf _).trans (by rw [keys_ordinalsOf sound]; exact perm_order sound)
  · intro node listed predecessor depends
    have known := (sound.known node listed predecessor depends).1
    rw [keys_firstNodes_eq sound.distinct] at known
    exact known
  · intro node listed
    simp only [ordinalIn_wavesOf]
    exact level_ordinalsOf sound listed

end Sound

section Affected

variable {dag beforeDag afterDag : TaskDag} {taskId : String}

theorem ordinal_of_valid (valid : (validateTaskDag dag none).valid = true)
    (known : taskId ∈ dag.taskIds) : ordinalIn (computeWaves dag) taskId ≠ none := by
  obtain ⟨node, listed, rfl⟩ := List.mem_map.mp known
  rw [(levels_computeWaves valid).level node listed]
  exact Option.some_ne_none _

theorem ordinal_of_changed (valid : (validateTaskDag dag none).valid = true)
    (present : taskId ∈ (nodeMap dag).keys) : ordinalIn (computeWaves dag) taskId ≠ none :=
  ordinal_of_valid valid ((Table.mem_keys_upsertAll.mp present).resolve_left (nomatch ·))

theorem mem_changedTaskIds :
    taskId ∈ changedTaskIds beforeDag afterDag ↔ NodeChanged beforeDag afterDag taskId := by
  unfold changedTaskIds NodeChanged
  rw [mem_sortTexts, List.mem_filter, decide_eq_true_eq, List.mem_dedup, List.mem_append,
    and_iff_right_iff_imp]
  intro changed
  by_contra absent
  rw [not_or, ← Table.find?_eq_none, ← Table.find?_eq_none] at absent
  exact changed (by rw [absent.1, absent.2])

theorem mem_affectedTaskIds : taskId ∈ affectedTaskIds beforeDag afterDag ↔
    ordinalIn (computeWaves beforeDag) taskId ≠ ordinalIn (computeWaves afterDag) taskId ∨
      NodeChanged beforeDag afterDag taskId ∧
        ordinalIn (computeWaves beforeDag) taskId ≠ none := by
  have present : ∀ dag : TaskDag, taskId ∈ (waveMembership (computeWaves dag)).keys ↔
      ordinalIn (computeWaves dag) taskId ≠ none := by
    intro dag
    rw [← ordinalOf_computeWaves, ordinalOf, ne_eq, Option.map_eq_none_iff, Table.find?_eq_none,
      not_not]
  unfold affectedTaskIds
  rw [mem_sortTexts, List.mem_filter, List.mem_dedup, List.mem_append, decide_eq_true_eq, present,
    present, mem_changedTaskIds, ordinalOf_computeWaves, ordinalOf_computeWaves]
  by_cases same : ordinalIn (computeWaves beforeDag) taskId =
    ordinalIn (computeWaves afterDag) taskId
  · rw [← same]
    tauto
  · have either : ordinalIn (computeWaves beforeDag) taskId ≠ none ∨
        ordinalIn (computeWaves afterDag) taskId ≠ none := by
      by_contra absent
      rw [not_or, not_not, not_not] at absent
      exact same (absent.1.trans absent.2.symm)
    exact iff_of_true ⟨either, Or.inl same⟩ (Or.inl same)

theorem mem_affected_of_valid (first : (validateTaskDag beforeDag none).valid = true)
    (last : (validateTaskDag afterDag none).valid = true) :
    taskId ∈ affectedTaskIds beforeDag afterDag ↔ NodeChanged beforeDag afterDag taskId ∨
      ordinalIn (computeWaves beforeDag) taskId ≠ ordinalIn (computeWaves afterDag) taskId := by
  rw [mem_affectedTaskIds, or_comm]
  refine ⟨Or.imp_left And.left, ?_⟩
  rintro (changed | different)
  · by_cases same :
        ordinalIn (computeWaves beforeDag) taskId = ordinalIn (computeWaves afterDag) taskId
    · refine Or.inl ⟨changed, ?_⟩
      have listed := mem_changedTaskIds.mpr changed
      unfold changedTaskIds at listed
      rw [mem_sortTexts, List.mem_filter, List.mem_dedup, List.mem_append] at listed
      rcases listed.1 with before | after
      · exact ordinal_of_changed first before
      · rw [same]
        exact ordinal_of_changed last after
    · exact Or.inr same
  · exact Or.inr different

end Affected

section Hashed

variable [Sha256]

theorem affectedTaskIds_decided (context : TaskGraphRevisionValidationContext)
    (input : TaskGraphRevisionProposal) :
    (validateTaskGraphRevision context input).1.affectedTaskIds =
      affectedTaskIds (canonicalDag context.current.dag) (canonicalDag input.proposedDag) := by
  simp only [validateTaskGraphRevision, decisionOf, canonicalProposal]

/-- Structural waves are the levels of a valid graph, and of a revision are affected the tasks
whose node or level changed. -/
theorem computeWaves_levels :
    (∀ dag, (validateTaskDag dag none).valid = true → Levels dag (computeWaves dag)) ∧
      ∀ context input taskId,
        (taskId ∈ (validateTaskGraphRevision context input).1.affectedTaskIds ↔
          ordinalIn (computeWaves (canonicalDag context.current.dag)) taskId ≠
              ordinalIn (computeWaves (canonicalDag input.proposedDag)) taskId ∨
            NodeChanged (canonicalDag context.current.dag) (canonicalDag input.proposedDag) taskId ∧
              ordinalIn (computeWaves (canonicalDag context.current.dag)) taskId ≠ none) ∧
        ((validateTaskDag (canonicalDag context.current.dag) none).valid = true →
          (validateTaskDag (canonicalDag input.proposedDag) none).valid = true →
          (taskId ∈ (validateTaskGraphRevision context input).1.affectedTaskIds ↔
            NodeChanged (canonicalDag context.current.dag) (canonicalDag input.proposedDag)
                taskId ∨
              ordinalIn (computeWaves (canonicalDag context.current.dag)) taskId ≠
                ordinalIn (computeWaves (canonicalDag input.proposedDag)) taskId)) := by
  refine ⟨fun _ => levels_computeWaves, fun context input taskId => ?_⟩
  rw [affectedTaskIds_decided]
  exact ⟨mem_affectedTaskIds, mem_affected_of_valid⟩

end Hashed

theorem computeWaves_levels_sample :
    Levels (writersDag [writerNode "second" ["first"] 1, writerNode "first" [] 1])
        (computeWaves (writersDag [writerNode "second" ["first"] 1, writerNode "first" [] 1])) ∧
      computeWaves (writersDag [writerNode "second" ["first"] 1, writerNode "first" [] 1]) =
        [⟨1, ["first"]⟩, ⟨2, ["second"]⟩] := by
  have valid : (validateTaskDag (writersDag [writerNode "second" ["first"] 1,
      writerNode "first" [] 1]) none).valid = true := by
    decide +kernel
  have waves : computeWaves (writersDag [writerNode "second" ["first"] 1,
      writerNode "first" [] 1]) = [⟨1, ["first"]⟩, ⟨2, ["second"]⟩] := by
    decide +kernel
  exact ⟨(@computeWaves_levels ⟨id⟩).1 _ valid, waves⟩

end Heniek.StructuralWaves
