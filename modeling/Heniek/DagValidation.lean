import Heniek.TaskGraph

/-!
The validation of a task graph and of the task states that go with it. The
topological order is Kahn's: among the tasks whose dependencies are placed, the one
whose id comes first in code units.
-/

namespace Heniek.DagValidation
open KeyedTable ScriptText TaskGraph

abbrev NodeTable := Table TaskDagNode.taskId

def nodeMap (dag : TaskDag) : NodeTable := Table.empty.upsertAll dag.nodes

/-- The nodes with a repeated one left out, where the first of them counts. -/
def firstNodes (dag : TaskDag) : NodeTable := dag.nodes.foldl Table.insertOrIgnore Table.empty

def dependenciesOf (nodes : NodeTable) (taskId : String) : List String :=
  ((nodes.find? taskId).map fun node => node.task.dependencies).getD []

/-- A dependency that counts in the topology. -/
def counts (nodes : NodeTable) (taskId predecessor : String) : Bool :=
  decide (predecessor ∈ nodes.keys ∧ predecessor ≠ taskId)

def indegreeOf (dag : TaskDag) (nodes : NodeTable) (taskId : String) : Nat :=
  (dag.nodes.flatMap fun node =>
    if node.taskId = taskId then node.task.dependencies.filter (counts nodes taskId) else []).length

def successorsOf (dag : TaskDag) (nodes : NodeTable) (taskId : String) : List String :=
  sortTexts (dag.nodes.flatMap fun node =>
    (node.task.dependencies.filter fun predecessor =>
      counts nodes node.taskId predecessor && decide (predecessor = taskId)).map
      fun _ => node.taskId)

def insertSorted (values : List String) (value : String) : List String :=
  values.takeWhile (fun candidate => !before value candidate) ++
    value :: values.dropWhile fun candidate => !before value candidate

structure Topology where
  indegree : Table fun item : String × Nat => item.1
  ready : List String
  order : List String

def initialTopology (dag : TaskDag) (nodes : NodeTable) : Topology :=
  let indegree := nodes.keys.map fun taskId => (taskId, indegreeOf dag nodes taskId)
  { indegree := Table.empty.upsertAll indegree
    ready := sortTexts ((indegree.filter fun item => item.2 = 0).map Prod.fst)
    order := [] }

/-- A successor of the task just placed. -/
def release (topology : Topology) (successor : String) : Topology :=
  let next := ((topology.indegree.find? successor).map Prod.snd).getD 0 - 1
  { topology with
    indegree := topology.indegree.upsert (successor, next)
    ready := if next = 0 then insertSorted topology.ready successor else topology.ready }

/-- The loop over the ready tasks, of which there are at most as many as nodes. -/
def placeTasks (dag : TaskDag) (nodes : NodeTable) : Nat → Topology → Topology
  | 0, topology => topology
  | fuel + 1, topology =>
    match topology.ready with
    | [] => topology
    | taskId :: ready =>
      placeTasks dag nodes fuel ((successorsOf dag nodes taskId).foldl release
        { topology with ready := ready, order := topology.order ++ [taskId] })

def buildTopologicalOrder (dag : TaskDag) (nodes : NodeTable) : List String × List String :=
  let topology := placeTasks dag nodes nodes.rows.length (initialTopology dag nodes)
  (topology.order,
    sortTexts ((topology.indegree.rows.filter fun item => 0 < item.2).map Prod.fst))

abbrev AncestorTable := Table fun item : String × List String => item.1

def ancestorsOf (ancestors : AncestorTable) (taskId : String) : List String :=
  ((ancestors.find? taskId).map Prod.snd).getD []

def computeAncestors (order : List String) (nodes : NodeTable) : AncestorTable :=
  order.foldl (fun ancestors taskId =>
    ancestors.upsert (taskId, (dependenciesOf nodes taskId).flatMap fun predecessor =>
      predecessor :: ancestorsOf ancestors predecessor)) Table.empty

def addWriter (writers : AncestorTable) (repositoryId taskId : String) : AncestorTable :=
  writers.upsert (repositoryId, ancestorsOf writers repositoryId ++ [taskId])

def writersOf (nodes : NodeTable) : AncestorTable :=
  nodes.rows.foldl (fun writers node =>
    node.task.writeSet.foldl (fun writers repositoryId =>
      addWriter writers repositoryId node.taskId) writers) Table.empty

def pairs : List String → List (String × String)
  | [] => []
  | first :: rest => rest.map (first, ·) ++ pairs rest

def conflictingWrites (order : List String) (nodes : NodeTable) : List TaskDagDiagnostic :=
  let ancestors := computeAncestors order nodes
  (sortBy Prod.fst (writersOf nodes).rows).flatMap fun item =>
    ((pairs (sortTexts item.2)).filter fun pair =>
      !(decide (pair.2 ∈ ancestorsOf ancestors pair.1) ||
        decide (pair.1 ∈ ancestorsOf ancestors pair.2))).map fun pair =>
      diagnostic "task-dag.conflicting-writes"
        ("Tasks \"" ++ pair.1 ++ "\" and \"" ++ pair.2 ++ "\" both write repository \"" ++ item.1 ++
          "\" without dependency ordering.") [pair.1, pair.2]

/-- The items that occur again after an equal one, each time they do. -/
def repeated : List String → List String → List String
  | _, [] => []
  | seen, item :: items =>
    if item ∈ seen then item :: repeated seen items else repeated (seen ++ [item]) items

def duplicateNodes (dag : TaskDag) : List TaskDagDiagnostic :=
  (repeated [] dag.taskIds).map fun taskId =>
    diagnostic "task-dag.duplicate-node" ("Task \"" ++ taskId ++ "\" appears more than once.")
      [taskId]

def dependencyDiagnostics (nodes : NodeTable) (node : TaskDagNode) : List TaskDagDiagnostic :=
  (node.task.dependencies.flatMap fun predecessor =>
    if predecessor = node.taskId then
      [diagnostic "task-dag.self-dependency" ("Task \"" ++ node.taskId ++ "\" depends on itself.")
        [node.taskId]]
    else if predecessor ∈ nodes.keys then []
    else
      [diagnostic "task-dag.missing-node"
        ("Task \"" ++ node.taskId ++ "\" depends on missing task \"" ++ predecessor ++ "\".")
        [predecessor, node.taskId]]) ++
    (repeated [] node.task.dependencies).map fun predecessor =>
      diagnostic "task-dag.duplicate-dependency"
        ("Task \"" ++ node.taskId ++ "\" repeats dependency \"" ++ predecessor ++ "\".")
        [predecessor, node.taskId]

def cycleDiagnostics (cyclic : List String) : List TaskDagDiagnostic :=
  if cyclic = [] then []
  else
    [diagnostic "task-dag.cycle"
      ("Task graph contains a cycle involving " ++
        ", ".intercalate (cyclic.map fun taskId => "\"" ++ taskId ++ "\"") ++ ".") cyclic]

abbrev StateTable := Table TaskPlanningState.taskId

def stateMap (states : List TaskPlanningState) : StateTable := Table.empty.upsertAll states

def stateDiagnostics (nodes : NodeTable) (states : List TaskPlanningState) :
    List TaskDagDiagnostic :=
  ((repeated [] (states.map TaskPlanningState.taskId)).map fun taskId =>
    diagnostic "task-dag.duplicate-task-state"
      ("Task \"" ++ taskId ++ "\" has more than one planning-state observation.") [taskId]) ++
    ((states.filter fun state => decide (state.taskId ∉ nodes.keys)).map fun state =>
      diagnostic "task-dag.unknown-task-state"
        ("Planning state refers to unknown task \"" ++ state.taskId ++ "\".") [state.taskId]) ++
    (nodes.keys.filter fun taskId =>
      decide (taskId ∉ states.map TaskPlanningState.taskId)).map fun taskId =>
      diagnostic "task-dag.missing-task-state"
        ("Task \"" ++ taskId ++ "\" has no planning-state observation.") [taskId]

def validateTerminalDependencies (dag : TaskDag) (nodes : NodeTable)
    (states : List TaskPlanningState) : List TaskDagDiagnostic :=
  let byTask := stateMap states
  dag.nodes.flatMap fun node =>
    match byTask.find? node.taskId with
    | none => []
    | some state =>
      if state.outcome = .active ∨ state.outcome = .succeeded then
        (node.task.dependencies.filter fun predecessor =>
          decide (predecessor ∈ nodes.keys) &&
            !(byTask.find? predecessor).any TaskPlanningState.satisfied).map fun predecessor =>
          diagnostic "task-dag.invalid-terminal-dependency"
            ("Task \"" ++ node.taskId ++ "\" is " ++ state.outcome.text ++
              " although prerequisite \"" ++ predecessor ++
              "\" is not fully settled and verified.") [predecessor, node.taskId]
      else []

structure TaskDagValidationResult where
  graphId : String
  graphRevision : Nat
  valid : Bool
  topologicalOrder : List String
  diagnostics : List TaskDagDiagnostic
  deriving DecidableEq

def joinNul (texts : List String) : String := "\x00".intercalate texts

def diagnosticBefore (left right : TaskDagDiagnostic) : Bool :=
  before left.code right.code ||
    decide (left.code = right.code) && before (joinNul left.taskIds) (joinNul right.taskIds)

def dagDiagnostics (dag : TaskDag) (states : Option (List TaskPlanningState)) :
    List TaskDagDiagnostic :=
  let nodes := firstNodes dag
  let topology := buildTopologicalOrder dag nodes
  (if dag.nodes = [] then
    [diagnostic "task-dag.empty" "Task graph must contain at least one task."] else []) ++
  duplicateNodes dag ++ dag.nodes.flatMap (dependencyDiagnostics nodes) ++
  cycleDiagnostics topology.2 ++
  (if topology.1.length = nodes.rows.length then conflictingWrites topology.1 nodes else []) ++
  (states.toList.flatMap fun states =>
    stateDiagnostics nodes states ++ validateTerminalDependencies dag nodes states)

def validateTaskDag (dag : TaskDag) (states : Option (List TaskPlanningState)) :
    TaskDagValidationResult where
  graphId := dag.graphId
  graphRevision := dag.graphRevision
  valid := (dagDiagnostics dag states).isEmpty
  topologicalOrder :=
    if (dagDiagnostics dag states).isEmpty then (buildTopologicalOrder dag (firstNodes dag)).1
    else []
  diagnostics := (dagDiagnostics dag states).insertionSort fun left right =>
    diagnosticBefore right left = false

end Heniek.DagValidation
