import Heniek.ExpressionEvaluation
import Heniek.KeyedTable
import Heniek.ScriptText

/-!
The normalized pipeline graph, with the fields the scheduler reads. Profile,
command, completion, context thresholds and the authored names play no part in
a tick and are left out. `descendants` is the source's stack walk; the fuel
covers every push, since a stage pushes its successors once.
-/

namespace Heniek.PipelineDocument
open KeyedTable PipelineVocabulary ExpressionEvaluation

structure OnValidationFailure where
  strategy : ValidationStrategy
  session : Option SessionPolicy := none
  maxAttempts : Option Nat := none
  delegateTo : Option String := none
  deriving DecidableEq

structure PipelineStage where
  id : String
  type : StageType
  mode : ExecutionMode
  optional : Bool
  session : Option SessionPolicy := none
  maxRepairAttempts : Option Nat := none
  onValidationFailure : Option OnValidationFailure := none
  reads : List String := []
  writes : List String := []
  deriving DecidableEq

inductive PipelineCondition where
  | expression (condition : ExpressionCondition)
  | evaluator (profile question : String)

structure PipelineEdge where
  fromStageId : String
  toStageId : String
  condition : Option PipelineCondition := none

structure PipelineLimits where
  maxRepairAttempts : Option Nat := none
  maxConcurrentWorkers : Option Nat := none
  deriving DecidableEq

structure PipelineGraph where
  mode : ExecutionMode
  limits : PipelineLimits := {}
  stages : List PipelineStage
  edges : List PipelineEdge

def stageIds (graph : PipelineGraph) : List String := graph.stages.map PipelineStage.id

def stagesById (graph : PipelineGraph) : Table PipelineStage.id :=
    Table.empty.upsertAll graph.stages

variable {graph : PipelineGraph}

theorem mem_stagesById_keys {id : String} : id ∈ (stagesById graph).keys ↔ id ∈ stageIds graph := by
  rw [stagesById, Table.mem_keys_upsertAll]
  simp [stageIds]

def incoming (graph : PipelineGraph) (stageId : String) : List PipelineEdge :=
  graph.edges.filter fun edge => edge.toStageId = stageId

def successors (graph : PipelineGraph) (stageId : String) : List String :=
  (graph.edges.filter fun edge => edge.fromStageId = stageId).map PipelineEdge.toStageId

/-- Every endpoint is a declared stage; `buildEdgeMaps` dereferences both maps. -/
def edgesResolved (graph : PipelineGraph) : Bool :=
  graph.edges.all fun edge =>
    decide (edge.fromStageId ∈ stageIds graph) && decide (edge.toStageId ∈ stageIds graph)

theorem edgesResolved_iff : edgesResolved graph = true ↔
      ∀ edge ∈ graph.edges,
        edge.fromStageId ∈ stageIds graph ∧ edge.toStageId ∈ stageIds graph := by
  simp [edgesResolved]

/-- The stack walk of `buildDescendants`; the head of `stack` is the element popped next. -/
def walk (graph : PipelineGraph) : (fuel : Nat) → (stack seen : List String) → List String
  | 0, _, seen => seen
  | _ + 1, [], seen => seen
  | fuel + 1, next :: stack, seen =>
    if next ∈ seen then walk graph fuel stack seen
    else walk graph fuel ((successors graph next).reverse ++ stack) (seen ++ [next])

def descendants (graph : PipelineGraph) (stageId : String) : List String :=
  ScriptText.sortTexts
    (walk graph (2 * graph.edges.length + 1) (successors graph stageId).reverse [])

theorem walk_subset {ids : List String} (closed : ∀ edge ∈ graph.edges, edge.toStageId ∈ ids)
    (fuel : Nat) (stack seen : List String) (hstack : ∀ id ∈ stack, id ∈ ids)
    (hseen : ∀ id ∈ seen, id ∈ ids) : ∀ id ∈ walk graph fuel stack seen, id ∈ ids := by
  induction fuel generalizing stack seen with
  | zero => exact hseen
  | succ fuel ih =>
    cases stack with
    | nil => exact hseen
    | cons next stack =>
      have rest : ∀ id ∈ stack, id ∈ ids := fun id hid => hstack id (List.mem_cons_of_mem next hid)
      rw [walk]
      split
      · exact ih stack seen rest hseen
      · apply ih
        · intro id hid
          rcases List.mem_append.mp hid with child | later
          · rw [List.mem_reverse, successors, List.mem_map] at child
            obtain ⟨edge, member, rfl⟩ := child
            exact closed edge (List.mem_filter.mp member).1
          · exact rest id later
        · intro id hid
          rcases List.mem_append.mp hid with earlier | last
          · exact hseen id earlier
          · rw [List.mem_singleton.mp last]
            exact hstack next List.mem_cons_self

theorem descendants_subset (resolved : edgesResolved graph = true) {stageId id : String}
    (member : id ∈ descendants graph stageId) : id ∈ stageIds graph := by
  have closed : ∀ edge ∈ graph.edges, edge.toStageId ∈ stageIds graph :=
    fun edge hedge => (edgesResolved_iff.mp resolved edge hedge).2
  rw [descendants, ScriptText.mem_sortTexts] at member
  refine walk_subset closed _ _ _ ?_ (by simp) id member
  intro child hchild
  rw [List.mem_reverse, successors, List.mem_map] at hchild
  obtain ⟨edge, hedge, rfl⟩ := hchild
  exact closed edge (List.mem_filter.mp hedge).1

end Heniek.PipelineDocument
