import Heniek.CanonicalState

/-!
The texts of a pipeline graph as its rendering leaves them: each one that has the shape of a
credential, of an address or of a header is replaced, wherever it stands. The patterns of
such texts and keys are a parameter; the keys and words that every graph has match none.
-/

namespace Heniek.GraphRedaction
open CanonicalState ExpressionEvaluation GraphValidation PipelineDocument

structure SensitivePatterns where
  looksLikeCredentialKey : String → Bool
  isSensitiveDiagnosticKey : String → Bool
  looksLikeCredentialValue : String → Bool
  looksLikeSensitiveDiagnosticValue : String → Bool

def redactionPlaceholder : String := "[redacted]"

section Redact

variable (patterns : SensitivePatterns)

def redactString (value : String) : String :=
  if patterns.looksLikeCredentialValue value ||
    patterns.looksLikeSensitiveDiagnosticValue value then
    redactionPlaceholder
  else value

mutual

def redactValue : (depth : Nat) → JsonValue → JsonValue
  | _, .null => .null
  | _, .bool value => .bool value
  | _, .number value => .number value
  | _, .string value => .string (redactString patterns value)
  | depth, .array items =>
    if 64 ≤ depth then .string "[max-depth-exceeded]"
    else .array (redactItems (depth + 1) items)
  | depth, .object members =>
    if 64 ≤ depth then .string "[max-depth-exceeded]"
    else .object (redactMembers (depth + 1) [] members)

def redactItems : (depth : Nat) → List JsonValue → List JsonValue
  | _, [] => []
  | depth, item :: items => redactValue depth item :: redactItems depth items

def redactMember : (depth : Nat) → Members → String × JsonValue → Members
  | depth, out, (key, value) =>
    defineProperty out (if patterns.looksLikeCredentialValue key then redactionPlaceholder else key)
      (if patterns.looksLikeCredentialKey key || patterns.isSensitiveDiagnosticKey key then
        .string redactionPlaceholder
      else redactValue depth value)

def redactMembers : (depth : Nat) → Members → List (String × JsonValue) → Members
  | _, out, [] => out
  | depth, out, member :: members => redactMembers depth (redactMember depth out member) members

end

def renderedScalar : JsonScalar → JsonScalar
  | .string value => .string (redactString patterns value)
  | .number .negativeZero => .number (.finite 0)
  | value => value

def renderedNode : ExpressionNode → ExpressionNode
  | .literal value => .literal (renderedScalar patterns value)
  | .path path => .path (path.map (redactString patterns))
  | node => node

def renderedCondition : PipelineCondition → PipelineCondition
  | .expression condition =>
    .expression { condition with nodes := condition.nodes.map (renderedNode patterns) }
  | .evaluator profile question =>
    .evaluator (redactString patterns profile) (redactString patterns question)

def renderedEdge (edge : PipelineEdge) : PipelineEdge where
  fromStageId := redactString patterns edge.fromStageId
  toStageId := redactString patterns edge.toStageId
  condition := edge.condition.map (renderedCondition patterns)

def renderedRequirement : CompletionRequirement → CompletionRequirement
  | .verdict profile => .verdict (redactString patterns profile)
  | .other => .other

end Redact

def scalarTexts : JsonScalar → List String
  | .string value => [value]
  | _ => []

def nodeTexts : ExpressionNode → List String
  | .literal value => scalarTexts value
  | .path path => path
  | _ => []

def conditionTexts : PipelineCondition → List String
  | .expression condition => condition.nodes.flatMap nodeTexts
  | .evaluator profile question => [profile, question]

def edgeTexts (edge : PipelineEdge) : List String :=
  edge.fromStageId :: edge.toStageId :: edge.condition.toList.flatMap conditionTexts

def nodeNumbers : ExpressionNode → List JsonNumber
  | .literal (.number value) => [value]
  | _ => []

def conditionNumbers : PipelineCondition → List JsonNumber
  | .expression condition => condition.nodes.flatMap nodeNumbers
  | .evaluator _ _ => []

def edgeNumbers (edge : PipelineEdge) : List JsonNumber :=
  edge.condition.toList.flatMap conditionNumbers

def requirementTexts : CompletionRequirement → List String
  | .verdict profile => [profile]
  | .other => []

section Kept

variable {patterns : SensitivePatterns}

theorem map_eq_self {α : Type} {f : α → α} {items : List α} :
    items.map f = items ↔ ∀ item ∈ items, f item = item := by
  have pointwise := @List.map_inj_left _ _ items f id
  rwa [List.map_id] at pointwise

theorem optionMap_eq_self {α : Type} {f : α → α} {value : Option α} :
    value.map f = value ↔ ∀ item ∈ value, f item = item := by
  cases value <;> simp

theorem renderedScalar_eq_self {value : JsonScalar} : renderedScalar patterns value = value ↔
    (∀ text ∈ scalarTexts value, redactString patterns text = text) ∧
      value ≠ .number .negativeZero := by
  cases value with
  | null => simp [renderedScalar, scalarTexts]
  | bool => simp [renderedScalar, scalarTexts]
  | string => simp [renderedScalar, scalarTexts]
  | number value => cases value <;> simp [renderedScalar, scalarTexts]

theorem renderedNode_eq_self {node : ExpressionNode} : renderedNode patterns node = node ↔
    (∀ text ∈ nodeTexts node, redactString patterns text = text) ∧
      .negativeZero ∉ nodeNumbers node := by
  cases node with
  | literal value =>
    rw [renderedNode, ExpressionNode.literal.injEq, renderedScalar_eq_self]
    refine and_congr_right fun _ => ?_
    cases value <;> simp [nodeNumbers, eq_comm]
  | path path => simp [renderedNode, nodeTexts, nodeNumbers, map_eq_self]
  | not => simp [renderedNode, nodeTexts, nodeNumbers]
  | compare => simp [renderedNode, nodeTexts, nodeNumbers]
  | logical => simp [renderedNode, nodeTexts, nodeNumbers]

theorem renderedCondition_eq_self {condition : PipelineCondition} :
    renderedCondition patterns condition = condition ↔
      (∀ text ∈ conditionTexts condition, redactString patterns text = text) ∧
        .negativeZero ∉ conditionNumbers condition := by
  cases condition with
  | evaluator profile question => simp [renderedCondition, conditionTexts, conditionNumbers]
  | expression condition =>
    obtain ⟨nodes, root⟩ := condition
    have whole :
        renderedCondition patterns (.expression ⟨nodes, root⟩) = .expression ⟨nodes, root⟩ ↔
        ∀ node ∈ nodes, renderedNode patterns node = node := by
      simp [renderedCondition, map_eq_self]
    rw [whole]
    simp only [renderedNode_eq_self, conditionTexts, conditionNumbers, List.mem_flatMap, not_exists,
      not_and]
    constructor
    · intro kept
      refine ⟨?_, fun node listed => (kept node listed).2⟩
      rintro text ⟨node, listed, member⟩
      exact (kept node listed).1 text member
    · rintro ⟨texts, numbers⟩ node listed
      exact ⟨fun text member => texts text ⟨node, listed, member⟩, numbers node listed⟩

theorem renderedEdge_eq_self {edge : PipelineEdge} : renderedEdge patterns edge = edge ↔
    (∀ text ∈ edgeTexts edge, redactString patterns text = text) ∧
      .negativeZero ∉ edgeNumbers edge := by
  obtain ⟨first, second, condition⟩ := edge
  rw [renderedEdge, PipelineEdge.mk.injEq, optionMap_eq_self]
  cases condition with
  | none => simp [edgeTexts, edgeNumbers]
  | some condition => simp [edgeTexts, edgeNumbers, renderedCondition_eq_self, and_assoc]

theorem renderedRequirement_eq_self {requirement : CompletionRequirement} :
    renderedRequirement patterns requirement = requirement ↔
      ∀ text ∈ requirementTexts requirement, redactString patterns text = text := by
  cases requirement <;> simp [renderedRequirement, requirementTexts]

end Kept

end Heniek.GraphRedaction
