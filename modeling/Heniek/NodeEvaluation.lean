import Heniek.ExpressionEvaluation

/-!
The evaluation of one node from the results of the nodes it refers to. The
recursive evaluation is this step with itself, one level less deep, for the results.
-/

namespace Heniek.NodeEvaluation
open ExpressionEvaluation

abbrev Outcome := Option (Evaluated JsonValue)

def outOfRange (index : Nat) : Evaluated JsonValue :=
  .failure ⟨.invalidExpression,
    "expression node index " ++ toString index ++ " is out of range", none⟩

def readResult (state : JsonValue) (path : List String) : Evaluated JsonValue :=
  match readPath state [] path with
  | .inl value => .ok value
  | .inr missing =>
    .failure ⟨.missingPath, "missing state path " ++ ".".intercalate missing, some missing⟩

def proceed (result : Evaluated JsonValue) (next : JsonValue → Outcome) : Outcome :=
  match result with
  | .ok value => next value
  | .failure reason => some (.failure reason)

def negated (value : JsonValue) : Evaluated JsonValue :=
  match value with
  | .bool value => .ok (.bool !value)
  | value =>
    .failure ⟨.incompatibleType, "unary ! requires a boolean, got " ++ describeType value, none⟩

def compared (operator : ComparisonOperator) (left right : JsonValue) : Evaluated JsonValue :=
  match asComparable left, asComparable right with
  | some leftScalar, some rightScalar =>
    match compareValues operator leftScalar rightScalar with
    | .inl value => .ok (.bool value)
    | .inr message => .failure ⟨.incompatibleType, message, none⟩
  | _, _ =>
    .failure ⟨.incompatibleType, "comparison requires JSON scalars, got " ++ describeType left ++
      " and " ++ describeType right, none⟩

def notBoolean (operator : LogicalOperator) (place : String) (value : JsonValue) :
    Evaluated JsonValue :=
  .failure ⟨.incompatibleType, "logical " ++ operator.text ++ " requires booleans, got " ++
    describeType value ++ place, none⟩

def decisive : LogicalOperator → Bool
  | .and => false
  | .or => true

def joinedRight (operator : LogicalOperator) (left : Bool) (right : JsonValue) :
    Evaluated JsonValue :=
  match right with
  | .bool right => .ok (.bool (if operator = .and then left && right else left || right))
  | right => notBoolean operator " on the right" right

def nodeResult (state : JsonValue) (child : Nat → Outcome) : ExpressionNode → Outcome
  | .literal value => some (.ok value.toValue)
  | .path path => some (readResult state path)
  | .not operand => (child operand).bind fun result => proceed result fun value => negated value
  | .compare operator left right =>
    (child left).bind fun result => proceed result fun leftValue =>
      (child right).bind fun result => proceed result fun rightValue =>
        compared operator leftValue rightValue
  | .logical operator left right =>
    (child left).bind fun result => proceed result fun leftValue =>
      match leftValue with
      | .bool leftValue =>
        if leftValue = decisive operator then some (.ok (.bool leftValue))
        else
          (child right).bind fun result => proceed result fun rightValue =>
            joinedRight operator leftValue rightValue
      | leftValue => notBoolean operator " on the left" leftValue

def rootResult (result : Evaluated JsonValue) : Evaluated Bool :=
  match result with
  | .failure reason => .failure reason
  | .ok (.bool value) => .ok value
  | .ok value =>
    .failure ⟨.incompatibleType, "expression root must be boolean, got " ++ describeType value,
      none⟩

section Equations

variable {nodes : List ExpressionNode} {state : JsonValue} {index : Nat}

theorem evaluateNode_missing (missing : nodes[index]? = none) (depth : Nat) :
    evaluateNode nodes state depth index = some (outOfRange index) := by
  unfold evaluateNode
  simp [missing, outOfRange]

theorem evaluateNode_zero {node : ExpressionNode} (present : nodes[index]? = some node) :
    evaluateNode nodes state 0 index = none := by
  unfold evaluateNode
  simp [present]

theorem evaluateNode_succ {node : ExpressionNode} (present : nodes[index]? = some node)
    (depth : Nat) :
    evaluateNode nodes state (depth + 1) index =
      nodeResult state (evaluateNode nodes state depth) node := by
  rw [evaluateNode]
  simp only [present]
  cases node with
  | literal value => rfl
  | path path =>
    simp only [nodeResult, readResult]
    cases readPath state [] path <;> rfl
  | not operand =>
    simp only [nodeResult]
    cases evaluateNode nodes state depth operand with
    | none => rfl
    | some result =>
      rcases result with value | reason
      · cases value <;> rfl
      · rfl
  | compare operator left right =>
    simp only [nodeResult]
    rcases evaluateNode nodes state depth left with _ | leftValue | reason
    · rfl
    · rcases evaluateNode nodes state depth right with _ | rightValue | reason
      · rfl
      · simp only [proceed, compared, Option.bind_some, Option.bind_eq_bind]
        cases asComparable leftValue with
        | none => rfl
        | some leftScalar =>
          cases asComparable rightValue with
          | none => rfl
          | some rightScalar =>
            simp only
            cases compareValues operator leftScalar rightScalar <;> rfl
      · rfl
    · rfl
  | logical operator left right =>
    simp only [nodeResult]
    rcases evaluateNode nodes state depth left with _ | leftValue | reason
    · rfl
    · cases leftValue with
      | bool leftValue =>
        rcases evaluateNode nodes state depth right with _ | rightValue | reason
        · cases operator <;> cases leftValue <;> rfl
        · cases operator <;> cases leftValue <;> cases rightValue <;> rfl
        · cases operator <;> cases leftValue <;> rfl
      | null => rfl
      | number => rfl
      | string => rfl
      | array => rfl
      | object => rfl
    · rfl

theorem evaluateExpressionCondition_eq (condition : ExpressionCondition) (state : JsonValue) :
    evaluateExpressionCondition condition state =
      (evaluateNode condition.nodes state condition.nodes.length condition.root).map
        rootResult := by
  unfold evaluateExpressionCondition
  cases evaluateNode condition.nodes state condition.nodes.length condition.root with
  | none => rfl
  | some result =>
    rcases result with value | reason
    · cases value <;> rfl
    · rfl

end Equations

variable {reason : EvaluationFailure}

theorem proceed_eq_failure {first : Outcome} {next : JsonValue → Outcome} :
    (first.bind fun result => proceed result next) = some (.failure reason) ↔
      first = some (.failure reason) ∨
        ∃ value, first = some (.ok value) ∧ next value = some (.failure reason) := by
  rcases first with _ | value | other
  · simp
  · simp [proceed]
  · simp [proceed]

theorem negated_failure {value : JsonValue} (failed : negated value = .failure reason) :
    reason.code = .incompatibleType := by
  cases value <;> cases failed <;> rfl

theorem joinedRight_failure {operator : LogicalOperator} {left : Bool} {right : JsonValue}
    (failed : joinedRight operator left right = .failure reason) :
    reason.code = .incompatibleType := by
  cases right <;> cases failed <;> rfl

theorem compared_failure {operator : ComparisonOperator} {left right : JsonValue}
    (failed : compared operator left right = .failure reason) :
    reason.code = .incompatibleType := by
  unfold compared at failed
  cases first : asComparable left with
  | none =>
    rw [first] at failed
    cases failed
    rfl
  | some leftScalar =>
    cases second : asComparable right with
    | none =>
      rw [first, second] at failed
      cases failed
      rfl
    | some rightScalar =>
      rw [first, second] at failed
      simp only at failed
      cases compareResult : compareValues operator leftScalar rightScalar with
      | inl value =>
        rw [compareResult] at failed
        cases failed
      | inr message =>
        rw [compareResult] at failed
        cases failed
        rfl

end Heniek.NodeEvaluation
