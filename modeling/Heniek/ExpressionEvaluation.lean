import Heniek.PipelineVocabulary
import Mathlib.Data.Rat.Defs
import Mathlib.Algebra.Order.Ring.Rat

/-!
Evaluation of a compiled condition expression against canonical JSON state.
Nodes refer to each other by index, so a cyclic array makes the source recurse
until the call stack overflows. On a path longer than the array an index
repeats, and evaluation of an index depends on nothing else: the depth bound
`nodes.length` is exact, and running past it is the overflow.
-/

namespace Heniek.ExpressionEvaluation

/-- A binary64 value up to what comparison sees: `Object.is` separates the zeros. -/
inductive JsonNumber where
  | finite (value : ℚ)
  | negativeZero
  | notFinite (negative : Bool)
  | nan
  deriving DecidableEq

def JsonNumber.finite? : JsonNumber → Option ℚ
  | .finite value => some value
  | .negativeZero => some 0
  | _ => none

inductive JsonValue where
  | null
  | bool (value : Bool)
  | number (value : JsonNumber)
  | string (value : String)
  | array (items : List JsonValue)
  | object (members : List (String × JsonValue))

inductive JsonScalar where
  | null
  | bool (value : Bool)
  | number (value : JsonNumber)
  | string (value : String)
  deriving DecidableEq

inductive ComparisonOperator where
  | eq | ne | lt | lte | gt | gte
  deriving DecidableEq

inductive LogicalOperator where
  | and | or
  deriving DecidableEq

def LogicalOperator.text : LogicalOperator → String
  | .and => "and"
  | .or => "or"

inductive ExpressionNode where
  | literal (value : JsonScalar)
  | path (path : List String)
  | not (operand : Nat)
  | compare (operator : ComparisonOperator) (left right : Nat)
  | logical (operator : LogicalOperator) (left right : Nat)

structure ExpressionCondition where
  nodes : List ExpressionNode
  root : Nat

inductive EvaluationCode where
  | missingPath | incompatibleType | invalidExpression
  deriving DecidableEq

def EvaluationCode.text : EvaluationCode → String
  | .missingPath => "missing_path"
  | .incompatibleType => "incompatible_type"
  | .invalidExpression => "invalid_expression"

structure EvaluationFailure where
  code : EvaluationCode
  message : String
  path : Option (List String) := none

inductive Evaluated (α : Type) where
  | ok (value : α)
  | failure (reason : EvaluationFailure)

def JsonScalar.toValue : JsonScalar → JsonValue
  | .null => .null
  | .bool value => .bool value
  | .number value => .number value
  | .string value => .string value

def asComparable : JsonValue → Option JsonScalar
  | .null => some .null
  | .bool value => some (.bool value)
  | .number value => some (.number value)
  | .string value => some (.string value)
  | .array _ | .object _ => none

/-- JavaScript's `typeof`. -/
def typeOf : JsonScalar → String
  | .null => "object"
  | .bool _ => "boolean"
  | .number _ => "number"
  | .string _ => "string"

def describeType : JsonValue → String
  | .null => "null"
  | .bool _ => "boolean"
  | .number _ => "number"
  | .string _ => "string"
  | .array _ => "array"
  | .object _ => "object"

/-- The value at a path, or the shortest prefix of the path that is missing. -/
def readPath (state : JsonValue) : (seen path : List String) → JsonValue ⊕ List String
  | _, [] => .inl state
  | seen, segment :: rest =>
    match state with
    | .array items =>
      if segment = "length" then
        readPath (.number (.finite items.length)) (seen ++ [segment]) rest
      else .inr (seen ++ [segment])
    | .object members =>
      match members.find? fun member => member.1 = segment with
      | some member => readPath member.2 (seen ++ [segment]) rest
      | none => .inr (seen ++ [segment])
    | _ => .inr (seen ++ [segment])

def compareOrdered (operator : ComparisonOperator) (left right : ℚ) : Bool :=
  match operator with
  | .eq => decide (left = right)
  | .ne => decide (left ≠ right)
  | .lt => decide (left < right)
  | .lte => decide (left ≤ right)
  | .gt => decide (right < left)
  | .gte => decide (right ≤ left)

def compareValues (operator : ComparisonOperator) (left right : JsonScalar) : Bool ⊕ String :=
  match operator with
  | .eq => .inl (decide (left = right))
  | .ne => .inl (decide (left ≠ right))
  | operator =>
    let refused := "ordered comparison requires finite numbers, got " ++ typeOf left ++ " and " ++
      typeOf right
    match left, right with
    | .number x, .number y =>
      match x.finite?, y.finite? with
      | some p, some q => .inl (compareOrdered operator p q)
      | _, _ => .inr refused
    | _, _ => .inr refused

/-- One node; `none` is the overflow of the call stack. -/
def evaluateNode (nodes : List ExpressionNode) (state : JsonValue) :
    (depth index : Nat) → Option (Evaluated JsonValue)
  | depth, index =>
    match nodes[index]? with
    | none =>
      some (.failure ⟨.invalidExpression,
        "expression node index " ++ toString index ++ " is out of range", none⟩)
    | some node =>
      match depth with
      | 0 => none
      | depth + 1 =>
        match node with
        | .literal value => some (.ok value.toValue)
        | .path path =>
          match readPath state [] path with
          | .inl value => some (.ok value)
          | .inr missing =>
            some (.failure ⟨.missingPath,
              "missing state path " ++ ".".intercalate missing, some missing⟩)
        | .not operand => do
            match ← evaluateNode nodes state depth operand with
            | .failure reason => some (.failure reason)
            | .ok (.bool value) => some (.ok (.bool !value))
            | .ok value =>
              some (.failure ⟨.incompatibleType,
                "unary ! requires a boolean, got " ++ describeType value, none⟩)
        | .compare operator left right => do
            match ← evaluateNode nodes state depth left with
            | .failure reason => some (.failure reason)
            | .ok leftValue =>
              match ← evaluateNode nodes state depth right with
              | .failure reason => some (.failure reason)
              | .ok rightValue =>
                match asComparable leftValue, asComparable rightValue with
                | some leftScalar, some rightScalar =>
                  match compareValues operator leftScalar rightScalar with
                  | .inl value => some (.ok (.bool value))
                  | .inr message =>
                    some (.failure ⟨.incompatibleType, message, none⟩)
                | _, _ =>
                  some (.failure ⟨.incompatibleType,
                    "comparison requires JSON scalars, got " ++
                      describeType leftValue ++ " and " ++ describeType rightValue,
                    none⟩)
        | .logical operator left right => do
            match ← evaluateNode nodes state depth left with
            | .failure reason => some (.failure reason)
            | .ok (.bool leftValue) =>
              if operator = .and ∧ leftValue = false then some (.ok (.bool false))
              else if operator = .or ∧ leftValue = true then some (.ok (.bool true))
              else
                match ← evaluateNode nodes state depth right with
                | .failure reason => some (.failure reason)
                | .ok (.bool rightValue) =>
                  some (.ok (.bool (if operator = .and then leftValue && rightValue
                    else leftValue || rightValue)))
                | .ok rightValue =>
                  some (.failure ⟨.incompatibleType,
                    "logical " ++ operator.text ++ " requires booleans, got " ++
                      describeType rightValue ++ " on the right", none⟩)
            | .ok leftValue =>
              some (.failure ⟨.incompatibleType,
                "logical " ++ operator.text ++ " requires booleans, got " ++
                  describeType leftValue ++ " on the left", none⟩)

def evaluateExpressionCondition (condition : ExpressionCondition) (state : JsonValue) :
    Option (Evaluated Bool) := do
  match ← evaluateNode condition.nodes state condition.nodes.length condition.root with
  | .failure reason => some (.failure reason)
  | .ok (.bool value) => some (.ok value)
  | .ok value =>
    some (.failure ⟨.incompatibleType,
      "expression root must be boolean, got " ++ describeType value, none⟩)

end Heniek.ExpressionEvaluation
