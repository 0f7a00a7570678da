import Heniek.ConditionParser
import Heniek.FallibleRun

/-!
The documented grammar of conditions over the kinds and texts of the tokens. A derivation
carries the tree that precedence and left associativity give it, and the number of
parentheses it may still open; the compiled array is the tree with its children first.
-/

namespace Heniek.ConditionGrammar
open ConditionTokens ConditionParser ExpressionEvaluation

/-- A token without its place. -/
structure Word where
  kind : TokenKind
  text : String
  deriving DecidableEq

def word (token : Token) : Word := ⟨token.kind, token.text⟩

inductive Tree where
  | literal (value : JsonScalar)
  | path (segments : List String)
  | not (operand : Tree)
  | compare (operator : ComparisonOperator) (left right : Tree)
  | logical (operator : LogicalOperator) (left right : Tree)

def Tree.size : Tree → Nat
  | .literal _ => 1
  | .path _ => 1
  | .not operand => operand.size + 1
  | .compare _ left right => left.size + right.size + 1
  | .logical _ left right => left.size + right.size + 1

def Tree.root (tree : Tree) (start : Nat) : Nat := start + tree.size - 1

def Tree.compile : Tree → (start : Nat) → List ExpressionNode
  | .literal value, _ => [.literal value]
  | .path segments, _ => [.path segments]
  | .not operand, start => operand.compile start ++ [.not (operand.root start)]
  | .compare operator left right, start =>
    left.compile start ++ (right.compile (start + left.size) ++
      [.compare operator (left.root start) (right.root (start + left.size))])
  | .logical operator left right, start =>
    left.compile start ++ (right.compile (start + left.size) ++
      [.logical operator (left.root start) (right.root (start + left.size))])

def finiteScalar : JsonScalar → Bool
  | .number value => value.finite?.isSome
  | _ => true

/-- Paths of so many segments at most, and numbers that are finite. -/
def Tree.Within (most : Nat) : Tree → Prop
  | .literal value => finiteScalar value = true
  | .path segments => segments.length ≤ most
  | .not operand => operand.Within most
  | .compare _ left right => left.Within most ∧ right.Within most
  | .logical _ left right => left.Within most ∧ right.Within most

theorem Tree.size_pos (tree : Tree) : 0 < tree.size := by
  cases tree <;> simp [Tree.size]

@[simp] theorem Tree.length_compile (tree : Tree) (start : Nat) :
    (tree.compile start).length = tree.size := by
  induction tree generalizing start with
  | literal value => rfl
  | path segments => rfl
  | not operand ih => simp [Tree.compile, Tree.size, ih]
  | compare operator left right first second =>
    simp [Tree.compile, Tree.size, first, second, Nat.add_assoc]
  | logical operator left right first second =>
    simp [Tree.compile, Tree.size, first, second, Nat.add_assoc]

@[simp] theorem Tree.root_literal (value : JsonScalar) (start : Nat) :
    (Tree.literal value).root start = start := rfl

@[simp] theorem Tree.root_path (segments : List String) (start : Nat) :
    (Tree.path segments).root start = start := rfl

@[simp] theorem Tree.root_not (operand : Tree) (start : Nat) :
    (Tree.not operand).root start = start + operand.size := rfl

@[simp] theorem Tree.root_compare (operator : ComparisonOperator) (left right : Tree)
    (start : Nat) :
    (Tree.compare operator left right).root start = start + (left.size + right.size) := rfl

@[simp] theorem Tree.root_logical (operator : LogicalOperator) (left right : Tree) (start : Nat) :
    (Tree.logical operator left right).root start = start + (left.size + right.size) := rfl

inductive Level where
  | logical (operator : LogicalOperator)
  | comparison | unary | primary
  deriving DecidableEq

/-- `or` joins what `and` joins, and `and` joins comparisons. -/
def operandLevel : LogicalOperator → Level
  | .or => .logical .and
  | .and => .comparison

def kindOf : LogicalOperator → TokenKind
  | .or => .or
  | .and => .and

def keywordKinds : List TokenKind := [.true, .false, .null]

/-- The words of the segments behind the first one, each with the dot before it. -/
def dotted (pairs : List (Word × Word)) : List Word := pairs.flatMap fun pair => [pair.1, pair.2]

inductive Derives : (depth : Nat) → Level → List Word → Tree → Prop
  | one {depth : Nat} {operator : LogicalOperator} {words : List Word} {tree : Tree}
      (operand : Derives depth (operandLevel operator) words tree) :
      Derives depth (.logical operator) words tree
  | more {depth : Nat} {operator : LogicalOperator} {left right : List Word} {sign : Word}
      {leftTree rightTree : Tree} (first : Derives depth (.logical operator) left leftTree)
      (kind : sign.kind = kindOf operator)
      (second : Derives depth (operandLevel operator) right rightTree) :
      Derives depth (.logical operator) (left ++ sign :: right)
        (.logical operator leftTree rightTree)
  | single {depth : Nat} {words : List Word} {tree : Tree}
      (operand : Derives depth .unary words tree) : Derives depth .comparison words tree
  | compared {depth : Nat} {left right : List Word} {sign : Word} {leftTree rightTree : Tree}
      {operator : ComparisonOperator} (first : Derives depth .unary left leftTree)
      (kind : sign.kind = .operator) (named : comparisonOperator? sign.text = some operator)
      (second : Derives depth .unary right rightTree) :
      Derives depth .comparison (left ++ sign :: right) (.compare operator leftTree rightTree)
  | not {depth : Nat} {sign : Word} {words : List Word} {tree : Tree} (kind : sign.kind = .not)
      (operand : Derives depth .unary words tree) : Derives depth .unary (sign :: words) (.not tree)
  | plain {depth : Nat} {words : List Word} {tree : Tree}
      (operand : Derives depth .primary words tree) : Derives depth .unary words tree
  | parenthesised {depth : Nat} {opening closing : Word} {words : List Word} {tree : Tree}
      (opens : opening.kind = .lparen) (inner : Derives depth (.logical .or) words tree)
      (closes : closing.kind = .rparen) :
      Derives (depth + 1) .primary (opening :: (words ++ [closing])) tree
  | number {depth : Nat} {sign : Word} (kind : sign.kind = .number) :
      Derives depth .primary [sign] (.literal (.number (numberOf sign.text)))
  | string {depth : Nat} {sign : Word} (kind : sign.kind = .string) :
      Derives depth .primary [sign] (.literal (.string sign.text))
  | true {depth : Nat} {sign : Word} (kind : sign.kind = .true) :
      Derives depth .primary [sign] (.literal (.bool true))
  | false {depth : Nat} {sign : Word} (kind : sign.kind = .false) :
      Derives depth .primary [sign] (.literal (.bool false))
  | null {depth : Nat} {sign : Word} (kind : sign.kind = .null) :
      Derives depth .primary [sign] (.literal .null)
  | path {depth : Nat} {first : Word} {pairs : List (Word × Word)}
      (named : first.kind = .identifier ∨ first.kind ∈ keywordKinds ∧ pairs ≠ [])
      (segments : ∀ pair ∈ pairs, pair.1.kind = .dot ∧ pair.2.kind ∈ segmentKinds) :
      Derives depth .primary (first :: dotted pairs)
        (.path (first.text :: pairs.map fun pair => pair.2.text))

/-- The function that parses a level, with so many parentheses left to open. -/
def parserAt (limits : Limits) (depth : Nat) : Level → Parser
  | .logical .or => parseOr limits (parseExpression limits depth)
  | .logical .and => parseAnd limits (parseExpression limits depth)
  | .comparison => parseComparison limits (parseExpression limits depth)
  | .unary => fun state => parseUnary limits (parseExpression limits depth) state.nodes state.tokens
  | .primary => parsePrimary limits (parseExpression limits depth)

theorem parserAt_logical (limits : Limits) (depth : Nat) (operator : LogicalOperator) :
    parserAt limits depth (.logical operator) =
      parseLogical limits (parserAt limits depth (operandLevel operator)) (kindOf operator)
        operator := by
  cases operator <;> rfl

end Heniek.ConditionGrammar
