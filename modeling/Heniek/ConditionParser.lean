import Heniek.ConditionTokens
import Heniek.RpcCodec

/-!
The compiler of condition expressions: recursive descent over the tokens into a flat
array of nodes. The tokens that are not consumed yet stand for the position, and the
parenthesised expressions that may still be opened for the depth. A loop runs at most
as often as there are tokens left.
-/

namespace Heniek.ConditionParser
open ConditionTokens ExpressionEvaluation

/-- The ceilings on the compiled shape. -/
structure Limits where
  nodes : Nat
  segments : Nat

def limits : Limits := ⟨128, 8⟩

def maxExpressionDepth : Nat := 16

def comparisonOperator? (text : String) : Option ComparisonOperator :=
  if text = "==" then some .eq
  else if text = "!=" then some .ne
  else if text = "<" then some .lt
  else if text = "<=" then some .lte
  else if text = ">" then some .gt
  else if text = ">=" then some .gte
  else none

def segmentKinds : List TokenKind := [.identifier, .true, .false, .null]

def numberOf (text : String) : JsonNumber :=
  let negative := decide (text.toList.head? = some '-')
  let digits := if negative then text.toList.drop 1 else text.toList
  let whole := digits.takeWhile Char.isDigit
  let fraction := (digits.dropWhile Char.isDigit).drop 1
  RpcCodec.readNumeral ⟨negative, JsonSyntax.digitsValue (whole ++ fraction), -fraction.length⟩

structure Parsing where
  tokens : List Token
  nodes : List ExpressionNode

abbrev Parser := Parsing → Except LexError (Nat × Parsing)

def incomplete : LexError := ⟨"Condition expression is incomplete.", 0⟩

def peek (state : Parsing) : Except LexError Token :=
  match state.tokens with
  | [] => .error incomplete
  | token :: _ => .ok token

/-- The end is never consumed. -/
def advance (state : Parsing) : Parsing :=
  match state.tokens with
  | [] => state
  | token :: rest => if token.kind = TokenKind.end then state else { state with tokens := rest }

section Parser

variable (limits : Limits)

def emit (node : ExpressionNode) : Parser := fun state =>
  if limits.nodes ≤ state.nodes.length then do
    let token ← peek state
    .error ⟨"Condition expression exceeds the maximum supported size of " ++
      toString limits.nodes ++ " nodes.", token.offset⟩
  else .ok (state.nodes.length, { state with nodes := state.nodes ++ [node] })

/-- The segments behind the ones that are read, and the tokens behind them. -/
def pathSegments : (segments : List String) → List Token →
    Except LexError (List String × List Token)
  | _, [] => .error incomplete
  | segments, [token] => if token.kind = .dot then .error incomplete else .ok (segments, [token])
  | segments, dot :: segment :: rest =>
    if dot.kind = .dot then
      if segment.kind ∉ segmentKinds then
        .error
          ⟨"A state reference segment must be a name, for example \x60verify.blockingFindings\x60.",
          if segment.kind = TokenKind.end then dot.offset else segment.offset⟩
      else if limits.segments < segments.length + 1 then
        .error ⟨"A state reference may have at most " ++ toString limits.segments ++ " segments.",
          segment.offset⟩
      else pathSegments (segments ++ [segment.text]) rest
    else .ok (segments, dot :: segment :: rest)

def parsePath : Parser := fun state => do
  let first ← peek state
  let (segments, rest) ← pathSegments limits [first.text] (advance state).tokens
  emit limits (.path segments) { state with tokens := rest }

def parsePrimary (inner : Parser) : Parser := fun state => do
  let token ← peek state
  match token.kind with
  | .lparen => do
      let (root, state) ← inner (advance state)
      let closing ← peek state
      if closing.kind ≠ .rparen then .error ⟨"Missing \")\".", closing.offset⟩
      else .ok (root, advance state)
  | .number =>
    if (numberOf token.text).finite? = none then
      .error ⟨"\"" ++ token.text ++ "\" is not a finite number.", token.offset⟩
    else emit limits (.literal (.number (numberOf token.text))) (advance state)
  | .string => emit limits (.literal (.string token.text)) (advance state)
  | .true =>
    if (state.tokens[1]?).any (fun next => decide (next.kind = .dot)) then parsePath limits state
    else emit limits (.literal (.bool true)) (advance state)
  | .false =>
    if (state.tokens[1]?).any (fun next => decide (next.kind = .dot)) then parsePath limits state
    else emit limits (.literal (.bool false)) (advance state)
  | .null =>
    if (state.tokens[1]?).any (fun next => decide (next.kind = .dot)) then parsePath limits state
    else emit limits (.literal .null) (advance state)
  | .identifier => parsePath limits state
  | TokenKind.end => .error ⟨"Condition expression is incomplete.", token.offset⟩
  | _ => .error ⟨"Unexpected \"" ++ token.text ++ "\" in condition.", token.offset⟩

def parseUnary (inner : Parser) (nodes : List ExpressionNode) :
    List Token → Except LexError (Nat × Parsing)
  | [] => .error incomplete
  | token :: rest =>
    if token.kind = .not then do
      let (operand, state) ← parseUnary inner nodes rest
      emit limits (.not operand) state
    else parsePrimary limits inner ⟨token :: rest, nodes⟩

def parseComparison (inner : Parser) : Parser := fun state => do
  let (left, state) ← parseUnary limits inner state.nodes state.tokens
  let token ← peek state
  if token.kind ≠ .operator then .ok (left, state)
  else
    match comparisonOperator? token.text with
    | none => .error ⟨"Unsupported comparison \"" ++ token.text ++ "\".", token.offset⟩
    | some operator => do
        let (right, state) ← parseUnary limits inner state.nodes (advance state).tokens
        let next ← peek state
        if next.kind = .operator then
          .error
            ⟨"Comparisons cannot be chained — write \x60a < b && b < c\x60 " ++
              "instead of \x60a < b < c\x60.",
            next.offset⟩
        else emit limits (.compare operator left right) state

def parseRest (operand : Parser) (kind : TokenKind) (operator : LogicalOperator) :
    (turns : Nat) → (left : Nat) → Parser
  | 0, _, _ => .error incomplete
  | turns + 1, left, state => do
      let token ← peek state
      if token.kind ≠ kind then .ok (left, state)
      else
        let (right, state) ← operand (advance state)
        let (joined, state) ← emit limits (.logical operator left right) state
        parseRest operand kind operator turns joined state

def parseLogical (operand : Parser) (kind : TokenKind) (operator : LogicalOperator) : Parser :=
  fun state => do
    let (left, state) ← operand state
    parseRest limits operand kind operator state.tokens.length left state

def parseAnd (inner : Parser) : Parser :=
  parseLogical limits (parseComparison limits inner) .and .and

def parseOr (inner : Parser) : Parser := parseLogical limits (parseAnd limits inner) .or .or

/-- An expression in which so many levels are left, its own one included. -/
def parseExpression : (levels : Nat) → Parser
  | 0, state => do
      let token ← peek state
      .error ⟨"Condition nesting exceeds the maximum supported depth of " ++
        toString maxExpressionDepth ++ ".", token.offset⟩
  | levels + 1, state => parseOr limits (parseExpression levels) state

end Parser

def expectEnd (state : Parsing) : Except LexError Unit := do
  let token ← peek state
  if token.kind ≠ TokenKind.end then
    .error ⟨if token.kind = .rparen then "Unmatched \")\"."
      else "Unexpected \"" ++ token.text ++ "\" after the condition.", token.offset⟩
  else .ok ()

def parseConditionExpression (source : String) : Except LexError ExpressionCondition := do
  let tokens ← lexExpression source
  let (root, state) ← parseExpression limits (maxExpressionDepth + 1) ⟨tokens, []⟩
  expectEnd state
  .ok ⟨state.nodes, root⟩

example : (parseConditionExpression "a.b > 1 && !(null.c == 'x')").toOption.map
    (fun condition => (condition.nodes.length, condition.root)) = some (8, 7) := by decide +kernel

end Heniek.ConditionParser
