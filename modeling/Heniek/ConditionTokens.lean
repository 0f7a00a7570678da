import Heniek.ScriptText

/-!
The tokenizer of condition expressions. Offsets count UTF-16 code units. The loop
over the source is a recursion over its characters, which passes over those that
the last token covers already.
-/

namespace Heniek.ConditionTokens
open ScriptText

inductive TokenKind where
  | identifier | number | string | true | false | null | dot | operator | and | or | not
  | lparen | rparen | «end»
  deriving DecidableEq

/-- The exact source text, except for strings, where it is the decoded value. -/
structure Token where
  kind : TokenKind
  offset : Nat
  text : String
  deriving DecidableEq

structure LexError where
  message : String
  offset : Nat
  deriving DecidableEq

def maxExpressionLength : Nat := 1000

def comparisonOperators : List (List Char) :=
  [['=', '='], ['!', '='], ['<'], ['<', '='], ['>'], ['>', '=']]

instance (pair : List Char) : Decidable (pair ∈ comparisonOperators) :=
  decidable_of_iff (∃ operator ∈ comparisonOperators, operator = pair) (by simp)

def arithmeticCharacters : List Char := ['+', '-', '*', '/', '%']

def valueEndKinds : List TokenKind :=
  [.identifier, .number, .string, .true, .false, .null, .rparen]

/-- Of the tokens so far only the kind of the last one is looked at. -/
def endsValue (last : Option TokenKind) : Bool := last.any fun kind => decide (kind ∈ valueEndKinds)

def isBlank (c : Char) : Bool := decide (c ∈ [' ', '\t', '\n', '\r'])

def isIdentifierStart (c : Char) : Bool := c.isAlpha || c == '_'

def isIdentifierPart (c : Char) : Bool := c.isAlphanum || c == '_'

def width (c : Char) : Nat := if c.toNat < 0x10000 then 1 else 2

/-- The code unit at an index; the first half of a surrogate pair is shown as a replacement. -/
def shown (c : Char) : String := String.singleton (if c.toNat < 0x10000 then c else '\uFFFD')

def unterminated (start : Nat) : LexError := ⟨"Unterminated string literal.", start⟩

def scanString (quote : Char) (start : Nat) :
    (offset : Nat) → List Char → Except LexError (List Char × Nat)
  | _, [] => .error (unterminated start)
  | offset, inner :: rest =>
    if inner = '\\' then
      match rest with
      | [] => .error (unterminated start)
      | escaped :: rest =>
        if escaped ≠ quote ∧ escaped ≠ '\\' then
          .error ⟨"Unsupported escape \"\\" ++ shown escaped ++ "\" — only \\\\ and \\" ++
            shown quote ++ " are recognised inside a string.", offset⟩
        else do
          let (value, count) ← scanString quote start (offset + 2) rest
          .ok (escaped :: value, count + 2)
    else if inner = quote then .ok ([], 1)
    else if inner = '\n' ∨ inner = '\r' then .error (unterminated start)
    else do
      let (value, count) ← scanString quote start (offset + width inner) rest
      .ok (inner :: value, count + 1)

def scanNumber (offset : Nat) (text : List Char) : Except LexError (List Char) :=
  let whole := text.takeWhile Char.isDigit
  match text.dropWhile Char.isDigit with
  | [] => .ok whole
  | c :: after =>
    let fraction := after.takeWhile Char.isDigit
    if c = '.' then
      if fraction = [] then
        .error ⟨"A number must have at least one digit after the decimal point.",
          offset + whole.length⟩
      else .ok (whole ++ '.' :: fraction)
    else .ok whole

def keywordKind (text : List Char) : TokenKind :=
  if text = "true".toList then .true
  else if text = "false".toList then .false
  else if text = "null".toList then .null
  else .identifier

def plain (kind : TokenKind) (offset : Nat) (text : List Char) : Token × Nat :=
  (⟨kind, offset, String.ofList text⟩, text.length)

def nextToken (last : Option TokenKind) (start : Nat) (c : Char) (rest : List Char) :
    Except LexError (Token × Nat) :=
  if c = '(' then .ok (plain .lparen start [c])
  else if c = ')' then .ok (plain .rparen start [c])
  else if c = '.' then .ok (plain .dot start [c])
  else if c = '&' ∨ c = '|' then
    if rest.head? = some c then .ok (plain (if c = '&' then .and else .or) start [c, c])
    else
      .error ⟨"Unsupported operator \"" ++ shown c ++ "\" — use \"&&\" and \"||\".", start⟩
  else if c = '=' ∨ c = '!' ∨ c = '<' ∨ c = '>' then
    let pair := c :: rest.take 1
    if pair ∈ comparisonOperators then .ok (plain .operator start pair)
    else if c = '!' then .ok (plain .not start [c])
    else if c = '=' then .error ⟨"Unsupported operator \"=\" — use \"==\" to compare.", start⟩
    else .ok (plain .operator start [c])
  else if c = '"' ∨ c = '\'' then do
    let (value, count) ← scanString c start (start + 1) rest
    .ok (⟨.string, start, String.ofList value⟩, count + 1)
  else if c ∈ arithmeticCharacters ∧
      ¬ (c = '-' ∧ rest.head?.any Char.isDigit = true ∧ endsValue last = false) then
    .error ⟨"Unsupported operator \"" ++ shown c ++
      "\" — condition expressions compare and combine values, they do not compute them.", start⟩
  else if c = '-' then do
    let text ← scanNumber (start + 1) rest
    .ok (plain .number start (c :: text))
  else if c.isDigit then do
    let text ← scanNumber start (c :: rest)
    .ok (plain .number start text)
  else if isIdentifierStart c then
    let text := c :: rest.takeWhile isIdentifierPart
    .ok (plain (keywordKind text) start text)
  else .error ⟨"Unexpected character \"" ++ shown c ++ "\" in condition.", start⟩

/-- The tokens of the rest of a source, of which so many characters are covered. -/
def lexFrom : (covered : Nat) → (last : Option TokenKind) → (offset : Nat) → List Char →
    Except LexError (List Token)
  | _, _, offset, [] => .ok [⟨TokenKind.end, offset, ""⟩]
  | covered + 1, last, offset, c :: rest => lexFrom covered last (offset + width c) rest
  | 0, last, offset, c :: rest =>
    if isBlank c then lexFrom 0 last (offset + 1) rest
    else do
      let (token, count) ← nextToken last offset c rest
      let tokens ← lexFrom (count - 1) (some token.kind) (offset + width c) rest
      .ok (token :: tokens)

def lexExpression (source : String) : Except LexError (List Token) :=
  if maxExpressionLength < (codeUnits source).length then
    .error ⟨"Condition expression exceeds the maximum supported length of " ++
      toString maxExpressionLength ++ " characters.", maxExpressionLength⟩
  else lexFrom 0 none 0 source.toList

example : (lexExpression "a>-1.5").toOption.map (List.map Token.kind) =
    some [.identifier, .operator, .number, TokenKind.end] := by decide +kernel

end Heniek.ConditionTokens
