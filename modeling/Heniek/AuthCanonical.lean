import Heniek.RpcCodec

/-!
The scanner of `auth/canonical.ts`: it finds the member `params.auth` in the text
of a request, cuts it out, and looks for repeated names, all on the text itself.

An index into the text is a number and `text.drop index` is what stands there. The
loops carry fuel for the steps they can make on a text of that length.
-/

namespace Heniek.AuthCanonical
open JsonSyntax ScriptText RpcCodec

structure Span where
  start : Nat
  stop : Nat
  deriving DecidableEq

inductive ScanError where
  | unterminatedString
  | unexpectedCharacter (index : Nat)
  | unterminatedContainer
  | expectedColon (index : Nat)
  | unreadableName
  | exhausted
  deriving DecidableEq

abbrev Scan (α : Type) := Except ScanError α

def charAt (text : List Char) (index : Nat) : Option Char := (text.drop index).head?

def skipWhitespace (text : List Char) (index : Nat) : Nat :=
  index + ((text.drop index).takeWhile isBlank).length

/-- The index just past the closing quote; the first text stands at the index. -/
def stringEnd : List Char → Nat → Scan Nat
  | [], _ => .error .unterminatedString
  | [c], index => if c = '"' then .ok (index + 1) else .error .unterminatedString
  | c :: escaped :: rest, index =>
    if c = '\\' then stringEnd rest (index + 2)
    else if c = '"' then .ok (index + 1)
    else stringEnd (escaped :: rest) (index + 1)

def endOfString (text : List Char) (index : Nat) : Scan Nat :=
  stringEnd (text.drop (index + 1)) (index + 1)

/-- The index behind the colon that has to stand after the blanks. -/
def pastColon (text : List Char) (index : Nat) : Scan Nat :=
  let i := skipWhitespace text index
  if charAt text i = some ':' then .ok (i + 1) else .error (.expectedColon i)

/-- In an object the name of a member and its colon come before its value. -/
def pastName (text : List Char) : Kind → Nat → Scan Nat
  | .object, index => (endOfString text index).bind (pastColon text)
  | .array, index => .ok index

/-- A literal ends before the first delimiter, which are the characters no word goes on with. -/
def endOfLiteral (text : List Char) (index : Nat) : Scan Nat :=
  let stop := index + ((text.drop index).takeWhile wordChar).length
  if stop = index then .error (.unexpectedCharacter index) else .ok stop

def scanFuel (text : List Char) : Nat := 2 * text.length + 2

mutual

def endOfValueWith : Nat → List Char → Nat → Scan Nat
  | 0, _, _ => .error .exhausted
  | fuel + 1, text, index =>
    let i := skipWhitespace text index
    if charAt text i = some '"' then endOfString text i
    else if charAt text i = some '\x7b' then containerEnd fuel text .object (i + 1)
    else if charAt text i = some '[' then containerEnd fuel text .array (i + 1)
    else endOfLiteral text i

def containerEnd : Nat → List Char → Kind → Nat → Scan Nat
  | 0, _, _, _ => .error .exhausted
  | fuel + 1, text, kind, index =>
    let i := skipWhitespace text index
    match charAt text i with
    | none => .error .unterminatedContainer
    | some c =>
      if c = kind.closing then .ok (i + 1)
      else if c = ',' then containerEnd fuel text kind (i + 1)
      else do
        let valueStart ← pastName text kind i
        let valueEnd ← endOfValueWith fuel text valueStart
        containerEnd fuel text kind valueEnd

end

def endOfValue (text : List Char) (index : Nat) : Scan Nat :=
  endOfValueWith (scanFuel text) text index

/-- `JSON.parse` of the name between the indices; a text that ends with a quote reads as a string.
-/
def readName (text : List Char) (start stop : Nat) : Scan (List Nat) :=
  match parseLine ((text.take stop).drop start) with
  | some (.string units) => .ok units
  | _ => .error .unreadableName

structure Member where
  name : List Nat
  span : Span
  valueStart : Nat
  deriving DecidableEq

def scanMember (text : List Char) (index : Nat) : Scan Member := do
  let keyEnd ← endOfString text index
  let name ← readName text index keyEnd
  let colon ← pastColon text keyEnd
  let valueStart := skipWhitespace text colon
  let valueEnd ← endOfValue text valueStart
  .ok ⟨name, ⟨index, valueEnd⟩, valueStart⟩

def findMemberFrom : Nat → List Char → List Nat → Nat → Scan (Option Member)
  | 0, _, _, _ => .error .exhausted
  | fuel + 1, text, key, index =>
    let i := skipWhitespace text index
    match charAt text i with
    | none => .ok none
    | some c =>
      if c = '\x7d' then .ok none
      else if c = ',' then findMemberFrom fuel text key (i + 1)
      else do
        let member ← scanMember text i
        if member.name = key then .ok (some member)
        else findMemberFrom fuel text key member.span.stop

def findMember (text : List Char) (objectStart : Nat) (key : String) : Scan (Option Member) :=
  if charAt text objectStart ≠ some '\x7b' then .ok none
  else findMemberFrom (scanFuel text) text (codeUnits key) (objectStart + 1)

def removeMember (text : List Char) (span : Span) : List Char :=
  match (text.take span.start).reverse.dropWhile isBlank with
  | ',' :: kept => kept.reverse ++ text.drop span.stop
  | _ =>
    let following := skipWhitespace text span.stop
    if charAt text following = some ',' then
      text.take span.start ++ text.drop (following + 1)
    else text.take span.start ++ text.drop span.stop

def locateParamsAuth (line : List Char) : Scan (Option Member) := do
  let rootStart := skipWhitespace line 0
  if charAt line rootStart ≠ some '\x7b' then .ok none
  else
    match ← findMember line rootStart "params" with
    | none => .ok none
    | some params =>
      if charAt line params.valueStart ≠ some '\x7b' then .ok none
      else findMember line params.valueStart "auth"

def canonicaliseRequest (line : List Char) : Scan (Option (List Char)) :=
  (locateParamsAuth line).map fun auth => auth.map fun member => removeMember line member.span

def extractAuthValueText (line : List Char) : Scan (Option (List Char)) :=
  (locateParamsAuth line).map fun auth =>
    auth.map fun member => (line.take member.span.stop).drop member.valueStart

instance lawfulCodeUnits : LawfulBEq (List Nat) := inferInstance

mutual

def valueHasDuplicateKey : Nat → List Char → Nat → Scan Bool
  | 0, _, _ => .error .exhausted
  | fuel + 1, text, index =>
    let i := skipWhitespace text index
    if charAt text i = some '\x7b' then objectHasDuplicateKey fuel text [] (i + 1)
    else if charAt text i = some '[' then arrayHasDuplicateKey fuel text (i + 1)
    else .ok false

def objectHasDuplicateKey : Nat → List Char → List (List Nat) → Nat → Scan Bool
  | 0, _, _, _ => .error .exhausted
  | fuel + 1, text, seen, index =>
    let i := skipWhitespace text index
    match charAt text i with
    | none => .error .unterminatedContainer
    | some c =>
      if c = '\x7d' then .ok false
      else if c = ',' then objectHasDuplicateKey fuel text seen (i + 1)
      else do
        let keyEnd ← endOfString text i
        let name ← readName text i keyEnd
        if name ∈ seen then .ok true
        else
          let colon ← pastColon text keyEnd
          let valueStart := skipWhitespace text colon
          if ← valueHasDuplicateKey fuel text valueStart then .ok true
          else
            let valueEnd ← endOfValue text valueStart
            objectHasDuplicateKey fuel text (name :: seen) valueEnd

def arrayHasDuplicateKey : Nat → List Char → Nat → Scan Bool
  | 0, _, _ => .error .exhausted
  | fuel + 1, text, index =>
    let i := skipWhitespace text index
    match charAt text i with
    | none => .error .unterminatedContainer
    | some c =>
      if c = ']' then .ok false
      else if c = ',' then arrayHasDuplicateKey fuel text (i + 1)
      else do
        if ← valueHasDuplicateKey fuel text i then .ok true
        else
          let valueEnd ← endOfValue text i
          arrayHasDuplicateKey fuel text valueEnd

end

def hasDuplicateKey (line : List Char) : Scan Bool :=
  valueHasDuplicateKey (scanFuel line) line (skipWhitespace line 0)

end Heniek.AuthCanonical
