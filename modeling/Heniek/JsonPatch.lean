import Heniek.CanonicalJson

/-!
JSON Patch on task revision documents. A name in a pointer is looked up among the own
members of an object; the members every object inherits are left out.
-/

namespace Heniek.JsonPatch
open ExpressionEvaluation CanonicalState CanonicalJson

inductive JsonPatchOperation where
  | add (path : String) (value : JsonValue)
  | remove (path : String)
  | replace (path : String) (value : JsonValue)
  | move (source path : String)
  | copy (source path : String)
  | test (path : String) (value : JsonValue)

def unescapeToken : List Char → Except String (List Char)
  | [] => .ok []
  | '~' :: '0' :: rest => (unescapeToken rest).map ('~' :: ·)
  | '~' :: '1' :: rest => (unescapeToken rest).map ('/' :: ·)
  | '~' :: _ => .error "invalid JSON Pointer escape"
  | c :: rest => (unescapeToken rest).map (c :: ·)

def tokens (pointer : String) : Except String (List String) :=
  match pointer.toList with
  | [] => .ok []
  | '/' :: rest => (rest.splitOn '/').mapM fun token => (unescapeToken token).map String.ofList
  | _ => .error "invalid JSON Pointer"

def decimal (digits : List Char) : Nat :=
  digits.foldl (fun n c => 10 * n + (c.toNat - '0'.toNat)) 0

def maxSafeInteger : Nat := 2 ^ 53 - 1

def arrayIndex (token : String) (length : Nat) (allowEnd : Bool) : Except String Nat :=
  let digits := token.toList
  if allowEnd = true ∧ token = "-" then .ok length
  else if digits = [] ∨ digits.all Char.isDigit = false ∨
      (digits.head? = some '0' ∧ digits ≠ ['0']) then
    .error "invalid array index"
  else if maxSafeInteger < decimal digits ∨ length + allowEnd.toNat ≤ decimal digits then
    .error "array index is out of bounds"
  else .ok (decimal digits)

def missing (path : String) : String := "JSON Pointer does not exist: " ++ path

def descend (path : String) : JsonValue → List String → Except String JsonValue
  | value, [] => .ok value
  | .array items, part :: rest => do
      let index ← arrayIndex part items.length false
      match items[index]? with
      | some item => descend path item rest
      | none => .error (missing path)
  | .object members, part :: rest =>
    match property? members part with
    | some value => descend path value rest
    | none => .error (missing path)
  | _, _ :: _ => .error (missing path)

def valueOf (root : JsonValue) (path : String) : Except String JsonValue := do
  descend path root (← tokens path)

def editAt {α : Type} (path : String) (edit : JsonValue → Except String (α × JsonValue)) :
    JsonValue → List String → Except String (α × JsonValue)
  | container, [] => edit container
  | .array items, part :: rest => do
      let index ← arrayIndex part items.length false
      match items[index]? with
      | some item => do
          let edited ← editAt path edit item rest
          .ok (edited.1, .array (items.set index edited.2))
      | none => .error (missing path)
  | .object members, part :: rest =>
    match property? members part with
    | some value => do
        let edited ← editAt path edit value rest
        .ok (edited.1, .object (defineProperty members part edited.2))
    | none => .error (missing path)
  | _, _ :: _ => .error (missing path)

def editContainer {α : Type} (root : JsonValue) (path : String)
    (edit : (key : String) → JsonValue → Except String (α × JsonValue)) :
    Except String (α × JsonValue) := do
  let parts ← tokens path
  match parts.getLast? with
  | none => .error "the document root has no parent"
  | some key => editAt path (edit key) root parts.dropLast

def deleteProperty (members : Members) (key : String) : Members :=
  members.filter fun member => member.1 ≠ key

def removeMember (path key : String) : JsonValue → Except String (JsonValue × JsonValue)
  | .array items => do
      let index ← arrayIndex key items.length false
      match items[index]? with
      | some item => .ok (item, .array (items.eraseIdx index))
      | none => .error (missing path)
  | .object members =>
    match property? members key with
    | some value => .ok (value, .object (deleteProperty members key))
    | none => .error (missing path)
  | _ => .error (missing path)

def remove (root : JsonValue) (path : String) : Except String (JsonValue × JsonValue) :=
  if path = "" then .error "task revision patches cannot remove the root"
  else editContainer root path (removeMember path)

def addMember (path key : String) (value : JsonValue) : JsonValue → Except String (Unit × JsonValue)
  | .array items => do
      let index ← arrayIndex key items.length true
      .ok ((), .array (items.insertIdx index value))
  | .object members => .ok ((), .object (defineProperty members key value))
  | _ => .error ("JSON Pointer parent is not a container: " ++ path)

def add (root : JsonValue) (path : String) (value : JsonValue) : Except String JsonValue :=
  if path = "" then .ok value
  else (editContainer root path fun key => addMember path key value).map Prod.snd

section Text

variable [NumberText]

def applyOperation (result : JsonValue) : JsonPatchOperation → Except String JsonValue
  | .add path value => add result path value
  | .remove path => (remove result path).map Prod.snd
  | .replace path value =>
    if path = "" then .ok value
    else do
      let removed ← remove result path
      add removed.2 path value
  | .copy source path => do
      let value ← valueOf result source
      add result path value
  | .move source path => do
      let removed ← remove result source
      add removed.2 path removed.1
  | .test path value => do
      let actual ← valueOf result path
      let text ← stringifyCanonical actual
      let expected ← stringifyCanonical value
      if text ≠ expected then .error ("JSON Patch test failed at " ++ path) else .ok result

def isObject : JsonValue → Bool
  | .object _ => true
  | _ => false

def applyTaskRevisionPatch (document : JsonValue) (operations : List JsonPatchOperation) :
    Except String JsonValue :=
  if 256 < operations.length then .error "task revision patch exceeds 256 operations"
  else do
    let result ← operations.foldlM applyOperation document
    if isObject result then .ok result
    else .error "task revision document must remain an object"

end Text

end Heniek.JsonPatch
