import Heniek.ContinuationCapsule
import Heniek.JsonSyntax
import Mathlib.Data.Int.Log
import Mathlib.Data.Rat.Floor

/-!
The codec of the daemon's requests: lines of bytes, each a JSON document, under a
cap on the length of a line that also holds for a line that has not ended.

The platform is modelled as its standards say: `TextDecoder` puts one replacement
character for each maximal wrong part and drops a byte order mark, and a numeral
is read as the nearest binary64 number, ties to even.
-/

namespace Heniek.RpcCodec
open JsonSyntax ScriptText ContinuationCapsule ExpressionEvaluation

/-- A character that has begun: the bytes it still needs, the range of the next and its bits. -/
structure Utf8State where
  needed : Nat := 0
  lower : Nat := 0x80
  upper : Nat := 0xBF
  codePoint : Nat := 0

def replacement : Char := '\uFFFD'

def utf8Begin (byte : Nat) : List Char × Utf8State :=
  if byte ≤ 0x7F then ([Char.ofNat byte], {})
  else if 0xC2 ≤ byte ∧ byte ≤ 0xDF then ([], { needed := 1, codePoint := byte % 0x20 })
  else if 0xE0 ≤ byte ∧ byte ≤ 0xEF then
    ([], { needed := 2
           lower := if byte = 0xE0 then 0xA0 else 0x80
           upper := if byte = 0xED then 0x9F else 0xBF
           codePoint := byte % 0x10 })
  else if 0xF0 ≤ byte ∧ byte ≤ 0xF4 then
    ([], { needed := 3
           lower := if byte = 0xF0 then 0x90 else 0x80
           upper := if byte = 0xF4 then 0x8F else 0xBF
           codePoint := byte % 0x8 })
  else ([replacement], {})

/-- A byte that cannot continue a character is taken for the start of the next. -/
def utf8Step (state : Utf8State) (byte : Nat) : List Char × Utf8State :=
  if state.needed = 0 then utf8Begin byte
  else if state.lower ≤ byte ∧ byte ≤ state.upper then
    let codePoint := 64 * state.codePoint + byte % 0x40
    if state.needed = 1 then ([Char.ofNat codePoint], {})
    else ([], { needed := state.needed - 1, codePoint := codePoint })
  else
    let begun := utf8Begin byte
    (replacement :: begun.1, begun.2)

def utf8Decode : Utf8State → List UInt8 → List Char
  | state, [] => if state.needed = 0 then [] else [replacement]
  | state, byte :: bytes =>
    let stepped := utf8Step state byte.toNat
    stepped.1 ++ utf8Decode stepped.2 bytes

def textDecode (bytes : List UInt8) : List Char :=
  match utf8Decode {} bytes with
  | [] => []
  | c :: text => if c.toNat = 0xFEFF then text else c :: text

/-- The natural number nearest to a non-negative one, ties to even. -/
def roundHalfEven (q : ℚ) : Nat :=
  let below := ⌊q⌋₊
  if 2 * (q - below) < 1 then below
  else if 1 < 2 * (q - below) then below + 1
  else if below % 2 = 0 then below else below + 1

/-- The spacing of the binary64 numbers around a positive one. -/
def binary64Unit (q : ℚ) : ℚ := 2 ^ (max (Int.log 2 q) (-1022) - 52)

def roundBinary64 (negative : Bool) (q : ℚ) : JsonNumber :=
  if q = 0 then if negative then .negativeZero else .finite 0
  else
    let value := roundHalfEven (q / binary64Unit q) * binary64Unit q
    if 2 ^ 1024 ≤ value then .notFinite negative
    else if value = 0 then if negative then .negativeZero else .finite 0
    else .finite (if negative then -value else value)

def readNumeral (numeral : Numeral) : JsonNumber :=
  roundBinary64 numeral.negative (numeral.digits * (10 : ℚ) ^ numeral.scale)

def isInteger : JsonNumber → Bool
  | .finite value => decide (value.den = 1)
  | .negativeZero => true
  | .notFinite _ => false
  | .nan => false

def parseLine (line : List Char) : Option (Value JsonNumber) := parse readNumeral line

structure ErrorCodes where
  parse : Int
  invalidRequest : Int

def errorCodes : ErrorCodes := ⟨-32700, -32600⟩

def jsonRpcVersion : String := "2.0"

def maxLineBytes : Nat := 65536

inductive JsonRpcId where
  | text (units : List Nat)
  | number (value : JsonNumber)

structure JsonRpcRequestFrame where
  id : JsonRpcId
  method : List Nat
  params : Option (Value JsonNumber)
  raw : List Char

structure JsonRpcErrorFrame where
  id : Option JsonRpcId
  code : Int
  message : String
  fatal : Bool

inductive Frame where
  | request (frame : JsonRpcRequestFrame)
  | error (frame : JsonRpcErrorFrame)

def overCap : Frame :=
  .error ⟨none, errorCodes.parse, "line exceeds the maximum length", true⟩

def invalidRequest (id : Option JsonRpcId) (message : String) : Frame :=
  .error ⟨id, errorCodes.invalidRequest, message, false⟩

def field (record : Value JsonNumber) (name : String) : Option (Value JsonNumber) :=
  record.member? (codeUnits name)

def recoverId (record : Value JsonNumber) : Option JsonRpcId :=
  match field record "id" with
  | some (.string units) => some (.text units)
  | some (.number value) => if isInteger value then some (.number value) else none
  | _ => none

def speaksVersion (record : Value JsonNumber) : Bool :=
  match field record "jsonrpc" with
  | some (.string units) => decide (units = codeUnits jsonRpcVersion)
  | _ => false

def recordFrame (line : List Char) (record : Value JsonNumber) : Frame :=
  if speaksVersion record = false then
    invalidRequest (recoverId record) ("jsonrpc must be \"" ++ jsonRpcVersion ++ "\"")
  else
    match field record "method" with
    | some (.string method) =>
      match recoverId record with
      | none => invalidRequest none "id must be a string or an integer"
      | some id => .request ⟨id, method, field record "params", line⟩
    | _ => invalidRequest (recoverId record) "method must be a string"

def toFrame (line : List Char) : Frame :=
  match parseLine line with
  | none => .error ⟨none, errorCodes.parse, "invalid JSON", false⟩
  | some (.object members) => recordFrame line (.object members)
  | some _ => invalidRequest none "request must be a JSON object"

def lineFeed : UInt8 := 0x0a

def carriageReturn : UInt8 := 0x0d

def withoutReturn (bytes : List UInt8) : List UInt8 :=
  if bytes.getLast? = some carriageReturn then bytes.dropLast else bytes

def decodeLine (bytes : List UInt8) : List Char := textDecode (withoutReturn bytes)

/-- `text.trim().length > 0`. -/
def blankText (text : List Char) : Bool := text.all isWhiteSpace

/-- The frame of a line that ended within the cap; a blank one is skipped. -/
def lineFrames (line : List UInt8) : List Frame :=
  if blankText (decodeLine line) then [] else [toFrame (decodeLine line)]

structure DecoderState where
  pending : List UInt8
  poisoned : Bool
  deriving DecidableEq

def createDecoderState : DecoderState := ⟨[], false⟩

def breach : List Frame × DecoderState := ([overCap], ⟨[], true⟩)

/-- The loop through the buffer; `line` is what was seen since the last line feed. -/
def decodeBuffer : (line buffer : List UInt8) → List Frame × DecoderState
  | line, [] => if maxLineBytes < line.length then breach else ([], ⟨line, false⟩)
  | line, byte :: buffer =>
    if byte ≠ lineFeed then decodeBuffer (line ++ [byte]) buffer
    else if maxLineBytes < line.length then breach
    else
      let rest := decodeBuffer [] buffer
      (lineFrames line ++ rest.1, rest.2)

def decodeChunk (state : DecoderState) (chunk : List UInt8) : List Frame × DecoderState :=
  if state.poisoned then ([], state) else decodeBuffer [] (state.pending ++ chunk)

def decodeChunks : DecoderState → List (List UInt8) → List Frame × DecoderState
  | state, [] => ([], state)
  | state, chunk :: chunks =>
    let decoded := decodeChunk state chunk
    let rest := decodeChunks decoded.2 chunks
    (decoded.1 ++ rest.1, rest.2)

end Heniek.RpcCodec
