import Heniek.KeyedTable
import Heniek.ScriptText
import Mathlib.Algebra.Order.Ring.Rat

/-!
The syntax of JSON texts. A tree keeps all of the text it was read from: the
blanks, the numerals and the escapes as they are written. `readTree` reads a tree
off the front of a text and `render` writes it back. Arrays and objects are blocks
of entries, and the entries of an object have labels.

The value of a tree has the code units of its strings, lone surrogates included,
and whatever `read` makes of a numeral. Fuel bounds the depth of a text together
with the number of its entries.
-/

namespace JsonSyntax
open KeyedTable ScriptText

def isBlank (c : Char) : Bool := decide (c ∈ [' ', '\t', '\n', '\r'])

/-- What a numeral or a literal goes on with. -/
def wordChar (c : Char) : Bool := !isBlank c && decide (c ∉ [',', ']', '\x7d'])

/-- A decimal numeral: the digits as a natural number, times a power of ten. -/
structure Numeral where
  negative : Bool
  digits : Nat
  scale : Int
  deriving DecidableEq

def digitsValue (digits : List Char) : Nat :=
  digits.foldl (fun value c => 10 * value + (c.toNat - '0'.toNat)) 0

def wholePart (text : List Char) : Option (List Char × List Char) :=
  let whole := text.takeWhile Char.isDigit
  if whole = [] then none
  else if whole.head? = some '0' ∧ whole ≠ ['0'] then none
  else some (whole, text.dropWhile Char.isDigit)

def fractionPart : List Char → Option (List Char × List Char)
  | '.' :: rest =>
    if rest.takeWhile Char.isDigit = [] then none
    else some (rest.takeWhile Char.isDigit, rest.dropWhile Char.isDigit)
  | text => some ([], text)

def exponentDigits (text : List Char) : Option Int :=
  if text ≠ [] ∧ text.all Char.isDigit = true then some (digitsValue text : Int) else none

def exponentPart : List Char → Option Int
  | [] => some 0
  | c :: text =>
    if c = 'e' ∨ c = 'E' then
      match text with
      | '-' :: digits => (exponentDigits digits).map fun value => -value
      | '+' :: digits => exponentDigits digits
      | digits => exponentDigits digits
    else none

def unsignedNumeral (negative : Bool) (text : List Char) : Option Numeral :=
  (wholePart text).bind fun whole =>
    (fractionPart whole.2).bind fun fraction =>
      (exponentPart fraction.2).map fun exponent =>
        ⟨negative, digitsValue (whole.1 ++ fraction.1), exponent - fraction.1.length⟩

def numeral? : List Char → Option Numeral
  | '-' :: text => unsignedNumeral true text
  | text => unsignedNumeral false text

def literals : List (List Char) := ["true".toList, "false".toList, "null".toList]

def validWord (text : List Char) : Bool := decide (text ∈ literals) || (numeral? text).isSome

def hexDigit? (c : Char) : Option Nat :=
  if c.isDigit then some (c.toNat - '0'.toNat)
  else if 'a' ≤ c ∧ c ≤ 'f' then some (c.toNat - 'a'.toNat + 10)
  else if 'A' ≤ c ∧ c ≤ 'F' then some (c.toNat - 'A'.toNat + 10)
  else none

def hexUnit? (a b c d : Char) : Option Nat :=
  (hexDigit? a).bind fun a => (hexDigit? b).bind fun b => (hexDigit? c).bind fun c =>
    (hexDigit? d).map fun d => 4096 * a + 256 * b + 16 * c + d

def simpleEscape? (c : Char) : Option Nat :=
  if c = '"' ∨ c = '\\' ∨ c = '/' then some c.toNat
  else if c = 'b' then some 8
  else if c = 'f' then some 12
  else if c = 'n' then some 10
  else if c = 'r' then some 13
  else if c = 't' then some 9
  else none

def charUnits (c : Char) : List Nat := codeUnits (String.singleton c)

theorem charUnits_eq (c : Char) : charUnits c = if c.toNat < 0x10000 then [c.toNat]
    else [0xD800 + (c.toNat - 0x10000) / 0x400, 0xDC00 + (c.toNat - 0x10000) % 0x400] := by
  simp [charUnits, codeUnits]

theorem codeUnits_eq (text : String) : codeUnits text = text.toList.flatMap charUnits :=
  congrArg (text.toList.flatMap ·) (funext fun c => (charUnits_eq c).symm)

/-- The code units of what stands between the quotes. -/
def decodeBody : List Char → Option (List Nat)
  | [] => some []
  | c :: rest =>
    if c = '\\' then
      match rest with
      | [] => none
      | e :: rest =>
        if e = 'u' then
          match rest with
          | a :: b :: c :: d :: rest =>
            (hexUnit? a b c d).bind fun unit => (decodeBody rest).map fun units => unit :: units
          | _ => none
        else (simpleEscape? e).bind fun unit => (decodeBody rest).map fun units => unit :: units
    else if c = '"' ∨ c.toNat < 32 then none
    else (decodeBody rest).map fun units => charUnits c ++ units

/-- The text up to the first quote that no backslash escapes, and what follows that quote. -/
def splitBody : List Char → Option (List Char × List Char)
  | [] => none
  | [c] => if c = '"' then some ([], []) else none
  | c :: e :: rest =>
    if c = '"' then some ([], e :: rest)
    else if c = '\\' then (splitBody rest).map fun parts => (c :: e :: parts.1, parts.2)
    else (splitBody (e :: rest)).map fun parts => (c :: parts.1, parts.2)

inductive Kind where
  | array | object
  deriving DecidableEq

def Kind.opening : Kind → Char
  | .array => '['
  | .object => '\x7b'

def Kind.closing : Kind → Char
  | .array => ']'
  | .object => '\x7d'

/-- The name of a member with the blanks around its colon. -/
structure Label where
  body : List Char
  gap : List Char
  lead : List Char
  deriving DecidableEq

mutual

/-- An empty block has blanks between its brackets; else they go to its entries. -/
inductive Tree where
  | word (text : List Char)
  | string (body : List Char)
  | block (kind : Kind) (pad : List Char) (entries : Entries)

inductive Entries where
  | nil
  | cons (before : List Char) (label : Option Label) (value : Tree) (after : List Char)
      (rest : Entries)

end

def quoted (body : List Char) : List Char := '"' :: (body ++ ['"'])

def Label.render (label : Label) : List Char :=
  quoted label.body ++ label.gap ++ ':' :: label.lead

def renderLabel : Option Label → List Char
  | none => []
  | some label => label.render

def further (rest : Entries) (text : List Char) : List Char :=
  match rest with
  | .nil => []
  | .cons _ _ _ _ _ => ',' :: text

mutual

def Tree.render : Tree → List Char
  | .word text => text
  | .string body => quoted body
  | .block kind pad entries => kind.opening :: (pad ++ entries.render ++ [kind.closing])

def Entries.render : Entries → List Char
  | .nil => []
  | .cons before label value after rest =>
    before ++ renderLabel label ++ value.render ++ after ++ further rest rest.render

end

def Blank (text : List Char) : Prop := ∀ c ∈ text, isBlank c = true

instance (text : List Char) : Decidable (Blank text) :=
  inferInstanceAs (Decidable (∀ c ∈ text, _))

theorem blank_nil : Blank [] := fun _ impossible => absurd impossible List.not_mem_nil

def LabelValid (kind : Kind) : Option Label → Prop
  | none => kind = .array
  | some label => kind = .object ∧ (decodeBody label.body).isSome = true ∧ Blank label.gap ∧
      Blank label.lead

def PadValid (pad : List Char) : Entries → Prop
  | .nil => Blank pad
  | .cons _ _ _ _ _ => pad = []

mutual

def Tree.Valid : Tree → Prop
  | .word text => validWord text = true
  | .string body => (decodeBody body).isSome = true
  | .block kind pad entries => PadValid pad entries ∧ entries.Valid kind

def Entries.Valid : Entries → Kind → Prop
  | .nil, _ => True
  | .cons before label value after rest, kind =>
    Blank before ∧ LabelValid kind label ∧ value.Valid ∧ Blank after ∧ rest.Valid kind

end

def readWord (text : List Char) : Option (Tree × List Char) :=
  if validWord (text.takeWhile wordChar) then
    some (.word (text.takeWhile wordChar), text.dropWhile wordChar)
  else none

/-- The body of a string and what follows it; the text starts at the opening quote. -/
def readBody : List Char → Option (List Char × List Char)
  | '"' :: text =>
    (splitBody text).bind fun parts =>
      if (decodeBody parts.1).isSome then some parts else none
  | _ => none

def readLabel : Kind → List Char → Option (Option Label × List Char)
  | .array, text => some (none, text)
  | .object, text =>
    (readBody text).bind fun body =>
      match body.2.dropWhile isBlank with
      | ':' :: rest =>
        some (some ⟨body.1, body.2.takeWhile isBlank, rest.takeWhile isBlank⟩,
          rest.dropWhile isBlank)
      | _ => none

mutual

def readTree : Nat → List Char → Option (Tree × List Char)
  | 0, _ => none
  | _ + 1, [] => none
  | fuel + 1, c :: text =>
    if c = '"' then (readBody (c :: text)).map fun parts => (.string parts.1, parts.2)
    else if c = Kind.array.opening then readBlock fuel .array text
    else if c = Kind.object.opening then readBlock fuel .object text
    else readWord (c :: text)

/-- The text starts behind the opening bracket. -/
def readBlock : Nat → Kind → List Char → Option (Tree × List Char)
  | 0, _, _ => none
  | fuel + 1, kind, text =>
    match text.dropWhile isBlank with
    | [] => none
    | c :: rest =>
      if c = kind.closing then some (.block kind (text.takeWhile isBlank) .nil, rest)
      else (readEntries fuel kind text).map fun parts => (.block kind [] parts.1, parts.2)

def readEntries : Nat → Kind → List Char → Option (Entries × List Char)
  | 0, _, _ => none
  | fuel + 1, kind, text =>
    (readLabel kind (text.dropWhile isBlank)).bind fun label =>
      (readTree fuel label.2).bind fun value =>
        match value.2.dropWhile isBlank with
        | [] => none
        | c :: rest =>
          if c = ',' then
            (readEntries fuel kind rest).map fun parts =>
              (.cons (text.takeWhile isBlank) label.1 value.1 (value.2.takeWhile isBlank)
                parts.1, parts.2)
          else if c = kind.closing then
            some (.cons (text.takeWhile isBlank) label.1 value.1 (value.2.takeWhile isBlank)
              .nil, rest)
          else none

end

/-- A whole text: a tree between blanks. -/
structure Document where
  before : List Char
  root : Tree
  after : List Char

def Document.render (document : Document) : List Char :=
  document.before ++ document.root.render ++ document.after

def Document.Valid (document : Document) : Prop :=
  Blank document.before ∧ document.root.Valid ∧ Blank document.after

def fuelFor (text : List Char) : Nat := 2 * text.length + 2

def readDocument (text : List Char) : Option Document :=
  (readTree (fuelFor text) (text.dropWhile isBlank)).bind fun parts =>
    if parts.2.all isBlank then some ⟨text.takeWhile isBlank, parts.1, parts.2⟩ else none

inductive Value (ν : Type) where
  | null
  | bool (value : Bool)
  | number (value : ν)
  | string (units : List Nat)
  | array (items : List (Value ν))
  | object (members : List (List Nat × Value ν))

def bodyUnits (body : List Char) : List Nat := (decodeBody body).getD []

def labelUnits : Option Label → List Nat
  | none => []
  | some label => bodyUnits label.body

section Values

variable {ν : Type} (read : Numeral → ν)

/-- A name that is repeated has the last of its values in the first of its places. -/
def settle (members : List (List Nat × Value ν)) : List (List Nat × Value ν) :=
  ((Table.empty : Table (Prod.fst : List Nat × Value ν → List Nat)).upsertAll members).rows

def wordValue (text : List Char) : Value ν :=
  match numeral? text with
  | some numeral => .number (read numeral)
  | none =>
    if text = "true".toList then .bool true
    else if text = "false".toList then .bool false
    else .null

mutual

def Tree.value : Tree → Value ν
  | .word text => wordValue read text
  | .string body => .string (bodyUnits body)
  | .block .array _ entries => .array (entries.members.map Prod.snd)
  | .block .object _ entries => .object (settle entries.members)

def Entries.members : Entries → List (List Nat × Value ν)
  | .nil => []
  | .cons _ label value _ rest => (labelUnits label, value.value) :: rest.members

end

/-- `JSON.parse`, without the value where it throws. -/
def parse (text : List Char) : Option (Value ν) :=
  (readDocument text).map fun document => document.root.value read

end Values

def Value.member? {ν : Type} (name : List Nat) : Value ν → Option (Value ν)
  | .object members => (members.find? fun member => member.1 = name).map Prod.snd
  | _ => none

end JsonSyntax
