import Heniek.AuthCanonical

/-!
The authentication of a request (`auth/verify.ts`): the envelope under
`params.auth` names a key and a sequence number, and its code covers the challenge
of the connection, the sequence number and the text of the line without it.

The keyed hash is a parameter. A line is the text the codec decoded, and a
connection keeps the challenge and the last sequence number that was accepted.
-/

namespace Heniek.RequestAuth
open JsonSyntax ScriptText ExpressionEvaluation RpcCodec AuthCanonical

structure AuthenticatedCredential where
  keyId : List Nat
  secret : List UInt8

structure ConnectionAuthState where
  challenge : List UInt8
  lastSequence : Nat
  deriving DecidableEq

inductive VerifyResult where
  | authenticated
  | malformedEnvelope (reason : String)
  | unauthorized (reason : String)
  deriving DecidableEq

def macBytes : Nat := 32

def sequenceMax : Nat := 2 ^ 31 - 1

def textEncode (text : List Char) : List UInt8 := text.flatMap String.utf8EncodeChar

def isHexUnit (unit : Nat) : Bool :=
  decide (48 ≤ unit ∧ unit ≤ 57) || decide (97 ≤ unit ∧ unit ≤ 102)

/-- `/^[a-f0-9]{64}$/`. -/
def isHex64 (units : List Nat) : Bool := decide (units.length = 64) && units.all isHexUnit

def hexValue (unit : Nat) : Nat := if unit ≤ 57 then unit - 48 else unit - 87

def hexToBytes : List Nat → List UInt8
  | high :: low :: rest => UInt8.ofNat (16 * hexValue high + hexValue low) :: hexToBytes rest
  | _ => []

def fallbackMacHex : List Nat := List.replicate 64 48

def buildAuthMacMessage (challenge : List UInt8) (sequence : Nat)
    (canonicalRequestBytes : List Char) : List UInt8 :=
  challenge ++ textEncode ('\n' :: (Nat.toDigits 10 sequence ++ '\n' :: canonicalRequestBytes))

/-- The bytes are compared only when they are equally many. -/
def constantTimeEqual (a b : List UInt8) : Bool := decide (a.length = b.length) && decide (a = b)

structure RequestAuthEnvelope where
  keyId : List Nat
  sequence : Nat
  mac : List Nat
  deriving DecidableEq

def requestAuthKeys : List (List Nat) :=
  ["schemaVersion", "keyId", "sequence", "mac"].map codeUnits

def oneVersion : Option (Value JsonNumber) → Bool
  | some (.number (.finite version)) => decide (version = 1)
  | _ => false

def filledText : Option (Value JsonNumber) → Option (List Nat)
  | some (.string units) => if units.length < 1 then none else some units
  | _ => none

def sequenceNumber : Option (Value JsonNumber) → Option Nat
  | some (.number (.finite value)) =>
    if value.den = 1 ∧ 1 ≤ value ∧ value ≤ sequenceMax then some value.num.toNat else none
  | _ => none

def macText : Option (Value JsonNumber) → Option (List Nat)
  | some (.string units) => if isHex64 units then some units else none
  | _ => none

def validateRequestAuthEnvelope : Value JsonNumber → Option RequestAuthEnvelope
  | .object members =>
    if members.length ≠ requestAuthKeys.length then none
    else if (members.all fun member => decide (member.1 ∈ requestAuthKeys)) = false then none
    else if oneVersion (field (.object members) "schemaVersion") = false then none
    else do
      let keyId ← filledText (field (.object members) "keyId")
      let sequence ← sequenceNumber (field (.object members) "sequence")
      let mac ← macText (field (.object members) "mac")
      some ⟨keyId, sequence, mac⟩
  | _ => none

def envelopeOf (authValueText : Option (List Char)) : Option RequestAuthEnvelope :=
  authValueText.bind fun text => (parseLine text).bind validateRequestAuthEnvelope

def describeRejection (envelope : Option RequestAuthEnvelope)
    (keyIdMatches sequenceAdvances macMatches : Bool) : String :=
  if envelope = none then "missing or malformed params.auth"
  else if keyIdMatches = false then "unknown keyId"
  else if sequenceAdvances = false then "sequence did not advance"
  else if macMatches = false then "mac mismatch"
  else "unauthorized"

section Verify

variable (hmacSha256 : List UInt8 → List UInt8 → List UInt8)

def checkEnvelope (credential : AuthenticatedCredential) (connection : ConnectionAuthState)
    (canonicalRequestBytes : List Char) (envelope : Option RequestAuthEnvelope) :
    VerifyResult × ConnectionAuthState :=
  let sequence := (envelope.map RequestAuthEnvelope.sequence).getD 0
  let macHex := (envelope.map RequestAuthEnvelope.mac).getD fallbackMacHex
  let suppliedKeyId := (envelope.map RequestAuthEnvelope.keyId).getD []
  let expectedMac := hmacSha256 credential.secret
    (buildAuthMacMessage connection.challenge sequence canonicalRequestBytes)
  let suppliedMac := hexToBytes macHex
  let macMatches := decide (suppliedMac.length = macBytes) &&
    constantTimeEqual suppliedMac expectedMac
  let keyIdMatches := decide (suppliedKeyId = credential.keyId)
  let sequenceAdvances := decide (connection.lastSequence < sequence)
  if envelope.isSome && keyIdMatches && sequenceAdvances && macMatches then
    (.authenticated, { connection with lastSequence := sequence })
  else (.unauthorized (describeRejection envelope keyIdMatches sequenceAdvances macMatches),
    connection)

def verifyRequest (credential : AuthenticatedCredential) (connection : ConnectionAuthState)
    (rawLine : List Char) : VerifyResult × ConnectionAuthState :=
  match hasDuplicateKey rawLine with
  | .error _ => (.malformedEnvelope "request line could not be re-scanned", connection)
  | .ok true => (.malformedEnvelope "duplicate JSON member name in request", connection)
  | .ok false =>
    match canonicaliseRequest rawLine, extractAuthValueText rawLine with
    | .ok canonical, .ok authValueText =>
      checkEnvelope hmacSha256 credential connection (canonical.getD rawLine)
        (envelopeOf authValueText)
    | _, _ => (.malformedEnvelope "request line could not be re-scanned", connection)

/-- The envelope that the line carries, where the line can be scanned. -/
def requestEnvelope (rawLine : List Char) : Option RequestAuthEnvelope :=
  match extractAuthValueText rawLine with
  | .ok authValueText => envelopeOf authValueText
  | .error _ => none

variable {hmacSha256}

theorem checkEnvelope_cases (credential : AuthenticatedCredential)
    (connection : ConnectionAuthState) (canonical : List Char)
    (envelope : Option RequestAuthEnvelope) :
    (∃ shown, envelope = some shown ∧ shown.keyId = credential.keyId ∧
      connection.lastSequence < shown.sequence ∧
      (hexToBytes shown.mac).length = macBytes ∧
      hexToBytes shown.mac = hmacSha256 credential.secret
        (buildAuthMacMessage connection.challenge shown.sequence canonical) ∧
      checkEnvelope hmacSha256 credential connection canonical envelope =
        (.authenticated, { connection with lastSequence := shown.sequence })) ∨
      ∃ reason, checkEnvelope hmacSha256 credential connection canonical envelope =
        (.unauthorized reason, connection) := by
  unfold checkEnvelope
  simp only
  split
  · rename_i passed
    simp only [Bool.and_eq_true, decide_eq_true_eq, constantTimeEqual] at passed
    obtain ⟨⟨⟨present, key⟩, advances⟩, long, _, same⟩ := passed
    cases envelope with
    | none => cases present
    | some shown => exact Or.inl ⟨shown, rfl, key, advances, long, same, rfl⟩
  · exact Or.inr ⟨_, rfl⟩

theorem verifyRequest_cases (credential : AuthenticatedCredential)
    (connection : ConnectionAuthState) (rawLine : List Char) :
    (∃ canonical shown, hasDuplicateKey rawLine = .ok false ∧
      canonicaliseRequest rawLine = .ok (some canonical) ∧
      requestEnvelope rawLine = some shown ∧ shown.keyId = credential.keyId ∧
      connection.lastSequence < shown.sequence ∧
      hexToBytes shown.mac = hmacSha256 credential.secret
        (buildAuthMacMessage connection.challenge shown.sequence canonical) ∧
      verifyRequest hmacSha256 credential connection rawLine =
        (.authenticated, { connection with lastSequence := shown.sequence })) ∨
      ((verifyRequest hmacSha256 credential connection rawLine).1 ≠ .authenticated ∧
        (verifyRequest hmacSha256 credential connection rawLine).2 = connection) := by
  unfold verifyRequest
  cases repeated : hasDuplicateKey rawLine with
  | error reason => exact Or.inr ⟨by simp, rfl⟩
  | ok repeats =>
    cases repeats with
    | true => exact Or.inr ⟨by simp, rfl⟩
    | false =>
      have located : (∃ reason, locateParamsAuth rawLine = .error reason) ∨
          ∃ auth, locateParamsAuth rawLine = .ok auth := by
        cases locateParamsAuth rawLine with
        | error reason => exact Or.inl ⟨reason, rfl⟩
        | ok auth => exact Or.inr ⟨auth, rfl⟩
      rcases located with ⟨reason, failed⟩ | ⟨auth, found⟩
      · have unread : canonicaliseRequest rawLine = .error reason := by
          rw [canonicaliseRequest, failed]
          rfl
        rw [unread]
        exact Or.inr ⟨by simp, rfl⟩
      · have cut : canonicaliseRequest rawLine =
            .ok (auth.map fun member => removeMember rawLine member.span) := by
          rw [canonicaliseRequest, found]
          rfl
        have text : extractAuthValueText rawLine = .ok (auth.map fun member =>
            (rawLine.take member.span.stop).drop member.valueStart) := by
          rw [extractAuthValueText, found]
          rfl
        rw [cut, text]
        rcases checkEnvelope_cases credential connection
            ((auth.map fun member => removeMember rawLine member.span).getD rawLine)
            (envelopeOf (auth.map fun member =>
              (rawLine.take member.span.stop).drop member.valueStart)) with
          ⟨shown, read, key, advances, _, mac, checked⟩ | ⟨reason, checked⟩
        · cases auth with
          | none => cases read
          | some member =>
            refine Or.inl ⟨_, shown, rfl, rfl, ?_, key, advances, mac, checked⟩
            rw [requestEnvelope, text]
            exact read
        · refine Or.inr ⟨?_, ?_⟩
          · change (checkEnvelope _ _ _ _ _).1 ≠ _
            rw [checked]
            simp
          · change (checkEnvelope _ _ _ _ _).2 = _
            rw [checked]

end Verify

end Heniek.RequestAuth
