import Heniek.JsonWriter
import Heniek.RequestCoverage

/-!
The requests that a client signs (`buildSignedRequest`). The client serialises the
request without its envelope, the daemon cuts the envelope out of the line with it, and
both come to the same text.
-/

namespace Heniek.SignedRequests
open JsonSyntax ScriptText ExpressionEvaluation RpcCodec DecimalText AuthCanonical CanonicalScan
open CanonicalCut RepeatedNames RequestAuth RequestCoverage JsonWriter

def hexUnit (digit : Nat) : Nat := (Nat.digitChar digit).toNat

/-- The digest in hexadecimal digits. -/
def bytesToHex (bytes : List UInt8) : List Nat :=
  bytes.flatMap fun byte => [hexUnit (byte.toNat / 16), hexUnit (byte.toNat % 16)]

def authMessage (challenge : List UInt8) (sequence : Nat) (canonical : List Char) : List UInt8 :=
  challenge ++ textEncode ('\n' :: (numberToString sequence ++ '\n' :: canonical))

def idValue : JsonRpcId → Value JsonNumber
  | .text units => .string units
  | .number value => .number value

def requestValue (id : JsonRpcId) (method : List Nat)
    (params : List (List Nat × Value JsonNumber)) :
    Value JsonNumber :=
  .object [(codeUnits "jsonrpc", .string (codeUnits jsonRpcVersion)), (codeUnits "id", idValue id),
    (codeUnits "method", .string method), (codeUnits "params", .object params)]

def authValue (keyId : List Nat) (sequence : Nat) (mac : List Nat) : Value JsonNumber :=
  .object [(codeUnits "schemaVersion", .number (.finite 1)), (codeUnits "keyId", .string keyId),
    (codeUnits "sequence", .number (.finite sequence)), (codeUnits "mac", .string mac)]

/-- `{ ...members, name: value }`; a name that is no array index stays behind the others. -/
def withMember (members : List (List Nat × Value JsonNumber)) (name : List Nat)
    (value : Value JsonNumber) : List (List Nat × Value JsonNumber) :=
  if name ∈ members.map Prod.fst then
    members.map fun member => if member.1 = name then (name, value) else member
  else members ++ [(name, value)]

def canonicalRequest (id : JsonRpcId) (method : List Nat)
    (params : List (List Nat × Value JsonNumber)) : List Char :=
  stringify (requestValue id method params)

def buildSignedRequest (hmacSha256 : List UInt8 → List UInt8 → List UInt8)
    (credential : AuthenticatedCredential) (challenge : List UInt8) (id : JsonRpcId)
    (method : List Nat) (sequence : Nat) (params : List (List Nat × Value JsonNumber)) :
    List Char :=
  let canonical := canonicalRequest id method params
  let mac := bytesToHex (hmacSha256 credential.secret (authMessage challenge sequence canonical))
  stringify (requestValue id method
    (withMember params (codeUnits "auth") (authValue credential.keyId sequence mac)))

def credentialFromPersisted (value : List Nat) : Option AuthenticatedCredential :=
  if value.length = 97 ∧ (value.take 32).all isHexUnit = true ∧ value[32]? = some 46 ∧
      isHex64 (value.drop 33) = true then
    some ⟨value.take 32, hexToBytes (value.drop 33)⟩
  else none

theorem keyId_credentialFromPersisted {value : List Nat} {credential : AuthenticatedCredential}
    (read : credentialFromPersisted value = some credential) : credential.keyId ≠ [] := by
  unfold credentialFromPersisted at read
  split at read
  · rename_i shape
    cases read
    refine List.ne_nil_of_length_pos ?_
    rw [List.length_take, shape.1]
    decide
  · cases read

/-- An identifier that the protocol has: a text, or a number that is an integer. -/
def ProperId : JsonRpcId → Prop
  | .text units => Units units
  | .number (.finite value) => value.den = 1 ∧ Binary64 value
  | .number .negativeZero => True
  | .number _ => False

/-- `===` on identifiers. -/
def sameId : JsonRpcId → JsonRpcId → Prop
  | .text units, .text units' => units = units'
  | .number value, .number value' => value.finite?.isSome = true ∧ value.finite? = value'.finite?
  | _, _ => False

theorem hexUnit_spec : ∀ digit < 16, isHexUnit (hexUnit digit) = true ∧
    hexValue (hexUnit digit) = digit ∧ hexUnit digit < 0x10000 := by
  decide

theorem hexToBytes_bytesToHex (bytes : List UInt8) : hexToBytes (bytesToHex bytes) = bytes := by
  induction bytes with
  | nil => rfl
  | cons byte bytes ih =>
    have small : byte.toNat < 256 := byte.toNat_lt
    have high := (hexUnit_spec (byte.toNat / 16) (by omega)).2.1
    have low := (hexUnit_spec (byte.toNat % 16) (by omega)).2.1
    rw [bytesToHex, List.flatMap_cons]
    simp only [List.cons_append, List.nil_append, hexToBytes, high, low]
    have whole : 16 * (byte.toNat / 16) + byte.toNat % 16 = byte.toNat := by omega
    rw [whole, UInt8.ofNat_toNat]
    exact congrArg _ ih

theorem bytesToHex_digits (bytes : List UInt8) :
    (bytesToHex bytes).length = 2 * bytes.length ∧
      ∀ unit ∈ bytesToHex bytes, isHexUnit unit = true ∧ unit < 0x10000 := by
  induction bytes with
  | nil => exact ⟨rfl, fun _ impossible => absurd impossible List.not_mem_nil⟩
  | cons byte bytes ih =>
    have small : byte.toNat < 256 := byte.toNat_lt
    have high := hexUnit_spec (byte.toNat / 16) (by omega)
    have low := hexUnit_spec (byte.toNat % 16) (by omega)
    have split : bytesToHex (byte :: bytes) =
        hexUnit (byte.toNat / 16) :: hexUnit (byte.toNat % 16) :: bytesToHex bytes := rfl
    rw [split]
    refine ⟨by simp only [List.length_cons, ih.1]; omega, fun unit listed => ?_⟩
    rcases List.mem_cons.mp listed with rfl | listed
    · exact ⟨high.1, high.2.2⟩
    · rcases List.mem_cons.mp listed with rfl | listed
      · exact ⟨low.1, low.2.2⟩
      · exact ih.2 unit listed

theorem isHex64_bytesToHex {bytes : List UInt8} (long : bytes.length = macBytes) :
    isHex64 (bytesToHex bytes) = true := by
  obtain ⟨length, digits⟩ := bytesToHex_digits bytes
  rw [isHex64, Bool.and_eq_true, decide_eq_true_eq, length, long]
  exact ⟨rfl, List.all_eq_true.mpr fun unit listed => (digits unit listed).1⟩

theorem units_codeUnits_key :
    ∀ name ∈ ["jsonrpc", "id", "method", "params", "auth", "schemaVersion",
    "keyId", "sequence", "mac", "2.0"], Units (codeUnits name) := by
  decide

section Envelope

variable {keyId mac : List Nat} {sequence : Nat}

theorem authValue_proper (small : Units keyId) (smallMac : Units mac) (sequence : Nat) :
    Proper (authValue keyId sequence mac) := by
  refine ⟨(by decide : (["schemaVersion", "keyId", "sequence", "mac"].map codeUnits).Nodup),
    ⟨?_, trivial⟩, ⟨?_, small⟩, ⟨?_, trivial⟩, ⟨?_, smallMac⟩, trivial⟩ <;>
    exact units_codeUnits_key _ (by simp)

theorem validate_rows (key number code : Value JsonNumber) :
    validateRequestAuthEnvelope (.object [(codeUnits "schemaVersion", .number (.finite 1)),
      (codeUnits "keyId", key), (codeUnits "sequence", number), (codeUnits "mac", code)]) =
      (filledText (some key)).bind fun keyId => (sequenceNumber (some number)).bind fun sequence =>
        (macText (some code)).bind fun mac => some ⟨keyId, sequence, mac⟩ := rfl

theorem validate_authValue (named : keyId ≠ []) (small : Units keyId) (smallMac : Units mac)
    (hex : isHex64 mac = true) (first : 1 ≤ sequence) (last : sequence ≤ sequenceMax) :
    validateRequestAuthEnvelope ((writeTree (authValue keyId sequence mac)).value readNumeral) =
      some ⟨keyId, sequence, mac⟩ := by
  have proper := authValue_proper small smallMac sequence
  have bounded : sequence < 2 ^ 53 := by
    unfold sequenceMax at last
    omega
  have distinct : (names (memberEntries [(codeUnits "schemaVersion", Value.number (.finite 1)),
      (codeUnits "keyId", .string keyId), (codeUnits "sequence", .number (.finite sequence)),
      (codeUnits "mac", .string mac)])).Nodup := by
    rw [names_memberEntries proper.2]
    exact proper.1
  have one := writeTree_natural (show 1 < 2 ^ 53 by decide)
  have number := writeTree_natural bounded
  rw [Nat.cast_one] at one
  rw [authValue, writeTree, value_object readNumeral distinct, members_memberEntries proper.2]
  simp only [List.map_cons, List.map_nil, valueTree, one, number, writeTree_string small,
    writeTree_string smallMac]
  have keyIdText : ¬ keyId.length < 1 := by
    have long := List.length_pos_iff.mpr named
    omega
  have range : (sequence : ℚ).den = 1 ∧ (1 : ℚ) ≤ sequence ∧ (sequence : ℚ) ≤ (sequenceMax : Nat) :=
    ⟨Rat.den_natCast sequence, by exact_mod_cast first, by exact_mod_cast last⟩
  have number : sequenceNumber (some (.number (.finite sequence))) = some sequence := by
    rw [sequenceNumber, if_pos range, Rat.num_natCast, Int.toNat_natCast]
  have text : filledText (some (.string keyId)) = some keyId := by rw [filledText, if_neg keyIdText]
  have digits : macText (some (.string mac)) = some mac := by rw [macText, if_pos hex]
  rw [validate_rows, text, number, digits]
  rfl

end Envelope

theorem idValue_proper {id : JsonRpcId} (proper : ProperId id) : Proper (idValue id) := by
  cases id with
  | text units => exact proper
  | number value => trivial

variable {params : List (List Nat × Value JsonNumber)} {value : Value JsonNumber}

theorem requestValue_proper {id : JsonRpcId} (properId : ProperId id) {method : List Nat}
    (smallMethod : Units method) (proper : Proper (.object params)) :
    Proper (requestValue id method params) := by
  have version : Units (codeUnits jsonRpcVersion) := units_codeUnits_key "2.0" (by simp)
  refine ⟨(by decide : (["jsonrpc", "id", "method", "params"].map codeUnits).Nodup),
    ⟨?_, version⟩, ⟨?_, idValue_proper properId⟩, ⟨?_, smallMethod⟩, ⟨?_, proper⟩, trivial⟩ <;>
    exact units_codeUnits_key _ (by simp)

theorem withMember_fresh {name : List Nat} (fresh : name ∉ params.map Prod.fst)
    (value : Value JsonNumber) :
    withMember params name value = params ++ [(name, value)] := if_neg fresh

theorem params_proper (proper : Proper (.object params)) {name : List Nat} (small : Units name)
    (fresh : name ∉ params.map Prod.fst) (valued : Proper value) :
    Proper (.object (params ++ [(name, value)])) := by
  refine ⟨?_, properMembers_append.mpr ⟨proper.2, ⟨small, valued⟩, trivial⟩⟩
  rw [List.map_append, List.map_cons, List.map_nil, List.nodup_append]
  refine ⟨proper.1, List.nodup_singleton _, ?_⟩
  intro key listed other single same
  have named : key = name := same.trans (List.mem_singleton.mp single)
  exact fresh (named ▸ listed)

def written (value : Value JsonNumber) : Document := ⟨[], writeTree value, []⟩

theorem written_render (value : Value JsonNumber) : (written value).render = stringify value := by
  rw [Document.render, written, List.nil_append, List.append_nil, writeTree_render]

theorem written_valid (proper : Proper value) : (written value).Valid :=
  ⟨blank_nil, writeTree_valid value proper, blank_nil⟩

theorem parseLine_stringify (proper : Proper value) :
    parseLine (stringify value) = some ((writeTree value).value readNumeral) := by
  rw [← written_render, parseLine_render (written_valid proper)]
  rfl

theorem hasDuplicateKey_stringify (proper : Proper value) :
    hasDuplicateKey (stringify value) = .ok false := by
  rw [← written_render, hasDuplicateKey_render (written_valid proper)]
  have once := writeTree_once value proper
  rw [← treeRepeats_iff] at once
  exact congrArg _ (Bool.eq_false_iff.mpr once)

section Request

variable {id : JsonRpcId} {method : List Nat} {params : List (List Nat × Value JsonNumber)}

theorem field_request (proper : Proper (requestValue id method params)) (name : String) :
    field ((writeTree (requestValue id method params)).value readNumeral) name =
      (([(codeUnits "jsonrpc", Value.string (codeUnits jsonRpcVersion)),
        (codeUnits "id", idValue id),
        (codeUnits "method", .string method), (codeUnits "params", .object params)].find?
          fun member => decide (member.1 = codeUnits name)).map valueTree).map
            (Tree.value readNumeral) := by
  rw [field, member?_tree readNumeral (writeTree_once _ proper)]
  exact congrArg _ (lookup_memberEntries proper.2)

theorem recoverId_request (properId : ProperId id) {record : Value JsonNumber}
    (identified : field record "id" = some ((writeTree (idValue id)).value readNumeral)) :
    ∃ read, recoverId record = some read ∧ sameId read id := by
  unfold recoverId
  rw [identified]
  cases id with
  | text units =>
    rw [idValue, writeTree_string properId]
    exact ⟨_, rfl, rfl⟩
  | number value =>
    cases value with
    | finite value =>
      have whole : isInteger (.finite value) = true := decide_eq_true properId.1
      rw [idValue, writeTree_number properId.2]
      exact ⟨_, if_pos whole, rfl, rfl⟩
    | negativeZero =>
      have text : writeTree (idValue (.number .negativeZero)) =
          writeTree (.number (.finite ((0 : Nat) : ℚ))) := rfl
      rw [text, writeTree_natural (by decide)]
      exact ⟨_, rfl, rfl, rfl⟩
    | notFinite negative => exact absurd properId (by simp [ProperId])
    | nan => exact absurd properId (by simp [ProperId])

theorem recordFrame_request (properId : ProperId id) (smallMethod : Units method)
    (proper : Proper (requestValue id method params)) (line : List Char) :
    ∃ frame, recordFrame line ((writeTree (requestValue id method params)).value readNumeral) =
        .request frame ∧ sameId frame.id id ∧ frame.method = method ∧ frame.raw = line := by
  have fields := field_request proper
  generalize (writeTree (requestValue id method params)).value readNumeral = record at fields ⊢
  have version : field record "jsonrpc" = some (.string (codeUnits jsonRpcVersion)) := by
    rw [fields]
    exact congrArg some (writeTree_string (units_codeUnits_key "2.0" (by simp)))
  have called : field record "method" = some (.string method) := by
    rw [fields]
    exact congrArg some (writeTree_string smallMethod)
  have identified : field record "id" = some ((writeTree (idValue id)).value readNumeral) := by
    rw [fields]
    rfl
  have speaks : speaksVersion record = true := by
    rw [speaksVersion, version]
    exact decide_eq_true rfl
  obtain ⟨read, recovered, same⟩ := recoverId_request properId identified
  rw [recordFrame, speaks, called, recovered]
  exact ⟨_, rfl, same, rfl, rfl⟩

theorem toFrame_request (properId : ProperId id) (smallMethod : Units method)
    (proper : Proper (.object params)) :
    ∃ frame, toFrame (stringify (requestValue id method params)) = .request frame ∧
      sameId frame.id id ∧ frame.method = method ∧
      frame.raw = stringify (requestValue id method params) := by
  have whole := requestValue_proper properId smallMethod proper
  obtain ⟨frame, framed, agrees⟩ := recordFrame_request properId smallMethod whole
    (stringify (requestValue id method params))
  refine ⟨frame, ?_, agrees⟩
  rw [toFrame, parseLine_stringify whole]
  exact framed

theorem canonicaliseRequest_signed (properId : ProperId id) (smallMethod : Units method)
    (proper : Proper (.object params)) (fresh : codeUnits "auth" ∉ params.map Prod.fst)
    {envelope : Value JsonNumber} (valued : Proper envelope) :
    canonicaliseRequest (stringify (requestValue id method
        (params ++ [(codeUnits "auth", envelope)]))) =
        .ok (some (stringify (requestValue id method params))) ∧
      extractAuthValueText (stringify (requestValue id method
        (params ++ [(codeUnits "auth", envelope)]))) = .ok (some (stringify envelope)) := by
  have small : Units (codeUnits "auth") := units_codeUnits_key "auth" (by simp)
  have smallParams : Units paramsKey := units_codeUnits_key "params" (by simp)
  have signed := params_proper proper small fresh valued
  have whole := requestValue_proper properId smallMethod signed
  obtain ⟨cut, text⟩ := canonicaliseRequest_render (written_valid whole)
  have under : memberTree paramsKey (writeTree (requestValue id method
      (params ++ [(codeUnits "auth", envelope)]))) =
        some (writeTree (.object (params ++ [(codeUnits "auth", envelope)]))) :=
    lookup_memberEntries whole.2
  have within :
      memberTree authKey (writeTree (.object (params ++ [(codeUnits "auth", envelope)]))) =
      some (writeTree envelope) := by
    have absent : params.find? (fun member => decide (member.1 = authKey)) = none :=
      List.find?_eq_none.mpr fun member listed named =>
        fresh (List.mem_map.mpr ⟨member, listed, of_decide_eq_true named⟩)
    refine (lookup_memberEntries signed.2).trans ?_
    rw [List.find?_append, absent]
    rfl
  have found : paramsAuthTree (written (requestValue id method
      (params ++ [(codeUnits "auth", envelope)]))).root = some (writeTree envelope) := by
    rw [paramsAuthTree, written, under]
    exact within
  have left : cutParamsAuth (written (requestValue id method
      (params ++ [(codeUnits "auth", envelope)]))) = written (requestValue id method params) := by
    have replaced : replace paramsKey (writeTree (.object params)) (memberEntries
        ([(codeUnits "jsonrpc", .string (codeUnits jsonRpcVersion)), (codeUnits "id", idValue id),
          (codeUnits "method", .string method)] ++
            (paramsKey, .object (params ++ [(codeUnits "auth", envelope)])) :: [])) = _ :=
      replace_memberEntries ⟨whole.2.1, whole.2.2.1, whole.2.2.2.1, trivial⟩ smallParams
        (by decide : paramsKey ∉ ["jsonrpc", "id", "method"].map codeUnits)
    have last : cutTree authKey (writeTree (.object (params ++ [(codeUnits "auth", envelope)]))) =
        writeTree (.object params) := cutTree_last proper.2 small fresh
    have located : lookup paramsKey (memberEntries _) = some _ := under
    rw [cutParamsAuth, written, written, requestValue, writeTree, modifyTree, located]
    simp only [last]
    exact congrArg (fun entries => Document.mk [] (.block .object [] entries) []) replaced
  rw [written_render, found] at cut text
  rw [cut, text, left, written_render, Option.map_some, Option.map_some, writeTree_render]
  exact ⟨rfl, rfl⟩

end Request

section Verify

variable {hmacSha256 : List UInt8 → List UInt8 → List UInt8}

theorem authMessage_eq {sequence : Nat} (last : sequence ≤ sequenceMax) (challenge : List UInt8)
    (canonical : List Char) :
    authMessage challenge sequence canonical =
      buildAuthMacMessage challenge sequence canonical := by
  have bounded : sequence < 2 ^ 52 := by
    unfold sequenceMax at last
    omega
  rw [authMessage, numberToString_natCast bounded, buildAuthMacMessage]

theorem checkEnvelope_signed (credential : AuthenticatedCredential)
    (connection : ConnectionAuthState) (canonical : List Char) (sequence : Nat)
    (digests : ∀ key message, (hmacSha256 key message).length = macBytes) :
    ((checkEnvelope hmacSha256 credential connection canonical
        (some ⟨credential.keyId, sequence, bytesToHex (hmacSha256 credential.secret
          (buildAuthMacMessage connection.challenge sequence canonical))⟩)).1 = .authenticated ↔
      connection.lastSequence < sequence) := by
  unfold checkEnvelope
  simp only [Option.map_some, Option.getD_some, hexToBytes_bytesToHex, digests, constantTimeEqual,
    decide_true, Bool.and_self, Option.isSome_some, Bool.and_true, Bool.true_and, decide_eq_true_eq]
  split <;> simp_all

end Verify

/-- A signed request is accepted, scanned as it was signed and authenticated while it is new. -/
theorem signed_request_agrees (hmacSha256 : List UInt8 → List UInt8 → List UInt8)
    (digests : ∀ key message, (hmacSha256 key message).length = macBytes)
    (credential : AuthenticatedCredential) (named : credential.keyId ≠ [])
    (smallKey : Units credential.keyId) (challenge : List UInt8) (id : JsonRpcId)
    (properId : ProperId id) (method : List Nat) (smallMethod : Units method) (sequence : Nat)
    (first : 1 ≤ sequence) (last : sequence ≤ sequenceMax)
    (params : List (List Nat × Value JsonNumber)) (proper : Proper (.object params))
    (fresh : codeUnits "auth" ∉ params.map Prod.fst) {line : List Char}
    (built : buildSignedRequest hmacSha256 credential challenge id method sequence params = line) :
    (∃ frame, toFrame line = .request frame ∧ sameId frame.id id ∧ frame.method = method ∧
      frame.raw = line) ∧
    hasDuplicateKey line = .ok false ∧
    canonicaliseRequest line = .ok (some (canonicalRequest id method params)) ∧
    ∀ connection : ConnectionAuthState, connection.challenge = challenge →
      ((verifyRequest hmacSha256 credential connection line).1 = .authenticated ↔
        connection.lastSequence < sequence) := by
  have digits := bytesToHex_digits (hmacSha256 credential.secret
    (authMessage challenge sequence (canonicalRequest id method params)))
  have hex := isHex64_bytesToHex (digests credential.secret
    (authMessage challenge sequence (canonicalRequest id method params)))
  have smallMac : Units (bytesToHex (hmacSha256 credential.secret
      (authMessage challenge sequence (canonicalRequest id method params)))) :=
    fun unit listed => (digits.2 unit listed).2
  have valued := authValue_proper smallKey smallMac sequence
  have small : Units (codeUnits "auth") := units_codeUnits_key "auth" (by simp)
  have signed := params_proper proper small fresh valued
  have line_eq : buildSignedRequest hmacSha256 credential challenge id method sequence params =
      stringify (requestValue id method (params ++ [(codeUnits "auth", authValue credential.keyId
        sequence (bytesToHex (hmacSha256 credential.secret
          (authMessage challenge sequence (canonicalRequest id method params)))))])) := by
    rw [buildSignedRequest, withMember_fresh fresh]
  have distinct := hasDuplicateKey_stringify (requestValue_proper properId smallMethod signed)
  obtain ⟨cut, text⟩ := canonicaliseRequest_signed properId smallMethod proper fresh valued
  have framed := toFrame_request properId smallMethod signed
  rw [← line_eq, built] at distinct cut text framed
  refine ⟨framed, distinct, cut, ?_⟩
  rintro connection rfl
  have envelope := validate_authValue named smallKey smallMac hex first last
  have reads : envelopeOf (some (stringify (authValue credential.keyId sequence
      (bytesToHex (hmacSha256 credential.secret
        (authMessage connection.challenge sequence (canonicalRequest id method params))))))) =
      some ⟨credential.keyId, sequence, bytesToHex (hmacSha256 credential.secret
        (authMessage connection.challenge sequence (canonicalRequest id method params)))⟩ := by
    rw [envelopeOf, Option.bind_some, parseLine_stringify valued, Option.bind_some, envelope]
  rw [verifyRequest, distinct]
  simp only [cut, text, Option.getD_some]
  rw [reads, authMessage_eq last]
  exact checkEnvelope_signed credential connection _ sequence digests

/-- The digest of the sample message. -/
def sampleDigest (_ _ : List UInt8) : List UInt8 := hexToBytes sampleMac

theorem signed_request_agrees_sample :
    (verifyRequest sampleDigest ⟨codeUnits "k", [7]⟩ sampleConnection
      (buildSignedRequest sampleDigest ⟨codeUnits "k", [7]⟩ sampleConnection.challenge
        (.number (.finite (1 : Nat))) (codeUnits "m") 1
        [(codeUnits "x", .number (.finite (1 : Nat)))])).1 = .authenticated := by
  have long : (hexToBytes sampleMac).length = macBytes := by decide +kernel
  have digests : ∀ key message, (sampleDigest key message).length = macBytes := fun _ _ => long
  have agrees := signed_request_agrees sampleDigest digests ⟨codeUnits "k", [7]⟩ (by decide)
    (by decide) sampleConnection.challenge (.number (.finite (1 : Nat)))
    ⟨Rat.den_natCast 1, binary64_natCast (by decide)⟩ (codeUnits "m") (by decide) 1 le_rfl
    (by decide) [(codeUnits "x", .number (.finite (1 : Nat)))]
    ⟨(by decide : [codeUnits "x"].Nodup), ⟨(by decide : Units (codeUnits "x")), trivial⟩, trivial⟩
    (by decide : codeUnits "auth" ∉ [codeUnits "x"]) rfl
  exact (agrees.2.2.2 sampleConnection rfl).mpr (by decide)

end Heniek.SignedRequests
