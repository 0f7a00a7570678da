import Heniek.RepeatedNames
import Heniek.RequestAuth

/-!
What the code of a request covers. On the text of a tree the scanner cuts out the
member `params.auth` of the tree, so that what is left reads as the request without
it, and equal codes on one connection mean equal requests.
-/

namespace Heniek.RequestCoverage
open JsonSyntax ScriptText ExpressionEvaluation RpcCodec AuthCanonical CanonicalScan
open CanonicalCut RepeatedNames RequestAuth

def memberTree (key : List Nat) : Tree → Option Tree
  | .block .object _ entries => lookup key entries
  | _ => none

def modifyTree (key : List Nat) (change : Tree → Tree) : Tree → Tree
  | .block .object pad entries =>
    match lookup key entries with
    | none => .block .object pad entries
    | some found => .block .object pad (replace key (change found) entries)
  | tree => tree

def paramsKey : List Nat := codeUnits "params"

def authKey : List Nat := codeUnits "auth"

def paramsAuthTree (root : Tree) : Option Tree :=
    (memberTree paramsKey root).bind (memberTree authKey)

def cutParamsAuth (document : Document) : Document :=
  { document with root := modifyTree paramsKey (cutTree authKey) document.root }

variable {key : List Nat} {tree : Tree} {document : Document} {line : List Char}

theorem modifyTree_valid {change : Tree → Tree}
    (kept : ∀ tree : Tree, tree.Valid → (change tree).Valid) (valid : tree.Valid) :
    (modifyTree key change tree).Valid := by
  unfold modifyTree
  split
  · split
    · exact valid
    · rename_i found located
      exact ⟨replace_padValid valid.1, replace_valid (kept found (lookup_valid valid.2 located))
        valid.2⟩
  · exact valid

theorem cutParamsAuth_valid (valid : document.Valid) : (cutParamsAuth document).Valid :=
  ⟨valid.1, modifyTree_valid (fun _ => cutTree_valid) valid.2.1, valid.2.2⟩

theorem memberTree_valid {found : Tree} (valid : tree.Valid)
    (located : memberTree key tree = some found) : found.Valid := by
  unfold memberTree at located
  split at located
  · exact lookup_valid valid.2 located
  · cases located

theorem memberTree_of_not_object {text rest : List Char} {index : Nat} (valid : tree.Valid)
    (here : At text index (tree.render ++ rest)) :
    (charAt text index = some '\x7b' ∧ ∃ pad entries, tree = .block .object pad entries) ∨
      (charAt text index ≠ some '\x7b' ∧ memberTree key tree = none) := by
  cases tree with
  | word word =>
    obtain ⟨filled, plain⟩ := validWord_plain valid
    obtain ⟨c, tail, begun⟩ := List.exists_cons_of_ne_nil filled
    obtain ⟨_, _, _, object, _⟩ := wordChar_of_plain (plain c (begun ▸ List.mem_cons_self))
    rw [begun] at here
    exact Or.inr ⟨by simp [charAt_cons here, object], rfl⟩
  | string body =>
    exact Or.inr ⟨by simp [charAt_cons here], rfl⟩
  | block kind pad entries =>
    cases kind with
    | array => exact Or.inr ⟨by simp [charAt_cons here, Kind.opening], rfl⟩
    | object => exact Or.inl ⟨charAt_cons here, pad, entries, rfl⟩

theorem document_split {before after pad front back : List Char} {entries : Entries} {found : Tree}
    (text : entries.render = front ++ found.render ++ back) :
    (Document.mk before (.block .object pad entries) after).render =
      (before ++ '\x7b' :: (pad ++ front)) ++ found.render ++ (back ++ '\x7d' :: after) := by
  simp [Document.render, Tree.render, Kind.opening, Kind.closing, text]

theorem locateParamsAuth_object {opened : Nat} (skipped : skipWhitespace line 0 = opened)
    (object : charAt line opened = some '\x7b') {found : Option Member}
    (located : findMember line opened "params" = .ok found) :
    locateParamsAuth line = found.elim (.ok none) fun params =>
      if charAt line params.valueStart ≠ some '\x7b' then .ok none
      else findMember line params.valueStart "auth" := by
  unfold locateParamsAuth
  simp only [skipped, object, ne_eq, not_true_eq_false, located]
  cases found <;> rfl

theorem locateParamsAuth_render (valid : document.Valid) :
    (paramsAuthTree document.root = none ∧ locateParamsAuth document.render = .ok none) ∨
      ∃ auth member, paramsAuthTree document.root = some auth ∧
        locateParamsAuth document.render = .ok (some member) ∧
        removeMember document.render member.span = (cutParamsAuth document).render ∧
        (document.render.take member.span.stop).drop member.valueStart = auth.render := by
  obtain ⟨before, root, after⟩ := document
  obtain ⟨blankBefore, rootValid, blankAfter⟩ := valid
  have here : At (Document.mk before root after).render 0 (before ++ (root.render ++ after)) := by
    simp [At, Document.render]
  have skipped := skipWhitespace_at blankBefore ((Tree.begins rootValid).append after).unblank here
  have start := here.append
  rw [Nat.zero_add] at skipped start
  rcases @memberTree_of_not_object paramsKey _ _ _ _ rootValid start with
    ⟨opened, pad, entries, rfl⟩ | ⟨different, absent⟩
  swap
  · refine Or.inl ⟨by simp [paramsAuthTree, absent], ?_⟩
    unfold locateParamsAuth
    simp only [skipped, if_pos different]
  rw [locateParamsAuth_object skipped opened (findMember_at rootValid start "params")]
  cases located : lookup paramsKey entries with
  | none =>
    refine Or.inl ⟨by simp [paramsAuthTree, memberTree, located], ?_⟩
    rw [show codeUnits "params" = paramsKey from rfl, findEntry_eq_none.mpr located]
    rfl
  | some params =>
    obtain ⟨front, back, text, replaced, indexed⟩ := lookup_split located
    obtain ⟨begun, named⟩ := indexed (before.length + 1 + pad.length)
    rw [show codeUnits "params" = paramsKey from rfl, named, Option.elim_some]
    have paramsValid := lookup_valid rootValid.2 located
    have whole := @document_split before after pad _ _ _ _ text
    have position : before.length + 1 + pad.length + front.length =
        (before ++ '\x7b' :: (pad ++ front)).length := by
      simp only [List.length_append, List.length_cons]
      omega
    have there : At (Document.mk before (.block .object pad entries) after).render
        (before ++ '\x7b' :: (pad ++ front)).length
        (params.render ++ (back ++ '\x7d' :: after)) := by
      rw [At, whole, List.append_assoc, List.drop_left]
    simp only [position]
    rcases @memberTree_of_not_object authKey _ _ _ _ paramsValid there with
      ⟨object, pad', entries', rfl⟩ | ⟨different, absent⟩
    swap
    · have missing : paramsAuthTree (.block .object pad entries) = none := by
        rw [paramsAuthTree, memberTree, located]
        exact absent
      exact Or.inl ⟨missing, by rw [if_pos different]⟩
    rw [if_neg (by simpa using object), findMember_at paramsValid there,
      show codeUnits "auth" = authKey from rfl]
    cases inner : lookup authKey entries' with
    | none =>
      refine Or.inl ⟨by simp [paramsAuthTree, memberTree, located, inner], ?_⟩
      rw [findEntry_eq_none.mpr inner]
    | some auth =>
      obtain ⟨front', back', text', _, indexed'⟩ := lookup_split inner
      obtain ⟨begun', named'⟩ :=
        indexed' ((before ++ '\x7b' :: (pad ++ front)).length + 1 + pad'.length)
      refine Or.inr ⟨auth, _, by simp [paramsAuthTree, memberTree, located, inner],
        by rw [named'], ?_, ?_⟩
      · rw [whole, removeMember_block paramsValid named', cutParamsAuth, modifyTree, located]
        rw [document_split (replaced _)]
      · have slice : At (Document.mk before (.block .object pad entries) after).render
            ((before ++ '\x7b' :: (pad ++ front)).length + 1 + pad'.length + front'.length)
            (auth.render ++ (back' ++ '\x7d' :: (back ++ '\x7d' :: after))) := by
          have inside : At (Document.mk before (.block .object pad entries) after).render
              (before ++ '\x7b' :: (pad ++ front)).length
              (['\x7b'] ++ (pad' ++ (front' ++ (auth.render ++
                (back' ++ '\x7d' :: (back ++ '\x7d' :: after)))))) := by
            rw [At, there]
            simp [Tree.render, Kind.opening, Kind.closing, text']
          exact inside.append.append.append
        exact slice_at slice

theorem canonicaliseRequest_render (valid : document.Valid) : canonicaliseRequest document.render =
        .ok ((paramsAuthTree document.root).map fun _ => (cutParamsAuth document).render) ∧
      extractAuthValueText document.render =
        .ok ((paramsAuthTree document.root).map Tree.render) := by
  rcases locateParamsAuth_render valid with ⟨absent, located⟩ |
    ⟨auth, member, present, located, cut, slice⟩
  · rw [canonicaliseRequest, extractAuthValueText, located, absent]
    exact ⟨rfl, rfl⟩
  · rw [canonicaliseRequest, extractAuthValueText, located, present]
    simp only [Except.map, Option.map_some, cut, slice, and_self]

section Values

variable {ν : Type}

/-- An object without the member under the name. -/
def eraseMember (key : List Nat) : Value ν → Value ν
  | .object members => .object (members.filter fun member => decide (member.1 ≠ key))
  | value => value

def modifyMember (key : List Nat) (change : Value ν → Value ν) : Value ν → Value ν
  | .object members =>
    .object (members.map fun member =>
      if member.1 = key then (member.1, change member.2) else member)
  | value => value

def paramsAuth (record : Value ν) : Option (Value ν) :=
  (record.member? paramsKey).bind (Value.member? authKey)

def withoutParamsAuth (record : Value ν) : Value ν :=
  modifyMember paramsKey (eraseMember authKey) record

variable (read : Numeral → ν)

theorem RepeatsName.not_member {kind : Kind} {pad : List Char} {entries : Entries}
    (once : ¬ RepeatsName (.block kind pad entries)) :
    (kind = .object → (names entries).Nodup) ∧ ∀ value ∈ values entries, ¬ RepeatsName value := by
  rw [repeatsName_block, not_or] at once
  refine ⟨fun object => ?_, fun value listed repeated => once.2 ⟨value, listed, repeated⟩⟩
  by_contra again
  exact once.1 ⟨object, again⟩

variable {key : List Nat} {found tree : Tree}

theorem lookup_mem_values : {entries : Entries} →
    lookup key entries = some found → found ∈ values entries
  | .cons _ label value _ rest, located => by
      unfold lookup at located
      split at located
      · cases located
        exact List.mem_cons_self
      · exact List.mem_cons_of_mem _ (lookup_mem_values located)

theorem value_object {pad : List Char} {entries : Entries} (distinct : (names entries).Nodup) :
    (Tree.block .object pad entries).value read = .object (entries.members read) := by
  rw [Tree.value, settle_nodup (by rwa [map_fst_members])]

theorem wordValue_cases (text : List Char) :
    (∃ value, wordValue read text = .number value) ∨ (∃ value, wordValue read text = .bool value) ∨
      wordValue read text = .null := by
  rw [wordValue]
  split
  · exact Or.inl ⟨_, rfl⟩
  · split
    · exact Or.inr (Or.inl ⟨true, rfl⟩)
    · split
      · exact Or.inr (Or.inl ⟨false, rfl⟩)
      · exact Or.inr (Or.inr rfl)

theorem member?_tree (once : ¬ RepeatsName tree) :
    (tree.value read).member? key = (memberTree key tree).map (Tree.value read) := by
  cases tree with
  | word text =>
    change (wordValue read text).member? key = none
    obtain ⟨value, word⟩ | ⟨value, word⟩ | word := wordValue_cases read text <;> rw [word] <;> rfl
  | string body => rfl
  | block kind pad entries =>
    cases kind with
    | array => rfl
    | object =>
      rw [value_object read ((RepeatsName.not_member once).1 rfl)]
      exact find?_members read entries

theorem memberTree_once (once : ¬ RepeatsName tree) (located : memberTree key tree = some found) :
    ¬ RepeatsName found := by
  cases tree with
  | word text => cases located
  | string body => cases located
  | block kind pad entries =>
    cases kind with
    | array => cases located
    | object => exact (RepeatsName.not_member once).2 found (lookup_mem_values located)

theorem value_cutTree (once : ¬ RepeatsName tree) :
    (cutTree key tree).value read = eraseMember key (tree.value read) := by
  cases tree with
  | word text =>
    change wordValue read text = eraseMember key (wordValue read text)
    obtain ⟨value, word⟩ | ⟨value, word⟩ | word := wordValue_cases read text <;> rw [word] <;> rfl
  | string body => rfl
  | block kind pad entries =>
    cases kind with
    | array => rfl
    | object =>
      have distinct := (RepeatsName.not_member once).1 rfl
      have pairs : ((entries.members read).map Prod.fst).Nodup := by rwa [map_fst_members]
      have kept : ((cutBlock key pad entries).2.members read).map Prod.fst |>.Nodup := by
        rw [members_cutBlock]
        exact pairs.sublist (List.eraseP_sublist.map _)
      rw [value_object read distinct, cutTree, Tree.value, settle_nodup kept,
        members_cutBlock, eraseP_nodup key pairs, eraseMember]

theorem names_replace {value' : Tree} (entries : Entries) :
    names (replace key value' entries) = names entries := by
  induction entries using replace.induct key with
  | case1 => rfl
  | case2 before label value after rest here =>
    rw [replace, if_pos here]
    rfl
  | case3 before label value after rest different ih =>
    rw [replace, if_neg different, names, names, ih]

theorem member_value : (entries : Entries) →
    (names entries).Nodup → lookup key entries = some found → {member : List Nat × Value ν} →
    member ∈ entries.members read → member.1 = key → member.2 = found.value read
  | .cons _ label value _ rest, distinct, located, member, listed, named => by
      rw [names, List.nodup_cons] at distinct
      unfold lookup at located
      rw [Entries.members, List.mem_cons] at listed
      split at located
      · rename_i here
        cases located
        rcases listed with rfl | later
        · rfl
        · refine absurd ?_ distinct.1
          rw [here, ← named, ← map_fst_members read]
          exact List.mem_map_of_mem later
      · rename_i different
        rcases listed with rfl | later
        · exact absurd named different
        · exact member_value rest distinct.2 located later named

theorem value_modifyTree {change : Tree → Tree} {changed : Value ν → Value ν}
    (once : ¬ RepeatsName tree)
    (agrees : ∀ found, memberTree key tree = some found →
      (change found).value read = changed (found.value read)) :
    (modifyTree key change tree).value read = modifyMember key changed (tree.value read) := by
  cases tree with
  | word text =>
    change wordValue read text = modifyMember key changed (wordValue read text)
    obtain ⟨value, word⟩ | ⟨value, word⟩ | word := wordValue_cases read text <;> rw [word] <;> rfl
  | string body => rfl
  | block kind pad entries =>
    cases kind with
    | array => rfl
    | object =>
      have distinct := (RepeatsName.not_member once).1 rfl
      rw [value_object read distinct, modifyTree, modifyMember]
      cases located : lookup key entries with
      | none =>
        have untouched : (entries.members read).map (fun member =>
            if member.1 = key then (member.1, changed member.2) else member) =
              entries.members read := by
          refine (List.map_congr_left fun member listed => ?_).trans (List.map_id _)
          have absent := lookup_eq_none.mp located
          rw [← map_fst_members read] at absent
          exact if_neg fun same : member.1 = key => absent (same ▸ List.mem_map_of_mem listed)
        rw [untouched]
        exact value_object read distinct
      | some found =>
        have rows : (replace key (change found) entries).members read =
            (entries.members read).map fun member =>
              if member.1 = key then (member.1, (change found).value read) else member :=
          members_replace read entries distinct
        have same : (entries.members read).map (fun member =>
            if member.1 = key then (member.1, (change found).value read) else member) =
              (entries.members read).map fun member =>
                if member.1 = key then (member.1, changed member.2) else member := by
          refine List.map_congr_left fun member listed => ?_
          by_cases named : member.1 = key
          · rw [if_pos named, if_pos named, agrees found located,
              member_value read entries distinct located listed named]
          · rw [if_neg named, if_neg named]
        have pairs : ((replace key (change found) entries).members read).map Prod.fst |>.Nodup := by
          rw [map_fst_members, names_replace]
          exact distinct
        change Value.object (settle _) = _
        rw [settle_nodup pairs, rows, same]

theorem paramsAuth_tree {root : Tree} (once : ¬ RepeatsName root) :
    paramsAuth (root.value read) = (paramsAuthTree root).map (Tree.value read) := by
  rw [paramsAuth, member?_tree read once, paramsAuthTree]
  cases located : memberTree paramsKey root with
  | none => rfl
  | some params => exact member?_tree read (memberTree_once once located)

theorem withoutParamsAuth_tree {document : Document} (once : ¬ RepeatsName document.root) :
    (cutParamsAuth document).root.value read = withoutParamsAuth (document.root.value read) :=
  value_modifyTree read once fun _ located => value_cutTree read (memberTree_once once located)

theorem member?_modifyMember {name : List Nat} (change : Value ν → Value ν) (record : Value ν) :
    (modifyMember key change record).member? name =
      if name = key then (record.member? name).map change else record.member? name := by
  cases record with
  | object members =>
    simp only [modifyMember, Value.member?]
    induction members with
    | nil => simp
    | cons member members ih =>
      rw [List.map_cons]
      by_cases named : member.1 = name
      · by_cases keyed : member.1 = key
        · obtain rfl : name = key := named.symm.trans keyed
          simp [named]
        · have other : name ≠ key := fun same => keyed (named.trans same)
          simp [named, other]
      · have passed :
            (if member.1 = key then (member.1, change member.2) else member).1 ≠ name := by
          split <;> exact named
        rw [List.find?_cons_of_neg (by simpa using passed),
          List.find?_cons_of_neg (by simpa using named), ih]
  | null => simp [modifyMember, Value.member?]
  | bool value => simp [modifyMember, Value.member?]
  | number value => simp [modifyMember, Value.member?]
  | string units => simp [modifyMember, Value.member?]
  | array items => simp [modifyMember, Value.member?]

end Values

/-- Some object in the text, at any depth, has two members whose names read alike. -/
def TextRepeatsName (line : List Char) : Prop :=
  ∃ document, readDocument line = some document ∧ RepeatsName document.root

theorem parseLine_document {record : Value JsonNumber} (parsed : parseLine line = some record) :
    ∃ document : Document, readDocument line = some document ∧ line = document.render ∧
      document.Valid ∧ document.root.value readNumeral = record := by
  obtain ⟨document, found, rfl⟩ := Option.map_eq_some_iff.mp parsed
  obtain ⟨text, valid⟩ := readDocument_sound found
  exact ⟨document, found, text, valid, rfl⟩

theorem hasDuplicateKey_iff {record : Value JsonNumber} (parsed : parseLine line = some record) :
    ∃ repeats, hasDuplicateKey line = .ok repeats ∧ (repeats = true ↔ TextRepeatsName line) := by
  obtain ⟨document, found, rfl, valid, rfl⟩ := parseLine_document parsed
  refine ⟨_, hasDuplicateKey_render valid, ?_⟩
  rw [treeRepeats_iff]
  constructor
  · exact fun repeated => ⟨document, found, repeated⟩
  · rintro ⟨other, again, repeated⟩
    rw [found] at again
    cases again
    exact repeated

theorem scan_of_distinct {record : Value JsonNumber} (parsed : parseLine line = some record)
    (distinct : hasDuplicateKey line = .ok false) :
    ∃ canonical auth, canonicaliseRequest line = .ok canonical ∧
      extractAuthValueText line = .ok auth ∧
      (canonical = none ↔ paramsAuth record = none) ∧
      (∀ text, canonical = some text → parseLine text = some (withoutParamsAuth record)) ∧
      auth.map parseLine = (paramsAuth record).map some := by
  obtain ⟨document, found, rfl, valid, rfl⟩ := parseLine_document parsed
  obtain ⟨cut, text⟩ := canonicaliseRequest_render valid
  rw [hasDuplicateKey_render valid, Except.ok.injEq] at distinct
  have once : ¬ RepeatsName document.root := by
    rw [← treeRepeats_iff, distinct]
    simp
  refine ⟨_, _, cut, text, ?_, ?_, ?_⟩
  · rw [paramsAuth_tree readNumeral once]
    simp
  · intro canonical cutText
    obtain ⟨_, _, rfl⟩ := Option.map_eq_some_iff.mp cutText
    rw [parseLine_render (cutParamsAuth_valid valid), withoutParamsAuth_tree readNumeral once]
  · rw [paramsAuth_tree readNumeral once]
    cases present : paramsAuthTree document.root with
    | none => rfl
    | some auth =>
      obtain ⟨params, under, within⟩ := Option.bind_eq_some_iff.mp present
      have authValid := memberTree_valid (memberTree_valid valid.2.1 under) within
      have alone : (Document.mk [] auth []).Valid := ⟨blank_nil, authValid, blank_nil⟩
      have reads := parseLine_render alone
      rw [Document.render, List.nil_append, List.append_nil] at reads
      simp [reads]

theorem textEncode_injective : Function.Injective textEncode := by
  intro text text' same
  have encoded : text.utf8Encode = text'.utf8Encode := congrArg List.toByteArray same
  have decoded := congrArg ByteArray.utf8Decode? encoded
  simpa using decoded

theorem append_cons_inj {α : Type} {mark : α} {front front' back back' : List α}
    (free : mark ∉ front) (free' : mark ∉ front')
    (same : front ++ mark :: back = front' ++ mark :: back') : front = front' ∧ back = back' := by
  induction front generalizing front' with
  | nil =>
    cases front' with
    | nil => exact ⟨rfl, (List.cons.inj same).2⟩
    | cons a front' =>
      exact absurd (List.cons.inj same).1 fun here => free' (here ▸ List.mem_cons_self)
  | cons a front ih =>
    cases front' with
    | nil => exact absurd (List.cons.inj same).1.symm fun here => free (here ▸ List.mem_cons_self)
    | cons a' front' =>
      obtain ⟨rfl, tails⟩ := List.cons.inj same
      obtain ⟨rfl, rest⟩ := ih (fun later => free (List.mem_cons_of_mem _ later))
        (fun later => free' (List.mem_cons_of_mem _ later)) tails
      exact ⟨rfl, rest⟩

theorem lineFeed_notMem_toDigits (n : Nat) : '\n' ∉ Nat.toDigits 10 n := by
  intro listed
  have digit := Nat.isDigit_of_mem_toDigits (by decide) (by decide) listed
  exact absurd digit (by decide)

theorem buildAuthMacMessage_inj {challenge : List UInt8} {sequence sequence' : Nat}
    {canonical canonical' : List Char}
    (same : buildAuthMacMessage challenge sequence canonical =
      buildAuthMacMessage challenge sequence' canonical') :
    sequence = sequence' ∧ canonical = canonical' := by
  have suffix := textEncode_injective (List.append_cancel_left same)
  obtain ⟨digits, rest⟩ := append_cons_inj (lineFeed_notMem_toDigits sequence)
    (lineFeed_notMem_toDigits sequence') (List.cons.inj suffix).2
  refine ⟨?_, rest⟩
  rw [← Nat.ofDigitChars_ten_toDigits (n := sequence), digits, Nat.ofDigitChars_ten_toDigits]

section Runs

variable (hmacSha256 : List UInt8 → List UInt8 → List UInt8)

theorem equal_requests {credential : AuthenticatedCredential}
    (injective : Function.Injective (hmacSha256 credential.secret))
    {connection connection' : ConnectionAuthState}
    (challenged : connection.challenge = connection'.challenge) {line line' : List Char}
    {record record' : Value JsonNumber} (parsed : parseLine line = some record)
    (parsed' : parseLine line' = some record')
    (verified : (verifyRequest hmacSha256 credential connection line).1 = .authenticated)
    (verified' : (verifyRequest hmacSha256 credential connection' line').1 = .authenticated)
    (macs : (requestEnvelope line).map RequestAuthEnvelope.mac =
      (requestEnvelope line').map RequestAuthEnvelope.mac) :
    (requestEnvelope line).map RequestAuthEnvelope.sequence =
        (requestEnvelope line').map RequestAuthEnvelope.sequence ∧
      withoutParamsAuth record = withoutParamsAuth record' := by
  rcases @verifyRequest_cases hmacSha256 credential connection line with
    ⟨canonical, shown, distinct, cut, read, _, _, mac, _⟩ | ⟨rejected, _⟩
  swap
  · exact absurd verified rejected
  rcases @verifyRequest_cases hmacSha256 credential connection' line' with
    ⟨canonical', shown', distinct', cut', read', _, _, mac', _⟩ | ⟨rejected, _⟩
  swap
  · exact absurd verified' rejected
  rw [read, read', Option.map_some, Option.map_some, Option.some.injEq] at macs
  rw [macs, mac', challenged] at mac
  obtain ⟨sequences, texts⟩ := buildAuthMacMessage_inj (injective mac)
  obtain ⟨_, _, scanned, _, _, reads, _⟩ := scan_of_distinct parsed distinct
  obtain ⟨_, _, scanned', _, _, reads', _⟩ := scan_of_distinct parsed' distinct'
  rw [cut, Except.ok.injEq] at scanned
  rw [cut', Except.ok.injEq] at scanned'
  have left := reads _ scanned.symm
  have right := reads' _ scanned'.symm
  rw [texts] at right
  exact ⟨by simp [read, read', sequences], Option.some.inj (left.symm.trans right)⟩

/-- The sequence numbers of the requests that one connection authenticates, in their order. -/
def authenticatedSequences (credential : AuthenticatedCredential) :
    ConnectionAuthState → List (List Char) → List Nat
  | _, [] => []
  | connection, line :: lines =>
    let verified := verifyRequest hmacSha256 credential connection line
    let rest := authenticatedSequences credential verified.2 lines
    match verified.1, requestEnvelope line with
    | .authenticated, some envelope => envelope.sequence :: rest
    | _, _ => rest

theorem authenticatedSequences_increase (credential : AuthenticatedCredential)
    (lines : List (List Char)) : ∀ connection : ConnectionAuthState,
    (connection.lastSequence ::
      authenticatedSequences hmacSha256 credential connection lines).Pairwise
      (· < ·) := by
  induction lines with
  | nil => simp [authenticatedSequences]
  | cons line lines ih =>
    intro connection
    rcases @verifyRequest_cases hmacSha256 credential connection line with
      ⟨_, shown, _, _, read, _, advances, _, verified⟩ | ⟨rejected, kept⟩
    · have rest := ih { connection with lastSequence := shown.sequence }
      simp only [authenticatedSequences, verified, read]
      refine List.pairwise_cons.mpr ⟨fun later listed => ?_, rest⟩
      rcases List.mem_cons.mp listed with rfl | listed
      · exact advances
      · exact advances.trans ((List.pairwise_cons.mp rest).1 later listed)
    · have rest := ih connection
      unfold authenticatedSequences
      simp only [kept]
      split
      · rename_i authenticated _
        exact absurd authenticated rejected
      · exact rest

end Runs

theorem equal_fields {record record' : Value JsonNumber}
    (same : withoutParamsAuth record = withoutParamsAuth record') :
    field record "method" = field record' "method" ∧ field record "id" = field record' "id" ∧
      (field record "params").map (eraseMember authKey) =
        (field record' "params").map (eraseMember authKey) := by
  have kept : ∀ (record : Value JsonNumber) (name : String),
      (withoutParamsAuth record).member? (codeUnits name) =
      if codeUnits name = paramsKey then (field record name).map (eraseMember authKey)
      else field record name := fun record name => member?_modifyMember _ record
  have method := congrArg (Value.member? (codeUnits "method")) same
  have id := congrArg (Value.member? (codeUnits "id")) same
  have params := congrArg (Value.member? (codeUnits "params")) same
  rw [kept, kept] at method id
  rw [kept, kept] at params
  exact ⟨method, id, params⟩

/-- The scanner agrees with the reader on every line, so that the code covers the whole request. -/
theorem request_mac_covers :
    (∀ (line : List Char) (record : Value JsonNumber), parseLine line = some record →
      ∃ repeats, hasDuplicateKey line = .ok repeats ∧ (repeats = true ↔ TextRepeatsName line) ∧
        (repeats = false → ∃ canonical auth, canonicaliseRequest line = .ok canonical ∧
          extractAuthValueText line = .ok auth ∧
          (canonical = none ↔ paramsAuth record = none) ∧
          (auth = none ↔ paramsAuth record = none) ∧
          (∀ text, canonical = some text → parseLine text = some (withoutParamsAuth record)) ∧
          ∀ text, auth = some text → parseLine text = paramsAuth record)) ∧
    (∀ (hmacSha256 : List UInt8 → List UInt8 → List UInt8) (credential : AuthenticatedCredential),
      Function.Injective (hmacSha256 credential.secret) →
      ∀ (connection connection' : ConnectionAuthState) (line line' : List Char)
        (record record' : Value JsonNumber), connection.challenge = connection'.challenge →
      parseLine line = some record → parseLine line' = some record' →
      (verifyRequest hmacSha256 credential connection line).1 = .authenticated →
      (verifyRequest hmacSha256 credential connection' line').1 = .authenticated →
      (requestEnvelope line).map RequestAuthEnvelope.mac =
        (requestEnvelope line').map RequestAuthEnvelope.mac →
      (requestEnvelope line).map RequestAuthEnvelope.sequence =
          (requestEnvelope line').map RequestAuthEnvelope.sequence ∧
        withoutParamsAuth record = withoutParamsAuth record' ∧
        field record "method" = field record' "method" ∧ field record "id" = field record' "id" ∧
        (field record "params").map (eraseMember authKey) =
          (field record' "params").map (eraseMember authKey)) ∧
    ∀ (hmacSha256 : List UInt8 → List UInt8 → List UInt8) (credential : AuthenticatedCredential),
      (∀ (connection : ConnectionAuthState) (lines : List (List Char)),
        (connection.lastSequence ::
          authenticatedSequences hmacSha256 credential connection lines).Pairwise (· < ·)) ∧
      ∀ (connection : ConnectionAuthState) (line : List Char),
        (verifyRequest hmacSha256 credential connection line).1 ≠ .authenticated →
        (verifyRequest hmacSha256 credential connection line).2 = connection := by
  refine ⟨?_, ?_, fun hmacSha256 credential => ⟨?_, ?_⟩⟩
  · intro line record parsed
    obtain ⟨repeats, scanned, iff⟩ := hasDuplicateKey_iff parsed
    refine ⟨repeats, scanned, iff, ?_⟩
    rintro rfl
    obtain ⟨canonical, auth, cut, text, absent, reads, values⟩ := scan_of_distinct parsed scanned
    refine ⟨canonical, auth, cut, text, absent, ?_, reads, ?_⟩
    · rw [← Option.map_eq_none_iff (f := parseLine), values, Option.map_eq_none_iff]
    · rintro found rfl
      cases present : paramsAuth record with
      | none => simp [present] at values
      | some value => simpa [present] using values
  · intro hmacSha256 credential injective connection connection' line line' record record'
      challenged parsed parsed' verified verified' macs
    obtain ⟨sequences, requests⟩ := equal_requests hmacSha256 injective challenged parsed parsed'
      verified verified' macs
    exact ⟨sequences, requests, equal_fields requests⟩
  · exact fun connection lines =>
      authenticatedSequences_increase hmacSha256 credential lines connection
  · intro connection line rejected
    rcases @verifyRequest_cases hmacSha256 credential connection line with
      ⟨_, _, _, _, _, _, _, _, verified⟩ | ⟨_, kept⟩
    · exact absurd (congrArg Prod.fst verified) rejected
    · exact kept

def sampleMac : List Nat :=
  codeUnits "73e2b9c0e57a32ec2341a9d31f270ac1f329ee9ad870853e649dd5440830bdf5"

def sampleAuth : List Char :=
  "\"auth\":\x7b\"schemaVersion\":1,\"keyId\":\"k\",\"sequence\":1,".toList ++
    "\"mac\":\"73e2b9c0e57a32ec2341a9d31f270ac1f329ee9ad870853e649dd5440830bdf5\"\x7d".toList

def sampleParams (inner : List Char) : List Char :=
  "\x7b\"jsonrpc\":\"2.0\",\"id\":1,\"method\":\"m\",\"params\":\x7b".toList ++ inner ++
    "\x7d\x7d".toList

def authFirst : List Char := sampleParams (sampleAuth ++ ",\"x\":1".toList)

def authLast : List Char := sampleParams ("\"x\":1,".toList ++ sampleAuth)

def sampleConnection : ConnectionAuthState := ⟨(List.range 32).map UInt8.ofNat, 0⟩

/-- The keyed hash at the sample message, and an injective one at all others. -/
def sampleHmac (_ message : List UInt8) : List UInt8 :=
  if message = buildAuthMacMessage sampleConnection.challenge 1 (sampleParams "\"x\":1".toList) then
    hexToBytes sampleMac
  else List.replicate 33 0 ++ message

theorem sampleHmac_injective (key : List UInt8) : Function.Injective (sampleHmac key) := by
  intro message message' same
  have short : (hexToBytes sampleMac).length = 32 := by decide +kernel
  unfold sampleHmac at same
  split_ifs at same with here there there
  · exact here.trans there.symm
  · have lengths := congrArg List.length same
    rw [List.length_append, List.length_replicate] at lengths
    omega
  · have lengths := congrArg List.length same
    rw [List.length_append, List.length_replicate] at lengths
    omega
  · exact List.append_cancel_left same

theorem request_mac_covers_authFirst : ∃ record record', parseLine authFirst = some record ∧
    parseLine authLast = some record' ∧ withoutParamsAuth record = withoutParamsAuth record' := by
  have reads : (parseLine authFirst).isSome = true := by decide +kernel
  have reads' : (parseLine authLast).isSome = true := by decide +kernel
  obtain ⟨record, parsed⟩ := Option.isSome_iff_exists.mp reads
  obtain ⟨record', parsed'⟩ := Option.isSome_iff_exists.mp reads'
  have alike := request_mac_covers.2.1 sampleHmac ⟨[107], [7]⟩ (sampleHmac_injective _)
    sampleConnection sampleConnection authFirst authLast record record' rfl parsed parsed'
    (by decide +kernel) (by decide +kernel) (by decide +kernel)
  exact ⟨record, record', parsed, parsed', alike.2.1⟩

end Heniek.RequestCoverage
