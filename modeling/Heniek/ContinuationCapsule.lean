import Heniek.RecoveryPolicy

/-!
The continuation capsule of a run segment: its bounds, the digest over its canonical
text and the checks that its content passes before it is built.
-/

namespace Heniek.ContinuationCapsule
open ScriptText RecoveryPolicy

inductive CanonicalValue where
  | text (value : String)
  | number (value : Nat)
  | array (items : List CanonicalValue)
  | object (members : List (String × CanonicalValue))

mutual

def canonicalStringify : CanonicalValue → String
  | .text value => quote value
  | .number value => toString value
  | .array items => "[" ++ ",".intercalate (itemTexts items) ++ "]"
  | .object members =>
    "\x7b" ++ ",".intercalate ((sortBy Prod.fst (memberTexts members)).map Prod.snd) ++ "\x7d"

def itemTexts : List CanonicalValue → List String
  | [] => []
  | item :: items => canonicalStringify item :: itemTexts items

def memberText : String × CanonicalValue → String × String
  | (key, value) => (key, quote key ++ ":" ++ canonicalStringify value)

def memberTexts : List (String × CanonicalValue) → List (String × String)
  | [] => []
  | member :: members => memberText member :: memberTexts members

end

def texts (values : List String) : CanonicalValue := .array (values.map .text)

/-- A member that is written only when its value is there. -/
def optional (key : String) (value : Option CanonicalValue) : List (String × CanonicalValue) :=
  value.toList.map (key, ·)

def narrativeMaxBytes : Nat := 32 * 1024

def descriptionMaxBytes : Nat := 1024

def referenceCollectionMax : Nat := 64

def planItemsMax : Nat := 256

def isWhiteSpace (c : Char) : Bool :=
  decide (c.toNat ∈ [9, 10, 11, 12, 13, 32, 0xA0, 0x1680, 0x2028, 0x2029, 0x202F, 0x205F, 0x3000,
    0xFEFF]) || (decide (0x2000 ≤ c.toNat) && decide (c.toNat ≤ 0x200A))

def trim (text : String) : String :=
  String.ofList (((text.toList.dropWhile isWhiteSpace).reverse.dropWhile isWhiteSpace).reverse)

/-- The longest part of a text within a number of bytes, and the bytes it takes. -/
def withinBytes : (budget : Nat) → List Char → List Char × Nat
  | _, [] => ([], 0)
  | budget, c :: cs =>
    if c.utf8Size ≤ budget then
      let rest := withinBytes (budget - c.utf8Size) cs
      (c :: rest.1, c.utf8Size + rest.2)
    else ([], 0)

structure TruncatedNarrative where
  text : String
  omittedBytes : Nat

def omissionMarker (omitted : Nat) : String :=
  "\n\n[…omitted " ++ toString omitted ++ " bytes]\n"

def truncateNarrative (narrative : String) (maxBytes : Nat := narrativeMaxBytes) :
    TruncatedNarrative :=
  let total := narrative.utf8ByteSize
  if total ≤ maxBytes then ⟨narrative, 0⟩
  else
    let marker := omissionMarker (total - maxBytes)
    let kept := withinBytes (maxBytes - marker.utf8ByteSize) narrative.toList
    ⟨String.ofList kept.1 ++ marker, total - kept.2⟩

structure TruncatedDescription where
  text : String
  truncated : Bool

def truncateDescription (value : String) (maxBytes : Nat := descriptionMaxBytes) :
    TruncatedDescription :=
  if value.utf8ByteSize ≤ maxBytes then ⟨value, false⟩
  else ⟨String.ofList (withinBytes maxBytes value.toList).1, true⟩

def sortUnique (values : List String) : List String := sortTexts values.dedup

structure Bounded (α : Type) where
  items : List α
  overflow : Bool

def boundCollection {α : Type} (values : List α) (max : Nat) : Bounded α :=
  if values.length ≤ max then ⟨values, false⟩ else ⟨values.take max, true⟩

theorem boundCollection_items {α : Type} {values : List α} {max : Nat}
    (fits : (boundCollection values max).overflow = false) :
    (boundCollection values max).items = values := by
  unfold boundCollection at fits ⊢
  split_ifs at fits ⊢
  rfl

structure CapsuleArtifactRef where
  artifactId : String
  contentHash : String
  name : Option String := none
  deriving DecidableEq

structure CapsuleContextFileRef where
  path : String
  contentHash : Option String := none
  deriving DecidableEq

structure CapsuleRepositoryHead where
  repositoryId : String
  head : String
  deriving DecidableEq

/-- What the builder and the capsule have in common. -/
structure SegmentCoordinates where
  runId : String
  stageId : String
  attemptId : String
  segmentId : String
  segmentOrdinal : Nat
  completedPlanItems : List String
  activePlanItem : Option String
  remainingPlanItems : Option (List String)
  nextAction : String
  repositoryHeads : List CapsuleRepositoryHead
  dirtyFiles : List String
  artifactRefs : List CapsuleArtifactRef
  contextFileRefs : List CapsuleContextFileRef
  decisionIds : List String
  unresolvedQuestionIds : List String
  riskRefs : List String
  telemetryCursor : Option String
  outgoingSessionId : String
  createdAt : String
  deriving DecidableEq

structure BuildCapsuleInput extends SegmentCoordinates where
  narrativeMarkdown : Option String

/-- A capsule without its digest. -/
structure CapsuleContent extends SegmentCoordinates where
  schemaVersion : Nat
  capsuleId : String
  narrativeDigest : Option String
  omittedNarrativeBytes : Option Nat
  omittedDescriptionCount : Option Nat
  deriving DecidableEq

structure PipelineContinuationCapsule extends CapsuleContent where
  digest : String
  deriving DecidableEq

def CapsuleRepositoryHead.payload (head : CapsuleRepositoryHead) : CanonicalValue :=
  .object [("repositoryId", .text head.repositoryId), ("head", .text head.head)]

def CapsuleArtifactRef.payload (ref : CapsuleArtifactRef) : CanonicalValue :=
  .object ([("artifactId", .text ref.artifactId), ("contentHash", .text ref.contentHash)] ++
    optional "name" (ref.name.map .text))

def CapsuleContextFileRef.payload (ref : CapsuleContextFileRef) : CanonicalValue :=
  .object ([("path", .text ref.path)] ++ optional "contentHash" (ref.contentHash.map .text))

def capsulePayloadForDigest (capsule : CapsuleContent) : CanonicalValue :=
  .object ([("schemaVersion", .number capsule.schemaVersion),
    ("capsuleId", .text capsule.capsuleId), ("runId", .text capsule.runId),
    ("stageId", .text capsule.stageId), ("attemptId", .text capsule.attemptId),
    ("segmentId", .text capsule.segmentId), ("segmentOrdinal", .number capsule.segmentOrdinal),
    ("completedPlanItems", texts capsule.completedPlanItems),
    ("nextAction", .text capsule.nextAction),
    ("repositoryHeads", .array (capsule.repositoryHeads.map CapsuleRepositoryHead.payload)),
    ("dirtyFiles", texts capsule.dirtyFiles),
    ("artifactRefs", .array (capsule.artifactRefs.map CapsuleArtifactRef.payload)),
    ("contextFileRefs", .array (capsule.contextFileRefs.map CapsuleContextFileRef.payload)),
    ("decisionIds", texts capsule.decisionIds),
    ("unresolvedQuestionIds", texts capsule.unresolvedQuestionIds),
    ("riskRefs", texts capsule.riskRefs),
    ("outgoingSessionId", .text capsule.outgoingSessionId),
    ("createdAt", .text capsule.createdAt)] ++
    optional "activePlanItem" (capsule.activePlanItem.map .text) ++
    optional "remainingPlanItems" (capsule.remainingPlanItems.map texts) ++
    optional "telemetryCursor" (capsule.telemetryCursor.map .text) ++
    optional "narrativeDigest" (capsule.narrativeDigest.map .text) ++
    optional "omittedNarrativeBytes" (capsule.omittedNarrativeBytes.map .number) ++
    optional "omittedDescriptionCount" (capsule.omittedDescriptionCount.map .number))

section Hashed

variable [Sha256]

/-- `digest(parts)` of the identity derivations. -/
def partsDigest (parts : List String) : String :=
  String.ofList ((Sha256.hex ("\x00".intercalate parts)).toList.take 32)

def deriveCapsuleId (input : SegmentCoordinates) : String :=
  "cap:" ++ input.runId ++ ":" ++ partsDigest [input.runId, input.stageId, input.attemptId,
    input.segmentId, toString input.segmentOrdinal]

def digestCapsulePayload (capsule : CapsuleContent) : String :=
  Sha256.hex (canonicalStringify (capsulePayloadForDigest capsule))

inductive CapsuleBlocker where
  | artifactRefsOverflow | planItemsOverflow | requiredStateOverflow | emptyNextAction
  | emptyOutgoingSession
  deriving DecidableEq

inductive BuildCapsuleResult where
  | built (capsule : PipelineContinuationCapsule) (narrative : String)
  | blocked (blocker : CapsuleBlocker) (detail : String)
  deriving DecidableEq

def capsuleContent (input : BuildCapsuleInput) : CapsuleContent :=
  let nextAction := truncateDescription (trim input.nextAction)
  let narrative := truncateNarrative (input.narrativeMarkdown.getD "")
  { input.toSegmentCoordinates with
    schemaVersion := 1
    capsuleId := deriveCapsuleId input.toSegmentCoordinates
    completedPlanItems := (boundCollection input.completedPlanItems planItemsMax).items
    remainingPlanItems := input.remainingPlanItems.map fun remaining =>
      (boundCollection remaining planItemsMax).items
    nextAction := nextAction.text
    repositoryHeads := (boundCollection input.repositoryHeads referenceCollectionMax).items
    dirtyFiles := (boundCollection (sortUnique input.dirtyFiles) referenceCollectionMax).items
    artifactRefs := (boundCollection input.artifactRefs referenceCollectionMax).items
    contextFileRefs := (boundCollection input.contextFileRefs referenceCollectionMax).items
    decisionIds := (boundCollection (sortUnique input.decisionIds) referenceCollectionMax).items
    unresolvedQuestionIds :=
      (boundCollection (sortUnique input.unresolvedQuestionIds) referenceCollectionMax).items
    riskRefs := (boundCollection (sortUnique input.riskRefs) referenceCollectionMax).items
    narrativeDigest :=
      if narrative.text = "" then none else some (Sha256.hex narrative.text)
    omittedNarrativeBytes :=
      if 0 < narrative.omittedBytes then some narrative.omittedBytes else none
    omittedDescriptionCount := if nextAction.truncated then some 1 else none }

def withDigest (content : CapsuleContent) : PipelineContinuationCapsule :=
  { content with digest := digestCapsulePayload content }

def buildContinuationCapsule (input : BuildCapsuleInput) : BuildCapsuleResult :=
  if trim input.nextAction = "" then .blocked .emptyNextAction "nextAction is required"
  else if trim input.outgoingSessionId = "" then
    .blocked .emptyOutgoingSession "outgoingSessionId is required"
  else if (boundCollection input.completedPlanItems planItemsMax).overflow ||
      input.remainingPlanItems.any fun remaining =>
        (boundCollection remaining planItemsMax).overflow then
    .blocked .planItemsOverflow ("plan items exceed " ++ toString planItemsMax)
  else if (boundCollection input.artifactRefs referenceCollectionMax).overflow then
    .blocked .artifactRefsOverflow ("artifactRefs exceed " ++ toString referenceCollectionMax)
  else if (boundCollection input.repositoryHeads referenceCollectionMax).overflow ||
      (boundCollection (sortUnique input.dirtyFiles) referenceCollectionMax).overflow ||
      (boundCollection input.contextFileRefs referenceCollectionMax).overflow ||
      (boundCollection (sortUnique input.decisionIds) referenceCollectionMax).overflow ||
      (boundCollection (sortUnique input.unresolvedQuestionIds) referenceCollectionMax).overflow ||
      (boundCollection (sortUnique input.riskRefs) referenceCollectionMax).overflow then
    .blocked .requiredStateOverflow
      "a required witness or reference collection exceeded its bound"
  else
    .built (withDigest (capsuleContent input))
      (truncateNarrative (input.narrativeMarkdown.getD "")).text

def verifyCapsuleDigest (capsule : PipelineContinuationCapsule) : Bool :=
  decide (digestCapsulePayload capsule.toCapsuleContent = capsule.digest)

structure BuiltFrom (input : BuildCapsuleInput) (capsule : PipelineContinuationCapsule) : Prop where
  schemaVersion : capsule.schemaVersion = 1
  repositoryHeads : capsule.repositoryHeads = input.repositoryHeads
  dirtyFiles : capsule.dirtyFiles = sortUnique input.dirtyFiles
  artifactRefs : capsule.artifactRefs = input.artifactRefs
  contextFileRefs : capsule.contextFileRefs = input.contextFileRefs
  digest : verifyCapsuleDigest capsule = true

theorem buildContinuationCapsule_built {input : BuildCapsuleInput}
    {capsule : PipelineContinuationCapsule} {narrative : String}
    (built : buildContinuationCapsule input = .built capsule narrative) :
    BuiltFrom input capsule := by
  unfold buildContinuationCapsule at built
  split_ifs at built with _ _ _ artifacts required
  cases built
  simp only [Bool.or_eq_true, not_or, Bool.not_eq_true] at artifacts required
  obtain ⟨⟨⟨⟨⟨heads, dirty⟩, contexts⟩, _⟩, _⟩, _⟩ := required
  exact {
    schemaVersion := rfl
    repositoryHeads := boundCollection_items heads
    dirtyFiles := boundCollection_items dirty
    artifactRefs := boundCollection_items artifacts
    contextFileRefs := boundCollection_items contexts
    digest := by simp [verifyCapsuleDigest, withDigest] }

end Hashed

end Heniek.ContinuationCapsule
