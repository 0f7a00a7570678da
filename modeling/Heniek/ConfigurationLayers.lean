import Heniek.CanonicalState
import Heniek.RpcCodec
import Mathlib.Logic.Function.Basic
import Mathlib.Order.WithBot

/-!
The resolution of the configuration layers: the documents are sorted by layer, pruned
of what JSON has no text for and merged, and then every leaf of the merged document is
looked up in the documents again, where the policy decides which of them it is taken
from. A document is a tree of members with the order of their definition; the rendering
of a value in a message, which hides secrets, is a parameter.
-/

namespace Heniek.ConfigurationLayers
open ExpressionEvaluation CanonicalState GraphValidation ScriptText RpcCodec

inductive ConfigurationLayer where
  | builtInDefaults | globalDefaults | codebase | repository | pipelineTemplate | profileOrStage
  | invocationOverride
  deriving DecidableEq

def ConfigurationLayer.text : ConfigurationLayer → String
  | .builtInDefaults => "built-in-defaults"
  | .globalDefaults => "global-defaults"
  | .codebase => "codebase"
  | .repository => "repository"
  | .pipelineTemplate => "pipeline-template"
  | .profileOrStage => "profile-or-stage"
  | .invocationOverride => "invocation-override"

def configurationLayers : List ConfigurationLayer :=
  [.builtInDefaults, .globalDefaults, .codebase, .repository, .pipelineTemplate, .profileOrStage,
    .invocationOverride]

def configurationLayerRank (layer : ConfigurationLayer) : Nat := configurationLayers.idxOf layer

/-- A value as a caller can build it, with the parts that JSON has no text for. -/
inductive RawValue where
  | undefined
  | unsupported (type : String)
  | null
  | bool (value : Bool)
  | number (value : JsonNumber)
  | string (value : String)
  | array (items : List RawValue)
  | object (members : List (String × RawValue))

structure LayerDocument (ν : Type) where
  layer : ConfigurationLayer
  sourcePath : Option String
  values : ν

abbrev ConfigurationLayerDocument := LayerDocument (List (String × RawValue))

abbrev SanitizedDocument := LayerDocument JsonValue

def sortConfigurationDocuments {ν : Type} (documents : List (LayerDocument ν)) :
    List (LayerDocument ν) :=
  documents.insertionSort fun a b => configurationLayerRank a.layer ≤ configurationLayerRank b.layer

inductive Strictest where
  | lower | higher
  deriving DecidableEq

inductive ConfigurationRule where
  | hardLimit (pointer : String) (strictest : Strictest)
  | orderedPrivacy (pointer : String) (strictestFirst : List JsonScalar)
  | overridable (pointer : String)

structure IndexedConfigurationPolicy where
  hardLimits : String → Option Strictest
  privacy : String → Option (List JsonScalar)
  overridable : String → Bool

/-- Of several rules of one kind for a pointer the last is kept. -/
def indexRule (policy : IndexedConfigurationPolicy) :
    ConfigurationRule → IndexedConfigurationPolicy
  | .hardLimit pointer strictest =>
    { policy with hardLimits := Function.update policy.hardLimits pointer (some strictest) }
  | .orderedPrivacy pointer strictestFirst =>
    { policy with privacy := Function.update policy.privacy pointer (some strictestFirst) }
  | .overridable pointer =>
    { policy with overridable := Function.update policy.overridable pointer true }

def indexConfigurationPolicy (rules : List ConfigurationRule) : IndexedConfigurationPolicy :=
  rules.foldl indexRule ⟨fun _ => none, fun _ => none, fun _ => false⟩

def durationUnitMs : List (String × Nat) :=
  [("ms", 1), ("s", 1000), ("m", 60000), ("h", 3600000), ("d", 86400000)]

def magnitudeOf : JsonNumber → Option (WithTop ℚ)
  | .finite value => some value
  | .negativeZero => some 0
  | .notFinite false => some ⊤
  | .notFinite true => none
  | .nan => none

def durationMagnitude (text : List Char) : Option (WithTop ℚ) :=
  let digits := text.takeWhile Char.isDigit
  if digits = [] then none
  else
    (durationUnitMs.find? fun unit => unit.1 = String.ofList (text.dropWhile Char.isDigit)).bind
      fun unit =>
        match roundBinary64 false (JsonSyntax.digitsValue digits) with
        | .finite amount => magnitudeOf (roundBinary64 false (amount * unit.2))
        | _ => none

def hardLimitMagnitude : JsonValue → Option (WithTop ℚ)
  | .number value => value.finite?.map fun value => (value : WithTop ℚ)
  | .string text => durationMagnitude text.toList
  | _ => none

def stricterLimit : Strictest → WithTop ℚ → WithTop ℚ → Bool
  | .lower, magnitude, least => decide (magnitude < least)
  | .higher, magnitude, least => decide (least < magnitude)

def sameNumber : JsonNumber → JsonNumber → Bool
  | .nan, _ => false
  | _, .nan => false
  | .notFinite a, .notFinite b => decide (a = b)
  | a, b => decide (a.finite?.isSome = true ∧ a.finite? = b.finite?)

def sameScalar : JsonValue → JsonScalar → Bool
  | .null, .null => true
  | .bool a, .bool b => decide (a = b)
  | .number a, .number b => sameNumber a b
  | .string a, .string b => decide (a = b)
  | _, _ => false

def privacyRank (strictestFirst : List JsonScalar) (value : JsonValue) : Option Nat :=
  strictestFirst.findIdx? (sameScalar value)

inductive Severity where
  | error | warning | info
  deriving DecidableEq

def Severity.rank : Severity → Nat
  | .error => 0
  | .warning => 1
  | .info => 2

structure Diagnostic where
  code : String
  severity : Severity
  message : String
  pointer : String
  sourcePath : Option String
  deriving DecidableEq

/-- `compareDiagnostics(a, b) < 0`, on diagnostics that have no line. -/
def diagnosticBefore (a b : Diagnostic) : Bool :=
  if a.severity = b.severity then
    thenBy Diagnostic.code
      (thenBy Diagnostic.pointer (thenBy Diagnostic.message fun _ _ => false)) a b
  else decide (a.severity.rank < b.severity.rank)

def sortDiagnostics (diagnostics : List Diagnostic) : List Diagnostic :=
  diagnostics.insertionSort fun a b => diagnosticBefore b a = false

def pathToPointer (path : List String) : String := path.foldl joinPointer ""

mutual

def mergeJsonValue : (base : Option JsonValue) → (incoming : JsonValue) → JsonValue
  | some (.object base), .object incoming => .object (mergeMembers base incoming)
  | _, incoming => incoming

def mergeMember : (merged : Members) → String × JsonValue → Members
  | merged, (key, child) => defineProperty merged key (mergeJsonValue (property? merged key) child)

def mergeMembers : (merged : Members) → (incoming : List (String × JsonValue)) → Members
  | merged, [] => merged
  | merged, member :: incoming => mergeMembers (mergeMember merged member) incoming

end

mutual

/-- The paths of the scalars and arrays. -/
def collectLeafPaths : JsonValue → List (List String)
  | .object members => memberLeafPaths members
  | _ => [[]]

def leafPathsUnder : String × JsonValue → List (List String)
  | (key, value) => (collectLeafPaths value).map (key :: ·)

def memberLeafPaths : List (String × JsonValue) → List (List String)
  | [] => []
  | member :: members => leafPathsUnder member ++ memberLeafPaths members

end

def isPlainObject : JsonValue → Bool
  | .object _ => true
  | _ => false

mutual

def jsonEquals : JsonValue → JsonValue → Bool
  | .null, .null => true
  | .bool a, .bool b => decide (a = b)
  | .number a, .number b => sameNumber a b
  | .string a, .string b => decide (a = b)
  | .array a, .array b => itemsEqual a b
  | .object a, .object b => decide (a.length = b.length) && membersEqual a b
  | _, _ => false

def itemsEqual : List JsonValue → List JsonValue → Bool
  | [], [] => true
  | a :: as, b :: bs => jsonEquals a b && itemsEqual as bs
  | _, _ => false

def memberEqual : String × JsonValue → Members → Bool
  | (key, value), others =>
    match property? others key with
    | some other => jsonEquals value other
    | none => false

def membersEqual : List (String × JsonValue) → Members → Bool
  | [], _ => true
  | member :: members, others => memberEqual member others && membersEqual members others

end

structure ConfigurationProvenanceEntry where
  layer : ConfigurationLayer
  sourcePath : Option String
  value : JsonValue

structure ConfigurationProvenance where
  pointer : String
  layer : ConfigurationLayer
  sourcePath : Option String
  value : JsonValue
  overridden : List ConfigurationProvenanceEntry

structure ResolvedConfiguration where
  layers : List ConfigurationLayer
  values : JsonValue
  provenance : List ConfigurationProvenance
  diagnostics : List Diagnostic

inductive LeafEdit where
  | set (value : JsonValue)
  | delete

def editLeaf : Option LeafEdit → JsonValue → Option JsonValue
  | none, value => some value
  | some .delete, _ => none
  | some (.set edited), _ => some edited

mutual

/-- The value after the edits of its leaves; without a value where the leaf is deleted. -/
def applyEdits (edits : String → Option LeafEdit) : List String → JsonValue → Option JsonValue
  | path, .object members => some (.object (editMembers edits path members))
  | path, value => editLeaf (edits (pathToPointer path)) value

def editMember (edits : String → Option LeafEdit) (path : List String) :
    String × JsonValue → Option (String × JsonValue)
  | (key, value) => (applyEdits edits (path ++ [key]) value).map fun child => (key, child)

def editMembers (edits : String → Option LeafEdit) (path : List String) :
    List (String × JsonValue) → Members
  | [] => []
  | member :: members =>
    match editMember edits path member with
    | none => editMembers edits path members
    | some edited => edited :: editMembers edits path members

end

section Strictness

variable {μ : Type}

/-- One step of the scan for the strictest entry; the first of equals is kept. -/
def strictestStep (rank : JsonValue → Option μ) (stricter : μ → μ → Bool)
    (best : Option (Nat × μ)) (entry : ConfigurationProvenanceEntry × Nat) : Option (Nat × μ) :=
  match rank entry.1.value with
  | none => best
  | some magnitude =>
    match best with
    | none => some (entry.2, magnitude)
    | some least => if stricter magnitude least.2 then some (entry.2, magnitude) else some least

def strictestIndex (rank : JsonValue → Option μ) (stricter : μ → μ → Bool)
    (chain : List ConfigurationProvenanceEntry) : Option Nat :=
  (chain.zipIdx.foldl (strictestStep rank stricter) none).map Prod.fst

end Strictness

mutual

def isJsonRepresentable : RawValue → Bool
  | .undefined => false
  | .unsupported _ => false
  | .number value => value.finite?.isSome
  | .array items => itemsRepresentable items
  | .object members => membersRepresentable members
  | _ => true

def itemsRepresentable : List RawValue → Bool
  | [] => true
  | item :: items => isJsonRepresentable item && itemsRepresentable items

def memberRepresentable : String × RawValue → Bool
  | (_, value) => isJsonRepresentable value

def membersRepresentable : List (String × RawValue) → Bool
  | [] => true
  | member :: members => memberRepresentable member && membersRepresentable members

end

mutual

def asJson : RawValue → JsonValue
  | .undefined => .null
  | .unsupported _ => .null
  | .null => .null
  | .bool value => .bool value
  | .number value => .number value
  | .string value => .string value
  | .array items => .array (itemsAsJson items)
  | .object members => .object (membersAsJson members)

def itemsAsJson : List RawValue → List JsonValue
  | [] => []
  | item :: items => asJson item :: itemsAsJson items

def memberAsJson : String × RawValue → String × JsonValue
  | (key, value) => (key, asJson value)

def membersAsJson : List (String × RawValue) → List (String × JsonValue)
  | [] => []
  | member :: members => memberAsJson member :: membersAsJson members

end

def sourceSuffix (sourcePath : Option String) : String :=
  match sourcePath with
  | none => ""
  | some path => " (" ++ path ++ ")"

def invalidValueDiagnostic (pointer : String) (layer : ConfigurationLayer)
    (sourcePath : Option String) (reason : String) : Diagnostic where
  code := "configuration.invalid-value"
  severity := .error
  message := "Configuration value at \"" ++ (if pointer = "" then "(root)" else pointer) ++
    "\" from layer \"" ++ layer.text ++ "\"" ++ sourceSuffix sourcePath ++ " " ++ reason ++
      "; it was ignored."
  pointer := pointer
  sourcePath := sourcePath

def numberName : JsonNumber → String
  | .notFinite true => "-Infinity"
  | .notFinite false => "Infinity"
  | _ => "NaN"

section Sanitize

variable (layer : ConfigurationLayer) (sourcePath : Option String)

mutual

/-- What is left of a value, if anything, and what there is to report. -/
def sanitizeConfigurationValue : List String → RawValue → Option JsonValue × List Diagnostic
  | path, .undefined =>
    (none, [invalidValueDiagnostic (pathToPointer path) layer sourcePath
      "is undefined, which has no JSON representation"])
  | path, .number value =>
    if value.finite?.isSome then (some (.number value), [])
    else (none, [invalidValueDiagnostic (pathToPointer path) layer sourcePath
      ("is not a finite number (" ++ numberName value ++ ")")])
  | _, .null => (some .null, [])
  | _, .bool value => (some (.bool value), [])
  | _, .string value => (some (.string value), [])
  | path, .array items =>
    if itemsRepresentable items then (some (.array (itemsAsJson items)), [])
    else (none, [invalidValueDiagnostic (pathToPointer path) layer sourcePath
      ("contains an undefined, non-finite, or otherwise non-JSON element — the whole array " ++
        "(arrays are replaced wholesale)")])
  | path, .object members =>
    let built := sanitizeMembers path [] members
    (some (.object built.1), built.2)
  | path, .unsupported type =>
    (none, [invalidValueDiagnostic (pathToPointer path) layer sourcePath
      ("has an unsupported type (\"" ++ type ++ "\")")])

def sanitizeMember : List String → Members → String × RawValue → Members × List Diagnostic
  | path, out, (key, value) =>
    let sanitized := sanitizeConfigurationValue (path ++ [key]) value
    match sanitized.1 with
    | none => (out, sanitized.2)
    | some json => (defineProperty out key json, sanitized.2)

def sanitizeMembers : List String → Members → List (String × RawValue) → Members × List Diagnostic
  | _, out, [] => (out, [])
  | path, out, member :: members =>
    let first := sanitizeMember path out member
    let rest := sanitizeMembers path first.1 members
    (rest.1, first.2 ++ rest.2)

end

end Sanitize

def sanitizeDocument (document : ConfigurationLayerDocument) :
    SanitizedDocument × List Diagnostic :=
  let built := sanitizeMembers document.layer document.sourcePath [] [] document.values
  (⟨document.layer, document.sourcePath, .object built.1⟩, built.2)

section Resolve

variable (describeValue : JsonValue → String)

def ConfigurationProvenanceEntry.source (entry : ConfigurationProvenanceEntry) : String :=
  entry.layer.text ++ sourceSuffix entry.sourcePath

def hardLimitIncomparable (pointer : String)
    (entry : ConfigurationProvenanceEntry) : Diagnostic where
  code := "configuration.hard-limit-incomparable"
  severity := .warning
  message := "Hard limit " ++ pointer ++ " has value " ++ describeValue entry.value ++ " from " ++
    entry.source ++
      ", which is neither a number nor a duration; it was ignored rather than compared."
  pointer := pointer
  sourcePath := entry.sourcePath

def hardLimitClamped (pointer : String) (strictest last : ConfigurationProvenanceEntry) :
    Diagnostic where
  code := "configuration.hard-limit-clamped"
  severity := .warning
  message := "Hard limit " ++ pointer ++ " kept at " ++ describeValue strictest.value ++ " from " ++
    strictest.source ++ "; " ++ last.source ++ " attempted to relax it to " ++
      describeValue last.value ++ "."
  pointer := pointer
  sourcePath := last.sourcePath

def privacyIncomparable (pointer : String) (entry : ConfigurationProvenanceEntry) : Diagnostic where
  code := "configuration.privacy-incomparable"
  severity := .warning
  message :=
    "Privacy setting " ++ pointer ++ " has value " ++ describeValue entry.value ++ " from " ++
    entry.source ++
      ", which is not one of this pointer's declared settings; it was ignored rather than compared."
  pointer := pointer
  sourcePath := entry.sourcePath

def privacyWeakeningBlocked (pointer : String) (strictest last : ConfigurationProvenanceEntry) :
    Diagnostic where
  code := "configuration.privacy-weakening-blocked"
  severity := .error
  message := "Privacy setting " ++ pointer ++ " kept at " ++ describeValue strictest.value ++
    " from " ++ strictest.source ++ "; " ++ last.source ++ " attempted to weaken it to " ++
      describeValue last.value ++ "."
  pointer := pointer
  sourcePath := last.sourcePath

def valueOverridden (pointer : String) (winner entry : ConfigurationProvenanceEntry) :
    Diagnostic where
  code := "configuration.value-overridden"
  severity := .info
  message := pointer ++ ": " ++ winner.source ++ " sets " ++ describeValue winner.value ++
    ", overriding " ++ describeValue entry.value ++ " from " ++ entry.source ++ "."
  pointer := pointer
  sourcePath := entry.sourcePath

def overrideNotPermitted (pointer : String) (value : JsonValue) (sourcePath : Option String) :
    Diagnostic where
  code := "configuration.override-not-permitted"
  severity := .error
  message := pointer ++ " is not declared overridable, so the invocation override " ++
    describeValue value ++ " was dropped."
  pointer := pointer
  sourcePath := sourcePath

structure ChainResolution where
  winner : ConfigurationProvenanceEntry
  overridden : List ConfigurationProvenanceEntry
  diagnostics : List Diagnostic

def keptDiagnostics {μ : Type} (rank : JsonValue → Option μ)
    (report : (strictest last : ConfigurationProvenanceEntry) → Diagnostic)
    (chain : List ConfigurationProvenanceEntry) (winnerIndex : Nat) :
    Option Nat → List Diagnostic
  | none => []
  | some index =>
    match chain[index]?, chain.getLast? with
    | some strictest, some last =>
      if index ≠ winnerIndex ∧ (rank last.value).isSome then [report strictest last] else []
    | _, _ => []

def limitedIndex (pointer : String) (chain : List ConfigurationProvenanceEntry)
    (policy : IndexedConfigurationPolicy) : Nat :=
  match policy.hardLimits pointer with
  | none => chain.length - 1
  | some strictest =>
    (strictestIndex hardLimitMagnitude (stricterLimit strictest) chain).getD (chain.length - 1)

def winnerIndex (pointer : String) (chain : List ConfigurationProvenanceEntry)
    (policy : IndexedConfigurationPolicy) : Nat :=
  match policy.privacy pointer with
  | none => limitedIndex pointer chain policy
  | some strictestFirst =>
    (strictestIndex (privacyRank strictestFirst) (fun rank least => decide (rank < least))
      chain).getD (limitedIndex pointer chain policy)

def incomparable {μ : Type} (rank : JsonValue → Option μ)
    (chain : List ConfigurationProvenanceEntry) : List ConfigurationProvenanceEntry :=
  chain.filter fun entry => (rank entry.value).isNone

def chainDiagnostics (pointer : String) (chain : List ConfigurationProvenanceEntry)
    (policy : IndexedConfigurationPolicy) : List Diagnostic :=
  (match policy.hardLimits pointer with
    | none => []
    | some strictest =>
      (incomparable hardLimitMagnitude chain).map (hardLimitIncomparable describeValue pointer) ++
        keptDiagnostics hardLimitMagnitude (hardLimitClamped describeValue pointer) chain
          (chain.length - 1)
          (strictestIndex hardLimitMagnitude (stricterLimit strictest) chain)) ++
  (match policy.privacy pointer with
    | none => []
    | some strictestFirst =>
      (incomparable (privacyRank strictestFirst) chain).map
          (privacyIncomparable describeValue pointer) ++
        keptDiagnostics (privacyRank strictestFirst)
          (privacyWeakeningBlocked describeValue pointer) chain (limitedIndex pointer chain policy)
          (strictestIndex (privacyRank strictestFirst) (fun rank least => decide (rank < least))
            chain))

def resolveChain (pointer : String) (chain : List ConfigurationProvenanceEntry)
    (policy : IndexedConfigurationPolicy) : Option ChainResolution :=
  let index := winnerIndex pointer chain policy
  (chain[index]?).map fun winner =>
    let overridden := (chain.zipIdx.filter fun entry => entry.2 ≠ index).map Prod.fst
    ⟨winner, overridden, chainDiagnostics describeValue pointer chain policy ++
      (overridden.filter fun entry => jsonEquals entry.value winner.value = false).map
        (valueOverridden describeValue pointer winner)⟩

def permitted (policy : IndexedConfigurationPolicy) (pointer : String)
    (layer : ConfigurationLayer) : Bool :=
  decide (layer ≠ .invocationOverride) || policy.overridable pointer

def leafChain (policy : IndexedConfigurationPolicy) (documents : List SanitizedDocument)
    (path : List String) : List ConfigurationProvenanceEntry :=
  documents.filterMap fun document =>
    if permitted policy (pathToPointer path) document.layer then
      (valueAt document.values path).map fun value => ⟨document.layer, document.sourcePath, value⟩
    else none

def droppedDiagnostics (policy : IndexedConfigurationPolicy) (documents : List SanitizedDocument)
    (path : List String) : List Diagnostic :=
  documents.filterMap fun document =>
    if permitted policy (pathToPointer path) document.layer then none
    else (valueAt document.values path).map fun value =>
      overrideNotPermitted describeValue (pathToPointer path) value document.sourcePath

def mergeDocuments (documents : List SanitizedDocument) : JsonValue :=
  documents.foldl (fun merged document => mergeJsonValue (some merged) document.values) (.object [])

def leafResolution (policy : IndexedConfigurationPolicy) (documents : List SanitizedDocument)
    (path : List String) : Option ChainResolution :=
  resolveChain describeValue (pathToPointer path) (leafChain policy documents path) policy

def leafEdit (policy : IndexedConfigurationPolicy) (documents : List SanitizedDocument)
    (paths : List (List String)) (pointer : String) : Option LeafEdit :=
  (paths.reverse.find? fun path => pathToPointer path = pointer).map fun path =>
    match leafResolution describeValue policy documents path with
    | none => .delete
    | some resolution => .set resolution.winner.value

def leafProvenance (policy : IndexedConfigurationPolicy) (documents : List SanitizedDocument)
    (path : List String) : Option ConfigurationProvenance :=
  (leafResolution describeValue policy documents path).map fun resolution =>
    ⟨pathToPointer path, resolution.winner.layer, resolution.winner.sourcePath,
      resolution.winner.value, resolution.overridden⟩

def structurallyReplaced (path : List String) (winning : ConfigurationLayer)
    (document : SanitizedDocument) (value : JsonValue) : Diagnostic where
  code := "configuration.value-overridden"
  severity := .info
  message := (if pathToPointer path = "" then "(root)" else pathToPointer path) ++ ": layer \"" ++
    winning.text ++ "\" sets an object here, structurally replacing " ++ describeValue value ++
      " from layer \"" ++ document.layer.text ++ "\"" ++ sourceSuffix document.sourcePath ++ "."
  pointer := pathToPointer path
  sourcePath := document.sourcePath

def branchDiagnostics (policy : IndexedConfigurationPolicy) (documents : List SanitizedDocument)
    (path : List String) : List Diagnostic :=
  let applied := documents.filter fun document =>
    permitted policy (pathToPointer path) document.layer
  match (applied.filter fun document =>
      (valueAt document.values path).any isPlainObject).getLast? with
  | none => []
  | some winning =>
    applied.filterMap fun document =>
      (valueAt document.values path).bind fun value =>
        if isPlainObject value then none
        else some (structurallyReplaced describeValue path winning.layer document value)

mutual

def collectShadowedByObjectDiagnostics (policy : IndexedConfigurationPolicy)
    (documents : List SanitizedDocument) : List String → JsonValue → List Diagnostic
  | path, .object members =>
    if members = [] then []
    else branchDiagnostics describeValue policy documents path ++
      memberShadowDiagnostics policy documents path members
  | _, _ => []

def shadowedUnder (policy : IndexedConfigurationPolicy) (documents : List SanitizedDocument) :
    List String → String × JsonValue → List Diagnostic
  | path, (key, value) => collectShadowedByObjectDiagnostics policy documents (path ++ [key]) value

def memberShadowDiagnostics (policy : IndexedConfigurationPolicy)
    (documents : List SanitizedDocument) : List String → List (String × JsonValue) → List Diagnostic
  | _, [] => []
  | path, member :: members =>
    shadowedUnder policy documents path member ++
      memberShadowDiagnostics policy documents path members

end

/-- The documents as they are folded, least specific first. -/
def sanitizedDocuments (documents : List ConfigurationLayerDocument) : List SanitizedDocument :=
  (sortConfigurationDocuments documents).map fun document => (sanitizeDocument document).1

def resolveConfiguration (documents : List ConfigurationLayerDocument)
    (rules : List ConfigurationRule) : ResolvedConfiguration :=
  let sorted := sortConfigurationDocuments documents
  let policy := indexConfigurationPolicy rules
  let sanitized := sanitizedDocuments documents
  let merged := mergeDocuments sanitized
  let paths := collectLeafPaths merged
  let edited := applyEdits (leafEdit describeValue policy sanitized paths) [] merged
  let provenance := paths.filterMap (leafProvenance describeValue policy sanitized)
  ⟨configurationLayers.filter fun layer => layer ∈ sanitized.map LayerDocument.layer,
    edited.getD (.object []),
    sortBy ConfigurationProvenance.pointer provenance,
    sortDiagnostics (sorted.flatMap (fun document => (sanitizeDocument document).2) ++
      paths.flatMap (fun path => droppedDiagnostics describeValue policy sanitized path ++
        ((leafResolution describeValue policy sanitized path).map ChainResolution.diagnostics).getD
          []) ++
      collectShadowedByObjectDiagnostics describeValue policy sanitized [] merged)⟩

end Resolve

end Heniek.ConfigurationLayers
