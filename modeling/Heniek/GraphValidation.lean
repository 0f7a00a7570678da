import Heniek.PipelineDocument
import Mathlib.Logic.Relation

/-!
The rules a pipeline graph has to meet as a whole. Each rule returns the
diagnostics it reports, in the order it reports them; a graph is accepted when
there are none. Source positions, which the reporter looks up from the pointer,
are left out. The walks carry fuel for every queue entry they can make.
-/

namespace Heniek.GraphValidation
open PipelineVocabulary PipelineDocument ScriptText

def splitDots (reference : String) : List String :=
  (reference.toList.splitOn '.').map String.ofList

theorem splitDots_inj {left right : String} (same : splitDots left = splitDots right) :
    left = right := by
  have parts : left.toList.splitOn '.' = right.toList.splitOn '.' :=
    List.map_injective_iff.mpr (fun _ _ => String.ofList_inj.mp) same
  have rejoined : ['.'].intercalate (left.toList.splitOn '.') = left.toList :=
    List.intercalate_splitOn '.'
  apply String.toList_inj.mp
  rw [← rejoined, parts, List.intercalate_splitOn]

def namespaceOf (reference : String) : String :=
  String.ofList (reference.toList.takeWhile (· ≠ '.'))

def prefixesOf (reference : String) : List String :=
  let segments := splitDots reference
  (List.range (segments.length - 1)).map fun dropped =>
    ".".intercalate (segments.take (segments.length - dropped))

def stateNamespaces : List String := ["task", "artifacts", "decisions"]

def writableNamespaces : List String := ["artifacts", "decisions"]

inductive CompletionRequirement where
  | verdict (profile : String)
  /-- A requirement of another kind, which names no profile. -/
  | other
  deriving DecidableEq

structure StageDeclaration extends PipelineStage where
  profile : Option String := none
  command : Option (List String) := none
  completion : List CompletionRequirement := []
  maxDurationMs : Option Nat := none
  deriving DecidableEq

/-- A threshold by the shortest decimal that denotes it: `digits` over ten to the `places`. -/
structure Threshold where
  digits : Nat
  places : Nat
  deriving DecidableEq

def Threshold.exceeds (left right : Threshold) : Bool :=
  decide (right.digits * 10 ^ left.places < left.digits * 10 ^ right.places)

/-- The decimal text of a number of the script language. -/
def Threshold.text (threshold : Threshold) : String :=
  let body := (toString threshold.digits).toList
  if threshold.places = 0 then String.ofList body
  else if threshold.places < body.length then
    String.ofList (body.take (body.length - threshold.places) ++
      '.' :: body.drop (body.length - threshold.places))
  else if threshold.places - body.length < 6 then
    String.ofList ('0' :: '.' :: List.replicate (threshold.places - body.length) '0' ++ body)
  else
    String.ofList (body.take 1 ++ (if body.length = 1 then [] else '.' :: body.drop 1)) ++ "e-" ++
      toString (threshold.places - body.length + 1)

structure GraphDeclaration where
  mode : ExecutionMode
  limits : PipelineLimits := {}
  maxPipelineDurationMs : Option Nat := none
  handoffSoftThreshold : Option Threshold := none
  handoffHardThreshold : Option Threshold := none
  stages : List StageDeclaration
  edges : List PipelineEdge

/-- What the scheduler reads of the declaration. -/
def GraphDeclaration.graph (declared : GraphDeclaration) : PipelineGraph where
  mode := declared.mode
  limits := declared.limits
  stages := declared.stages.map StageDeclaration.toPipelineStage
  edges := declared.edges

structure NormalizedPipeline where
  declared : GraphDeclaration
  stagePointers : String → Option String
  edgePointers : List String

def NormalizedPipeline.stagePointer (normalized : NormalizedPipeline) (id : String) : String :=
  (normalized.stagePointers id).getD "/stages"

def NormalizedPipeline.edgePointer (normalized : NormalizedPipeline) (index : Nat) : String :=
  (normalized.edgePointers[index]?).getD "/edges"

inductive DiagnosticCode where
  | duplicateStageId | unknownStageReference | selfEdge | duplicateEdge | cycle | noEntryStage
  | unreachableStage | profileRequired | profileNotAllowed | profileNotDeclared | commandRequired
  | commandNotAllowed | unknownStateNamespace | writeNotAllowed | readNotProduced
  | conflictingWrites | limitNotStricter | repairAttemptsExceedLimit | delegateTargetRequired
  | delegateTargetNotAllowed | contextThresholdsInverted
  deriving DecidableEq

structure PipelineDiagnostic where
  code : DiagnosticCode
  message : String
  pointer : String
  suggestion : String
  deriving DecidableEq

def escapePointerSegment (segment : String) : String :=
  String.ofList (segment.toList.flatMap fun c =>
    if c = '~' then ['~', '0'] else if c = '/' then ['~', '1'] else [c])

def joinPointer (base segment : String) : String := base ++ "/" ++ escapePointerSegment segment

def quoted (text : String) : String := "\"" ++ text ++ "\""

/-- "A" or "An" before a stage type or strategy. -/
def article (word : String) : String :=
  match word.toList with
  | c :: _ => if c.toLower ∈ ['a', 'e', 'i', 'o', 'u'] then "An" else "A"
  | [] => "A"

def formatList (values : List String) : String :=
  let sorted := (sortTexts values.eraseDups).map quoted
  match sorted with
  | [] => " and "
  | [value] => value
  | values => ", ".intercalate values.dropLast ++ " and " ++ values.getLastD ""

def stageTypeText : StageType → String
  | .agent => "agent"
  | .command => "command"
  | .approval => "approval"
  | .integration => "integration"
  | .verify => "verify"
  | .publish => "publish"

def strategyText : ValidationStrategy → String
  | .pause => "pause"
  | .fail => "fail"
  | .repair => "repair"
  | .repairFresh => "repair_fresh"
  | .delegate => "delegate"

def profileStageType : StageType → Bool
  | .agent | .verify => true
  | _ => false

def profileFreeStageType : StageType → Bool
  | .command | .approval => true
  | _ => false

section Rules

variable (normalized : NormalizedPipeline) (knownProfileIds : Option (List String))

def validateStageIds : List PipelineDiagnostic :=
  let ids := normalized.declared.stages.map fun stage => stage.id
  ids.eraseDups.flatMap fun id =>
    if 1 < ids.count id then
      [⟨.duplicateStageId,
        "Stage id " ++ quoted id ++ " is declared " ++ toString (ids.count id) ++ " times.",
        normalized.stagePointer id,
        "Give each stage a unique id; a later stage referring to this one cannot say " ++
          "which it means."⟩]
    else []

def profileReferences (stage : StageDeclaration) (pointer : String) : List (String × String) :=
  (match stage.profile with
    | some profile => [(profile, joinPointer pointer "profile")]
    | none => []) ++
  (match stage.onValidationFailure.bind OnValidationFailure.delegateTo with
    | some profile =>
      [(profile, joinPointer (joinPointer pointer "on_validation_failure") "delegate_to")]
    | none => []) ++
  stage.completion.zipIdx.flatMap fun entry =>
    match entry.1 with
    | .verdict profile =>
      [(profile, joinPointer (joinPointer (joinPointer pointer "completion") "require")
        (toString entry.2))]
    | .other => []

def profileNotDeclared (subject profile pointer : String) : PipelineDiagnostic where
  code := .profileNotDeclared
  message := subject ++ " " ++ quoted profile ++ " is not declared in the resolved configuration."
  pointer := pointer
  suggestion :=
    "Declare " ++ quoted profile ++ " under `profiles:`, or name one that already exists."

def validateStageProfiles (stage : StageDeclaration) (pointer : String) :
    List PipelineDiagnostic :=
  match knownProfileIds with
  | none => []
  | some known =>
    (profileReferences stage pointer).flatMap fun reference =>
      if reference.1 ∈ known then [] else [profileNotDeclared "Profile" reference.1 reference.2]

def validateValidationFailurePolicy (stage : StageDeclaration) (pointer : String) :
    List PipelineDiagnostic :=
  match stage.onValidationFailure with
  | none => []
  | some policy =>
    let target := joinPointer (joinPointer pointer "on_validation_failure") "delegate_to"
    (if policy.strategy = .delegate ∧ policy.delegateTo = none then
      [⟨.delegateTargetRequired,
        "A \"delegate\" repair strategy must name the profile the repair is delegated to.", target,
        "Add `delegate_to: <profile>`, or choose `repair` to retry with this stage's own profile."⟩]
    else []) ++
    (if policy.strategy ≠ .delegate ∧ policy.delegateTo ≠ none then
      [⟨.delegateTargetNotAllowed,
        article (strategyText policy.strategy) ++ " " ++ quoted (strategyText policy.strategy) ++
          " repair strategy never delegates, so `delegate_to` would be ignored.", target,
        "Remove `delegate_to`, or set `strategy: delegate`."⟩]
    else [])

def validateStageShape (stage : StageDeclaration) : List PipelineDiagnostic :=
  let pointer := normalized.stagePointer stage.id
  let name := stageTypeText stage.type
  let subject := article name ++ " " ++ quoted name ++ " stage "
  (if profileStageType stage.type ∧ stage.profile = none then
    [⟨.profileRequired, subject ++ "runs a worker, so it must name a profile.",
      joinPointer pointer "profile", "Add `profile: <name>`, for example `profile: sol-critic`."⟩]
  else []) ++
  (if profileFreeStageType stage.type ∧ stage.profile ≠ none then
    [⟨.profileNotAllowed, subject ++ "does not run a worker, so a profile would never be used.",
      joinPointer pointer "profile",
      "Remove `profile`, or change the stage type to `agent` if it should run a worker."⟩]
  else []) ++
  (if stage.type = .command ∧ stage.command = none then
    [⟨.commandRequired, "A \"command\" stage must declare what to run.",
      joinPointer pointer "command",
      "Add `command: \x7b argv: [...] \x7d`, for example `argv: [pnpm, test]`."⟩]
  else []) ++
  (if stage.type ≠ .command ∧ stage.command ≠ none then
    [⟨.commandNotAllowed, subject ++ "does not run a command.", joinPointer pointer "command",
      "Remove `command`, or change the stage type to `command`."⟩]
  else []) ++
  validateStageProfiles knownProfileIds stage pointer ++
  validateValidationFailurePolicy stage pointer

def validateStageShapes : List PipelineDiagnostic :=
  normalized.declared.stages.flatMap (validateStageShape normalized knownProfileIds)

def validateContext : List PipelineDiagnostic :=
  match normalized.declared.handoffSoftThreshold, normalized.declared.handoffHardThreshold with
  | some soft, some hard =>
    if soft.exceeds hard then
      [⟨.contextThresholdsInverted,
        "The soft handoff threshold (" ++ soft.text ++ ") is above the hard threshold (" ++
          hard.text ++ ").",
        "/context/handoff_soft_threshold",
        "The soft threshold warns first, so it must be the lower of the two — for " ++
          "example `0.65` and `0.80`."⟩]
    else []
  | _, _ => []

/-- `value > limit` of two optional numbers, false when one is absent. -/
def looser (value limit : Option Nat) : Bool :=
  match value, limit with
  | some value, some limit => decide (limit < value)
  | _, _ => false

def numeral (value : Option Nat) : String := toString (value.getD 0)

def validateStageLimits (stage : StageDeclaration) : List PipelineDiagnostic :=
  let declared := normalized.declared
  let pointer := normalized.stagePointer stage.id
  let pipelineRepairs := declared.limits.maxRepairAttempts
  let pipelineDuration := declared.maxPipelineDurationMs
  let attempts := stage.onValidationFailure.bind OnValidationFailure.maxAttempts
  let effectiveRepairs := stage.maxRepairAttempts.orElse fun _ => pipelineRepairs
  (if looser stage.maxRepairAttempts pipelineRepairs then
    [⟨.limitNotStricter,
      "Stage " ++ quoted stage.id ++ " allows " ++ numeral stage.maxRepairAttempts ++
        " repair attempts, more than the pipeline limit of " ++ numeral pipelineRepairs ++ ".",
      joinPointer (joinPointer pointer "limits") "max_repair_attempts",
      "Lower it to " ++ numeral pipelineRepairs ++
        " or below — the strictest applicable limit is the one that applies."⟩]
  else []) ++
  (if looser stage.maxDurationMs pipelineDuration then
    [⟨.limitNotStricter,
      "Stage " ++ quoted stage.id ++ " may run for " ++ numeral stage.maxDurationMs ++
        "ms, longer than the whole pipeline's " ++ numeral pipelineDuration ++ "ms.",
      joinPointer (joinPointer pointer "limits") "max_duration",
      "Shorten the stage limit so it fits inside `limits.max_pipeline_duration`."⟩]
  else []) ++
  (if looser attempts effectiveRepairs then
    [⟨.repairAttemptsExceedLimit,
      "Stage " ++ quoted stage.id ++ " declares " ++ numeral attempts ++
        " repair attempts, more than the " ++ numeral effectiveRepairs ++ " its limits allow.",
      joinPointer (joinPointer pointer "on_validation_failure") "max_attempts",
      "Lower `max_attempts` to " ++ numeral effectiveRepairs ++
        " or below, or raise the repair limit."⟩]
  else [])

def validateLimits : List PipelineDiagnostic :=
  normalized.declared.stages.flatMap (validateStageLimits normalized)

def validateEdgeEndpoint (ids : List String) (pointer direction id : String) :
    List PipelineDiagnostic :=
  if id ∈ ids then []
  else
    [⟨.unknownStageReference, "No stage with id " ++ quoted id ++ " is declared.", pointer,
      "Declare a stage with id " ++ quoted id ++ ", or point this " ++ direction ++
        " at an existing stage."⟩]

def validateEdgeEndpoints : List PipelineDiagnostic :=
  let ids := normalized.declared.stages.map fun stage => stage.id
  normalized.declared.edges.zipIdx.flatMap fun entry =>
    let edge := entry.1
    let pointer := normalized.edgePointer entry.2
    validateEdgeEndpoint ids pointer "dependency" edge.fromStageId ++
    validateEdgeEndpoint ids pointer "transition" edge.toStageId ++
    (if edge.fromStageId = edge.toStageId then
      [⟨.selfEdge, "Stage " ++ quoted edge.fromStageId ++ " depends on itself.", pointer,
        "Remove the self-reference; a stage cannot wait for its own completion."⟩]
    else [])

/-- Edges are grouped by the text of both endpoints, in the order a pair first occurs; every edge
of a group but the first is reported. -/
def validateDuplicateEdges : List PipelineDiagnostic :=
  let key (edge : PipelineEdge) := edge.fromStageId ++ " " ++ edge.toStageId
  let indexed := normalized.declared.edges.zipIdx
  (indexed.map fun entry => key entry.1).eraseDups.flatMap fun pair =>
    let ends := (pair.toList.splitOn ' ').map String.ofList
    ((indexed.filter fun entry => key entry.1 = pair).drop 1).map fun entry =>
      ⟨.duplicateEdge,
        quoted (ends[0]?.getD "undefined") ++ " leads to " ++ quoted (ends[1]?.getD "undefined") ++
          " more than once, under different conditions.",
        normalized.edgePointer entry.2,
        "Combine them into one edge — use `||` inside a single expression if either " ++
          "condition should allow the transition."⟩

def validateConditionProfiles : List PipelineDiagnostic :=
  match knownProfileIds with
  | none => []
  | some known =>
    normalized.declared.edges.zipIdx.flatMap fun entry =>
      match entry.1.condition with
      | some (.evaluator profile _) =>
        if profile ∈ known then []
        else
          [profileNotDeclared "Evaluator profile" profile
            (joinPointer (joinPointer (normalized.edgePointer entry.2) "when") "evaluator")]
      | _ => []

end Rules

/-- Children of a declared stage, sorted. -/
def buildSuccessors (declared : GraphDeclaration) (id : String) : List String :=
  if id ∈ declared.stages.map (fun stage => stage.id) then
    sortTexts ((declared.edges.filter fun edge => edge.fromStageId = id).map
      PipelineEdge.toStageId)
  else []

inductive Mark where
  | visiting | done
  deriving DecidableEq

/-- The state of the depth-first search; the top frame and the latest mark come first. -/
structure Search where
  marks : List (String × Mark)
  stack : List (String × Nat)
  path : List String

def Search.mark? (search : Search) (id : String) : Option Mark :=
  (search.marks.find? fun entry => entry.1 = id).map Prod.snd

def Search.push (search : Search) (id : String) : Search where
  marks := (id, .visiting) :: search.marks
  stack := (id, 0) :: search.stack
  path := search.path ++ [id]

/-- The loop over the frames of one root: the search that ran dry, or a cycle. -/
def searchFrames (children : String → List String) :
    (fuel : Nat) → Search → Search ⊕ List String
  | 0, search => .inl search
  | fuel + 1, search =>
    match search.stack with
    | [] => .inl search
    | (id, index) :: rest =>
      match (children id)[index]? with
      | none =>
        searchFrames children fuel
          ⟨(id, .done) :: search.marks, rest, search.path.dropLast⟩
      | some child =>
        let advanced := { search with stack := (id, index + 1) :: rest }
        match search.mark? child with
        | some .visiting => .inr (search.path.drop (search.path.idxOf child) ++ [child])
        | some .done => searchFrames children fuel advanced
        | none => searchFrames children fuel (advanced.push child)

def searchRoots (children : String → List String) (fuel : Nat) :
    (roots : List String) → Search → Option (List String)
  | [], _ => none
  | root :: roots, search =>
    if search.mark? root = some .done then searchRoots children fuel roots search
    else
      match searchFrames children fuel (search.push root) with
      | .inl search => searchRoots children fuel roots search
      | .inr cycle => some cycle

def findCycle (declared : GraphDeclaration) : Option (List String) :=
  searchRoots (buildSuccessors declared)
    (declared.stages.length + 3 * declared.edges.length + 2)
    (declared.stages.map fun stage => stage.id) ⟨[], [], []⟩

/-- Breadth-first closure of the queued ids that are already reached. -/
def reachFrom (children : String → List String) :
    (fuel : Nat) → (queue reached : List String) → List String
  | 0, _, reached => reached
  | _ + 1, [], reached => reached
  | fuel + 1, current :: queue, reached =>
    let fresh := (children current).foldl
      (fun found child => if child ∈ reached ∨ child ∈ found then found else found ++ [child]) []
    reachFrom children fuel (queue ++ fresh) (reached ++ fresh)

section Graph

variable (normalized : NormalizedPipeline)

def validateAcyclic : List PipelineDiagnostic :=
  match findCycle normalized.declared with
  | none => []
  | some cycle =>
    [⟨.cycle,
      "These stages depend on each other in a cycle: " ++ " → ".intercalate cycle ++ ".",
      normalized.stagePointer (cycle.headD ""),
      "Break the cycle by removing one dependency; a pipeline is a DAG, so no stage may wait " ++
        "for a stage that waits for it."⟩]

def entryStages (declared : GraphDeclaration) : List StageDeclaration :=
  declared.stages.filter fun stage =>
    decide (stage.id ∉ declared.edges.map PipelineEdge.toStageId)

def validateStageReachability : List PipelineDiagnostic :=
  let declared := normalized.declared
  let entries := (entryStages declared).map fun stage => stage.id
  if entries = [] then
    [⟨.noEntryStage,
      "Every stage depends on another stage, so the pipeline has nowhere to start.", "/stages",
      "Leave at least one stage with no `needs` and no incoming edge."⟩]
  else
    let reached := reachFrom (buildSuccessors declared)
      (declared.stages.length + declared.edges.length + 1) entries entries
    declared.stages.flatMap fun stage =>
      if stage.id ∈ reached then []
      else
        [⟨.unreachableStage,
          "Stage " ++ quoted stage.id ++ " cannot be reached from any starting stage.",
          normalized.stagePointer stage.id,
          "Connect " ++ quoted stage.id ++
            " to the graph with `needs` or an edge, or remove it."⟩]

end Graph

def predecessors (declared : GraphDeclaration) (id : String) : List String :=
  if id ∈ declared.stages.map (fun stage => stage.id) then
    (declared.edges.filter fun edge => edge.toStageId = id).map PipelineEdge.fromStageId
  else []

/-- The queue walk of `computeAncestors` for one stage. -/
def collectAncestors (declared : GraphDeclaration) :
    (fuel : Nat) → (queue collected : List String) → List String
  | 0, _, collected => collected
  | _ + 1, [], collected => collected
  | fuel + 1, current :: queue, collected =>
    if current ∈ collected then collectAncestors declared fuel queue collected
    else
      collectAncestors declared fuel (queue ++ predecessors declared current)
        (collected ++ [current])

def computeAncestors (declared : GraphDeclaration) (id : String) : List String :=
  collectAncestors declared (2 * declared.edges.length + 1) (predecessors declared id) []

/-- The stages that write a reference, in stage order, once for each time they declare it. -/
def producers (declared : GraphDeclaration) (reference : String) : List String :=
  if namespaceOf reference ∈ writableNamespaces then
    declared.stages.flatMap fun stage =>
      (stage.writes.filter fun write => write = reference).map fun _ => stage.id
  else []

section Flow

variable (normalized : NormalizedPipeline)

def unknownNamespace (reference pointer suggestion : String) : PipelineDiagnostic where
  code := .unknownStateNamespace
  message := quoted reference ++ " starts with " ++ quoted (namespaceOf reference) ++
    ", which is not part of the canonical run state."
  pointer := pointer
  suggestion := suggestion

def validateNamespaces (stage : StageDeclaration) : List PipelineDiagnostic :=
  let pointer := normalized.stagePointer stage.id
  (stage.reads.zipIdx.flatMap fun entry =>
    if namespaceOf entry.1 ∈ stateNamespaces then []
    else
      [unknownNamespace entry.1 (joinPointer (joinPointer pointer "reads") (toString entry.2))
        "Read from `task.`, `artifacts.`, or `decisions.`."]) ++
  stage.writes.zipIdx.flatMap fun entry =>
    let location := joinPointer (joinPointer pointer "writes") (toString entry.2)
    if namespaceOf entry.1 ∉ stateNamespaces then
      [unknownNamespace entry.1 location "Write to `artifacts.` or `decisions.`."]
    else if namespaceOf entry.1 ∉ writableNamespaces then
      [⟨.writeNotAllowed,
        quoted entry.1 ++ " is supplied by the run, so a stage cannot write it.", location,
        "Write to `artifacts.` or `decisions.` instead."⟩]
    else []

def validateRead (stage : StageDeclaration) (reference : String) (index : Nat) :
    List PipelineDiagnostic :=
  let declared := normalized.declared
  let location :=
    joinPointer (joinPointer (normalized.stagePointer stage.id) "reads") (toString index)
  let producedBy := (prefixesOf reference).flatMap (producers declared)
  if namespaceOf reference ∉ stateNamespaces ∨ namespaceOf reference = "task" then []
  else if producedBy = [] then
    [⟨.readNotProduced, "Nothing in this pipeline writes " ++ quoted reference ++ ".", location,
      "Add a stage that writes " ++ quoted reference ++ ", or remove the read."⟩]
  else if producedBy.any (· ∈ computeAncestors declared stage.id) then []
  else
    [⟨.readNotProduced,
      quoted reference ++ " is written by " ++ formatList producedBy ++ ", which " ++
        quoted stage.id ++ " does not depend on.", location,
      "Add a dependency so " ++ quoted stage.id ++ " runs after " ++ formatList producedBy ++ "."⟩]

def validateReadsAreProduced : List PipelineDiagnostic :=
  normalized.declared.stages.flatMap fun stage =>
    stage.reads.zipIdx.flatMap fun entry => validateRead normalized stage entry.1 entry.2

def pairs {α : Type} : List α → List (α × α)
  | [] => []
  | first :: rest => rest.map (first, ·) ++ pairs rest

def conflictingWrites (reference : String) (first second : String) : List PipelineDiagnostic :=
  let declared := normalized.declared
  if first ∈ computeAncestors declared second ∨ second ∈ computeAncestors declared first then []
  else
    let pointer := normalized.stagePointer second
    let location :=
      match declared.stages.find? fun candidate => candidate.id = second with
      | some stage =>
        if reference ∈ stage.writes then
          joinPointer (joinPointer pointer "writes") (toString (stage.writes.idxOf reference))
        else pointer
      | none => pointer
    [⟨.conflictingWrites,
      quoted first ++ " and " ++ quoted second ++ " both write " ++ quoted reference ++
        " and may run at the same time.", location,
      "Order the two stages so one runs after the other, or have them write different targets."⟩]

def validateWriteConflicts : List PipelineDiagnostic :=
  let declared := normalized.declared
  let references := (declared.stages.flatMap fun stage => stage.writes).eraseDups.filter
    fun reference => decide (namespaceOf reference ∈ writableNamespaces)
  (sortTexts references).flatMap fun reference =>
    (pairs (sortTexts (producers declared reference))).flatMap fun pair =>
      conflictingWrites normalized reference pair.1 pair.2

def validateStateFlow : List PipelineDiagnostic :=
  normalized.declared.stages.flatMap (validateNamespaces normalized) ++
    validateReadsAreProduced normalized ++ validateWriteConflicts normalized

end Flow

def validatePipelineGraph (normalized : NormalizedPipeline)
    (knownProfileIds : Option (List String)) : List PipelineDiagnostic :=
  let endpoints := validateEdgeEndpoints normalized
  validateStageIds normalized ++ validateStageShapes normalized knownProfileIds ++
    validateContext normalized ++ validateLimits normalized ++ endpoints ++
    validateDuplicateEdges normalized ++ validateConditionProfiles normalized knownProfileIds ++
    if endpoints = [] then
      validateAcyclic normalized ++ validateStageReachability normalized ++
        validateStateFlow normalized
    else []

/-- `hasErrors` is false after the validation: every diagnostic of it is an error. -/
def Accepted (normalized : NormalizedPipeline) : Prop :=
  ∃ knownProfileIds, validatePipelineGraph normalized knownProfileIds = []

def Precedes (declared : GraphDeclaration) (left right : String) : Prop :=
  ∃ edge ∈ declared.edges, edge.fromStageId = left ∧ edge.toStageId = right

/-- Neither stage can be reached from the other. -/
def Unordered (declared : GraphDeclaration) (left right : String) : Prop :=
  ¬ Relation.TransGen (Precedes declared) left right ∧
    ¬ Relation.TransGen (Precedes declared) right left

section Ancestors

variable {declared : GraphDeclaration}

theorem precedes_of_mem_predecessors {left right : String}
    (member : left ∈ predecessors declared right) : Precedes declared left right := by
  unfold predecessors at member
  split at member
  · rw [List.mem_map] at member
    obtain ⟨edge, member, rfl⟩ := member
    rw [List.mem_filter, decide_eq_true_eq] at member
    exact ⟨edge, member.1, rfl, member.2⟩
  · cases member

theorem collectAncestors_ancestors {id : String} (fuel : Nat) (queue collected : List String)
    (queued : ∀ other ∈ queue, Relation.TransGen (Precedes declared) other id)
    (found : ∀ other ∈ collected, Relation.TransGen (Precedes declared) other id) :
    ∀ other ∈ collectAncestors declared fuel queue collected,
      Relation.TransGen (Precedes declared) other id := by
  induction fuel generalizing queue collected with
  | zero => exact found
  | succ fuel ih =>
    cases queue with
    | nil => exact found
    | cons current queue =>
      have first := queued current List.mem_cons_self
      have rest : ∀ other ∈ queue, Relation.TransGen (Precedes declared) other id :=
        fun other member => queued other (List.mem_cons_of_mem current member)
      rw [collectAncestors]
      split
      · exact ih queue collected rest found
      · apply ih
        · intro other member
          rcases List.mem_append.mp member with waiting | earlier
          · exact rest other waiting
          · exact Relation.TransGen.head (precedes_of_mem_predecessors earlier) first
        · intro other member
          rcases List.mem_append.mp member with earlier | last
          · exact found other earlier
          · rw [List.mem_singleton.mp last]
            exact first

theorem ancestor_of_mem_computeAncestors {left right : String}
    (member : left ∈ computeAncestors declared right) :
    Relation.TransGen (Precedes declared) left right := by
  refine collectAncestors_ancestors _ _ _ ?_ (by simp) left member
  intro other listed
  exact Relation.TransGen.single (precedes_of_mem_predecessors listed)

end Ancestors

theorem mem_pairs {α : Type} {l : List α} {a b : α} (ha : a ∈ l) (hb : b ∈ l) (different : a ≠ b) :
    (a, b) ∈ pairs l ∨ (b, a) ∈ pairs l := by
  induction l with
  | nil => cases ha
  | cons first rest ih =>
    rcases List.mem_cons.mp ha with rfl | later
    · rcases List.mem_cons.mp hb with rfl | latter
      · exact absurd rfl different
      · exact Or.inl (List.mem_append_left _ (List.mem_map_of_mem latter))
    · rcases List.mem_cons.mp hb with rfl | latter
      · exact Or.inr (List.mem_append_left _ (List.mem_map_of_mem later))
      · exact (ih later latter).imp (List.mem_append_right _) (List.mem_append_right _)

theorem mem_producers {declared : GraphDeclaration} {stage : StageDeclaration} {reference : String}
    (member : stage ∈ declared.stages) (writes : reference ∈ stage.writes)
    (writable : namespaceOf reference ∈ writableNamespaces) :
    stage.id ∈ producers declared reference := by
  rw [producers, if_pos writable, List.mem_flatMap]
  refine ⟨stage, member, List.mem_map.mpr ⟨reference, ?_, rfl⟩⟩
  rw [List.mem_filter, decide_eq_true_eq]
  exact ⟨writes, rfl⟩

section Accepted

variable {normalized : NormalizedPipeline}

theorem Accepted.stateFlow (accepted : Accepted normalized) :
    validateStateFlow normalized = [] := by
  obtain ⟨known, valid⟩ := accepted
  simp only [validatePipelineGraph, List.append_eq_nil_iff] at valid
  obtain ⟨⟨⟨_, endpoints⟩, _⟩, _⟩ := valid.1
  have rest := valid.2
  rw [if_pos endpoints] at rest
  exact (List.append_eq_nil_iff.mp rest).2

theorem Accepted.writable (accepted : Accepted normalized) {stage : StageDeclaration}
    (member : stage ∈ normalized.declared.stages) {reference : String}
    (writes : reference ∈ stage.writes) : namespaceOf reference ∈ writableNamespaces := by
  have flow := accepted.stateFlow
  simp only [validateStateFlow, List.append_eq_nil_iff] at flow
  have quiet := List.flatMap_eq_nil_iff.mp flow.1.1 stage member
  simp only [validateNamespaces, List.append_eq_nil_iff] at quiet
  obtain ⟨index, found⟩ := List.mem_iff_getElem?.mp writes
  have indexed : (reference, index) ∈ stage.writes.zipIdx :=
    List.mk_mem_zipIdx_iff_getElem?.mpr found
  have entry := List.flatMap_eq_nil_iff.mp quiet.2 _ indexed
  by_contra other
  split at entry <;> cases entry

theorem Accepted.ordered (accepted : Accepted normalized) {left right : StageDeclaration}
    (memberLeft : left ∈ normalized.declared.stages)
    (memberRight : right ∈ normalized.declared.stages) (different : left.id ≠ right.id)
    {reference : String} (writesLeft : reference ∈ left.writes)
    (writesRight : reference ∈ right.writes) :
    ¬ Unordered normalized.declared left.id right.id := by
  intro unordered
  have writable := accepted.writable memberLeft writesLeft
  have flow := accepted.stateFlow
  simp only [validateStateFlow, List.append_eq_nil_iff] at flow
  have listed : reference ∈ sortTexts
      ((normalized.declared.stages.flatMap fun stage => stage.writes).eraseDups.filter
        fun reference => decide (namespaceOf reference ∈ writableNamespaces)) := by
    rw [mem_sortTexts, List.mem_filter, decide_eq_true_eq, List.mem_eraseDups, List.mem_flatMap]
    exact ⟨⟨left, memberLeft, writesLeft⟩, writable⟩
  have quiet := List.flatMap_eq_nil_iff.mp flow.2 reference listed
  rw [List.flatMap_eq_nil_iff] at quiet
  have apart : ∀ {first second : String}, Unordered normalized.declared first second →
      (first, second) ∉ pairs (sortTexts (producers normalized.declared reference)) := by
    intro first second free member
    have silent := quiet _ member
    rw [conflictingWrites, if_neg] at silent
    · cases silent
    · rintro (ancestor | ancestor)
      · exact free.1 (ancestor_of_mem_computeAncestors ancestor)
      · exact free.2 (ancestor_of_mem_computeAncestors ancestor)
  have present := mem_pairs (mem_sortTexts.mpr (mem_producers memberLeft writesLeft writable))
    (mem_sortTexts.mpr (mem_producers memberRight writesRight writable)) different
  rcases present with forward | backward
  · exact apart unordered forward
  · exact apart ⟨unordered.2, unordered.1⟩ backward

end Accepted

end Heniek.GraphValidation
