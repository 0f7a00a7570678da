import Heniek.GraphRedaction
import Heniek.RpcCodec
import Mathlib.Order.Lattice.Nat

/-!
Overrides of an invocation (`applyOverrides`). They are applied to a clone of the graph, which
is its rendering read again. Each one is checked against the allowlists and then tightens a
limit of the pipeline or sets the mode of a stage. A recorded override has the requested value,
and the graph that is left is not validated again.
-/

namespace Heniek.StrictestLimits
open PipelineVocabulary PipelineDocument GraphValidation GraphRedaction ExpressionEvaluation
open JsonSyntax RpcCodec

inductive HardLimit where
  | maxPipelineDuration | maxConcurrentWorkers | maxRepairAttempts | maxGraphRevisions
  deriving DecidableEq

def HardLimit.name : HardLimit → String
  | .maxPipelineDuration => "max_pipeline_duration"
  | .maxConcurrentWorkers => "max_concurrent_workers"
  | .maxRepairAttempts => "max_repair_attempts"
  | .maxGraphRevisions => "max_graph_revisions"

/-- A positive whole number, or what a duration of too many digits comes to. -/
abbrev Limit := WithTop Nat

def hardLimitFields : List HardLimit :=
  [.maxPipelineDuration, .maxConcurrentWorkers, .maxRepairAttempts, .maxGraphRevisions]

def hardLimit? (field : String) : Option HardLimit :=
  hardLimitFields.find? fun limit => decide (limit.name = field)

def profileFields : List String :=
  ["engine", "account", "billing", "model", "effort", "executor", "focus", "max_duration",
    "workspace_strategy"]

def closedFields : List String :=
  "mode" :: (profileFields ++ hardLimitFields.map HardLimit.name)

/-- The fields that only the rendering reads (the directory and environment of a command, the
other completion requirements) are there as one object. -/
structure AdmissionStage extends StageDeclaration where
  overridable : List String := []
  rest : JsonValue := .object []

/-- The id, name and description are there as one object. -/
structure AdmissionGraph where
  rest : JsonValue := .object []
  mode : ExecutionMode
  limits : HardLimit → Option Limit
  handoffSoftThreshold : Option Threshold := none
  handoffHardThreshold : Option Threshold := none
  stages : List AdmissionStage
  edges : List PipelineEdge

/-- An infinite limit exceeds nothing, as one that is not there. -/
def finite (limit : Option Limit) : Option Nat := limit.bind id

/-- What the validation reads of the graph. -/
def AdmissionGraph.declared (graph : AdmissionGraph) : GraphDeclaration where
  mode := graph.mode
  limits :=
    { maxRepairAttempts := finite (graph.limits .maxRepairAttempts)
      maxConcurrentWorkers := finite (graph.limits .maxConcurrentWorkers) }
  maxPipelineDurationMs := finite (graph.limits .maxPipelineDuration)
  handoffSoftThreshold := graph.handoffSoftThreshold
  handoffHardThreshold := graph.handoffHardThreshold
  stages := graph.stages.map AdmissionStage.toStageDeclaration
  edges := graph.edges

inductive OverrideTarget where
  | pipeline
  | stage (stageId : String)

inductive OverrideValue where
  | number (value : JsonNumber)
  | text (value : String)
  /-- A value of another type. -/
  | other (value : JsonValue)

structure OverrideRequest where
  target : OverrideTarget
  field : String
  value : OverrideValue

inductive AppliedValue where
  | limit (value : Limit)
  | given (value : OverrideValue)

structure AppliedOverride where
  target : OverrideTarget
  field : String
  value : AppliedValue
  source : String
  redacted : Bool

structure OverrideDiagnostic where
  code : String
  message : String
  pointer : String
  suggestion : Option String := none

/-- Lower magnitude is stricter for all current hard limits. -/
def strictestLimit (existing : Option Limit) (next : Limit) : Limit :=
  match existing with
  | none => next
  | some existing => min existing next

def roundedLimit (value : ℚ) : Limit :=
  match roundBinary64 false value with
  | .finite value => (value.num.toNat : Nat)
  | _ => ⊤

def unitLength (unit : List Char) : Option Nat :=
  if unit = "ms".toList then some 1
  else if unit = ['s'] then some 1000
  else if unit = ['m'] then some 60000
  else if unit = ['h'] then some 3600000
  else if unit = ['d'] then some 86400000
  else none

/-- A number times the length of a unit, both rounded to numbers of the language. -/
def durationLimit (text : List Char) : Option Limit :=
  let digits := text.takeWhile Char.isDigit
  if digits = [] ∨ digits.head? = some '0' then none
  else (unitLength (text.dropWhile Char.isDigit)).map fun length =>
    (roundedLimit (digitsValue digits)).bind fun amount => roundedLimit (amount * length)

def positiveInteger : JsonNumber → Option Limit
  | .finite value => if value.den = 1 ∧ 1 ≤ value then some (value.num.toNat : Nat) else none
  | _ => none

def coerceLimit (limit : HardLimit) (value : OverrideValue) (pointer : String) :
    Except OverrideDiagnostic Limit :=
  let invalid (message : String) : OverrideDiagnostic :=
    ⟨"pipeline.override.invalid-value", message, pointer, none⟩
  match limit, value with
  | .maxPipelineDuration, .number value =>
    match positiveInteger value with
    | some next => .ok next
    | none => .error
        (invalid "max_pipeline_duration numeric value must be a positive integer.")
  | .maxPipelineDuration, .text value =>
    match durationLimit value.toList with
    | some next => .ok next
    | none => .error (invalid "max_pipeline_duration must match the duration pattern.")
  | .maxPipelineDuration, .other _ =>
    .error (invalid "max_pipeline_duration must be a duration string or millisecond number.")
  | limit, .number value =>
    match positiveInteger value with
    | some next => .ok next
    | none => .error (invalid (limit.name ++ " must be a positive integer."))
  | limit, _ => .error (invalid (limit.name ++ " must be a positive integer."))

section Clone

variable (patterns : SensitivePatterns)

def renderedStage (stage : AdmissionStage) : AdmissionStage :=
  { stage with
    id := redactString patterns stage.id
    profile := stage.profile.map (redactString patterns)
    command := stage.command.map (List.map (redactString patterns))
    completion := stage.completion.map (renderedRequirement patterns)
    onValidationFailure := stage.onValidationFailure.map fun failure =>
      { failure with delegateTo := failure.delegateTo.map (redactString patterns) }
    reads := stage.reads.map (redactString patterns)
    writes := stage.writes.map (redactString patterns)
    overridable := stage.overridable.map (redactString patterns)
    rest := redactValue patterns 2 stage.rest }

/-- The rendering throws a `TypeError` on a number that is not finite. -/
def renders (graph : AdmissionGraph) : Bool :=
  (hardLimitFields.all fun limit => decide (graph.limits limit ≠ some ⊤)) &&
    graph.edges.all fun edge => (edgeNumbers edge).all fun value => value.finite?.isSome

/-- The rendering of the graph, read again; the order of keys has no meaning. -/
def cloneGraph (graph : AdmissionGraph) : Option AdmissionGraph :=
  if renders graph then
    some { graph with
      rest := redactValue patterns 0 graph.rest
      stages := graph.stages.map (renderedStage patterns)
      edges := graph.edges.map (renderedEdge patterns) }
  else none

end Clone

def AdmissionGraph.tighten (graph : AdmissionGraph) (limit : HardLimit) (next : Limit) :
    AdmissionGraph :=
  { graph with limits :=
      Function.update graph.limits limit (some (strictestLimit (graph.limits limit) next)) }

def setStageMode (stageId : String) (mode : ExecutionMode) :
    List AdmissionStage → List AdmissionStage
  | [] => []
  | stage :: stages =>
    if stage.id = stageId ∧ ∀ later ∈ stages, later.id ≠ stageId then
      { stage with mode := mode } :: stages
    else stage :: setStageMode stageId mode stages

def AdmissionGraph.setMode (graph : AdmissionGraph) (stageId : String) (mode : ExecutionMode) :
    AdmissionGraph :=
  { graph with stages := setStageMode stageId mode graph.stages }

def modeValue? : OverrideValue → Option ExecutionMode
  | .text value =>
    if value = "autonomous" then some .autonomous
    else if value = "hitl" then some .hitl
    else none
  | _ => none

section Apply

variable (patterns : SensitivePatterns) (isSensitive : OverrideValue → Bool)
variable (profileOverridable : String → List String)

def applyStageOverride (graph : AdmissionGraph) (stage : AdmissionStage)
    (override : OverrideRequest) (pointer : String) :
    Except OverrideDiagnostic (AdmissionGraph × AppliedOverride) :=
  if override.field = "mode" then
    match modeValue? override.value with
    | some mode =>
      .ok (graph.setMode stage.id mode,
        ⟨.stage stage.id, "mode", .given override.value, "stage-allowlist", false⟩)
    | none =>
      .error ⟨"pipeline.override.invalid-value", "mode override must be autonomous or hitl.",
        pointer, none⟩
  else if override.field ∉ profileFields then
    .error ⟨"pipeline.override.unsupported-field",
      "Field " ++ override.field ++ " is not supported as a stage profile override.", pointer, none⟩
  else
    match stage.profile with
    | none =>
      .error ⟨"pipeline.override.no-profile",
        "Stage " ++ stage.id ++ " has no profile to override.", pointer, none⟩
    | some profileId =>
      if override.field ∉ profileOverridable profileId then
        .error ⟨"pipeline.override.profile-not-permitted",
          "Profile " ++ profileId ++ " does not declare " ++ override.field ++
            " as overridable.", pointer, none⟩
      else
        .ok (graph, ⟨.stage stage.id, override.field, .given override.value, "invocation",
          isSensitive override.value⟩)

/-- An entry meets its contract as it is built. -/
def applyOverride (graph : AdmissionGraph) (override : OverrideRequest) (pointer : String) :
    Except OverrideDiagnostic (AdmissionGraph × AppliedOverride) :=
  if override.field ∉ closedFields then
    .error ⟨"pipeline.override.unknown-field",
      "Override field " ++ override.field ++ " is not in the closed invocation-override contract.",
      pointer, some "Remove the field or use an allowlisted override key."⟩
  else if isSensitive override.value then
    .error ⟨"pipeline.override.sensitive-value",
      "Override field " ++ override.field ++
        " contains a credential-shaped value and was rejected.", pointer, none⟩
  else
    match hardLimit? override.field, override.target with
    | some limit, .pipeline => do
        let next ← coerceLimit limit override.value pointer
        .ok (graph.tighten limit next,
          ⟨.pipeline, limit.name, .limit next, "configuration-policy", false⟩)
    | some limit, .stage _ =>
      .error ⟨"pipeline.override.forbidden-target",
        "Hard-limit field " ++ limit.name ++ " may only target the pipeline.", pointer, none⟩
    | none, .pipeline =>
      .error ⟨"pipeline.override.forbidden-target",
        "Field " ++ override.field ++ " requires a stage target.", pointer, none⟩
    | none, .stage stageId =>
      match graph.stages.reverse.find? fun stage => decide (stage.id = stageId) with
      | none =>
        .error ⟨"pipeline.override.unknown-stage",
          "Stage " ++ stageId ++ " does not exist on the graph.", pointer, none⟩
      | some stage =>
        if override.field ∉ stage.overridable then
          .error ⟨"pipeline.override.stage-not-permitted",
            "Stage " ++ stage.id ++ " does not declare " ++ override.field ++
              " as overridable.", pointer, none⟩
        else applyStageOverride isSensitive profileOverridable graph stage override pointer

structure OverrideState where
  graph : AdmissionGraph
  applied : List AppliedOverride := []
  diagnostics : List OverrideDiagnostic := []

def overrideStep (state : OverrideState) (entry : Option OverrideRequest × Nat) : OverrideState :=
  let pointer := "/overrides/" ++ toString entry.2
  match entry.1 with
  | none =>
    { state with diagnostics := state.diagnostics ++ [⟨"pipeline.override.invalid-request",
        "Override at index " ++ toString entry.2 ++
          " does not satisfy PipelineInvocationOverrideRequest/v1.", pointer, none⟩] }
  | some override =>
    match applyOverride isSensitive profileOverridable state.graph override pointer with
    | .error diagnostic => { state with diagnostics := state.diagnostics ++ [diagnostic] }
    | .ok next => { state with graph := next.1, applied := state.applied ++ [next.2] }

/-- There is no result when the base has no rendering. -/
def applyOverrides (base : AdmissionGraph) (overrides : List (Option OverrideRequest)) :
    Option (Except (List OverrideDiagnostic) (AdmissionGraph × List AppliedOverride)) :=
  (cloneGraph patterns base).map fun graph =>
    let final :=
      overrides.zipIdx.foldl (overrideStep isSensitive profileOverridable) ⟨graph, [], []⟩
    if final.diagnostics = [] then .ok (final.graph, final.applied) else .error final.diagnostics

end Apply

def requested (limit : HardLimit) (overrides : List (Option OverrideRequest)) : List Limit :=
  overrides.filterMap fun raw => raw.bind fun override =>
    if hardLimit? override.field = some limit then
      (coerceLimit limit override.value "").toOption
    else none

/-- The values that are recorded for a limit. -/
def recorded (limit : HardLimit) (applied : List AppliedOverride) : List Limit :=
  applied.filterMap fun entry =>
    match entry.value with
    | .limit value => if entry.field = limit.name then some value else none
    | .given _ => none

/-- Only modes have changed, of stages that declare the mode overridable. -/
structure Frame (base graph : AdmissionGraph) : Prop where
  rest : graph.rest = base.rest
  mode : graph.mode = base.mode
  soft : graph.handoffSoftThreshold = base.handoffSoftThreshold
  hard : graph.handoffHardThreshold = base.handoffHardThreshold
  edges : graph.edges = base.edges
  stages : ∃ modes : AdmissionStage → ExecutionMode,
    graph.stages = base.stages.map (fun stage => { stage with mode := modes stage }) ∧
      ∀ stage ∈ base.stages, modes stage = stage.mode ∨ "mode" ∈ stage.overridable

section Apply

variable (patterns : SensitivePatterns) (isSensitive : OverrideValue → Bool)
variable (profileOverridable : String → List String)

/-- Overrides that only tighten and are recorded as what is in force. -/
structure Tightens (stagePointers : String → Option String) (edgePointers : List String)
    (base : AdmissionGraph) (overrides : List (Option OverrideRequest)) (graph : AdmissionGraph)
    (applied : List AppliedOverride) : Prop where
  minimum : ∀ limit,
    graph.limits limit = ((base.limits limit).toList ++ requested limit overrides).min?
  orderFree : ∀ others graph' applied', overrides.Perm others →
    applyOverrides patterns isSensitive profileOverridable base others =
        some (.ok (graph', applied')) →
      graph'.limits = graph.limits
  frame : Frame base graph
  valid : validateLimits ⟨graph.declared, stagePointers, edgePointers⟩ = []
  inForce : ∀ limit last, (recorded limit applied).getLast? = some last →
    graph.limits limit = some last

end Apply

def stageTexts (stage : AdmissionStage) : List String :=
  stage.id :: stage.profile.toList ++ stage.command.getD [] ++
    stage.completion.flatMap requirementTexts ++
    (stage.onValidationFailure.bind OnValidationFailure.delegateTo).toList ++
    stage.reads ++ stage.writes ++ stage.overridable

structure Plain (patterns : SensitivePatterns) (base : AdmissionGraph) : Prop where
  stages : ∀ stage ∈ base.stages, ∀ text ∈ stageTexts stage, redactString patterns text = text
  edges : ∀ edge ∈ base.edges, ∀ text ∈ edgeTexts edge, redactString patterns text = text
  numbers : ∀ edge ∈ base.edges, .negativeZero ∉ edgeNumbers edge
  rest : redactValue patterns 0 base.rest = base.rest
  rests : ∀ stage ∈ base.stages, redactValue patterns 2 stage.rest = stage.rest

/-- The graph is plain, no stage has a limit of its own above a requested value, and the last
value that is requested for a limit is the least. -/
structure Harmless (patterns : SensitivePatterns) (base : AdmissionGraph)
    (overrides : List (Option OverrideRequest)) : Prop where
  plain : Plain patterns base
  repairs : ∀ stage ∈ base.stages, ∀ value ∈ requested .maxRepairAttempts overrides, ∀ own,
    (stage.maxRepairAttempts.orElse fun _ =>
      stage.onValidationFailure.bind OnValidationFailure.maxAttempts) = some own → own ≤ value
  durations : ∀ stage ∈ base.stages, ∀ value ∈ requested .maxPipelineDuration overrides, ∀ own,
    stage.maxDurationMs = some own → own ≤ value
  last : ∀ limit last, (requested limit overrides).getLast? = some last →
    ∀ value ∈ (base.limits limit).toList ++ requested limit overrides, last ≤ value

section Steps

variable {isSensitive : OverrideValue → Bool} {profileOverridable : String → List String}
variable {base graph graph' : AdmissionGraph} {override : OverrideRequest} {pointer : String}
variable {entry : AppliedOverride}

/-- All that an accepted override can do. -/
inductive Applies (graph : AdmissionGraph) (override : OverrideRequest) :
    AdmissionGraph → AppliedOverride → Prop
  | limit {limit : HardLimit} {next : Limit} (named : hardLimit? override.field = some limit)
      (coerced : (coerceLimit limit override.value "").toOption = some next) :
      Applies graph override (graph.tighten limit next)
        ⟨.pipeline, limit.name, .limit next, "configuration-policy", false⟩
  | mode {stage : AdmissionStage} {mode : ExecutionMode} (other : hardLimit? override.field = none)
      (listed : stage ∈ graph.stages) (declared : "mode" ∈ stage.overridable) :
      Applies graph override (graph.setMode stage.id mode)
        ⟨.stage stage.id, "mode", .given override.value, "stage-allowlist", false⟩
  | profile {stageId : String} {redacted : Bool} (other : hardLimit? override.field = none) :
      Applies graph override graph
        ⟨.stage stageId, override.field, .given override.value, "invocation", redacted⟩

theorem coerceLimit_pointer {limit : HardLimit} {value : OverrideValue} {next : Limit}
    (coerced : coerceLimit limit value pointer = .ok next) :
    (coerceLimit limit value "").toOption = some next := by
  unfold coerceLimit at coerced ⊢
  split at coerced <;> (try split at coerced) <;> cases coerced <;> simp_all [Except.toOption]

theorem applies_of_applyStageOverride {stage : AdmissionStage}
    (other : hardLimit? override.field = none) (listed : stage ∈ graph.stages)
    (permitted : override.field ∈ stage.overridable)
    (ran : applyStageOverride isSensitive profileOverridable graph stage override pointer =
      .ok (graph', entry)) : Applies graph override graph' entry := by
  unfold applyStageOverride at ran
  split at ran
  · rename_i named
    split at ran
    · cases ran
      exact .mode other listed (named ▸ permitted)
    · cases ran
  · split at ran
    · cases ran
    · split at ran
      · cases ran
      · split at ran
        · cases ran
        · cases ran
          exact .profile other

theorem applies_of_applyOverride
    (ran : applyOverride isSensitive profileOverridable graph override pointer =
      .ok (graph', entry)) : Applies graph override graph' entry := by
  unfold applyOverride at ran
  split at ran
  · cases ran
  · split at ran
    · cases ran
    · split at ran
      · rename_i limit named _
        obtain ⟨next, coerced, same⟩ := FallibleRun.bind_eq_ok.mp ran
        cases same
        exact .limit named (coerceLimit_pointer coerced)
      · cases ran
      · cases ran
      · rename_i other _
        split at ran
        · cases ran
        · rename_i stage found
          split at ran
          · cases ran
          · rename_i permitted
            exact applies_of_applyStageOverride other
              (List.mem_reverse.mp (List.mem_of_find?_eq_some found)) (not_not.mp permitted) ran

/-- Accepted overrides, one after the other. -/
inductive Run (base : AdmissionGraph) :
    List (Option OverrideRequest) → AdmissionGraph → List AppliedOverride → Prop
  | nil : Run base [] base []
  | step {overrides : List (Option OverrideRequest)} {graph graph' : AdmissionGraph}
      {applied : List AppliedOverride} {override : OverrideRequest} {entry : AppliedOverride}
      (run : Run base overrides graph applied) (applies : Applies graph override graph' entry) :
      Run base (overrides ++ [some override]) graph' (applied ++ [entry])

theorem run_of_steps {overrides : List (Option OverrideRequest × Nat)} {final : OverrideState}
    (ran : overrides.foldl (overrideStep isSensitive profileOverridable) ⟨base, [], []⟩ = final)
    (clean : final.diagnostics = []) :
    Run base (overrides.map Prod.fst) final.graph final.applied := by
  induction overrides using List.reverseRecOn generalizing final with
  | nil =>
    subst ran
    exact .nil
  | append_singleton overrides last ih =>
    rw [List.foldl_append, List.foldl_cons] at ran
    obtain ⟨raw, index⟩ := last
    unfold overrideStep at ran
    simp only at ran
    rw [List.map_append]
    split at ran
    · subst ran
      simp at clean
    · split at ran
      · subst ran
        simp at clean
      · rename_i override _ next applied
        subst ran
        exact .step (ih rfl clean) (applies_of_applyOverride applied)

theorem run_of_applyOverrides {patterns : SensitivePatterns}
    {overrides : List (Option OverrideRequest)} {applied : List AppliedOverride}
    (ran : applyOverrides patterns isSensitive profileOverridable base overrides =
      some (.ok (graph, applied))) :
    ∃ clone, cloneGraph patterns base = some clone ∧ Run clone overrides graph applied := by
  obtain ⟨clone, cloned, ran⟩ := Option.map_eq_some_iff.mp ran
  refine ⟨clone, cloned, ?_⟩
  simp only at ran
  split at ran
  · rename_i clean
    cases ran
    have run := run_of_steps rfl clean
    rw [List.zipIdx_map_fst] at run
    exact run
  · cases ran

end Steps

section Runs

variable {base graph : AdmissionGraph} {overrides : List (Option OverrideRequest)}
variable {applied : List AppliedOverride} {limit : HardLimit}

theorem min?_append_singleton (values : List Limit) (next : Limit) :
    (values ++ [next]).min? = some (strictestLimit values.min? next) := by
  cases values with
  | nil => rfl
  | cons value values =>
    rw [List.cons_append, List.min?_cons', List.foldl_append]
    rfl

theorem requested_append (override : OverrideRequest) :
    requested limit (overrides ++ [some override]) = requested limit overrides ++
      (if hardLimit? override.field = some limit then
        (coerceLimit limit override.value "").toOption else none).toList := by
  rw [requested, List.filterMap_append, ← requested, List.filterMap_cons, List.filterMap_nil,
    Option.bind_some]
  split
  · rename_i absent
    rw [absent, Option.toList_none]
  · rename_i next present
    rw [present, Option.toList_some]

theorem name_inj {limit limit' : HardLimit} (same : limit.name = limit'.name) : limit = limit' := by
  cases limit <;> cases limit' <;> first | rfl | exact absurd same (by decide)

theorem limits_of_run (run : Run base overrides graph applied) (limit : HardLimit) :
    graph.limits limit = ((base.limits limit).toList ++ requested limit overrides).min? := by
  induction run with
  | nil => cases base.limits limit <;> rfl
  | @step overrides graph graph' applied override entry run applies ih =>
    rw [requested_append, ← List.append_assoc]
    cases applies with
    | @limit named next isLimit coerced =>
      by_cases same : named = limit
      · subst same
        rw [if_pos isLimit, coerced, Option.toList_some, min?_append_singleton, ← ih]
        exact Function.update_self _ _ _
      · rw [if_neg (by rw [isLimit]; exact fun equal => same (Option.some.inj equal)),
          Option.toList_none, List.append_nil, ← ih]
        exact Function.update_of_ne (Ne.symm same) _ _
    | mode other =>
      rw [other, if_neg (by simp), Option.toList_none, List.append_nil]
      exact ih
    | profile other =>
      rw [other, if_neg (by simp), Option.toList_none, List.append_nil]
      exact ih

theorem recorded_of_run (run : Run base overrides graph applied) :
    recorded limit applied = requested limit overrides := by
  induction run with
  | nil => rfl
  | @step overrides graph graph' applied override entry run applies ih =>
    rw [requested_append, recorded, List.filterMap_append, ← recorded, ih]
    cases applies with
    | @limit named next isLimit coerced =>
      by_cases same : named = limit
      · subst same
        simp [isLimit, coerced]
      · have apart : named.name ≠ limit.name := fun equal => same (name_inj equal)
        simp [isLimit, same, apart]
    | mode other => simp [other]
    | profile other => simp [other]

end Runs

section Stages

variable {stagePointers : String → Option String} {edgePointers : List String}
variable {base graph : AdmissionGraph} {overrides : List (Option OverrideRequest)}
variable {applied : List AppliedOverride}

theorem frame_self (base : AdmissionGraph) : Frame base base :=
  ⟨rfl, rfl, rfl, rfl, rfl, fun stage => stage.mode, (List.map_id _).symm, fun _ _ => Or.inl rfl⟩

theorem nodup_of_accepted (accepted : Accepted ⟨base.declared, stagePointers, edgePointers⟩) :
    (base.stages.map fun stage => stage.id).Nodup := by
  obtain ⟨known, clean⟩ := accepted
  unfold validatePipelineGraph at clean
  simp only [List.append_eq_nil_iff] at clean
  have ids := clean.1.1.1.1.1.1.1
  unfold validateStageIds at ids
  simp only [List.flatMap_eq_nil_iff] at ids
  rw [List.nodup_iff_count_le_one]
  intro id
  by_contra repeated
  have listed : id ∈ base.stages.map fun stage => stage.id :=
    List.count_pos_iff.mp (by omega)
  have quiet := ids id (by
    simpa [AdmissionGraph.declared] using listed)
  rw [if_pos (by simpa [AdmissionGraph.declared, Function.comp_def] using repeated)] at quiet
  cases quiet

theorem setStageMode_of_nodup (stageId : String) (mode : ExecutionMode) :
    ∀ {stages : List AdmissionStage}, (stages.map fun stage => stage.id).Nodup →
      setStageMode stageId mode stages = stages.map fun stage =>
        if stage.id = stageId then { stage with mode := mode } else stage := by
  intro stages distinct
  induction stages with
  | nil => rfl
  | cons stage stages ih =>
    rw [List.map_cons, List.nodup_cons] at distinct
    rw [setStageMode, List.map_cons]
    by_cases named : stage.id = stageId
    · have last : ∀ later ∈ stages, later.id ≠ stageId := fun later listed same =>
        distinct.1 (List.mem_map.mpr ⟨later, listed, same.trans named.symm⟩)
      rw [if_pos ⟨named, last⟩, if_pos named]
      congr 1
      refine (List.map_id _).symm.trans (List.map_congr_left fun later listed => ?_)
      rw [if_neg (last later listed)]
      rfl
    · rw [if_neg fun both => named both.1, if_neg named, ih distinct.2]

theorem frame_setMode (distinct : (base.stages.map fun stage => stage.id).Nodup)
    (frame : Frame base graph) {stage : AdmissionStage} (listed : stage ∈ graph.stages)
    (declared : "mode" ∈ stage.overridable) (mode : ExecutionMode) :
    Frame base (graph.setMode stage.id mode) := by
  obtain ⟨modes, same, kept⟩ := frame.stages
  have apart : (graph.stages.map fun stage => stage.id).Nodup := by
    rw [same, List.map_map]
    exact distinct
  rw [same] at listed
  obtain ⟨source, member, rfl⟩ := List.mem_map.mp listed
  refine ⟨frame.rest, frame.mode, frame.soft, frame.hard, frame.edges,
    fun other => if other.id = source.id then mode else modes other, ?_, fun other present => ?_⟩
  · refine (setStageMode_of_nodup source.id mode apart).trans ?_
    rw [same, List.map_map]
    refine List.map_congr_left fun other _ => ?_
    by_cases named : other.id = source.id
    · simp [named]
    · simp [named]
  · by_cases named : other.id = source.id
    · rw [List.inj_on_of_nodup_map distinct present member named]
      exact Or.inr declared
    · simp only [if_neg named]
      exact kept other present

theorem frame_of_run (distinct : (base.stages.map fun stage => stage.id).Nodup)
    (run : Run base overrides graph applied) : Frame base graph := by
  induction run with
  | nil => exact frame_self base
  | step _ applies ih =>
    cases applies with
    | limit => exact ⟨ih.rest, ih.mode, ih.soft, ih.hard, ih.edges, ih.stages⟩
    | mode _ listed declared => exact frame_setMode distinct ih listed declared _
    | profile => exact ih

def AdmissionStage.bare (stage : AdmissionStage) : AdmissionStage :=
    { stage with mode := .autonomous }

theorem bare_setStageMode (stageId : String) (mode : ExecutionMode) (stages : List AdmissionStage) :
    (setStageMode stageId mode stages).map AdmissionStage.bare =
      stages.map AdmissionStage.bare := by
  induction stages with
  | nil => rfl
  | cons stage stages ih =>
    rw [setStageMode]
    split
    · rfl
    · rw [List.map_cons, List.map_cons, ih]

theorem kept_of_run (run : Run base overrides graph applied) :
    graph.rest = base.rest ∧ graph.edges = base.edges ∧
      graph.stages.map AdmissionStage.bare = base.stages.map AdmissionStage.bare := by
  induction run with
  | nil => exact ⟨rfl, rfl, rfl⟩
  | step _ applies ih =>
    cases applies with
    | limit => exact ih
    | mode => exact ⟨ih.1, ih.2.1, (bare_setStageMode _ _ _).trans ih.2.2⟩
    | profile => exact ih

theorem clone_eq {patterns : SensitivePatterns} {clone : AdmissionGraph}
    (cloned : cloneGraph patterns base = some clone) :
    clone = { base with
      rest := redactValue patterns 0 base.rest
      stages := base.stages.map (renderedStage patterns)
      edges := base.edges.map (renderedEdge patterns) } := by
  unfold cloneGraph at cloned
  split at cloned
  · exact (Option.some.inj cloned).symm
  · cases cloned

theorem renderedStage_bare_eq {patterns : SensitivePatterns} {stage : AdmissionStage} :
    (renderedStage patterns stage).bare = stage.bare ↔ renderedStage patterns stage = stage := by
  constructor
  · intro same
    have whole := congrArg (fun other => ({ other with mode := stage.mode } : AdmissionStage)) same
    exact whole
  · intro same
    rw [same]

theorem renderedStage_eq_self {patterns : SensitivePatterns} {stage : AdmissionStage} :
    renderedStage patterns stage = stage ↔
      (∀ text ∈ stageTexts stage, redactString patterns text = text) ∧
        redactValue patterns 2 stage.rest = stage.rest := by
  obtain ⟨⟨⟨id, type, mode, optional, session, repairs, failure, reads, writes⟩, profile, command,
    completion, duration⟩, overridable, rest⟩ := stage
  have delegates : (failure.map fun failure =>
        { failure with delegateTo := failure.delegateTo.map (redactString patterns) }) = failure ↔
      ∀ text ∈ (failure.bind OnValidationFailure.delegateTo).toList,
        redactString patterns text = text := by
    cases failure with
    | none => simp
    | some failure =>
      obtain ⟨strategy, session, attempts, delegate⟩ := failure
      simp [optionMap_eq_self]
  have commands : command.map (List.map (redactString patterns)) = command ↔
      ∀ text ∈ command.getD [], redactString patterns text = text := by
    cases command <;> simp [map_eq_self]
  have requirements : completion.map (renderedRequirement patterns) = completion ↔
      ∀ text ∈ completion.flatMap requirementTexts, redactString patterns text = text := by
    rw [map_eq_self, List.forall_mem_flatMap]
    exact forall₂_congr fun _ _ => renderedRequirement_eq_self
  have profiles : profile.map (redactString patterns) = profile ↔
      ∀ text ∈ profile.toList, redactString patterns text = text := by
    cases profile <;> simp
  simp only [renderedStage, AdmissionStage.mk.injEq, StageDeclaration.mk.injEq,
    PipelineStage.mk.injEq, delegates, commands, requirements, profiles]
  simp only [map_eq_self, stageTexts, List.cons_append, List.forall_mem_cons,
    List.forall_mem_append, true_and, and_true]
  tauto

/-- The limits of a stage are no looser than those of the pipeline. -/
structure Fits (limits : HardLimit → Option Limit) (stage : AdmissionStage) : Prop where
  repairs : ∀ own, stage.maxRepairAttempts = some own →
    ∀ limit, limits .maxRepairAttempts = some limit → own ≤ limit
  durations : ∀ own, stage.maxDurationMs = some own →
    ∀ limit, limits .maxPipelineDuration = some limit → own ≤ limit
  attempts : ∀ own, stage.onValidationFailure.bind OnValidationFailure.maxAttempts = some own →
    (∀ repairs, stage.maxRepairAttempts = some repairs → own ≤ repairs) ∧
      (stage.maxRepairAttempts = none →
        ∀ limit, limits .maxRepairAttempts = some limit → own ≤ limit)

theorem looser_iff {own limit : Option Nat} :
    looser own limit = false ↔ ∀ value, own = some value → ∀ bound, limit = some bound →
      value ≤ bound := by
  cases own <;> cases limit <;> simp [looser]

theorem looser_finite {own : Option Nat} {limit : Option Limit} :
    looser own (finite limit) = false ↔
      ∀ value, own = some value → ∀ bound, limit = some bound → value ≤ bound := by
  rw [looser_iff]
  refine forall₂_congr fun value _ => ?_
  cases limit with
  | none => exact iff_of_true (fun _ none => nomatch none) (fun _ none => nomatch none)
  | some limit =>
    induction limit using WithTop.recTopCoe with
    | top => exact iff_of_true (fun _ none => nomatch none) (by simp)
    | coe limit =>
      change (∀ bound : Nat, some limit = some bound → value ≤ bound) ↔ _
      simp only [Option.some.injEq, forall_eq']
      exact WithTop.coe_le_coe.symm

theorem validateLimits_iff : validateLimits ⟨graph.declared, stagePointers, edgePointers⟩ = [] ↔
    ∀ stage ∈ graph.stages, Fits graph.limits stage := by
  unfold validateLimits
  rw [List.flatMap_eq_nil_iff]
  simp only [AdmissionGraph.declared, List.forall_mem_map]
  refine forall₂_congr fun stage _ => ?_
  simp only [validateStageLimits, List.append_eq_nil_iff, ite_eq_right_iff, List.cons_ne_nil,
    imp_false, Bool.not_eq_true, looser_finite, and_assoc]
  constructor
  · rintro ⟨repairs, durations, attempts⟩
    refine ⟨repairs, durations, fun own declared => ⟨fun limit here => ?_, fun absent => ?_⟩⟩
    · rw [here] at attempts
      exact looser_iff.mp attempts own declared limit rfl
    · rw [absent] at attempts
      exact looser_finite.mp attempts own declared
  · rintro ⟨repairs, durations, attempts⟩
    refine ⟨repairs, durations, ?_⟩
    cases here : stage.maxRepairAttempts with
    | none => exact looser_finite.mpr fun own declared => (attempts own declared).2 here
    | some limit =>
      refine looser_iff.mpr fun own declared bound same => ?_
      cases same
      exact (attempts own declared).1 limit here

theorem bound_iff {limit : Option Limit} {values : List Limit} (least : limit = values.min?)
    (own : Nat) : (∀ bound, limit = some bound → own ≤ bound) ↔
      ∀ value ∈ values, (own : Limit) ≤ value := by
  subst least
  cases found : values.min? with
  | none =>
    rw [List.min?_eq_none_iff.mp found]
    exact iff_of_true (fun _ none => nomatch none) (fun _ none => nomatch none)
  | some bound =>
    rw [← List.le_min?_iff found]
    simp

theorem min?_of_perm {values others : List Limit} (same : values.Perm others) :
    values.min? = others.min? := by
  cases found : others.min? with
  | none => rw [List.min?_eq_none_iff.mp found] at same; rw [same.eq_nil]; rfl
  | some least =>
    obtain ⟨listed, below⟩ := List.min?_eq_some_iff.mp found
    exact List.min?_eq_some_iff.mpr ⟨same.mem_iff.mpr listed, fun value member =>
      below value (same.mem_iff.mp member)⟩

theorem valid_iff (accepted : Accepted ⟨base.declared, stagePointers, edgePointers⟩)
    (least : ∀ limit, graph.limits limit =
      ((base.limits limit).toList ++ requested limit overrides).min?) (frame : Frame base graph) :
    validateLimits ⟨graph.declared, stagePointers, edgePointers⟩ = [] ↔
      (∀ stage ∈ base.stages, ∀ value ∈ requested .maxRepairAttempts overrides, ∀ own,
        (stage.maxRepairAttempts.orElse fun _ =>
          stage.onValidationFailure.bind OnValidationFailure.maxAttempts) = some own →
            own ≤ value) ∧
      ∀ stage ∈ base.stages, ∀ value ∈ requested .maxPipelineDuration overrides, ∀ own,
        stage.maxDurationMs = some own → own ≤ value := by
  have before : ∀ stage ∈ base.stages, Fits base.limits stage := by
    obtain ⟨known, clean⟩ := accepted
    unfold validatePipelineGraph at clean
    simp only [List.append_eq_nil_iff] at clean
    exact validateLimits_iff.mp clean.1.1.1.1.2
  have bound := fun limit => bound_iff (least limit)
  obtain ⟨modes, stages, _⟩ := frame.stages
  rw [validateLimits_iff, stages, List.forall_mem_map, ← forall₂_and]
  refine forall₂_congr fun stage listed => ?_
  have held := before stage listed
  constructor
  · intro fits
    refine ⟨fun value asked own declared => ?_, fun value asked own declared => ?_⟩
    · cases here : stage.maxRepairAttempts with
      | some repairs =>
        rw [here] at declared
        cases declared
        exact (bound _ own).mp (fits.repairs own here) value (List.mem_append_right _ asked)
      | none =>
        rw [here] at declared
        exact (bound _ own).mp ((fits.attempts own declared).2 here) value
          (List.mem_append_right _ asked)
    · exact (bound _ own).mp (fits.durations own declared) value (List.mem_append_right _ asked)
  · rintro ⟨repairs, durations⟩
    have base_of : ∀ {limit : HardLimit} {own : Nat},
        (∀ bound, base.limits limit = some bound → own ≤ bound) →
        (∀ value ∈ requested limit overrides, (own : Limit) ≤ value) →
          ∀ bound, graph.limits limit = some bound → own ≤ bound := by
      intro limit own first asked
      refine (bound limit own).mpr fun value listed => ?_
      rcases List.mem_append.mp listed with here | later
      · exact first value (Option.mem_toList.mp here)
      · exact asked value later
    refine ⟨fun own declared => base_of (held.repairs own declared) fun value asked => ?_,
      fun own declared => base_of (held.durations own declared) fun value asked =>
        durations value asked own declared,
      fun own declared => ⟨(held.attempts own declared).1, fun absent =>
        base_of ((held.attempts own declared).2 absent) fun value asked => ?_⟩⟩
    · exact repairs value asked own
        (by rw [show stage.maxRepairAttempts = some own from declared]; rfl)
    · exact repairs value asked own (by
        rw [show stage.maxRepairAttempts = none from absent]
        exact declared)

theorem inForce_iff {limit : HardLimit}
    (records : recorded limit applied = requested limit overrides)
    (least : graph.limits limit = ((base.limits limit).toList ++ requested limit overrides).min?) :
    (∀ last, (recorded limit applied).getLast? = some last → graph.limits limit = some last) ↔
      ∀ last, (requested limit overrides).getLast? = some last →
        ∀ value ∈ (base.limits limit).toList ++ requested limit overrides, last ≤ value := by
  rw [records, least]
  refine forall₂_congr fun last asked => ?_
  rw [List.min?_eq_some_iff]
  exact and_iff_right (List.mem_append_right _ (List.mem_of_getLast? asked))

end Stages

section Overrides

variable {patterns : SensitivePatterns} {isSensitive : OverrideValue → Bool}
variable {profileOverridable : String → List String}
variable {stagePointers : String → Option String} {edgePointers : List String}
variable {base graph clone : AdmissionGraph} {overrides : List (Option OverrideRequest)}
variable {applied : List AppliedOverride}

theorem clone_eq_self (cloned : cloneGraph patterns base = some clone) :
    clone = base ↔ Plain patterns base := by
  have whole : clone = base ↔ redactValue patterns 0 base.rest = base.rest ∧
      (∀ stage ∈ base.stages, renderedStage patterns stage = stage) ∧
        ∀ edge ∈ base.edges, renderedEdge patterns edge = edge := by
    rw [clone_eq cloned, ← map_eq_self, ← map_eq_self]
    obtain ⟨rest, mode, limits, soft, hard, stages, edges⟩ := base
    simp
  rw [whole]
  simp only [renderedStage_eq_self, renderedEdge_eq_self]
  constructor
  · rintro ⟨rest, stages, edges⟩
    exact ⟨fun stage listed => (stages stage listed).1, fun edge listed => (edges edge listed).1,
      fun edge listed => (edges edge listed).2, rest, fun stage listed => (stages stage listed).2⟩
  · intro plain
    exact ⟨plain.rest, fun stage listed => ⟨plain.stages stage listed, plain.rests stage listed⟩,
      fun edge listed => ⟨plain.edges edge listed, plain.numbers edge listed⟩⟩

theorem plain_of_frame (cloned : cloneGraph patterns base = some clone)
    (run : Run clone overrides graph applied) (frame : Frame base graph) : Plain patterns base := by
  obtain ⟨rest, edges, stages⟩ := kept_of_run run
  obtain ⟨modes, same, -⟩ := frame.stages
  have bare : clone.stages.map AdmissionStage.bare = base.stages.map AdmissionStage.bare := by
    rw [← stages, same, List.map_map]
    rfl
  refine (clone_eq_self cloned).mp ?_
  rw [frame.rest] at rest
  rw [frame.edges] at edges
  rw [clone_eq cloned] at rest edges bare ⊢
  rw [List.map_map, List.map_inj_left] at bare
  have each : base.stages.map (renderedStage patterns) = base.stages :=
    map_eq_self.mpr fun stage listed => renderedStage_bare_eq.mp (bare stage listed)
  simp only at rest edges
  rw [each, ← rest, ← edges]

/-- Accepted overrides of an accepted graph do what they should exactly where they are harmless. -/
theorem overrides_tighten_iff
    (accepted : Accepted ⟨base.declared, stagePointers, edgePointers⟩)
    (ran : applyOverrides patterns isSensitive profileOverridable base overrides =
      some (.ok (graph, applied))) :
    Tightens patterns isSensitive profileOverridable stagePointers edgePointers base overrides graph
      applied ↔ Harmless patterns base overrides := by
  obtain ⟨clone, cloned, run⟩ := run_of_applyOverrides ran
  have limits : clone.limits = base.limits := by rw [clone_eq cloned]
  have minimum := limits_of_run run
  rw [limits] at minimum
  have records : ∀ limit, recorded limit applied = requested limit overrides :=
    fun _ => recorded_of_run run
  constructor
  · intro tightens
    obtain ⟨repairs, durations⟩ := (valid_iff accepted minimum tightens.frame).mp tightens.valid
    exact ⟨plain_of_frame cloned run tightens.frame, repairs, durations, fun limit =>
      (inForce_iff (records limit) (minimum limit)).mp (tightens.inForce limit)⟩
  · intro harmless
    have frame : Frame base graph := by
      rw [(clone_eq_self cloned).mpr harmless.plain] at run
      exact frame_of_run (nodup_of_accepted accepted) run
    refine ⟨minimum, ?_, frame, (valid_iff accepted minimum frame).mpr
      ⟨harmless.repairs, harmless.durations⟩, fun limit =>
        (inForce_iff (records limit) (minimum limit)).mpr (harmless.last limit)⟩
    intro others graph' applied' same ran'
    obtain ⟨clone', cloned', run'⟩ := run_of_applyOverrides ran'
    obtain rfl := Option.some.inj (cloned.symm.trans cloned')
    funext limit
    rw [limits_of_run run', limits, minimum]
    exact min?_of_perm ((same.filterMap _).symm.append_left _)

end Overrides

def onlyStage : AdmissionStage where
  id := "only"
  type := .agent
  mode := .autonomous
  optional := false
  profile := some "builder"

def repairRequest (attempts : Nat) : Option OverrideRequest :=
  some ⟨.pipeline, "max_repair_attempts", .number (.finite attempts)⟩

def singleGraph : AdmissionGraph where
  mode := .autonomous
  limits := fun _ => none
  stages := [onlyStage]
  edges := []

theorem singleGraph_accepted : Accepted ⟨singleGraph.declared, fun _ => none, []⟩ :=
  ⟨none, by decide +kernel⟩

def noPatterns : SensitivePatterns where
  looksLikeCredentialKey _ := false
  isSensitiveDiagnosticKey _ := false
  looksLikeCredentialValue _ := false
  looksLikeSensitiveDiagnosticValue _ := false

theorem singleGraph_plain : Plain noPatterns singleGraph where
  stages _ _ _ _ := rfl
  edges _ listed := absurd listed List.not_mem_nil
  numbers _ listed := absurd listed List.not_mem_nil
  rest := rfl
  rests stage listed := by
    cases List.mem_singleton.mp listed
    rfl

def repairsOf
    (result : Option (Except (List OverrideDiagnostic) (AdmissionGraph × List AppliedOverride))) :
    Option (Option Limit × List Limit) :=
  (result.bind Except.toOption).map fun next =>
    (next.1.limits .maxRepairAttempts, recorded .maxRepairAttempts next.2)

theorem ran_of_repairsOf
    {result : Option (Except (List OverrideDiagnostic) (AdmissionGraph × List AppliedOverride))}
    {found : Option Limit × List Limit} (same : repairsOf result = some found) :
    ∃ graph applied, result = some (.ok (graph, applied)) ∧
      graph.limits .maxRepairAttempts = found.1 ∧
        recorded .maxRepairAttempts applied = found.2 := by
  obtain ⟨next, inner, rfl⟩ := Option.map_eq_some_iff.mp same
  obtain ⟨outcome, rfl, accepted⟩ := Option.bind_eq_some_iff.mp inner
  cases outcome with
  | error => cases accepted
  | ok pair =>
    obtain rfl := Option.some.inj accepted
    exact ⟨pair.1, pair.2, rfl, rfl, rfl⟩

/-- With 3 and then 5 requested 3 is in force and 5 is recorded last. -/
theorem looser_recorded : ¬ ∀ base overrides graph applied,
    Accepted ⟨base.declared, fun _ => none, []⟩ →
      applyOverrides noPatterns (fun _ => false) (fun _ => []) base overrides =
          some (.ok (graph, applied)) →
        Tightens noPatterns (fun _ => false) (fun _ => []) (fun _ => none) [] base overrides graph
          applied := by
  intro all
  have run : repairsOf (applyOverrides noPatterns (fun _ => false) (fun _ => []) singleGraph
      [repairRequest 3, repairRequest 5]) = some (some 3, [3, 5]) := by
    decide +kernel
  obtain ⟨graph, applied, ran, inForce, last⟩ := ran_of_repairsOf run
  have truthful := (all _ _ _ _ singleGraph_accepted ran).inForce .maxRepairAttempts 5
    (by rw [last]; rfl)
  rw [inForce] at truthful
  exact absurd truthful (by decide)

theorem overrides_tighten_iff_single : ∃ graph applied,
    applyOverrides noPatterns (fun _ => false) (fun _ => []) singleGraph
        [repairRequest 5, repairRequest 3] = some (.ok (graph, applied)) ∧
      Tightens noPatterns (fun _ => false) (fun _ => []) (fun _ => none) [] singleGraph
        [repairRequest 5, repairRequest 3] graph applied := by
  have run : repairsOf (applyOverrides noPatterns (fun _ => false) (fun _ => []) singleGraph
      [repairRequest 5, repairRequest 3]) = some (some 3, [5, 3]) := by
    decide +kernel
  obtain ⟨graph, applied, ran, _⟩ := ran_of_repairsOf run
  refine ⟨graph, applied, ran, (overrides_tighten_iff singleGraph_accepted ran).mpr
    ⟨singleGraph_plain, ?_, ?_, ?_⟩⟩
  · rintro stage listed value _ own declared
    cases List.mem_singleton.mp listed
    cases declared
  · rintro stage listed value _ own declared
    cases List.mem_singleton.mp listed
    cases declared
  · have asked : ∀ limit, (requested limit [repairRequest 5, repairRequest 3] =
        if limit = .maxRepairAttempts then [(5 : Limit), 3] else []) := by
      intro limit
      cases limit <;> decide +kernel
    intro limit last final value listed
    rw [asked] at final listed
    by_cases repairs : limit = .maxRepairAttempts
    · rw [if_pos repairs] at final listed
      cases final
      simp only [singleGraph, Option.toList_none, List.nil_append, List.mem_cons, List.not_mem_nil,
        or_false] at listed
      rcases listed with rfl | rfl
      · decide
      · exact le_rfl
    · rw [if_neg repairs] at final
      cases final

end Heniek.StrictestLimits
