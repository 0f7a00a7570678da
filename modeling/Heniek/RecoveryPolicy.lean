import Heniek.PipelineDocument
import Heniek.SchedulerIds

/-!
Bounded-repair recovery: limits, failure classification, failure signatures and
the recovery decision. SHA-256 comes from the host's crypto module; it enters
only as a function on texts.
-/

namespace Heniek.RecoveryPolicy
open PipelineVocabulary PipelineDocument SchedulerIds ScriptText

/-- `createHash("sha256").update(text, "utf8").digest("hex")`. -/
class Sha256 where
  hex : String → String

def minimum : List Nat → Option Nat
  | [] => none
  | candidate :: rest => some (rest.foldl min candidate)

structure ResolveRepairBudgetInput where
  pipelineMaxRepairAttempts : Option Nat
  stageMaxRepairAttempts : Option Nat
  validationMaxAttempts : Option Nat
  effectiveMaxRepairAttempts : Option Nat

def resolveRepairBudget (input : ResolveRepairBudgetInput) : Nat :=
  (minimum (input.effectiveMaxRepairAttempts.toList ++ input.stageMaxRepairAttempts.toList ++
    input.pipelineMaxRepairAttempts.toList ++ input.validationMaxAttempts.toList)).getD 0

def resolveEffectiveConcurrency (effectiveMax pipelineMax : Option Nat) : Option Nat :=
  minimum (effectiveMax.toList ++ pipelineMax.toList)

structure PipelineFailure where
  category : FailureCategory
  classification : String
  phase : String
  code : String
  retryable : Bool
  runnerRetryable : Bool
  backendClassification : Option String := none
  validationFailures : Option (List String) := none
  deriving DecidableEq

structure ClassifyFailureInput where
  classification : String
  phase : String
  code : String
  retryable : Bool
  backendClassification : Option String
  validationFailures : Option (List String)

def providerBackend : List String :=
  ["account_unavailable", "profile_unavailable", "model_unavailable", "engine_unavailable",
    "provider_throttled", "context_capacity_exhausted"]

def securityBackend : List String := ["authentication_failed", "permission_denied"]

def terminalBackend : List String :=
  ["hard_limit_exceeded", "cancelled", "invalid_request", "ambiguous", "unknown"]

def conflictClass : List String :=
  ["stale_revision", "stale_sha", "merge_conflict", "reconciliation_required"]

def validationClass : List String := ["validation_failed", "collection_failed", "finalize_failed"]

def transientClass : List String :=
  ["timeout", "process_failed", "prepare_failed", "start_failed", "workspace_failed",
    "recovery_required", "operation_failed"]

def terminalClass : List String := ["cancelled", "rejected", "unknown", "malformed_contract"]

def mapCategory (input : ClassifyFailureInput) : FailureCategory :=
  let backendIn (words : List String) : Bool :=
    input.backendClassification.any fun backend => decide (backend ∈ words)
  let classification := input.classification
  if backendIn securityBackend then .security
  else if backendIn terminalBackend then .terminal
  else if classification ∈ terminalClass then .terminal
  else if classification ∈ conflictClass then .conflict
  else if classification ∈ validationClass then .validation
  else if classification = "profile_failed" ∨ classification = "forge_failed" ∨
      (classification = "backend_failed" ∧ backendIn providerBackend) then .provider
  else if classification ∈ transientClass ∨
      (classification = "backend_failed" ∧
        ¬ backendIn providerBackend ∧ ¬ backendIn securityBackend) then .transient
  else .terminal

def classifyFailure (input : ClassifyFailureInput) : PipelineFailure :=
  let category := mapCategory input
  { category := category
    classification := input.classification
    phase := input.phase
    code := input.code
    retryable := input.retryable && decide (category ≠ .security) && decide (category ≠ .terminal)
    runnerRetryable := input.retryable
    backendClassification := input.backendClassification
    validationFailures := input.validationFailures }

structure FailureSignature where
  digest : String
  category : FailureCategory
  classification : String
  phase : String
  code : String
  backendClassification : Option String
  validationFailures : Option (List String)
  deriving DecidableEq

def hexDigit (n : Nat) : Char := Nat.digitChar n

/-- The escapes of `JSON.stringify` on one character of a well-formed string. -/
def escapeChar (c : Char) : List Char :=
  if c = '"' then ['\\', '"']
  else if c = '\\' then ['\\', '\\']
  else if c.toNat = 8 then ['\\', 'b']
  else if c.toNat = 12 then ['\\', 'f']
  else if c.toNat = 10 then ['\\', 'n']
  else if c.toNat = 13 then ['\\', 'r']
  else if c.toNat = 9 then ['\\', 't']
  else if c.toNat < 32 then
    ['\\', 'u', '0', '0', hexDigit (c.toNat / 16), hexDigit (c.toNat % 16)]
  else [c]

def quote (s : String) : String := "\"" ++ String.ofList (s.toList.flatMap escapeChar) ++ "\""

/-- `canonicalStringify` of the signature payload: its keys in sorted order. -/
def signaturePayload (failure : PipelineFailure) (validationFailures : Option (List String)) :
    String :=
  let backend := failure.backendClassification.toList.map fun text =>
    quote "backendClassification" ++ ":" ++ quote text
  let validation := validationFailures.toList.map fun texts =>
    quote "validationFailures" ++ ":[" ++ ",".intercalate (texts.map quote) ++ "]"
  let parts := backend ++
    [quote "category" ++ ":" ++ quote failure.category.text,
      quote "classification" ++ ":" ++ quote failure.classification,
      quote "code" ++ ":" ++ quote failure.code,
      quote "phase" ++ ":" ++ quote failure.phase] ++ validation
  "\x7b" ++ ",".intercalate parts ++ "\x7d"

def buildFailureSignature [Sha256] (failure : PipelineFailure) : FailureSignature :=
  let validationFailures := failure.validationFailures.map sortTexts
  { digest := Sha256.hex (signaturePayload failure validationFailures)
    category := failure.category
    classification := failure.classification
    phase := failure.phase
    code := failure.code
    backendClassification := failure.backendClassification
    validationFailures := validationFailures }

inductive RetryMode where
  | fresh | resume | delegate
  deriving DecidableEq

structure RetryDirective where
  mode : RetryMode
  sessionPolicy : SessionPolicy
  priorAttemptId : Option String := none
  priorBackendExecutionId : Option String := none
  delegateTo : Option String := none
  recoveryContextDigest : Option String := none
  deriving DecidableEq

structure StageRecoveryCounters where
  repairsUsed : Nat := 0
  lastSignatureDigest : Option String := none
  identicalSignatureCount : Nat := 0
  pendingProposalId : Option String := none
  pendingDirective : Option RetryDirective := none
  deriving DecidableEq

inductive RecoveryAction where
  | propose | approve | reject | dispatch | block | fail | exhaust
  deriving DecidableEq

def RecoveryAction.text : RecoveryAction → String
  | .propose => "propose"
  | .approve => "approve"
  | .reject => "reject"
  | .dispatch => "dispatch"
  | .block => "block"
  | .fail => "fail"
  | .exhaust => "exhaust"

inductive RecoveryOutcome where
  | pause | fail | repair | repairFresh | delegate | exhausted | unchangedExhausted
  | rejected | blocked
  deriving DecidableEq

structure RecoveryDecision where
  decisionId : String
  runId : String
  stageId : String
  graphRevision : Nat
  generation : Nat
  attemptOrdinal : Nat
  action : RecoveryAction
  outcome : RecoveryOutcome
  failure : Option PipelineFailure := none
  signature : Option FailureSignature := none
  directive : Option RetryDirective := none
  proposalId : Option String := none
  repairsUsed : Nat
  repairBudget : Nat
  identicalSignatureCount : Nat
  detail : Option String := none
  recordedAt : String
  deriving DecidableEq

structure DecideRecoveryInput where
  runId : String
  stageId : String
  graphRevision : Nat
  generation : Nat
  attemptOrdinal : Nat
  now : String
  failure : PipelineFailure
  stageType : StageType
  sessionPolicy : Option SessionPolicy
  onValidationFailure : Option OnValidationFailure
  executionMode : ExecutionMode
  counters : StageRecoveryCounters
  repairBudget : Nat
  priorAttemptId : Option String
  priorBackendExecutionId : Option String
  resumeAvailable : Bool

inductive FailReason where
  | attemptFailed | repairExhausted | unchangedFailureExhausted
  deriving DecidableEq

/-- What `decideRecovery` can return; the rejected and approved variants of the
source's union are produced by the observation handlers, never here. -/
inductive RecoveryVerdict where
  | fail (reason : FailReason)
  | block (blockReason : String)
  | propose (directive : RetryDirective)
  | retry (directive : RetryDirective)
  deriving DecidableEq

structure DecideRecoveryResult where
  verdict : RecoveryVerdict
  recoveryDecision : RecoveryDecision
  nextCounters : StageRecoveryCounters

def deriveProposalId (runId : String) (graphRevision : Nat) (stageId : String)
    (generation attemptOrdinal : Nat) : String :=
  "prp:" ++ runId ++ ":" ++ toString graphRevision ++ ":" ++ stageId ++ ":" ++
    toString generation ++ ":" ++ toString attemptOrdinal

def updateSignatureCounters (counters : StageRecoveryCounters) (digest : String) :
    StageRecoveryCounters :=
  { counters with
    lastSignatureDigest := some digest
    identicalSignatureCount :=
      if counters.lastSignatureDigest = some digest then counters.identicalSignatureCount + 1
      else 1 }

structure DecisionFields where
  action : RecoveryAction
  outcome : RecoveryOutcome
  signature : FailureSignature
  counters : StageRecoveryCounters
  directive : Option RetryDirective := none
  proposalId : Option String := none
  detail : Option String := none

def buildDecision (input : DecideRecoveryInput) (fields : DecisionFields) : RecoveryDecision where
  decisionId := deriveRecoveryDecisionId input.runId input.graphRevision input.stageId
    input.generation input.attemptOrdinal fields.action.text
  runId := input.runId
  stageId := input.stageId
  graphRevision := input.graphRevision
  generation := input.generation
  attemptOrdinal := input.attemptOrdinal
  action := fields.action
  outcome := fields.outcome
  failure := some input.failure
  signature := some fields.signature
  directive := fields.directive
  proposalId := fields.proposalId
  repairsUsed := fields.counters.repairsUsed
  repairBudget := input.repairBudget
  identicalSignatureCount := fields.counters.identicalSignatureCount
  detail := fields.detail
  recordedAt := input.now

structure Strategy where
  outcome : RecoveryOutcome
  mode : RetryMode
  sessionPolicy : SessionPolicy
  delegateTo : Option String := none
  deriving DecidableEq

def planValidationStrategy (input : DecideRecoveryInput) (signature : FailureSignature)
    (counters : StageRecoveryCounters) : Strategy ⊕ DecideRecoveryResult :=
  let refuse (detail : Option String) : DecideRecoveryResult :=
    ⟨.fail .attemptFailed,
      buildDecision input
        { action := .fail, outcome := .fail, signature := signature, counters := counters,
          detail := detail },
      counters⟩
  match input.onValidationFailure with
  | none => .inr (refuse (some "missing_on_validation_failure_policy"))
  | some policy =>
    match policy.strategy with
    | .pause =>
      .inr ⟨.block "validation_pause",
        buildDecision input
          { action := .block, outcome := .pause, signature := signature, counters := counters,
            detail := some "validation_pause" },
        counters⟩
    | .fail => .inr (refuse none)
    | .repair => .inl ⟨.repair, .resume, policy.session.getD .resume, none⟩
    | .repairFresh => .inl ⟨.repairFresh, .fresh, .fresh, none⟩
    | .delegate =>
      match policy.delegateTo with
      | none => .inr (refuse (some "missing_delegate_to"))
      | some delegateTo =>
        if delegateTo = "" then .inr (refuse (some "missing_delegate_to"))
        else .inl ⟨.delegate, .delegate, .fresh, some delegateTo⟩

def planNonValidationStrategy (input : DecideRecoveryInput) : Strategy :=
  if input.stageType = .agent then
    match input.sessionPolicy.getD .fresh with
    | .resume => ⟨.repair, .resume, .resume, none⟩
    | .fresh => ⟨.repairFresh, .fresh, .fresh, none⟩
  else ⟨.repairFresh, .fresh, .fresh, none⟩

def buildDirective (input : DecideRecoveryInput) (plan : Strategy) (signature : FailureSignature) :
    RetryDirective where
  mode := plan.mode
  sessionPolicy := plan.sessionPolicy
  recoveryContextDigest := some signature.digest
  priorAttemptId := if plan.mode = .resume then input.priorAttemptId else none
  priorBackendExecutionId := if plan.mode = .resume then input.priorBackendExecutionId else none
  delegateTo := plan.delegateTo

/-- The tail of `decideRecovery`, once a strategy is planned. -/
def decideStrategy (input : DecideRecoveryInput) (signature : FailureSignature)
    (counters : StageRecoveryCounters) (strategy : Strategy) : DecideRecoveryResult :=
  if strategy.mode = .resume ∧ input.resumeAvailable = false then
    ⟨.block "resume_unavailable",
      buildDecision input
        { action := .block, outcome := .blocked, signature := signature, counters := counters,
          detail := some "resume_unavailable" },
      counters⟩
  else
    let directive := buildDirective input strategy signature
    match input.executionMode with
    | .hitl =>
      let proposalId := deriveProposalId input.runId input.graphRevision input.stageId
        input.generation input.attemptOrdinal
      let nextCounters : StageRecoveryCounters :=
        { repairsUsed := counters.repairsUsed
          identicalSignatureCount := counters.identicalSignatureCount
          pendingProposalId := some proposalId
          pendingDirective := some directive
          lastSignatureDigest := counters.lastSignatureDigest }
      ⟨.propose directive,
        buildDecision input
          { action := .propose, outcome := strategy.outcome, signature := signature,
            counters := nextCounters, directive := some directive,
            proposalId := some proposalId },
        nextCounters⟩
    | .autonomous =>
      let nextCounters : StageRecoveryCounters :=
        { repairsUsed := counters.repairsUsed + 1
          identicalSignatureCount := counters.identicalSignatureCount
          pendingDirective := some directive
          lastSignatureDigest := counters.lastSignatureDigest }
      ⟨.retry directive,
        buildDecision input
          { action := .dispatch, outcome := strategy.outcome, signature := signature,
            counters := nextCounters, directive := some directive },
        nextCounters⟩

def decideRecovery [Sha256] (input : DecideRecoveryInput) : DecideRecoveryResult :=
  let signature := buildFailureSignature input.failure
  let counters := updateSignatureCounters input.counters signature.digest
  if input.failure.category = .security ∨ input.failure.category = .terminal ∨
      input.failure.retryable = false then
    ⟨.fail .attemptFailed,
      buildDecision input
        { action := .fail, outcome := .fail, signature := signature, counters := counters },
      counters⟩
  else if input.repairBudget = 0 ∨ input.repairBudget ≤ counters.repairsUsed then
    ⟨.fail .repairExhausted,
      buildDecision input
        { action := .exhaust, outcome := .exhausted, signature := signature, counters := counters,
          detail := some "repair_exhausted" },
      counters⟩
  else if input.repairBudget ≤ counters.identicalSignatureCount then
    ⟨.fail .unchangedFailureExhausted,
      buildDecision input
        { action := .exhaust, outcome := .unchangedExhausted, signature := signature,
          counters := counters, detail := some "unchanged_failure_exhausted" },
      counters⟩
  else if input.failure.category = .validation then
    match planValidationStrategy input signature counters with
    | .inr result => result
    | .inl strategy => decideStrategy input signature counters strategy
  else decideStrategy input signature counters (planNonValidationStrategy input)

def recoveringVerdict (mode : ExecutionMode) (directive : RetryDirective) : RecoveryVerdict :=
  match mode with
  | .autonomous => .retry directive
  | .hitl => .propose directive

def RecoveryVerdict.settles : RecoveryVerdict → Bool
  | .fail _ | .block _ => true
  | .propose _ | .retry _ => false

theorem decideStrategy_verdict (input : DecideRecoveryInput) (signature : FailureSignature)
    (counters : StageRecoveryCounters) (strategy : Strategy) :
    (strategy.mode = .resume → input.resumeAvailable = true) ∧
        (∃ directive, (decideStrategy input signature counters strategy).verdict =
          recoveringVerdict input.executionMode directive) ∨
      ¬ (strategy.mode = .resume → input.resumeAvailable = true) ∧
        (decideStrategy input signature counters strategy).verdict.settles = true := by
  unfold decideStrategy
  split
  · rename_i unavailable
    right
    refine ⟨?_, rfl⟩
    simp [unavailable.1, unavailable.2]
  · rename_i available
    left
    refine ⟨?_, buildDirective input strategy signature, ?_⟩
    · simpa using available
    · cases input.executionMode <;> rfl

theorem planValidationStrategy_settles {input : DecideRecoveryInput} {signature : FailureSignature}
    {counters : StageRecoveryCounters} {result : DecideRecoveryResult}
    (planned : planValidationStrategy input signature counters = .inr result) :
    result.verdict.settles = true := by
  simp only [planValidationStrategy] at planned
  split at planned
  · cases planned
    rfl
  · split at planned
    · cases planned
      rfl
    · cases planned
      rfl
    · cases planned
    · cases planned
    · split at planned
      · cases planned
        rfl
      · split at planned
        · cases planned
          rfl
        · cases planned

section Verdicts

variable [Sha256]

/-- The strategy `decideRecovery` settles on, if its policy allows one. -/
def plannedStrategy (input : DecideRecoveryInput) : Option Strategy :=
  let signature := buildFailureSignature input.failure
  if input.failure.category = .validation then
    (planValidationStrategy input signature
      (updateSignatureCounters input.counters signature.digest)).getLeft?
  else some (planNonValidationStrategy input)

/-- The guards in front of a retry or a proposal. -/
structure Recoverable (input : DecideRecoveryInput) : Prop where
  retryable : input.failure.retryable = true
  allowed : input.failure.category ≠ .security ∧ input.failure.category ≠ .terminal
  budget : input.counters.repairsUsed < input.repairBudget
  changed : (updateSignatureCounters input.counters
    (buildFailureSignature input.failure).digest).identicalSignatureCount < input.repairBudget
  planned : ∃ strategy, plannedStrategy input = some strategy ∧
    (strategy.mode = .resume → input.resumeAvailable = true)

theorem decideRecovery_verdict (input : DecideRecoveryInput) :
    Recoverable input ∧ (∃ directive, (decideRecovery input).verdict =
        recoveringVerdict input.executionMode directive) ∨
      ¬ Recoverable input ∧ (decideRecovery input).verdict.settles = true := by
  simp only [decideRecovery]
  split
  · rename_i refused
    refine Or.inr ⟨?_, rfl⟩
    intro recoverable
    rcases refused with category | category | unretryable
    · exact recoverable.allowed.1 category
    · exact recoverable.allowed.2 category
    · rw [recoverable.retryable] at unretryable
      cases unretryable
  rename_i repairable
  split
  · rename_i exhausted
    refine Or.inr ⟨?_, rfl⟩
    intro recoverable
    have budget := recoverable.budget
    rcases exhausted with zero | used
    · omega
    · exact absurd used (by simpa [updateSignatureCounters] using budget)
  rename_i remaining
  split
  · exact Or.inr ⟨fun recoverable => absurd recoverable.changed (by omega), rfl⟩
  have guarded : ∀ strategy, plannedStrategy input = some strategy →
      (strategy.mode = .resume → input.resumeAvailable = true) → Recoverable input := by
    intro strategy planned available
    simp only [not_or, Bool.not_eq_false] at repairable
    refine ⟨repairable.2.2, ⟨repairable.1, repairable.2.1⟩, ?_, by omega, strategy, planned,
      available⟩
    simpa [updateSignatureCounters] using (not_or.mp remaining).2
  have strategic : ∀ strategy, plannedStrategy input = some strategy →
      ∀ signature counters,
        Recoverable input ∧
          (∃ directive, (decideStrategy input signature counters strategy).verdict =
            recoveringVerdict input.executionMode directive) ∨
          ¬ Recoverable input ∧
            (decideStrategy input signature counters strategy).verdict.settles = true := by
    intro strategy planned signature counters
    rcases decideStrategy_verdict input signature counters strategy with
      ⟨available, verdict⟩ | ⟨unavailable, settles⟩
    · exact Or.inl ⟨guarded strategy planned available, verdict⟩
    · refine Or.inr ⟨?_, settles⟩
      intro recoverable
      obtain ⟨other, same, available⟩ := recoverable.planned
      rw [planned] at same
      cases same
      exact unavailable available
  split
  · rename_i validation
    split
    · rename_i result refused
      refine Or.inr ⟨?_, planValidationStrategy_settles refused⟩
      intro recoverable
      obtain ⟨strategy, planned, _⟩ := recoverable.planned
      simp [plannedStrategy, validation, refused] at planned
    · rename_i strategy chosen
      refine strategic strategy ?_ _ _
      simp [plannedStrategy, validation, chosen]
  · rename_i other
    refine strategic _ ?_ _ _
    simp [plannedStrategy, other]

end Verdicts

end Heniek.RecoveryPolicy
