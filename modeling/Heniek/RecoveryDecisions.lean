import Heniek.SchedulerRun

/-!
What `decideRecovery` takes into account: the category of the failure, the budget and how
often its signature came in a row, and what every exit writes down of the counters. The
order of the validation failures shows in one place, the decision's copy of the failure.
-/

namespace Heniek.RecoveryDecisions
open RecoveryPolicy ScriptText
open SchedulerRun (blankDigest)

/-- What a verdict takes from the budget. -/
def repairs : RecoveryVerdict → Nat
  | .retry _ => 1
  | .fail _ | .block _ | .propose _ => 0

/-- What every exit keeps of the updated counters, and what it records of them. -/
structure Accounted (input : DecideRecoveryInput) (counters : StageRecoveryCounters)
    (result : DecideRecoveryResult) : Prop where
  digest : result.nextCounters.lastSignatureDigest = counters.lastSignatureDigest
  repeats : result.nextCounters.identicalSignatureCount = counters.identicalSignatureCount
  used : result.nextCounters.repairsUsed = counters.repairsUsed + repairs result.verdict
  recordedRepeats : result.recoveryDecision.identicalSignatureCount =
    result.nextCounters.identicalSignatureCount
  recordedUsed : result.recoveryDecision.repairsUsed = result.nextCounters.repairsUsed
  recordedFailure : result.recoveryDecision.failure = some input.failure

def withFailure (failure : PipelineFailure) (result : DecideRecoveryResult) :
    DecideRecoveryResult :=
  { result with recoveryDecision := { result.recoveryDecision with failure := some failure } }

/-- The failure with its validation failures in another order. -/
structure Relisted (failure relisted : PipelineFailure) : Prop where
  same : relisted = { failure with validationFailures := relisted.validationFailures }
  listed : Option.Rel List.Perm failure.validationFailures relisted.validationFailures

section Exits

variable {input : DecideRecoveryInput} {signature : FailureSignature}
variable {counters : StageRecoveryCounters} {strategy : Strategy} {failure : PipelineFailure}

theorem accounted_decideStrategy :
    Accounted input counters (decideStrategy input signature counters strategy) := by
  unfold decideStrategy
  split
  · exact ⟨rfl, rfl, rfl, rfl, rfl, rfl⟩
  · cases input.executionMode <;> exact ⟨rfl, rfl, rfl, rfl, rfl, rfl⟩

theorem accounted_planValidationStrategy {result : DecideRecoveryResult}
    (refused : planValidationStrategy input signature counters = .inr result) :
    Accounted input counters result := by
  simp only [planValidationStrategy] at refused
  split at refused
  · cases refused
    exact ⟨rfl, rfl, rfl, rfl, rfl, rfl⟩
  split at refused
  · cases refused
    exact ⟨rfl, rfl, rfl, rfl, rfl, rfl⟩
  · cases refused
    exact ⟨rfl, rfl, rfl, rfl, rfl, rfl⟩
  · cases refused
  · cases refused
  · split at refused
    · cases refused
      exact ⟨rfl, rfl, rfl, rfl, rfl, rfl⟩
    split at refused
    · cases refused
      exact ⟨rfl, rfl, rfl, rfl, rfl, rfl⟩
    · cases refused

theorem decideStrategy_withFailure :
    decideStrategy { input with failure := failure } signature counters strategy =
      withFailure failure (decideStrategy input signature counters strategy) := by
  simp only [decideStrategy]
  split
  · rfl
  · cases input.executionMode <;> rfl

theorem planValidationStrategy_withFailure :
    planValidationStrategy { input with failure := failure } signature counters =
      (planValidationStrategy input signature counters).map id (withFailure failure) := by
  simp only [planValidationStrategy]
  split
  · rfl
  split
  · rfl
  · rfl
  · rfl
  · rfl
  · split
    · rfl
    split <;> rfl

end Exits

section Decisions

variable [Sha256] {input : DecideRecoveryInput}

/-- The counters with the failure at hand counted. -/
def counted (input : DecideRecoveryInput) : StageRecoveryCounters :=
  updateSignatureCounters input.counters (buildFailureSignature input.failure).digest

theorem accounted_decideRecovery (input : DecideRecoveryInput) :
    Accounted input (counted input) (decideRecovery input) := by
  simp only [decideRecovery]
  split
  · exact ⟨rfl, rfl, rfl, rfl, rfl, rfl⟩
  split
  · exact ⟨rfl, rfl, rfl, rfl, rfl, rfl⟩
  split
  · exact ⟨rfl, rfl, rfl, rfl, rfl, rfl⟩
  split
  · split
    · rename_i refused
      exact accounted_planValidationStrategy refused
    · exact accounted_decideStrategy
  · exact accounted_decideStrategy

theorem settles_of_unrecoverable (refused : ¬ Recoverable input) :
    (decideRecovery input).verdict.settles = true := by
  rcases decideRecovery_verdict input with ⟨recoverable, _⟩ | ⟨_, settles⟩
  · exact absurd recoverable refused
  · exact settles

inductive Failures : List DecideRecoveryInput → Prop
  | first (input : DecideRecoveryInput) (fresh : input.counters.lastSignatureDigest = none) :
      Failures [input]
  | next (input previous : DecideRecoveryInput) (earlier : List DecideRecoveryInput)
      (before : Failures (previous :: earlier))
      (digest : input.counters.lastSignatureDigest =
        (decideRecovery previous).nextCounters.lastSignatureDigest)
      (repeats : input.counters.identicalSignatureCount =
        (decideRecovery previous).nextCounters.identicalSignatureCount) :
      Failures (input :: previous :: earlier)

/-- How many of the newest failures in a row have the signature of the last one. -/
def currentRun : List DecideRecoveryInput → Nat
  | [] => 0
  | input :: earlier => ((input :: earlier).takeWhile fun other =>
    (buildFailureSignature other.failure).digest =
      (buildFailureSignature input.failure).digest).length

theorem counted_eq_currentRun {earlier : List DecideRecoveryInput}
    (failures : Failures (input :: earlier)) :
    (counted input).identicalSignatureCount = currentRun (input :: earlier) := by
  generalize all : input :: earlier = inputs at failures
  induction failures generalizing input earlier with
  | first only fresh =>
    cases all
    simp [counted, updateSignatureCounters, fresh, currentRun]
  | next newest previous others before digest repeats ih =>
    cases all
    have accounted := accounted_decideRecovery previous
    rw [accounted.digest] at digest
    rw [accounted.repeats, ih rfl] at repeats
    simp only [counted, updateSignatureCounters, digest, repeats, currentRun,
      List.takeWhile_cons, decide_true, if_true]
    by_cases same : (buildFailureSignature previous.failure).digest =
        (buildFailureSignature newest.failure).digest
    · simp [same]
    · simp [same]

omit [Sha256] in
theorem sorted_of_rel {texts relisted : Option (List String)}
    (listed : Option.Rel List.Perm texts relisted) :
    relisted.map sortTexts = texts.map sortTexts := by
  cases listed with
  | none => rfl
  | some same => exact congrArg some (sortTexts_of_perm same).symm

theorem Relisted.signature_eq {failure relisted : PipelineFailure}
    (permuted : Relisted failure relisted) :
    buildFailureSignature relisted = buildFailureSignature failure := by
  have sorted := sorted_of_rel permuted.listed
  rw [permuted.same]
  simp only [buildFailureSignature, sorted]
  rfl

theorem decideRecovery_relisted {relisted : PipelineFailure}
    (permuted : Relisted input.failure relisted) :
    decideRecovery { input with failure := relisted } =
      withFailure relisted (decideRecovery input) := by
  have category : relisted.category = input.failure.category := by rw [permuted.same]
  have retryable : relisted.retryable = input.failure.retryable := by rw [permuted.same]
  simp only [decideRecovery, permuted.signature_eq, category, retryable]
  split
  · rfl
  split
  · rfl
  split
  · rfl
  split
  · rw [planValidationStrategy_withFailure]
    cases planValidationStrategy input (buildFailureSignature input.failure)
        (updateSignatureCounters input.counters (buildFailureSignature input.failure).digest) with
    | inl strategy => exact decideStrategy_withFailure
    | inr result => rfl
  · exact decideStrategy_withFailure

end Decisions

/-- The rules that recovery decisions keep to, whatever the policy, the mode and the counters. -/
structure RespectsRules [Sha256] : Prop where
  category : ∀ input : DecideRecoveryInput, input.failure.category = .security ∨
    input.failure.category = .terminal ∨ input.failure.retryable = false →
      (decideRecovery input).verdict.settles = true
  budget : ∀ input : DecideRecoveryInput, input.repairBudget ≤ input.counters.repairsUsed →
    (decideRecovery input).verdict.settles = true
  repetition : ∀ input : DecideRecoveryInput,
    input.repairBudget ≤ (decideRecovery input).nextCounters.identicalSignatureCount →
      (decideRecovery input).verdict.settles = true
  retry : ∀ (input : DecideRecoveryInput) (directive : RetryDirective),
    (decideRecovery input).verdict = .retry directive →
      (decideRecovery input).nextCounters.repairsUsed = input.counters.repairsUsed + 1
  proposal : ∀ (input : DecideRecoveryInput) (directive : RetryDirective),
    (decideRecovery input).verdict = .propose directive →
      (decideRecovery input).nextCounters.repairsUsed = input.counters.repairsUsed
  recorded : ∀ input : DecideRecoveryInput,
    (decideRecovery input).recoveryDecision.repairsUsed =
        (decideRecovery input).nextCounters.repairsUsed ∧
      (decideRecovery input).recoveryDecision.identicalSignatureCount =
        (decideRecovery input).nextCounters.identicalSignatureCount
  run : ∀ (input : DecideRecoveryInput) (earlier : List DecideRecoveryInput),
    Failures (input :: earlier) →
      (decideRecovery input).nextCounters.identicalSignatureCount = currentRun (input :: earlier)
  signature : ∀ failure relisted : PipelineFailure, Relisted failure relisted →
    buildFailureSignature relisted = buildFailureSignature failure
  order : ∀ (input : DecideRecoveryInput) (relisted : PipelineFailure),
    Relisted input.failure relisted → decideRecovery { input with failure := relisted } =
      withFailure relisted (decideRecovery input)

theorem decideRecovery_respects_rules [Sha256] : RespectsRules where
  category := by
    intro input refused
    refine settles_of_unrecoverable fun recoverable => ?_
    rcases refused with security | terminal | unretryable
    · exact recoverable.allowed.1 security
    · exact recoverable.allowed.2 terminal
    · rw [recoverable.retryable] at unretryable
      cases unretryable
  budget := by
    intro input exhausted
    exact settles_of_unrecoverable fun recoverable => absurd recoverable.budget (by omega)
  repetition := by
    intro input unchanged
    rw [(accounted_decideRecovery input).repeats] at unchanged
    exact settles_of_unrecoverable fun recoverable =>
      absurd recoverable.changed (Nat.not_lt.mpr unchanged)
  retry := by
    intro input directive retried
    rw [(accounted_decideRecovery input).used, retried]
    rfl
  proposal := by
    intro input directive proposed
    rw [(accounted_decideRecovery input).used, proposed]
    rfl
  recorded := by
    intro input
    have accounted := accounted_decideRecovery input
    exact ⟨accounted.recordedUsed, accounted.recordedRepeats⟩
  run := by
    intro input earlier failures
    rw [(accounted_decideRecovery input).repeats, counted_eq_currentRun failures]
  signature := fun _ _ permuted => permuted.signature_eq
  order := fun _ _ permuted => decideRecovery_relisted permuted

def failedValidation : DecideRecoveryInput where
  runId := "run"
  stageId := "build"
  graphRevision := 1
  generation := 1
  attemptOrdinal := 1
  now := "t0"
  failure :=
    { category := .validation, classification := "validation_failed", phase := "validate",
      code := "failed", retryable := true, runnerRetryable := true,
      validationFailures := some ["lint", "test"] }
  stageType := .agent
  sessionPolicy := none
  onValidationFailure := none
  executionMode := .autonomous
  counters := {}
  repairBudget := 2
  priorAttemptId := none
  priorBackendExecutionId := none
  resumeAvailable := false

/-- The recorded decision holds the failure as it was handed in. -/
theorem decision_copies_order : ¬ ∀ (input : DecideRecoveryInput) (relisted : PipelineFailure),
    Relisted input.failure relisted →
      (@decideRecovery blankDigest
          { input with failure := relisted }).recoveryDecision =
        (@decideRecovery blankDigest input).recoveryDecision := by
  intro unchanged
  have same := unchanged failedValidation
    { failedValidation.failure with validationFailures := some ["test", "lint"] }
    ⟨rfl, .some (List.Perm.swap "test" "lint" [])⟩
  have copies := congrArg RecoveryDecision.failure same
  exact absurd copies (by decide)

end Heniek.RecoveryDecisions
