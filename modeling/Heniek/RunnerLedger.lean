import Heniek.CanonicalState
import Heniek.PipelineStore

/-!
The ledger of the runner attempts with every column, the constraints of its
table and the three calls that write it. An optional field of an update that is
left out keeps the column; a given one may be null. Every call is a transaction:
the statements that break a constraint throw, and the ledger stays as it was.

The time a call is given, or else the time of the clock, is `now`.
-/

namespace Heniek.RunnerLedger
open KeyedTable PipelineVocabulary ExpressionEvaluation RecoveryPolicy SchedulerTick
open PipelineStore FallibleRun ScriptText
open CanonicalState (FinalizedOutput)
open GraphValidation (stageTypeText)

inductive RunnerPhase where
  | prepare | start | observe | cancel | collect | validate | finalize
  | succeeded | failed | cancelled | recoveryRequired
  deriving DecidableEq

inductive RunnerRecovery where
  | none | observeBackend | reapProcess | reconcileArtifacts | reconcileGit | reconcileForge
  | awaitApproval | manual
  deriving DecidableEq

inductive RunnerOutcome where
  | succeeded | failed | cancelled | recoveryRequired
  deriving DecidableEq

/-- The fields of a result that its settlement reads. -/
structure StageRunnerResult where
  outcome : RunnerOutcome
  outputs : List FinalizedOutput := []

structure StageRunnerAttempt where
  attemptId : String
  runId : String
  stageId : String
  stageType : StageType
  intentId : String
  graphRevision : Nat
  generation : Nat
  attemptOrdinal : Nat
  phase : RunnerPhase
  workspaceId : Option String
  leaseId : Option String
  checkoutPath : Option String
  processGroupId : Option Int
  backendExecutionId : Option String
  operationId : Option String
  deadlineAt : Option String
  runtimeDirectory : Option String
  preparedAt : Option String
  startedAt : Option String
  finishedAt : Option String
  outputs : List FinalizedOutput
  evidence : List JsonValue
  result : Option StageRunnerResult
  failure : Option JsonValue
  cleanup : Option JsonValue
  validation : Option JsonValue
  recovery : RunnerRecovery
  revision : Nat
  updatedAt : String
  createdAt : String

structure PhaseTransition where
  transitionId : String
  attemptId : String
  fromPhase : Option RunnerPhase
  toPhase : RunnerPhase
  recordedAt : String
  detail : Option String

structure LedgerDatabase where
  store : StateDatabase := emptyDatabase
  workspaces : List String := []
  attempts : Table StageRunnerAttempt.attemptId := .empty
  transitions : Table PhaseTransition.transitionId := .empty

inductive LedgerError where
  | constraint
  | unknownAttempt (attemptId : String)
  | revisionConflict (expected stored : Nat)
  | updateFailed (attemptId : String)
  deriving DecidableEq

def finishedPhases : List RunnerPhase := [.succeeded, .failed, .cancelled, .recoveryRequired]

def FinishedMatches (row : StageRunnerAttempt) : Prop :=
  row.phase ∈ finishedPhases ↔ row.finishedAt.isSome = true

instance (row : StageRunnerAttempt) : Decidable (FinishedMatches row) :=
  inferInstanceAs (Decidable (_ ↔ _))

/-- The checks on the numbers of a row. -/
def Positive (row : StageRunnerAttempt) : Prop :=
  1 ≤ row.graphRevision ∧ 1 ≤ row.generation ∧ 1 ≤ row.attemptOrdinal ∧ 1 ≤ row.revision ∧
    ∀ processGroup ∈ row.processGroupId, 1 ≤ processGroup

instance (row : StageRunnerAttempt) : Decidable (Positive row) :=
  inferInstanceAs (Decidable (_ ∧ _))

def Referenced (ledger : LedgerDatabase) (row : StageRunnerAttempt) : Prop :=
  row.attemptId ∈ ledger.store.attempts.keys ∧ row.intentId ∈ ledger.store.intents.keys ∧
    ∀ workspace ∈ row.workspaceId, workspace ∈ ledger.workspaces

instance (ledger : LedgerDatabase) (row : StageRunnerAttempt) : Decidable (Referenced ledger row) :=
  inferInstanceAs (Decidable (_ ∧ _))

def IntentUnique (ledger : LedgerDatabase) (row : StageRunnerAttempt) : Prop :=
  ∀ other ∈ ledger.attempts.rows, other.intentId = row.intentId → other.attemptId = row.attemptId

instance (ledger : LedgerDatabase) (row : StageRunnerAttempt) :
    Decidable (IntentUnique ledger row) :=
  inferInstanceAs (Decidable (∀ other ∈ ledger.attempts.rows, _ → _))

def Admitted (ledger : LedgerDatabase) (row : StageRunnerAttempt) : Prop :=
  FinishedMatches row ∧ Positive row ∧ Referenced ledger row ∧ IntentUnique ledger row

instance (ledger : LedgerDatabase) (row : StageRunnerAttempt) : Decidable (Admitted ledger row) :=
  inferInstanceAs (Decidable (_ ∧ _))

/-- The columns the trigger on updates compares. -/
def identity (row : StageRunnerAttempt) :
    (String × String × StageType × String) × (Nat × Nat × Nat × String) :=
  ((row.runId, row.stageId, row.stageType, row.intentId),
    (row.graphRevision, row.generation, row.attemptOrdinal, row.createdAt))

def insertAttempt (ledger : LedgerDatabase) (row : StageRunnerAttempt) :
    Except LedgerError LedgerDatabase :=
  if row.revision = 1 ∧ Admitted ledger row then
    match ledger.attempts.insert? row with
    | some attempts => .ok { ledger with attempts := attempts }
    | none => .error .constraint
  else .error .constraint

def updateAttemptRow (ledger : LedgerDatabase) (expectedRevision : Nat) (row : StageRunnerAttempt) :
    Except LedgerError LedgerDatabase :=
  match ledger.attempts.find? row.attemptId with
  | none => .error (.updateFailed row.attemptId)
  | some stored =>
    if stored.revision ≠ expectedRevision then .error (.updateFailed row.attemptId)
    else if row.revision = stored.revision + 1 ∧ identity row = identity stored ∧
        Admitted ledger row then
      .ok { ledger with attempts := ledger.attempts.upsert row }
    else .error .constraint

def transitionId (attemptId : String) (revision : Nat) : String :=
  "prt:" ++ attemptId ++ ":" ++ toString revision

def insertTransition (ledger : LedgerDatabase) (transition : PhaseTransition) :
    Except LedgerError LedgerDatabase :=
  if transition.attemptId ∈ ledger.attempts.keys then
    match ledger.transitions.insert? transition with
    | some transitions => .ok { ledger with transitions := transitions }
    | none => .error .constraint
  else .error .constraint

structure ClaimRunnerDispatchInput where
  attemptId : String
  runId : String
  stageId : String
  stageType : String
  intentId : String
  graphRevision : Nat
  generation : Nat
  attemptOrdinal : Nat
  deadlineAt : Option String := none
  runtimeDirectory : Option String := none
  now : String

inductive ClaimRunnerDispatchResult where
  | claimed (attempt : StageRunnerAttempt)
  | duplicate (attempt : StageRunnerAttempt)
  | unsupported (stageType : String)

def supportedStageTypes : List StageType :=
  [.agent, .command, .approval, .integration, .verify, .publish]

def supportedStageType (text : String) : Option StageType :=
  supportedStageTypes.find? fun stageType => stageTypeText stageType = text

def readRunnerAttempt (ledger : LedgerDatabase) (attemptId : String) : Option StageRunnerAttempt :=
  ledger.attempts.find? attemptId

def readRunnerAttemptByIntent (ledger : LedgerDatabase) (intentId : String) :
    Option StageRunnerAttempt :=
  ledger.attempts.rows.find? fun row => row.intentId = intentId

def claimedRow (input : ClaimRunnerDispatchInput) (stageType : StageType) : StageRunnerAttempt where
  attemptId := input.attemptId
  runId := input.runId
  stageId := input.stageId
  stageType := stageType
  intentId := input.intentId
  graphRevision := input.graphRevision
  generation := input.generation
  attemptOrdinal := input.attemptOrdinal
  phase := .prepare
  workspaceId := none
  leaseId := none
  checkoutPath := none
  processGroupId := none
  backendExecutionId := none
  operationId := none
  deadlineAt := input.deadlineAt
  runtimeDirectory := input.runtimeDirectory
  preparedAt := none
  startedAt := none
  finishedAt := none
  outputs := []
  evidence := []
  result := none
  failure := none
  cleanup := none
  validation := none
  recovery := .none
  revision := 1
  updatedAt := input.now
  createdAt := input.now

/-- What a failed insertion reads back was read before it, so the error is thrown. -/
def claimRunnerDispatch (ledger : LedgerDatabase) (input : ClaimRunnerDispatchInput) :
    Except LedgerError (ClaimRunnerDispatchResult × LedgerDatabase) :=
  match supportedStageType input.stageType with
  | none => .ok (.unsupported input.stageType, ledger)
  | some stageType =>
    match (readRunnerAttempt ledger input.attemptId).or
        (readRunnerAttemptByIntent ledger input.intentId) with
    | some existing => .ok (.duplicate existing, ledger)
    | none => do
        let row := claimedRow input stageType
        let inserted ← insertAttempt ledger row
        let recorded ← insertTransition inserted
          { transitionId := transitionId input.attemptId 1
            attemptId := input.attemptId
            fromPhase := none
            toPhase := .prepare
            recordedAt := input.now
            detail := some "claim_dispatch" }
        .ok (.claimed row, recorded)

structure UpdateRunnerAttemptInput where
  attemptId : String
  expectedRevision : Nat
  phase : Option RunnerPhase := none
  workspaceId : Option (Option String) := none
  leaseId : Option (Option String) := none
  checkoutPath : Option (Option String) := none
  processGroupId : Option (Option Int) := none
  backendExecutionId : Option (Option String) := none
  operationId : Option (Option String) := none
  deadlineAt : Option (Option String) := none
  runtimeDirectory : Option (Option String) := none
  preparedAt : Option (Option String) := none
  startedAt : Option (Option String) := none
  finishedAt : Option (Option String) := none
  outputs : Option (List FinalizedOutput) := none
  evidence : Option (List JsonValue) := none
  result : Option (Option StageRunnerResult) := none
  failure : Option (Option JsonValue) := none
  cleanup : Option (Option JsonValue) := none
  validation : Option (Option JsonValue) := none
  recovery : Option RunnerRecovery := none
  transitionDetail : Option String := none
  now : String

def openPhases : List RunnerPhase :=
  [.prepare, .start, .observe, .cancel, .collect, .validate, .finalize, .recoveryRequired]

def currentAttempt (ledger : LedgerDatabase) (attemptId : String) (expectedRevision : Nat) :
    Except LedgerError StageRunnerAttempt :=
  match readRunnerAttempt ledger attemptId with
  | none => .error (.unknownAttempt attemptId)
  | some current =>
    if current.revision ≠ expectedRevision then
      .error (.revisionConflict expectedRevision current.revision)
    else .ok current

def nextPhase (current : StageRunnerAttempt) (input : UpdateRunnerAttemptInput) : RunnerPhase :=
  input.phase.getD current.phase

def nextFinishedAt (current : StageRunnerAttempt) (input : UpdateRunnerAttemptInput) :
    Option String :=
  match input.finishedAt with
  | some given => given
  | none =>
    if nextPhase current input ∈ openPhases then none
    else some (current.finishedAt.getD input.now)

def updatedRow (current : StageRunnerAttempt) (input : UpdateRunnerAttemptInput) :
    StageRunnerAttempt :=
  { current with
    phase := nextPhase current input
    workspaceId := input.workspaceId.getD current.workspaceId
    leaseId := input.leaseId.getD current.leaseId
    checkoutPath := input.checkoutPath.getD current.checkoutPath
    processGroupId := input.processGroupId.getD current.processGroupId
    backendExecutionId := input.backendExecutionId.getD current.backendExecutionId
    operationId := input.operationId.getD current.operationId
    deadlineAt := input.deadlineAt.getD current.deadlineAt
    runtimeDirectory := input.runtimeDirectory.getD current.runtimeDirectory
    preparedAt := input.preparedAt.getD current.preparedAt
    startedAt := input.startedAt.getD current.startedAt
    finishedAt := nextFinishedAt current input
    outputs := input.outputs.getD current.outputs
    evidence := input.evidence.getD current.evidence
    result := input.result.getD current.result
    failure := input.failure.getD current.failure
    cleanup := input.cleanup.getD current.cleanup
    validation := input.validation.getD current.validation
    recovery := input.recovery.getD current.recovery
    revision := current.revision + 1
    updatedAt := input.now }

def recordPhase (ledger : LedgerDatabase) (current : StageRunnerAttempt)
    (input : UpdateRunnerAttemptInput) : Except LedgerError LedgerDatabase :=
  match input.phase with
  | none => .ok ledger
  | some phase =>
    if phase = current.phase then .ok ledger
    else
      insertTransition ledger
        { transitionId := transitionId input.attemptId (current.revision + 1)
          attemptId := input.attemptId
          fromPhase := some current.phase
          toPhase := phase
          recordedAt := input.now
          detail := input.transitionDetail }

def updateRunnerAttempt (ledger : LedgerDatabase) (input : UpdateRunnerAttemptInput) :
    Except LedgerError (StageRunnerAttempt × LedgerDatabase) := do
  let current ← currentAttempt ledger input.attemptId input.expectedRevision
  let updated ← updateAttemptRow ledger input.expectedRevision (updatedRow current input)
  let recorded ← recordPhase updated current input
  .ok (updatedRow current input, recorded)

structure FinalizeRunnerAttemptInput where
  attemptId : String
  expectedRevision : Nat
  observationId : String
  observationKind : ObservationKind
  retryable : Option Bool := none
  classifiedFailure : Option PipelineFailure := none
  priorBackendExecutionId : Option String := none
  resumeAvailable : Option Bool := none
  result : Option StageRunnerResult := none
  failure : Option JsonValue := none
  outputs : List FinalizedOutput
  evidence : List JsonValue
  validation : JsonValue
  cleanup : Option JsonValue := none
  phase : RunnerPhase
  phase_finished : phase ∈ finishedPhases
  recovery : Option RunnerRecovery := none
  now : String

def finalizedRow (current : StageRunnerAttempt) (input : FinalizeRunnerAttemptInput) :
    StageRunnerAttempt :=
  { current with
    phase := input.phase
    finishedAt := some input.now
    outputs := input.outputs
    evidence := input.evidence
    result := input.result
    failure := input.failure
    cleanup := input.cleanup
    validation := some input.validation
    recovery := input.recovery.getD .none
    revision := current.revision + 1
    updatedAt := input.now }

/-- The signature of the failure is stored beside it and read by nothing. -/
def finalizeObservation (current : StageRunnerAttempt) (input : FinalizeRunnerAttemptInput) :
    SchedulerObservation where
  observationId := input.observationId
  kind := input.observationKind
  stageId := some current.stageId
  attemptId := some current.attemptId
  retryable := input.retryable
  recordedAt := input.now
  failure := input.classifiedFailure
  resumeAvailable := input.resumeAvailable
  priorBackendExecutionId := input.priorBackendExecutionId

theorem deliverIntent_intentId (deliveredAt : String) (row : PipelineSchedulerIntentRow) :
    (deliverIntent deliveredAt row).intentId = row.intentId := by
  unfold deliverIntent
  split <;> rfl

def observeFinalized (ledger : LedgerDatabase) (current : StageRunnerAttempt)
    (input : FinalizeRunnerAttemptInput) : Except LedgerError LedgerDatabase :=
  match ledger.store.observations.insert?
      ⟨current.runId, finalizeObservation current input, none⟩ with
  | none => .error .constraint
  | some observations =>
    .ok { ledger with
      store := { ledger.store with
        observations := observations
        intents := ledger.store.intents.modify current.intentId (deliverIntent input.now)
          fun row => deliverIntent_intentId input.now row } }

def finalizeRunnerAttempt (ledger : LedgerDatabase) (input : FinalizeRunnerAttemptInput) :
    Except LedgerError (StageRunnerAttempt × LedgerDatabase) := do
  let current ← currentAttempt ledger input.attemptId input.expectedRevision
  let updated ← updateAttemptRow ledger input.expectedRevision (finalizedRow current input)
  let recorded ← insertTransition updated
    { transitionId := transitionId input.attemptId (current.revision + 1)
      attemptId := input.attemptId
      fromPhase := some current.phase
      toPhase := input.phase
      recordedAt := input.now
      detail := some "finalize" }
  let observed ← observeFinalized recorded current input
  .ok (finalizedRow current input, observed)

inductive LedgerCall where
  | claim (input : ClaimRunnerDispatchInput)
  | update (input : UpdateRunnerAttemptInput)
  | finalize (input : FinalizeRunnerAttemptInput)

def perform (ledger : LedgerDatabase) : LedgerCall → Except LedgerError LedgerDatabase
  | .claim input => (claimRunnerDispatch ledger input).map Prod.snd
  | .update input => (updateRunnerAttempt ledger input).map Prod.snd
  | .finalize input => (finalizeRunnerAttempt ledger input).map Prod.snd

/-- The ledger after a call; a call that throws is rolled back. -/
def after (ledger : LedgerDatabase) (call : LedgerCall) : LedgerDatabase :=
  match perform ledger call with
  | .ok written => written
  | .error _ => ledger

def Along (P : LedgerDatabase → LedgerCall → Prop) (ledger : LedgerDatabase) :
    List LedgerCall → Prop
  | [] => True
  | call :: calls => P ledger call ∧ Along P (after ledger call) calls

section Results

variable {attemptId : String} {ledger written : LedgerDatabase} {row current : StageRunnerAttempt}
  {expected : Nat} {input : FinalizeRunnerAttemptInput}

theorem insertAttempt_eq_ok : insertAttempt ledger row = .ok written ↔
      row.revision = 1 ∧ Admitted ledger row ∧ row.attemptId ∉ ledger.attempts.keys ∧
        written = { ledger with attempts := ledger.attempts.upsert row } := by
  unfold insertAttempt
  by_cases admitted : row.revision = 1 ∧ Admitted ledger row
  · by_cases present : row.attemptId ∈ ledger.attempts.keys
    · simp [Table.insert?, present]
    · simp [Table.insert?, present, admitted.1, admitted.2, eq_comm]
  · rw [if_neg admitted]
    constructor
    · intro impossible
      cases impossible
    · rintro ⟨first, fits, _⟩
      exact absurd ⟨first, fits⟩ admitted

theorem updateAttemptRow_eq_ok :
    updateAttemptRow ledger expected row = .ok written ↔
      ∃ stored, ledger.attempts.find? row.attemptId = some stored ∧ stored.revision = expected ∧
        row.revision = stored.revision + 1 ∧ identity row = identity stored ∧
        Admitted ledger row ∧
        written = { ledger with attempts := ledger.attempts.upsert row } := by
  unfold updateAttemptRow
  cases found : ledger.attempts.find? row.attemptId with
  | none => simp
  | some stored =>
    simp only [ite_not, Option.some.injEq, exists_eq_left']
    by_cases current : stored.revision = expected
    · rw [if_pos current]
      by_cases fits : row.revision = stored.revision + 1 ∧ identity row = identity stored ∧
          Admitted ledger row
      · simp [current, fits.1, fits.2.1, fits.2.2, eq_comm]
      · rw [if_neg fits]
        constructor
        · intro impossible
          cases impossible
        · rintro ⟨_, next, same, admitted, _⟩
          exact absurd ⟨next, same, admitted⟩ fits
    · simp [current]

theorem insertTransition_eq_ok {transition : PhaseTransition} :
    insertTransition ledger transition = .ok written ↔
      transition.attemptId ∈ ledger.attempts.keys ∧
        transition.transitionId ∉ ledger.transitions.keys ∧
        written = { ledger with transitions := ledger.transitions.upsert transition } := by
  unfold insertTransition
  by_cases present : transition.attemptId ∈ ledger.attempts.keys
  · by_cases taken : transition.transitionId ∈ ledger.transitions.keys
    · simp [Table.insert?, taken]
    · simp [Table.insert?, present, taken, eq_comm]
  · simp [present]

theorem observeFinalized_eq_ok :
    observeFinalized ledger current input = .ok written ↔
      input.observationId ∉ ledger.store.observations.keys ∧
      written = { ledger with
        store := { ledger.store with
          observations := ledger.store.observations.upsert
            ⟨current.runId, finalizeObservation current input, none⟩
          intents := ledger.store.intents.modify current.intentId (deliverIntent input.now)
            fun row => deliverIntent_intentId input.now row } } := by
  unfold observeFinalized
  by_cases taken : input.observationId ∈ ledger.store.observations.keys
  · simp [Table.insert?, finalizeObservation, taken]
  · simp [Table.insert?, finalizeObservation, taken, eq_comm]

theorem currentAttempt_eq_ok : currentAttempt ledger attemptId expected = .ok current ↔
      readRunnerAttempt ledger attemptId = some current ∧ current.revision = expected := by
  unfold currentAttempt
  cases readRunnerAttempt ledger attemptId with
  | none => simp
  | some stored =>
    by_cases current : stored.revision = expected
    · simp only [current, ne_eq, not_true_eq_false, ↓reduceIte, Except.ok.injEq,
        Option.some.injEq]
      constructor
      · rintro rfl
        exact ⟨rfl, current⟩
      · exact And.left
    · simp only [ne_eq, current, not_false_eq_true, ↓reduceIte, reduceCtorEq, Option.some.injEq,
        false_iff, not_and]
      rintro rfl
      exact current

theorem claimRunnerDispatch_eq_ok {input : ClaimRunnerDispatchInput}
    {result : ClaimRunnerDispatchResult}
    (ran : claimRunnerDispatch ledger input = .ok (result, written)) :
    (written = ledger ∧ ∀ stageType, supportedStageType input.stageType = some stageType →
      (readRunnerAttempt ledger input.attemptId).or
        (readRunnerAttemptByIntent ledger input.intentId) ≠ none) ∨
    ∃ stageType transition, supportedStageType input.stageType = some stageType ∧
      (readRunnerAttempt ledger input.attemptId).or
        (readRunnerAttemptByIntent ledger input.intentId) = none ∧
      Admitted ledger (claimedRow input stageType) ∧ input.attemptId ∉ ledger.attempts.keys ∧
      transition.transitionId = transitionId input.attemptId 1 ∧
      written = { ledger with
        attempts := ledger.attempts.upsert (claimedRow input stageType)
        transitions := ledger.transitions.upsert transition } := by
  unfold claimRunnerDispatch at ran
  split at ran
  · rename_i unsupported
    cases ran
    refine Or.inl ⟨rfl, fun stageType supported => ?_⟩
    rw [unsupported] at supported
    cases supported
  · rename_i stageType supported
    split at ran
    · rename_i existing
      cases ran
      refine Or.inl ⟨rfl, fun _ _ => ?_⟩
      rw [existing]
      nofun
    · rename_i absent
      obtain ⟨inserted, wrote, ran⟩ := bind_eq_ok.mp ran
      obtain ⟨recorded, noted, ran⟩ := bind_eq_ok.mp ran
      obtain ⟨_, admitted, fresh, rfl⟩ := insertAttempt_eq_ok.mp wrote
      obtain ⟨_, _, rfl⟩ := insertTransition_eq_ok.mp noted
      cases ran
      exact Or.inr ⟨stageType, _, supported, absent, admitted, fresh, rfl, rfl⟩

theorem recordPhase_keeps {input : UpdateRunnerAttemptInput}
    (recorded : recordPhase ledger current input = .ok written) :
    written.store = ledger.store ∧ written.attempts = ledger.attempts := by
  unfold recordPhase at recorded
  split at recorded
  · cases recorded
    exact ⟨rfl, rfl⟩
  · split at recorded
    · cases recorded
      exact ⟨rfl, rfl⟩
    · obtain ⟨_, _, rfl⟩ := insertTransition_eq_ok.mp recorded
      exact ⟨rfl, rfl⟩

theorem updateRunnerAttempt_ok {input : UpdateRunnerAttemptInput}
    (ran : updateRunnerAttempt ledger input = .ok (row, written)) :
    ∃ current ∈ ledger.attempts.rows, row = updatedRow current input ∧
      written.store = ledger.store ∧ written.attempts = ledger.attempts.upsert row := by
  obtain ⟨current, read, ran⟩ := bind_eq_ok.mp ran
  obtain ⟨updated, wrote, ran⟩ := bind_eq_ok.mp ran
  obtain ⟨recorded, noted, ran⟩ := bind_eq_ok.mp ran
  cases ran
  obtain ⟨_, _, _, _, _, _, rfl⟩ := updateAttemptRow_eq_ok.mp wrote
  exact ⟨current, Table.mem_of_find? (currentAttempt_eq_ok.mp read).1, rfl,
    recordPhase_keeps noted⟩

theorem finalizeRunnerAttempt_ok
    (ran : finalizeRunnerAttempt ledger input = .ok (row, written)) :
    ∃ current, row = finalizedRow current input ∧
      written.attempts = ledger.attempts.upsert row ∧
      written.store = { ledger.store with
        observations := ledger.store.observations.upsert
          ⟨current.runId, finalizeObservation current input, none⟩
        intents := ledger.store.intents.modify current.intentId (deliverIntent input.now)
          fun row => deliverIntent_intentId input.now row } := by
  obtain ⟨current, _, ran⟩ := bind_eq_ok.mp ran
  obtain ⟨updated, wrote, ran⟩ := bind_eq_ok.mp ran
  obtain ⟨recorded, noted, ran⟩ := bind_eq_ok.mp ran
  obtain ⟨observed, settled, ran⟩ := bind_eq_ok.mp ran
  cases ran
  obtain ⟨_, _, _, _, _, _, rfl⟩ := updateAttemptRow_eq_ok.mp wrote
  obtain ⟨_, _, rfl⟩ := insertTransition_eq_ok.mp noted
  obtain ⟨_, rfl⟩ := observeFinalized_eq_ok.mp settled
  exact ⟨current, rfl, rfl, rfl⟩

end Results

end Heniek.RunnerLedger
