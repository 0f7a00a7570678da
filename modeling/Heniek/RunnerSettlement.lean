import Heniek.PipelineRunner
import Heniek.RunnerLedger

/-!
The settlement of a runner attempt and the merge of its outputs. Finalizing the
attempt, writing the canonical state and the tick that consumes the observation
are three transactions. Between the first two the service never yields, so only
the end of the process or an exception can separate them; but then nothing
merges the outputs any more, since only open attempts are looked at again.

`Service` holds the database, the attempt whose outputs are still to be merged,
which is not stored, and the merges made so far, which nothing reads.
-/

namespace Heniek.RunnerSettlement
open PipelineVocabulary PipelineDocument ExpressionEvaluation RecoveryPolicy
open PipelineStore PipelineRunner CanonicalState
open RunnerLedger hiding perform after

def settledObservationKind : RunnerOutcome → ObservationKind
  | .succeeded => .attemptSucceeded
  | .cancelled => .cancellationSettled
  | .failed | .recoveryRequired => .attemptFailed

def settledPhase : RunnerOutcome → RunnerPhase
  | .succeeded => .succeeded
  | .cancelled => .cancelled
  | .recoveryRequired => .recoveryRequired
  | .failed => .failed

theorem settledPhase_finished (outcome : RunnerOutcome) :
    settledPhase outcome ∈ finishedPhases := by
  cases outcome <;> decide

/-- What a call of `settleRunner` hands to the finalization. Every runner reports `succeeded` only
of outputs that passed its validation. -/
structure Settlement where
  attemptId : String
  expectedRevision : Nat
  observationId : String
  result : StageRunnerResult
  valid : Bool
  valid_of_succeeded : result.outcome = .succeeded → valid = true
  retryable : Option Bool := none
  classifiedFailure : Option PipelineFailure := none
  priorBackendExecutionId : Option String := none
  resumeAvailable : Option Bool := none
  failure : Option JsonValue := none
  evidence : List JsonValue := []
  validation : JsonValue
  cleanup : Option JsonValue := none
  recovery : RunnerRecovery := .none
  now : String

def finalizeInput (settlement : Settlement) : FinalizeRunnerAttemptInput where
  attemptId := settlement.attemptId
  expectedRevision := settlement.expectedRevision
  observationId := settlement.observationId
  observationKind := settledObservationKind settlement.result.outcome
  retryable := settlement.retryable
  classifiedFailure := settlement.classifiedFailure
  priorBackendExecutionId := settlement.priorBackendExecutionId
  resumeAvailable := settlement.resumeAvailable
  result := some settlement.result
  failure := settlement.failure
  outputs := settlement.result.outputs
  evidence := settlement.evidence
  validation := settlement.validation
  cleanup := settlement.cleanup
  phase := settledPhase settlement.result.outcome
  phase_finished := settledPhase_finished settlement.result.outcome
  recovery := some settlement.recovery
  now := settlement.now

/-- A merge that was made: the attempt and what was handed to the canonical state. -/
structure Merge where
  attemptId : String
  runId : String
  binding : FinalizedOutputBinding

def outputBinding (graph : PipelineGraph) (attempt : StageRunnerAttempt) :
    FinalizedOutputBinding where
  stageId := attempt.stageId
  writes := ((graph.stages.find? fun stage => stage.id = attempt.stageId).map
    PipelineStage.writes).getD []
  outputs := (attempt.result.map StageRunnerResult.outputs).getD []
  validationValid := true

def mergeOutputs (db : StateDatabase) (attempt : StageRunnerAttempt) (now : String) :
    Store (Merge × StateDatabase) := do
  let parts ← loadPipelineSchedulerInputParts db attempt.runId
  let binding := outputBinding parts.graph attempt
  let built := buildCanonicalConditionState (.json parts.canonicalState) [binding]
  let written :=
    match writeCanonicalRunState db attempt.runId built.state none now with
    | some (_, written) => written
    | none => db
  .ok (⟨attempt.attemptId, attempt.runId, binding⟩, written)

structure Service where
  db : LedgerDatabase := {}
  settling : Option StageRunnerAttempt := none
  merges : List Merge := []

inductive Transaction where
  | operate (operation : Operation)
  | claim (input : ClaimRunnerDispatchInput)
  | provision (workspaceId : String)
  | update (input : UpdateRunnerAttemptInput)
  | finalize (settlement : Settlement)
  | merge (now : String)
  | tick (runId now : String)
  | interrupt

inductive TransactionError where
  | runner (error : LedgerError)
  | service (error : ServiceError)
  | settling (attemptId : String)
  | notSettling
  | reserved
  deriving DecidableEq

/-- Canonical state is written by the settlement only, and the success of an attempt is observed by
its finalization only, which is also what writes the outputs and the result of an attempt. -/
def elsewhere : Operation → Bool
  | .canonical _ _ _ _ => false
  | .observe _ observation => decide (observation.kind ≠ .attemptSucceeded)
  | _ => true

/-- The transactions that come while nothing is being settled. -/
def performIdle [Sha256] (service : Service) : Transaction → Except TransactionError Service
  | .operate operation =>
    if elsewhere operation then do
      let store ← (perform service.db.store operation).mapError (.service ∘ .store)
      .ok { service with db := { service.db with store := store } }
    else .error .reserved
  | .claim input => do
      let (_, db) ← (claimRunnerDispatch service.db input).mapError .runner
      .ok { service with db := db }
  | .provision workspaceId =>
    .ok { service with db :=
      { service.db with workspaces := workspaceId :: service.db.workspaces } }
  | .update input =>
    if input.outputs.isNone && input.result.isNone then do
      let (_, db) ← (updateRunnerAttempt service.db input).mapError .runner
      .ok { service with db := db }
    else .error .reserved
  | .finalize settlement => do
      let (attempt, db) ← (finalizeRunnerAttempt service.db (finalizeInput settlement)).mapError
        .runner
      let delivers := settlement.result.outcome = .succeeded ∧ settlement.valid = true
      .ok { service with db := db, settling := if delivers then some attempt else none }
  | .tick runId now => do
      let (_, _, _, store) ← (tickAttempt service.db.store runId now).mapError .service
      .ok { service with db := { service.db with store := store } }
  | .merge _ => .error .notSettling
  | .interrupt => .ok service

/-- While outputs are to be merged, the merge is all that can happen, or the interruption, by the
end of the process or by an exception, that forgets them. -/
def performSettling (service : Service) (attempt : StageRunnerAttempt) :
    Transaction → Except TransactionError Service
  | .merge now => do
      let (merge, store) ← (mergeOutputs service.db.store attempt now).mapError (.service ∘ .store)
      .ok
        { db := { service.db with store := store }
          settling := none
          merges := service.merges ++ [merge] }
  | .interrupt => .ok { service with settling := none }
  | _ => .error (.settling attempt.attemptId)

def performTransaction [Sha256] (service : Service) (transaction : Transaction) :
    Except TransactionError Service :=
  match service.settling with
  | none => performIdle service transaction
  | some attempt => performSettling service attempt transaction

def Step [Sha256] (service service' : Service) : Prop :=
  ∃ transaction, performTransaction service transaction = .ok service'

/-- A transaction that does not cut a settlement off from its merge. -/
def UncutStep [Sha256] (service service' : Service) : Prop :=
  ∃ transaction, (transaction = .interrupt → service.settling = none) ∧
    performTransaction service transaction = .ok service'

end Heniek.RunnerSettlement
