import Mathlib.Data.List.Basic

/-!
The closed vocabularies of the pipeline contracts: stage states, transition
reasons, decision actions, intents, outcomes and the modes a stage declares.
The V2 scheduler vocabulary is the V1 one plus the recovery words, so the two
unions of the contracts are one type here.
-/

namespace Heniek.PipelineVocabulary

inductive StageType where
  | agent | command | approval | integration | verify | publish
  deriving DecidableEq

inductive ExecutionMode where
  | autonomous | hitl
  deriving DecidableEq

inductive SessionPolicy where
  | fresh | resume
  deriving DecidableEq

inductive ValidationStrategy where
  | pause | fail | repair | repairFresh | delegate
  deriving DecidableEq

inductive StageState where
  | pending | ready | queued | running | waiting | retrying
  | succeeded | failed | cancelled | blocked
  deriving DecidableEq

namespace StageState

def isTerminal : StageState → Bool
  | .succeeded | .failed | .cancelled | .blocked => true
  | _ => false

def inFlight : StageState → Bool
  | .queued | .running | .waiting => true
  | _ => false

def inactive : StageState → Bool
  | .pending | .ready | .retrying => true
  | _ => false

end StageState

inductive TransitionReason where
  | dependenciesSatisfied | rootEligible | dispatchIntent
  | attemptStarted | attemptWaiting | attemptSucceeded | attemptFailed
  | retryScheduled | retryExhausted
  | conditionNotSelected | conditionBlocked | dependencyUnsatisfied
  | cancelRequested | cancellationSettled | deadlineExceeded
  | manualRerun | pipelineCancelled
  | recoveryProposed | recoveryApproved | recoveryRejected
  | repairExhausted | unchangedFailureExhausted
  deriving DecidableEq

inductive DecisionAction where
  | release | queue | start | wait | succeed | fail | retry | rearm | cancel | block
  | selectEdge | rejectEdge | requestEvaluator | requestCancel | rerun | terminal
  | proposeRecovery | approveRecovery | rejectRecovery
  deriving DecidableEq

/-- The literal that ends a decision id. -/
def DecisionAction.text : DecisionAction → String
  | .release => "release"
  | .queue => "queue"
  | .start => "start"
  | .wait => "wait"
  | .succeed => "succeed"
  | .fail => "fail"
  | .retry => "retry"
  | .rearm => "rearm"
  | .cancel => "cancel"
  | .block => "block"
  | .selectEdge => "select_edge"
  | .rejectEdge => "reject_edge"
  | .requestEvaluator => "request_evaluator"
  | .requestCancel => "request_cancel"
  | .rerun => "rerun"
  | .terminal => "terminal"
  | .proposeRecovery => "propose_recovery"
  | .approveRecovery => "approve_recovery"
  | .rejectRecovery => "reject_recovery"

inductive IntentKind where
  | dispatch | cancel | evaluator
  deriving DecidableEq

def IntentKind.text : IntentKind → String
  | .dispatch => "dispatch"
  | .cancel => "cancel"
  | .evaluator => "evaluator"

inductive TerminalOutcome where
  | succeeded | failed | cancelled | blocked
  deriving DecidableEq

inductive ObservationKind where
  | attemptStarted | attemptWaiting | attemptSucceeded | attemptFailed | cancellationSettled
  | evaluatorDecided | cancelRequested | manualRerun
  | recoveryProposed | recoveryApproved | recoveryRejected
  deriving DecidableEq

inductive FailureCategory where
  | transient | provider | validation | conflict | security | terminal
  deriving DecidableEq

def FailureCategory.text : FailureCategory → String
  | .transient => "transient"
  | .provider => "provider"
  | .validation => "validation"
  | .conflict => "conflict"
  | .security => "security"
  | .terminal => "terminal"

end Heniek.PipelineVocabulary
