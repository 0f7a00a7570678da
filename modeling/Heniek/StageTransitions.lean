import Heniek.PipelineVocabulary

/-!
The fixed stage state machine: `PERMITTED_TRANSITIONS` row by row, in source
order. A pair of states that is not listed is undeclared, and so is a listed
pair with another reason.
-/

namespace Heniek.StageTransitions
open PipelineVocabulary

structure PermittedTransition where
  fromState : StageState
  toState : StageState
  reasons : List TransitionReason

def permittedTransitions : List PermittedTransition := [
  ⟨.pending, .ready, [.dependenciesSatisfied, .rootEligible]⟩,
  ⟨.pending, .cancelled,
    [.conditionNotSelected, .cancelRequested, .pipelineCancelled, .deadlineExceeded]⟩,
  ⟨.pending, .blocked, [.conditionBlocked, .dependencyUnsatisfied]⟩,
  ⟨.ready, .queued, [.dispatchIntent]⟩,
  ⟨.ready, .cancelled,
    [.cancelRequested, .pipelineCancelled, .deadlineExceeded, .conditionNotSelected]⟩,
  ⟨.ready, .blocked, [.conditionBlocked, .dependencyUnsatisfied, .deadlineExceeded]⟩,
  ⟨.queued, .running, [.attemptStarted]⟩,
  ⟨.queued, .cancelled, [.cancellationSettled]⟩,
  ⟨.running, .waiting, [.attemptWaiting]⟩,
  ⟨.running, .succeeded, [.attemptSucceeded]⟩,
  ⟨.running, .failed, [.attemptFailed, .retryExhausted]⟩,
  ⟨.running, .retrying, [.retryScheduled]⟩,
  ⟨.running, .cancelled, [.cancellationSettled]⟩,
  ⟨.running, .blocked, [.conditionBlocked]⟩,
  ⟨.waiting, .running, [.attemptStarted]⟩,
  ⟨.waiting, .succeeded, [.attemptSucceeded]⟩,
  ⟨.waiting, .failed, [.attemptFailed, .retryExhausted]⟩,
  ⟨.waiting, .retrying, [.retryScheduled]⟩,
  ⟨.waiting, .cancelled, [.cancellationSettled]⟩,
  ⟨.waiting, .blocked, [.conditionBlocked]⟩,
  ⟨.waiting, .waiting, [.attemptWaiting]⟩,
  ⟨.retrying, .ready, [.retryScheduled]⟩,
  ⟨.retrying, .failed, [.retryExhausted]⟩,
  ⟨.retrying, .cancelled, [.cancelRequested, .pipelineCancelled, .deadlineExceeded]⟩,
  ⟨.succeeded, .pending, [.manualRerun]⟩,
  ⟨.failed, .pending, [.manualRerun]⟩,
  ⟨.cancelled, .pending, [.manualRerun]⟩,
  ⟨.blocked, .pending, [.manualRerun]⟩]

def isPermittedTransition (fromState toState : StageState) (reason : TransitionReason) : Bool :=
  permittedTransitions.any fun entry =>
    decide (entry.fromState = fromState) && decide (entry.toState = toState) &&
      decide (reason ∈ entry.reasons)

theorem permitted_manualRerun {fromState : StageState} (terminal : fromState.isTerminal = true) :
    isPermittedTransition fromState .pending .manualRerun = true := by
  revert terminal
  cases fromState <;> decide

end Heniek.StageTransitions
