import Heniek.PipelineVocabulary
import Heniek.ScriptText

/-!
Deterministic identities of attempts, decisions and intents. Run and graph
revision are the same throughout a schedule, so the ids of one schedule differ
exactly in their last coordinates, for stage ids of any spelling.
-/

namespace Heniek.SchedulerIds
open PipelineVocabulary ScriptText

def edgeKey (fromStageId toStageId : String) : String := fromStageId ++ "->" ++ toStageId

def deriveAttemptId (runId : String) (graphRevision : Nat) (stageId : String)
    (generation attemptOrdinal : Nat) : String :=
  "pa:" ++ runId ++ ":" ++ toString graphRevision ++ ":" ++ stageId ++ ":" ++
    toString generation ++ ":" ++ toString attemptOrdinal

def deriveDecisionId (runId : String) (graphRevision : Nat) (stageId : String)
    (generation attemptOrdinal : Nat) (action : DecisionAction) : String :=
  "pd:" ++ runId ++ ":" ++ toString graphRevision ++ ":" ++ stageId ++ ":" ++
    toString generation ++ ":" ++ toString attemptOrdinal ++ ":" ++ action.text

def deriveIntentId (runId : String) (graphRevision : Nat) (kind : IntentKind) (key : String) :
    String :=
  "pi:" ++ runId ++ ":" ++ toString graphRevision ++ ":" ++ kind.text ++ ":" ++ key

def deriveRecoveryDecisionId (runId : String) (graphRevision : Nat) (stageId : String)
    (generation attemptOrdinal : Nat) (action : String) : String :=
  "prd:" ++ runId ++ ":" ++ toString graphRevision ++ ":" ++ stageId ++ ":" ++
    toString generation ++ ":" ++ toString attemptOrdinal ++ ":" ++ action

/-- The key under which dispatch and cancel intents name an attempt. -/
def attemptKey (stageId : String) (generation attemptOrdinal : Nat) : String :=
  stageId ++ ":" ++ toString generation ++ ":" ++ toString attemptOrdinal

theorem append_left_inj' {common a b : String} (same : common ++ a = common ++ b) : a = b := by
  have chars := congrArg String.toList same
  rw [String.toList_append, String.toList_append] at chars
  exact String.toList_inj.mp (List.append_cancel_left chars)

variable {s s' runId : String} {g g' n n' graphRevision : Nat}

theorem attemptKey_inj (same : attemptKey s g n = attemptKey s' g' n') :
    s = s' ∧ g = g' ∧ n = n' := by
  obtain ⟨heads, ordinals⟩ := colon_decimal_inj same
  obtain ⟨stages, generations⟩ := colon_decimal_inj heads
  exact ⟨stages, generations, ordinals⟩

theorem deriveAttemptId_eq (runId : String) (graphRevision : Nat) (s : String) (g n : Nat) :
    deriveAttemptId runId graphRevision s g n =
      ("pa:" ++ runId ++ ":" ++ toString graphRevision ++ ":") ++ attemptKey s g n := by
  simp only [deriveAttemptId, attemptKey, String.append_assoc]

theorem deriveAttemptId_inj
    (same : deriveAttemptId runId graphRevision s g n =
      deriveAttemptId runId graphRevision s' g' n') :
    s = s' ∧ g = g' ∧ n = n' := by
  rw [deriveAttemptId_eq, deriveAttemptId_eq] at same
  exact attemptKey_inj (append_left_inj' same)

theorem deriveIntentId_inj {kind : IntentKind} {key key' : String}
    (same : deriveIntentId runId graphRevision kind key =
      deriveIntentId runId graphRevision kind key') :
    key = key' :=
  append_left_inj' same

theorem colonFree_action (action : DecisionAction) : colonFree action.text := by
  cases action <;> decide

theorem actionText_inj {a b : DecisionAction} (same : a.text = b.text) : a = b := by
  revert same
  cases a <;> cases b <;> decide

theorem deriveDecisionId_inj {a a' : DecisionAction}
    (same : deriveDecisionId runId graphRevision s g n a =
      deriveDecisionId runId graphRevision s' g' n' a') :
    s = s' ∧ g = g' ∧ n = n' ∧ a = a' := by
  obtain ⟨heads, actions⟩ := colon_inj (colonFree_action a) (colonFree_action a') same
  have keys : attemptKey s g n = attemptKey s' g' n' := by
    have prefixed : ("pd:" ++ runId ++ ":" ++ toString graphRevision ++ ":") ++ attemptKey s g n =
        ("pd:" ++ runId ++ ":" ++ toString graphRevision ++ ":") ++ attemptKey s' g' n' := by
      simpa only [attemptKey, String.append_assoc] using heads
    exact append_left_inj' prefixed
  obtain ⟨stages, generations, ordinals⟩ := attemptKey_inj keys
  exact ⟨stages, generations, ordinals, actionText_inj actions⟩

end Heniek.SchedulerIds
