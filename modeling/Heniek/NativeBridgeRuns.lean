import Heniek.NativeBridgeCourses

/-!
Runs of the native bridge store: any operations of any callers, one after the other, at
any instants. An operation that throws leaves the database as it was.
-/

namespace Heniek.NativeBridge

inductive Operation where
  | create (input : CreateNativeStageInput)
  | attach (input : AttachInput)
  | detach (input : DetachInput)
  | poll (input : PollInput)
  | assignWorkspace (attemptId : Nat) (workspaceId : String)
  | recordBaseline (attemptId : Nat) (baseline : String)
  | workspaceFailure (input : WorkspaceFailureInput)
  | raise (input : RaiseInput)
  | answer (input : AnswerInput)
  | settle (input : SettleInput)
  | complete (attemptId : Nat) (runId : String)
  | downgrade (attemptId : Nat) (runId reasonCode message : String)
  | resume (runId : String) (expectedRunRevision : Nat)
  | cancel (runId : String)
  | reap (witnessOf : WitnessClassifier)

def stored {α : Type} (db : NativeDatabase) : NativeResult (α × NativeDatabase) → NativeDatabase
  | .ok (_, db') => db'
  | .error _ => db

def kept (db : NativeDatabase) : NativeResult NativeDatabase → NativeDatabase
  | .ok db' => db'
  | .error _ => db

def perform (db : NativeDatabase) (now : Int) : Operation → NativeDatabase
  | .create input => (createNativeStage db now input).2
  | .attach input => stored db (attachParentSession db now input)
  | .detach input => stored db (detachParentSession db now input)
  | .poll input => stored db (pollNativeBridge db now input)
  | .assignWorkspace attemptId workspaceId =>
    kept db (assignNativeAttemptWorkspace db attemptId workspaceId)
  | .recordBaseline attemptId baseline => recordNativeAttemptReadonlyBaseline db attemptId baseline
  | .workspaceFailure input => kept db (recordNativeAttemptWorkspaceFailure db now input)
  | .raise input => stored db (raiseNativeQuestion db now input)
  | .answer input => stored db (answerNativeQuestion db now input)
  | .settle input => stored db (settleNativeDispatch db now input)
  | .complete attemptId runId => kept db (completeNativeAttemptArtifactOutcome db attemptId runId)
  | .downgrade attemptId runId reasonCode message =>
    kept db (downgradeNativeAttemptToFailed db attemptId runId reasonCode message)
  | .resume runId expectedRunRevision =>
    stored db (resumeNativeStage db now runId expectedRunRevision)
  | .cancel runId => stored db (cancelNativeStage db now runId)
  | .reap witnessOf => kept db (reapAllExpiredParentSessions db now witnessOf)

def Advances (allowed : NativeDatabase → Int → Operation → Prop) (db db' : NativeDatabase) : Prop :=
  ∃ now operation, allowed db now operation ∧ db' = perform db now operation

def ReachableWith (allowed : NativeDatabase → Int → Operation → Prop) (db : NativeDatabase) :
    Prop :=
  Relation.ReflTransGen (Advances allowed) emptyBridge db

/-- What a call leaves holds when it throws, as nothing is changed, and when it does not. -/
theorem stored_of {α : Type} {P : NativeDatabase → Prop} {db : NativeDatabase}
    {result : NativeResult (α × NativeDatabase)} (unchanged : P db)
    (changed : ∀ a db', result = .ok (a, db') → P db') : P (stored db result) := by
  cases result with
  | error => exact unchanged
  | ok value => exact changed value.1 value.2 rfl

theorem kept_of {P : NativeDatabase → Prop} {db : NativeDatabase}
    {result : NativeResult NativeDatabase} (unchanged : P db)
    (changed : ∀ db', result = .ok db' → P db') : P (kept db result) := by
  cases result with
  | error => exact unchanged
  | ok db' => exact changed db' rfl

def request : StageRequest where
  repositoryId := "repo"
  profileId := "profile"
  prompt := "do it"
  artifactPath := "out.md"
  instructionsPath := "in.md"
  artifactContract := "contract"
  model := "m"
  effort := "high"
  focus := none
  questions := .parentMediated
  readOnly := false
  permissions := "{}"
  limits := "{}"
  hardDeadlineAt := none

def silent : WitnessClassifier := fun _ _ => .unknown

end Heniek.NativeBridge
