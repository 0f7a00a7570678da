import Heniek.NativeBridgeRuns

/-!
The native bridge service. A poll claims stages in the store and then provisions their
workspaces one after the other, with other calls between its awaits; what becomes of a
workspace is reported for the claim of the poll, whatever has become of its dispatch. A
submission settles and completes without an await between.
-/

namespace Heniek.NativeBridge
open ProjectionTables (RunStatus)

/-- What a poll has still to provision, the first of it with its workspace or without. -/
structure Provisioning where
  claims : List ClaimedNativeStage
  assigned : Bool
  deriving DecidableEq

structure ServiceWorld where
  db : NativeDatabase
  polls : List Provisioning

def opening : ServiceWorld := ⟨emptyBridge, []⟩

structure SubmitInput where
  settle : SettleInput
  finalizes : Bool
  reasonCode : String
  message : String

inductive ServiceCall where
  | start (input : CreateNativeStageInput)
  | attach (input : AttachInput)
  | detach (input : DetachInput)
  | poll (input : PollInput)
  | workspaceReady (index : Nat) (workspaceId : String)
  | baselineCaptured (index : Nat) (baseline : String)
  | provisioningFailed (index : Nat)
  | unregistered (index : Nat)
  | question (input : RaiseInput)
  | answer (input : AnswerInput)
  | submit (input : SubmitInput)
  | cancel (runId : String)
  | resume (runId : String) (expectedRunRevision : Nat)
  | reconcile (witnessOf : WitnessClassifier)

def provisioningFailure (claim : ClaimedNativeStage) : WorkspaceFailureInput where
  attemptId := claim.attemptId
  runId := claim.runId
  stageId := claim.stageId
  dispatchId := claim.dispatchId
  reasonCode := "native_workspace_provisioning_failed"

def ServiceWorld.next (w : ServiceWorld) (db : NativeDatabase) (index : Nat)
    (rest : List ClaimedNativeStage) : ServiceWorld :=
  ⟨db, w.polls.set index ⟨rest, false⟩⟩

def recordFailure (w : ServiceWorld) (now : Int) (index : Nat) (claim : ClaimedNativeStage)
    (rest : List ClaimedNativeStage) : ServiceWorld :=
  match recordNativeAttemptWorkspaceFailure w.db now (provisioningFailure claim) with
  | .ok db => w.next db index rest
  | .error _ => ⟨w.db, w.polls.eraseIdx index⟩

def workspaceReady (w : ServiceWorld) (now : Int) (index : Nat) (workspaceId : String) :
    ServiceWorld :=
  match w.polls[index]? with
  | some ⟨claim :: rest, false⟩ =>
    match assignNativeAttemptWorkspace w.db claim.attemptId workspaceId with
    | .error _ => recordFailure w now index claim rest
    | .ok db =>
      if claim.request.readOnly then ⟨db, w.polls.set index ⟨claim :: rest, true⟩⟩
      else w.next db index rest
  | _ => w

def baselineCaptured (w : ServiceWorld) (index : Nat) (baseline : String) : ServiceWorld :=
  match w.polls[index]? with
  | some ⟨claim :: rest, true⟩ =>
    w.next (recordNativeAttemptReadonlyBaseline w.db claim.attemptId baseline) index rest
  | _ => w

def provisioningFailed (w : ServiceWorld) (now : Int) (index : Nat) : ServiceWorld :=
  match w.polls[index]? with
  | some ⟨claim :: rest, _⟩ => recordFailure w now index claim rest
  | _ => w

/-- The repository of a claim is not registered any more, and the poll throws. -/
def unregistered (w : ServiceWorld) (index : Nat) : ServiceWorld :=
  match w.polls[index]? with
  | some ⟨_ :: _, false⟩ => ⟨w.db, w.polls.eraseIdx index⟩
  | _ => w

def poll (w : ServiceWorld) (now : Int) (input : PollInput) : ServiceWorld :=
  match pollNativeBridge w.db now input with
  | .ok (.accepted result, db) => ⟨db, w.polls ++ [⟨result.claimed, false⟩]⟩
  | .ok (.rejected _, db) => ⟨db, w.polls⟩
  | .error _ => w

def completeStage (db : NativeDatabase) (runId stageId : String) : NativeResult NativeDatabase :=
  (advanceRunStatus (appendEvent db (.stageCompleted runId stageId)) runId .succeeded).map Prod.snd

def downgradeSubmission (db : NativeDatabase) (input : SubmitInput) : NativeDatabase :=
  kept db (downgradeNativeAttemptToFailed db input.settle.fence.attemptId
    input.settle.fence.runId input.reasonCode input.message)

def finalizeSubmission (db : NativeDatabase) (input : SubmitInput) : NativeDatabase :=
  if input.finalizes then
    match completeStage db input.settle.fence.runId input.settle.fence.stageId with
    | .error _ => downgradeSubmission db input
    | .ok completed =>
      match completeNativeAttemptArtifactOutcome completed input.settle.fence.attemptId
          input.settle.fence.runId with
      | .ok settled => settled
      | .error _ => downgradeSubmission completed input
  else downgradeSubmission db input

def submit (db : NativeDatabase) (now : Int) (input : SubmitInput) : NativeDatabase :=
  match settleNativeDispatch db now input.settle with
  | .ok (.accepted settlement, settled) =>
    if settlement.idempotentReplay ∨ settlement.requiresArtifactCompletion = false then settled
    else finalizeSubmission settled input
  | .ok (.rejected _, swept) => swept
  | .error _ => db

def ServiceWorld.within (w : ServiceWorld) (db : NativeDatabase) : ServiceWorld := ⟨db, w.polls⟩

def call (w : ServiceWorld) (now : Int) : ServiceCall → ServiceWorld
  | .start input => w.within (perform w.db now (.create input))
  | .attach input => w.within (perform w.db now (.attach input))
  | .detach input => w.within (perform w.db now (.detach input))
  | .poll input => poll w now input
  | .workspaceReady index workspaceId => workspaceReady w now index workspaceId
  | .baselineCaptured index baseline => baselineCaptured w index baseline
  | .provisioningFailed index => provisioningFailed w now index
  | .unregistered index => unregistered w index
  | .question input => w.within (perform w.db now (.raise input))
  | .answer input => w.within (perform w.db now (.answer input))
  | .submit input => w.within (submit w.db now input)
  | .cancel runId => w.within (perform w.db now (.cancel runId))
  | .resume runId expectedRunRevision =>
    w.within (perform w.db now (.resume runId expectedRunRevision))
  | .reconcile witnessOf => w.within (perform w.db now (.reap witnessOf))

/-- Calls and reports that a condition on the service before them allows. -/
def Calls (allowed : ServiceWorld → ServiceCall → Prop) (w w' : ServiceWorld) : Prop :=
  ∃ now service, allowed w service ∧ w' = call w now service

def ServedWith (allowed : ServiceWorld → ServiceCall → Prop) (w : ServiceWorld) : Prop :=
  Relation.ReflTransGen (Calls allowed) opening w

def failedClaim (w : ServiceWorld) : ServiceCall → Option ClaimedNativeStage
  | .provisioningFailed index =>
    match w.polls[index]? with
    | some ⟨claim :: _, _⟩ => some claim
    | _ => none
  | .workspaceReady index _ =>
    match w.polls[index]? with
    | some ⟨claim :: _, false⟩ =>
      if (w.db.attempts.find? claim.attemptId).any fun attempt => attempt.workspaceId.isNone
      then none else some claim
    | _ => none
  | _ => none

end Heniek.NativeBridge
