import Heniek.IntegrationSteps

/-!
Publication and verification. A publication is asked for, and the gate of the
combined verification passes, for a verified entry only, as long as no entry goes to
reconciliation with a candidate for every repository before its verification has
passed. A verification that threw leaves such an entry behind, and a drift of its
branch then sends it there.
-/

namespace Heniek.VerifiedPublication
open KeyedTable ScriptText IntegrationStore IntegrationService IntegrationSteps

/-- The entry that a publication or a passed gate is for is verified. -/
def PublishedVerified : Event → Prop
  | .initialized _ | .ordered _ | .refused _ _ => True
  | .published integrationId _ ledger =>
    (∃ entry ∈ ledger, entry.integrationId = integrationId) ∧
      ∀ entry ∈ ledger, entry.integrationId = integrationId → entry.verification = .passed
  | .committed commit =>
    ∀ gates ∈ commit.gates, gates.combinedVerification = .passed →
      commit.before.verification = .passed

instance : DecidablePred PublishedVerified
  | .initialized _ | .ordered _ | .refused _ _ => inferInstanceAs (Decidable True)
  | .published _ _ _ => inferInstanceAs (Decidable (_ ∧ _))
  | .committed commit => inferInstanceAs (Decidable (∀ gates ∈ commit.gates, _))

/-- An entry that goes to reconciliation is verified, or lacks a candidate. -/
def SentVerified (commit : Commit) : Prop :=
  commit.after.lifecycle = .reconciliationRequired → Complete commit.after.repositories →
    commit.before.verification = .passed

instance : DecidablePred SentVerified := fun commit => inferInstanceAs
  (Decidable (commit.after.lifecycle = .reconciliationRequired →
    Complete commit.after.repositories → commit.before.verification = .passed))

def AllSentVerified (log : List Event) : Prop := ∀ commit ∈ commits log, SentVerified commit

instance (log : List Event) : Decidable (AllSentVerified log) :=
  inferInstanceAs (Decidable (∀ commit ∈ commits log, SentVerified commit))

theorem AllSentVerified.before {log events : List Event} (sent : AllSentVerified (log ++ events)) :
    AllSentVerified log := by
  intro commit member
  refine sent commit ?_
  rw [commits, List.filterMap_append]
  exact List.mem_append_left _ member

structure EntryVerified (entry : TaskIntegrationLedgerEntry) : Prop where
  verified : entry.lifecycle = .verified → entry.verification = .passed
  reconciled : entry.lifecycle = .reconciliationRequired → Complete entry.repositories →
    entry.verification = .passed

theorem EntryVerified.of_publishable {entry : TaskIntegrationLedgerEntry}
    (holds : EntryVerified entry) (ready : Publishable entry) : entry.verification = .passed := by
  rcases ready with verified | ⟨waiting, complete⟩
  · exact holds.verified verified
  · exact holds.reconciled waiting complete

structure Verified (w : World) : Prop where
  entries : ∀ entry ∈ w.db.ledger.rows, EntryVerified entry
  events : ∀ event ∈ w.log, PublishedVerified event

variable {w : World}

theorem Verified.log_concat {event : Event} (verified : Verified w)
    (holds : PublishedVerified event) : ∀ logged ∈ w.log ++ [event], PublishedVerified logged := by
  intro logged member
  rcases List.mem_append.mp member with before | last
  · exact verified.events logged before
  · rw [List.mem_singleton.mp last]
    exact holds

theorem Verified.upsert {next : TaskIntegrationLedgerEntry} (verified : Verified w)
    (holds : EntryVerified next) :
    ∀ entry ∈ (w.db.ledger.upsert next).rows, EntryVerified entry := by
  intro entry member
  rcases Table.mem_upsert.mp member with rfl | ⟨before, _⟩
  · exact holds
  · exact verified.entries entry before

section Transitions

variable {driver : TaskIntegrationDriver} {entry : TaskIntegrationLedgerEntry}
variable {input : TaskIntegrationTransitionInput}

theorem entryVerified_transitioned (cause : Cause driver entry input)
    (sent : (transitioned entry input).lifecycle = .reconciliationRequired →
      Complete (transitioned entry input).repositories → entry.verification = .passed) :
    EntryVerified (transitioned entry input) := by
  cases cause with
  | prepared repositories queued => exact ⟨nofun, nofun⟩
  | verification result prepared =>
    cases passed : result.classification with
    | passed => exact ⟨by simp [transitioned, verificationTransition, passed],
        by simp [transitioned, verificationTransition, passed]⟩
    | failed => exact ⟨by simp [transitioned, verificationTransition, passed],
        by simp [transitioned, verificationTransition, passed]⟩
  | unchanged verified nothing => exact ⟨nofun, nofun⟩
  | published n work publication verified answered applied => exact ⟨nofun, nofun⟩
  | failed ongoing => exact ⟨nofun, nofun⟩
  | reconciled repositories ongoing => exact ⟨nofun, sent⟩

theorem gates_verified (cause : Cause driver entry input) (holds : EntryVerified entry)
    {gates : IntegrationGates} (given : input.gates = some gates)
    (passed : gates.combinedVerification = .passed) : entry.verification = .passed := by
  cases cause with
  | prepared repositories queued => cases given; cases passed
  | verification result prepared =>
    unfold verificationTransition at given
    split at given
    · cases given; cases passed
    · cases given
  | unchanged verified nothing => exact holds.verified verified
  | published n work publication verified answered applied => exact holds.verified verified
  | failed ongoing => cases given
  | reconciled repositories ongoing => cases given; exact passed

end Transitions

theorem verified_step {driver : TaskIntegrationDriver} {order : List TaskDispatchRecord}
    {w' : World} (step : Step driver order w w') (holds : AllSentVerified w.log → Verified w) :
    AllSentVerified w'.log → Verified w' := by
  intro sent
  cases step with
  | called => exact ⟨(holds sent).entries, (holds sent).events⟩
  | initialized input fresh =>
    have verified := holds sent.before
    exact ⟨verified.entries, verified.log_concat trivial⟩
  | drifted input existing found => exact ⟨(holds sent).entries, (holds sent).events⟩
  | ordered =>
    have verified := holds sent.before
    exact ⟨verified.entries, verified.log_concat trivial⟩
  | enqueued item entry db listed accepted =>
    refine ⟨?_, (holds sent).events⟩
    rcases enqueue_ok accepted with ⟨-, rfl⟩ | ⟨-, -, rfl⟩
    · exact (holds sent).entries
    · exact (holds sent).upsert ⟨nofun, nofun⟩
  | refused item error listed failed =>
    have verified := holds sent.before
    exact ⟨verified.entries, verified.log_concat trivial⟩
  | noted db tasks branches ledger => exact ⟨ledger ▸ (holds sent).entries, (holds sent).events⟩
  | published entry repositories member ready before =>
    have verified := holds sent.before
    refine ⟨verified.entries, verified.log_concat ⟨⟨entry, member, rfl⟩, ?_⟩⟩
    intro other otherMember same
    rw [Table.eq_of_key_eq otherMember member same]
    exact (verified.entries entry member).of_publishable ready
  | transitioned entry input commit db member cause wrote =>
    have verified := holds sent.before
    have written := writeTransition_ok wrote
    have sentHere : SentVerified commit := sent commit (by simp [commits, Event.commit])
    rw [SentVerified, written.after, written.before] at sentHere
    have next := entryVerified_transitioned cause sentHere
    refine ⟨?_, verified.log_concat ?_⟩
    · rw [written.ledger]
      exact verified.upsert next
    · intro gates given passed
      rw [written.before]
      exact gates_verified cause (verified.entries entry member)
        (written.gates ▸ given) passed
  | resolved entry moves db member waiting complete ledger branches tasks =>
    have verified := holds sent.before
    refine ⟨?_, verified.log_concat ?_⟩
    · rw [ledger]
      exact verified.upsert ⟨nofun, nofun⟩
    · exact fun _ _ _ => (verified.entries entry member).reconciled waiting complete

theorem verified_start : Verified start :=
  ⟨fun _ member => absurd member List.not_mem_nil, fun _ member => absurd member List.not_mem_nil⟩

/-- Every publication and every passed gate is of a verified entry, in a run that sends no
entry to reconciliation with all its candidates before its verification has passed. -/
theorem published_verified [Collation] (driver : TaskIntegrationDriver) (acts : List Act)
    (sent : AllSentVerified (runFrom driver start acts).log) :
    ∀ event ∈ (runFrom driver start acts).log, PublishedVerified event := by
  have run : AllSentVerified (runFrom driver start acts).log →
      Verified (runFrom driver start acts) := by
    refine runFrom_invariant (P := fun w => AllSentVerified w.log → Verified w) ?_ ?_ ?_ acts
    · exact fun _ _ _ step holds => verified_step step holds
    · exact fun w rows holds sent => ⟨(holds sent).entries, (holds sent).events⟩
    · exact fun _ => verified_start
  exact (run sent).events

section Samples

def gitObject (c : Char) : String := String.ofList (List.replicate 40 c)

def observedBranch (remoteSha : Option String) : EpicBranchObservation :=
  ⟨"run", "repository", "refs/heads/epic", "origin", "refs/heads/main", gitObject 'a',
    gitObject 'a', remoteSha⟩

def candidate (resultSha classification : Option String) : TaskIntegrationRepository :=
  ⟨"repository", gitObject 'b', gitObject 'a', some (gitObject 'c'), resultSha, classification⟩

/-- A driver of one repository. The remote branch moves after the first tick. -/
def sampleDriver (verifies : Bool) : TaskIntegrationDriver where
  observeBranches n _ := .ok [observedBranch (if n = 0 then none else some (gitObject 'd'))]
  resolve _ _ := .ok (some ⟨"task-variant:run:1:task"⟩)
  inventory _ _ := .ok .ready
  prepare _ _ := .ok ⟨.prepared, [candidate none none]⟩
  verify _ _ _ := if verifies then .ok ⟨.passed, "report"⟩ else .error ⟨some "interrupted"⟩
  observe n _ _ :=
    .ok [⟨"repository", some (gitObject (if n ≤ 7 then 'a' else 'c')), .observed, none⟩]
  publish _ _ _ := .ok ⟨.integrated, [candidate (some (gitObject 'c')) (some "integrated")]⟩

def sampleTask : TaskLifecycleProjection :=
  { runId := "run", taskId := "task", graphRevision := 1, phase := .succeeded }

def sampleDispatch : TaskDispatchRecord :=
  ⟨"dispatch", "run", "task", 1, 1, "child", "pipeline", "profile", none, "workspace",
    ["repository"], "2026-01-01T00:00:00.000Z"⟩

def sampleActs : List Act :=
  [.tasks (Table.empty.upsert sampleTask), .tick ⟨"run", ["task"], [sampleTask], [sampleDispatch]⟩,
    .tick ⟨"run", ["task"], [sampleTask], [sampleDispatch]⟩]

def sampleLog (verifies : Bool) : List Event :=
  (@runFrom plainCollation (sampleDriver verifies) start sampleActs).log

theorem published_verified_sample :
    AllSentVerified (sampleLog true) ∧ ∀ event ∈ sampleLog true, PublishedVerified event := by
  have sent : AllSentVerified (sampleLog true) := by decide +kernel
  exact ⟨sent, @published_verified plainCollation (sampleDriver true) sampleActs sent⟩

/-- A verification that threw, then a drift: the candidate is published unverified. -/
theorem published_unverified : ¬ ∀ [Collation] (driver : TaskIntegrationDriver) (acts : List Act),
    ∀ event ∈ (runFrom driver start acts).log, PublishedVerified event := by
  intro claim
  have broken : ∃ event ∈ sampleLog false, ¬ PublishedVerified event := by decide +kernel
  obtain ⟨event, logged, unverified⟩ := broken
  exact unverified (@claim plainCollation (sampleDriver false) sampleActs event logged)

end Samples

end Heniek.VerifiedPublication
