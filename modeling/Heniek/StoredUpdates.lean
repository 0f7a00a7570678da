import Heniek.RunnerLedger

/-!
Which calls on the ledger of the runner attempts can be stored. The phases that
the update takes for open and the phases that the table takes for finished share
one, `recovery_required`.
-/

namespace Heniek.StoredUpdates
open KeyedTable PipelineStore FallibleRun ScriptText
open SchedulerIds RunnerLedger

structure Sound (ledger : LedgerDatabase) : Prop where
  positive : ∀ row ∈ ledger.attempts.rows, Positive row
  referenced : ∀ row ∈ ledger.attempts.rows, Referenced ledger row
  intents : ∀ row ∈ ledger.attempts.rows, IntentUnique ledger row
  transitions : ∀ transition ∈ ledger.transitions.rows, ∃ row ∈ ledger.attempts.rows,
    ∃ revision ≤ row.revision, transition.transitionId = transitionId row.attemptId revision

variable {attemptId : String} {ledger : LedgerDatabase} {row current : StageRunnerAttempt}
  {expected : Nat} {input : FinalizeRunnerAttemptInput}

theorem transitionId_inj {attemptId' : String} {revision revision' : Nat}
    (same : transitionId attemptId revision = transitionId attemptId' revision') :
    attemptId = attemptId' ∧ revision = revision' := by
  obtain ⟨heads, revisions⟩ := colon_decimal_inj same
  exact ⟨append_left_inj' heads, revisions⟩

theorem sound_put (sound : Sound ledger) (admitted : Admitted ledger row)
    (grows : ∀ stored, ledger.attempts.find? row.attemptId = some stored →
      stored.revision ≤ row.revision) :
    Sound { ledger with attempts := ledger.attempts.upsert row } := by
  obtain ⟨_, positive, referenced, unique⟩ := admitted
  refine ⟨?_, ?_, ?_, ?_⟩
  · intro other listed
    rcases Table.mem_upsert.mp listed with rfl | ⟨stored, _⟩
    · exact positive
    · exact sound.positive other stored
  · intro other listed
    rcases Table.mem_upsert.mp listed with rfl | ⟨stored, _⟩
    · exact referenced
    · exact sound.referenced other stored
  · intro left hleft right hright same
    rcases Table.mem_upsert.mp hleft with rfl | ⟨storedLeft, _⟩
    · rcases Table.mem_upsert.mp hright with rfl | ⟨storedRight, _⟩
      · rfl
      · exact unique right storedRight same
    · rcases Table.mem_upsert.mp hright with rfl | ⟨storedRight, _⟩
      · exact (unique left storedLeft same.symm).symm
      · exact sound.intents left storedLeft right storedRight same
  · intro transition listed
    obtain ⟨other, stored, revision, bounded, named⟩ := sound.transitions transition listed
    by_cases same : other.attemptId = row.attemptId
    · refine ⟨row, Table.mem_upsert.mpr (Or.inl rfl), revision, ?_, same ▸ named⟩
      exact bounded.trans (grows other (same ▸ Table.find?_key stored))
    · exact ⟨other, Table.mem_upsert.mpr (Or.inr ⟨stored, same⟩), revision, bounded, named⟩

theorem sound_record {transition : PhaseTransition} (sound : Sound ledger)
    (stored : row ∈ ledger.attempts.rows)
    (named : transition.transitionId = transitionId row.attemptId row.revision) :
    Sound { ledger with transitions := ledger.transitions.upsert transition } := by
  refine ⟨sound.positive, sound.referenced, sound.intents, ?_⟩
  intro other listed
  rcases Table.mem_upsert.mp listed with rfl | ⟨listed, _⟩
  · exact ⟨row, stored, row.revision, le_rfl, named⟩
  · exact sound.transitions other listed

def Written (ledger : LedgerDatabase) (row : StageRunnerAttempt) : LedgerCall → Prop
  | .claim input => ∃ stageType, supportedStageType input.stageType = some stageType ∧
      (readRunnerAttempt ledger input.attemptId).or
        (readRunnerAttemptByIntent ledger input.intentId) = none ∧
      row = claimedRow input stageType
  | .update input => ∃ current, readRunnerAttempt ledger input.attemptId = some current ∧
      current.revision = input.expectedRevision ∧ row = updatedRow current input
  | .finalize input => ∃ current, readRunnerAttempt ledger input.attemptId = some current ∧
      current.revision = input.expectedRevision ∧ row = finalizedRow current input

/-- A call that writes a row, with the revision the attempt is at. -/
def Current (ledger : LedgerDatabase) (call : LedgerCall) : Prop := ∃ row, Written ledger row call

/-- The end of an attempt is left out, or given with a finished phase. -/
def Conforms : LedgerCall → Prop
  | .update input => ∀ given, input.finishedAt = some given →
      given.isSome = true ∧ ∃ phase ∈ finishedPhases, input.phase = some phase
  | _ => True

/-- The values of a call keep the constraints other than the last check. -/
def Permitted (ledger : LedgerDatabase) : LedgerCall → Prop
  | .claim input =>
    (1 ≤ input.graphRevision ∧ 1 ≤ input.generation ∧ 1 ≤ input.attemptOrdinal) ∧
      input.attemptId ∈ ledger.store.attempts.keys ∧ input.intentId ∈ ledger.store.intents.keys
  | .update input =>
    (∀ processGroup, input.processGroupId = some (some processGroup) → 1 ≤ processGroup) ∧
      ∀ workspace, input.workspaceId = some (some workspace) → workspace ∈ ledger.workspaces
  | .finalize input => input.observationId ∉ ledger.store.observations.keys

/-- The update keeps or takes the phase `recovery_required` and names no end. -/
def Unfinishes (ledger : LedgerDatabase) : LedgerCall → Prop
  | .update input => ∃ current, readRunnerAttempt ledger input.attemptId = some current ∧
      current.revision = input.expectedRevision ∧
      nextPhase current input = .recoveryRequired ∧ input.finishedAt = none
  | _ => False

structure Stored (ledger : LedgerDatabase) (call : LedgerCall) : Prop where
  finished : Conforms call → ∀ row, Written ledger row call → FinishedMatches row
  succeeds : Conforms call → Permitted ledger call → Current ledger call →
    ∃ written, perform ledger call = .ok written
  advances : ∀ written, perform ledger call = .ok written → ∀ row, Written ledger row call →
    readRunnerAttempt written row.attemptId = some row ∧
      row.revision =
        ((readRunnerAttempt ledger row.attemptId).map StageRunnerAttempt.revision).getD 0 + 1
  refused : (∀ written, perform ledger call ≠ .ok written) ∨ ¬ Current ledger call →
    (after ledger call).attempts = ledger.attempts

theorem finished_update_iff {input : UpdateRunnerAttemptInput}
    (conforms : Conforms (.update input)) :
    FinishedMatches (updatedRow current input) ↔
      ¬ (nextPhase current input = .recoveryRequired ∧ input.finishedAt = none) := by
  cases given : input.finishedAt with
  | some value =>
    obtain ⟨present, phase, finished, named⟩ := conforms value given
    have next : nextPhase current input = phase := by simp [nextPhase, named]
    simp [FinishedMatches, updatedRow, nextFinishedAt, given, next, finished, present]
  | none =>
    have row : (updatedRow current input).finishedAt =
        if nextPhase current input ∈ openPhases then none
        else some (current.finishedAt.getD input.now) := by
      simp [updatedRow, nextFinishedAt, given]
    have phase : (updatedRow current input).phase = nextPhase current input := rfl
    rw [FinishedMatches, row, phase]
    cases nextPhase current input <;> simp [finishedPhases, openPhases]

theorem written_unique {call : LedgerCall} {row' : StageRunnerAttempt}
    (first : Written ledger row call) (second : Written ledger row' call) : row = row' := by
  cases call with
  | claim input =>
    obtain ⟨stageType, supported, _, rfl⟩ := first
    obtain ⟨stageType', supported', _, rfl⟩ := second
    rw [Option.some.inj (supported.symm.trans supported')]
  | update input =>
    obtain ⟨current, found, _, rfl⟩ := first
    obtain ⟨current', found', _, rfl⟩ := second
    rw [Option.some.inj (found.symm.trans found')]
  | finalize input =>
    obtain ⟨current, found, _, rfl⟩ := first
    obtain ⟨current', found', _, rfl⟩ := second
    rw [Option.some.inj (found.symm.trans found')]

theorem written_revision {call : LedgerCall} (wrote : Written ledger row call) : row.revision =
      ((readRunnerAttempt ledger row.attemptId).map StageRunnerAttempt.revision).getD 0 + 1 := by
  cases call with
  | claim input =>
    obtain ⟨stageType, _, absent, rfl⟩ := wrote
    have none : readRunnerAttempt ledger (claimedRow input stageType).attemptId = none :=
      (Option.or_eq_none_iff.mp absent).1
    rw [none]
    rfl
  | update input =>
    obtain ⟨current, found, _, rfl⟩ := wrote
    have kept : readRunnerAttempt ledger (updatedRow current input).attemptId = some current :=
      Table.find?_key (Table.mem_of_find? found)
    rw [kept]
    rfl
  | finalize input =>
    obtain ⟨current, found, _, rfl⟩ := wrote
    have kept : readRunnerAttempt ledger (finalizedRow current input).attemptId = some current :=
      Table.find?_key (Table.mem_of_find? found)
    rw [kept]
    rfl

def Wrote (ledger written : LedgerDatabase) (call : LedgerCall) : Prop :=
  (¬ Current ledger call ∧ written = ledger) ∨
    ∃ row, Written ledger row call ∧ written.attempts = ledger.attempts.upsert row ∧ Sound written

theorem claimRunnerDispatch_wrote {written : LedgerDatabase} {input : ClaimRunnerDispatchInput}
    {result : ClaimRunnerDispatchResult} (sound : Sound ledger)
    (ran : claimRunnerDispatch ledger input = .ok (result, written)) :
    Wrote ledger written (.claim input) := by
  rcases claimRunnerDispatch_eq_ok ran with ⟨rfl, taken⟩ |
    ⟨stageType, transition, supported, absent, admitted, fresh, named, rfl⟩
  · refine Or.inl ⟨?_, rfl⟩
    rintro ⟨_, stageType, supported, absent, _⟩
    exact taken stageType supported absent
  · refine Or.inr ⟨claimedRow input stageType, ⟨stageType, supported, absent, rfl⟩, rfl, ?_⟩
    have missing : ledger.attempts.find? (claimedRow input stageType).attemptId = none :=
      Table.find?_eq_none.mpr fresh
    have put := sound_put sound admitted fun stored found => by
      rw [missing] at found
      cases found
    exact sound_record put (Table.mem_upsert.mpr (Or.inl rfl)) named

theorem updateAttemptRow_wrote {written : LedgerDatabase} (sound : Sound ledger)
    (ran : updateAttemptRow ledger expected row = .ok written) :
    written.attempts = ledger.attempts.upsert row ∧ Sound written ∧
      row ∈ written.attempts.rows := by
  obtain ⟨stored, found, _, next, _, admitted, rfl⟩ := updateAttemptRow_eq_ok.mp ran
  refine ⟨rfl, sound_put sound admitted ?_, Table.mem_upsert.mpr (Or.inl rfl)⟩
  intro other present
  rw [found] at present
  cases present
  omega

theorem insertTransition_wrote {written : LedgerDatabase} {transition : PhaseTransition}
    (sound : Sound ledger) (stored : row ∈ ledger.attempts.rows)
    (named : transition.transitionId = transitionId row.attemptId row.revision)
    (ran : insertTransition ledger transition = .ok written) :
    written.attempts = ledger.attempts ∧ Sound written := by
  obtain ⟨_, _, rfl⟩ := insertTransition_eq_ok.mp ran
  exact ⟨rfl, sound_record sound stored named⟩

theorem updateRunnerAttempt_wrote {written : LedgerDatabase} {input : UpdateRunnerAttemptInput}
    {attempt : StageRunnerAttempt} (sound : Sound ledger)
    (ran : updateRunnerAttempt ledger input = .ok (attempt, written)) :
    Wrote ledger written (.update input) := by
  obtain ⟨current, read, ran⟩ := bind_eq_ok.mp ran
  obtain ⟨updated, wrote, ran⟩ := bind_eq_ok.mp ran
  obtain ⟨recorded, noted, ran⟩ := bind_eq_ok.mp ran
  cases ran
  obtain ⟨found, revision⟩ := currentAttempt_eq_ok.mp read
  obtain ⟨attempts, sound', member⟩ := updateAttemptRow_wrote sound wrote
  have named : current.attemptId = input.attemptId := Table.key_of_find? found
  have same : written.attempts = updated.attempts ∧ Sound written := by
    unfold recordPhase at noted
    split at noted
    · cases noted
      exact ⟨rfl, sound'⟩
    · split at noted
      · cases noted
        exact ⟨rfl, sound'⟩
      · refine insertTransition_wrote sound' member ?_ noted
        exact congrArg (transitionId · (current.revision + 1)) named.symm
  exact Or.inr
    ⟨updatedRow current input, ⟨current, found, revision, rfl⟩, same.1.trans attempts, same.2⟩

theorem observeFinalized_sound {written : LedgerDatabase} (sound : Sound ledger)
    (ran : observeFinalized ledger current input = .ok written) :
    written.attempts = ledger.attempts ∧ Sound written := by
  obtain ⟨_, rfl⟩ := observeFinalized_eq_ok.mp ran
  refine ⟨rfl, sound.positive, ?_, sound.intents, sound.transitions⟩
  intro row stored
  obtain ⟨attempt, intent, workspace⟩ := sound.referenced row stored
  exact ⟨attempt, by simpa using intent, workspace⟩

theorem finalizeRunnerAttempt_wrote {written : LedgerDatabase} {attempt : StageRunnerAttempt}
    (sound : Sound ledger) (ran : finalizeRunnerAttempt ledger input = .ok (attempt, written)) :
    Wrote ledger written (.finalize input) := by
  obtain ⟨current, read, ran⟩ := bind_eq_ok.mp ran
  obtain ⟨updated, wrote, ran⟩ := bind_eq_ok.mp ran
  obtain ⟨recorded, noted, ran⟩ := bind_eq_ok.mp ran
  obtain ⟨observed, settled, ran⟩ := bind_eq_ok.mp ran
  cases ran
  obtain ⟨found, revision⟩ := currentAttempt_eq_ok.mp read
  obtain ⟨attempts, sound', member⟩ := updateAttemptRow_wrote sound wrote
  have named : current.attemptId = input.attemptId := Table.key_of_find? found
  obtain ⟨kept, recorded⟩ := insertTransition_wrote sound' member
    (congrArg (transitionId · (current.revision + 1)) named.symm) noted
  obtain ⟨same, sound''⟩ := observeFinalized_sound recorded settled
  exact Or.inr ⟨finalizedRow current input, ⟨current, found, revision, rfl⟩,
    same.trans (kept.trans attempts), sound''⟩

theorem perform_wrote {written : LedgerDatabase} {call : LedgerCall} (sound : Sound ledger)
    (ran : perform ledger call = .ok written) : Wrote ledger written call := by
  cases call with
  | claim input =>
    obtain ⟨⟨result, claimed⟩, called, rfl⟩ := map_eq_ok.mp ran
    exact claimRunnerDispatch_wrote sound called
  | update input =>
    obtain ⟨⟨attempt, updated⟩, called, rfl⟩ := map_eq_ok.mp ran
    exact updateRunnerAttempt_wrote sound called
  | finalize input =>
    obtain ⟨⟨attempt, finalized⟩, called, rfl⟩ := map_eq_ok.mp ran
    exact finalizeRunnerAttempt_wrote sound called

theorem sound_after (sound : Sound ledger) (call : LedgerCall) : Sound (after ledger call) := by
  unfold after
  split
  · rename_i written ran
    rcases perform_wrote sound ran with ⟨_, rfl⟩ | ⟨_, _, _, sound'⟩
    · exact sound
    · exact sound'
  · exact sound

theorem updateAttemptRow_total {stored : StageRunnerAttempt} (sound : Sound ledger)
    (found : ledger.attempts.find? stored.attemptId = some stored)
    (named : row.attemptId = stored.attemptId) (next : row.revision = stored.revision + 1)
    (same : identity row = identity stored) (finished : FinishedMatches row)
    (processGroup : ∀ processGroup ∈ row.processGroupId, 1 ≤ processGroup)
    (workspace : ∀ workspace ∈ row.workspaceId, workspace ∈ ledger.workspaces) :
    updateAttemptRow ledger stored.revision row =
      .ok { ledger with attempts := ledger.attempts.upsert row } := by
  have member := Table.mem_of_find? found
  obtain ⟨graphRevision, generation, ordinal, _, _⟩ := sound.positive stored member
  obtain ⟨attempt, intent, _⟩ := sound.referenced stored member
  simp only [identity, Prod.mk.injEq] at same
  obtain ⟨⟨runId, stageId, stageType, intentId⟩, revision', generation', ordinal', created⟩ := same
  refine updateAttemptRow_eq_ok.mpr ⟨stored, named ▸ found, rfl, next, ?_, ?_, rfl⟩
  · simp only [identity, runId, stageId, stageType, intentId, revision', generation', ordinal',
      created]
  · refine ⟨finished, ⟨?_, ?_, ?_, ?_, processGroup⟩, ⟨?_, ?_, workspace⟩, ?_⟩
    · omega
    · omega
    · omega
    · omega
    · rwa [named]
    · rwa [intentId]
    · intro other listed clash
      rw [named]
      exact sound.intents stored member other listed (clash.trans intentId)

theorem transitionId_fresh {revision : Nat} (sound : Sound ledger)
    (passed : ∀ stored, ledger.attempts.find? attemptId = some stored →
      stored.revision < revision) :
    transitionId attemptId revision ∉ ledger.transitions.keys := by
  intro taken
  obtain ⟨transition, listed, same⟩ := List.mem_map.mp taken
  obtain ⟨row, stored, earlier, bounded, named⟩ := sound.transitions transition listed
  obtain ⟨rfl, rfl⟩ := transitionId_inj (named.symm.trans same)
  have later := passed row (Table.find?_key stored)
  omega

theorem claim_total {input : ClaimRunnerDispatchInput} (sound : Sound ledger)
    (permitted : Permitted ledger (.claim input)) (current : Current ledger (.claim input)) :
    ∃ written, perform ledger (.claim input) = .ok written := by
  obtain ⟨⟨graphRevision, generation, ordinal⟩, attempt, intent⟩ := permitted
  obtain ⟨row, stageType, supported, absent, rfl⟩ := current
  obtain ⟨noAttempt, noIntent⟩ := Option.or_eq_none_iff.mp absent
  have fresh := Table.find?_eq_none.mp noAttempt
  have inserted : insertAttempt ledger (claimedRow input stageType) =
      .ok { ledger with attempts := ledger.attempts.upsert (claimedRow input stageType) } := by
    refine insertAttempt_eq_ok.mpr ⟨rfl, ⟨?_, ?_, ?_, ?_⟩, fresh, rfl⟩
    · simp [FinishedMatches, claimedRow, finishedPhases]
    · exact ⟨graphRevision, generation, ordinal, le_rfl, by simp [claimedRow]⟩
    · exact ⟨attempt, intent, by simp [claimedRow]⟩
    · intro other listed same
      have different : ¬ other.intentId = input.intentId := by
        simpa using List.find?_eq_none.mp noIntent other listed
      exact absurd same different
  have unnamed : transitionId input.attemptId 1 ∉ ledger.transitions.keys := by
    refine transitionId_fresh sound fun stored found => ?_
    have missing : ledger.attempts.find? input.attemptId = none := noAttempt
    rw [missing] at found
    cases found
  have present : input.attemptId ∈ (ledger.attempts.upsert (claimedRow input stageType)).keys :=
    Table.mem_keys_upsert.mpr (Or.inr rfl)
  have claimed : ∃ written, claimRunnerDispatch ledger input =
      .ok (.claimed (claimedRow input stageType), written) := by
    simp only [claimRunnerDispatch, supported, absent]
    exact ⟨_, bind_eq_ok.mpr ⟨_, inserted,
      bind_eq_ok.mpr ⟨_, insertTransition_eq_ok.mpr ⟨present, unnamed, rfl⟩, rfl⟩⟩⟩
  obtain ⟨written, claimed⟩ := claimed
  exact ⟨written, map_eq_ok.mpr ⟨_, claimed, rfl⟩⟩

theorem insertTransition_total {stored : StageRunnerAttempt} (row : StageRunnerAttempt)
    (transition : PhaseTransition) (sound : Sound ledger)
    (found : ledger.attempts.find? stored.attemptId = some stored)
    (put : transition.attemptId = stored.attemptId)
    (named : transition.transitionId = transitionId stored.attemptId (stored.revision + 1)) :
    ∃ written, insertTransition { ledger with attempts := ledger.attempts.upsert row } transition =
      .ok written := by
  refine ⟨_, insertTransition_eq_ok.mpr ⟨?_, ?_, rfl⟩⟩
  · rw [put]
    exact Table.mem_keys_upsert.mpr (Or.inl (Table.mem_keys_of_mem (Table.mem_of_find? found)))
  · have unnamed : transitionId stored.attemptId (stored.revision + 1) ∉
        ledger.transitions.keys := by
      refine transitionId_fresh sound fun other present => ?_
      rw [found] at present
      cases present
      omega
    rwa [named]

theorem update_total {input : UpdateRunnerAttemptInput} (sound : Sound ledger)
    (permitted : Permitted ledger (.update input))
    (found : readRunnerAttempt ledger input.attemptId = some current)
    (revision : current.revision = input.expectedRevision)
    (finished : FinishedMatches (updatedRow current input)) :
    ∃ written, perform ledger (.update input) = .ok written := by
  obtain ⟨processGroup, workspace⟩ := permitted
  have named : current.attemptId = input.attemptId := Table.key_of_find? found
  have member := Table.mem_of_find? found
  have kept : ledger.attempts.find? current.attemptId = some current := named ▸ found
  have updated : updateAttemptRow ledger input.expectedRevision (updatedRow current input) =
      .ok { ledger with attempts := ledger.attempts.upsert (updatedRow current input) } := by
    rw [← revision]
    refine updateAttemptRow_total sound kept rfl rfl rfl finished ?_ ?_
    · cases given : input.processGroupId with
      | none =>
        simp only [updatedRow, given]
        exact (sound.positive current member).2.2.2.2
      | some value =>
        simp only [updatedRow, given, Option.getD_some]
        intro group present
        exact processGroup group (by rw [given, Option.mem_def.mp present])
    · cases given : input.workspaceId with
      | none =>
        simp only [updatedRow, given]
        exact (sound.referenced current member).2.2
      | some value =>
        simp only [updatedRow, given, Option.getD_some]
        intro id present
        exact workspace id (by rw [given, Option.mem_def.mp present])
  have recorded : ∃ written, recordPhase
      { ledger with attempts := ledger.attempts.upsert (updatedRow current input) } current input =
        .ok written := by
    unfold recordPhase
    split
    · exact ⟨_, rfl⟩
    · split
      · exact ⟨_, rfl⟩
      · exact insertTransition_total _ _ sound kept named.symm
          (congrArg (transitionId · (current.revision + 1)) named.symm)
  obtain ⟨written, recorded⟩ := recorded
  refine ⟨written, map_eq_ok.mpr ⟨(updatedRow current input, written), ?_, rfl⟩⟩
  exact bind_eq_ok.mpr ⟨current, currentAttempt_eq_ok.mpr ⟨found, revision⟩,
    bind_eq_ok.mpr ⟨_, updated, bind_eq_ok.mpr ⟨written, recorded, rfl⟩⟩⟩

theorem finished_finalized (current : StageRunnerAttempt) (input : FinalizeRunnerAttemptInput) :
    FinishedMatches (finalizedRow current input) := by
  simp [FinishedMatches, finalizedRow, input.phase_finished]

theorem finalize_total (sound : Sound ledger) (permitted : Permitted ledger (.finalize input))
    (current : Current ledger (.finalize input)) :
    ∃ written, perform ledger (.finalize input) = .ok written := by
  obtain ⟨row, current, found, revision, rfl⟩ := current
  have named : current.attemptId = input.attemptId := Table.key_of_find? found
  have member := Table.mem_of_find? found
  have kept : ledger.attempts.find? current.attemptId = some current := named ▸ found
  have updated : updateAttemptRow ledger input.expectedRevision (finalizedRow current input) =
      .ok { ledger with attempts := ledger.attempts.upsert (finalizedRow current input) } := by
    rw [← revision]
    exact updateAttemptRow_total sound kept rfl rfl rfl (finished_finalized current input)
      (sound.positive current member).2.2.2.2 (sound.referenced current member).2.2
  obtain ⟨recorded, noted⟩ := insertTransition_total (finalizedRow current input)
    ⟨transitionId input.attemptId (current.revision + 1), input.attemptId,
      some current.phase, input.phase, input.now, some "finalize"⟩ sound kept named.symm
    (congrArg (transitionId · (current.revision + 1)) named.symm)
  have store : recorded.store = ledger.store := by
    obtain ⟨_, _, rfl⟩ := insertTransition_eq_ok.mp noted
    rfl
  have unseen : input.observationId ∉ recorded.store.observations.keys := store ▸ permitted
  have finalized : ∃ written, finalizeRunnerAttempt ledger input =
      .ok (finalizedRow current input, written) :=
    ⟨_, bind_eq_ok.mpr ⟨current, currentAttempt_eq_ok.mpr ⟨found, revision⟩,
      bind_eq_ok.mpr ⟨_, updated, bind_eq_ok.mpr ⟨recorded, noted,
        bind_eq_ok.mpr ⟨_, observeFinalized_eq_ok.mpr ⟨unseen, rfl⟩, rfl⟩⟩⟩⟩⟩
  obtain ⟨written, finalized⟩ := finalized
  exact ⟨written, map_eq_ok.mpr ⟨_, finalized, rfl⟩⟩

theorem stored_iff (sound : Sound ledger) (call : LedgerCall) :
    Stored ledger call ↔ ¬ Unfinishes ledger call := by
  constructor
  · intro stored unfinishes
    cases call with
    | claim input => exact unfinishes
    | finalize input => exact unfinishes
    | update input =>
      obtain ⟨current, found, revision, next, omitted⟩ := unfinishes
      have conforms : Conforms (.update input) := by
        intro given named
        rw [omitted] at named
        cases named
      have matched := stored.finished conforms (updatedRow current input)
        ⟨current, found, revision, rfl⟩
      exact (finished_update_iff conforms).mp matched ⟨next, omitted⟩
  · intro keeps
    have finished : Conforms call → ∀ row, Written ledger row call → FinishedMatches row := by
      intro conforms row written
      cases call with
      | claim input =>
        obtain ⟨_, _, _, rfl⟩ := written
        simp [FinishedMatches, claimedRow, finishedPhases]
      | update input =>
        obtain ⟨current, found, revision, rfl⟩ := written
        refine (finished_update_iff conforms).mpr ?_
        rintro ⟨next, omitted⟩
        exact keeps ⟨current, found, revision, next, omitted⟩
      | finalize input =>
        obtain ⟨current, _, _, rfl⟩ := written
        exact finished_finalized current input
    refine ⟨finished, ?_, ?_, ?_⟩
    · intro conforms permitted current
      cases call with
      | claim input => exact claim_total sound permitted current
      | update input =>
        obtain ⟨row, stored, found, revision, rfl⟩ := current
        exact update_total sound permitted found revision
          (finished conforms _ ⟨stored, found, revision, rfl⟩)
      | finalize input => exact finalize_total sound permitted current
    · intro written ran row wrote
      rcases perform_wrote sound ran with ⟨idle, _⟩ | ⟨row', wrote', attempts, _⟩
      · exact absurd ⟨row, wrote⟩ idle
      · obtain rfl := written_unique wrote wrote'
        refine ⟨?_, written_revision wrote⟩
        rw [readRunnerAttempt, attempts, Table.find?_upsert_self]
    · intro refused
      unfold after
      split
      · rename_i written ran
        rcases refused with failed | stale
        · exact absurd ran (failed written)
        · rcases perform_wrote sound ran with ⟨_, rfl⟩ | ⟨row, wrote, _⟩
          · rfl
          · exact absurd ⟨row, wrote⟩ stale
      · rfl

theorem along_iff {P Q : LedgerDatabase → LedgerCall → Prop} {calls : List LedgerCall}
    (sound : Sound ledger) (same : ∀ ledger, Sound ledger → ∀ call, P ledger call ↔ Q ledger call) :
    Along P ledger calls ↔ Along Q ledger calls := by
  induction calls generalizing ledger with
  | nil => rfl
  | cons call calls ih =>
    rw [Along, Along, same ledger sound call, ih (sound_after sound call)]

/-- A ledger of no attempt yet, beside any pipeline tables and workspaces. -/
def opening (store : StateDatabase) (workspaces : List String) : LedgerDatabase where
  store := store
  workspaces := workspaces

theorem sound_opening (store : StateDatabase) (workspaces : List String) :
    Sound (opening store workspaces) := by
  refine ⟨?_, ?_, ?_, ?_⟩ <;> exact fun _ listed => absurd listed List.not_mem_nil

/-- Every call of a sequence is stored exactly when none of them unfinishes its attempt. -/
theorem stored_along_iff (store : StateDatabase) (workspaces : List String)
    (calls : List LedgerCall) :
    Along Stored (opening store workspaces) calls ↔
      Along (fun ledger call => ¬ Unfinishes ledger call) (opening store workspaces) calls :=
  along_iff (sound_opening store workspaces) fun _ sound call => stored_iff sound call

/-- An attempt that is found without its runner. -/
def recoveringStore : StateDatabase :=
  { emptyDatabase with
    attempts := Table.empty.upsert
      { attemptId := "attempt", runId := "run", pipelineId := "pipeline", stageId := "stage"
        graphRevision := 1, generation := 1, attemptOrdinal := 1, stageType := .command
        createdAt := "t0" }
    intents := Table.empty.upsert
      { intentId := "intent", runId := "run", graphRevision := 1, kind := .dispatch
        payload := .dispatch "stage" .command "attempt" 1 1 none
        state := .pending, createdAt := "t0" } }

def claiming : LedgerCall :=
  .claim
    { attemptId := "attempt", runId := "run", stageId := "stage", stageType := "command"
      intentId := "intent", graphRevision := 1, generation := 1, attemptOrdinal := 1, now := "t1" }

def marking : LedgerCall :=
  .update
    { attemptId := "attempt", expectedRevision := 1, phase := some .recoveryRequired
      finishedAt := some (some "t2"), now := "t2" }

def noting : LedgerCall :=
  .update
    { attemptId := "attempt", expectedRevision := 2, processGroupId := some (some 4), now := "t3" }

/-- The attempt as it is marked. -/
def marked : LedgerDatabase := after (after (opening recoveringStore []) claiming) marking

theorem marked_revision :
    (readRunnerAttempt marked "attempt").map StageRunnerAttempt.revision = some 2 := by
  decide +kernel

theorem noting_refused : perform marked noting = .error .constraint := by
  rfl

/-- The update mentions no phase and every value it gives is allowed, but it is not stored. -/
theorem noting_not_stored :
    Conforms noting ∧ Permitted marked noting ∧ Current marked noting ∧
      perform marked noting = .error .constraint ∧
      ¬ Along Stored (opening recoveringStore []) [claiming, marking, noting] := by
  have conforms : Conforms noting := fun given impossible => by cases impossible
  have permitted : Permitted marked noting := by
    refine ⟨fun group named => ?_, fun workspace impossible => by cases impossible⟩
    cases named
    decide
  have current : Current marked noting := by
    cases found : readRunnerAttempt marked "attempt" with
    | none =>
      have revision := marked_revision
      rw [found] at revision
      cases revision
    | some row =>
      have revision := marked_revision
      rw [found] at revision
      exact ⟨_, row, found, Option.some.inj revision, rfl⟩
  refine ⟨conforms, permitted, current, noting_refused, ?_⟩
  rintro ⟨_, _, stored, _⟩
  obtain ⟨written, ran⟩ := stored.succeeds conforms permitted current
  have refused : perform marked noting = .ok written := ran
  cases refused

end Heniek.StoredUpdates
