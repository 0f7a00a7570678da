import Heniek.ReducerSteps

/-!
The revisions of the projection rows are what optimistic writes compare. An accepted event
leaves a row, creates it at revision 1, or takes it one revision further; only an update of
the run of an inherited name leaves an entry whose revision is no number.
-/

namespace Heniek.RevisionFidelity
open CanonicalState CanonicalJson ProjectionTables EventPayloads
open ScriptText ProjectionReducer ReducerSteps

/-- A record of rows in which no row disappears, and each is identical, new at revision 1, or one
revision further with the sequence of the event. A revision may fail to be a number. -/
structure Faithful {α : Type} (sequence : Nat) (revision stamp : α → Option Nat)
    (before after : String → Option α) : Prop where
  kept : ∀ k row, before k = some row → ∃ next, after k = some next
  step : ∀ k next, after k = some next → before k = some next ∨
    (before k = none ∧ revision next = some 1) ∨
    ∃ row number, before k = some row ∧ revision row = some number ∧
      revision next = some (number + 1) ∧ stamp next = some sequence

def ownRun? (state : ReducedState) (runId : String) : Option RunEntry :=
  match state.runs.find? runId with
  | some run => some (.row run)
  | none => (state.inheritedRuns.find? runId).map .inherited

def entryRevision : RunEntry → Option Nat
  | .row run => some run.revision
  | .inherited _ => none

def entryStamp : RunEntry → Option Nat
  | .row run => some run.lastEventSequence
  | .inherited run => run.lastEventSequence

structure RevisionsFaithful (event : StateEvent) (before after : ReducedState) : Prop where
  runs : Faithful event.sequence entryRevision entryStamp (ownRun? before) (ownRun? after)
  codebases : Faithful event.sequence (fun row => some row.revision)
    (fun row => some row.lastEventSequence) before.codebases.find? after.codebases.find?
  repositories : Faithful event.sequence (fun row => some row.revision)
    (fun row => some row.lastEventSequence) before.repositories.find? after.repositories.find?
  workspaces : Faithful event.sequence (fun row => some row.revision)
    (fun row => some row.lastEventSequence) before.workspaces.find? after.workspaces.find?
  workspaceLeases : Faithful event.sequence (fun row => some row.revision)
    (fun row => some row.lastEventSequence) before.workspaceLeases.find? after.workspaceLeases.find?
  artifacts : Faithful event.sequence (fun row => some row.revision)
    (fun row => some row.lastEventSequence) before.artifacts.find? after.artifacts.find?
  stageArtifactAliases : Faithful event.sequence (fun row => some row.revision)
    (fun row => some row.lastEventSequence) before.stageArtifactAliases.find?
    after.stageArtifactAliases.find?
  immutable : ∀ k row, before.artifacts.find? k = some row → after.artifacts.find? k = some row

def updatedRun? (event : StateEvent) : Option String :=
  match (payloadObject event).toOption, EventType.ofText? event.type with
  | some payload, some type =>
    if updatesRun type event payload then (requireRunId event payload).toOption else none
  | _, _ => none

/-- The event updates a run that has no row, under a name that objects inherit. -/
def UpdatesInheritedRun (state : ProjectionState) (event : StateEvent) : Prop :=
  ∃ runId, updatedRun? event = some runId ∧ state.runs.find? runId = none ∧ inherited runId = true

section Tables

variable {α : Type} {key : α → String} {scope : List String} {sequence : Nat}
variable {revision stamp : α → Nat} {before after : SortedTable key}

theorem faithful_of_evolves (evolves : Evolves scope sequence revision stamp before after) :
    Faithful sequence (fun row => some (revision row)) (fun row => some (stamp row))
      before.find? after.find? where
  kept := by
    intro k row found
    rcases evolves k with same | ⟨_, next, written, _⟩
    · exact ⟨row, same.trans found⟩
    · exact ⟨next, written⟩
  step := by
    intro k next found
    rcases evolves k with same | ⟨_, row, written, stamped, further⟩
    · exact Or.inl (same.symm.trans found)
    · rw [written] at found
      cases found
      cases earlier : before.find? k with
      | none => exact Or.inr (Or.inl ⟨rfl, by simp [further, earlier]⟩)
      | some old =>
        exact Or.inr (Or.inr ⟨old, revision old, rfl, rfl, by simp [further, earlier],
          by simp [stamped]⟩)

theorem kept_of_extends (extended : Extends scope sequence revision stamp before after)
    {k : String} {row : α} (found : before.find? k = some row) : after.find? k = some row := by
  rcases extended k with same | ⟨_, fresh, _⟩
  · exact same.trans found
  · rw [found] at fresh
    cases fresh

end Tables

theorem ownRun?_eq {state : ReducedState} (plain : state.inheritedRuns = .empty) :
    ownRun? state = fun runId => (state.runs.find? runId).map .row := by
  funext runId
  unfold ownRun?
  cases state.runs.find? runId with
  | some run => rfl
  | none => simp [plain]

theorem faithful_rows {sequence : Nat} {before after : ReducedState}
    (plainBefore : before.inheritedRuns = .empty) (plainAfter : after.inheritedRuns = .empty)
    (rows : Faithful sequence (fun row => some row.revision)
      (fun row => some row.lastEventSequence) before.runs.find? after.runs.find?) :
    Faithful sequence entryRevision entryStamp (ownRun? before) (ownRun? after) := by
  rw [ownRun?_eq plainBefore, ownRun?_eq plainAfter]
  refine ⟨?_, ?_⟩
  · intro k entry found
    obtain ⟨row, present, _⟩ := Option.map_eq_some_iff.mp found
    obtain ⟨next, written⟩ := rows.kept k row present
    exact ⟨.row next, by simp [written]⟩
  · intro k entry found
    obtain ⟨next, written, rfl⟩ := Option.map_eq_some_iff.mp found
    rcases rows.step k next written with same | ⟨absent, first⟩ | ⟨row, number, present, rest⟩
    · exact Or.inl (by simp [same])
    · exact Or.inr (Or.inl ⟨by simp [absent], first⟩)
    · exact Or.inr (Or.inr ⟨.row row, number, by simp [present], rest⟩)

theorem run?_reduced_inherited {state : ProjectionState} {runId : String} :
    (∃ run, state.reduced.run? runId = some (.inherited run)) ↔
      state.runs.find? runId = none ∧ inherited runId = true := by
  cases found : state.runs.find? runId with
  | some run => simp [ReducedState.run?, ProjectionState.reduced, found]
  | none =>
    simp only [ReducedState.run?, ProjectionState.reduced, found]
    cases inherited runId <;> simp

theorem strayUpdate_iff {state : ProjectionState} {event : StateEvent} {payload : Members}
    {type : EventType} (object : payloadObject event = .ok payload)
    (known : EventType.ofText? event.type = some type) :
    StrayUpdate type event payload state.reduced ↔ UpdatesInheritedRun state event := by
  unfold StrayUpdate UpdatesInheritedRun updatedRun?
  simp only [object, known, Except.toOption]
  cases updates : updatesRun type event payload with
  | false => simp
  | true =>
    cases named : requireRunId event payload with
    | error _ => simp
    | ok runId =>
      simp only [if_true, Option.some.injEq, Except.ok.injEq, true_and]
      constructor
      · rintro ⟨other, run, rfl, stray⟩
        exact ⟨_, rfl, run?_reduced_inherited.mp ⟨run, stray⟩⟩
      · rintro ⟨other, rfl, stray⟩
        obtain ⟨run, found⟩ := run?_reduced_inherited.mpr stray
        exact ⟨_, run, rfl, found⟩

variable [NumberText]

theorem revisions_faithful_iff (state : ProjectionState) (event : StateEvent) (next : ReducedState)
    (accepted : applyEvent state.reduced event = .ok next) :
    RevisionsFaithful event state.reduced next ↔ ¬ UpdatesInheritedRun state event := by
  obtain ⟨payload, type, object, known, applied⟩ := applyEvent_ok accepted
  obtain ⟨scope, _, evolved⟩ := reduce_stepped applied
  rw [← strayUpdate_iff object known]
  rcases evolved.inheritedRuns with ⟨plain, unchanged⟩ | ⟨stray, kept, entry, _, absent, written⟩
  · refine ⟨fun _ => plain, fun _ => ?_⟩
    exact {
      runs := faithful_rows rfl unchanged (faithful_of_evolves evolved.runs)
      codebases := faithful_of_evolves evolved.codebases
      repositories := faithful_of_evolves evolved.repositories
      workspaces := faithful_of_evolves evolved.workspaces
      workspaceLeases := faithful_of_evolves evolved.workspaceLeases
      artifacts := faithful_of_evolves evolved.artifacts.evolves
      stageArtifactAliases := faithful_of_evolves evolved.stageArtifactAliases
      immutable := fun _ _ found => kept_of_extends evolved.artifacts found }
  · refine ⟨fun faithful => ?_, fun plain => absurd stray plain⟩
    have found : ownRun? next entry.name = some (.inherited entry) := by
      simp [ownRun?, kept, absent, written]
    have missing : ownRun? state.reduced entry.name = none := by
      unfold ownRun?
      rw [absent]
      rfl
    rcases faithful.runs.step entry.name _ found with same | ⟨_, first⟩ | ⟨row, _, present, _⟩
    · rw [missing] at same
      cases same
    · cases first
    · rw [missing] at present
      cases present

/-- A registration of a codebase. -/
def codebaseEvent : StateEvent where
  sequence := 1
  eventId := "evt-1"
  runId := none
  correlationId := "cor-1"
  causationEventId := none
  type := "codebase.registered"
  recordedAt := "2026-01-01T00:00:00.000Z"
  payload := .object [("codebaseId", .string "cb")]

omit [NumberText] in
theorem revisions_faithful_codebase :
    ∃ next, @applyEvent integerTexts emptyProjectionState.reduced codebaseEvent = .ok next ∧
      (RevisionsFaithful codebaseEvent emptyProjectionState.reduced next ↔
        ¬ UpdatesInheritedRun emptyProjectionState codebaseEvent) :=
  ⟨_, rfl, @revisions_faithful_iff integerTexts emptyProjectionState codebaseEvent _ rfl⟩

/-- A status for a run that was never created, under the name of a property of all objects. -/
def inheritedStatus : StateEvent where
  sequence := 1
  eventId := "evt-1"
  runId := some "constructor"
  correlationId := "cor-1"
  causationEventId := none
  type := "run.status_changed"
  recordedAt := "2026-01-01T00:00:00.000Z"
  payload := .object [("runId", .string "constructor"), ("status", .string "running")]

omit [NumberText] in
theorem revision_not_a_number :
    ¬ ∀ (state : ProjectionState) (event : StateEvent) (next : ReducedState),
      @applyEvent integerTexts state.reduced event = .ok next →
      RevisionsFaithful event state.reduced next := by
  intro faithful
  let entry : InheritedRun := {
    name := "constructor"
    status := some .running
    lastEventSequence := some 1
    updatedAt := some "2026-01-01T00:00:00.000Z" }
  have accepted : @applyEvent integerTexts emptyProjectionState.reduced inheritedStatus =
      .ok (emptyProjectionState.reduced.putRun (.inherited entry)) := rfl
  have found : ownRun? (emptyProjectionState.reduced.putRun (.inherited entry)) "constructor" =
      some (.inherited entry) := rfl
  rcases (faithful _ _ _ accepted).runs.step "constructor" _ found with same | ⟨_, first⟩ | other
  · cases same
  · cases first
  · obtain ⟨row, number, present, _⟩ := other
    cases present

end Heniek.RevisionFidelity
