import Heniek.ProjectionReducer

/-!
What an accepted event can do to the tables: leave a row, or write one within the scope of
the event that is one revision further and stamped with the sequence of the event.
-/

namespace Heniek.ReducerSteps
open ScriptText CanonicalState CanonicalJson ProjectionTables EventPayloads ProjectionReducer
open FallibleRun

section Tables

variable {α : Type} {key : α → String}
variable {scope : List String} {sequence : Nat} {revision stamp : α → Nat}
variable {before after : SortedTable key}

def Evolves (scope : List String) (sequence : Nat) (revision stamp : α → Nat)
    (before after : SortedTable key) : Prop :=
  ∀ k, after.find? k = before.find? k ∨
    k ∈ scope ∧ ∃ row, after.find? k = some row ∧ stamp row = sequence ∧
      revision row = (before.find? k).elim 0 revision + 1

def Extends (scope : List String) (sequence : Nat) (revision stamp : α → Nat)
    (before after : SortedTable key) : Prop :=
  ∀ k, after.find? k = before.find? k ∨
    k ∈ scope ∧ before.find? k = none ∧ ∃ row, after.find? k = some row ∧ stamp row = sequence ∧
      revision row = 1

theorem Extends.evolves (extended : Extends scope sequence revision stamp before after) :
    Evolves scope sequence revision stamp before after := by
  intro k
  refine (extended k).imp_right ?_
  rintro ⟨within, fresh, row, found, stamped, first⟩
  exact ⟨within, row, found, stamped, by simp [fresh, first]⟩

theorem Evolves.refl : Evolves scope sequence revision stamp before before := fun _ => Or.inl rfl

theorem Extends.refl : Extends scope sequence revision stamp before before := fun _ => Or.inl rfl

theorem Evolves.put {row : α} (within : key row ∈ scope) (stamped : stamp row = sequence)
    (next : revision row = (before.find? (key row)).elim 0 revision + 1) :
    Evolves scope sequence revision stamp before (before.put row) := by
  intro k
  by_cases same : key row = k
  · subst same
    exact Or.inr ⟨within, row, SortedTable.find?_put_self before row, stamped, next⟩
  · exact Or.inl (SortedTable.find?_put_of_ne before same)

theorem Extends.put {row : α} (within : key row ∈ scope) (fresh : before.find? (key row) = none)
    (stamped : stamp row = sequence) (first : revision row = 1) :
    Extends scope sequence revision stamp before (before.put row) := by
  intro k
  by_cases same : key row = k
  · subst same
    exact Or.inr ⟨within, fresh, row, SortedTable.find?_put_self before row, stamped, first⟩
  · exact Or.inl (SortedTable.find?_put_of_ne before same)

theorem Extends.then {middle : SortedTable key}
    (first : Extends scope sequence revision stamp before middle)
    (second : Extends scope sequence revision stamp middle after) :
    Extends scope sequence revision stamp before after := by
  intro k
  rcases second k with same | ⟨within, absent, row⟩
  · rw [same]
    exact first k
  · rcases first k with same | ⟨_, _, earlier, found, _⟩
    · exact Or.inr ⟨within, same ▸ absent, row⟩
    · rw [found] at absent
      cases absent

theorem Extends.foldl_put {rows : List α} (within : ∀ row ∈ rows, key row ∈ scope)
    (fresh : ∀ row ∈ rows, before.find? (key row) = none)
    (stamped : ∀ row ∈ rows, stamp row = sequence ∧ revision row = 1) :
    Extends scope sequence revision stamp before
      (rows.foldl (fun table row => table.put row) before) := by
  have spread : ∀ (rows : List α) (table : SortedTable key),
      (∀ row ∈ rows, key row ∈ scope ∧ stamp row = sequence ∧ revision row = 1) → ∀ k,
      (rows.foldl (fun table row => table.put row) table).find? k = table.find? k ∨
        k ∈ rows.map key ∧ k ∈ scope ∧
          ∃ row, (rows.foldl (fun table row => table.put row) table).find? k = some row ∧
            stamp row = sequence ∧ revision row = 1 := by
    intro rows
    induction rows with
    | nil => exact fun table _ k => Or.inl rfl
    | cons row rows ih =>
      intro table good k
      have here := good row List.mem_cons_self
      have later := ih (table.put row)
        (fun other member => good other (List.mem_cons_of_mem row member)) k
      rw [List.foldl_cons]
      rcases later with same | ⟨listed, within, found⟩
      · by_cases hit : key row = k
        · subst hit
          rw [same, SortedTable.find?_put_self]
          exact Or.inr ⟨by simp, here.1, row, rfl, here.2⟩
        · rw [same]
          exact Or.inl (SortedTable.find?_put_of_ne table hit)
      · exact Or.inr ⟨by simp [List.mem_map.mp listed], within, found⟩
  intro k
  have good : ∀ row ∈ rows, key row ∈ scope ∧ stamp row = sequence ∧ revision row = 1 :=
    fun row member => ⟨within row member, stamped row member⟩
  refine (spread rows before good k).imp_right ?_
  rintro ⟨listed, inside, found⟩
  obtain ⟨row, member, rfl⟩ := List.mem_map.mp listed
  exact ⟨inside, fresh row member, found⟩

end Tables

/-- The change of the whole state. An entry that is no row is written just when the event
updates the run of an inherited name. -/
structure Evolved (scope : ProjectionScope) (event : StateEvent) (stray : Prop)
    (before after : ReducedState) : Prop where
  runs : Evolves scope.runs event.sequence RunState.revision RunState.lastEventSequence
    before.runs after.runs
  codebases : Evolves scope.codebases event.sequence CodebaseState.revision
    CodebaseState.lastEventSequence before.codebases after.codebases
  repositories : Evolves scope.repositories event.sequence RepositoryState.revision
    RepositoryState.lastEventSequence before.repositories after.repositories
  workspaces : Evolves scope.workspaces event.sequence WorkspaceState.revision
    WorkspaceState.lastEventSequence before.workspaces after.workspaces
  workspaceLeases : Evolves scope.workspaceLeases event.sequence WorkspaceLeaseState.revision
    WorkspaceLeaseState.lastEventSequence before.workspaceLeases after.workspaceLeases
  artifacts : Extends scope.artifacts event.sequence ArtifactState.revision
    ArtifactState.lastEventSequence before.artifacts after.artifacts
  stageArtifactAliases : Evolves (scope.stageArtifactAliases.map (·.key)) event.sequence
    StageArtifactAliasState.revision StageArtifactAliasState.lastEventSequence
    before.stageArtifactAliases after.stageArtifactAliases
  inheritedRuns : ¬ stray ∧ after.inheritedRuns = before.inheritedRuns ∨
    stray ∧ after.runs = before.runs ∧ ∃ entry, entry.name ∈ scope.runs ∧
      before.runs.find? entry.name = none ∧
      after.inheritedRuns = before.inheritedRuns.put entry

variable {scope : ProjectionScope} {event : StateEvent} {state : ReducedState} {runId : String}

theorem Evolved.refl {stray : Prop} (plain : ¬ stray) : Evolved scope event stray state state where
  runs := .refl
  codebases := .refl
  repositories := .refl
  workspaces := .refl
  workspaceLeases := .refl
  artifacts := .refl
  stageArtifactAliases := .refl
  inheritedRuns := Or.inl ⟨plain, rfl⟩

theorem check_eq_ok {condition : Bool} {reason : String} {result : Unit}
    (passed : check condition event reason = .ok result) : condition = true := by
  unfold check at passed
  split at passed
  · assumption
  · cases passed

theorem run?_of_requireRun {entry : RunEntry}
    (required : requireRun state event runId = .ok entry) :
    state.run? runId = some entry := by
  unfold requireRun at required
  split at required
  · rename_i found
    cases required
    exact found
  · cases required

theorem find?_of_run? {run : RunState} (found : state.run? runId = some (.row run)) :
    state.runs.find? runId = some run := by
  unfold ReducedState.run? at found
  split at found
  · rename_i row
    cases found
    exact row
  · split at found
    · cases found
    · split at found <;> cases found

theorem find?_of_run?_inherited {run : InheritedRun}
    (found : state.run? runId = some (.inherited run)) : state.runs.find? runId = none := by
  unfold ReducedState.run? at found
  split at found
  · cases found
  · assumption

theorem key_of_run? {entry : RunEntry} (found : state.run? runId = some entry) :
    entry.key = runId := by
  unfold ReducedState.run? at found
  split at found
  · rename_i run row
    cases found
    change run.runId = runId
    exact SortedTable.key_of_find? row
  · split at found
    · rename_i run row
      cases found
      change run.name = runId
      exact SortedTable.key_of_find? row
    · split at found <;> cases found
      rfl

/-- An update of an entry that keeps it what it is and takes it to the next revision. -/
def Follows (event : StateEvent) : RunEntry → RunEntry → Prop
  | .row previous, .row next =>
    next.runId = previous.runId ∧ next.revision = previous.revision + 1 ∧
      next.lastEventSequence = event.sequence
  | .inherited previous, .inherited next => next.name = previous.name
  | _, _ => False

def isInherited : RunEntry → Prop
  | .row _ => False
  | .inherited _ => True

theorem evolved_row {stray : Prop} {run next : RunState} (plain : ¬ stray)
    (found : state.run? runId = some (.row run)) (within : runId ∈ scope.runs)
    (follows : Follows event (.row run) (.row next)) :
    Evolved scope event stray state (state.putRun (.row next)) := by
  obtain ⟨same, revision, stamped⟩ := follows
  have key : run.runId = runId := key_of_run? found
  have listed : next.runId ∈ scope.runs := by
    rw [same, key]
    exact within
  have further : next.revision = (state.runs.find? next.runId).elim 0 (·.revision) + 1 := by
    rw [same, key, find?_of_run? found]
    exact revision
  exact { Evolved.refl plain with
    runs := Evolves.put listed stamped further
    inheritedRuns := Or.inl ⟨plain, rfl⟩ }

theorem evolved_putRun {previous next : RunEntry} (found : state.run? runId = some previous)
    (within : runId ∈ scope.runs) (follows : Follows event previous next) :
    Evolved scope event (isInherited previous) state (state.putRun next) := by
  have key := key_of_run? found
  cases previous with
  | row run =>
    cases next with
    | inherited _ => exact follows.elim
    | row next => exact evolved_row id found within follows
  | inherited run =>
    cases next with
    | row _ => exact follows.elim
    | inherited next =>
      have name : next.name = runId := Eq.trans follows key
      have listed : next.name ∈ scope.runs := name ▸ within
      have absent : state.runs.find? next.name = none := name ▸ find?_of_run?_inherited found
      exact {
        runs := .refl
        codebases := .refl
        repositories := .refl
        workspaces := .refl
        workspaceLeases := .refl
        artifacts := .refl
        stageArtifactAliases := .refl
        inheritedRuns := Or.inr ⟨trivial, rfl, next, listed, absent, rfl⟩ }

theorem follows_advanced (event : StateEvent) (previous : RunEntry) :
    Follows event previous (advanced event previous) := by
  cases previous <;> simp [Follows, advanced]

theorem follows_withStatus (event : StateEvent) (status : RunStatus) (previous : RunEntry) :
    Follows event previous (advanced event (withStatus status previous)) := by
  cases previous <;> simp [Follows, advanced, withStatus]

theorem follows_withWorkspace (event : StateEvent) (workspaceId : String) (previous : RunEntry) :
    Follows event previous (advanced event (withWorkspace workspaceId previous)) := by
  cases previous <;> simp [Follows, advanced, withWorkspace]

/-- The event writes to the run that it names, whatever that is. -/
def updatesRun (type : EventType) (event : StateEvent) (payload : Members) : Bool :=
  match type with
  | .runStatusChanged | .runSignalled _ | .runWorkspaceAssigned => true
  | .stageCompleted => (terminalRunStatus event payload).toOption = some true
  | _ => false

def StrayUpdate (type : EventType) (event : StateEvent) (payload : Members)
    (state : ReducedState) : Prop :=
  updatesRun type event payload = true ∧ ∃ runId run, requireRunId event payload = .ok runId ∧
    state.run? runId = some (.inherited run)

/-- A rule that was applied had a scope, and changed the state within it. -/
def Stepped (type : EventType) (event : StateEvent) (payload : Members)
    (before after : ReducedState) [NumberText] : Prop :=
  ∃ scope, scopeOf type event payload = .ok scope ∧
    Evolved scope event (StrayUpdate type event payload before) before after

section Rules

variable {type : EventType} {event : StateEvent} {payload : Members} {state next : ReducedState}

theorem not_stray (still : updatesRun type event payload = false) :
    ¬ StrayUpdate type event payload state := by
  rintro ⟨updates, _⟩
  rw [still] at updates
  cases updates

variable {runId stageId : String}

theorem stray_iff {entry : RunEntry} (updates : updatesRun type event payload = true)
    (named : requireRunId event payload = .ok runId) (found : state.run? runId = some entry) :
    StrayUpdate type event payload state ↔ isInherited entry := by
  constructor
  · rintro ⟨_, other, run, sameName, stray⟩
    rw [named] at sameName
    cases sameName
    rw [found] at stray
    cases stray
    trivial
  · intro stray
    cases entry with
    | row _ => exact stray.elim
    | inherited run => exact ⟨updates, runId, run, named, found⟩

variable [NumberText]

theorem runCreated_stepped (applied : runCreated event payload state = .ok next) :
    Stepped .runCreated event payload state next := by
  simp only [runCreated, bind_eq_ok] at applied
  obtain ⟨runId, named, _, absent, workspaceId, workspace, codebaseId, codebase, applied⟩ := applied
  cases applied
  refine ⟨_, by simp only [scopeOf, named, workspace, codebase]; rfl, ?_⟩
  have free : state.run? runId = none := Option.isNone_iff_eq_none.mp (check_eq_ok absent)
  have fresh : state.runs.find? runId = none := by
    cases found : state.runs.find? runId with
    | none => rfl
    | some run => simp [ReducedState.run?, found] at free
  have plain : ¬ StrayUpdate .runCreated event payload state := not_stray rfl
  exact { Evolved.refl plain with
    runs := Evolves.put (by simp) rfl (by simp [fresh])
    inheritedRuns := Or.inl ⟨plain, rfl⟩ }

theorem runStatusChanged_stepped (applied : runStatusChanged event payload state = .ok next) :
    Stepped .runStatusChanged event payload state next := by
  simp only [runStatusChanged, bind_eq_ok] at applied
  obtain ⟨runId, named, previous, required, text, _, applied⟩ := applied
  have found := run?_of_requireRun required
  cases known : runStatus? text with
  | none => simp [known, reject] at applied
  | some status =>
    rw [known] at applied
    cases applied
    refine ⟨_, by simp only [scopeOf, named]; rfl, ?_⟩
    rw [stray_iff rfl named found]
    exact evolved_putRun found (by simp) (follows_withStatus event status previous)

theorem runSignalled_stepped (signal : RunSignal)
    (applied : runSignalled event payload state = .ok next) :
    Stepped (.runSignalled signal) event payload state next := by
  simp only [runSignalled, bind_eq_ok] at applied
  obtain ⟨runId, named, previous, required, applied⟩ := applied
  cases applied
  have found := run?_of_requireRun required
  refine ⟨_, by simp only [scopeOf, named]; rfl, ?_⟩
  rw [stray_iff rfl named found]
  exact evolved_putRun found (by simp) (follows_advanced event previous)

theorem runWorkspaceAssigned_stepped
    (applied : runWorkspaceAssigned event payload state = .ok next) :
    Stepped .runWorkspaceAssigned event payload state next := by
  simp only [runWorkspaceAssigned, bind_eq_ok] at applied
  obtain ⟨runId, named, previous, required, workspaceId, workspace, _, _, applied⟩ := applied
  cases applied
  have found := run?_of_requireRun required
  refine ⟨_, by simp only [scopeOf, named, workspace]; rfl, ?_⟩
  rw [stray_iff rfl named found]
  exact evolved_putRun found (by simp) (follows_withWorkspace event workspaceId previous)

theorem runInstructionsSnapshotted_stepped
    (applied : runInstructionsSnapshotted event payload state = .ok next) :
    Stepped .runInstructionsSnapshotted event payload state next := by
  simp only [runInstructionsSnapshotted, bind_eq_ok] at applied
  obtain ⟨runId, named, previous, required, applied⟩ := applied
  have found := run?_of_requireRun required
  refine ⟨_, by simp only [scopeOf, named]; rfl, ?_⟩
  cases previous with
  | inherited _ => cases applied
  | row run =>
    simp only [bind_eq_ok] at applied
    obtain ⟨_, _, ⟨sha256, json⟩, _, applied⟩ := applied
    cases applied
    exact evolved_row (not_stray rfl) found (by simp) ⟨rfl, rfl, rfl⟩

theorem runCapability_stepped (capability : CapabilityEvent)
    (applied : runCapability event payload state = .ok next) :
    Stepped (.runCapability capability) event payload state next := by
  simp only [runCapability, bind_eq_ok] at applied
  obtain ⟨runId, named, previous, required, landingJson, _, applied⟩ := applied
  have found := run?_of_requireRun required
  refine ⟨_, by simp only [scopeOf, named]; rfl, ?_⟩
  cases previous with
  | inherited _ => cases applied
  | row run =>
    cases landed : run.capabilityLandingJson with
    | some stored =>
      simp only [landed] at applied
      split at applied
      · cases applied
        exact Evolved.refl (not_stray rfl)
      · cases applied
    | none =>
      simp only [landed] at applied
      cases applied
      exact evolved_row (not_stray rfl) found (by simp) ⟨rfl, rfl, rfl⟩

omit [NumberText] in
theorem find?_of_not_defined {α : Type} {key : α → String} {table : SortedTable key} {k : String}
    (undefined : (!defined table k) = true) : table.find? k = none := by
  cases found : table.find? k with
  | none => rfl
  | some row => simp [defined, found] at undefined

theorem codebaseRegistered_stepped (applied : codebaseRegistered event payload state = .ok next) :
    Stepped .codebaseRegistered event payload state next := by
  simp only [codebaseRegistered, bind_eq_ok] at applied
  obtain ⟨codebaseId, codebase, _, absent, applied⟩ := applied
  cases applied
  have fresh := find?_of_not_defined (check_eq_ok absent)
  refine ⟨_, by simp only [scopeOf, codebase]; rfl, ?_⟩
  exact { Evolved.refl (not_stray rfl) with
    codebases := Evolves.put (by simp) rfl (by simp [fresh]) }

theorem repositoryRegistered_stepped
    (applied : repositoryRegistered event payload state = .ok next) :
    Stepped .repositoryRegistered event payload state next := by
  simp only [repositoryRegistered, bind_eq_ok] at applied
  obtain ⟨repositoryId, repository, codebaseId, codebase, _, absent, _, _, applied⟩ := applied
  cases applied
  have fresh := find?_of_not_defined (check_eq_ok absent)
  refine ⟨_, by simp only [scopeOf, codebase, repository]; rfl, ?_⟩
  exact { Evolved.refl (not_stray rfl) with
    repositories := Evolves.put (by simp) rfl (by simp [fresh]) }

theorem codebaseRegistrationCommitted_stepped
    (applied : codebaseRegistrationCommitted event payload state = .ok next) :
    Stepped .codebaseRegistrationCommitted event payload state next := by
  simp only [codebaseRegistrationCommitted, bind_eq_ok] at applied
  obtain ⟨registration, registered, applied⟩ := applied
  refine ⟨_, by simp only [scopeOf, registered]; rfl, ?_⟩
  split at applied
  · split at applied
    · cases applied
      exact Evolved.refl (not_stray rfl)
    · cases applied
  · rename_i absent
    obtain ⟨⟨⟩, checked, applied⟩ := bind_eq_ok.mp applied
    cases applied
    have fresh := find?_of_not_defined (by simpa using absent)
    have others : ∀ repository ∈ registration.repositories,
        state.repositories.find? repository.repositoryId = none := fun repository member =>
      find?_of_not_defined (check_eq_ok (forM_ok checked repository member))
    have rows : ∀ {P : RepositoryState → Prop},
        (∀ repository ∈ registration.repositories,
          P (registeredRepository event registration.codebaseId repository)) →
        ∀ row ∈ registration.repositories.map (registeredRepository event registration.codebaseId),
          P row := by
      intro P each row member
      obtain ⟨repository, listed, rfl⟩ := List.mem_map.mp member
      exact each repository listed
    exact { Evolved.refl (not_stray rfl) with
      codebases := Evolves.put (by simp) rfl (by simp [fresh])
      repositories := (Extends.foldl_put
        (rows fun repository member => List.mem_map.mpr ⟨repository, member, rfl⟩)
        (rows others) (rows fun _ _ => ⟨rfl, rfl⟩)).evolves }

theorem workspaceRegistered_stepped (applied : workspaceRegistered event payload state = .ok next) :
    Stepped .workspaceRegistered event payload state next := by
  simp only [workspaceRegistered, bind_eq_ok] at applied
  obtain ⟨workspaceId, workspace, codebaseId, codebase, _, absent, _, _, applied⟩ := applied
  cases applied
  have fresh := find?_of_not_defined (check_eq_ok absent)
  refine ⟨_, by simp only [scopeOf, codebase, workspace]; rfl, ?_⟩
  exact { Evolved.refl (not_stray rfl) with
    workspaces := Evolves.put (by simp) rfl (by simp [fresh]) }

theorem workspaceProvisioningRecorded_stepped
    (applied : workspaceProvisioningRecorded event payload state = .ok next) :
    Stepped .workspaceProvisioningRecorded event payload state next := by
  simp only [workspaceProvisioningRecorded, bind_eq_ok] at applied
  obtain ⟨workspaceId, workspace, codebaseId, codebase, repositoryId, repository, _, _, _, _, _, _,
    _, _, _, _, _, _, _, _, applied⟩ := applied
  cases applied
  refine ⟨_, by simp only [scopeOf, codebase, repository, workspace]; rfl, ?_⟩
  exact { Evolved.refl (not_stray rfl) with workspaces := Evolves.put (by simp) rfl rfl }

omit [NumberText] in
theorem workspaceLease_ok {lease : LeaseEvent}
    (applied : workspaceLease lease event payload state = .ok next) :
    ∃ (claim : LeaseClaim) (row : WorkspaceLeaseState),
      requireString event payload "checkoutPath" = .ok claim.checkoutPath ∧
      requireString event payload "workspaceId" = .ok claim.workspaceId ∧
      requireString event payload "repositoryId" = .ok claim.repositoryId ∧
      requireNonNegativeInteger event payload "fencingRevision" = .ok claim.fencingRevision ∧
      requireString event payload "leaseId" = .ok claim.leaseId ∧
      requireString event payload "leaseState" = .ok claim.leaseState ∧
      claim.leaseState = expectedState lease ∧
      admitsLease lease claim (state.workspaceLeases.find? claim.checkoutPath) = true ∧
      row.checkoutPath = claim.checkoutPath ∧ row.fencingRevision = claim.fencingRevision ∧
      row.leaseId = claim.leaseId ∧ row.leaseState = claim.leaseState ∧
      row.lastEventSequence = event.sequence ∧
      row.revision = (state.workspaceLeases.find? claim.checkoutPath).elim 0 (·.revision) + 1 ∧
      next = { state with workspaceLeases := state.workspaceLeases.put row } := by
  simp only [workspaceLease, bind_eq_ok] at applied
  obtain ⟨checkoutPath, path, workspaceId, workspace, repositoryId, repository, _, _, _, _,
    fencingRevision, fence, leaseId, identity, leaseState, leased, _, _, _, admitted, _, expected,
    _, _, _, _, _, _, _, _, _, _, _, _, applied⟩ := applied
  cases applied
  exact ⟨⟨checkoutPath, workspaceId, repositoryId, fencingRevision, leaseId, leaseState⟩, _, path,
    workspace, repository, fence, identity, leased, by simpa using check_eq_ok expected,
    check_eq_ok admitted, rfl, rfl, rfl, rfl, rfl, rfl, rfl⟩

theorem workspaceLease_stepped {lease : LeaseEvent}
    (applied : workspaceLease lease event payload state = .ok next) :
    Stepped (.workspaceLease lease) event payload state next := by
  obtain ⟨claim, row, path, workspace, repository, _, _, _, _, _, key, _, _, _, stamped, revision,
    rfl⟩ := workspaceLease_ok applied
  refine ⟨_, by simp only [scopeOf, path, repository, workspace]; rfl, ?_⟩
  refine { Evolved.refl (not_stray rfl) with
    workspaceLeases := Evolves.put (by simp [key]) stamped ?_ }
  rw [key]
  exact revision

theorem artifactPublished_stepped (applied : artifactPublished event payload state = .ok next) :
    Stepped .artifactPublished event payload state next := by
  simp only [artifactPublished, bind_eq_ok] at applied
  obtain ⟨runId, named, _, _, stageId, stage, artifactId, artifact, _, absent, _, _, _, _, _, _, _,
    _, _, _, _, _, _, _, _, _, applied⟩ := applied
  cases applied
  have fresh := find?_of_not_defined (check_eq_ok absent)
  refine ⟨_, by simp only [scopeOf, named, stage, artifact]; rfl, ?_⟩
  exact { Evolved.refl (not_stray rfl) with
    artifacts := Extends.put (by simp [publishedArtifact]) fresh rfl rfl }

omit [NumberText] in
theorem stageArtifactAliasKey_inj {name name' : String}
    (same : stageArtifactAliasKey runId stageId name = stageArtifactAliasKey runId stageId name') :
    name = name' := by
  have chars := congrArg String.toList same
  simp only [stageArtifactAliasKey, String.toList_append] at chars
  exact String.toList_inj.mp (List.append_cancel_left chars)

omit [NumberText] in
theorem adoptArtifact_extends {artifacts adopted : SortedTable ArtifactState.artifactId}
    {ref : ArtifactRefPayload} {scope : List String} (within : ref.artifactId ∈ scope)
    (applied : adoptArtifact event runId stageId artifacts ref = .ok adopted) :
    Extends scope event.sequence ArtifactState.revision ArtifactState.lastEventSequence artifacts
      adopted := by
  unfold adoptArtifact at applied
  split at applied
  · split at applied
    · cases applied
    · cases applied
      exact Extends.refl
  · rename_i fresh
    split at applied
    · cases applied
    · cases applied
      exact Extends.put within fresh rfl rfl

omit [NumberText] in
theorem foldRefs_evolves {refs : List ArtifactRefPayload} {start fold : StageFold}
    {scope : List String} (within : ∀ ref ∈ refs, ref.artifactId ∈ scope)
    (applied : refs.foldlM (foldRef event runId stageId) start = .ok fold) :
    (∀ name ∈ start.seenNames, name ∉ refs.map (·.name)) ∧
    Extends scope event.sequence ArtifactState.revision ArtifactState.lastEventSequence
      start.artifacts fold.artifacts ∧
    Evolves (refs.map fun ref => stageArtifactAliasKey runId stageId ref.name) event.sequence
      StageArtifactAliasState.revision StageArtifactAliasState.lastEventSequence
      start.stageArtifactAliases fold.stageArtifactAliases := by
  induction refs generalizing start with
  | nil =>
    cases applied
    exact ⟨by simp, Extends.refl, Evolves.refl⟩
  | cons ref refs ih =>
    obtain ⟨middle, first, rest⟩ := foldlM_cons_eq_ok.mp applied
    simp only [foldRef, bind_eq_ok] at first
    obtain ⟨_, unseen, adopted, adopts, first⟩ := first
    cases first
    obtain ⟨distinct, artifacts, aliases⟩ :=
      ih (fun other member => within other (List.mem_cons_of_mem ref member)) rest
    have unseen : ref.name ∉ start.seenNames := by simpa using check_eq_ok unseen
    refine ⟨?_, (adoptArtifact_extends (within ref List.mem_cons_self) adopts).then artifacts, ?_⟩
    · intro name seen member
      rcases List.mem_cons.mp member with rfl | later
      · exact unseen seen
      · exact distinct name (List.mem_cons_of_mem _ seen) later
    · intro k
      by_cases here : stageArtifactAliasKey runId stageId ref.name = k
      · subst here
        rcases aliases (stageArtifactAliasKey runId stageId ref.name) with same | ⟨listed, _⟩
        · refine Or.inr ⟨List.mem_cons_self, _, same.trans (SortedTable.find?_put_self _ _), rfl,
            rfl⟩
        · obtain ⟨other, member, equal⟩ := List.mem_map.mp listed
          refine absurd (List.mem_map.mpr ⟨other, member, ?_⟩)
            (distinct ref.name List.mem_cons_self)
          exact stageArtifactAliasKey_inj equal
      · have kept := SortedTable.find?_put_of_ne start.stageArtifactAliases (a := {
          runId, stageId
          name := ref.name
          artifactId := ref.artifactId
          revision := (start.stageArtifactAliases.find?
            (stageArtifactAliasKey runId stageId ref.name)).elim 0 (·.revision) + 1
          lastEventSequence := event.sequence
          updatedAt := event.recordedAt }) here
        have later := aliases k
        rw [kept] at later
        exact later.imp_right fun written => ⟨List.mem_cons_of_mem _ written.1, written.2⟩

theorem stageCompleted_stepped (applied : stageCompleted event payload state = .ok next) :
    Stepped .stageCompleted event payload state next := by
  simp only [stageCompleted, bind_eq_ok] at applied
  obtain ⟨runId, named, previous, required, stageId, stage, refs, listed, fold, folded, terminal,
    ended, applied⟩ := applied
  cases applied
  have found := run?_of_requireRun required
  refine ⟨_, by simp only [scopeOf, named, stage, listed]; rfl, ?_⟩
  obtain ⟨_, artifacts, aliases⟩ := foldRefs_evolves
    (fun ref member => List.mem_map.mpr ⟨ref, member, rfl⟩) folded
  have keys : (refs.map fun ref => (⟨runId, stageId, ref.name⟩ : StageArtifactAliasScopeKey)).map
      (·.key) = refs.map fun ref => stageArtifactAliasKey runId stageId ref.name := by
    rw [List.map_map]
    rfl
  cases terminal with
  | false =>
    have still : updatesRun .stageCompleted event payload = false := by
      simp [updatesRun, ended, Except.toOption]
    exact { Evolved.refl (not_stray still) with
      artifacts := artifacts
      stageArtifactAliases := keys ▸ aliases }
  | true =>
    have updates : updatesRun .stageCompleted event payload = true := by
      simp [updatesRun, ended, Except.toOption]
    rw [stray_iff updates named found]
    have evolved : Evolved {
        runs := [runId]
        artifacts := refs.map (·.artifactId)
        stageArtifactAliases := refs.map fun ref => ⟨runId, stageId, ref.name⟩ } event
        (isInherited previous) state
        (state.putRun (advanced event (withStatus .succeeded previous))) :=
      evolved_putRun found (by simp) (follows_withStatus event .succeeded previous)
    exact { evolved with
      artifacts := artifacts
      stageArtifactAliases := keys ▸ aliases }

theorem reduce_stepped (applied : reduce type event payload state = .ok next) :
    Stepped type event payload state next := by
  cases type with
  | runCreated => exact runCreated_stepped applied
  | runStatusChanged => exact runStatusChanged_stepped applied
  | runSignalled signal => exact runSignalled_stepped signal applied
  | runWorkspaceAssigned => exact runWorkspaceAssigned_stepped applied
  | runInstructionsSnapshotted => exact runInstructionsSnapshotted_stepped applied
  | runCapability capability => exact runCapability_stepped capability applied
  | codebaseRegistrationCommitted => exact codebaseRegistrationCommitted_stepped applied
  | codebaseRegistered => exact codebaseRegistered_stepped applied
  | repositoryRegistered => exact repositoryRegistered_stepped applied
  | workspaceRegistered => exact workspaceRegistered_stepped applied
  | workspaceProvisioningRecorded => exact workspaceProvisioningRecorded_stepped applied
  | workspaceLease lease => exact workspaceLease_stepped applied
  | artifactPublished => exact artifactPublished_stepped applied
  | stageCompleted => exact stageCompleted_stepped applied

theorem applyEvent_ok (applied : applyEvent state event = .ok next) :
    ∃ payload type, payloadObject event = .ok payload ∧ EventType.ofText? event.type = some type ∧
      reduce type event payload state = .ok next := by
  simp only [applyEvent, bind_eq_ok] at applied
  obtain ⟨payload, object, applied⟩ := applied
  cases known : EventType.ofText? event.type with
  | none => simp [known, reject] at applied
  | some type =>
    simp only [known, bind_eq_ok] at applied
    obtain ⟨_, _, _, _, applied⟩ := applied
    exact ⟨payload, type, object, rfl, applied⟩

end Rules

end Heniek.ReducerSteps
