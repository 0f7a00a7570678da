import Heniek.ReducerSteps

/-!
Fencing of workspace leases over the journal. A path has one lease row; a recovery replaces
the lease under the next fence, and every other lease event of the path keeps the fence and
is accepted from the holder of the active lease only.
-/

namespace Heniek.WorkspaceLeases
open CanonicalState CanonicalJson ProjectionTables EventPayloads
open ProjectionReducer ReducerSteps FallibleRun

/-- The kind of a lease event and the path that it is about. -/
def leaseOn? (event : StateEvent) : Option (LeaseEvent × String) :=
  match (payloadObject event).toOption, EventType.ofText? event.type with
  | some payload, some (.workspaceLease lease) =>
    (requireString event payload "checkoutPath").toOption.map fun path => (lease, path)
  | _, _ => none

def carried? (event : StateEvent) : Option (String × Nat) :=
  match (payloadObject event).toOption with
  | some payload =>
    match (requireString event payload "leaseId").toOption,
      (requireNonNegativeInteger event payload "fencingRevision").toOption with
    | some leaseId, some fencingRevision => some (leaseId, fencingRevision)
    | _, _ => none
  | none => none

def recovers (path : String) (event : StateEvent) : Bool :=
  decide (leaseOn? event = some (.recovered, path))

def ofHolder : LeaseEvent → Bool
  | .acquired | .recovered => false
  | .renewed | .expectedShaAdvanced | .released | .recoveryRequired => true

variable [NumberText] {state next : ReducedState} {event : StateEvent} {path : String}

theorem lease_ok {lease : LeaseEvent} (applied : applyEvent state event = .ok next)
    (about : leaseOn? event = some (lease, path)) :
    ∃ (claim : LeaseClaim) (row : WorkspaceLeaseState),
      claim.checkoutPath = path ∧ carried? event = some (claim.leaseId, claim.fencingRevision) ∧
      admitsLease lease claim (state.workspaceLeases.find? path) = true ∧
      row.fencingRevision = claim.fencingRevision ∧
      next.workspaceLeases.find? path = some row := by
  obtain ⟨payload, type, object, known, applied⟩ := applyEvent_ok applied
  simp only [leaseOn?, object, known, Except.toOption] at about
  cases type with
  | workspaceLease kind =>
    obtain ⟨claim, row, checkout, _, _, fence, identity, _, _, admitted, key, fenced, _, _, _, _,
      rfl⟩ := workspaceLease_ok applied
    simp only [checkout, Option.map_some, Option.some.injEq] at about
    obtain ⟨rfl, rfl⟩ := about
    refine ⟨claim, row, rfl, ?_, admitted, fenced, ?_⟩
    · simp [carried?, object, identity, fence, Except.toOption]
    · rw [← key]
      exact SortedTable.find?_put_self _ row
  | _ => cases about

theorem lease_of_other (applied : applyEvent state event = .ok next)
    (other : ∀ lease, leaseOn? event ≠ some (lease, path)) :
    next.workspaceLeases.find? path = state.workspaceLeases.find? path := by
  obtain ⟨payload, type, object, known, applied⟩ := applyEvent_ok applied
  obtain ⟨scope, inScope, evolved⟩ := reduce_stepped applied
  rcases evolved.workspaceLeases path with same | ⟨listed, _⟩
  · exact same
  · exfalso
    cases type with
    | workspaceLease lease =>
      simp only [scopeOf, bind_eq_ok] at inScope
      obtain ⟨checkoutPath, checkout, _, _, _, _, inScope⟩ := inScope
      cases inScope
      refine other lease ?_
      rw [List.mem_singleton.mp listed]
      simp [leaseOn?, object, known, checkout, Except.toOption]
    | _ =>
      simp only [scopeOf, bind_eq_ok] at inScope
      grind

theorem fence_step {lease : WorkspaceLeaseState} (applied : applyEvent state event = .ok next)
    (held : state.workspaceLeases.find? path = some lease) :
    ∃ later, next.workspaceLeases.find? path = some later ∧
      later.fencingRevision = lease.fencingRevision + if recovers path event then 1 else 0 := by
  by_cases about : ∃ kind, leaseOn? event = some (kind, path)
  · obtain ⟨kind, about⟩ := about
    obtain ⟨claim, row, _, _, admitted, fenced, found⟩ := lease_ok applied about
    refine ⟨row, found, ?_⟩
    rw [held] at admitted
    cases kind <;>
      simp only [admitsLease, Option.isNone_some, Bool.false_and,
        Bool.false_eq_true, Option.any_some,
        Bool.and_eq_true, decide_eq_true_eq] at admitted <;>
      simp [recovers, about, fenced, admitted]
  · have other : ∀ kind, leaseOn? event ≠ some (kind, path) := fun kind same => about ⟨kind, same⟩
    refine ⟨lease, (lease_of_other applied other).trans held, ?_⟩
    have quiet : recovers path event = false := by simp [recovers, other .recovered]
    simp [quiet]

theorem fence_run {events : List StateEvent} {lease : WorkspaceLeaseState}
    (accepted : events.foldlM applyEvent state = .ok next)
    (held : state.workspaceLeases.find? path = some lease) :
    ∃ later, next.workspaceLeases.find? path = some later ∧
      later.fencingRevision = lease.fencingRevision + events.countP (recovers path) := by
  induction events generalizing state lease with
  | nil =>
    cases accepted
    exact ⟨lease, held, by simp⟩
  | cons event events ih =>
    obtain ⟨middle, first, rest⟩ := foldlM_cons_eq_ok.mp accepted
    obtain ⟨between, found, stepped⟩ := fence_step first held
    obtain ⟨later, final, counted⟩ := ih rest found
    refine ⟨later, final, ?_⟩
    rw [counted, stepped, List.countP_cons]
    split <;> omega

theorem holder_ok {lease : LeaseEvent} (applied : applyEvent state event = .ok next)
    (about : leaseOn? event = some (lease, path)) (holder : ofHolder lease = true) :
    ∃ row, state.workspaceLeases.find? path = some row ∧ row.leaseState = "active" ∧
      carried? event = some (row.leaseId, row.fencingRevision) := by
  obtain ⟨claim, _, _, carried, admitted, _, _⟩ := lease_ok applied about
  cases held : state.workspaceLeases.find? path with
  | none =>
    rw [held] at admitted
    cases lease <;> simp [admitsLease, ofHolder] at admitted holder
  | some row =>
    rw [held] at admitted
    rw [carried]
    cases lease <;> simp [admitsLease, ofHolder] at admitted holder <;> simp [admitted]

/-- Along a sequence of events the fence of a path rises by one on each recovery and on nothing
else, the path has one active lease at most, and events of a holder carry the active lease. -/
structure LeasesFenced (start final : ReducedState) (events : List StateEvent) (path : String) :
    Prop where
  counted : ∀ lease, start.workspaceLeases.find? path = some lease →
    ∃ later, final.workspaceLeases.find? path = some later ∧
      later.fencingRevision = lease.fencingRevision + events.countP (recovers path)
  single : ∀ first ∈ final.workspaceLeases.rows, ∀ second ∈ final.workspaceLeases.rows,
    first.checkoutPath = path → second.checkoutPath = path →
    first.leaseState = "active" → second.leaseState = "active" → first = second
  holders : ∀ done event rest lease, events = done ++ event :: rest →
    leaseOn? event = some (lease, path) → ofHolder lease = true →
    ∃ state row, done.foldlM applyEvent start = .ok state ∧
      state.workspaceLeases.find? path = some row ∧ row.leaseState = "active" ∧
      carried? event = some (row.leaseId, row.fencingRevision)

theorem leases_fenced (start final : ReducedState) (events : List StateEvent)
    (accepted : events.foldlM applyEvent start = .ok final) (path : String) :
    LeasesFenced start final events path where
  counted := fun _ held => fence_run accepted held
  single := by
    intro first inFirst second inSecond onFirst onSecond _ _
    exact KeyedTable.Table.eq_of_key_eq (t := final.workspaceLeases.table) inFirst inSecond
      (onFirst.trans onSecond.symm)
  holders := by
    intro done event rest lease split about holder
    rw [split, List.foldlM_append] at accepted
    obtain ⟨state, before, accepted⟩ := bind_eq_ok.mp accepted
    obtain ⟨_, applied, _⟩ := foldlM_cons_eq_ok.mp accepted
    obtain ⟨row, held, active, carried⟩ := holder_ok applied about holder
    exact ⟨state, row, before, held, active, carried⟩

def identityEvent (sequence : Nat) (type : String) (payload : Members) : StateEvent where
  sequence := sequence
  eventId := "evt"
  runId := none
  correlationId := "cor"
  causationEventId := none
  type := type
  recordedAt := "2026-01-01T00:00:00.000Z"
  payload := .object payload

def leasePayload (leaseId : String) (fencingRevision : Nat) (leaseState : String) : Members :=
  [("checkoutPath", .string "/w"), ("workspaceId", .string "ws"), ("repositoryId", .string "repo"),
    ("fencingRevision", .number (.finite fencingRevision)), ("leaseId", .string leaseId),
    ("leaseState", .string leaseState), ("ownerId", .string "owner"),
    ("processWitnessesJson", .string "[]"), ("expectedSha", .string "0"),
    ("acquiredAt", .string "t"), ("renewedAt", .string "t"), ("expiresAt", .string "t")]

def recoveredLease : List StateEvent :=
  [identityEvent 1 "codebase.registered" [("codebaseId", .string "cb")],
    identityEvent 2 "repository.registered"
      [("repositoryId", .string "repo"), ("codebaseId", .string "cb")],
    identityEvent 3 "workspace.registered"
      [("workspaceId", .string "ws"), ("codebaseId", .string "cb")],
    identityEvent 4 "workspace.lease_acquired" (leasePayload "first" 1 "active"),
    identityEvent 5 "workspace.lease_recovered" (leasePayload "second" 2 "active"),
    identityEvent 6 "workspace.lease_released" (leasePayload "second" 2 "released")]

omit [NumberText] in
theorem leases_fenced_recovered :
    ∃ final, recoveredLease.foldlM (@applyEvent integerTexts) emptyProjectionState.reduced =
        .ok final ∧
      @LeasesFenced integerTexts emptyProjectionState.reduced final recoveredLease "/w" :=
  ⟨_, rfl, @leases_fenced integerTexts _ _ _ rfl "/w"⟩

end Heniek.WorkspaceLeases
