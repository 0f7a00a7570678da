import Heniek.SchedulingRuns

/-!
The concurrency leases under any operations of any owners. Every write to a lease row
raises its fencing revision, an active lease carries the revision granted for it last,
and a renewal is accepted for that revision only: a holder whose lease has been expired,
released or restored meanwhile is refused for ever.
-/

namespace Heniek.LeaseFencing
open KeyedTable AccountScheduling AttemptSettlement SchedulingSteps SchedulingRuns

variable {db db' : SchedulingDatabase} {now : Int} {w : SchedulingWorld}

def grantOf (attemptId : Nat) : Outcome → Option Nat
  | .claimed (some claim) =>
    if claim.attemptId = attemptId then some claim.fencingRevision else none
  | .granted other grant => if other = attemptId then some grant.fencingRevision else none
  | _ => none

def grants (attemptId : Nat) (outcomes : List Outcome) : List Nat :=
  outcomes.filterMap (grantOf attemptId)

def lastGrant (attemptId : Nat) (outcomes : List Outcome) : Option Nat :=
  (grants attemptId outcomes).getLast?

theorem grants_concat (attemptId : Nat) (outcomes : List Outcome) (outcome : Outcome) :
    grants attemptId (outcomes ++ [outcome]) =
      grants attemptId outcomes ++ (grantOf attemptId outcome).toList := by
  unfold grants
  cases given : grantOf attemptId outcome <;> simp [given]

variable {attemptId : Nat} {outcome : Outcome} {lease : AccountConcurrencyLease}
  {input : RenewInput} {grant : LeaseGrant} {expiresAt : Int}

theorem lastGrant_of_none {outcomes : List Outcome} (none : grantOf attemptId outcome = none) :
    lastGrant attemptId (outcomes ++ [outcome]) = lastGrant attemptId outcomes := by
  simp [lastGrant, grants_concat, none]

theorem lastGrant_of_some {revision : Nat} {outcomes : List Outcome}
    (given : grantOf attemptId outcome = some revision) :
    lastGrant attemptId (outcomes ++ [outcome]) = some revision := by
  simp [lastGrant, grants_concat, given]

/-- A lease is left alone, or written with a higher revision, which is granted if it is active. -/
structure LeaseMoves (outcome : Outcome) (lease lease' : AccountConcurrencyLease) : Prop where
  leaseId : lease'.leaseId = lease.leaseId
  attemptId : lease'.attemptId = lease.attemptId
  moved : (lease' = lease ∧ grantOf lease.attemptId outcome = none) ∨
    (lease.fencingRevision < lease'.fencingRevision ∧
      (lease'.state = .active → grantOf lease.attemptId outcome = some lease'.fencingRevision) ∧
      ∀ revision, grantOf lease.attemptId outcome = some revision →
        revision = lease'.fencingRevision)

/-- Every lease moves to one with its identifier, and a new one is granted as it is inserted. -/
structure LeasesMove (outcome : Outcome) (db db' : SchedulingDatabase) : Prop where
  forward : ∀ lease ∈ db.leases.rows, ∃ lease' ∈ db'.leases.rows, LeaseMoves outcome lease lease'
  backward : ∀ lease' ∈ db'.leases.rows,
    (∃ lease ∈ db.leases.rows, LeaseMoves outcome lease lease') ∨
      lease'.attemptId ∉ db.attempts.keys ∧
        grantOf lease'.attemptId outcome = some lease'.fencingRevision
  granted : ∀ attemptId revision, grantOf attemptId outcome = some revision →
    attemptId ∈ leasedAttempts db'

theorem leaseMoves_kept (none : grantOf lease.attemptId outcome = none) :
    LeaseMoves outcome lease lease :=
  ⟨rfl, rfl, Or.inl ⟨rfl, none⟩⟩

theorem leasesMove_mapped {change : AccountConcurrencyLease → AccountConcurrencyLease}
    {keeps : ∀ lease, (change lease).leaseId = lease.leaseId}
    (mapped : db'.leases = db.leases.mapAll change keeps)
    (each : ∀ lease ∈ db.leases.rows, LeaseMoves outcome lease (change lease))
    (granted : ∀ attemptId revision, grantOf attemptId outcome = some revision →
      attemptId ∈ leasedAttempts db) :
    LeasesMove outcome db db' := by
  refine ⟨?_, ?_, fun attemptId revision given => ?_⟩
  · intro lease member
    exact ⟨change lease, mapped ▸ Table.mem_mapAll.mpr ⟨lease, member, rfl⟩, each lease member⟩
  · intro lease' member
    rw [mapped] at member
    obtain ⟨lease, stored, rfl⟩ := Table.mem_mapAll.mp member
    exact Or.inl ⟨lease, stored, each lease stored⟩
  · obtain ⟨lease, stored, rfl⟩ := List.mem_map.mp (granted attemptId revision given)
    rw [← (each lease stored).attemptId]
    exact List.mem_map_of_mem (mapped ▸ Table.mem_mapAll.mpr ⟨lease, stored, rfl⟩)

theorem leasesMove_kept (none : ∀ attemptId, grantOf attemptId outcome = none)
    (kept : db'.leases = db.leases) : LeasesMove outcome db db' := by
  refine ⟨?_, ?_, fun attemptId revision given => ?_⟩
  · exact fun lease member => ⟨lease, kept ▸ member, leaseMoves_kept (none _)⟩
  · exact fun lease member => Or.inl ⟨lease, kept ▸ member, leaseMoves_kept (none _)⟩
  · rw [none] at given
    cases given

theorem expiredLease_moves (none : grantOf lease.attemptId outcome = none) :
    LeaseMoves outcome lease (expiredLease db now lease) := by
  unfold expiredLease
  split
  · refine ⟨rfl, rfl, Or.inr ⟨Nat.lt_succ_self _, nofun, fun revision given => ?_⟩⟩
    rw [none] at given
    cases given
  · exact leaseMoves_kept none

theorem expiredLease_active (active : (expiredLease db now lease).state = .active) :
    expiredLease db now lease = lease := by
  unfold expiredLease at active ⊢
  split
  · rename_i orphan
    rw [if_pos orphan] at active
    cases active
  · rfl

theorem renewable_stored (member : lease ∈ (expireOrphanLeases db now).leases.rows)
    (accepts : renewable input now lease = true) :
    lease ∈ db.leases.rows ∧ lease.attemptId = input.attemptId ∧ lease.ownerId = input.ownerId ∧
      lease.fencingRevision = input.fencingRevision ∧ lease.state = .active ∧
      now < lease.expiresAt := by
  have facts := of_decide_eq_true accepts
  obtain ⟨before, stored, rfl⟩ := List.mem_map.mp member
  have same := expiredLease_active facts.2.2.2.1
  rw [same] at facts ⊢
  exact ⟨stored, facts⟩

theorem renewed_moves (coherent : Coherent db)
    (next : grant.fencingRevision = input.fencingRevision + 1)
    (found : ∃ lease ∈ (expireOrphanLeases db now).leases.rows, renewable input now lease = true)
    (stored : lease ∈ db.leases.rows) : LeaseMoves (.granted input.attemptId grant) lease
      (renewedLease input now expiresAt (expiredLease db now lease)) := by
  obtain ⟨renewing, member, accepts⟩ := found
  obtain ⟨there, attempt, owner, revision, active, unexpired⟩ := renewable_stored member accepts
  by_cases same : lease.attemptId = input.attemptId
  · have here := single_eq coherent stored there (same.trans attempt.symm)
    subst here
    have unexpiredRow : expiredLease db now lease = lease := by
      unfold expiredLease
      rw [if_neg]
      unfold orphaned
      rw [decide_eq_true_eq]
      intro orphan
      exact absurd orphan.2.1 (by omega)
    rw [unexpiredRow]
    unfold renewedLease
    rw [if_pos accepts]
    refine ⟨rfl, rfl, Or.inr ⟨?_, fun _ => ?_, fun given same => ?_⟩⟩
    · change lease.fencingRevision < input.fencingRevision + 1
      omega
    · simp only [grantOf, attempt, if_true, next]
    · simp only [grantOf, attempt, if_true, Option.some.injEq] at same
      exact same.symm.trans next
  · have none : grantOf lease.attemptId (.granted input.attemptId grant) = none := by
      simp only [grantOf]
      rw [if_neg fun clash => same clash.symm]
    have kept : renewedLease input now expiresAt (expiredLease db now lease) =
        expiredLease db now lease := by
      unfold renewedLease
      rw [if_neg]
      intro clash
      exact same ((expiredLease_attemptId lease).symm.trans (of_decide_eq_true clash).1)
    rw [kept]
    exact expiredLease_moves none

theorem restored_moves (coherent : Coherent db) {input : RestoreInput}
    {found : AccountConcurrencyLease} (next : grant.fencingRevision = found.fencingRevision + 1)
    (there : found ∈ db.leases.rows) (attempt : found.attemptId = input.attemptId)
    (stored : lease ∈ db.leases.rows) : LeaseMoves (.granted input.attemptId grant) lease
      (restoredLease input expiresAt (found.fencingRevision + 1) lease) := by
  unfold restoredLease
  by_cases same : lease.attemptId = input.attemptId
  · have here := single_eq coherent stored there (same.trans attempt.symm)
    subst here
    rw [if_pos same]
    refine ⟨rfl, rfl, Or.inr ⟨Nat.lt_succ_self _, fun _ => ?_, fun given same' => ?_⟩⟩
    · simp only [grantOf, same, if_true, next]
    · simp only [grantOf, same, if_true, Option.some.injEq] at same'
      exact same'.symm.trans next
  · rw [if_neg same]
    refine leaseMoves_kept ?_
    simp only [grantOf]
    rw [if_neg fun clash => same clash.symm]

theorem releasedLease_moves (none : grantOf lease.attemptId outcome = none) :
    LeaseMoves outcome lease (releasedLease attemptId lease) := by
  unfold releasedLease
  split
  · refine ⟨rfl, rfl, Or.inr ⟨Nat.lt_succ_self _, nofun, fun revision given => ?_⟩⟩
    rw [none] at given
    cases given
  · exact leaseMoves_kept none

theorem claimed_moves (coherent : Coherent db) {input : ClaimInput} {selected : QueueRow}
    (grants : grantSelected (weighHeads (expireOrphanLeases db now) now input.accountId).1
        input.ownerId expiresAt selected =
      .ok (schedulingClaim (weighHeads (expireOrphanLeases db now) now input.accountId).1.drawn
        expiresAt selected, db')) :
    LeasesMove (.claimed (some (schedulingClaim
      (weighHeads (expireOrphanLeases db now) now input.accountId).1.drawn expiresAt selected)))
      db db' := by
  obtain ⟨admits, fresh, _, _, rfl⟩ := grantSelected_ok.mp grants
  have attempts : (weighHeads (expireOrphanLeases db now) now input.accountId).1.attempts =
      db.attempts := weighHeads_frame.2.2.1
  have leases : (weighHeads (expireOrphanLeases db now) now input.accountId).1.leases =
      (expireOrphanLeases db now).leases := weighHeads_frame.2.2.2
  generalize (weighHeads (expireOrphanLeases db now) now input.accountId).1 = weighed at *
  have undrawn : weighed.drawn ∉ db.attempts.keys := by
    rw [← attempts]
    exact admits.fresh
  have none : ∀ lease ∈ db.leases.rows, grantOf lease.attemptId
      (.claimed (some (schedulingClaim weighed.drawn expiresAt selected))) = none := by
    intro lease stored
    refine if_neg fun clash : weighed.drawn = lease.attemptId => undrawn ?_
    exact clash ▸ coherent.leased _ (List.mem_map_of_mem stored)
  have rows : ∀ lease, lease ∈ (granted weighed input.ownerId expiresAt selected).leases.rows ↔
      lease ∈ (expireOrphanLeases db now).leases.rows ∨
        lease =
          claimedLease weighed.drawn (weighed.drawn + 1) input.ownerId expiresAt selected := by
    intro lease
    unfold granted
    rw [Table.rows_upsert_of_not_mem fresh, leases, List.mem_append, List.mem_singleton]
  refine ⟨?_, ?_, fun attemptId revision given => ?_⟩
  · intro lease stored
    refine ⟨expiredLease db now lease, (rows _).mpr (Or.inl ?_),
      expiredLease_moves (none lease stored)⟩
    exact List.mem_map_of_mem stored
  · intro lease' member
    rcases (rows lease').mp member with old | rfl
    · obtain ⟨lease, stored, rfl⟩ := List.mem_map.mp old
      exact Or.inl ⟨lease, stored, expiredLease_moves (none lease stored)⟩
    · refine Or.inr ⟨undrawn, ?_⟩
      simp only [grantOf, schedulingClaim, claimedLease, if_true]
  · simp only [grantOf] at given
    split at given
    · rename_i same
      rw [← same]
      exact List.mem_map.mpr ⟨_, (rows _).mpr (Or.inr rfl), rfl⟩
    · cases given

theorem granted_same {other revision : Nat}
    (given : grantOf attemptId (.granted other grant) = some revision) : attemptId = other := by
  simp only [grantOf] at given
  split at given
  · rename_i same
    exact same.symm
  · cases given

theorem granted_attempt
    (found : ∃ lease ∈ (expireOrphanLeases db now).leases.rows, renewable input now lease = true) :
    input.attemptId ∈ leasedAttempts db := by
  obtain ⟨lease, member, accepts⟩ := found
  obtain ⟨stored, attempt, _⟩ := renewable_stored member accepts
  exact attempt ▸ List.mem_map_of_mem stored

theorem leases_move (coherent : Coherent db) {operation : Operation}
    (performs : Performs now db operation outcome db') : LeasesMove outcome db db' := by
  induction performs with
  | create created => exact leasesMove_kept (fun _ => rfl) (created_leases created)
  | claimNothing _ =>
    refine @leasesMove_mapped _ _ _ _ (expiredLease_leaseId db now) weighHeads_frame.2.2.2 ?_ nofun
    exact fun lease _ => expiredLease_moves rfl
  | claim _ granted => exact claimed_moves coherent granted
  | amend amended => exact leasesMove_kept (fun _ => rfl) (amended_leases amended)
  | renew next found =>
    have held := granted_attempt found
    refine ⟨?_, ?_, fun attemptId revision given => ?_⟩
    · intro lease stored
      exact ⟨_, List.mem_map_of_mem (List.mem_map_of_mem stored),
        renewed_moves coherent next found stored⟩
    · intro lease' member
      obtain ⟨middle, listed, rfl⟩ := List.mem_map.mp member
      obtain ⟨lease, stored, rfl⟩ := List.mem_map.mp listed
      exact Or.inl ⟨lease, stored, renewed_moves coherent next found stored⟩
    · obtain ⟨lease, stored, attempt⟩ := List.mem_map.mp held
      rw [granted_same given]
      refine List.mem_map.mpr ⟨_, List.mem_map_of_mem (List.mem_map_of_mem stored), ?_⟩
      rw [renewedLease_attemptId, expiredLease_attemptId, attempt]
  | restore next restored =>
    obtain ⟨there, attempt, _⟩ := recoverableLease_ok restored.found
    obtain ⟨middle, recovered, rfl⟩ := restored.recovered
    have same : middle.leases = db.leases := by
      rcases recovered with rfl | amends
      · rfl
      · exact amended_leases amends
    refine @leasesMove_mapped _ _ _ _ (restoredLease_leaseId _ _ _) (by rw [← same]) ?_ ?_
    · exact fun lease stored => restored_moves coherent next there attempt stored
    · intro attemptId revision given
      rw [granted_same given, ← attempt]
      exact List.mem_map_of_mem there
  | complete completed =>
    refine leasesMove_mapped (completed_leases completed) ?_ nofun
    exact fun lease _ => releasedLease_moves rfl
  | cancelNothing => exact leasesMove_kept (fun _ => rfl) rfl
  | cancel _ _ _ inside => exact leasesMove_kept (fun _ => rfl) (cancelled_leases inside)
  | stale => exact leasesMove_kept (fun _ => rfl) rfl
  | answerCancel _ _ _ _ inside => exact leasesMove_kept (fun _ => rfl) (cancelled_leases inside)
  | answerResume _ _ _ _ _ resumed =>
    obtain ⟨middle, ⟨_, _, _, _, _, rfl⟩, rfl⟩ := resumed
    exact leasesMove_kept (fun _ => rfl) rfl
  | answerQuestion _ _ _ _ ih =>
    refine ⟨?_, ?_, nofun⟩
    · intro lease stored
      obtain ⟨lease', member, moves⟩ := ih.forward lease stored
      exact ⟨lease', member, moves.leaseId, moves.attemptId, moves.moved⟩
    · intro lease' member
      refine (ih.backward lease' member).imp ?_ id
      rintro ⟨lease, stored, moves⟩
      exact ⟨lease, stored, moves.leaseId, moves.attemptId, moves.moved⟩

structure Fenced (w : SchedulingWorld) : Prop where
  coherent : Coherent w.db
  known : ∀ attemptId, grants attemptId w.outcomes ≠ [] → attemptId ∈ leasedAttempts w.db
  last : ∀ lease ∈ w.db.leases.rows, lease.state = .active →
    lastGrant lease.attemptId w.outcomes = some lease.fencingRevision
  bounded : ∀ lease ∈ w.db.leases.rows, ∀ revision ∈ grants lease.attemptId w.outcomes,
    revision ≤ lease.fencingRevision

theorem Fenced.performed (fenced : Fenced w) {operation : Operation}
    (performs : Performs now w.db operation outcome db') :
    Fenced ⟨db', now, w.outcomes ++ [outcome]⟩ := by
  have moves := leases_move fenced.coherent performs
  refine ⟨fenced.coherent.performed performs, ?_, ?_, ?_⟩
  · intro attemptId some
    rw [grants_concat] at some
    cases given : grantOf attemptId outcome with
    | some revision => exact moves.granted attemptId revision given
    | none =>
      rw [given, Option.toList_none, List.append_nil] at some
      obtain ⟨lease, stored, rfl⟩ := List.mem_map.mp (fenced.known attemptId some)
      obtain ⟨lease', member, moved⟩ := moves.forward lease stored
      exact moved.attemptId ▸ List.mem_map_of_mem member
  · intro lease' member active
    rcases moves.backward lease' member with ⟨lease, stored, moved⟩ | ⟨_, given⟩
    · rw [moved.attemptId]
      rcases moved.moved with ⟨rfl, none⟩ | ⟨_, given, _⟩
      · exact (lastGrant_of_none none).trans (fenced.last lease' stored active)
      · exact lastGrant_of_some (given active)
    · exact lastGrant_of_some given
  · intro lease' member revision listed
    rw [grants_concat, List.mem_append, Option.mem_toList] at listed
    rcases moves.backward lease' member with ⟨lease, stored, moved⟩ | ⟨fresh, given⟩
    · rw [moved.attemptId] at listed
      rcases moved.moved with ⟨rfl, none⟩ | ⟨higher, _, latest⟩
      · rcases listed with old | new
        · exact fenced.bounded lease' stored revision old
        · exact absurd (none.symm.trans new) nofun
      · rcases listed with old | new
        · exact (fenced.bounded lease stored revision old).trans higher.le
        · exact (latest revision new).le
    · rcases listed with old | new
      · have leased := fenced.known _ (List.ne_nil_of_mem old)
        exact absurd (fenced.coherent.leased _ leased) fresh
      · exact (Option.some.inj (new.symm.trans given)).le

theorem fenced_reachable (reachable : Reachable w) : Fenced w := by
  refine reachable.invariant (P := Fenced) (fun clock => ?_)
    (fun _ _ _ _ _ fenced _ performs => fenced.performed performs)
    fun _ _ _ fenced _ => ⟨fenced.coherent, fenced.known, fenced.last, fenced.bounded⟩
  exact ⟨coherent_empty, fun _ none => absurd rfl none, fun lease member =>
    absurd member List.not_mem_nil, fun lease member => absurd member List.not_mem_nil⟩

/-- Any operations at any instants. -/
def Later : SchedulingWorld → SchedulingWorld → Prop :=
  Relation.ReflTransGen (Advances fun _ _ _ => True)

def Raises (lease lease' : AccountConcurrencyLease) : Prop :=
  lease'.leaseId = lease.leaseId ∧ lease'.attemptId = lease.attemptId ∧
    (lease' = lease ∨ lease.fencingRevision < lease'.fencingRevision)

theorem advance_raises (coherent : Coherent w.db) (now : Int) (operation : Operation) :
    ∀ lease ∈ w.db.leases.rows,
      ∃ lease' ∈ (advance w now operation).db.leases.rows, Raises lease lease' := by
  intro lease stored
  rcases advance_cases w now operation with ⟨outcome, db', performed, moved⟩ | kept
  · rw [moved]
    obtain ⟨lease', member, moves⟩ :=
      (leases_move coherent (perform_performs performed)).forward lease stored
    exact ⟨lease', member, moves.leaseId, moves.attemptId, moves.moved.imp And.left And.left⟩
  · rw [kept]
    exact ⟨lease, stored, rfl, rfl, Or.inl rfl⟩

theorem later_raises {later : SchedulingWorld} (reachable : Reachable w) (run : Later w later) :
    Reachable later ∧ ∀ lease ∈ w.db.leases.rows,
      ∃ lease' ∈ later.db.leases.rows, Raises lease lease' := by
  induction run with
  | refl => exact ⟨reachable, fun lease stored => ⟨lease, stored, rfl, rfl, Or.inl rfl⟩⟩
  | tail _ last ih =>
    obtain ⟨reached, raised⟩ := ih
    obtain ⟨now, operation, allowed, rfl⟩ := last
    obtain ⟨clock, start⟩ := reached
    refine ⟨⟨clock, start.tail ⟨now, operation, allowed, rfl⟩⟩, fun lease stored => ?_⟩
    obtain ⟨middle, listed, sameId, sameAttempt, first⟩ := raised lease stored
    obtain ⟨lease', member, nextId, nextAttempt, second⟩ :=
      advance_raises (fenced_reachable ⟨clock, start⟩).coherent now operation middle listed
    refine ⟨lease', member, nextId.trans sameId, nextAttempt.trans sameAttempt, ?_⟩
    rcases first with rfl | higher
    · exact second
    · rcases second with rfl | further
      · exact Or.inr higher
      · exact Or.inr (higher.trans further)

theorem ongoing_unique (coherent : Coherent db) {attempt other : ExecutionAttempt}
    (stored : attempt ∈ db.attempts.rows) (there : other ∈ db.attempts.rows)
    (ongoing : attempt.status.ongoing = true) (also : other.status.ongoing = true)
    (sameRun : attempt.runId = other.runId) : attempt = other := by
  obtain ⟨schedule, found⟩ := Table.exists_find?
    (coherent.scheduled _ (coherent.tried _ (List.mem_map_of_mem stored)))
  obtain ⟨listed, named⟩ := Table.find?_eq_some.mp found
  have first := coherent.current attempt stored ongoing schedule listed named
  have second := coherent.current other there also schedule listed (named.trans sameRun)
  exact Table.eq_of_key_eq stored there (Option.some.inj (first.2.symm.trans second.2))

theorem renew_accepted {result : LeaseGrant × SchedulingDatabase}
    (renewed : renewAccountLease db now input = .ok result) :
    ∃ lease ∈ db.leases.rows, lease.attemptId = input.attemptId ∧
      lease.ownerId = input.ownerId ∧ lease.fencingRevision = input.fencingRevision ∧
      lease.state = .active ∧ now < lease.expiresAt := by
  obtain ⟨_, ⟨lease, member, accepts⟩, _⟩ := renewAccountLease_ok renewed
  exact ⟨lease, renewable_stored member accepts⟩

/-- What fencing promises of a state and of every state after it. -/
structure ExcludesStaleOwners (w : SchedulingWorld) : Prop where
  increases : ∀ now operation, ∀ lease ∈ w.db.leases.rows,
    ∃ lease' ∈ (advance w now operation).db.leases.rows, Raises lease lease'
  oneActive : ∀ lease ∈ w.db.leases.rows, ∀ other ∈ w.db.leases.rows, lease.state = .active →
    other.state = .active → lease.attemptId = other.attemptId → lease = other
  oneOngoing : ∀ attempt ∈ w.db.attempts.rows, ∀ other ∈ w.db.attempts.rows,
    attempt.status.ongoing = true → other.status.ongoing = true → attempt.runId = other.runId →
      attempt = other
  renewsLast : ∀ now input result, renewAccountLease w.db now input = .ok result →
    lastGrant input.attemptId w.outcomes = some input.fencingRevision ∧
      ∃ lease ∈ w.db.leases.rows, lease.attemptId = input.attemptId ∧
        lease.ownerId = input.ownerId ∧ lease.fencingRevision = input.fencingRevision ∧
        lease.state = .active ∧ now < lease.expiresAt
  neverAgain : ∀ lease ∈ w.db.leases.rows, ∀ revision ∈ grants lease.attemptId w.outcomes,
    ∀ later, Later w later → ∀ now input result, input.attemptId = lease.attemptId →
      input.fencingRevision = revision → renewAccountLease later.db now input = .ok result →
        lease ∈ later.db.leases.rows ∧ lease.fencingRevision = revision ∧
          lease.state = .active ∧ now < lease.expiresAt

/-- Fencing holds in every reachable state: a revision granted once is accepted only while
the row it was granted with is still there, active and unexpired. -/
theorem stale_owners_excluded (w : SchedulingWorld) (reachable : Reachable w) :
    ExcludesStaleOwners w := by
  have fenced := fenced_reachable reachable
  refine ⟨fun now operation => advance_raises fenced.coherent now operation, ?_, ?_, ?_, ?_⟩
  · exact fun lease stored other there _ _ same => single_eq fenced.coherent stored there same
  · exact fun attempt stored other there ongoing also same =>
      ongoing_unique fenced.coherent stored there ongoing also same
  · intro now input result renewed
    obtain ⟨lease, stored, attempt, owner, revision, active, unexpired⟩ := renew_accepted renewed
    refine ⟨?_, lease, stored, attempt, owner, revision, active, unexpired⟩
    rw [← attempt, ← revision]
    exact fenced.last lease stored active
  · intro lease stored revision granted later run now input result attempt given renewed
    obtain ⟨reached, raised⟩ := later_raises reachable run
    obtain ⟨lease', member, _, sameAttempt, higher⟩ := raised lease stored
    obtain ⟨accepted, listed, accepting, _, carried, active, unexpired⟩ := renew_accepted renewed
    have same := single_eq (fenced_reachable reached).coherent listed member
      (accepting.trans (attempt.trans sameAttempt.symm))
    subst same
    have bound := fenced.bounded lease stored revision granted
    rcases higher with rfl | above
    · exact ⟨member, carried.trans given, active, unexpired⟩
    · omega

/-- A claim that is renewed, expires and is restored by another owner. -/
def restoredWorld : SchedulingWorld :=
  runSteps (opening 0)
    [(0, .create (sampleCreation "run" .queue [sampleCandidate (some "account") true])),
      (0, .claim sampleClaim), (5, .renew ⟨0, "daemon", 1, some 10⟩), (20, .claim sampleClaim),
      (21, .restore ⟨0, "successor", some 10, none⟩)]

theorem stale_owners_excluded_restored :
    grants 0 restoredWorld.outcomes = [1, 2, 4] ∧
      restoredWorld.db.leases.rows.map (fun lease => (lease.fencingRevision, lease.state)) =
        [(4, .active)] ∧ ExcludesStaleOwners restoredWorld :=
  ⟨by decide +kernel, by decide +kernel,
    stale_owners_excluded restoredWorld (reachable_runSteps 0 _)⟩

end Heniek.LeaseFencing
