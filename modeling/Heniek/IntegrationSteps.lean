import Heniek.IntegrationService

/-!
What a tick of the integration service can do to its world, as one step relation. A
publication and a commit carry what the service has checked when it comes to them:
the stored entry they are for, its lifecycle, and that every earlier entry of the
run is settled. `tick_steps` says that a tick is a sequence of such steps, however
its driver calls end.
-/

namespace Heniek.IntegrationSteps
open EffectfulRun KeyedTable FallibleRun IntegrationStore IntegrationService

def Settled (entry : TaskIntegrationLedgerEntry) : Prop :=
  entry.lifecycle = .integrated ∨ entry.lifecycle = .failed

structure Complete (repositories : List TaskIntegrationRepository) : Prop where
  nonempty : repositories ≠ []
  candidates : ∀ repository ∈ repositories, repository.candidateSha ≠ none

def Publishable (entry : TaskIntegrationLedgerEntry) : Prop :=
  entry.lifecycle = .verified ∨
    entry.lifecycle = .reconciliationRequired ∧ Complete entry.repositories

instance (repositories : List TaskIntegrationRepository) : Decidable (Complete repositories) :=
  decidable_of_iff
    (repositories ≠ [] ∧ ∀ repository ∈ repositories, repository.candidateSha ≠ none)
    ⟨fun holds => ⟨holds.1, holds.2⟩, fun holds => ⟨holds.nonempty, holds.candidates⟩⟩

/-- The transitions that the service asks for, each with the entry it finds. -/
inductive Cause (driver : TaskIntegrationDriver) (entry : TaskIntegrationLedgerEntry) :
    TaskIntegrationTransitionInput → Prop where
  | prepared (repositories : List TaskIntegrationRepository) (queued : entry.lifecycle = .queued) :
      Cause driver entry (preparedTransition entry.integrationId repositories)
  | verification (result : TaskIntegrationVerificationResult)
      (prepared : entry.lifecycle = .prepared) :
      Cause driver entry (verificationTransition entry.integrationId result)
  | unchanged (verified : entry.lifecycle = .verified) (nothing : entry.repositories = []) :
      Cause driver entry (passedTransition entry.integrationId none)
  | published (n : Nat) (work : TaskIntegrationWork) (publication : TaskIntegrationPublishResult)
      (verified : entry.lifecycle = .verified)
      (answered : driver.publish n work entry.repositories = .ok publication)
      (applied : publication.classification = .integrated ∨
        publication.classification = .alreadyApplied) :
      Cause driver entry (passedTransition entry.integrationId (some publication.repositories))
  | failed (ongoing : terminal entry.lifecycle = false) :
      Cause driver entry (failedTransition entry)
  | reconciled (repositories : List TaskIntegrationRepository)
      (ongoing : terminal entry.lifecycle = false) :
      Cause driver entry (reconcileTransition entry entry.lifecycle repositories)

inductive Step (driver : TaskIntegrationDriver) (order : List TaskDispatchRecord) :
    World → World → Prop where
  | called (w : World) : Step driver order w { w with calls := w.calls + 1 }
  | initialized (w : World) (input : EpicBranchObservation)
      (fresh : (input.runId, input.repositoryId) ∉ w.db.branches.keys) :
      Step driver order w { w with
        db := { w.db with branches := w.db.branches.upsert (initialBranch input) }
        log := w.log ++ [.initialized (initialBranch input)] }
  | drifted (w : World) (input : EpicBranchObservation) (existing : EpicRepositoryBranch)
      (found : w.db.branches.find? (input.runId, input.repositoryId) = some existing) :
      Step driver order w { w with
        db := { w.db with branches := w.db.branches.upsert (driftedBranch existing input) } }
  | ordered (w : World) : Step driver order w { w with log := w.log ++ [.ordered order] }
  | enqueued (w : World) (item : TaskDispatchRecord × Nat) (entry : TaskIntegrationLedgerEntry)
      (db : IntegrationDatabase) (listed : item ∈ order.zipIdx)
      (accepted : enqueue w.db (queueInput item.1 (item.2 + 1)) = .ok (entry, db)) :
      Step driver order w { w with db := db }
  | refused (w : World) (item : TaskDispatchRecord × Nat) (error : IntegrationStoreError)
      (listed : item ∈ order.zipIdx)
      (failed : enqueue w.db (queueInput item.1 (item.2 + 1)) = .error error) :
      Step driver order w { w with
        log := w.log ++ [.refused (queueInput item.1 (item.2 + 1)) error] }
  | noted (w : World) (db : IntegrationDatabase) (tasks : db.tasks = w.db.tasks)
      (branches : db.branches = w.db.branches) (ledger : db.ledger = w.db.ledger) :
      Step driver order w { w with db := db }
  | published (w : World) (entry : TaskIntegrationLedgerEntry)
      (repositories : List TaskIntegrationRepository) (member : entry ∈ w.db.ledger.rows)
      (ready : Publishable entry)
      (earlier : ∀ other ∈ w.db.ledger.rows, other.runId = entry.runId →
        other.integrationOrdinal < entry.integrationOrdinal → Settled other) :
      Step driver order w { w with
        log := w.log ++ [.published entry.integrationId repositories w.db.ledger.rows] }
  | transitioned (w : World) (entry : TaskIntegrationLedgerEntry)
      (input : TaskIntegrationTransitionInput) (commit : Commit) (db : IntegrationDatabase)
      (member : entry ∈ w.db.ledger.rows) (cause : Cause driver entry input)
      (written : writeTransition w.db entry input = .ok (commit, db)) :
      Step driver order w { w with db := db, log := w.log ++ [.committed commit] }
  | resolved (w : World) (entry : TaskIntegrationLedgerEntry) (moves : List BranchMove)
      (db : IntegrationDatabase) (member : entry ∈ w.db.ledger.rows)
      (waiting : entry.lifecycle = .reconciliationRequired)
      (complete : Complete entry.repositories)
      (ledger : db.ledger = w.db.ledger.upsert
        (resolvedEntry entry (resolvedRepositories entry.repositories)))
      (branches : resolveBranches entry.runId (resolvedRepositories entry.repositories)
        w.db.branches = .ok (moves, db.branches))
      (tasks : setGates w.db.tasks entry.runId entry.taskId passedGates = .ok db.tasks) :
      Step driver order w { w with
        db := db
        log := w.log ++ [.committed ⟨entry,
          resolvedEntry entry (resolvedRepositories entry.repositories), moves,
          some passedGates⟩] }

abbrev Reach (driver : TaskIntegrationDriver) (order : List TaskDispatchRecord) :
    World → World → Prop :=
  Relation.ReflTransGen (Step driver order)

section Pending

variable {driver : TaskIntegrationDriver} {order : List TaskDispatchRecord}
variable {origin w w' : World} {runId : String}
variable {entry next : TaskIntegrationLedgerEntry} {listed rest : List TaskIntegrationLedgerEntry}

structure Pending (driver : TaskIntegrationDriver) (order : List TaskDispatchRecord)
    (origin : World) (runId : String)
    (listed : List TaskIntegrationLedgerEntry) (w : World) : Prop where
  reached : Reach driver order origin w
  stored : ∀ entry ∈ listed, entry ∈ w.db.ledger.rows ∧ entry.runId = runId
  others : ∀ other ∈ w.db.ledger.rows, other.runId = runId → other ∈ listed ∨ Settled other
  ordered : listed.Pairwise fun left right => left.integrationOrdinal ≤ right.integrationOrdinal
  distinct : listed.Nodup

theorem Pending.member (pending : Pending driver order origin runId (entry :: rest) w) :
    entry ∈ w.db.ledger.rows := (pending.stored entry List.mem_cons_self).1

theorem Pending.earlier (pending : Pending driver order origin runId (entry :: rest) w) :
    ∀ other ∈ w.db.ledger.rows, other.runId = entry.runId →
      other.integrationOrdinal < entry.integrationOrdinal → Settled other := by
  intro other member sameRun before
  have run := (pending.stored entry List.mem_cons_self).2
  rcases pending.others other member (sameRun.trans run) with inList | settled
  · rcases List.mem_cons.mp inList with rfl | inRest
    · omega
    · have after := List.rel_of_pairwise_cons pending.ordered inRest
      omega
  · exact settled

theorem Pending.advance (pending : Pending driver order origin runId listed w)
    (step : Step driver order w w') (ledger : w'.db.ledger = w.db.ledger) :
    Pending driver order origin runId listed w' where
  reached := pending.reached.tail step
  stored := by rw [ledger]; exact pending.stored
  others := by rw [ledger]; exact pending.others
  ordered := pending.ordered
  distinct := pending.distinct

theorem Pending.replace (pending : Pending driver order origin runId (entry :: rest) w)
    (step : Step driver order w w') (ledger : w'.db.ledger = w.db.ledger.upsert next)
    (sameId : next.integrationId = entry.integrationId) (sameRun : next.runId = entry.runId)
    (sameOrdinal : next.integrationOrdinal = entry.integrationOrdinal) :
    Pending driver order origin runId (next :: rest) w' := by
  have run := (pending.stored entry List.mem_cons_self).2
  have others : ∀ later ∈ rest, later.integrationId ≠ next.integrationId := by
    intro later inRest same
    have stored := (pending.stored later (List.mem_cons_of_mem entry inRest)).1
    have equal := Table.eq_of_key_eq stored pending.member (same.trans sameId)
    exact (List.nodup_cons.mp pending.distinct).1 (equal ▸ inRest)
  refine ⟨pending.reached.tail step, ?_, ?_, ?_, ?_⟩
  · intro later inList
    rw [ledger, Table.mem_upsert]
    rcases List.mem_cons.mp inList with rfl | inRest
    · exact ⟨Or.inl rfl, sameRun.trans run⟩
    · have stored := pending.stored later (List.mem_cons_of_mem entry inRest)
      exact ⟨Or.inr ⟨stored.1, others later inRest⟩, stored.2⟩
  · intro other member otherRun
    rw [ledger, Table.mem_upsert] at member
    rcases member with rfl | ⟨member, different⟩
    · exact Or.inl List.mem_cons_self
    · rcases pending.others other member otherRun with inList | settled
      · rcases List.mem_cons.mp inList with rfl | inRest
        · exact absurd sameId.symm different
        · exact Or.inl (List.mem_cons_of_mem next inRest)
      · exact Or.inr settled
  · rw [List.pairwise_cons, sameOrdinal]
    exact List.pairwise_cons.mp pending.ordered
  · refine List.nodup_cons.mpr ⟨?_, (List.nodup_cons.mp pending.distinct).2⟩
    exact fun inRest => others next inRest rfl

theorem Pending.tail (pending : Pending driver order origin runId (entry :: rest) w)
    (settled : Settled entry) : Pending driver order origin runId rest w where
  reached := pending.reached
  stored := fun later inRest => pending.stored later (List.mem_cons_of_mem entry inRest)
  others := by
    intro other member otherRun
    rcases pending.others other member otherRun with inList | otherSettled
    · rcases List.mem_cons.mp inList with rfl | inRest
      · exact Or.inr settled
      · exact Or.inl inRest
    · exact Or.inr otherSettled
  ordered := (List.pairwise_cons.mp pending.ordered).2
  distinct := (List.nodup_cons.mp pending.distinct).2

/-- An assertion that is kept by every step that leaves the ledger alone. -/
structure Follows (driver : TaskIntegrationDriver) (order : List TaskDispatchRecord)
    (origin : World) (P : World → Prop) : Prop where
  reached : ∀ w, P w → Reach driver order origin w
  advance : ∀ w w', P w → Step driver order w w' → w'.db.ledger = w.db.ledger → P w'

theorem follows_pending : Follows driver order origin (Pending driver order origin runId listed) :=
  ⟨fun _ pending => pending.reached, fun _ _ pending step ledger => pending.advance step ledger⟩

theorem follows_reach : Follows driver order origin (Reach driver order origin) :=
  ⟨fun _ reached => reached, fun _ _ reached step _ => reached.tail step⟩

end Pending

section Programs

variable {α : Type} {P : World → Prop} {Q : α → World → Prop} {E : World → Prop}

theorem ensures_call {ask : Nat → Answer α}
    (holds : ∀ w a, P w → ask w.calls = .ok a → Q a { w with calls := w.calls + 1 })
    (throws : ∀ w, P w → E { w with calls := w.calls + 1 }) : Ensures P (call ask) Q E := by
  intro w started
  refine ⟨?_, fun _ _ => throws w started⟩
  intro a answered
  exact holds w a started (mapError_eq_ok.mp answered)

theorem ensures_stored {operation : IntegrationDatabase → StoreResult (α × IntegrationDatabase)}
    {events : α → List Event}
    (holds : ∀ w a db, P w → operation w.db = .ok (a, db) →
      Q a { w with db := db, log := w.log ++ events a })
    (throws : ∀ w, P w → E w) : Ensures P (stored operation events) Q E := by
  refine Ensures.transact ?_ throws
  intro w a w' started ok
  split at ok
  · cases ok
  · rename_i result db ran
    cases ok
    exact holds w _ db started ran

variable {driver : TaskIntegrationDriver} {order : List TaskDispatchRecord} {origin : World}

theorem ensures_followed_call {ask : Nat → Answer α} (follows : Follows driver order origin P) :
    Ensures P (call ask) (fun _ => P) (Reach driver order origin) := by
  refine ensures_call ?_ ?_
  · exact fun w _ started _ => follows.advance _ _ started (Step.called w) rfl
  · exact fun w started => (follows.reached w started).tail (Step.called w)

/-- A transaction that only writes about reconciliations. -/
theorem ensures_noted {operation : IntegrationDatabase → StoreResult (α × IntegrationDatabase)}
    {R : α → Prop} (follows : Follows driver order origin P)
    (notes : ∀ db a db', operation db = .ok (a, db') → R a ∧ db'.tasks = db.tasks ∧
      db'.branches = db.branches ∧ db'.ledger = db.ledger) :
    Ensures P (stored operation) (fun a w => R a ∧ P w) (Reach driver order origin) := by
  refine ensures_stored ?_ follows.reached
  intro w a db started ok
  obtain ⟨held, tasks, branches, ledger⟩ := notes w.db a db ok
  refine ⟨held, ?_⟩
  have step : Step driver order w { w with db := db } := Step.noted w db tasks branches ledger
  simpa using follows.advance _ _ started step ledger

theorem ensures_transition {entry : TaskIntegrationLedgerEntry}
    {input : TaskIntegrationTransitionInput} {R : TaskIntegrationLedgerEntry → World → Prop}
    (sameId : input.integrationId = entry.integrationId)
    (expected : entry.lifecycle = input.expectedLifecycle) (cause : Cause driver entry input)
    (here : ∀ w, P w → Reach driver order origin w ∧ entry ∈ w.db.ledger.rows)
    (after : ∀ w w', P w → Step driver order w w' →
      w'.db.ledger = w.db.ledger.upsert (transitioned entry input) →
      R (transitioned entry input) w') :
    Ensures P (transitionEntry input) R (Reach driver order origin) := by
  refine Ensures.bind (Q := fun outcome w => R outcome.1 w) (ensures_stored ?_ ?_) fun outcome => ?_
  · rintro w ⟨result, commit⟩ db started ok
    obtain ⟨reached, member⟩ := here w started
    have found := Table.find?_key member
    obtain ⟨written, wrote, rfl, rfl⟩ := transition_ok (sameId ▸ found) expected ok
    have step : Step driver order w { w with db := db, log := w.log ++ [.committed written] } :=
      Step.transitioned w entry input written db member cause wrote
    exact after _ _ started step (writeTransition_ok wrote).ledger
  · exact fun w started => (here w started).1
  · exact Ensures.pure fun w holds => holds

end Programs

section Turn

variable {driver : TaskIntegrationDriver} {order : List TaskDispatchRecord} {origin : World}
variable {runId : String}
variable {entry : TaskIntegrationLedgerEntry} {rest listed : List TaskIntegrationLedgerEntry}

theorem ensures_transitionEntry {input : TaskIntegrationTransitionInput}
    (sameId : input.integrationId = entry.integrationId)
    (expected : entry.lifecycle = input.expectedLifecycle) (cause : Cause driver entry input) :
    Ensures (Pending driver order origin runId (entry :: rest)) (transitionEntry input)
      (fun result w => result.lifecycle = input.lifecycle ∧
        Pending driver order origin runId (result :: rest) w) (Reach driver order origin) := by
  refine ensures_transition sameId expected cause ?_ ?_
  · exact fun w pending => ⟨pending.reached, pending.member⟩
  · exact fun w w' pending step ledger => ⟨rfl, pending.replace step ledger rfl rfl rfl⟩

theorem ensures_reconcile {expected : EntryLifecycle}
    {repositories : List TaskIntegrationRepository} {trigger : ReconciliationTrigger}
    (same : entry.lifecycle = expected) (ongoing : terminal entry.lifecycle = false) :
    Ensures (Pending driver order origin runId (entry :: rest))
      (reconcile entry expected repositories trigger)
      (fun result => Pending driver order origin runId (result :: rest))
      (Reach driver order origin) := by
  subst same
  refine Ensures.bind (ensures_transitionEntry rfl rfl (Cause.reconciled repositories ongoing)) ?_
  intro result
  refine Ensures.given fun _ => ?_
  refine Ensures.bind (ensures_noted follows_pending fun _ _ _ ok => startReconciliation_ok ok) ?_
  exact fun _ => Ensures.pure fun _ holds => holds.2

variable {work : TaskIntegrationWork}

theorem ensures_publish {repositories : List TaskIntegrationRepository}
    (ready : Publishable entry) :
    Ensures (Pending driver order origin runId (entry :: rest))
      (publish driver work entry repositories)
      (fun publication w => (∃ n, driver.publish n work repositories = .ok publication) ∧
        Pending driver order origin runId (entry :: rest) w)
      (Pending driver order origin runId (entry :: rest)) := by
  unfold publish
  refine Ensures.bind (Q := fun _ => Pending driver order origin runId (entry :: rest)) ?_ ?_
  · refine Ensures.modify fun w pending => ?_
    exact pending.advance
      (Step.published w entry repositories pending.member ready pending.earlier) rfl
  · intro _
    refine ensures_call ?_ ?_
    · intro w publication pending answered
      exact ⟨⟨w.calls, answered⟩, pending.advance (Step.called w) rfl⟩
    · exact fun w pending => pending.advance (Step.called w) rfl

theorem ensures_prepareEntry :
    Ensures (Pending driver order origin runId (entry :: rest)) (prepareEntry driver work entry)
      (fun result => Pending driver order origin runId (result :: rest))
      (Reach driver order origin) := by
  unfold prepareEntry
  split
  · exact Ensures.pure fun _ pending => pending
  · rename_i queued
    rw [not_not] at queued
    have ongoing : terminal entry.lifecycle = false := by rw [queued]; decide
    refine Ensures.bind (ensures_followed_call follows_pending) fun inventory => ?_
    split
    · exact ensures_reconcile queued ongoing
    · refine Ensures.bind (Q := fun _ => Pending driver order origin runId (entry :: rest)) ?_ ?_
      · unfold prepareWork
        split
        · exact Ensures.pure_kept
        · exact ensures_followed_call follows_pending
      · intro prepared
        split
        · exact ensures_reconcile queued ongoing
        · exact (ensures_transitionEntry rfl queued
            (Cause.prepared prepared.repositories queued)).weaken fun _ _ holds => holds.2

theorem verificationTransition_expected (integrationId : String)
    (result : TaskIntegrationVerificationResult) :
    (verificationTransition integrationId result).integrationId = integrationId ∧
      (verificationTransition integrationId result).expectedLifecycle = .prepared := by
  unfold verificationTransition
  split <;> exact ⟨rfl, rfl⟩

theorem ensures_verifyEntry :
    Ensures (Pending driver order origin runId (entry :: rest)) (verifyEntry driver work entry)
      (fun result => Pending driver order origin runId (result :: rest))
      (Reach driver order origin) := by
  unfold verifyEntry
  split
  · exact Ensures.pure fun _ pending => pending
  · rename_i prepared
    rw [not_not] at prepared
    refine Ensures.bind (ensures_followed_call follows_pending) fun result => ?_
    obtain ⟨sameId, expected⟩ := verificationTransition_expected entry.integrationId result
    exact (ensures_transitionEntry sameId (prepared.trans expected.symm)
      (Cause.verification result prepared)).weaken fun _ _ holds => holds.2

theorem ensures_publishEntry :
    Ensures (Pending driver order origin runId (entry :: rest)) (publishEntry driver work entry)
      (fun result => Pending driver order origin runId (result :: rest))
      (Reach driver order origin) := by
  unfold publishEntry
  split
  · exact Ensures.pure fun _ pending => pending
  · rename_i verified
    rw [not_not] at verified
    have ongoing : terminal entry.lifecycle = false := by rw [verified]; decide
    split
    · rename_i nothing
      exact (ensures_transitionEntry rfl verified (Cause.unchanged verified nothing)).weaken
        fun _ _ holds => holds.2
    · let answered (outcome : Except Abort TaskIntegrationPublishResult) : Prop :=
        ∀ publication, outcome = .ok publication →
          ∃ n, driver.publish n work entry.repositories = .ok publication
      refine Ensures.bind (Q := fun outcome w => answered outcome ∧
        Pending driver order origin runId (entry :: rest) w) ?_ fun outcome => ?_
      · refine Ensures.attempt (ensures_publish (Or.inl verified)) ?_ ?_
        · rintro publication w ⟨asked, pending⟩
          refine ⟨?_, pending⟩
          rintro _ ⟨rfl⟩
          exact asked
        · exact fun _ w pending => ⟨nofun, pending⟩
      · refine Ensures.given fun asked => ?_
        split
        · exact ensures_reconcile verified ongoing
        · rename_i publication
          obtain ⟨n, answer⟩ := asked publication rfl
          split
          · rename_i applied
            exact (ensures_transitionEntry rfl verified
              (Cause.published n work publication verified answer applied)).weaken
              fun _ _ holds => holds.2
          · exact ensures_reconcile verified ongoing

theorem ensures_process {dispatch : TaskDispatchRecord}
    (ongoing : terminal entry.lifecycle = false) :
    Ensures (Pending driver order origin runId (entry :: rest)) (process driver entry dispatch)
      (fun result => Pending driver order origin runId (result :: rest))
      (Reach driver order origin) := by
  refine Ensures.bind (ensures_followed_call follows_pending) fun work => ?_
  split
  · exact ensures_reconcile rfl ongoing
  · split
    · exact ensures_reconcile rfl ongoing
    · refine Ensures.bind ensures_prepareEntry fun prepared => ?_
      exact Ensures.bind ensures_verifyEntry fun verified => ensures_publishEntry

end Turn

section Passes

variable {driver : TaskIntegrationDriver} {order : List TaskDispatchRecord} {origin : World}
variable {runId : String}
variable {entry : TaskIntegrationLedgerEntry} {rest listed : List TaskIntegrationLedgerEntry}

theorem projectRepository_block {repository : TaskIntegrationRepository}
    {observation : Option TaskIntegrationRepositoryObservation}
    (missing : repository.candidateSha = none) :
    (projectRepository repository observation).action = .block := by
  simp [projectRepository, classifyRepository, missing]

variable {work : TaskIntegrationWork} {reconciliation : TaskIntegrationReconciliation}

theorem ensures_observeRepositories {repositories : List TaskIntegrationRepository} :
    Ensures (Pending driver order origin runId listed)
      (observeRepositories driver work repositories)
      (fun _ => Pending driver order origin runId listed) (Reach driver order origin) := by
  refine Ensures.bind (Q := fun _ => Pending driver order origin runId listed) ?_ ?_
  · refine Ensures.attempt (Q := fun _ => Pending driver order origin runId listed)
      (E := Pending driver order origin runId listed) (ensures_call ?_ ?_) ?_ ?_
    · exact fun w _ pending _ => pending.advance (Step.called w) rfl
    · exact fun w pending => pending.advance (Step.called w) rfl
    · exact fun _ _ pending => pending
    · exact fun _ _ pending => pending
  · intro outcome
    split
    · exact Ensures.pure_kept
    · exact Ensures.pure_kept

theorem ensures_recordObservation {pass sequence : Nat} {repository : ReconciliationRepository} :
    Ensures (Pending driver order origin runId listed)
      (recordObservation reconciliation entry pass sequence repository)
      (fun recorded w => recorded = repository ∧ Pending driver order origin runId listed w)
      (Reach driver order origin) := by
  refine Ensures.bind (ensures_noted (R := fun _ => True) follows_pending ?_) ?_
  · intro db a db' ok
    exact ⟨trivial, appendReconciliationObservation_ok ok⟩
  · exact fun _ => Ensures.pure fun _ holds => ⟨rfl, holds.2⟩

theorem ensures_blockReconciliation {expected : ReconciliationLifecycle}
    {repositories : List ReconciliationRepository} {blocker : ReconciliationBlocker} :
    Ensures (Pending driver order origin runId listed)
      (blockReconciliation reconciliation expected repositories blocker)
      (fun _ => Reach driver order origin) (Reach driver order origin) := by
  refine Ensures.bind (ensures_noted follows_pending fun _ _ _ ok => advanceReconciliation_ok ok) ?_
  exact fun _ => Ensures.pure fun _ holds => holds.2.reached

theorem ensures_settleReconciliation {previous : List ReconciliationAction}
    {repositories : List ReconciliationRepository} {again : Option (Program Unit)}
    (sameId : reconciliation.reconciliationId = reconciliationIdOf entry.integrationId)
    (waiting : entry.lifecycle = .reconciliationRequired) (complete : Complete entry.repositories)
    (continues : ∀ program, again = some program →
      Ensures (Pending driver order origin runId (entry :: rest)) program
        (fun _ => Reach driver order origin) (Reach driver order origin)) :
    Ensures (Pending driver order origin runId (entry :: rest))
      (settleReconciliation driver work entry reconciliation previous repositories again)
      (fun _ => Reach driver order origin) (Reach driver order origin) := by
  unfold settleReconciliation
  dsimp only
  split
  · split
    · exact ensures_blockReconciliation
    · rename_i program
      refine Ensures.bind
        (ensures_noted follows_pending fun _ _ _ ok => advanceReconciliation_ok ok) fun _ => ?_
      refine Ensures.given fun _ => ?_
      refine Ensures.bind (Q := fun _ => Pending driver order origin runId (entry :: rest)) ?_ ?_
      · refine Ensures.attempt (ensures_publish (Or.inr ⟨waiting, complete⟩)) ?_ ?_
        · exact fun _ _ holds => holds.2
        · exact fun _ _ pending => pending
      · intro outcome
        split
        · exact Ensures.pure fun _ pending => pending.reached
        · exact continues program rfl
  · refine Ensures.bind (Q := fun _ => Reach driver order origin) (ensures_stored ?_ ?_) ?_
    · intro w commit db pending ok
      rcases resolveReconciliation_ok ok with ⟨rfl, rfl⟩ | resolved
      · simpa using pending.reached
      · obtain ⟨resolvedEntry, moves, member, named, rfl, ledger, branches, tasks⟩ := resolved
        have ids := reconciliationIdOf_inj (named.symm.trans sameId)
        obtain rfl := Table.eq_of_key_eq member pending.member ids
        exact pending.reached.tail
          (Step.resolved w _ moves db member waiting complete ledger branches tasks)
    · exact fun _ pending => pending.reached
    · exact fun _ => Ensures.pure_kept

variable [ScriptText.Collation]

theorem ensures_observePass {pass : Nat} : Ensures (Pending driver order origin runId listed)
      (observePass driver work entry reconciliation pass)
      (fun repositories w => ((∀ repository ∈ repositories, repository.action ≠ .block) →
          ∀ repository ∈ entry.repositories, repository.candidateSha ≠ none) ∧
        Pending driver order origin runId listed w) (Reach driver order origin) := by
  refine Ensures.bind ensures_observeRepositories fun observed => ?_
  refine Ensures.bind Ensures.read_kept fun existingCount => ?_
  let projected (item : TaskIntegrationRepository × Nat) : ReconciliationRepository :=
    projectRepository item.1 ((byRepository observed).find? item.1.repositoryId)
  refine (Ensures.mapEach (r := fun item recorded => recorded = projected item) ?_).weaken ?_
  · exact fun item _ => ensures_recordObservation
  · rintro repositories w ⟨related, pending⟩
    refine ⟨?_, pending⟩
    intro unblocked repository member missing
    have sorted : repository ∈ ScriptText.localeSort TaskIntegrationRepository.repositoryId
        entry.repositories := (List.mem_insertionSort _).mpr member
    obtain ⟨index, inBounds, at_index⟩ := List.getElem_of_mem sorted
    have item : (repository, index) ∈ (ScriptText.localeSort
        TaskIntegrationRepository.repositoryId entry.repositories).zipIdx := by
      rw [List.mk_mem_zipIdx_iff_getElem?, List.getElem?_eq_getElem inBounds, at_index]
    obtain ⟨recorded, inRecorded, same⟩ := related.1 _ item
    refine unblocked recorded inRecorded ?_
    rw [same]
    exact projectRepository_block missing

theorem ensures_reconcilePass {dispatch : TaskDispatchRecord} {again : Option (Program Unit)}
    (waiting : entry.lifecycle = .reconciliationRequired)
    (continues : ∀ program, again = some program →
      Ensures (Pending driver order origin runId (entry :: rest)) program
        (fun _ => Reach driver order origin) (Reach driver order origin)) :
    Ensures (Pending driver order origin runId (entry :: rest))
      (reconcilePass driver entry dispatch again)
      (fun _ => Reach driver order origin) (Reach driver order origin) := by
  refine Ensures.bind (ensures_followed_call follows_pending) fun work => ?_
  refine Ensures.bind
    (ensures_noted follows_pending fun _ _ _ ok => startReconciliation_ok ok) fun started => ?_
  refine Ensures.given fun sameEntry => ?_
  split
  · exact Ensures.pure fun _ pending => pending.reached
  · split
    · exact ensures_blockReconciliation
    · split
      · exact ensures_blockReconciliation
      · rename_i usable
        rw [not_or] at usable
        refine Ensures.bind
          (ensures_noted follows_pending fun _ _ _ ok => advanceReconciliation_ok ok) ?_
        intro reconciliation
        refine Ensures.given fun sameReconciliation => ?_
        refine Ensures.bind ensures_observePass fun repositories => ?_
        refine Ensures.given fun candidates => ?_
        split
        · exact ensures_blockReconciliation
        · rename_i unblocked
          refine ensures_settleReconciliation ?_ waiting ⟨usable.2, candidates ?_⟩ continues
          · rw [sameReconciliation, started.identified, sameEntry]
          · intro repository member blocked
            have absent := List.find?_eq_none.mp unblocked repository member
            simp [blocked] at absent

theorem ensures_reconcileEntry {dispatch : TaskDispatchRecord}
    (waiting : entry.lifecycle = .reconciliationRequired) :
    Ensures (Pending driver order origin runId (entry :: rest))
      (reconcileEntry driver entry dispatch)
      (fun _ => Reach driver order origin) (Reach driver order origin) := by
  refine ensures_reconcilePass waiting ?_
  rintro _ ⟨rfl⟩
  exact ensures_reconcilePass waiting nofun

end Passes

section Ticks

variable {driver : TaskIntegrationDriver} {order : List TaskDispatchRecord} {origin : World}
variable {runId : String}
variable {input : TaskIntegrationTickInput} {listed : List TaskIntegrationLedgerEntry}

theorem ensures_initializeObserved {observation : EpicBranchObservation} :
    Ensures (Reach driver order origin) (initializeObserved observation)
      (fun _ w => True ∧ Reach driver order origin w) (Reach driver order origin) := by
  intro w reached
  refine ⟨?_, nofun⟩
  rintro branch -
  refine ⟨trivial, ?_⟩
  cases found : w.db.branches.find? (observation.runId, observation.repositoryId) with
  | none =>
    have fresh := Table.find?_eq_none.mp found
    simp only [initializeObserved, initializeBranch, found, if_neg fresh]
    exact reached.tail (Step.initialized w observation fresh)
  | some existing =>
    have present := Table.find?_isSome.mp (by rw [found]; rfl)
    simp only [initializeObserved, initializeBranch, found, if_pos present, List.append_nil]
    split_ifs
    · exact reached
    · exact reached
    · exact reached.tail (Step.drifted w observation existing found)

theorem ensures_enqueueDispatch {item : TaskDispatchRecord × Nat} (listed : item ∈ order.zipIdx) :
    Preserves (Reach driver order origin) (enqueueDispatch item) := by
  intro w reached
  unfold enqueueDispatch
  split
  · rename_i entry db accepted
    exact ⟨fun _ _ => reached.tail (Step.enqueued w item entry db listed accepted), nofun⟩
  · rename_i error failed
    exact ⟨nofun, fun _ _ => reached.tail (Step.refused w item error listed failed)⟩

theorem mem_entries {db : IntegrationDatabase} {entry : TaskIntegrationLedgerEntry} :
    entry ∈ entries db runId ↔ entry ∈ db.ledger.rows ∧ entry.runId = runId := by
  simp [entries]

theorem ensures_reconcileDrift {observed : List EpicRepositoryBranch} :
    Preserves (Reach driver order origin) (reconcileDrift input observed) := by
  unfold reconcileDrift
  split
  · refine Ensures.bind (Q := fun listed w => Reach driver order origin w ∧
      listed = entries w.db input.runId) (Ensures.read fun _ reached => ⟨reached, rfl⟩) ?_
    intro listed
    dsimp only
    split
    · exact Ensures.pure fun _ holds => holds.1
    · rename_i first found
      split
      · exact Ensures.pure fun _ holds => holds.1
      · have ongoing : terminal first.lifecycle = false := by
          have chosen := List.find?_some found
          simp only [Bool.and_eq_true, Bool.not_eq_true'] at chosen
          exact chosen.1
        refine Ensures.bind (Q := fun _ => Reach driver order origin) ?_ ?_
        · refine Ensures.bind (Q := fun _ => Reach driver order origin) ?_ ?_
          · refine ensures_transition rfl rfl (Cause.reconciled first.repositories ongoing) ?_ ?_
            · rintro w ⟨reached, rfl⟩
              exact ⟨reached, (mem_entries.mp (List.mem_of_find?_eq_some found)).1⟩
            · exact fun w w' started step _ => started.1.tail step
          · intro reconciled
            refine Ensures.bind (ensures_noted follows_reach fun _ _ _ ok =>
              startReconciliation_ok ok) ?_
            exact fun _ => Ensures.pure fun _ holds => holds.2
        · exact fun _ => Ensures.pure_kept
  · exact Ensures.pure_kept

theorem pending_entries {w : World} (reached : Reach driver order origin w) :
    Pending driver order origin runId (entries w.db runId) w where
  reached := reached
  stored := fun _ inList => mem_entries.mp inList
  others := fun _ member sameRun => Or.inl (mem_entries.mpr ⟨member, sameRun⟩)
  ordered := by
    have sorted := List.pairwise_insertionSort
      (fun left right : TaskIntegrationLedgerEntry =>
        left.integrationOrdinal ≤ right.integrationOrdinal)
      (w.db.ledger.rows.filter fun entry => entry.runId = runId)
    exact sorted
  distinct := by
    refine (List.perm_insertionSort _ _).nodup_iff.mpr (List.Nodup.filter _ ?_)
    exact List.Nodup.of_map _ w.db.ledger.distinct

variable [ScriptText.Collation]

theorem ensures_integrateEntries {dispatches : List TaskDispatchRecord} :
    Ensures (Pending driver order origin runId listed)
      (integrateEntries driver input dispatches listed)
      (fun _ => Reach driver order origin) (Reach driver order origin) := by
  induction listed with
  | nil => exact Ensures.pure fun _ pending => pending.reached
  | cons entry rest ih =>
    unfold integrateEntries
    dsimp only
    split
    · rename_i waiting
      split
      · exact Ensures.pure fun _ pending => pending.reached
      · exact ensures_reconcileEntry waiting
    · split
      · rename_i done
        have settled : Settled entry := by
          simp only [terminal, decide_eq_true_eq] at done
          tauto
        exact ih.mono (fun _ pending => pending.tail settled) (fun _ _ h => h) fun _ h => h
      · rename_i ongoing
        rw [Bool.not_eq_true] at ongoing
        split
        · exact Ensures.pure fun _ pending => pending.reached
        · have dropped : Ensures (Pending driver order origin runId (entry :: rest)) (do
              let _ ← transitionEntry (failedTransition entry)
              integrateEntries driver input dispatches rest)
              (fun _ => Reach driver order origin) (Reach driver order origin) := by
            refine Ensures.bind (ensures_transitionEntry rfl rfl (Cause.failed ongoing)) ?_
            intro result
            refine Ensures.given fun failed => ?_
            exact ih.mono (fun _ pending => pending.tail (Or.inr failed)) (fun _ _ h => h)
              fun _ h => h
          split
          · exact dropped
          · exact dropped
          · exact dropped
          · split
            · exact Ensures.pure fun _ pending => pending.reached
            · refine Ensures.bind (ensures_process ongoing) fun result => ?_
              split
              · rename_i integrated
                exact ih.mono (fun _ pending => pending.tail (Or.inl integrated))
                  (fun _ _ h => h) fun _ h => h
              · exact Ensures.pure fun _ pending => pending.reached
          · exact Ensures.pure fun _ pending => pending.reached

/-- A tick is a sequence of steps, whether it returns or throws. -/
theorem tick_steps (driver : TaskIntegrationDriver) (input : TaskIntegrationTickInput)
    (w : World) :
    Reach driver (integrationOrder input.dag input.dispatches) w (tick driver input w).2 := by
  refine ensures_final (P := Reach driver (integrationOrder input.dag input.dispatches) w) ?_
    Relation.ReflTransGen.refl
  refine Ensures.bind (ensures_followed_call follows_reach) fun branches => ?_
  refine Ensures.bind (Ensures.mapEach fun _ _ => ensures_initializeObserved) fun observed => ?_
  refine Ensures.given fun _ => ?_
  refine Ensures.bind (Q := fun _ => Reach driver (integrationOrder input.dag input.dispatches) w)
    (Ensures.modify fun _ reached => reached.tail (Step.ordered _)) fun _ => ?_
  refine Ensures.bind (Ensures.forEach fun _ listed => ensures_enqueueDispatch listed) fun _ => ?_
  refine Ensures.bind ensures_reconcileDrift fun _ => ?_
  refine Ensures.bind (Ensures.read fun _ reached => pending_entries reached) fun listed => ?_
  exact ensures_integrateEntries

theorem runFrom_invariant {P : World → Prop} {driver : TaskIntegrationDriver} {w : World}
    (step : ∀ order w w', Step driver order w w' → P w → P w')
    (tasks : ∀ (w : World) rows, P w → P { w with db := { w.db with tasks := rows } })
    (initial : P w) (acts : List Act) : P (runFrom driver w acts) := by
  induction acts generalizing w with
  | nil => exact initial
  | cons act acts ih =>
    refine ih ?_
    cases act with
    | tick input =>
      exact steps_invariant (fun b c holds stepped => step _ b c stepped holds) initial
        (tick_steps driver input w)
    | tasks rows => exact tasks w rows initial

end Ticks

end Heniek.IntegrationSteps
