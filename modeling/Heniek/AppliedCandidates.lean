import Heniek.VerifiedPublication

/-!
Integrated entries and the branches they moved. Both operations that move a branch
take it from the expected commit to the candidate, so the commits a branch has
expected form a chain. An integrated entry has moved the branch of each of its
repositories, as long as the driver proves what it reports as published: the
transition to integrated passes over a repository without a proof, where the
resolution of a reconciliation refuses it.
-/

namespace Heniek.AppliedCandidates
open KeyedTable FallibleRun ScriptText IntegrationStore IntegrationService IntegrationSteps
open VerifiedPublication (sampleDriver sampleActs candidate gitObject)

/-- Each move starts at the commit that the one before it ended at. -/
def Chain : String → List BranchMove → String → Prop
  | first, [], last => first = last
  | first, move :: moves, last => move.fromSha = first ∧ Chain move.toSha moves last

theorem Chain.append {first middle last : String} {left right : List BranchMove}
    (before : Chain first left middle) (after : Chain middle right last) :
    Chain first (left ++ right) last := by
  induction left generalizing first with
  | nil =>
    cases before
    exact after
  | cons move moves ih => exact ⟨before.1, ih before.2⟩

def branchKey (move : BranchMove) : String × String := (move.runId, move.repository.repositoryId)

def movesOf (key : String × String) (moves : List BranchMove) : List BranchMove :=
  moves.filter fun move => branchKey move = key

def logMoves (log : List Event) : List BranchMove := (commits log).flatMap Commit.moves

structure MoveApplied (move : BranchMove) : Prop where
  candidate : move.repository.candidateSha = some move.toSha
  result : move.repository.resultSha = some move.toSha
  origin : move.fromSha = move.repository.expectedTargetSha ∨ move.fromSha = move.toSha

/-- The moves are updates of the branches, one after the other. -/
inductive Moves : BranchTable → List BranchMove → BranchTable → Prop where
  | done (branches : BranchTable) : Moves branches [] branches
  | move {branches branches' : BranchTable} {branch : EpicRepositoryBranch} {move : BranchMove}
      {moves : List BranchMove} (lifecycle : BranchLifecycle)
      (found : branches.find? (branchKey move) = some branch)
      (held : move.fromSha = branch.expectedLocalSha)
      (rest : Moves (branches.upsert (movedBranch branch move.toSha lifecycle)) moves branches') :
      Moves branches (move :: moves) branches'

variable {branches branches' : BranchTable} {runId : String}
  {repository : TaskIntegrationRepository} {repositories : List TaskIntegrationRepository}

theorem branchKey_of_find {key : String × String} {branch : EpicRepositoryBranch}
    (found : branches.find? key = some branch) : (branch.runId, branch.repositoryId) = key := by
  have same := Table.key_of_find? found
  exact same

theorem Moves.keys {moves : List BranchMove} (moved : Moves branches moves branches') :
    branches'.keys = branches.keys ∧ ∀ move ∈ moves, branchKey move ∈ branches.keys := by
  induction moved with
  | done branches => exact ⟨rfl, nofun⟩
  | @move branches branches' branch move moves lifecycle found held rest ih =>
    have present : branchKey move ∈ branches.keys := Table.find?_isSome.mp (by rw [found]; rfl)
    have same := branchKey_of_find found
    have keys : (branches.upsert (movedBranch branch move.toSha lifecycle)).keys =
        branches.keys := Table.keys_upsert_of_mem (same ▸ present)
    rw [keys] at ih
    exact ⟨ih.1, List.forall_mem_cons.mpr ⟨present, ih.2⟩⟩

theorem Moves.chain {moves : List BranchMove} (moved : Moves branches moves branches')
    {key : String × String} {branch' : EpicRepositoryBranch}
    (found' : branches'.find? key = some branch') : ∃ branch, branches.find? key = some branch ∧
      Chain branch.expectedLocalSha (movesOf key moves) branch'.expectedLocalSha := by
  induction moved with
  | done branches => exact ⟨branch', found', rfl⟩
  | @move branches branches' branch move moves lifecycle found held rest ih =>
    have same := branchKey_of_find found
    obtain ⟨next, foundNext, chain⟩ := ih found'
    rw [Table.find?_upsert] at foundNext
    by_cases here : branchKey move = key
    · rw [if_pos (by rw [← here]; exact same.symm)] at foundNext
      cases foundNext
      refine ⟨branch, here ▸ found, ?_⟩
      rw [movesOf, List.filter_cons_of_pos (by simpa using here)]
      exact ⟨held, chain⟩
    · rw [if_neg (fun other => here (same.symm.trans other.symm))] at foundNext
      refine ⟨next, foundNext, ?_⟩
      rw [movesOf, List.filter_cons_of_neg (by simpa using here)]
      exact chain

structure Advanced (runId : String) (repositories : List TaskIntegrationRepository)
    (branches : BranchTable) (moves : List BranchMove) (branches' : BranchTable) : Prop where
  updates : Moves branches moves branches'
  owner : ∀ move ∈ moves, move.runId = runId ∧ move.repository ∈ repositories
  applied : ∀ move ∈ moves, MoveApplied move

theorem Advanced.skip {moves : List BranchMove}
    (advanced : Advanced runId repositories branches moves branches') :
    Advanced runId (repository :: repositories) branches moves branches' where
  updates := advanced.updates
  owner := fun move member =>
    ⟨(advanced.owner move member).1, List.mem_cons_of_mem _ (advanced.owner move member).2⟩
  applied := advanced.applied

theorem Advanced.cons {sha : String} {branch : EpicRepositoryBranch} {moves : List BranchMove}
    {lifecycle : BranchLifecycle}
    (found : branches.find? (runId, repository.repositoryId) = some branch)
    (applied : MoveApplied ⟨runId, repository, branch.expectedLocalSha, sha⟩)
    (advanced :
      Advanced runId repositories
      (branches.upsert (movedBranch branch sha lifecycle)) moves branches') :
    Advanced runId (repository :: repositories) branches
      (⟨runId, repository, branch.expectedLocalSha, sha⟩ :: moves) branches' where
  updates := Moves.move lifecycle found rfl advanced.updates
  owner := List.forall_mem_cons.mpr ⟨⟨rfl, List.mem_cons_self⟩, advanced.skip.owner⟩
  applied := List.forall_mem_cons.mpr ⟨applied, advanced.applied⟩

theorem provenSha_some {sha : String} (proven : provenSha repository = some sha) :
    repository.candidateSha = some sha ∧ repository.resultSha = some sha := by
  unfold provenSha at proven
  split at proven
  · cases proven
  · rename_i result held
    split_ifs at proven with checked
    cases proven
    exact ⟨checked.1, held⟩

theorem advanceBranches_ok {moves : List BranchMove}
    (ok : advanceBranches runId repositories branches = .ok (moves, branches')) :
    Advanced runId repositories branches moves branches' ∧
      ∀ repository ∈ repositories, provenSha repository ≠ none →
        ∃ move ∈ moves, move.repository = repository := by
  induction repositories generalizing branches moves with
  | nil =>
    cases ok
    exact ⟨⟨Moves.done _, nofun, nofun⟩, nofun⟩
  | cons repository repositories ih =>
    unfold advanceBranches at ok
    split at ok
    · rename_i unproven
      obtain ⟨advanced, covered⟩ := ih ok
      exact ⟨advanced.skip, List.forall_mem_cons.mpr
        ⟨fun proven => absurd unproven proven, covered⟩⟩
    · rename_i sha proven
      split at ok
      · cases ok
      · rename_i branch found
        split_ifs at ok with held
        obtain ⟨⟨rest, branches''⟩, ran, ok⟩ := bind_eq_ok.mp ok
        cases ok
        obtain ⟨advanced, covered⟩ := ih ran
        have shas := provenSha_some proven
        refine ⟨advanced.cons found ⟨shas.1, shas.2, Or.inl held.1⟩, ?_⟩
        refine List.forall_mem_cons.mpr ⟨fun _ => ⟨_, List.mem_cons_self, rfl⟩, ?_⟩
        intro other member provenOther
        obtain ⟨move, inMoves, same⟩ := covered other member provenOther
        exact ⟨move, List.mem_cons_of_mem _ inMoves, same⟩

theorem resolveBranches_ok {moves : List BranchMove}
    (ok : resolveBranches runId repositories branches = .ok (moves, branches')) :
    Advanced runId repositories branches moves branches' ∧
      ∀ repository ∈ repositories, ∃ move ∈ moves, move.repository = repository := by
  induction repositories generalizing branches moves with
  | nil =>
    cases ok
    exact ⟨⟨Moves.done _, nofun, nofun⟩, nofun⟩
  | cons repository repositories ih =>
    unfold resolveBranches at ok
    split at ok
    · cases ok
    · rename_i sha candidate
      split at ok
      · cases ok
      · rename_i result
        split at ok
        · cases ok
        · rename_i branch found
          split_ifs at ok with held
          obtain ⟨⟨rest, branches''⟩, ran, ok⟩ := bind_eq_ok.mp ok
          cases ok
          obtain ⟨advanced, covered⟩ := ih ran
          refine ⟨advanced.cons found ⟨candidate, not_not.mp result, held⟩, ?_⟩
          refine List.forall_mem_cons.mpr ⟨⟨_, List.mem_cons_self, rfl⟩, ?_⟩
          intro other member
          obtain ⟨move, inMoves, same⟩ := covered other member
          exact ⟨move, List.mem_cons_of_mem _ inMoves, same⟩

structure IntegratedBy (log : List Event) (entry : TaskIntegrationLedgerEntry) (commit : Commit) :
    Prop where
  logged : commit ∈ commits log
  after : commit.after = entry
  before : commit.before.lifecycle ≠ .integrated
  moved : ∀ repository ∈ entry.repositories, ∃ move ∈ commit.moves,
    move.runId = entry.runId ∧ move.repository = repository ∧ MoveApplied move

theorem IntegratedBy.mono {log events : List Event} {entry : TaskIntegrationLedgerEntry}
    {commit : Commit} (integrated : IntegratedBy log entry commit) :
    IntegratedBy (log ++ events) entry commit := by
  refine ⟨?_, integrated.after, integrated.before, integrated.moved⟩
  rw [commits, List.filterMap_append]
  exact List.mem_append_left _ integrated.logged

def Chained (log : List Event) (branch : EpicRepositoryBranch) : Prop :=
  ∃ created, Event.initialized created ∈ log ∧
    (created.runId, created.repositoryId) = (branch.runId, branch.repositoryId) ∧
    Chain created.expectedLocalSha (movesOf (branch.runId, branch.repositoryId) (logMoves log))
      branch.expectedLocalSha

structure Applied (w : World) : Prop where
  candidates : ∀ entry ∈ w.db.ledger.rows, entry.lifecycle = .integrated →
    ∀ repository ∈ entry.repositories, repository.candidateSha ≠ none ∧
      repository.resultSha = repository.candidateSha
  integrated : ∀ entry ∈ w.db.ledger.rows, entry.lifecycle = .integrated →
    ∃ commit, IntegratedBy w.log entry commit
  chained : ∀ branch ∈ w.db.branches.rows, Chained w.log branch
  moves : ∀ commit ∈ commits w.log, ∀ move ∈ commit.moves,
    move.repository ∈ commit.after.repositories ∧ MoveApplied move

/-- The driver proves every repository that it reports as published. -/
def ProvesPublications (driver : TaskIntegrationDriver) : Prop :=
  ∀ n work repositories publication, driver.publish n work repositories = .ok publication →
    publication.classification = .integrated ∨ publication.classification = .alreadyApplied →
    ∀ repository ∈ publication.repositories, provenSha repository ≠ none

/-- What the steps keep: no branch moves before it is created. -/
structure Coherent (w : World) : Prop where
  integrated : ∀ entry ∈ w.db.ledger.rows, entry.lifecycle = .integrated →
    ∃ commit, IntegratedBy w.log entry commit
  chained : ∀ branch ∈ w.db.branches.rows, Chained w.log branch
  moves : ∀ commit ∈ commits w.log, ∀ move ∈ commit.moves,
    move.repository ∈ commit.after.repositories ∧ MoveApplied move
  created : ∀ move ∈ logMoves w.log, branchKey move ∈ w.db.branches.keys

theorem Coherent.applied {w : World} (coherent : Coherent w) : Applied w := by
  refine ⟨?_, coherent.integrated, coherent.chained, coherent.moves⟩
  intro entry member lifecycle repository inEntry
  obtain ⟨commit, integrated⟩ := coherent.integrated entry member lifecycle
  obtain ⟨move, -, -, rfl, applied⟩ := integrated.moved repository inEntry
  rw [applied.candidate, applied.result]
  exact ⟨nofun, rfl⟩

section Steps

variable {driver : TaskIntegrationDriver} {w : World}

variable {db : IntegrationDatabase}

theorem Coherent.commit {runId : String} {repositories : List TaskIntegrationRepository}
    {commit : Commit} {next : TaskIntegrationLedgerEntry} (coherent : Coherent w)
    (advanced : Advanced runId repositories w.db.branches commit.moves db.branches)
    (own : commit.after.repositories = repositories) (ledger : db.ledger = w.db.ledger.upsert next)
    (integrates : next.lifecycle = .integrated →
      IntegratedBy (w.log ++ [.committed commit]) next commit) :
    Coherent { w with db := db, log := w.log ++ [.committed commit] } := by
  have moved : logMoves (w.log ++ [.committed commit]) = logMoves w.log ++ commit.moves := by
    simp [logMoves, commits, Event.commit]
  refine ⟨?_, ?_, ?_, ?_⟩
  · intro entry member lifecycle
    rw [ledger] at member
    rcases Table.mem_upsert.mp member with rfl | ⟨before, -⟩
    · exact ⟨commit, integrates lifecycle⟩
    · obtain ⟨earlier, integrated⟩ := coherent.integrated entry before lifecycle
      exact ⟨earlier, integrated.mono⟩
  · intro branch' member
    have found' := Table.find?_key member
    obtain ⟨branch, found, chain⟩ := advanced.updates.chain found'
    have same := branchKey_of_find found
    obtain ⟨created, logged, sameCreated, earlier⟩ :=
      coherent.chained branch (Table.mem_of_find? found)
    rw [same] at earlier sameCreated
    refine ⟨created, List.mem_append_left _ logged, sameCreated, ?_⟩
    rw [moved, movesOf, List.filter_append]
    exact earlier.append chain
  · intro other member move inMoves
    simp only [commits, List.filterMap_append, List.mem_append] at member
    rcases member with before | last
    · exact coherent.moves other before move inMoves
    · simp only [List.filterMap_cons, Event.commit, List.filterMap_nil, List.mem_singleton] at last
      subst last
      exact ⟨own ▸ (advanced.owner move inMoves).2, advanced.applied move inMoves⟩
  · intro move member
    rw [moved, List.mem_append] at member
    rw [advanced.updates.keys.1]
    rcases member with before | here
    · exact coherent.created move before
    · exact advanced.updates.keys.2 move here

theorem Coherent.transition {entry : TaskIntegrationLedgerEntry}
    {input : TaskIntegrationTransitionInput} {commit : Commit} (coherent : Coherent w)
    (proves : ProvesPublications driver) (cause : Cause driver entry input)
    (written : Written w.db entry input commit db) :
    Coherent { w with db := db, log := w.log ++ [.committed commit] } := by
  have logged : commit ∈ commits (w.log ++ [.committed commit]) := by
    simp [commits, Event.commit]
  have branches := written.branches
  unfold movedBranches at branches
  split at branches
  · obtain ⟨advanced, covered⟩ := advanceBranches_ok branches
    refine coherent.commit advanced (by rw [written.after]) written.ledger ?_
    intro integrated
    refine ⟨logged, written.after, ?_, ?_⟩
    · rw [written.before]
      intro already
      have ongoing := written.ongoing
      simp [terminalEntry, already] at ongoing
    · intro repository member
      have proven : provenSha repository ≠ none := by
        cases cause with
        | prepared repositories queued => cases integrated
        | verification result prepared =>
          unfold verificationTransition at integrated
          split at integrated <;> cases integrated
        | unchanged verified nothing =>
          change repository ∈ entry.repositories at member
          rw [nothing] at member
          cases member
        | published n work publication verified answered applied =>
          exact proves n work entry.repositories publication answered applied repository member
        | failed ongoing => cases integrated
        | reconciled repositories ongoing => cases integrated
      obtain ⟨move, inMoves, same⟩ := covered repository member proven
      exact ⟨move, inMoves, (advanced.owner move inMoves).1, same, advanced.applied move inMoves⟩
  · rename_i still
    have unmoved : [] = commit.moves ∧ w.db.branches = db.branches := by simpa using branches
    have advanced : Advanced entry.runId commit.after.repositories w.db.branches commit.moves
        db.branches := by
      rw [← unmoved.1, ← unmoved.2]
      exact ⟨Moves.done _, by simp, by simp⟩
    refine coherent.commit advanced rfl written.ledger ?_
    exact fun integrated => absurd (Or.inl integrated) still

theorem Coherent.resolve {entry : TaskIntegrationLedgerEntry} {moves : List BranchMove}
    {repositories : List TaskIntegrationRepository} {gates : Option IntegrationGates}
    (coherent : Coherent w) (waiting : entry.lifecycle = .reconciliationRequired)
    (ledger : db.ledger = w.db.ledger.upsert (resolvedEntry entry repositories))
    (branches : resolveBranches entry.runId repositories w.db.branches = .ok (moves, db.branches)) :
    Coherent { w with
      db := db
      log := w.log ++ [.committed ⟨entry, resolvedEntry entry repositories, moves, gates⟩] } := by
  obtain ⟨advanced, covered⟩ := resolveBranches_ok branches
  refine coherent.commit advanced rfl ledger fun _ => ⟨?_, rfl, ?_, ?_⟩
  · simp [commits, Event.commit]
  · rw [waiting]
    rintro ⟨⟩
  · intro repository member
    obtain ⟨move, inMoves, same⟩ := covered repository member
    exact ⟨move, inMoves, (advanced.owner move inMoves).1, same, advanced.applied move inMoves⟩

theorem Coherent.logged {event : Event} (coherent : Coherent w) (other : event.commit = none) :
    Coherent { w with log := w.log ++ [event] } := by
  have same : commits (w.log ++ [event]) = commits w.log := by
    simp [commits, other]
  have sameMoves : logMoves (w.log ++ [event]) = logMoves w.log := by
    rw [logMoves, same, logMoves]
  refine ⟨?_, ?_, ?_, ?_⟩
  · intro entry member lifecycle
    obtain ⟨commit, integrated⟩ := coherent.integrated entry member lifecycle
    exact ⟨commit, integrated.mono⟩
  · intro branch member
    obtain ⟨created, logged, sameKey, chain⟩ := coherent.chained branch member
    refine ⟨created, List.mem_append_left _ logged, sameKey, ?_⟩
    rw [sameMoves]
    exact chain
  · rw [same]
    exact coherent.moves
  · rw [sameMoves]
    exact coherent.created

theorem Coherent.initialize {input : EpicBranchObservation} (coherent : Coherent w)
    (fresh : (input.runId, input.repositoryId) ∉ w.db.branches.keys) :
    Coherent { w with
      db := { w.db with branches := w.db.branches.upsert (initialBranch input) }
      log := w.log ++ [.initialized (initialBranch input)] } := by
  have logged : Coherent { w with log := w.log ++ [.initialized (initialBranch input)] } :=
    coherent.logged rfl
  refine ⟨logged.integrated, ?_, logged.moves, ?_⟩
  · intro branch member
    rcases Table.mem_upsert.mp member with rfl | ⟨before, -⟩
    · refine ⟨initialBranch input, List.mem_append_right _ List.mem_cons_self, rfl, ?_⟩
      have unmoved : movesOf (input.runId, input.repositoryId)
          (logMoves (w.log ++ [.initialized (initialBranch input)])) = [] := by
        refine List.filter_eq_nil_iff.mpr ?_
        intro move inMoves
        simp only [decide_eq_true_eq]
        exact fun same => fresh (same ▸ logged.created move inMoves)
      change Chain _ (movesOf (input.runId, input.repositoryId) _) _
      rw [unmoved]
      rfl
    · exact logged.chained branch before
  · intro move inMoves
    exact Table.mem_keys_upsert.mpr (Or.inl (logged.created move inMoves))

theorem Coherent.drift {input : EpicBranchObservation} {existing : EpicRepositoryBranch}
    (coherent : Coherent w)
    (found : w.db.branches.find? (input.runId, input.repositoryId) = some existing) :
    Coherent { w with
      db := { w.db with branches := w.db.branches.upsert (driftedBranch existing input) } } := by
  refine ⟨coherent.integrated, ?_, coherent.moves, ?_⟩
  · intro branch member
    rcases Table.mem_upsert.mp member with rfl | ⟨before, -⟩
    · exact coherent.chained existing (Table.mem_of_find? found)
    · exact coherent.chained branch before
  · intro move inMoves
    exact Table.mem_keys_upsert.mpr (Or.inl (coherent.created move inMoves))

theorem coherent_step {order : List TaskDispatchRecord} {w' : World}
    (proves : ProvesPublications driver) (step : Step driver order w w') (coherent : Coherent w) :
    Coherent w' := by
  cases step with
  | called => exact ⟨coherent.integrated, coherent.chained, coherent.moves, coherent.created⟩
  | initialized input fresh => exact coherent.initialize fresh
  | drifted input existing found => exact coherent.drift found
  | ordered => exact coherent.logged rfl
  | enqueued item entry db listed accepted =>
    rcases enqueue_ok accepted with ⟨-, rfl⟩ | ⟨-, -, rfl⟩
    · exact coherent
    · refine ⟨?_, coherent.chained, coherent.moves, coherent.created⟩
      intro entry member lifecycle
      rcases Table.mem_upsert.mp member with rfl | ⟨before, -⟩
      · cases lifecycle
      · exact coherent.integrated entry before lifecycle
  | refused item error listed failed => exact coherent.logged rfl
  | noted db tasks branches ledger =>
    exact ⟨ledger ▸ coherent.integrated, branches ▸ coherent.chained, coherent.moves,
      branches ▸ coherent.created⟩
  | published entry repositories member ready earlier => exact coherent.logged rfl
  | transitioned entry input commit db member cause wrote =>
    exact coherent.transition proves cause (writeTransition_ok wrote)
  | resolved entry moves db member waiting complete ledger branches tasks =>
    exact coherent.resolve waiting ledger branches

theorem coherent_start : Coherent start where
  integrated := fun _ member => absurd member List.not_mem_nil
  chained := fun _ member => absurd member List.not_mem_nil
  moves := fun _ member => absurd member List.not_mem_nil
  created := fun _ member => absurd member List.not_mem_nil

end Steps

/-- In every run of a driver that proves its publications, an integrated entry moved the branch
of each of its repositories to the candidate, and the moves of a branch form a chain. -/
theorem integrated_applied [Collation] (driver : TaskIntegrationDriver)
    (proves : ProvesPublications driver) (acts : List Act) :
    Applied (runFrom driver start acts) := by
  have run : Coherent (runFrom driver start acts) := by
    refine runFrom_invariant ?_ ?_ coherent_start acts
    · exact fun _ _ _ step coherent => coherent_step proves step coherent
    · exact fun w rows coherent =>
        ⟨coherent.integrated, coherent.chained, coherent.moves, coherent.created⟩
  exact run.applied

theorem integrated_applied_sample :
    ProvesPublications (sampleDriver true) ∧
      Applied (@runFrom plainCollation (sampleDriver true) start sampleActs) := by
  have proves : ProvesPublications (sampleDriver true) := by
    rintro n work repositories publication ⟨rfl⟩ -
    decide +kernel
  exact ⟨proves, @integrated_applied plainCollation (sampleDriver true) proves sampleActs⟩

/-- A driver that reports a publication and leaves out the result. -/
def unprovenDriver : TaskIntegrationDriver :=
  { sampleDriver true with publish := fun _ _ _ => .ok ⟨.integrated, [candidate none none]⟩ }

def unprovenEntries : List TaskIntegrationLedgerEntry :=
  (@runFrom plainCollation unprovenDriver start sampleActs).db.ledger.rows

/-- An entry is integrated although its repository has no result. -/
theorem integrated_unapplied : ¬ ∀ [Collation] (driver : TaskIntegrationDriver) (acts : List Act),
    Applied (runFrom driver start acts) := by
  intro claim
  have applied : ∀ entry ∈ unprovenEntries, _ :=
    (@claim plainCollation unprovenDriver sampleActs).candidates
  have broken : ∃ entry ∈ unprovenEntries, entry.lifecycle = .integrated ∧
      ∃ repository ∈ entry.repositories, repository.resultSha ≠ repository.candidateSha := by
    decide +kernel
  obtain ⟨entry, member, lifecycle, repository, inEntry, different⟩ := broken
  exact different (applied entry member lifecycle repository inEntry).2

end Heniek.AppliedCandidates
