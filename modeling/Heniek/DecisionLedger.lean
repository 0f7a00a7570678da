import Heniek.DispatchOnce

/-!
The decision ledger. A decision id spells out the coordinates of a decision: its
stage, generation, ordinal and action. A tick records one decision for each
transition and drops one whose id it has already used, so two occurrences share
an entry when they agree in their coordinates. Only some actions can: the ones
that leave the coordinates of the stage as they are and may come again, such as
a start after a wait, and the ones that are no transition.

`Ledger` relates a log to the stages it is about: what is on record lies below
the coordinates of its stage, or at them and is spent in the stage's state.
-/

namespace Heniek.DecisionLedger
open KeyedTable PipelineVocabulary RecoveryPolicy SchedulerIds ScriptText
open SchedulerTick SchedulerSteps StageChanges SchedulerRun DispatchOnce FallibleRun

def mayRepeat : DecisionAction → Bool
  | .start | .wait | .proposeRecovery => true
  | .requestCancel | .selectEdge | .rejectEdge | .requestEvaluator | .terminal => true
  | _ => false

/-- The actions that record a transition or a rerun. -/
def moves : DecisionAction → Bool
  | .requestCancel | .selectEdge | .rejectEdge | .requestEvaluator | .terminal => false
  | _ => true

/-- The actions that may be on record at the coordinates of a stage in this state, those that may
repeat left aside. -/
def spent : StageState → DecisionAction → Bool
  | .pending, action => decide (action = .rerun)
  | .ready, action =>
    decide (action ∈ [.rerun, .release, .queue, .retry, .approveRecovery, .rearm])
  | .queued, action | .running, action | .waiting, action => decide (action = .queue)
  | .retrying, action => decide (action ∈ [.queue, .retry, .approveRecovery])
  | .succeeded, _ | .failed, _ | .cancelled, _ | .blocked, _ => true

/-- A move between states that keeps the coordinates: it spends an action that was not, or one
that may repeat. -/
structure Advances (repeats : DecisionAction → Bool) (spent : StageState → DecisionAction → Bool)
    (source target : StageState) (action : DecisionAction) : Prop where
  keeps : ∀ other, spent source other = true → spent target other = true
  spends : repeats action = true ∨ spent source action = false ∧ spent target action = true
  moves_eq : moves action = true

/-- Every move that the admitted observations and the phases make advances in the table. -/
structure Governs [Sha256] (repeats : DecisionAction → Bool)
    (spent : StageState → DecisionAction → Bool)
    (admits : TickContext → SchedulerObservation → Prop) : Prop where
  observed : ∀ {ctx stage observation toState reason options}, admits ctx observation →
    observation.stageId = some stage.stageId → ctx.stage? stage.stageId = some stage →
    ObservedCause ctx stage observation toState reason options →
      Advances repeats spent stage.state toState options.action
  recovered : ∀ {ctx stage observation decision counters toState reason options},
    RecoveryCause ctx stage observation decision counters toState reason options →
      Advances repeats spent stage.state toState options.action
  phased : ∀ {retrying ctx stage toState reason options},
    PhaseCause retrying ctx stage toState reason options →
      Advances repeats spent stage.state toState options.action
  reran : spent .pending .rerun = true
  queued : spent .queued .queue = true
  notes : ∀ action, moves action = false → repeats action = true

/-- The moves that keep the coordinates of a stage, with the action that each records. -/
def stageMoves : List (StageState × StageState × DecisionAction) :=
  [(.queued, .running, .start), (.waiting, .running, .start), (.running, .waiting, .wait),
    (.running, .succeeded, .succeed), (.waiting, .succeeded, .succeed),
    (.running, .failed, .fail), (.waiting, .failed, .fail),
    (.running, .retrying, .retry), (.waiting, .retrying, .retry),
    (.running, .blocked, .block), (.waiting, .blocked, .block), (.pending, .blocked, .block),
    (.running, .waiting, .proposeRecovery), (.waiting, .waiting, .proposeRecovery),
    (.waiting, .retrying, .approveRecovery), (.waiting, .failed, .rejectRecovery),
    (.queued, .cancelled, .cancel), (.running, .cancelled, .cancel),
    (.waiting, .cancelled, .cancel), (.pending, .cancelled, .cancel),
    (.ready, .cancelled, .cancel), (.retrying, .cancelled, .cancel),
    (.retrying, .ready, .rearm), (.pending, .ready, .release)]

theorem stageMoves_move : ∀ move ∈ stageMoves, moves move.2.2 = true := by
  decide

theorem stageMoves_advance : ∀ move ∈ stageMoves,
    Advances mayRepeat spent move.1 move.2.1 move.2.2 := by
  have keeps : ∀ other, ∀ move ∈ stageMoves,
      spent move.1 other = true → spent move.2.1 other = true := by
    intro other
    cases other <;> decide
  have spends : ∀ move ∈ stageMoves, mayRepeat move.2.2 = true ∨
      spent move.1 move.2.2 = false ∧ spent move.2.1 move.2.2 = true := by decide
  intro move listed
  exact ⟨fun other => keeps other move listed, spends move listed, stageMoves_move move listed⟩

section Causes

variable {ctx : TickContext} {stage : StageSnapshot} {toState : StageState}
variable {reason : TransitionReason} {options : TransitionOptions}

theorem observedCause_move {observation : SchedulerObservation}
    (cause : ObservedCause ctx stage observation toState reason options) :
    (stage.state, toState, options.action) ∈ stageMoves := by
  cases cause with
  | wait kind state =>
    simp [stageMoves, state]
  | settle kind state =>
    revert state
    cases stage.state <;> simp [stageMoves, StageState.inFlight]
  | start kind from_ | succeed kind from_ | retry _ kind from_ | fail _ kind from_ =>
    rcases from_ with state | state <;> simp [stageMoves, state]

theorem recoveryCause_move [Sha256] {observation : SchedulerObservation}
    {decision : RecoveryDecision} {counters : StageRecoveryCounters}
    (cause : RecoveryCause ctx stage observation decision counters toState reason options) :
    (stage.state, toState, options.action) ∈ stageMoves := by
  cases cause with
  | classified _ _ result _ _ executing _ _ _ keeps =>
    rw [keeps.action_eq]
    rcases executing with state | state <;> cases result.verdict <;>
      simp [stageMoves, state, verdictState, verdictAction]
  | approved _ _ _ _ _ state _ _ _ _ _ keeps | rejected _ _ _ state _ keeps =>
    simp [stageMoves, keeps.action_eq, state]

theorem phaseCause_move {retrying : List String}
    (cause : PhaseCause retrying ctx stage toState reason options) :
    (stage.state, toState, options.action) ∈ stageMoves := by
  cases cause with
  | cancelInactive stopping inactive =>
    revert inactive
    cases stage.state <;> simp [stageMoves, StageState.inactive]
  | rearm armed state going =>
    simp [stageMoves, state]
  | releaseRoot releasable | releaseReady releasable | releaseBlocked _ releasable
  | releaseDeselected releasable =>
    simp [stageMoves, releasable.pending]

theorem governs_spent [Sha256] (admits : TickContext → SchedulerObservation → Prop) :
    Governs mayRepeat spent admits where
  observed _ _ _ cause := stageMoves_advance _ (observedCause_move cause)
  recovered cause := stageMoves_advance _ (recoveryCause_move cause)
  phased cause := stageMoves_advance _ (phaseCause_move cause)
  reran := rfl
  queued := rfl
  notes action := by cases action <;> decide

end Causes

def decisionCoordinates (decision : SchedulerDecision) : ℕ ×ₗ ℕ :=
  toLex (decision.generation, decision.attemptOrdinal)

/-- The step records the decision, and lists it unless its id is taken. -/
structure Writes (ctx ctx' : TickContext) (decision : SchedulerDecision) : Prop where
  recorded_eq : ctx'.recorded = ctx.recorded ++ [decision]
  decisions_eq : ctx'.decisions =
    if ctx.decisions.any fun earlier => decide (earlier.decisionId = decision.decisionId) then
      ctx.decisions
    else ctx.decisions ++ [decision]
  id_eq : decision.decisionId = deriveDecisionId ctx.input.runId ctx.input.graphRevision
    decision.stageId decision.generation decision.attemptOrdinal decision.action

inductive Records (repeats : DecisionAction → Bool) (spent : StageState → DecisionAction → Bool)
    (ctx ctx' : TickContext) : Prop
  | silent (working_eq : ctx'.working = ctx.working)
      (transitions_eq : ctx'.transitions = ctx.transitions)
      (recorded_eq : ctx'.recorded = ctx.recorded) (decisions_eq : ctx'.decisions = ctx.decisions)
  | note (decision : SchedulerDecision) (writes : Writes ctx ctx' decision)
      (working_eq : ctx'.working = ctx.working)
      (transitions_eq : ctx'.transitions = ctx.transitions)
      (again : repeats decision.action = true) (still : moves decision.action = false)
      (from_eq : decision.fromState = none)
  | move (stage next : StageSnapshot) (decision : SchedulerDecision)
      (added : List StageTransition) (found : ctx.stage? stage.stageId = some stage)
      (working_eq : ctx'.working = ctx.working.upsert next)
      (transitions_eq : ctx'.transitions = ctx.transitions ++ added)
      (recorded : Recorded stage next added) (writes : Writes ctx ctx' decision)
      (next_eq : next.stageId = stage.stageId) (stageId_eq : decision.stageId = stage.stageId)
      (at_eq : decisionCoordinates decision = coordinates next)
      (from_eq : decision.fromState = some stage.state)
      (to_eq : decision.toState = some next.state) (moving : moves decision.action = true)
      (advances : coordinates stage < coordinates next ∧
          spent next.state decision.action = true ∨
        coordinates stage = coordinates next ∧
          Advances repeats spent stage.state next.state decision.action)

section Steps

variable [Sha256] {repeats : DecisionAction → Bool} {spent : StageState → DecisionAction → Bool}
variable {admits : TickContext → SchedulerObservation → Prop} {scope : Scope}
variable {ctx ctx' : TickContext}

theorem step_records (governs : Governs repeats spent admits) (step : Step admits scope ctx ctx') :
    Records repeats spent ctx ctx' := by
  cases step with
  | consume => exact .silent rfl rfl rfl rfl
  | cancelFlag => exact .silent rfl rfl rfl rfl
  | decideEdge observation key selected =>
    have still : moves (if selected = true then .selectEdge else .rejectEdge) = false := by
      cases selected <;> rfl
    exact .note _ ⟨rfl, rfl, rfl⟩ rfl rfl (governs.notes _ still) still rfl
  | touch stage found =>
    rcases touch_cases ctx stage with same | ⟨_, created⟩
    · rw [same]
      exact .silent rfl rfl rfl rfl
    · rw [created]
      exact .silent rfl rfl rfl rfl
  | requestCancel stage attemptId =>
    exact .note _ ⟨rfl, rfl, rfl⟩ rfl rfl (governs.notes _ rfl) rfl rfl
  | requestEvaluator edge profile question target =>
    exact .note _ ⟨rfl, rfl, rfl⟩ rfl rfl (governs.notes _ rfl) rfl rfl
  | observe stage observation toState reason options found admitted named cause =>
    have advances := governs.observed admitted named found cause
    exact .move stage _ _ _ found rfl rfl
      (.moved _ rfl rfl rfl rfl rfl (not_terminal_of_active (Or.inl (observedCause_source cause)))
        (observedCause_permitted cause))
      ⟨rfl, rfl, rfl⟩ rfl rfl rfl rfl rfl advances.moves_eq (Or.inr ⟨rfl, advances⟩)
  | recover stage observation decision counters toState reason options found admitted named cause =>
    have advances := governs.recovered cause
    exact .move stage _ _ _ found rfl rfl
      (.moved _ rfl rfl rfl rfl rfl (not_terminal_of_active (Or.inl (recoveryCause_source cause)))
        (recoveryCause_permitted cause))
      ⟨rfl, rfl, rfl⟩ rfl rfl rfl rfl rfl advances.moves_eq (Or.inr ⟨rfl, advances⟩)
  | phase stage toState reason options found cause =>
    have advances := governs.phased cause
    exact .move stage _ _ _ found rfl rfl
      (.moved _ rfl rfl rfl rfl rfl (not_terminal_of_active (Or.inr (phaseCause_source cause)))
        (phaseCause_permitted cause))
      ⟨rfl, rfl, rfl⟩ rfl rfl rfl rfl rfl advances.moves_eq (Or.inr ⟨rfl, advances⟩)
  | rerun origin observation stage admitted kind found eligible =>
    refine .move stage _ _ _ found rfl rfl (recorded_rerun ctx.input.now eligible)
      ⟨rfl, rfl, rfl⟩ rfl rfl rfl rfl rfl rfl (Or.inl ⟨?_, governs.reran⟩)
    rw [coordinates, coordinates, Prod.Lex.toLex_lt_toLex]
    exact Or.inl (Nat.lt_succ_self _)
  | queue stage definition found state selected going defined queues =>
    obtain ⟨base, options, settled, chosen, moved⟩ := queueMove_eq ctx stage definition
    have same : base.recorded = ctx.recorded ∧ base.decisions = ctx.decisions ∧
        base.input = ctx.input := by
      rcases settled with rfl | ⟨counters, rfl⟩ <;> exact ⟨rfl, rfl, rfl⟩
    obtain ⟨recorded_eq, decisions_eq, input_eq⟩ := same
    refine .move stage (queuedStage ctx stage)
      (decisionOf base
        { stageId := stage.stageId, action := .queue, reason := .dispatchIntent
          fromState := some stage.state, toState := some .queued
          attemptId := options.attemptId, intentId := options.intentId
          generation := stage.generation, attemptOrdinal := stage.attemptOrdinal + 1 })
      _ found (queueMove_working ctx stage definition)
      (queueMove_transitions ctx stage definition) ?_ ?_ rfl rfl rfl rfl rfl rfl
      (Or.inl ⟨?_, governs.queued⟩)
    · refine .moved _ rfl rfl rfl rfl rfl ?_ ?_ <;> rw [state] <;> rfl
    · rw [moved, chosen]
      refine ⟨?_, ?_, ?_⟩
      · rw [← recorded_eq]
        rfl
      · rw [← decisions_eq]
        rfl
      · rw [← input_eq]
        rfl
    · rw [coordinates, coordinates, Prod.Lex.toLex_lt_toLex]
      exact Or.inr ⟨rfl, Nat.lt_succ_self _⟩

end Steps

def Separate (repeats : DecisionAction → Bool) (earlier later : SchedulerDecision) : Prop :=
  repeats earlier.action = false →
    ¬ (earlier.stageId = later.stageId ∧
      decisionCoordinates earlier = decisionCoordinates later ∧ earlier.action = later.action)

/-- What is on record at the coordinates of a stage is spent, and nothing is there twice. -/
structure Ledger (repeats : DecisionAction → Bool) (spent : StageState → DecisionAction → Bool)
    (log : List SchedulerDecision) (working : Table StageSnapshot.stageId) : Prop where
  below : ∀ decision ∈ log, repeats decision.action = false →
    ∃ stage, working.find? decision.stageId = some stage ∧
      (decisionCoordinates decision < coordinates stage ∨
        decisionCoordinates decision = coordinates stage ∧
          spent stage.state decision.action = true)
  distinct : log.Pairwise (Separate repeats)

section Ledgers

variable {repeats : DecisionAction → Bool} {spent : StageState → DecisionAction → Bool}
variable {prior log : List SchedulerDecision} {ctx ctx' : TickContext}
variable {working : Table StageSnapshot.stageId}

theorem Ledger.of_find? {working' : Table StageSnapshot.stageId}
    (ledger : Ledger repeats spent log working)
    (same : ∀ id, working'.find? id = working.find? id) : Ledger repeats spent log working' := by
  refine ⟨?_, ledger.distinct⟩
  intro decision member once
  obtain ⟨stage, found, placed⟩ := ledger.below decision member once
  exact ⟨stage, by rw [same, found], placed⟩

theorem pairwise_concat {r : SchedulerDecision → SchedulerDecision → Prop}
    {decision : SchedulerDecision} (pairs : log.Pairwise r)
    (last : ∀ earlier ∈ log, r earlier decision) : (log ++ [decision]).Pairwise r := by
  rw [List.pairwise_append]
  exact ⟨pairs, List.pairwise_singleton r decision, by simpa using last⟩

theorem Ledger.note {decision : SchedulerDecision} (ledger : Ledger repeats spent log working)
    (again : repeats decision.action = true) :
    Ledger repeats spent (log ++ [decision]) working := by
  refine ⟨?_, pairwise_concat ledger.distinct ?_⟩
  · intro other member once
    rcases List.mem_append.mp member with earlier | new
    · exact ledger.below other earlier once
    · rw [List.mem_singleton.mp new, again] at once
      cases once
  · rintro earlier _ once ⟨_, _, same⟩
    rw [same, again] at once
    cases once

theorem Ledger.move {stage next : StageSnapshot} {decision : SchedulerDecision}
    (ledger : Ledger repeats spent log working) (found : working.find? stage.stageId = some stage)
    (next_eq : next.stageId = stage.stageId) (stageId_eq : decision.stageId = stage.stageId)
    (at_eq : decisionCoordinates decision = coordinates next)
    (advances : coordinates stage < coordinates next ∧
          spent next.state decision.action = true ∨
        coordinates stage = coordinates next ∧
          Advances repeats spent stage.state next.state decision.action) :
    Ledger repeats spent (log ++ [decision]) (working.upsert next) := by
  have moved : (working.upsert next).find? stage.stageId = some next := by
    rw [← next_eq, Table.find?_upsert_self]
  have placed : ∀ earlier ∈ log, repeats earlier.action = false →
      earlier.stageId = stage.stageId →
        decisionCoordinates earlier < coordinates stage ∨
          decisionCoordinates earlier = coordinates stage ∧
            spent stage.state earlier.action = true := by
    intro earlier member once here
    obtain ⟨other, located, place⟩ := ledger.below earlier member once
    rw [here, found] at located
    cases located
    exact place
  refine ⟨?_, pairwise_concat ledger.distinct ?_⟩
  · intro other member once
    rcases List.mem_append.mp member with earlier | new
    · by_cases here : other.stageId = stage.stageId
      · refine ⟨next, by rw [here]; exact moved, ?_⟩
        have place := placed other earlier once here
        rcases advances with ⟨raised, _⟩ | ⟨same, advances⟩
        · left
          rcases place with below | ⟨level, _⟩
          · exact below.trans raised
          · exact level.trans_lt raised
        · rw [← same]
          exact place.imp_right fun at_stage => ⟨at_stage.1, advances.keeps _ at_stage.2⟩
      · obtain ⟨kept, located, place⟩ := ledger.below other earlier once
        refine ⟨kept, ?_, place⟩
        rw [Table.find?_upsert_of_ne _ (by rw [next_eq]; exact here)]
        exact located
    · rw [List.mem_singleton.mp new] at once ⊢
      refine ⟨next, by rw [stageId_eq]; exact moved, Or.inr ⟨at_eq, ?_⟩⟩
      rcases advances with ⟨_, spends⟩ | ⟨_, advances⟩
      · exact spends
      · rcases advances.spends with again | ⟨_, spends⟩
        · rw [again] at once
          cases once
        · exact spends
  · rintro earlier member once ⟨sameStage, sameCoordinates, sameAction⟩
    have place := placed earlier member once (sameStage.trans stageId_eq)
    rw [sameCoordinates, at_eq, sameAction] at place
    rcases advances with ⟨raised, _⟩ | ⟨same, advances⟩
    · rcases place with below | ⟨level, _⟩
      · exact absurd below raised.asymm
      · exact absurd level raised.ne'
    · rcases place with below | ⟨_, already⟩
      · exact absurd same.symm below.ne
      · rcases advances.spends with again | ⟨fresh, _⟩
        · rw [sameAction, again] at once
          cases once
        · rw [already] at fresh
          cases fresh

theorem ledger_records (records : Records repeats spent ctx ctx')
    (ledger : Ledger repeats spent (prior ++ ctx.recorded) ctx.working) :
    Ledger repeats spent (prior ++ ctx'.recorded) ctx'.working := by
  cases records with
  | silent working_eq _ recorded_eq =>
    rw [working_eq, recorded_eq]
    exact ledger
  | note decision writes working_eq _ again =>
    rw [working_eq, writes.recorded_eq, ← List.append_assoc]
    exact ledger.note again
  | move stage next decision _ found working_eq _ _ writes next_eq
    stageId_eq at_eq _ _ _ advances =>
    rw [working_eq, writes.recorded_eq, ← List.append_assoc]
    exact ledger.move found next_eq stageId_eq at_eq advances

end Ledgers

/-- How the listed decisions of a tick stand to the recorded ones. -/
structure Kept (ctx : TickContext) : Prop where
  sublist : ctx.decisions.Sublist ctx.recorded
  listed : ∀ decision ∈ ctx.recorded, ∃ entry ∈ ctx.decisions,
    entry.decisionId = decision.decisionId
  distinct : (ctx.decisions.map SchedulerDecision.decisionId).Nodup
  derived : ∀ decision ∈ ctx.recorded, decision.decisionId = deriveDecisionId ctx.input.runId
    ctx.input.graphRevision decision.stageId decision.generation decision.attemptOrdinal
    decision.action
  labelled : ∀ decision ∈ ctx.recorded, decision.fromState.isSome = moves decision.action
  transitions : ∀ transition ∈ ctx.transitions, ∃ decision ∈ ctx.recorded,
    decision.stageId = transition.stageId ∧ decision.generation = transition.generation ∧
      decision.fromState = some transition.fromState ∧ decision.toState = some transition.toState

theorem Kept.writes {ctx ctx' : TickContext} {decision : SchedulerDecision} (kept : Kept ctx)
    (writes : Writes ctx ctx' decision) (input_eq : ctx'.input = ctx.input)
    (label : decision.fromState.isSome = moves decision.action)
    (transitions : ∀ transition ∈ ctx'.transitions, transition ∈ ctx.transitions ∨
      decision.stageId = transition.stageId ∧ decision.generation = transition.generation ∧
        decision.fromState = some transition.fromState ∧
        decision.toState = some transition.toState) : Kept ctx' := by
  obtain ⟨recorded_eq, decisions_eq, id_eq⟩ := writes
  have grows : ∀ entry ∈ ctx.decisions, entry ∈ ctx'.decisions := by
    intro entry member
    rw [decisions_eq]
    split
    · exact member
    · exact List.mem_append_left _ member
  constructor
  · rw [recorded_eq, decisions_eq]
    split
    · exact kept.sublist.trans (List.sublist_append_left _ _)
    · exact kept.sublist.append (List.Sublist.refl _)
  · rw [recorded_eq]
    intro other member
    rcases List.mem_append.mp member with earlier | new
    · obtain ⟨entry, listed, same⟩ := kept.listed other earlier
      exact ⟨entry, grows entry listed, same⟩
    · rw [List.mem_singleton.mp new, decisions_eq]
      split
      · rename_i taken
        obtain ⟨entry, listed, same⟩ := List.any_eq_true.mp taken
        exact ⟨entry, listed, of_decide_eq_true same⟩
      · exact ⟨decision, List.mem_append_right _ List.mem_cons_self, rfl⟩
  · rw [decisions_eq]
    split
    · exact kept.distinct
    · rename_i free
      rw [List.map_append, List.nodup_append]
      refine ⟨kept.distinct, by simp, ?_⟩
      intro id listed other last same
      obtain ⟨entry, member, rfl⟩ := List.mem_map.mp listed
      rw [List.map_singleton, List.mem_singleton] at last
      exact free (List.any_eq_true.mpr ⟨entry, member, decide_eq_true (same.trans last)⟩)
  · rw [recorded_eq, input_eq]
    intro other member
    rcases List.mem_append.mp member with earlier | new
    · exact kept.derived other earlier
    · rw [List.mem_singleton.mp new]
      exact id_eq
  · rw [recorded_eq]
    intro other member
    rcases List.mem_append.mp member with earlier | new
    · exact kept.labelled other earlier
    · rw [List.mem_singleton.mp new]
      exact label
  · rw [recorded_eq]
    intro transition member
    rcases transitions transition member with earlier | new
    · obtain ⟨entry, listed, same⟩ := kept.transitions transition earlier
      exact ⟨entry, List.mem_append_left _ listed, same⟩
    · exact ⟨decision, List.mem_append_right _ List.mem_cons_self, new⟩

theorem kept_records {repeats : DecisionAction → Bool} {spent : StageState → DecisionAction → Bool}
    {ctx ctx' : TickContext} (records : Records repeats spent ctx ctx')
    (input_eq : ctx'.input = ctx.input) (kept : Kept ctx) : Kept ctx' := by
  cases records with
  | silent _ transitions_eq recorded_eq decisions_eq =>
    obtain ⟨sublist, listed, distinct, derived, labelled, transitions⟩ := kept
    rw [← recorded_eq, ← decisions_eq] at sublist listed
    rw [← decisions_eq] at distinct
    rw [← recorded_eq, ← input_eq] at derived
    rw [← recorded_eq] at labelled
    rw [← recorded_eq, ← transitions_eq] at transitions
    exact ⟨sublist, listed, distinct, derived, labelled, transitions⟩
  | note decision writes _ transitions_eq _ still from_eq =>
    refine kept.writes writes input_eq (by rw [from_eq, still]; rfl) ?_
    rw [transitions_eq]
    exact fun _ => Or.inl
  | move stage next decision added _ _ transitions_eq recorded writes _ stageId_eq at_eq from_eq
      to_eq moving =>
      refine kept.writes writes input_eq (by rw [from_eq, moving]; rfl) ?_
      have generation_eq : decision.generation = next.generation :=
        congrArg (fun pair => (ofLex pair).1) at_eq
      rw [transitions_eq]
      intro transition member
      refine (List.mem_append.mp member).imp_right ?_
      intro new
      rw [stageId_eq, generation_eq, from_eq, to_eq]
      cases recorded with
      | moved made id_eq source_eq target_eq made_eq =>
        rw [List.mem_singleton.mp new]
        exact ⟨id_eq.symm, made_eq.symm, by rw [source_eq], by rw [target_eq]⟩
      | rerun made id_eq source_eq target_eq made_eq =>
        rw [List.mem_singleton.mp new]
        exact ⟨id_eq.symm, made_eq.symm, by rw [source_eq], by rw [target_eq]⟩
      | again => cases new

section Runs

variable [Sha256] {ticks : List TickRecord} {tick : TickRecord} {log : List SchedulerDecision}

/-- The occurrences of a run in order: what each of its ticks recorded. -/
inductive Log : List TickRecord → List SchedulerDecision → Prop
  | nil : Log [] []
  | cons (tick : TickRecord) (trace : Trace tick) (ticks : List TickRecord)
      (log : List SchedulerDecision) (rest : Log ticks log) :
      Log (tick :: ticks) (trace.final.recorded ++ log)

theorem final_records {repeats : DecisionAction → Bool}
    {spent : StageState → DecisionAction → Bool} (trace : Trace tick)
    (again : repeats .terminal = true) : Records repeats spent trace.settled trace.final := by
  rcases trace.final_eq with same | ⟨request, ⟨action_eq, from_eq⟩, same⟩
  · rw [same]
    exact .silent rfl rfl rfl rfl
  · rw [same]
    refine .note _ ⟨rfl, rfl, rfl⟩ rfl rfl ?_ ?_ from_eq
    · change repeats request.action = true
      rw [action_eq]
      exact again
    · change moves request.action = false
      rw [action_eq]
      rfl

section Tables

variable {repeats : DecisionAction → Bool} {spent : StageState → DecisionAction → Bool}
variable {admits : TickContext → SchedulerObservation → Prop} {prior : List SchedulerDecision}

theorem tick_ledger (governs : Governs repeats spent admits) (trace : Trace tick)
    (steps : Steps admits (tickScope trace.start) trace.start trace.settled)
    (ledger : Ledger repeats spent prior trace.start.working) :
    Ledger repeats spent (prior ++ trace.final.recorded) trace.final.working := by
  have fresh : trace.start.recorded = [] :=
    (createTickContext_eq_ok trace.created).2.2.2.2.2.2.2.2.2
  refine ledger_records (final_records trace (governs.notes _ rfl)) ?_
  refine steps_invariant
    (P := fun ctx => Ledger repeats spent (prior ++ ctx.recorded) ctx.working) ?_ ?_ steps
  · intro before after ledger step
    exact ledger_records (step_records governs step) ledger
  · rw [fresh, List.append_nil]
    exact ledger

/-- Whatever was on record before a run, its log adds no second decision that may not repeat. -/
theorem log_distinct (run : Run ticks) (logged : Log ticks log)
    (governed : ∀ tick ∈ ticks, ∀ trace : Trace tick, ∃ admits, Governs repeats spent admits ∧
      Steps admits (tickScope trace.start) trace.start trace.settled)
    (opened : ∀ tick ∈ ticks.head?, ∀ trace : Trace tick,
      Ledger repeats spent prior trace.start.working)
    (distinct : prior.Pairwise (Separate repeats)) :
    (prior ++ log).Pairwise (Separate repeats) := by
  induction logged generalizing prior with
  | nil => simpa using distinct
  | cons tick trace ticks log rest ih =>
    obtain ⟨admits, governs, steps⟩ := governed tick List.mem_cons_self trace
    have ledger := tick_ledger governs trace steps (opened tick rfl trace)
    rw [← List.append_assoc]
    refine ih run.tail ?_ ?_ ledger.distinct
    · exact fun other member => governed other (List.mem_cons_of_mem tick member)
    · intro next head later
      cases ticks with
      | nil => cases head
      | cons following others =>
        cases head
        have follows : Follows tick next := (List.isChain_cons_cons.mp run.chained).1
        exact ledger.of_find? (trace.start_find? later follows)

end Tables

theorem tick_kept (trace : Trace tick) : Kept trace.final := by
  obtain ⟨_, _, _, _, _, transitions, decisions, _, _, recorded⟩ :=
    createTickContext_eq_ok trace.created
  have steps := trace.free_steps
  have settled : Kept trace.settled := by
    refine steps_invariant (P := Kept) ?_ ?_ steps
    · intro before after kept step
      exact kept_records (step_records (governs_spent _) step) (step_input step) kept
    · constructor <;> simp [transitions, decisions, recorded]
  have last : Records mayRepeat spent trace.settled trace.final := final_records trace rfl
  exact kept_records last
    (trace.final_input.trans (steps_input steps).symm) settled

theorem exists_log (run : Run ticks) : ∃ log, Log ticks log := by
  induction ticks with
  | nil => exact ⟨[], .nil⟩
  | cons tick ticks ih =>
    obtain ⟨trace⟩ := (run.ticked tick List.mem_cons_self).trace
    obtain ⟨log, rest⟩ := ih run.tail
    exact ⟨_, .cons tick trace ticks log rest⟩

theorem Log.mem (logged : Log ticks log) {decision : SchedulerDecision} (member : decision ∈ log) :
    ∃ tick ∈ ticks, ∃ trace : Trace tick, decision ∈ trace.final.recorded := by
  induction logged with
  | nil => cases member
  | cons tick trace ticks log rest ih =>
    rcases List.mem_append.mp member with here | later
    · exact ⟨tick, List.mem_cons_self, trace, here⟩
    · obtain ⟨other, listed, found⟩ := ih later
      exact ⟨other, List.mem_cons_of_mem tick listed, found⟩

theorem recorded_of_listed (trace : Trace tick) {decision : SchedulerDecision}
    (listed : decision ∈ tick.plan.decisions) : decision ∈ trace.final.recorded := by
  rw [trace.decisions_eq, sortDecisions, List.mem_insertionSort] at listed
  exact (tick_kept trace).sublist.subset listed

theorem Log.listed_mem (logged : Log ticks log) (member : tick ∈ ticks)
    {decision : SchedulerDecision} (listed : decision ∈ tick.plan.decisions) : decision ∈ log := by
  induction logged with
  | nil => cases member
  | cons first trace ticks log rest ih =>
    rcases List.mem_cons.mp member with rfl | later
    · exact List.mem_append_left _ (recorded_of_listed trace listed)
    · exact List.mem_append_right _ (ih later)

/-- The ids of a log: they spell out the coordinates, repeat for some actions only, and tell
transitions from the other decisions. -/
structure Separates (log : List SchedulerDecision) : Prop where
  coordinates : ∀ a ∈ log, ∀ b ∈ log, a.decisionId = b.decisionId ↔
    a.stageId = b.stageId ∧ a.generation = b.generation ∧
      a.attemptOrdinal = b.attemptOrdinal ∧ a.action = b.action
  repeats : log.Pairwise fun a b => a.decisionId = b.decisionId → mayRepeat a.action = true
  kinds : ∀ a ∈ log, ∀ b ∈ log, a.fromState ≠ none → b.fromState = none →
    a.decisionId ≠ b.decisionId

theorem log_separates (run : Run ticks) (logged : Log ticks log) : Separates log := by
  have derived : ∀ decision ∈ log, ∀ tick ∈ ticks, decision.decisionId =
      deriveDecisionId tick.input.runId tick.input.graphRevision decision.stageId
        decision.generation decision.attemptOrdinal decision.action := by
    intro decision member tick listed
    obtain ⟨other, present, trace, recorded⟩ := logged.mem member
    obtain ⟨runs, revisions, _⟩ := run.constant present listed
    obtain ⟨startRun, startRevision, _⟩ := trace.start_ids
    have same := (tick_kept trace).derived decision recorded
    rw [trace.final_input, startRun, startRevision, runs, revisions] at same
    exact same
  have ids : ∀ a ∈ log, ∀ b ∈ log, a.decisionId = b.decisionId → a.stageId = b.stageId ∧
      a.generation = b.generation ∧ a.attemptOrdinal = b.attemptOrdinal ∧ a.action = b.action := by
    intro a memberA b memberB same
    obtain ⟨tick, listed, _⟩ := logged.mem memberA
    rw [derived a memberA tick listed, derived b memberB tick listed] at same
    exact deriveDecisionId_inj same
  refine ⟨?_, ?_, ?_⟩
  · intro a memberA b memberB
    refine ⟨ids a memberA b memberB, ?_⟩
    rintro ⟨stages, generations, ordinals, actions⟩
    obtain ⟨tick, listed, _⟩ := logged.mem memberA
    rw [derived a memberA tick listed, derived b memberB tick listed, stages, generations, ordinals,
      actions]
  · have governed : ∀ tick ∈ ticks, ∀ trace : Trace tick, ∃ admits,
        Governs mayRepeat spent admits ∧
          Steps admits (tickScope trace.start) trace.start trace.settled :=
      fun _ _ trace => ⟨fun _ _ => True, governs_spent _, trace.free_steps⟩
    have distinct := log_distinct run logged governed (fun _ _ _ => ⟨by simp, .nil⟩) .nil
    refine distinct.imp_of_mem ?_
    intro a b memberA memberB separate same
    obtain ⟨stages, generations, ordinals, actions⟩ := ids a memberA b memberB same
    by_contra once
    refine separate (Bool.eq_false_iff.mpr once) ⟨stages, ?_, actions⟩
    rw [decisionCoordinates, decisionCoordinates, generations, ordinals]
  · intro a memberA b memberB moved still same
    obtain ⟨_, _, _, actions⟩ := ids a memberA b memberB same
    obtain ⟨_, _, traceA, recordedA⟩ := logged.mem memberA
    obtain ⟨_, _, traceB, recordedB⟩ := logged.mem memberB
    have labelA := (tick_kept traceA).labelled a recordedA
    have labelB := (tick_kept traceB).labelled b recordedB
    rw [actions, ← labelB, still] at labelA
    exact moved (by simpa using labelA)

/-- Each occurrence of a tick has an entry in the plan, and so has each transition. -/
structure Listed (plan : SchedulerPlan) (recorded : List SchedulerDecision) : Prop where
  listed : ∀ decision ∈ recorded, ∃ entry ∈ plan.decisions, entry.decisionId = decision.decisionId
  distinct : (plan.decisions.map SchedulerDecision.decisionId).Nodup
  transitions : ∀ transition ∈ plan.transitions, ∃ decision ∈ recorded,
    decision.stageId = transition.stageId ∧ decision.generation = transition.generation ∧
      decision.fromState = some transition.fromState ∧ decision.toState = some transition.toState

theorem tick_listed (trace : Trace tick) : Listed tick.plan trace.final.recorded := by
  have kept := tick_kept trace
  have perm : tick.plan.decisions.Perm trace.final.decisions := by
    rw [trace.decisions_eq]
    exact List.perm_insertionSort _ _
  refine ⟨?_, ?_, ?_⟩
  · intro decision member
    obtain ⟨entry, listed, same⟩ := kept.listed decision member
    exact ⟨entry, perm.mem_iff.mpr listed, same⟩
  · exact (perm.map _).nodup_iff.mpr kept.distinct
  · rw [trace.transitions_eq]
    exact kept.transitions

/-- A later plan's decisions meet the ids of an earlier one for the repeating actions only. -/
def CollidesOnlyRepeating (earlier later : TickRecord) : Prop :=
  ∀ a ∈ earlier.plan.decisions, ∀ b ∈ later.plan.decisions, a.decisionId = b.decisionId →
    mayRepeat a.action = true

theorem plans_pairwise {r : SchedulerDecision → SchedulerDecision → Prop}
    (logged : Log ticks log) (pairs : log.Pairwise r) :
    ticks.Pairwise fun earlier later =>
      ∀ a ∈ earlier.plan.decisions, ∀ b ∈ later.plan.decisions, r a b := by
  induction logged with
  | nil => exact .nil
  | cons tick trace ticks log rest ih =>
    rw [List.pairwise_append] at pairs
    obtain ⟨_, later, across⟩ := pairs
    refine List.pairwise_cons.mpr ⟨?_, ih later⟩
    intro other member a listedA b listedB
    exact across a (recorded_of_listed trace listedA) b (rest.listed_mem member listedB)

theorem plans_collideOnlyRepeating (run : Run ticks) : ticks.Pairwise CollidesOnlyRepeating := by
  obtain ⟨log, logged⟩ := exists_log run
  exact plans_pairwise logged (log_separates run logged).repeats

/-- Over every run, occurrences share a ledger entry exactly when they agree in stage, generation,
ordinal and action, which only the repeating actions do. -/
theorem ledger_separates (run : Run ticks) :
    (∀ log, Log ticks log → Separates log) ∧
      (∀ tick ∈ ticks, ∀ trace : Trace tick, Listed tick.plan trace.final.recorded) ∧
      ticks.Pairwise CollidesOnlyRepeating :=
  ⟨fun _ => log_separates run, fun _ _ => tick_listed, plans_collideOnlyRepeating run⟩

end Runs

end Heniek.DecisionLedger
