import Heniek.EvaluatorDecisions
import Heniek.CancellationRuns
import Heniek.StaleObservations

/-!
Runs whose decisions all have an entry of their own. A transition comes back at the
coordinates it has on record when a waiting attempt is started again, or when a second
recovery is proposed for one attempt; the other decisions come back when an answer, a
request or an outcome that is on record is given again.

`Afresh` says of a tick and the ledger it finds that none of this happens. Then no
transition of the run shares its id with another decision, and no plan brings an id
that an earlier plan has brought.
-/

namespace Heniek.FreshDecisions
open KeyedTable PipelineVocabulary PipelineDocument RecoveryPolicy SchedulerIds
open SchedulerTick SchedulerSteps StageChanges SchedulerRun DecisionLedger
open EvaluatorDecisions CancellationRuns FallibleRun
open StaleObservations (handled_single)

/-- A second proposal for one attempt, and what is no transition, are left to the ledger. -/
def leftOpen (action : DecisionAction) : Bool :=
  !moves action || decide (action = .proposeRecovery)

/-- The transitions that may be on record at the coordinates of a stage in this state when no
waiting attempt is started. -/
def made : StageState → DecisionAction → Bool
  | .pending, action => decide (action = .rerun)
  | .ready, action => decide (action ∉ [.succeed, .fail, .cancel, .block, .rejectRecovery])
  | .queued, action => decide (action = .queue)
  | .running, action => decide (action ∈ [.queue, .start])
  | .waiting, action => decide (action ∈ [.queue, .start, .wait])
  | .retrying, action => decide (action ∈ [.queue, .start, .wait, .retry, .approveRecovery])
  | .succeeded, _ | .failed, _ | .cancelled, _ | .blocked, _ => true

theorem stageMoves_made : ∀ move ∈ stageMoves, move ≠ (.waiting, .running, .start) →
    Advances leftOpen made move.1 move.2.1 move.2.2 := by
  have keeps : ∀ other, ∀ move ∈ stageMoves, move ≠ (.waiting, .running, .start) →
      made move.1 other = true → made move.2.1 other = true := by
    intro other
    cases other <;> decide
  have spends : ∀ move ∈ stageMoves, move ≠ (.waiting, .running, .start) →
      leftOpen move.2.2 = true ∨
        made move.1 move.2.2 = false ∧ made move.2.1 move.2.2 = true := by decide
  intro move listed fresh
  exact ⟨fun other => keeps other move listed fresh, spends move listed fresh,
    stageMoves_move move listed⟩

theorem governs_made [Sha256] {admits : TickContext → SchedulerObservation → Prop}
    (resumes : ∀ ctx observation stage, admits ctx observation →
      observation.stageId = some stage.stageId → ctx.stage? stage.stageId = some stage →
        observation.kind = .attemptStarted → stage.state ≠ .waiting) :
    Governs leftOpen made admits where
  observed {_ stage _ _ _ _} admitted named found cause := by
    refine stageMoves_made _ (observedCause_move cause) ?_
    cases cause with
    | start kind state =>
      have other := resumes _ _ _ admitted named found kind
      simp [other]
    | _ => simp
  recovered cause := by
    refine stageMoves_made _ (recoveryCause_move cause) ?_
    cases cause with
    | classified _ _ result _ _ _ _ _ _ keeps =>
      rw [keeps.action_eq]
      cases result.verdict <;> simp [verdictAction]
    | approved _ _ _ _ _ _ _ _ _ _ _ keeps | rejected _ _ _ _ _ keeps =>
      simp [keeps.action_eq]
  phased cause := by
    refine stageMoves_made _ (phaseCause_move cause) ?_
    cases cause <;> simp
  reran := rfl
  queued := rfl
  notes action still := by rw [leftOpen, still]; rfl

structure Proposes [Sha256] (ctx : TickContext) (observation : SchedulerObservation)
    (stage : StageSnapshot) (definition : PipelineStage) (failure : PipelineFailure) : Prop where
  kind : observation.kind = .attemptFailed
  named : observation.stageId = some stage.stageId
  found : ctx.stage? stage.stageId = some stage
  executing : Executing stage
  defined : (stagesById ctx.graph).find? stage.stageId = some definition
  classifies : resolveFailureFromObservation observation = some failure
  proposes : verdictAction
    (decideRecovery (recoveryInput ctx stage definition observation failure)).verdict =
      .proposeRecovery

def entryId (ctx : TickContext) (stage : StageSnapshot) (action : DecisionAction) : String :=
  deriveDecisionId ctx.input.runId ctx.input.graphRevision stage.stageId stage.generation
    stage.attemptOrdinal action

inductive Entry [Sha256] (admits : TickContext → SchedulerObservation → Prop) (scope : Scope)
    (ctx : TickContext) (decision : SchedulerDecision) : Prop
  | transition (moving : moves decision.action = true) (other : decision.action ≠ .proposeRecovery)
  | proposal (observation : SchedulerObservation) (stage : StageSnapshot)
      (definition : PipelineStage) (failure : PipelineFailure) (admitted : admits ctx observation)
      (proposes : Proposes ctx observation stage definition failure)
      (moving : moves decision.action = true)
      (id_eq : decision.decisionId = entryId ctx stage .proposeRecovery)
  | answer (observation : SchedulerObservation) (key : String) (selected : Bool)
      (admitted : admits ctx observation) (answers : Answers observation key selected)
      (still : moves decision.action = false)
      (id_eq : decision.decisionId = answerId ctx observation key selected)
  | cancel (stage : StageSnapshot) (found : ctx.stage? stage.stageId = some stage)
      (stopping : ctx.stopping = true) (active : stage.state.inFlight = true)
      (requests : scope.requests = true) (still : moves decision.action = false)
      (id_eq : decision.decisionId = entryId ctx stage .requestCancel)
  | ask (edge : PipelineEdge) (profile question : String) (target : StageSnapshot)
      (member : edge ∈ ctx.graph.edges) (asks : Asks ctx edge profile question target)
      (releasable : Releasable ctx target) (requests : scope.requests = true)
      (still : moves decision.action = false)
      (id_eq : decision.decisionId = entryId ctx target .requestEvaluator)

section Steps

variable [Sha256] {admits : TickContext → SchedulerObservation → Prop} {scope : Scope}
variable {ctx ctx' : TickContext}

theorem step_entry (step : Step admits scope ctx ctx') :
    ctx'.recorded = ctx.recorded ∨
      ∃ decision, ctx'.recorded = ctx.recorded ++ [decision] ∧ Entry admits scope ctx decision := by
  cases step with
  | consume => exact Or.inl rfl
  | cancelFlag => exact Or.inl rfl
  | touch stage found =>
    left
    rcases touch_cases ctx stage with same | ⟨_, created⟩
    · rw [same]
    · rw [created]
      rfl
  | decideEdge observation key selected admitted kind edge choice =>
    refine Or.inr ⟨_, rfl, .answer observation key selected admitted ⟨kind, edge, choice⟩ ?_ rfl⟩
    cases selected <;> rfl
  | requestCancel stage attemptId found stopping active requests =>
    exact Or.inr ⟨_, rfl, .cancel stage found stopping active requests rfl rfl⟩
  | requestEvaluator edge profile question target member asks releasable requests =>
    refine Or.inr ⟨_, rfl, .ask edge profile question target member asks releasable requests rfl ?_⟩
    rw [entryId, stageId_of_stage? asks.target]
    rfl
  | observe stage observation toState reason options found admitted named cause =>
    refine Or.inr ⟨_, rfl, .transition ?_ ?_⟩
    · cases cause <;> rfl
    · cases cause <;> exact fun same => by cases same
  | recover stage observation decision counters toState reason options found admitted named cause =>
    refine Or.inr ⟨_, rfl, ?_⟩
    have moving := stageMoves_move _ (recoveryCause_move cause)
    cases cause with
    | classified definition failure result _ kind executing defined classifies decided keeps =>
      by_cases proposed : verdictAction result.verdict = .proposeRecovery
      · have proposes : Proposes ctx observation stage definition failure :=
          ⟨kind, named, found, executing, defined, classifies, decided ▸ proposed⟩
        refine .proposal observation stage definition failure admitted proposes moving ?_
        rw [entryId, ← proposed, ← keeps.action_eq]
        rfl
      · refine .transition moving ?_
        change options.action ≠ _
        rw [keeps.action_eq]
        exact proposed
    | approved _ _ _ _ _ _ _ _ _ _ _ keeps =>
      refine .transition moving ?_
      change options.action ≠ _
      rw [keeps.action_eq]
      exact fun same => by cases same
    | rejected _ _ _ _ _ keeps =>
      refine .transition moving ?_
      change options.action ≠ _
      rw [keeps.action_eq]
      exact fun same => by cases same
  | phase stage toState reason options found cause =>
    refine Or.inr ⟨_, rfl, .transition ?_ ?_⟩
    · cases cause <;> rfl
    · cases cause <;> exact fun same => by cases same
  | rerun origin observation stage admitted kind found eligible =>
    exact Or.inr ⟨_, rfl, .transition rfl fun same => by cases same⟩
  | queue stage definition found state selected going defined queues =>
    obtain ⟨base, options, settled, chosen, moved⟩ := queueMove_eq ctx stage definition
    have same : base.recorded = ctx.recorded := by
      rcases settled with rfl | ⟨counters, rfl⟩ <;> rfl
    refine Or.inr ⟨_, by rw [moved, ← same]; rfl, .transition ?_ ?_⟩
    · change moves options.action = true
      rw [chosen]
      rfl
    · change options.action ≠ _
      rw [chosen]
      exact fun same => by cases same

theorem steps_entry (steps : Steps admits scope ctx ctx') {decision : SchedulerDecision}
    (member : decision ∈ ctx'.recorded) :
    decision ∈ ctx.recorded ∨
      ∃ mid, Steps admits scope ctx mid ∧ Entry admits scope mid decision := by
  induction steps with
  | refl => exact Or.inl member
  | tail before last ih =>
    rcases step_entry last with same | ⟨added, grown, entry⟩
    · exact ih (same ▸ member)
    · rw [grown] at member
      rcases List.mem_append.mp member with earlier | new
      · exact ih earlier
      · rw [List.mem_singleton.mp new]
        exact Or.inr ⟨_, before, entry⟩

end Steps

/-- Nothing that the tick would record is on record: no waiting attempt is started, and what it is
told, asks for or ends with is new to the ledger. -/
structure Afresh [Sha256] (ledger : List String) (tick : TickRecord) : Prop where
  resumed : ∀ ctx observation stage, Handled tick ctx observation →
    observation.stageId = some stage.stageId → ctx.stage? stage.stageId = some stage →
      observation.kind = .attemptStarted → stage.state ≠ .waiting
  proposed : ∀ ctx observation stage definition failure, Handled tick ctx observation →
    Proposes ctx observation stage definition failure →
      entryId ctx stage .proposeRecovery ∉
        ledger ++ ctx.recorded.map SchedulerDecision.decisionId
  answered : ∀ ctx observation key selected, Handled tick ctx observation →
    Answers observation key selected → answerId ctx observation key selected ∉ ledger
  cancelled : ∀ (trace : Trace tick) ctx stage, Releasing trace ctx → ctx.stopping = true →
    ctx.stage? stage.stageId = some stage → stage.state.inFlight = true →
      entryId ctx stage .requestCancel ∉ ledger
  asked : ∀ (trace : Trace tick) ctx edge profile question target, Releasing trace ctx →
    edge ∈ ctx.graph.edges → Asks ctx edge profile question target → Releasable ctx target →
      entryId ctx target .requestEvaluator ∉ ledger
  ended : ∀ (trace : Trace tick) terminal stageId,
    computeTerminal trace.settled = .ok (some terminal) →
    terminalStageId trace.settled.graph terminal = .ok stageId →
      deriveDecisionId trace.settled.input.runId trace.settled.input.graphRevision stageId 1 0
        .terminal ∉ ledger

def AfreshAlong [Sha256] : List String → List TickRecord → Prop
  | _, [] => True
  | ledger, tick :: rest => Afresh ledger tick ∧
      AfreshAlong (ledger ++ tick.plan.decisions.map SchedulerDecision.decisionId) rest

def Proposed (earlier later : SchedulerDecision) : Prop :=
  later.action = .proposeRecovery → earlier.decisionId ≠ later.decisionId

/-- Transitions share their ids with no other occurrence, each has an entry in its plan, and no
later plan brings an id again. -/
structure SeparateEntries [Sha256] (ticks : List TickRecord) : Prop where
  occurrences : ∀ log, Log ticks log → log.Pairwise fun earlier later =>
    earlier.fromState ≠ none ∨ later.fromState ≠ none → earlier.decisionId ≠ later.decisionId
  listed : ∀ tick ∈ ticks, ∀ trace : Trace tick, Listed tick.plan trace.final.recorded
  inserted : ticks.Pairwise fun earlier later => ∀ a ∈ earlier.plan.decisions,
    ∀ b ∈ later.plan.decisions, a.decisionId ≠ b.decisionId

section Ticks

variable [Sha256] {tick : TickRecord} {ledger : List String}

/-- The observation is handled in the context before it was consumed. -/
def Consumed (tick : TickRecord) (ctx : TickContext) (observation : SchedulerObservation) : Prop :=
  ∃ before, Handled tick before observation ∧ ctx = consumeObservation before observation

theorem consumed_steps (trace : Trace tick) :
    Steps (Consumed tick) (tickScope trace.start) trace.start trace.settled :=
  trace.steps_handled fun ctx _ handled => ⟨ctx, handled, rfl⟩

theorem Afresh.governs (afresh : Afresh ledger tick) :
    Governs leftOpen made (Consumed tick) := by
  refine governs_made ?_
  rintro ctx observation stage ⟨before, handled, rfl⟩ named found
  exact afresh.resumed before observation stage handled named found

theorem start_recorded (trace : Trace tick) : trace.start.recorded = [] :=
  (createTickContext_eq_ok trace.created).2.2.2.2.2.2.2.2.2

theorem Afresh.proposals (afresh : Afresh ledger tick) (trace : Trace tick)
    {prior : List SchedulerDecision} (known : ∀ decision ∈ prior, decision.decisionId ∈ ledger)
    (distinct : prior.Pairwise Proposed) : (prior ++ trace.final.recorded).Pairwise Proposed := by
  have settled : (prior ++ trace.settled.recorded).Pairwise Proposed := by
    refine steps_invariant (P := fun ctx => (prior ++ ctx.recorded).Pairwise Proposed) ?_ ?_
      (consumed_steps trace)
    · intro ctx ctx' pairs step
      rcases step_entry step with same | ⟨added, grown, entry⟩
      · rw [same]
        exact pairs
      rw [grown, ← List.append_assoc]
      refine pairwise_concat pairs fun earlier member proposal => ?_
      cases entry with
      | transition _ other => exact absurd proposal other
      | proposal observation stage definition failure admitted proposes _ id_eq =>
        obtain ⟨before, handled, rfl⟩ := admitted
        have fresh := afresh.proposed before observation stage definition failure handled
          ⟨proposes.kind, proposes.named, proposes.found, proposes.executing, proposes.defined,
            proposes.classifies, proposes.proposes⟩
        intro same
        refine fresh ?_
        rw [id_eq] at same
        have here : earlier.decisionId = entryId before stage .proposeRecovery := same
        rw [← here]
        rcases List.mem_append.mp member with old | recorded
        · exact List.mem_append_left _ (known earlier old)
        · exact List.mem_append_right _ (List.mem_map_of_mem recorded)
      | answer _ _ _ _ _ still =>
        rw [proposal] at still
        cases still
      | cancel _ _ _ _ _ still =>
        rw [proposal] at still
        cases still
      | ask _ _ _ _ _ _ _ _ still =>
        rw [proposal] at still
        cases still
    · rw [start_recorded, List.append_nil]
      exact distinct
  rcases trace.final_eq with same | ⟨request, ⟨action, _⟩, same⟩
  · rw [same]
    exact settled
  · have grown : trace.final.recorded =
        trace.settled.recorded ++ [decisionOf trace.settled request] := by rw [same]; rfl
    rw [grown, ← List.append_assoc]
    refine pairwise_concat settled fun earlier _ proposal => ?_
    have here : request.action = .proposeRecovery := proposal
    rw [action] at here
    cases here

theorem Afresh.notes (afresh : Afresh ledger tick) (trace : Trace tick)
    {decision : SchedulerDecision} (member : decision ∈ trace.final.recorded)
    (still : moves decision.action = false) : decision.decisionId ∉ ledger := by
  have settled : ∀ decision ∈ trace.settled.recorded, moves decision.action = false →
      decision.decisionId ∉ ledger := by
    intro decision member still
    obtain ⟨observed, processed, releasing⟩ := settled_releasing trace
    rcases steps_entry releasing member with early | ⟨mid, steps, entry⟩
    · have reading : Steps (Consumed tick) .reading trace.start observed := by
        refine observations_steps ?_ processed
        exact fun done observation rest mid split folded =>
          ⟨mid, ⟨trace, done, rest, start_observations trace ▸ split, folded⟩, rfl⟩
      rcases steps_entry reading early with none | ⟨mid, steps, entry⟩
      · rw [start_recorded] at none
        cases none
      cases entry with
      | transition moving =>
        rw [still] at moving
        cases moving
      | proposal _ _ _ _ _ _ moving =>
        rw [still] at moving
        cases moving
      | answer observation key selected admitted answers _ id_eq =>
        obtain ⟨before, handled, rfl⟩ := admitted
        rw [id_eq]
        exact afresh.answered before observation key selected handled answers
      | cancel _ _ _ _ requests => cases requests
      | ask _ _ _ _ _ _ _ requests => cases requests
    · have released : Releasing trace mid := ⟨observed, processed, steps⟩
      cases entry with
      | transition moving =>
        rw [still] at moving
        cases moving
      | proposal _ _ _ _ admitted => exact admitted.elim
      | answer _ _ _ admitted => exact admitted.elim
      | cancel stage found stopping active _ _ id_eq =>
        rw [id_eq]
        exact afresh.cancelled trace mid stage released stopping found active
      | ask edge profile question target member asks releasable _ _ id_eq =>
        rw [id_eq]
        exact afresh.asked trace mid edge profile question target released member asks releasable
  have recorded := trace.recorded
  cases outcome : tick.plan.terminal with
  | none =>
    rw [outcome] at recorded
    rw [← Except.ok.inj recorded] at member
    exact settled decision member still
  | some terminal =>
    have computed := trace.terminal_eq
    rw [outcome] at recorded computed
    obtain ⟨stageId, ends, done⟩ := bind_eq_ok.mp recorded
    rw [← Except.ok.inj done] at member
    rcases List.mem_append.mp member with earlier | last
    · exact settled decision earlier still
    · rw [List.mem_singleton.mp last]
      exact afresh.ended trace terminal stageId computed ends

variable {ticks : List TickRecord} {log : List SchedulerDecision}

theorem proposals_along (logged : Log ticks log) (along : AfreshAlong ledger ticks)
    {prior : List SchedulerDecision} (known : ∀ decision ∈ prior, decision.decisionId ∈ ledger)
    (distinct : prior.Pairwise Proposed) : (prior ++ log).Pairwise Proposed := by
  induction logged generalizing prior ledger with
  | nil => simpa using distinct
  | cons tick trace ticks log rest ih =>
    obtain ⟨afresh, later⟩ := along
    rw [← List.append_assoc]
    refine ih later ?_ (afresh.proposals trace known distinct)
    intro decision member
    rcases List.mem_append.mp member with earlier | recorded
    · exact List.mem_append_left _ (known decision earlier)
    · obtain ⟨entry, listed, same⟩ := (tick_listed trace).listed decision recorded
      rw [← same]
      exact List.mem_append_right _ (List.mem_map_of_mem listed)

theorem notes_along (run : Run ticks) (along : AfreshAlong ledger ticks) :
    (∀ tick ∈ ticks, ∀ b ∈ tick.plan.decisions, moves b.action = false →
      b.decisionId ∉ ledger) ∧
    ticks.Pairwise fun earlier later => ∀ a ∈ earlier.plan.decisions,
      ∀ b ∈ later.plan.decisions, moves b.action = false → a.decisionId ≠ b.decisionId := by
  induction ticks generalizing ledger with
  | nil => exact ⟨by simp, .nil⟩
  | cons tick ticks ih =>
    obtain ⟨afresh, later⟩ := along
    obtain ⟨apart, pairs⟩ := ih run.tail later
    refine ⟨?_, List.pairwise_cons.mpr ⟨?_, pairs⟩⟩
    · intro other member b listed still
      rcases List.mem_cons.mp member with rfl | after
      · obtain ⟨trace⟩ := (run.ticked other member).trace
        exact afresh.notes trace (recorded_of_listed trace listed) still
      · exact fun old => apart other after b listed still (List.mem_append_left _ old)
    · intro other member a listedA b listedB still same
      refine apart other member b listedB still (List.mem_append_right _ ?_)
      rw [← same]
      exact List.mem_map_of_mem listedA

theorem AfreshAlong.mem (along : AfreshAlong ledger ticks) (member : tick ∈ ticks) :
    ∃ ledger, Afresh ledger tick := by
  induction ticks generalizing ledger with
  | nil => cases member
  | cons first ticks ih =>
    rcases List.mem_cons.mp member with rfl | later
    · exact ⟨ledger, along.1⟩
    · exact ih along.2 later

theorem transitions_distinct (run : Run ticks) (logged : Log ticks log)
    (along : AfreshAlong [] ticks) : log.Pairwise fun earlier later =>
      moves later.action = true → earlier.decisionId ≠ later.decisionId := by
  have governed : ∀ tick ∈ ticks, ∀ trace : Trace tick, ∃ admits, Governs leftOpen made admits ∧
      Steps admits (tickScope trace.start) trace.start trace.settled := by
    intro tick member trace
    obtain ⟨_, afresh⟩ := along.mem member
    exact ⟨_, afresh.governs, consumed_steps trace⟩
  have separate : log.Pairwise (Separate leftOpen) :=
    log_distinct run logged governed (fun _ _ _ => ⟨by simp, .nil⟩) .nil
  have proposed : log.Pairwise Proposed :=
    proposals_along logged along (by simp) .nil
  refine (separate.and proposed).imp_of_mem ?_
  rintro earlier later memberA memberB ⟨apart, proposal⟩ moving same
  obtain ⟨stages, generations, ordinals, actions⟩ :=
    ((log_separates run logged).coordinates earlier memberA later memberB).mp same
  by_cases again : later.action = .proposeRecovery
  · exact proposal again same
  · refine apart ?_ ⟨stages, ?_, actions⟩
    · rw [leftOpen, actions, moving, decide_eq_false again]
      rfl
    · rw [decisionCoordinates, decisionCoordinates, generations, ordinals]

/-- A tick that hears of one attempt at most, which starts or waits, brings nothing again. -/
theorem Afresh.of_single (few : tick.input.observations.length ≤ 1)
    (kinds : ∀ observation ∈ tick.input.observations,
      observation.kind = .attemptStarted ∨ observation.kind = .attemptWaiting)
    (idle : ∀ observation ∈ tick.input.observations, observation.kind = .attemptStarted →
      ∀ stage ∈ (workingStages tick.input).rows, stage.state ≠ .waiting)
    (timely : ¬ pastDeadline tick.input)
    (plain : ∀ edge ∈ tick.input.graph.edges, edge.condition = none)
    (going : tick.plan.terminal = none) : Afresh ledger tick := by
  have handled : ∀ {ctx observation}, Handled tick ctx observation →
      observation ∈ tick.input.observations ∧ ∃ trace : Trace tick, ctx = trace.start := by
    intro ctx observation met
    cases single : tick.input.observations with
    | nil =>
      obtain ⟨trace, done, rest, split, _⟩ := met
      rw [start_observations, single] at split
      cases done <;> cases split
    | cons only others =>
      rw [single, List.length_cons] at few
      have none : others = [] := List.length_eq_zero_iff.mp (by omega)
      rw [none] at single ⊢
      obtain ⟨rfl, started⟩ := (handled_single single).mp met
      exact ⟨List.mem_cons_self, started⟩
  have never : ∀ {ctx observation}, Handled tick ctx observation → ∀ kind,
      kind ≠ .attemptStarted → kind ≠ .attemptWaiting → observation.kind ≠ kind := by
    intro ctx observation met kind started waiting same
    rcases kinds observation (handled met).1 with here | here
    · exact started (same.symm.trans here)
    · exact waiting (same.symm.trans here)
  have reading : ∀ (trace : Trace tick) {ctx}, Releasing trace ctx → ∃ observed,
      Steps (Consumed tick) .reading trace.start observed ∧
        Steps (fun _ _ => False) (tickScope trace.start) observed ctx := by
    rintro trace ctx ⟨observed, processed, steps⟩
    refine ⟨observed, observations_steps ?_ processed, steps⟩
    exact fun done observation rest mid split folded =>
      ⟨mid, ⟨trace, done, rest, start_observations trace ▸ split, folded⟩, rfl⟩
  constructor
  · intro ctx observation stage met named found kind
    obtain ⟨member, trace, rfl⟩ := handled met
    rw [trace.start_stage?] at found
    exact idle observation member kind stage (Table.mem_of_find? found)
  · intro ctx observation stage definition failure met proposes
    exact absurd proposes.kind (never met _ (by decide) (by decide))
  · intro ctx observation key selected met answers
    exact absurd answers.kind (never met _ (by decide) (by decide))
  · intro trace ctx stage releasing stopping
    obtain ⟨observed, before, after⟩ := reading trace releasing
    have still : observed.stopping = false := by
      refine steps_going before ?_ timely
      rintro _ observation ⟨mid, met, rfl⟩
      exact never met _ (by decide) (by decide)
    rw [TickContext.stopping, Bool.or_eq_false_iff] at still
    have lowered := steps_uncancelled after (fun _ _ none => none.elim) still.1
    rw [TickContext.stopping, lowered, steps_deadline after, still.2] at stopping
    cases stopping
  · intro trace ctx edge profile question target releasing member asks
    obtain ⟨observed, before, after⟩ := reading trace releasing
    have given : ctx.graph = tick.input.graph := by
      rw [TickContext.graph, steps_input after, steps_input before]
      exact trace.start_ids.2.2
    have none := plain edge (given ▸ member)
    rw [asks.condition] at none
    cases none
  · intro trace terminal stageId ends
    rw [trace.terminal_eq, going] at ends
    cases ends

theorem AfreshAlong.of_forall (fresh : ∀ tick ∈ ticks, ∀ ledger, Afresh ledger tick) :
    AfreshAlong ledger ticks := by
  induction ticks generalizing ledger with
  | nil => trivial
  | cons tick ticks ih =>
    exact ⟨fresh tick List.mem_cons_self ledger,
      ih fun other later => fresh other (List.mem_cons_of_mem tick later)⟩

end Ticks

def waitingTicks : List TickRecord :=
  @drive blankDigest
    [{ now := "t1", observations := [stageObservation "o1" "build" "t1" .attemptStarted] },
      { now := "t2", observations := [stageObservation "o2" "build" "t2" .attemptWaiting] }]
    (initialInput repairable "run" "pipeline" "t0")

def resumedTicks : List TickRecord :=
  @drive blankDigest
    [{ now := "t1", observations := [stageObservation "o1" "build" "t1" .attemptStarted] },
      { now := "t2", observations := [stageObservation "o2" "build" "t2" .attemptWaiting] },
      { now := "t3", observations := [stageObservation "o3" "build" "t3" .attemptStarted] }]
    (initialInput repairable "run" "pipeline" "t0")

end Heniek.FreshDecisions
