import Heniek.DecisionLedger
import Heniek.PipelineRunner

/-!
Evaluator decisions on their way into the store. A tick keeps the answers to its
evaluator edges in a map in which the last answer wins, and records each answer
as a decision of the edge's target stage; the store rebuilds its rows from these
decisions and keeps the row it has. The decision id names the target and not the
edge, and a tick drops a decision whose id it has already used. So an answer is
lost when an earlier one, about another edge into the same stage, took its id,
and row and map differ when two answers to one edge do.

`Separable` rules both out. Then every answer that a tick consumes has its
decision in the plan and its row in the store, with the selection the tick used.
-/

namespace Heniek.EvaluatorDecisions
open KeyedTable PipelineVocabulary PipelineDocument RecoveryPolicy SchedulerIds ScriptText
open SchedulerTick SchedulerSteps StageChanges SchedulerRun DecisionLedger FallibleRun
open PipelineStore PipelineRunner

structure Answers (observation : SchedulerObservation) (key : String) (selected : Bool) : Prop where
  kind : observation.kind = .evaluatorDecided
  edge : observation.edgeKey = some key
  choice : observation.selected = some selected

def edgeKeys (graph : PipelineGraph) : List String :=
  graph.edges.map fun edge => edgeKey edge.fromStageId edge.toStageId

def answerAction (selected : Bool) : DecisionAction := if selected then .selectEdge else .rejectEdge

def isAnswer (decision : SchedulerDecision) : Bool :=
  decide (decision.action = .selectEdge) || decide (decision.action = .rejectEdge)

def answerCoordinates (ctx : TickContext) (observation : SchedulerObservation) (key : String) :
    String × Nat × Nat :=
  let stage := ctx.stage? (decidedStageId key observation)
  (decidedStageId key observation, (stage.map StageSnapshot.generation).getD 1,
    (stage.map StageSnapshot.attemptOrdinal).getD 0)

def answerId (ctx : TickContext) (observation : SchedulerObservation) (key : String)
    (selected : Bool) : String :=
  deriveDecisionId ctx.input.runId ctx.input.graphRevision
    (answerCoordinates ctx observation key).1 (answerCoordinates ctx observation key).2.1
    (answerCoordinates ctx observation key).2.2 (answerAction selected)

structure RecordsAnswer (decision : SchedulerDecision) (key : String) (selected : Bool) : Prop where
  action_eq : decision.action = answerAction selected
  detail_eq : decision.detail = some key

variable {selected : Bool}

theorem isAnswer_answerAction {decision : SchedulerDecision}
    (same : decision.action = answerAction selected) : isAnswer decision = true := by
  rw [isAnswer, same]
  cases selected <;> rfl

theorem isAnswer_of_moves {decision : SchedulerDecision} (moving : moves decision.action = true) :
    isAnswer decision = false := by
  revert moving
  unfold isAnswer
  cases decision.action <;> decide

theorem answerAction_inj {selected' : Bool}
    (same : answerAction selected = answerAction selected') :
    selected = selected' := by
  revert same
  cases selected <;> cases selected' <;> decide

structure Unanswered (ctx ctx' : TickContext) : Prop where
  map_eq : ctx'.evaluatorDecisions = ctx.evaluatorDecisions
  grows : ∃ added, ctx'.decisions = ctx.decisions ++ added ∧
    ∀ decision ∈ added, isAnswer decision = false

theorem Unanswered.refl (ctx : TickContext) : Unanswered ctx ctx :=
  ⟨rfl, [], by simp, by simp⟩

theorem Unanswered.trans {first second third : TickContext} (left : Unanswered first second)
    (right : Unanswered second third) : Unanswered first third := by
  obtain ⟨added, grown, silent⟩ := left.grows
  obtain ⟨added', grown', silent'⟩ := right.grows
  refine ⟨right.map_eq.trans left.map_eq, added ++ added', ?_, ?_⟩
  · rw [grown', grown, List.append_assoc]
  · intro decision member
    rcases List.mem_append.mp member with earlier | later
    · exact silent decision earlier
    · exact silent' decision later

theorem Unanswered.mem {ctx ctx' : TickContext} (unanswered : Unanswered ctx ctx')
    {decision : SchedulerDecision} (answer : isAnswer decision = true) :
    decision ∈ ctx'.decisions ↔ decision ∈ ctx.decisions := by
  obtain ⟨added, grown, silent⟩ := unanswered.grows
  rw [grown, List.mem_append]
  constructor
  · rintro (earlier | new)
    · exact earlier
    · rw [silent decision new] at answer
      cases answer
  · exact Or.inl

theorem unanswered_of_same {ctx ctx' : TickContext}
    (map_eq : ctx'.evaluatorDecisions = ctx.evaluatorDecisions)
    (decisions_eq : ctx'.decisions = ctx.decisions) : Unanswered ctx ctx' :=
  ⟨map_eq, [], by rw [decisions_eq, List.append_nil], by simp⟩

theorem recordDecision_unanswered (ctx : TickContext) {request : DecisionRequest}
    (silent : isAnswer (decisionOf ctx request) = false) :
    Unanswered ctx (recordDecision ctx request) := by
  refine ⟨rfl, ?_⟩
  unfold recordDecision
  dsimp only
  split
  · exact ⟨[], by simp, by simp⟩
  · exact ⟨[decisionOf ctx request], rfl, by simpa using silent⟩

theorem moveStage_unanswered (ctx : TickContext) (stage : StageSnapshot) (toState : StageState)
    (reason : TransitionReason) {options : TransitionOptions}
    (moving : moves options.action = true) :
    Unanswered ctx (moveStage ctx stage toState reason options) := by
  refine (unanswered_of_same ?_ ?_).trans (recordDecision_unanswered _ (isAnswer_of_moves moving))
  · rfl
  · rfl

section Steps

variable [Sha256] {admits : TickContext → SchedulerObservation → Prop} {scope : Scope}
variable {ctx ctx' : TickContext}

theorem step_answers (step : Step admits scope ctx ctx') :
    (∃ observation key selected, admits ctx observation ∧ Answers observation key selected ∧
        ctx' = decideEdge ctx observation key selected) ∨ Unanswered ctx ctx' := by
  cases step with
  | decideEdge observation key selected admitted kind edge choice =>
    exact Or.inl ⟨observation, key, selected, admitted, ⟨kind, edge, choice⟩, rfl⟩
  | consume => exact Or.inr (unanswered_of_same rfl rfl)
  | cancelFlag => exact Or.inr (unanswered_of_same rfl rfl)
  | touch stage found =>
    right
    rcases touch_cases ctx stage with same | ⟨_, created⟩
    · rw [same]
      exact Unanswered.refl ctx
    · rw [created]
      exact unanswered_of_same rfl rfl
  | requestCancel stage attemptId =>
    right
    refine (unanswered_of_same ?_ ?_).trans (recordDecision_unanswered _ rfl)
    · rfl
    · rfl
  | requestEvaluator edge profile question target =>
    right
    refine (unanswered_of_same ?_ ?_).trans (recordDecision_unanswered _ rfl)
    · rfl
    · rfl
  | observe stage observation toState reason options found admitted named cause =>
    exact Or.inr (moveStage_unanswered ctx stage toState reason
      (stageMoves_move _ (observedCause_move cause)))
  | recover stage observation decision counters toState reason options found admitted named cause =>
    right
    refine (unanswered_of_same ?_ ?_).trans (moveStage_unanswered
      (withRecovery ctx stage decision counters) stage toState reason
      (stageMoves_move _ (recoveryCause_move cause)))
    · rfl
    · rfl
  | phase stage toState reason options found cause =>
    exact Or.inr (moveStage_unanswered ctx stage toState reason
      (stageMoves_move _ (phaseCause_move cause)))
  | rerun origin observation stage admitted kind found eligible =>
    right
    refine (unanswered_of_same ?_ ?_).trans (recordDecision_unanswered _ rfl)
    · rfl
    · rfl
  | queue stage definition =>
    right
    obtain ⟨base, options, settled, chosen, moved⟩ := queueMove_eq ctx stage definition
    rw [moved]
    refine (unanswered_of_same ?_ ?_).trans (moveStage_unanswered _ _ _ _ ?_)
    · rcases settled with rfl | ⟨counters, rfl⟩ <;> rfl
    · rcases settled with rfl | ⟨counters, rfl⟩ <;> rfl
    · rw [chosen]
      rfl

theorem steps_unanswered (steps : Steps admits scope ctx ctx')
    (none : ∀ ctx observation, admits ctx observation →
      ∀ key selected, ¬ Answers observation key selected) : Unanswered ctx ctx' := by
  induction steps with
  | refl => exact Unanswered.refl ctx
  | tail _ last ih =>
    rcases step_answers last with ⟨observation, key, selected, admitted, answers, _⟩ | unanswered
    · exact absurd answers (none _ observation admitted key selected)
    · exact ih.trans unanswered

theorem processObservation_answers {observation : SchedulerObservation}
    (processed : processObservation ctx observation = .ok ctx') :
    (∃ key selected, Answers observation key selected ∧
        ctx' = decideEdge (consumeObservation ctx observation) observation key selected) ∨
      (∀ key selected, ¬ Answers observation key selected) ∧ Unanswered ctx ctx' := by
  by_cases answers : ∃ key selected, Answers observation key selected
  · obtain ⟨key, selected, given⟩ := answers
    left
    refine ⟨key, selected, given, ?_⟩
    simp only [processObservation, given.kind, given.edge, given.choice] at processed
    exact (Except.ok.inj processed).symm
  · right
    have none : ∀ key selected, ¬ Answers observation key selected :=
      fun key selected given => answers ⟨key, selected, given⟩
    have steps : Steps (fun _ other => other = observation) .quiet ctx ctx' :=
      processObservation_steps rfl processed
    exact ⟨none, steps_unanswered steps fun _ other same key selected => same ▸ none key selected⟩

end Steps

theorem decideEdge_decisions (ctx : TickContext) (observation : SchedulerObservation)
    (key : String) (selected : Bool) :
    ∃ decision, RecordsAnswer decision key selected ∧
      decision.decisionId = answerId ctx observation key selected ∧
      (decideEdge ctx observation key selected).decisions =
        if ctx.decisions.any fun earlier => decide (earlier.decisionId = decision.decisionId) then
          ctx.decisions
        else ctx.decisions ++ [decision] :=
  ⟨_, ⟨rfl, rfl⟩, rfl, rfl⟩

theorem find?_decideEdge (ctx : TickContext) (observation : SchedulerObservation)
    (key other : String) (selected : Bool) :
    (decideEdge ctx observation key selected).evaluatorDecisions.find? other =
      if other = key then some ⟨key, selected⟩ else ctx.evaluatorDecisions.find? other :=
  Table.find?_upsert ctx.evaluatorDecisions ⟨key, selected⟩ other

section Answers

variable [Sha256] {start ctx ctx' : TickContext} {done : List SchedulerObservation}

def HandledIn (start : TickContext) (done : List SchedulerObservation) (mid : TickContext)
    (observation : SchedulerObservation) : Prop :=
  ∃ earlier later, done = earlier ++ observation :: later ∧
    earlier.foldlM processObservation start = .ok mid

variable {last : SchedulerObservation} {keys : List String}

theorem HandledIn.append {mid : TickContext} {observation : SchedulerObservation}
    (handled : HandledIn start done mid observation) :
    HandledIn start (done ++ [last]) mid observation := by
  obtain ⟨earlier, later, split, folded⟩ := handled
  exact ⟨earlier, later ++ [last], by rw [split]; simp, folded⟩

/-- Every decision about an edge records an answer that was handled. -/
def Sound (start : TickContext) (done : List SchedulerObservation) (ctx : TickContext) : Prop :=
  ∀ decision ∈ ctx.decisions, isAnswer decision = true →
    ∃ mid observation key selected, HandledIn start done mid observation ∧
      Answers observation key selected ∧ RecordsAnswer decision key selected ∧
      decision.decisionId = answerId mid observation key selected

theorem sound_fold (fresh : start.decisions = [])
    (folded : done.foldlM processObservation start = .ok ctx) : Sound start done ctx := by
  induction done using List.reverseRecOn generalizing ctx with
  | nil =>
    cases folded
    intro decision member
    rw [fresh] at member
    cases member
  | append_singleton done last ih =>
    obtain ⟨mid, before, processed⟩ := foldlM_concat_eq_ok.mp folded
    have sound := ih before
    have kept : ∀ decision ∈ mid.decisions, isAnswer decision = true →
        ∃ origin observation key selected, HandledIn start (done ++ [last]) origin observation ∧
          Answers observation key selected ∧ RecordsAnswer decision key selected ∧
          decision.decisionId = answerId origin observation key selected := by
      intro decision member answer
      obtain ⟨origin, observation, key, selected, handled, facts⟩ := sound decision member answer
      exact ⟨origin, observation, key, selected, handled.append, facts⟩
    intro decision member answer
    rcases processObservation_answers processed with ⟨key, selected, answers, rfl⟩ |
      ⟨_, unanswered⟩
    · obtain ⟨recorded, records, id, decisions⟩ :=
        decideEdge_decisions (consumeObservation mid last) last key selected
      rw [decisions] at member
      split at member
      · exact kept decision member answer
      · rcases List.mem_append.mp member with earlier | new
        · exact kept decision earlier answer
        · rw [List.mem_singleton.mp new]
          exact ⟨mid, last, key, selected, ⟨done, [], rfl, before⟩, answers, records, id⟩
    · exact kept decision ((unanswered.mem answer).mp member) answer

theorem fold_steps (folded : done.foldlM processObservation start = .ok ctx) :
    Steps (fun _ _ => True) .quiet start ctx :=
  observations_steps (fun _ _ _ _ _ _ => trivial) folded

/-- A context whose logs are still empty. -/
structure Fresh (start : TickContext) : Prop where
  transitions_eq : start.transitions = []
  decisions_eq : start.decisions = []
  recorded_eq : start.recorded = []

theorem kept_fold (fresh : Fresh start)
    (folded : done.foldlM processObservation start = .ok ctx) : Kept ctx := by
  refine steps_invariant (P := Kept) ?_ ?_ (fold_steps folded)
  · intro before after kept step
    exact kept_records (step_records (governs_spent _) step) (step_input step) kept
  · constructor <;> simp [fresh.transitions_eq, fresh.decisions_eq, fresh.recorded_eq]

/-- Two answers in order, each with the context it is handled in. -/
structure InOrder (start : TickContext) (observations : List SchedulerObservation)
    (ctx : TickContext) (first : SchedulerObservation) (ctx' : TickContext)
    (second : SchedulerObservation) : Prop where
  split : ∃ before between after,
    observations = before ++ first :: (between ++ second :: after) ∧
      before.foldlM processObservation start = .ok ctx ∧
      (before ++ first :: between).foldlM processObservation start = .ok ctx'

def DistinctAnswers (keys : List String) (start : TickContext)
    (observations : List SchedulerObservation) : Prop :=
  ∀ ctx first ctx' second key key' selected, InOrder start observations ctx first ctx' second →
    Answers first key selected → Answers second key' selected → key' ∈ keys →
    answerCoordinates ctx first key = answerCoordinates ctx' second key' → key = key'

def AgreeingAnswers (keys : List String) (observations : List SchedulerObservation) : Prop :=
  ∀ first ∈ observations, ∀ second ∈ observations, ∀ key selected selected',
    Answers first key selected → Answers second key selected' → key ∈ keys → selected = selected'

omit [Sha256] in
theorem answerId_inj {ctx ctx' : TickContext} {first second : SchedulerObservation}
    {key key' : String} {selected selected' : Bool} (input_eq : ctx.input = ctx'.input)
    (same : answerId ctx first key selected = answerId ctx' second key' selected') :
    answerCoordinates ctx first key = answerCoordinates ctx' second key' ∧
      selected = selected' := by
  unfold answerId at same
  rw [input_eq] at same
  obtain ⟨stages, generations, ordinals, actions⟩ := deriveDecisionId_inj same
  exact ⟨Prod.ext stages (Prod.ext generations ordinals), answerAction_inj actions⟩

theorem taken_records {mid : TickContext} {key : String} {selected : Bool}
    {decision : SchedulerDecision} (fresh : Fresh start)
    (distinct : DistinctAnswers keys start (done ++ [last]))
    (folded : done.foldlM processObservation start = .ok mid) (answers : Answers last key selected)
    (listed : key ∈ keys) (member : decision ∈ mid.decisions)
    (same : decision.decisionId = answerId mid last key selected) :
    RecordsAnswer decision key selected := by
  have kept := kept_fold fresh folded
  have derived := kept.derived decision (kept.sublist.subset member)
  have action : decision.action = answerAction selected := by
    rw [derived] at same
    exact (deriveDecisionId_inj same).2.2.2
  obtain ⟨origin, observation, other, chosen, handled, answered, records, id⟩ :=
    sound_fold fresh.decisions_eq folded decision member (isAnswer_answerAction action)
  obtain ⟨earlier, later, split, before⟩ := handled
  have inputs : origin.input = mid.input := by
    rw [steps_input (fold_steps before), steps_input (fold_steps folded)]
  obtain ⟨coordinates, rfl⟩ := answerId_inj inputs (id.symm.trans same)
  have ordered : InOrder start (done ++ [last]) origin observation mid last := by
    refine ⟨earlier, later, [], ?_, before, split ▸ folded⟩
    rw [split, List.append_assoc, List.cons_append]
  have keys_eq := distinct origin observation mid last other key chosen ordered answered answers
    listed coordinates
  exact ⟨records.action_eq, keys_eq ▸ records.detail_eq⟩

theorem DistinctAnswers.init (distinct : DistinctAnswers keys start (done ++ [last])) :
    DistinctAnswers keys start done := by
  intro ctx first ctx' second key key' selected ordered
  refine distinct ctx first ctx' second key key' selected ?_
  obtain ⟨before, between, after, split, folds⟩ := ordered.split
  exact ⟨before, between, after ++ [last], by rw [split]; simp, folds⟩

theorem listed_fold (fresh : Fresh start) (distinct : DistinctAnswers keys start done)
    (folded : done.foldlM processObservation start = .ok ctx) :
    ∀ observation ∈ done, ∀ key selected, Answers observation key selected → key ∈ keys →
      ∃ decision ∈ ctx.decisions, RecordsAnswer decision key selected := by
  induction done using List.reverseRecOn generalizing ctx with
  | nil => simp
  | append_singleton done last ih =>
    obtain ⟨mid, before, processed⟩ := foldlM_concat_eq_ok.mp folded
    have earlier := ih distinct.init before
    rcases processObservation_answers processed with ⟨decided, chosen, answers, rfl⟩ |
      ⟨none, unanswered⟩
    · obtain ⟨recorded, records, id, decisions⟩ :=
        decideEdge_decisions (consumeObservation mid last) last decided chosen
      have grows : ∀ decision ∈ mid.decisions, decision ∈ (decideEdge
          (consumeObservation mid last) last decided chosen).decisions := by
        intro decision member
        rw [decisions]
        split
        · exact member
        · exact List.mem_append_left _ member
      intro observation member key selected given listed
      rcases List.mem_append.mp member with inside | final
      · obtain ⟨decision, present, found⟩ := earlier observation inside key selected given listed
        exact ⟨decision, grows decision present, found⟩
      · rw [List.mem_singleton.mp final] at given
        have keys_eq : decided = key := Option.some.inj (answers.edge.symm.trans given.edge)
        have choices : chosen = selected :=
          Option.some.inj (answers.choice.symm.trans given.choice)
        subst keys_eq choices
        by_cases taken : ((consumeObservation mid last).decisions.any fun earlier =>
            decide (earlier.decisionId = recorded.decisionId)) = true
        · obtain ⟨decision, present, same⟩ := List.any_eq_true.mp taken
          refine ⟨decision, grows decision present, ?_⟩
          exact taken_records fresh distinct before given listed present
            ((of_decide_eq_true same).trans id)
        · refine ⟨recorded, ?_, records⟩
          rw [decisions, if_neg taken]
          exact List.mem_append_right _ List.mem_cons_self
    · intro observation member key selected given listed
      rcases List.mem_append.mp member with inside | final
      · obtain ⟨decision, present, found⟩ := earlier observation inside key selected given listed
        exact ⟨decision,
          (unanswered.mem (isAnswer_answerAction found.action_eq)).mpr present, found⟩
      · rw [List.mem_singleton.mp final] at given
        exact absurd given (none key selected)

theorem current_fold (agree : AgreeingAnswers keys done)
    (folded : done.foldlM processObservation start = .ok ctx) :
    ∀ observation ∈ done, ∀ key selected, Answers observation key selected → key ∈ keys →
      ctx.evaluatorDecisions.find? key = some ⟨key, selected⟩ := by
  induction done using List.reverseRecOn generalizing ctx with
  | nil => simp
  | append_singleton done last ih =>
    obtain ⟨mid, before, processed⟩ := foldlM_concat_eq_ok.mp folded
    have earlier := ih (fun first member second listed => agree first
      (List.mem_append_left _ member) second (List.mem_append_left _ listed)) before
    intro observation member key selected given listed
    rcases processObservation_answers processed with ⟨decided, chosen, answers, rfl⟩ |
      ⟨none, unanswered⟩
    · rw [find?_decideEdge]
      split
      · rename_i same
        subst same
        rw [agree last (by simp) observation member key chosen selected answers given listed]
      · rename_i different
        rcases List.mem_append.mp member with inside | final
        · exact earlier observation inside key selected given listed
        · rw [List.mem_singleton.mp final] at given
          exact absurd (Option.some.inj (given.edge.symm.trans answers.edge)) different
    · rw [unanswered.map_eq]
      rcases List.mem_append.mp member with inside | final
      · exact earlier observation inside key selected given listed
      · rw [List.mem_singleton.mp final] at given
        exact absurd given (none key selected)

end Answers

section Ticks

variable [Sha256] {tick : TickRecord}

/-- Answers to the edges of the graph agree with each other and with the store, and none finds
its decision id taken by an answer to another edge. -/
structure Separable (tick : TickRecord) : Prop where
  distinct : ∀ trace : Trace tick, DistinctAnswers (edgeKeys tick.input.graph) trace.start
    (sortObservations tick.input.observations)
  agree : AgreeingAnswers (edgeKeys tick.input.graph) tick.input.observations
  stored : ∀ entry ∈ tick.input.evaluatorDecisions, ∀ observation ∈ tick.input.observations,
    ∀ selected, Answers observation entry.edgeKey selected →
      entry.edgeKey ∈ edgeKeys tick.input.graph → entry.selected = selected

def Releasing (trace : Trace tick) (ctx : TickContext) : Prop :=
  ∃ observed, (sortObservations tick.input.observations).foldlM processObservation trace.start =
      .ok observed ∧ Steps (fun _ _ => False) (tickScope trace.start) observed ctx

theorem start_observations (trace : Trace tick) :
    trace.start.input.observations = tick.input.observations := by
  obtain ⟨version, same⟩ := trace.input_eq
  rw [trace.start_input, same]

theorem start_fresh (trace : Trace tick) : Fresh trace.start := by
  obtain ⟨_, _, _, _, _, transitions, decisions, _, _, recorded⟩ :=
    createTickContext_eq_ok trace.created
  exact ⟨transitions, decisions, recorded⟩

theorem settled_releasing (trace : Trace tick) : Releasing trace trace.settled := by
  obtain ⟨observed, cut, processed, passed, rest⟩ := runPhases_split trace.phases
  rw [start_observations] at processed
  exact ⟨observed, processed, (cancelPass_steps rfl passed).trans (rest _)⟩

theorem final_unanswered (trace : Trace tick) : Unanswered trace.settled trace.final := by
  rcases trace.final_eq with same | ⟨request, ⟨action, _⟩, same⟩
  · rw [same]
    exact Unanswered.refl _
  · rw [same]
    refine recordDecision_unanswered _ ?_
    change (decide (request.action = .selectEdge) || decide (request.action = .rejectEdge)) = false
    rw [action]
    rfl

theorem releasing_unanswered {trace : Trace tick} {ctx : TickContext}
    (releasing : Releasing trace ctx) :
    ∃ observed, (sortObservations tick.input.observations).foldlM processObservation trace.start =
      .ok observed ∧ Unanswered observed ctx := by
  obtain ⟨observed, processed, steps⟩ := releasing
  exact ⟨observed, processed, steps_unanswered steps fun _ _ never => never.elim⟩

theorem planned_mem (trace : Trace tick) {decision : SchedulerDecision}
    (answer : isAnswer decision = true) :
    ∃ observed, (sortObservations tick.input.observations).foldlM processObservation trace.start =
        .ok observed ∧ (decision ∈ tick.plan.decisions ↔ decision ∈ observed.decisions) := by
  obtain ⟨observed, processed, unanswered⟩ := releasing_unanswered (settled_releasing trace)
  refine ⟨observed, processed, ?_⟩
  rw [trace.decisions_eq, sortDecisions, List.mem_insertionSort,
    (final_unanswered trace).mem answer, unanswered.mem answer]

theorem planned_answers (trace : Trace tick) {decision : SchedulerDecision}
    (member : decision ∈ tick.plan.decisions) (answer : isAnswer decision = true) :
    ∃ observation ∈ tick.input.observations, ∃ key selected, Answers observation key selected ∧
      RecordsAnswer decision key selected := by
  obtain ⟨observed, processed, mem⟩ := planned_mem trace answer
  obtain ⟨mid, observation, key, selected, ⟨earlier, later, split, _⟩, answers, records, _⟩ :=
    sound_fold (start_fresh trace).decisions_eq processed decision (mem.mp member) answer
  refine ⟨observation, ?_, key, selected, answers, records⟩
  have listed : observation ∈ sortObservations tick.input.observations := by
    rw [split]
    exact List.mem_append_right _ List.mem_cons_self
  rwa [sortObservations, List.mem_insertionSort] at listed

section Separated

variable {observation : SchedulerObservation} {key : String} {selected : Bool}

theorem answers_planned (separable : Separable tick) (trace : Trace tick)
    (member : observation ∈ tick.input.observations) (answers : Answers observation key selected)
    (listed : key ∈ edgeKeys tick.input.graph) :
    ∃ decision ∈ tick.plan.decisions, RecordsAnswer decision key selected := by
  obtain ⟨observed, processed, _⟩ := releasing_unanswered (settled_releasing trace)
  have sorted : observation ∈ sortObservations tick.input.observations := by
    rwa [sortObservations, List.mem_insertionSort]
  obtain ⟨decision, present, records⟩ := listed_fold (start_fresh trace) (separable.distinct trace)
    processed observation sorted key selected answers listed
  obtain ⟨again, reprocessed, mem⟩ := planned_mem trace (isAnswer_answerAction records.action_eq)
  rw [processed] at reprocessed
  cases reprocessed
  exact ⟨decision, mem.mpr present, records⟩

theorem answers_used (separable : Separable tick) {trace : Trace tick} {ctx : TickContext}
    (releasing : Releasing trace ctx) (member : observation ∈ tick.input.observations)
    (answers : Answers observation key selected) (listed : key ∈ edgeKeys tick.input.graph) :
    ctx.evaluatorDecisions.find? key = some ⟨key, selected⟩ := by
  obtain ⟨observed, processed, unanswered⟩ := releasing_unanswered releasing
  have sorted : ∀ observation, observation ∈ sortObservations tick.input.observations ↔
      observation ∈ tick.input.observations := fun _ => List.mem_insertionSort _
  have agree : AgreeingAnswers (edgeKeys tick.input.graph)
      (sortObservations tick.input.observations) := by
    intro first inFirst second inSecond
    exact separable.agree first ((sorted first).mp inFirst) second ((sorted second).mp inSecond)
  rw [unanswered.map_eq]
  exact current_fold agree processed observation ((sorted observation).mpr member) key selected
    answers listed

end Separated

theorem step_consumed {admits : TickContext → SchedulerObservation → Prop} {scope : Scope}
    {ctx ctx' : TickContext} (step : Step admits scope ctx ctx') :
    ctx'.consumedObservationIds = ctx.consumedObservationIds ∨
      ∃ mid observation, admits mid observation ∧
        ctx'.consumedObservationIds = ctx.consumedObservationIds ++
          [observation.observationId] := by
  cases step with
  | consume observation admitted => exact Or.inr ⟨_, observation, admitted, rfl⟩
  | touch stage found =>
    left
    rcases touch_cases ctx stage with same | ⟨_, created⟩
    · rw [same]
    · rw [created]
      rfl
  | queue stage definition =>
    left
    obtain ⟨base, options, settled, _, moved⟩ := queueMove_eq ctx stage definition
    rw [moved]
    rcases settled with rfl | ⟨counters, rfl⟩ <;> rfl
  | _ => exact Or.inl rfl

theorem consumed_given (trace : Trace tick) {id : String}
    (consumed : id ∈ tick.plan.consumedObservationIds) :
    ∃ observation ∈ tick.input.observations, observation.observationId = id := by
  have steps : Steps (fun _ observation => observation ∈ tick.input.observations)
      (tickScope trace.start) trace.start trace.settled :=
    trace.steps fun _ observation member => member
  have fresh : trace.start.consumedObservationIds = [] := by
    have created := trace.created
    rw [createTickContext, if_pos (createTickContext_eq_ok created).1] at created
    rw [← Except.ok.inj created]
  have kept : ∀ id ∈ trace.settled.consumedObservationIds,
      ∃ observation ∈ tick.input.observations, observation.observationId = id := by
    refine steps_invariant (P := fun ctx => ∀ id ∈ ctx.consumedObservationIds,
      ∃ observation ∈ tick.input.observations, observation.observationId = id) ?_ ?_ steps
    · intro before after known step id member
      rcases step_consumed step with same | ⟨_, observation, given, added⟩
      · rw [same] at member
        exact known id member
      · rw [added] at member
        rcases List.mem_append.mp member with earlier | new
        · exact known id earlier
        · exact ⟨observation, given, (List.mem_singleton.mp new).symm⟩
    · rw [fresh]
      simp
  have same : trace.final.consumedObservationIds = trace.settled.consumedObservationIds := by
    rcases trace.final_eq with same | ⟨request, _, same⟩ <;> rw [same]
    rfl
  rw [trace.consumed_eq, mem_sortTexts, same] at consumed
  exact kept id consumed

end Ticks

section Runs

variable [Sha256] {ticks : List DaemonTick} {tick : DaemonTick}

theorem Committed.input_eq (committed : Committed tick) :
    tick.input.observations =
        toSchedulerObservations (readPendingPipelineObservations tick.before tick.runId) ∧
      tick.input.evaluatorDecisions = readPipelineEvaluatorDecisions tick.before tick.runId := by
  obtain ⟨result, ran⟩ := committed
  obtain ⟨loaded, _, _⟩ := tickAttempt_eq_ok.mp ran
  obtain ⟨schedule, graph, _, _, given⟩ := toSchedulerInput_eq_ok loaded
  rw [given]
  exact ⟨rfl, rfl⟩

theorem consumed_stored (committed : Committed tick) {stored : PipelineSchedulerObservationRow}
    (member : stored ∈ tick.before.observations.rows)
    (consumed : stored.observation.observationId ∈ tick.plan.consumedObservationIds) :
    stored.observation ∈ tick.input.observations := by
  obtain ⟨trace⟩ := committed.trace
  obtain ⟨observation, given, same⟩ := consumed_given trace consumed
  change observation ∈ tick.input.observations at given
  have listed := given
  rw [(Committed.input_eq committed).1, toSchedulerObservations, List.mem_map] at listed
  obtain ⟨row, read, rfl⟩ := listed
  rw [readPendingPipelineObservations, mem_orderBy] at read
  rw [Table.eq_of_key_eq member (List.mem_filter.mp read).1 same.symm]
  exact given

theorem answer_stored (committed : Committed tick) (separable : Separable tick.record)
    {observation : SchedulerObservation} {key : String} {selected : Bool}
    (member : observation ∈ tick.input.observations) (answers : Answers observation key selected)
    (listed : key ∈ edgeKeys tick.input.graph) :
    ∃ row, tick.after.evaluatorDecisions.find? (tick.runId, key) = some row ∧
      row.selected = selected := by
  obtain ⟨trace⟩ := committed.trace
  obtain ⟨wrote, run⟩ := committed.wrote
  rw [wrote.evaluatorDecisions_eq, Table.find?_foldl_insertOrIgnore, run]
  cases present : tick.before.evaluatorDecisions.find? (tick.runId, key) with
  | some row =>
    refine ⟨row, rfl, ?_⟩
    have keys := Table.key_of_find? present
    simp only [Prod.mk.injEq] at keys
    have entry : (⟨key, row.selected, row.recordedAt⟩ : EvaluatorDecision) ∈
        tick.record.input.evaluatorDecisions := by
      change _ ∈ tick.input.evaluatorDecisions
      rw [(Committed.input_eq committed).2, mem_readPipelineEvaluatorDecisions, present]
      rw [← keys.1, ← keys.2]
    exact separable.stored _ entry observation member selected answers listed
  | none =>
    obtain ⟨decision, planned, records⟩ :=
      answers_planned separable trace member answers listed
    have made : evaluatorRow tick.runId decision =
        some ⟨tick.runId, key, decide (decision.action = .selectEdge), decision.recordedAt⟩ := by
      have action : decision.action = .selectEdge ∨ decision.action = .rejectEdge := by
        rw [records.action_eq]
        cases selected
        · exact Or.inr rfl
        · exact Or.inl rfl
      rw [evaluatorRow, if_pos action, records.detail_eq, Option.map_some]
    have inserted := List.mem_filterMap.mpr ⟨decision, planned, made⟩
    cases found : (tick.plan.decisions.filterMap (evaluatorRow tick.runId)).find? fun row =>
        decide ((row.runId, row.edgeKey) = (tick.runId, key)) with
    | none =>
      have absent := List.find?_eq_none.mp found _ inserted
      simp at absent
    | some row =>
      refine ⟨row, rfl, ?_⟩
      have keys := List.find?_some found
      simp only [Prod.mk.injEq, decide_eq_true_eq] at keys
      obtain ⟨other, listedOther, stored⟩ :=
        List.mem_filterMap.mp (List.mem_of_find?_eq_some found)
      unfold evaluatorRow at stored
      split at stored
      · rename_i action
        have answer : isAnswer other = true := by
          unfold isAnswer
          rcases action with action | action <;> rw [action] <;> rfl
        obtain ⟨source, given, otherKey, choice, answered, recorded⟩ :=
          planned_answers trace listedOther answer
        rw [recorded.detail_eq] at stored
        cases stored
        have same : otherKey = key := keys.2
        subst same
        have choices := separable.agree source given observation member otherKey choice selected
          answered answers listed
        subst choices
        rw [recorded.action_eq]
        cases choice <;> rfl
      · cases stored

theorem chain_evaluators {rest : List DaemonTick}
    (committed : ∀ later ∈ tick :: rest, Committed later)
    (chained : (tick :: rest).IsChain fun tick next => Operates tick.after next.before)
    {key : String × String} {row : PipelineEvaluatorDecisionRow}
    (stored : tick.after.evaluatorDecisions.find? key = some row) :
    ∀ later ∈ rest, later.before.evaluatorDecisions.find? key = some row ∧
      later.after.evaluatorDecisions.find? key = some row := by
  induction rest generalizing tick with
  | nil => simp
  | cons next rest ih =>
    obtain ⟨operates, chain⟩ := List.isChain_cons_cons.mp chained
    have before : next.before.evaluatorDecisions.find? key = some row := by
      rw [operates_evaluators operates]
      exact stored
    have after := (committed next (by simp)).wrote.1.keeps_evaluator before
    intro later member
    rcases List.mem_cons.mp member with rfl | member
    · exact ⟨before, after⟩
    · exact ih (fun other listed => committed other (List.mem_cons_of_mem _ listed)) chain after
        later member

theorem start_decided (committed : Committed tick) {key : String}
    {row : PipelineEvaluatorDecisionRow}
    (stored : tick.before.evaluatorDecisions.find? (tick.runId, key) = some row)
    (trace : Trace tick.record) :
    trace.start.evaluatorDecisions.find? key = some ⟨key, row.selected⟩ := by
  have keys := Table.key_of_find? stored
  simp only [Prod.mk.injEq] at keys
  have entry : (⟨key, row.selected, row.recordedAt⟩ : EvaluatorDecision) ∈
      tick.record.input.evaluatorDecisions := by
    change _ ∈ tick.input.evaluatorDecisions
    rw [(Committed.input_eq committed).2, mem_readPipelineEvaluatorDecisions, stored]
    rw [← keys.1, ← keys.2]
  have distinct : ((tick.record.input.evaluatorDecisions.map fun entry =>
      (⟨entry.edgeKey, entry.selected⟩ : EdgeSelection)).map EdgeSelection.edgeKey).Nodup := by
    rw [List.map_map]
    change (tick.input.evaluatorDecisions.map EvaluatorDecision.edgeKey).Nodup
    rw [(Committed.input_eq committed).2]
    exact nodup_readPipelineEvaluatorDecisions _ _
  rw [trace.start_evaluators.1]
  exact Table.find?_upsertAll_of_nodup distinct (List.mem_map_of_mem entry)

/-- The row of an edge is in the store from the tick on, holds the selection with which the tick
released or rejected the edge's successor, and decides the edge in every later tick. -/
structure Preserved (tick : DaemonTick) (rest : List DaemonTick) (key : String)
    (row : PipelineEvaluatorDecisionRow) : Prop where
  stored : ∀ later ∈ tick :: rest,
    later.after.evaluatorDecisions.find? (tick.runId, key) = some row
  used : ∀ (trace : Trace tick.record) (ctx : TickContext), Releasing trace ctx →
    ctx.evaluatorDecisions.find? key = some ⟨key, row.selected⟩
  decided : ∀ later ∈ rest, later.runId = tick.runId → ∀ trace : Trace later.record,
    trace.start.evaluatorDecisions.find? key = some ⟨key, row.selected⟩

/-- Every answer to an edge of the graph that a tick of the run consumes is preserved. -/
def NoAnswerLost (ticks : List DaemonTick) : Prop :=
  ∀ done tick rest, ticks = done ++ tick :: rest → ∀ stored ∈ tick.before.observations.rows,
    stored.observation.observationId ∈ tick.plan.consumedObservationIds → ∀ key selected,
    Answers stored.observation key selected → key ∈ edgeKeys tick.input.graph →
    ∃ row, Preserved tick rest key row

theorem no_answer_lost (run : ServiceRun ticks)
    (separable : ∀ tick ∈ ticks, Separable tick.record) : NoAnswerLost ticks := by
  intro done tick rest split stored member consumed key selected answers listed
  have inside : ∀ later ∈ tick :: rest, later ∈ ticks := by
    intro later here
    rw [split]
    exact List.mem_append_right _ here
  have committed : ∀ later ∈ tick :: rest, Committed later :=
    fun later here => run.committed later (inside later here)
  have chain : (tick :: rest).IsChain fun tick next => Operates tick.after next.before := by
    have chained := run.chained
    rw [split] at chained
    exact (List.isChain_append.mp chained).2.1
  have separated := separable tick (inside tick List.mem_cons_self)
  have given := consumed_stored (committed tick List.mem_cons_self) member consumed
  obtain ⟨row, found, chosen⟩ := answer_stored (committed tick List.mem_cons_self) separated given
    answers listed
  have stays := chain_evaluators committed chain found
  refine ⟨row, ?_, ?_, ?_⟩
  · intro later here
    rcases List.mem_cons.mp here with rfl | here
    · exact found
    · exact (stays later here).2
  · intro trace ctx releasing
    rw [chosen]
    exact answers_used separated releasing given answers listed
  · intro later here same trace
    have before := (stays later here).1
    rw [← same] at before
    exact start_decided (committed later (List.mem_cons_of_mem _ here)) before trace

end Runs

def answerOf (observation : SchedulerObservation) : Option (String × Bool) :=
  if observation.kind = .evaluatorDecided then
    observation.edgeKey.bind fun key => observation.selected.map fun selected => (key, selected)
  else none

theorem answerOf_of_answers {observation : SchedulerObservation} {key : String}
    (answers : Answers observation key selected) : answerOf observation = some (key, selected) := by
  rw [answerOf, if_pos answers.kind, answers.edge, answers.choice]
  rfl

theorem answers_of_answerOf {observation : SchedulerObservation} {key : String}
    (answer : answerOf observation = some (key, selected)) : Answers observation key selected := by
  simp only [answerOf] at answer
  split at answer
  · rename_i kind
    simp only [Option.bind_eq_some_iff, Option.map_eq_some_iff] at answer
    obtain ⟨_, edge, _, choice, rfl, rfl⟩ := answer
    exact ⟨kind, edge, choice⟩
  · cases answer

/-- Two answers of one tick to different edges choose differently or lead to different stages, and
two answers to one edge agree. -/
def compatible (first second : SchedulerObservation) : Bool :=
  match answerOf first, answerOf second with
  | some (key, selected), some (key', selected') =>
    if key = key' then decide (selected = selected')
    else decide (selected ≠ selected') ||
      decide (decidedStageId key first ≠ decidedStageId key' second)
  | _, _ => true

def separates (input : SchedulerInput) : Bool :=
  (input.observations.all fun first => input.observations.all fun second =>
    compatible first second) &&
  input.observations.all fun observation => input.evaluatorDecisions.all fun entry =>
    (answerOf observation).all fun answer =>
      decide (answer.1 ≠ entry.edgeKey) || decide (entry.selected = answer.2)

theorem separable_of_separates [Sha256] {tick : TickRecord} (check : separates tick.input = true) :
    Separable tick := by
  rw [separates, Bool.and_eq_true, List.all_eq_true, List.all_eq_true] at check
  obtain ⟨pairs, entries⟩ := check
  have compatibles : ∀ first ∈ tick.input.observations, ∀ second ∈ tick.input.observations,
      compatible first second = true :=
    fun first inFirst => List.all_eq_true.mp (pairs first inFirst)
  refine ⟨?_, ?_, ?_⟩
  · intro trace ctx first ctx' second key key' selected ordered answers answers' _ same
    obtain ⟨before, between, after, split, _⟩ := ordered.split
    have listed : ∀ observation ∈ [first, second], observation ∈ tick.input.observations := by
      intro observation member
      have sorted : observation ∈ sortObservations tick.input.observations := by
        rw [split]
        rcases List.mem_pair.mp member with rfl | rfl <;> simp
      rwa [sortObservations, List.mem_insertionSort] at sorted
    have agrees := compatibles first (listed first (by simp)) second (listed second (by simp))
    by_contra different
    simp only [compatible, answerOf_of_answers answers, answerOf_of_answers answers',
      if_neg different, Bool.or_eq_true, decide_eq_true_eq] at agrees
    rcases agrees with choice | stages
    · exact choice rfl
    · exact stages (congrArg Prod.fst same)
  · intro first inFirst second inSecond key selected selected' answers answers' _
    have agrees := compatibles first inFirst second inSecond
    simp only [compatible, answerOf_of_answers answers, answerOf_of_answers answers', if_true,
      decide_eq_true_eq] at agrees
    exact agrees
  · intro entry inEntries observation member selected answers _
    have agrees := List.all_eq_true.mp (entries observation member) entry inEntries
    rw [answerOf_of_answers answers] at agrees
    simpa using agrees

/-- Two evaluators decide whether the publication goes ahead. -/
def reviewed : PipelineGraph where
  mode := .autonomous
  stages :=
    [{ id := "build", type := .agent, mode := .autonomous, optional := false },
      { id := "lint", type := .agent, mode := .autonomous, optional := false },
      { id := "ship", type := .publish, mode := .autonomous, optional := false }]
  edges :=
    [{ fromStageId := "build", toStageId := "ship", condition := some (.evaluator "judge" "fit?") },
      { fromStageId := "lint", toStageId := "ship", condition :=
        some (.evaluator "judge" "neat?") }]

def edgeAnswer (observationId key : String) (selected : Bool) : SchedulerObservation where
  observationId := observationId
  kind := .evaluatorDecided
  edgeKey := some key
  selected := some selected
  recordedAt := "t2"

/-- Both predecessors succeed; the evaluators are asked and answer before the next tick. -/
def reviewVisits (fit neat : Bool) : List Visit :=
  [{ operations := [.create
      { runId := "run", pipelineId := "pipeline", graph := reviewed, now := "t0" }]
     runId := "run", now := "t0" },
    { operations :=
        [.observe "run" (stageObservation "o1" "build" "t1" .attemptStarted),
          .observe "run" (stageObservation "o2" "build" "t1" .attemptSucceeded),
          .observe "run" (stageObservation "o3" "lint" "t1" .attemptStarted),
          .observe "run" (stageObservation "o4" "lint" "t1" .attemptSucceeded)]
      runId := "run", now := "t1" },
    { operations :=
        [.observe "run" (edgeAnswer "o5" "build->ship" fit),
          .observe "run" (edgeAnswer "o6" "lint->ship" neat)]
      runId := "run", now := "t2" }]

def dividedTicks : List DaemonTick := @serve blankDigest (reviewVisits true false) emptyDatabase

def unanimousTicks : List DaemonTick := @serve blankDigest (reviewVisits true true) emptyDatabase

/-- The edges the store has a decision for. -/
def decidedEdges (tick : DaemonTick) : List (String × Bool) :=
  tick.after.evaluatorDecisions.rows.map fun row => (row.edgeKey, row.selected)

theorem no_answer_lost_sample :
    dividedTicks.map decidedEdges = [[], [], [("lint->ship", false), ("build->ship", true)]] ∧
      @NoAnswerLost blankDigest dividedTicks := by
  refine ⟨by decide +kernel, ?_⟩
  let _ : Sha256 := blankDigest
  have separated : ∀ tick ∈ dividedTicks, separates tick.input = true := by decide +kernel
  exact no_answer_lost (serve_run _) fun tick member =>
    separable_of_separates (separated tick member)

theorem answer_lost :
    ¬ ∀ [Sha256] (ticks : List DaemonTick), ServiceRun ticks → NoAnswerLost ticks := by
  intro claim
  let _ : Sha256 := blankDigest
  have kept := claim unanimousTicks (serve_run _)
  have three : unanimousTicks.length = 3 := by decide +kernel
  obtain ⟨first, second, third, ticks⟩ := List.length_eq_three.mp three
  have facts : (unanimousTicks.drop 2).all (fun tick =>
      (tick.before.observations.rows.any fun stored =>
        decide (answerOf stored.observation = some ("lint->ship", true)) &&
          decide (stored.observation.observationId ∈ tick.plan.consumedObservationIds)) &&
      decide ("lint->ship" ∈ edgeKeys tick.input.graph) &&
      (tick.after.evaluatorDecisions.find? (tick.runId, "lint->ship")).isNone) = true := by
    decide +kernel
  simp only [ticks, List.drop_succ_cons, List.drop_zero, List.all_cons, List.all_nil, Bool.and_true,
    Bool.and_eq_true, List.any_eq_true, decide_eq_true_eq] at facts
  obtain ⟨⟨⟨stored, member, answer, consumed⟩, listed⟩, absent⟩ := facts
  obtain ⟨row, preserved⟩ := kept [first, second] third [] ticks stored member consumed _ _
    (answers_of_answerOf answer) listed
  rw [preserved.stored third List.mem_cons_self] at absent
  cases absent

end Heniek.EvaluatorDecisions
