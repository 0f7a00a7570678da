import Heniek.TickTotality

/-!
The transitions of a plan. Per stage they form a path from the state the tick
starts with to the state of the stage patch: each is declared with its reason,
a terminal state is left only by a manual rerun into the next generation, and a
state changes nowhere else. A tick over well-formed input throws no undeclared
transition.
-/

namespace Heniek.DeclaredTransitions
open KeyedTable PipelineVocabulary RecoveryPolicy StageTransitions ScriptText
open SchedulerTick SchedulerSteps StageChanges SchedulerRun TickTotality

/-- States joined by transitions, with the generation of each. A pending stage may be rerun, which
raises its generation and records no transition. -/
inductive Path : StageState → Nat → List StageTransition → StageState → Nat → Prop
  | nil (state : StageState) (generation : Nat) : Path state generation [] state generation
  | moved {generation lastGeneration : Nat} {last : StageState} (transition : StageTransition)
      (rest : List StageTransition) (generation_eq : transition.generation = generation)
      (active : transition.fromState.isTerminal = false)
      (permitted : isPermittedTransition transition.fromState transition.toState
        transition.reason = true)
      (onward : Path transition.toState generation rest last lastGeneration) :
      Path transition.fromState generation (transition :: rest) last lastGeneration
  | rerun {generation lastGeneration : Nat} {last : StageState} (transition : StageTransition)
      (rest : List StageTransition) (generation_eq : transition.generation = generation + 1)
      (terminal : transition.fromState.isTerminal = true) (pending : transition.toState = .pending)
      (reason : transition.reason = .manualRerun)
      (permitted : isPermittedTransition transition.fromState transition.toState
        transition.reason = true)
      (onward : Path .pending (generation + 1) rest last lastGeneration) :
      Path transition.fromState generation (transition :: rest) last lastGeneration
  | again {generation lastGeneration : Nat} {last : StageState} (rest : List StageTransition)
      (onward : Path .pending (generation + 1) rest last lastGeneration) :
      Path .pending generation rest last lastGeneration

variable {state last : StageState} {generation lastGeneration : Nat}

theorem Path.append {middle : StageState} {middleGeneration : Nat}
    {left right : List StageTransition} (first : Path state generation left middle middleGeneration)
    (second : Path middle middleGeneration right last lastGeneration) :
    Path state generation (left ++ right) last lastGeneration := by
  induction first with
  | nil => exact second
  | moved transition rest generation_eq active permitted _ ih =>
    exact .moved transition _ generation_eq active permitted (ih second)
  | rerun transition rest generation_eq terminal pending reason permitted _ ih =>
    exact .rerun transition _ generation_eq terminal pending reason permitted (ih second)
  | again rest _ ih => exact .again _ (ih second)

theorem recorded_path {stage next : StageSnapshot} {added : List StageTransition}
    (recorded : Recorded stage next added) :
    Path stage.state stage.generation added next.state next.generation := by
  cases recorded with
  | moved transition _ from_eq to_eq generation_eq kept active permitted =>
    rw [← from_eq] at active permitted ⊢
    rw [← to_eq] at permitted ⊢
    rw [kept] at generation_eq ⊢
    exact .moved transition [] generation_eq active permitted (.nil _ _)
  | rerun transition _ from_eq to_eq generation_eq raised terminal pending reason =>
    rw [← from_eq] at terminal ⊢
    rw [raised] at generation_eq ⊢
    have target : transition.toState = .pending := to_eq.trans pending
    rw [pending]
    refine .rerun transition [] generation_eq terminal target reason ?_ (.nil _ _)
    rw [target, reason]
    exact permitted_manualRerun terminal
  | again raised before after =>
    rw [before, after, raised]
    exact .again [] (.nil _ _)

theorem recorded_stageId {stage next : StageSnapshot} {added : List StageTransition}
    (recorded : Recorded stage next added) :
    ∀ transition ∈ added, transition.stageId = stage.stageId := by
  cases recorded with
  | moved transition id => simpa using id
  | rerun transition id => simpa using id
  | again => simp

def transitionsOf (transitions : List StageTransition) (stageId : String) : List StageTransition :=
  transitions.filter fun transition => transition.stageId = stageId

section Paths

variable [Sha256] {admits : TickContext → SchedulerObservation → Prop} {scope : Scope}
variable {ctx ctx' : TickContext} {stage : StageSnapshot} {id : String}

theorem step_path (step : Step admits scope ctx ctx') (found : ctx.stage? id = some stage) :
    ∃ next added, ctx'.stage? id = some next ∧
      transitionsOf ctx'.transitions id = transitionsOf ctx.transitions id ++ added ∧
      Path stage.state stage.generation added next.state next.generation := by
  rcases step_recorded step with ⟨working, transitions⟩ |
    ⟨changed, next, added, located, change, rest⟩
  · refine ⟨stage, [], ?_, by rw [transitions, List.append_nil], .nil _ _⟩
    rw [TickContext.stage?, working]
    exact found
  · obtain ⟨working, transitions, recorded⟩ := rest
    have key : next.stageId = changed.stageId := change.stageId_eq
    have split : transitionsOf ctx'.transitions id =
        transitionsOf ctx.transitions id ++ transitionsOf added id := by
      rw [transitions, transitionsOf, List.filter_append]
      rfl
    rw [TickContext.stage?, working, split]
    by_cases here : id = changed.stageId
    · rw [here, located] at found
      cases found
      have kept : transitionsOf added id = added := by
        rw [transitionsOf, List.filter_eq_self]
        intro transition member
        exact decide_eq_true (here ▸ recorded_stageId recorded transition member)
      refine ⟨next, added, ?_, by rw [kept], recorded_path recorded⟩
      rw [here, ← key, Table.find?_upsert_self]
    · have others : transitionsOf added id = [] := by
        rw [transitionsOf, List.filter_eq_nil_iff]
        intro transition member
        simp [recorded_stageId recorded transition member, Ne.symm here]
      refine ⟨stage, [], ?_, by rw [others], .nil _ _⟩
      rw [Table.find?_upsert_of_ne _ (key ▸ here)]
      exact found

theorem steps_path (steps : Steps admits scope ctx ctx') (found : ctx.stage? id = some stage)
    (unrecorded : ctx.transitions = []) :
    ∃ next, ctx'.stage? id = some next ∧
      Path stage.state stage.generation (transitionsOf ctx'.transitions id) next.state
        next.generation := by
  induction steps with
  | refl => exact ⟨stage, found, by rw [unrecorded]; exact .nil _ _⟩
  | tail _ last ih =>
    obtain ⟨middle, located, before⟩ := ih
    obtain ⟨next, added, reached, grown, after⟩ := step_path last located
    exact ⟨next, reached, grown ▸ before.append after⟩

theorem steps_transitions_keys (steps : Steps admits scope ctx ctx')
    (unrecorded : ctx.transitions = []) :
    ∀ transition ∈ ctx'.transitions, transition.stageId ∈ ctx'.working.keys := by
  induction steps with
  | refl => simp [unrecorded]
  | @tail mid last _ step ih =>
    rw [step_keys step]
    rcases step_recorded step with ⟨_, same⟩ | ⟨stage, next, added, found, _, _, grown, recorded⟩
    · rw [same]
      exact ih
    · rw [grown]
      intro transition member
      rcases List.mem_append.mp member with earlier | new
      · exact ih transition earlier
      · rw [recorded_stageId recorded transition new]
        exact mem_keys_of_stage? found

end Paths

theorem Path.mem {transitions : List StageTransition} {transition : StageTransition}
    (path : Path state generation transitions last lastGeneration)
    (member : transition ∈ transitions) :
    isPermittedTransition transition.fromState transition.toState transition.reason = true ∧
      (transition.fromState.isTerminal = true →
        transition.toState = .pending ∧ transition.reason = .manualRerun) := by
  induction path with
  | nil => cases member
  | moved first rest _ active permitted _ ih =>
    rcases List.mem_cons.mp member with rfl | later
    · refine ⟨permitted, fun terminal => ?_⟩
      rw [active] at terminal
      cases terminal
    · exact ih later
  | rerun first rest _ _ pending reason permitted _ ih =>
    rcases List.mem_cons.mp member with rfl | later
    · exact ⟨permitted, fun _ => ⟨pending, reason⟩⟩
    · exact ih later
  | again rest _ ih => exact ih member

theorem Path.leaves_terminal {transitions : List StageTransition}
    (path : Path state generation transitions last lastGeneration)
    (terminal : state.isTerminal = true) :
    transitions = [] ∧ last = state ∧ lastGeneration = generation ∨
      ∃ first rest, transitions = first :: rest ∧ first.fromState = state ∧
        first.toState = .pending ∧ first.reason = .manualRerun ∧
        first.generation = generation + 1 := by
  cases path with
  | nil => exact Or.inl ⟨rfl, rfl, rfl⟩
  | moved first rest _ active =>
    rw [active] at terminal
    cases terminal
  | rerun first rest raised _ pending reason =>
    exact Or.inr ⟨first, rest, rfl, rfl, pending, reason, raised⟩
  | again => cases terminal

structure Declares (input : SchedulerInput) (plan : SchedulerPlan) : Prop where
  permitted : ∀ transition ∈ plan.transitions,
    isPermittedTransition transition.fromState transition.toState transition.reason = true
  chained : ∀ stage ∈ plan.stagePatches, ∃ entry,
    (workingStages input).find? stage.stageId = some entry ∧
      Path entry.state entry.generation (transitionsOf plan.transitions stage.stageId) stage.state
        stage.generation
  settled : ∀ stage ∈ plan.stagePatches, ∀ entry,
    (workingStages input).find? stage.stageId = some entry → entry.state.isTerminal = true →
      transitionsOf plan.transitions stage.stageId = [] ∧ stage.state = entry.state ∧
          stage.generation = entry.generation ∨
        ∃ first rest, transitionsOf plan.transitions stage.stageId = first :: rest ∧
          first.fromState = entry.state ∧ first.toState = .pending ∧
          first.reason = .manualRerun ∧ first.generation = entry.generation + 1

section Ticks

variable [Sha256]

theorem tick_declares {tick : TickRecord} (ticked : Ticked tick) :
    Declares tick.input tick.plan := by
  obtain ⟨trace⟩ := ticked.trace
  have fresh : trace.start.transitions = [] :=
    (createTickContext_eq_ok trace.created).2.2.2.2.2.1
  have steps := trace.free_steps
  have transitions : tick.plan.transitions = trace.settled.transitions := by
    rw [trace.transitions_eq, trace.final_fields.2.2]
  have chained : ∀ stage ∈ tick.plan.stagePatches, ∃ entry,
      (workingStages tick.input).find? stage.stageId = some entry ∧
        Path entry.state entry.generation (transitionsOf tick.plan.transitions stage.stageId)
          stage.state stage.generation := by
    intro stage member
    rw [trace.stagePatches_perm.mem_iff, trace.final_working] at member
    have listed := Table.mem_keys_of_mem member
    rw [steps_keys steps] at listed
    obtain ⟨entry, entered⟩ := Table.exists_find? listed
    obtain ⟨last, reached, path⟩ := steps_path steps entered fresh
    rw [TickContext.stage?, Table.find?_key member] at reached
    cases reached
    refine ⟨entry, ?_, by rw [transitions]; exact path⟩
    rw [← trace.start_stage?]
    exact entered
  refine ⟨?_, chained, ?_⟩
  · intro transition member
    have listed : transition.stageId ∈ trace.settled.working.keys := by
      rw [transitions] at member
      exact steps_transitions_keys steps fresh transition member
    obtain ⟨stage, row, same⟩ := List.mem_map.mp listed
    have patched : stage ∈ tick.plan.stagePatches := by
      rw [trace.stagePatches_perm.mem_iff, trace.final_working]
      exact row
    obtain ⟨entry, _, path⟩ := chained stage patched
    refine (path.mem (List.mem_filter.mpr ⟨member, ?_⟩)).1
    exact decide_eq_true same.symm
  · intro stage member entry entered terminal
    obtain ⟨other, located, path⟩ := chained stage member
    rw [entered] at located
    cases located
    exact path.leaves_terminal terminal

/-- Over well-formed input neither entry point throws an undeclared transition, and every plan
declares its transitions. -/
theorem transitions_declared {input : SchedulerInput} (wellFormed : WellFormed input) :
    (∀ fromState toState reason,
        tickScheduler input ≠ .error (.undeclaredTransition fromState toState reason) ∧
          tickSchedulerV2 input ≠ .error (.undeclaredTransition fromState toState reason)) ∧
      ∀ plan, Ticked ⟨input, plan⟩ → Declares input plan := by
  refine ⟨?_, fun plan ticked => tick_declares ticked⟩
  intro fromState toState reason
  constructor
  · intro thrown
    rcases tickScheduler_throwsOnly wellFormed _ thrown with other | ⟨other, _⟩ <;> cases other
  · intro thrown
    rcases tickSchedulerV2_throwsOnly wellFormed _ thrown with other | ⟨other, _⟩ <;> cases other

end Ticks

def rerunInput : SchedulerInput :=
  { initialInput repairable "run" "pipeline" "t1" with
    stages := [{ initialStage "run" 1 "t0" "build" with state := .succeeded, attemptOrdinal := 1 }]
    observations := [stageObservation "o1" "build" "t1" .manualRerun] }

theorem transitions_declared_rerun :
    ∃ plan, @tickScheduler blankDigest rerunInput = .ok plan ∧
      plan.transitions.map (fun transition => (transition.toState, transition.generation)) =
        [(.pending, 2), (.ready, 2), (.queued, 2)] ∧ Declares rerunInput plan := by
  let _ : Sha256 := blankDigest
  have wellFormed : WellFormed rerunInput := ⟨by decide, by decide⟩
  cases ran : tickScheduler rerunInput with
  | error thrown =>
    have returns : (tickScheduler rerunInput).isOk = true := by decide +kernel
    rw [ran] at returns
    cases returns
  | ok plan =>
    refine ⟨plan, rfl, ?_, (transitions_declared wellFormed).2 plan (Or.inl ran)⟩
    have traced : (tickScheduler rerunInput).map (fun plan => plan.transitions.map
        fun transition => (transition.toState, transition.generation)) =
          .ok [(.pending, 2), (.ready, 2), (.queued, 2)] := by decide +kernel
    rw [ran] at traced
    exact Except.ok.inj traced

end Heniek.DeclaredTransitions
