import Heniek.CounterSteps
import Heniek.CycleSearch
import Heniek.TickTotality

/-!
A manual rerun and the cone it resets. The stack walk reaches just the transitive
successors of a stage; of these and the stage itself the terminal and the pending ones
start again in a new generation, and everything else stays as it was.
-/

namespace Heniek.ManualRerun
open KeyedTable PipelineDocument RecoveryPolicy ScriptText
open StageTransitions SchedulerTick SchedulerSteps SchedulerRun StageChanges CounterSteps
  TickTotality CycleSearch Relation

def Follows (graph : PipelineGraph) (source target : String) : Prop :=
  target ∈ successors graph source

section Walk

variable {graph : PipelineGraph}

def edgeTargets (graph : PipelineGraph) : Finset String :=
  (graph.edges.map PipelineEdge.toStageId).toFinset

theorem mem_edgeTargets {source target : String} (follows : Follows graph source target) :
    target ∈ edgeTargets graph := by
  rw [Follows, successors, List.mem_map] at follows
  obtain ⟨edge, listed, rfl⟩ := follows
  exact List.mem_toFinset.mpr (List.mem_map_of_mem (List.mem_filter.mp listed).1)

theorem length_successors (id : String) : (successors graph id).length =
    graph.edges.countP fun edge => edge.fromStageId = id := by
  rw [successors, List.length_map, List.countP_eq_length_filter]

variable {fuel : Nat} {stack seen : List String}

theorem walk_sound {origin : String} (waiting : ∀ id ∈ stack, TransGen (Follows graph) origin id)
    (found : ∀ id ∈ seen, TransGen (Follows graph) origin id) :
    ∀ id ∈ walk graph fuel stack seen, TransGen (Follows graph) origin id := by
  induction fuel generalizing stack seen with
  | zero => exact found
  | succ fuel ih =>
    cases stack with
    | nil => exact found
    | cons next stack =>
      have here := waiting next List.mem_cons_self
      have rest : ∀ id ∈ stack, TransGen (Follows graph) origin id :=
        fun id listed => waiting id (List.mem_cons_of_mem _ listed)
      rw [walk]
      split
      · exact ih rest found
      · refine ih ?_ ?_
        · intro id listed
          rcases List.mem_append.mp listed with child | later
          · exact here.tail (List.mem_reverse.mp child)
          · exact rest id later
        · intro id listed
          rcases List.mem_append.mp listed with earlier | last
          · exact found id earlier
          · rw [List.mem_singleton.mp last]
            exact here

/-- The pops that are left: what waits, and the successors of the stages not yet seen. -/
def pops (graph : PipelineGraph) (stack seen : List String) : Nat :=
  stack.length + ∑ id ∈ edgeTargets graph \ seen.toFinset, (successors graph id).length

theorem walk_closed (within : ∀ id ∈ stack, id ∈ edgeTargets graph)
    (explored : ∀ id ∈ seen, ∀ child ∈ successors graph id, child ∈ seen ∨ child ∈ stack)
    (enough : pops graph stack seen < fuel) :
    stack ⊆ walk graph fuel stack seen ∧ seen ⊆ walk graph fuel stack seen ∧
      ∀ id ∈ walk graph fuel stack seen, ∀ child ∈ successors graph id,
        child ∈ walk graph fuel stack seen := by
  induction fuel generalizing stack seen with
  | zero => omega
  | succ fuel ih =>
    cases stack with
    | nil =>
      refine ⟨List.nil_subset _, List.Subset.refl _, fun id listed child arrow => ?_⟩
      exact (explored id listed child arrow).resolve_right List.not_mem_nil
    | cons next stack =>
      have rest : ∀ id ∈ stack, id ∈ edgeTargets graph :=
        fun id listed => within id (List.mem_cons_of_mem _ listed)
      rw [walk]
      split
      · rename_i old
        have fewer : pops graph stack seen < fuel := by
          unfold pops at enough ⊢
          rw [List.length_cons] at enough
          omega
        obtain ⟨waiting, kept, closed⟩ := @ih stack seen rest (by
          intro id listed child arrow
          rcases explored id listed child arrow with here | there
          · exact .inl here
          · rcases List.mem_cons.mp there with rfl | later
            · exact .inl old
            · exact .inr later) fewer
        exact ⟨List.cons_subset.mpr ⟨kept old, waiting⟩, kept, closed⟩
      · rename_i fresh
        have member : next ∈ edgeTargets graph \ seen.toFinset := by
          simp [within next List.mem_cons_self, fresh]
        have left : edgeTargets graph \ (seen ++ [next]).toFinset =
            (edgeTargets graph \ seen.toFinset).erase next := by
          rw [List.toFinset_append, List.toFinset_cons, List.toFinset_nil,
            insert_empty_eq, Finset.union_comm, ← Finset.insert_eq, Finset.sdiff_insert]
        have whole := Finset.add_sum_erase _ (fun id => (successors graph id).length) member
        have fewer : pops graph ((successors graph next).reverse ++ stack) (seen ++ [next]) <
            fuel := by
          unfold pops at enough ⊢
          rw [left, List.length_append, List.length_reverse]
          rw [List.length_cons] at enough
          omega
        obtain ⟨waiting, kept, closed⟩ :=
            @ih ((successors graph next).reverse ++ stack) (seen ++ [next]) (by
          intro id listed
          rcases List.mem_append.mp listed with child | later
          · exact mem_edgeTargets (List.mem_reverse.mp child)
          · exact rest id later) (by
          intro id listed child arrow
          rw [List.mem_append, List.mem_append, List.mem_reverse, List.mem_singleton]
          rcases List.mem_append.mp listed with earlier | last
          · rcases explored id earlier child arrow with here | there
            · exact .inl (.inl here)
            · rcases List.mem_cons.mp there with rfl | later
              · exact .inl (.inr rfl)
              · exact .inr (.inr later)
          · rw [List.mem_singleton.mp last] at arrow
            exact .inr (.inl arrow)) fewer
        refine ⟨List.cons_subset.mpr ⟨kept (by simp), fun id listed => ?_⟩,
          fun id listed => kept (List.mem_append_left _ listed), closed⟩
        exact waiting (List.mem_append_right _ listed)

theorem mem_descendants {origin id : String} :
    id ∈ descendants graph origin ↔ TransGen (Follows graph) origin id := by
  rw [descendants, mem_sortTexts]
  constructor
  · refine walk_sound (fun child listed => ?_) (by simp) id
    exact .single (List.mem_reverse.mp listed)
  · intro path
    have enough : pops graph (successors graph origin).reverse [] < 2 * graph.edges.length + 1 := by
      have first : (successors graph origin).length ≤ graph.edges.length := by
        rw [length_successors]
        exact List.countP_le_length
      have later : ∑ id ∈ edgeTargets graph \ [].toFinset, (successors graph id).length ≤
          graph.edges.length := by
        simp only [length_successors]
        exact sum_leaving _ _
      unfold pops
      rw [List.length_reverse]
      omega
    obtain ⟨waiting, _, closed⟩ := walk_closed
      (fun child listed => mem_edgeTargets (List.mem_reverse.mp listed)) (by simp) enough
    induction path with
    | single follows => exact waiting (List.mem_reverse.mpr follows)
    | tail _ follows ih => exact closed _ ih _ follows

theorem nodup_walk (distinct : seen.Nodup) : (walk graph fuel stack seen).Nodup := by
  induction fuel generalizing stack seen with
  | zero => exact distinct
  | succ fuel ih =>
    cases stack with
    | nil => exact distinct
    | cons next stack =>
      rw [walk]
      split
      · exact ih distinct
      · rename_i fresh
        refine ih (List.nodup_append.mpr ⟨distinct, List.nodup_singleton _, ?_⟩)
        rintro id listed _ (_ | ⟨_, none⟩) same
        · exact fresh (same ▸ listed)
        · cases none

theorem nodup_descendants (origin : String) : (descendants graph origin).Nodup :=
  (sortBy_perm id _).nodup_iff.mpr (nodup_walk List.nodup_nil)

end Walk

def resettable (stage : StageSnapshot) : Bool :=
  stage.state.isTerminal || decide (stage.state = .pending)

def rerunAt (now : String) (stage : StageSnapshot) : StageSnapshot :=
  if resettable stage then rerunStage now stage else stage

section Rerun

variable {ctx ctx' : TickContext} {stage : StageSnapshot}

theorem rerunTarget_run {targetId : String} (found : ctx.stage? targetId = some stage) :
    rerunTarget ctx targetId = .ok (if resettable stage then rerunMove ctx stage else ctx) := by
  unfold rerunTarget
  rw [found]
  cases terminal : stage.state.isTerminal with
  | false =>
    by_cases pending : stage.state = .pending
    · simp [require, resettable, pending, rerunMove, bind, Except.bind]
    · simp [require, resettable, terminal, pending, bind, Except.bind]
  | true =>
    have permitted := permitted_manualRerun terminal
    have other : stage.state ≠ .pending := by
      intro pending
      rw [pending] at terminal
      cases terminal
    simp [require, resettable, terminal, other, permitted, rerunMove, bind, Except.bind]

structure Reran (ctx ctx' : TickContext) (targets : List String) : Prop where
  stages : ∀ id, ctx'.stage? id =
    if id ∈ targets then (ctx.stage? id).map (rerunAt ctx.input.now) else ctx.stage? id
  zeroed : ∀ id ∈ targets, ∀ stage, ctx.stage? id = some stage → resettable stage = true →
    countersAt ctx' id (stage.generation + 1) = {}
  counters : ∀ id generation, (∀ stage, ctx.stage? id = some stage → id ∈ targets →
    resettable stage = true → generation ≠ stage.generation + 1) →
    countersAt ctx' id generation = countersAt ctx id generation
  input : ctx'.input = ctx.input
  intents : ctx'.intents = ctx.intents
  attempts : ctx'.attempts = ctx.attempts

theorem reran_target {targetId : String} (found : ctx.stage? targetId = some stage) :
    Reran ctx (if resettable stage then rerunMove ctx stage else ctx) [targetId] := by
  have named := stageId_of_stage? found
  by_cases resets : resettable stage = true
  · rw [if_pos resets]
    have table : (rerunMove ctx stage).working =
        ctx.working.upsert (rerunStage ctx.input.now stage) := rfl
    have counted : ∀ id generation, countersAt (rerunMove ctx stage) id generation =
        if id = stage.stageId ∧ generation = stage.generation + 1 then {}
        else countersAt ctx id generation :=
      fun id generation => countersAt_set (ctx.setStage (rerunStage ctx.input.now stage))
        (rerunStage ctx.input.now stage) {} id generation
    refine ⟨fun id => ?_, ?_, fun id generation apart => ?_, rfl, rfl, rfl⟩
    · change (rerunMove ctx stage).working.find? id = _
      rw [table, Table.find?_upsert]
      by_cases same : id = targetId
      · subst same
        have own : id = StageSnapshot.stageId (rerunStage ctx.input.now stage) := named.symm
        rw [if_pos own, if_pos List.mem_cons_self, found, Option.map_some, rerunAt, if_pos resets]
      · have other : id ≠ StageSnapshot.stageId (rerunStage ctx.input.now stage) :=
          fun own => same (own.trans named)
        rw [if_neg other, if_neg (by simpa using same)]
        rfl
    · intro id listed other there _
      obtain rfl := List.mem_singleton.mp listed
      rw [found, Option.some.injEq] at there
      rw [counted, if_pos ⟨named.symm, there ▸ rfl⟩]
    · rw [counted, if_neg]
      rintro ⟨rfl, rfl⟩
      exact apart stage (found_self found) (by rw [named]; exact List.mem_cons_self) resets rfl
  · rw [if_neg resets]
    refine ⟨fun id => ?_, ?_, fun _ _ _ => rfl, rfl, rfl, rfl⟩
    · by_cases same : id = targetId
      · subst same
        rw [if_pos List.mem_cons_self, found, Option.map_some, rerunAt, if_neg resets]
      · rw [if_neg (by simpa using same)]
    · intro id listed other there terminal
      obtain rfl := List.mem_singleton.mp listed
      rw [found, Option.some.injEq] at there
      exact absurd (there ▸ terminal) resets

theorem Reran.cons {middle : TickContext} {target : String} {targets : List String}
    (fresh : target ∉ targets) (first : Reran ctx middle [target])
    (rest : Reran middle ctx' targets) : Reran ctx ctx' (target :: targets) := by
  have before : ∀ id ∈ targets, middle.stage? id = ctx.stage? id := by
    intro id listed
    rw [first.stages, if_neg]
    rw [List.mem_singleton]
    rintro rfl
    exact fresh listed
  refine ⟨fun id => ?_, ?_, ?_, rest.input.trans first.input, rest.intents.trans first.intents,
    rest.attempts.trans first.attempts⟩
  · rw [rest.stages, first.input, first.stages]
    by_cases same : id = target
    · subst same
      simp [fresh]
    · by_cases listed : id ∈ targets <;> simp [same]
  · intro id listed stage found resets
    rcases List.mem_cons.mp listed with rfl | later
    · rw [rest.counters id _ fun _ _ listed => absurd listed fresh]
      exact first.zeroed id List.mem_cons_self stage found resets
    · exact rest.zeroed id later stage ((before id later).trans found) resets
  · intro id generation apart
    rw [rest.counters, first.counters]
    · intro stage found listed resets
      rw [List.mem_singleton] at listed
      exact apart stage found (listed ▸ List.mem_cons_self) resets
    · intro stage found listed resets
      exact apart stage ((before id listed).symm.trans found) (List.mem_cons_of_mem _ listed) resets

theorem reran_targets {targets : List String} (distinct : targets.Nodup)
    (known : ∀ id ∈ targets, id ∈ ctx.working.keys) :
    ∃ ctx', targets.foldlM rerunTarget ctx = .ok ctx' ∧ Reran ctx ctx' targets := by
  induction targets generalizing ctx with
  | nil =>
    refine ⟨ctx, rfl, ⟨fun id => ?_, ?_, fun _ _ _ => rfl, rfl, rfl, rfl⟩⟩
    · rw [if_neg List.not_mem_nil]
    · intro id listed
      cases listed
  | cons target targets ih =>
    rw [List.nodup_cons] at distinct
    obtain ⟨stage, found⟩ := Table.exists_find? (known target List.mem_cons_self)
    have first := reran_target found
    have later : ∀ id ∈ targets,
        id ∈ (if resettable stage then rerunMove ctx stage else ctx).working.keys := by
      intro id listed
      have member := known id (List.mem_cons_of_mem _ listed)
      rw [← Table.find?_isSome] at member ⊢
      have apart : id ∉ [target] := by
        rw [List.mem_singleton]
        rintro rfl
        exact distinct.1 listed
      have same := (first.stages id).trans (if_neg apart)
      change ((if resettable stage then rerunMove ctx stage else ctx).stage? id).isSome = true
      rw [same]
      exact member
    obtain ⟨ctx', run, rest⟩ := ih distinct.2 later
    refine ⟨ctx', ?_, first.cons distinct.1 rest⟩
    rw [List.foldlM_cons, rerunTarget_run found]
    exact run

/-- Every declared stage has a snapshot, and the edges join declared stages. -/
structure Covered (ctx : TickContext) : Prop where
  stages : ∀ id ∈ stageIds ctx.graph, id ∈ ctx.working.keys
  resolved : edgesResolved ctx.graph = true

theorem covered_created {input : SchedulerInput} {v2 : Bool}
    (created : createTickContext input v2 = .ok ctx) : Covered ctx := by
  obtain ⟨resolved, same, working, _⟩ := createTickContext_eq_ok created
  refine ⟨fun id declared => ?_, by rw [TickContext.graph, same]; exact resolved⟩
  rw [working, mem_workingStages_keys]
  rw [TickContext.graph, same] at declared
  exact .inr declared

theorem Covered.of_steps [Sha256] {admits : TickContext → SchedulerObservation → Prop}
    {scope : Scope} (covered : Covered ctx) (steps : Steps admits scope ctx ctx') :
    Covered ctx' := by
  have graph : ctx'.graph = ctx.graph := congrArg SchedulerInput.graph (steps_input steps)
  refine ⟨?_, by rw [graph]; exact covered.resolved⟩
  rw [graph, steps_keys steps]
  exact covered.stages

def InCone (graph : PipelineGraph) (stageId id : String) : Prop :=
  id = stageId ∨ TransGen (Follows graph) stageId id

/-- What is left when a stage has been rerun. -/
structure Rerun (ctx ctx' : TickContext) (stageId : String) : Prop where
  reset : ∀ id, InCone ctx.graph stageId id → ∀ stage, ctx.stage? id = some stage →
    stage.state.isTerminal = true ∨ stage.state = .pending →
    ctx'.stage? id = some
      { stage with
        state := .pending
        selected := true
        generation := stage.generation + 1
        attemptOrdinal := 0
        currentAttemptId := none
        blockReason := none
        lastTransitionReason := some .manualRerun
        updatedAt := ctx.input.now } ∧
      countersAt ctx' id (stage.generation + 1) = {}
  kept : ∀ id, (∀ stage, ctx.stage? id = some stage → InCone ctx.graph stageId id →
    stage.state.isTerminal = false ∧ stage.state ≠ .pending) → ctx'.stage? id = ctx.stage? id
  counters : ∀ id generation, (∀ stage, ctx.stage? id = some stage →
    InCone ctx.graph stageId id → stage.state.isTerminal = true ∨ stage.state = .pending →
      generation ≠ stage.generation + 1) →
    countersAt ctx' id generation = countersAt ctx id generation
  started : ctx'.intents = ctx.intents ∧ ctx'.attempts = ctx.attempts
  consistent : ∀ root, ctx.stage? stageId = some root →
    root.state.isTerminal = true ∨ root.state = .pending →
    ∀ id, InCone ctx.graph stageId id → ∀ stage, ctx'.stage? id = some stage →
      stage.state ≠ .succeeded

theorem resettable_iff : resettable stage = true ↔
    stage.state.isTerminal = true ∨ stage.state = .pending := by
  simp [resettable]

theorem mem_cone {graph : PipelineGraph} {stageId id : String} :
    id ∈ sortTexts (stageId :: descendants graph stageId) ↔ InCone graph stageId id := by
  rw [mem_sortTexts, List.mem_cons, mem_descendants]
  rfl

theorem Reran.rerun {targets : List String} {stageId : String}
    (cone : ∀ id, id ∈ targets ↔ InCone ctx.graph stageId id) (reran : Reran ctx ctx' targets) :
    Rerun ctx ctx' stageId := by
  refine ⟨?_, ?_, ?_, ⟨reran.intents, reran.attempts⟩, ?_⟩
  · intro id inside stage found state
    have listed := (cone id).mpr inside
    have resets := resettable_iff.mpr state
    refine ⟨?_, reran.zeroed id listed stage found resets⟩
    rw [reran.stages, if_pos listed, found, Option.map_some, rerunAt, if_pos resets]
    rfl
  · intro id apart
    rw [reran.stages]
    split
    · rename_i listed
      cases found : ctx.stage? id with
      | none => rfl
      | some stage =>
        have state := apart stage found ((cone id).mp listed)
        rw [Option.map_some, rerunAt, if_neg]
        rw [resettable_iff, state.1]
        simp [state.2]
    · rfl
  · intro id generation apart
    refine reran.counters id generation fun stage found listed resets => ?_
    exact apart stage found ((cone id).mp listed) (resettable_iff.mp resets)
  · intro root _ _ id inside stage found succeeded
    rw [reran.stages, if_pos ((cone id).mpr inside), Option.map_eq_some_iff] at found
    obtain ⟨before, _, rfl⟩ := found
    unfold rerunAt at succeeded
    split at succeeded
    · cases succeeded
    · rename_i still
      rw [resettable_iff, succeeded] at still
      exact still (.inl rfl)

/-- A rerun of a stage that is not behind itself resets its cone and nothing else. -/
theorem manual_rerun_exact (covered : Covered ctx) {stageId : String}
    (apart : ¬ TransGen (Follows ctx.graph) stageId stageId) :
    ∃ ctx', processManualRerun ctx stageId = .ok ctx' ∧ Rerun ctx ctx' stageId := by
  unfold processManualRerun
  cases found : ctx.stage? stageId with
  | none =>
    refine ⟨ctx, rfl, ?_⟩
    have outside : ∀ id, InCone ctx.graph stageId id → ctx.stage? id = none := by
      rintro id (rfl | path)
      · exact found
      · obtain ⟨next, first, _⟩ := TransGen.head'_iff.mp path
        rw [Follows, successors, List.mem_map] at first
        obtain ⟨edge, listed, _⟩ := first
        obtain ⟨inEdges, source⟩ := List.mem_filter.mp listed
        have declared := (edgesResolved_iff.mp covered.resolved edge inEdges).1
        rw [of_decide_eq_true source] at declared
        exact absurd (covered.stages stageId declared) (Table.find?_eq_none.mp found)
    refine ⟨?_, fun _ _ => rfl, fun _ _ _ => rfl, ⟨rfl, rfl⟩, ?_⟩
    · intro id inside stage there
      rw [outside id inside] at there
      cases there
    · intro root there
      rw [found] at there
      cases there
  | some root =>
    have distinct : (sortTexts (stageId :: descendants ctx.graph stageId)).Nodup := by
      refine (sortBy_perm id _).nodup_iff.mpr (List.nodup_cons.mpr ⟨?_, nodup_descendants _⟩)
      rw [mem_descendants]
      exact apart
    have known : ∀ id ∈ sortTexts (stageId :: descendants ctx.graph stageId),
        id ∈ ctx.working.keys := by
      intro id listed
      rcases List.mem_cons.mp (mem_sortTexts.mp listed) with rfl | below
      · exact mem_keys_of_stage? found
      · exact covered.stages id (descendants_subset covered.resolved below)
    obtain ⟨ctx', run, reran⟩ := reran_targets distinct known
    exact ⟨ctx', run, reran.rerun fun _ => mem_cone⟩

/-- A tick over stages without snapshots. -/
def freshInput (ids : List String) (edges : List PipelineEdge) : SchedulerInput where
  runId := "run"
  pipelineId := "pipeline"
  graphRevision := 1
  scheduleRevision := 1
  graph :=
    { mode := .autonomous
      stages :=
        ids.map fun id => { id := id, type := .command, mode := .autonomous, optional := false }
      edges := edges }
  now := "now"
  stages := []
  observations := []
  canonicalState := .null

def buildAndCheck : SchedulerInput := freshInput ["build", "check"] [⟨"build", "check", none⟩]

theorem manual_rerun_exact_sample : ∃ start, createTickContext buildAndCheck true = .ok start ∧
    ∃ after, processManualRerun start "build" = .ok after ∧ Rerun start after "build" := by
  obtain ⟨start, created⟩ : ∃ start, createTickContext buildAndCheck true = .ok start := ⟨_, rfl⟩
  refine ⟨start, created, manual_rerun_exact (covered_created created) ?_⟩
  have graph : start.graph = buildAndCheck.graph := by
    cases created
    rfl
  rw [← mem_descendants, graph]
  decide +kernel

def buildAgain : SchedulerInput := freshInput ["build"] [⟨"build", "build", none⟩]

/-- On a cycle a stage is reset once as itself and once more as its own successor. -/
theorem rerun_on_cycle : ¬ ∀ (ctx : TickContext), Covered ctx → ∀ stageId, ∃ ctx',
    processManualRerun ctx stageId = .ok ctx' ∧ Rerun ctx ctx' stageId := by
  intro exactly
  obtain ⟨start, created⟩ : ∃ start, createTickContext buildAgain true = .ok start := ⟨_, rfl⟩
  obtain ⟨after, run, rerun⟩ := exactly start (covered_created created) "build"
  have first : ((createTickContext buildAgain true).toOption.bind fun start =>
      start.stage? "build").map (fun stage => (stage.state, stage.generation)) =
        some (.pending, 1) := by
    decide +kernel
  have last : ((createTickContext buildAgain true).toOption.bind fun start =>
      (processManualRerun start "build").toOption.bind fun after =>
        after.stage? "build").map StageSnapshot.generation = some 3 := by
    decide +kernel
  rw [created] at first last
  obtain ⟨stage, found, state⟩ := Option.map_eq_some_iff.mp first
  obtain ⟨pending, one⟩ := Prod.mk.inj state
  have reset := (rerun.reset "build" (.inl rfl) stage found (.inr pending)).1
  have final : (after.stage? "build").map StageSnapshot.generation = some 3 := by
    simpa [Except.toOption, run] using last
  rw [reset, Option.map_some, Option.some.injEq] at final
  change stage.generation + 1 = 3 at final
  omega

end Rerun

end Heniek.ManualRerun
