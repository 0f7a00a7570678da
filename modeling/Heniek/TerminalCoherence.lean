import Heniek.CancellationRuns
import Heniek.StoredStages

/-!
The stored outcome of a schedule against its stage projections. The store falls
back to the previous columns where a plan has no terminal, or a terminal without
a blocked stage. While no settled schedule is rerun the fallback is never taken
from a stale row, and the columns are those the last tick computed from exactly
the projections it stored.
-/

namespace Heniek.TerminalCoherence
open KeyedTable PipelineVocabulary PipelineDocument RecoveryPolicy SchedulerTick SchedulerSteps
open StageChanges SchedulerRun CancellationRuns PipelineStore
  PipelineRunner StoredStages FallibleRun

/-- What the tick computed is what the store holds, and it holds it exactly when every projection
of the run is terminal. -/
structure Coherent (tick : DaemonTick) (schedule : PipelineScheduleSnapshot) : Prop where
  stored : readPipelineSchedule tick.after tick.runId = some schedule
  ended : schedule.terminalOutcome ≠ none ↔
    ∀ stage ∈ readPipelineStageProjections tick.after tick.runId, stage.state.isTerminal = true
  computed : schedule.terminalOutcome ≠ none → ∃ terminal, tick.plan.terminal = some terminal ∧
    schedule.terminalOutcome = some terminal.outcome ∧
    schedule.terminalReason = some terminal.reason ∧
    schedule.terminalStageId = terminal.blockedStageId
  stages : ∀ stage, stage ∈ readPipelineStageProjections tick.after tick.runId ↔
    stage ∈ tick.plan.stagePatches

/-- The tick handles a manual rerun although the schedule already has an outcome. -/
def Reopens (tick : DaemonTick) : Prop :=
  (readPipelineSchedule tick.before tick.runId).any (fun schedule =>
    schedule.terminalOutcome.isSome) = true ∧ requestsRerun tick.input

instance (tick : DaemonTick) : Decidable (Reopens tick) := inferInstanceAs (Decidable (_ ∧ _))

section Terminal

variable {ctx : TickContext} {terminal : Option ScheduleTerminal}

theorem computeTerminal_isSome (computed : computeTerminal ctx = .ok terminal) :
    terminal.isSome = true ↔ ∀ stage ∈ ctx.working.rows, stage.state.isTerminal = true := by
  simp only [computeTerminal] at computed
  split at computed
  · rename_i active
    cases computed
    simp only [List.any_eq_true, Bool.not_eq_eq_eq_not] at active
    obtain ⟨stage, member, going⟩ := active
    simp only [Option.isSome_none, Bool.false_eq_true, false_iff, not_forall]
    exact ⟨stage, member, by simp [going]⟩
  · rename_i ended
    have all : ∀ stage ∈ ctx.working.rows, stage.state.isTerminal = true := by simpa using ended
    have some : terminal.isSome = true := by
      split at computed
      · cases computed
        rfl
      split at computed
      · cases computed
        rfl
      obtain ⟨required, _, computed⟩ := bind_eq_ok.mp computed
      cases required with
      | true =>
        cases computed
        rfl
      | false =>
        simp only [Bool.false_eq_true, if_false] at computed
        split at computed <;> cases computed <;> rfl
    exact ⟨fun _ => all, fun _ => some⟩

theorem computeTerminal_blocked {terminal : ScheduleTerminal}
    (computed : computeTerminal ctx = .ok (some terminal)) :
    terminal.blockedStageId ≠ none ↔ ∃ stage ∈ ctx.working.rows, stage.state = .blocked := by
  simp only [computeTerminal] at computed
  split at computed
  · cases computed
  split at computed
  · rename_i stage found
    cases computed
    have blocked : stage.state = .blocked := by simpa using List.find?_some found
    simp only [ne_eq, reduceCtorEq, not_false_eq_true, true_iff]
    exact ⟨stage, List.mem_of_find?_eq_some found, blocked⟩
  rename_i unblocked
  have none : ¬ ∃ stage ∈ ctx.working.rows, stage.state = .blocked := by
    rintro ⟨stage, member, blocked⟩
    have absent := List.find?_eq_none.mp unblocked stage member
    simp [blocked] at absent
  have unnamed : terminal.blockedStageId = Option.none := by
    split at computed
    · cases computed
      rfl
    obtain ⟨required, _, computed⟩ := bind_eq_ok.mp computed
    cases required with
    | true =>
      cases computed
      rfl
    | false =>
      simp only [Bool.false_eq_true, if_false] at computed
      split at computed <;> cases computed <;> rfl
  simp [none, unnamed]

end Terminal

/-- The columns of a schedule against the projections of its run. -/
structure Settled (db : StateDatabase) (schedule : PipelineScheduleSnapshot) : Prop where
  unset : schedule.terminalOutcome = none → schedule.terminalStageId = none
  ended : schedule.terminalOutcome ≠ none → ∀ id stage,
    db.stages.find? (schedule.runId, id) = some stage → stage.state.isTerminal = true
  blocked : schedule.terminalStageId ≠ none → ∃ id stage,
    db.stages.find? (schedule.runId, id) = some stage ∧ stage.state = .blocked

def AllSettled (db : StateDatabase) : Prop :=
  ∀ runId schedule, readPipelineSchedule db runId = some schedule → Settled db schedule

theorem Settled.frame {db db' : StateDatabase} {schedule : PipelineScheduleSnapshot}
    (settled : Settled db schedule)
    (same : ∀ id, db'.stages.find? (schedule.runId, id) = db.stages.find? (schedule.runId, id)) :
    Settled db' schedule := by
  refine ⟨settled.unset, ?_, ?_⟩
  · intro outcome id stage found
    rw [same] at found
    exact settled.ended outcome id stage found
  · intro named
    obtain ⟨id, stage, found, state⟩ := settled.blocked named
    exact ⟨id, stage, (same id).trans found, state⟩

theorem Settled.of_unset {db : StateDatabase} {schedule : PipelineScheduleSnapshot}
    (outcome : schedule.terminalOutcome = none) (stage : schedule.terminalStageId = none) :
    Settled db schedule :=
  ⟨fun _ => stage, fun set => absurd outcome set, fun set => absurd stage set⟩

theorem settled_step {db db' : StateDatabase} (settled : AllSettled db)
    (step : AdmittedStep db db') : AllSettled db' := by
  obtain ⟨operation, _, performed⟩ := step
  intro runId schedule found
  have run : schedule.runId = runId := Table.key_of_find? found
  rcases perform_cases performed with same | ⟨input, rfl, created⟩ | ⟨input, stored, rfl, attached⟩
  · rw [readPipelineSchedule, same.schedules_eq] at found
    exact (settled runId schedule found).frame fun id => by rw [same.stages_eq]
  · rw [readPipelineSchedule, created.schedules_eq, Table.find?_upsert] at found
    split at found
    · cases found
      exact .of_unset rfl rfl
    · rename_i other
      refine (settled runId schedule found).frame fun id => ?_
      rw [created.stages_eq, Table.find?_upsertAll_of_not_mem]
      intro listed
      obtain ⟨stage, member, same⟩ := List.mem_map.mp listed
      rw [(mem_initialStageSnapshots.mp member).2, run] at same
      exact other (congrArg Prod.fst same).symm
  · rw [readPipelineSchedule, attached.schedules_eq, Table.find?_upsert] at found
    have target : stored.runId = input.targetRunId := Table.key_of_find? attached.found
    split at found
    · cases found
      have before := settled _ _ attached.found
      exact .of_unset attached.unsettled (before.unset attached.unsettled)
    · rename_i other
      refine (settled runId schedule found).frame fun id => ?_
      rw [attached.stages_eq, Table.find?_upsertAll_of_not_mem]
      intro listed
      obtain ⟨stage, member, same⟩ := List.mem_map.mp listed
      have here : stage.runId = input.targetRunId := by
        rcases List.mem_append.mp member with old | new
        · obtain ⟨row, given, rfl⟩ := List.mem_map.mp old
          exact (mem_readPipelineStageProjections.mp given).2
        · rw [List.mem_singleton.mp new]
          rfl
      refine other ?_
      calc
        runId = schedule.runId := run.symm
        _ = stage.runId := (Prod.mk.inj same).1.symm
        _ = input.targetRunId := here
        _ = stored.runId := target.symm

section Ticks

variable [Sha256] {tick : DaemonTick} {schedule : PipelineScheduleSnapshot} {graph : PipelineGraph}

theorem kept_of_settled (plan : Planned tick schedule graph)
    (covered : Covered tick.before schedule)
    (settled : Settled tick.before schedule) (ended : schedule.terminalOutcome ≠ none)
    (unrerun : ¬ requestsRerun tick.input) (trace : Trace tick.record) {id : String}
    {row : StageSnapshot} (stored : tick.before.stages.find? (tick.runId, id) = some row) :
    trace.settled.stage? id = some (stageInput row) := by
  have found : trace.start.stage? id = some (stageInput row) := by
    rw [plan.start covered, stored]
    rfl
  have named : (stageInput row).stageId = id := stageId_of_stage? found
  rw [← plan.runId_eq] at stored
  have terminal : (stageInput row).state.isTerminal = true := settled.ended ended id row stored
  have steps : Steps NoRerun (tickScope trace.start) trace.start trace.settled :=
    trace.steps fun _ observation listed kind => unrerun ⟨observation, listed, kind⟩
  have kept := steps_terminal steps (fun _ _ admitted => admitted) (found_self found) terminal
  rwa [named] at kept

theorem columns (plan : Planned tick schedule graph) (covered : Covered tick.before schedule)
    (settled : Settled tick.before schedule) (closed : ¬ Reopens tick)
    (trace : Trace tick.record) :
    (updatedSchedule schedule tick.plan).terminalOutcome =
        tick.plan.terminal.map ScheduleTerminal.outcome ∧
      (updatedSchedule schedule tick.plan).terminalStageId =
        tick.plan.terminal.bind ScheduleTerminal.blockedStageId := by
  simp only [updatedSchedule]
  by_cases outcome : schedule.terminalOutcome = none
  · rw [outcome, settled.unset outcome, Option.or_none, Option.or_none]
    exact ⟨rfl, rfl⟩
  · have unrerun : ¬ requestsRerun tick.input := by
      intro rerun
      refine closed ⟨?_, rerun⟩
      rw [plan.found]
      exact Option.isSome_iff_ne_none.mpr outcome
    have ended : ∀ stage ∈ trace.settled.working.rows, stage.state.isTerminal = true := by
      intro stage member
      have key : stage.stageId ∈ trace.start.working.keys := by
        rw [← trace.keys, trace.final_working]
        exact Table.mem_keys_of_mem member
      obtain ⟨first, started⟩ := Table.exists_find? key
      have found : trace.start.stage? stage.stageId = some first := started
      rw [plan.start covered, Option.map_eq_some_iff] at found
      obtain ⟨row, stored, _⟩ := found
      have here : trace.settled.stage? stage.stageId = some stage := Table.find?_key member
      rw [kept_of_settled plan covered settled outcome unrerun trace stored] at here
      rw [← plan.runId_eq] at stored
      rw [← Option.some.inj here]
      exact settled.ended outcome stage.stageId row stored
    obtain ⟨terminal, computed⟩ :=
      Option.isSome_iff_exists.mp ((computeTerminal_isSome trace.terminal_eq).mpr ended)
    have planned : tick.plan.terminal = some terminal := computed
    refine ⟨by rw [planned]; rfl, ?_⟩
    rw [planned, Option.bind_some]
    by_cases named : schedule.terminalStageId = none
    · rw [named, Option.or_none]
    · obtain ⟨id, row, stored, state⟩ := settled.blocked named
      rw [plan.runId_eq] at stored
      have here := kept_of_settled plan covered settled outcome unrerun trace stored
      have final := trace.terminal_eq
      rw [computed] at final
      have blocked : terminal.blockedStageId ≠ none :=
        (computeTerminal_blocked final).mpr ⟨_, Table.mem_of_find? here, state⟩
      obtain ⟨stageId, same⟩ := Option.ne_none_iff_exists'.mp blocked
      rw [same]
      rfl

theorem coherent_tick (plan : Planned tick schedule graph) (committed : Committed tick)
    (covered : Covered tick.before schedule) (settled : Settled tick.before schedule)
    (closed : ¬ Reopens tick) : Coherent tick (updatedSchedule schedule tick.plan) := by
  obtain ⟨trace⟩ := committed.trace
  obtain ⟨outcome, stageId⟩ := columns plan covered settled closed trace
  have rows : ∀ stage, stage ∈ readPipelineStageProjections tick.after tick.runId ↔
      stage ∈ trace.final.working.rows := fun _ => plan.projections committed covered trace
  refine ⟨?_, ?_, ?_, ?_⟩
  · rw [plan.read_after, if_pos rfl]
  · rw [outcome, ne_eq, Option.map_eq_none_iff, ← ne_eq, ← Option.isSome_iff_ne_none]
    have ended := computeTerminal_isSome trace.terminal_eq
    rw [← trace.final_working] at ended
    refine ended.trans ?_
    simp only [rows]
  · intro ended
    rw [outcome] at ended
    obtain ⟨terminal, planned⟩ : ∃ terminal, tick.plan.terminal = some terminal := by
      cases computed : tick.plan.terminal with
      | none =>
        rw [computed] at ended
        exact absurd rfl ended
      | some terminal => exact ⟨terminal, rfl⟩
    refine ⟨terminal, planned, ?_, ?_, ?_⟩
    · rw [outcome, planned]
      rfl
    · simp only [updatedSchedule, planned, Option.map_some, Option.some_or]
    · rw [stageId, planned]
      rfl
  · intro stage
    rw [rows, ← trace.stagePatches_perm.mem_iff]
    rfl

theorem settled_tick (committed : Committed tick) (covered : AllCovered tick.before)
    (settled : AllSettled tick.before) (closed : ¬ Reopens tick) : AllSettled tick.after := by
  obtain ⟨stored, graph, plan⟩ := planned committed
  have coverage := covered _ _ plan.found
  obtain ⟨trace⟩ := committed.trace
  obtain ⟨outcome, stageId⟩ := columns plan coverage (settled _ _ plan.found) closed trace
  have coherent := coherent_tick plan committed coverage (settled _ _ plan.found) closed
  have run : (updatedSchedule stored tick.plan).runId = tick.runId := plan.runId_eq
  intro runId schedule found
  rw [plan.read_after] at found
  split at found
  · cases found
    refine ⟨?_, ?_, ?_⟩
    · intro unset
      rw [outcome, Option.map_eq_none_iff] at unset
      rw [stageId, unset]
      rfl
    · intro ended id stage here
      rw [run] at here
      have member := mem_readPipelineStageProjections.mpr
        ⟨Table.mem_of_find? here, congrArg Prod.fst (Table.key_of_find? here)⟩
      exact coherent.ended.mp ended stage member
    · intro named
      rw [stageId] at named
      obtain ⟨terminal, planned, blocked⟩ :=
        Option.bind_eq_some_iff.mp (Option.ne_none_iff_exists'.mp named).choose_spec
      have computed := trace.terminal_eq
      have here : tick.record.plan.terminal = some terminal := planned
      rw [here] at computed
      obtain ⟨stage, member, state⟩ :=
        (computeTerminal_blocked computed).mp (Option.ne_none_iff_exists'.mpr ⟨_, blocked⟩)
      rw [← trace.final_working] at member
      refine ⟨stage.stageId, stage, ?_, state⟩
      rw [run, plan.stored committed coverage trace]
      exact Table.find?_key member
  · have kept : schedule.runId = runId := Table.key_of_find? found
    refine (settled runId schedule found).frame fun id => ?_
    exact plan.others committed coverage (by rwa [kept])

end Ticks

/-- In every run of the service in which no settled schedule is rerun, the stored outcome, reason
and stage are after every tick the ones it computed for the stored stages. -/
theorem terminal_coherence [Sha256] {ticks : List DaemonTick} (run : AdmittedRun ticks)
    (closed : ∀ tick ∈ ticks, ¬ Reopens tick) :
    ∀ tick ∈ ticks, ∃ schedule, Coherent tick schedule := by
  have sound := run.invariant (P := fun db => AllCovered db ∧ AllSettled db)
    ⟨(fun _ _ impossible => nomatch impossible), (fun _ _ impossible => nomatch impossible)⟩
    (fun _ _ before step => ⟨covered_step before.1 step, settled_step before.2 step⟩)
    (fun tick member before committed => ⟨covered_tick before.1 committed,
      settled_tick committed before.1 before.2 (closed tick member)⟩)
  intro tick member
  obtain ⟨covered, settled⟩ := (sound tick member).1
  have committed := run.committed tick member
  obtain ⟨schedule, graph, plan⟩ := planned committed
  exact ⟨_, coherent_tick plan committed (covered _ _ plan.found) (settled _ _ plan.found)
    (closed tick member)⟩

def finishVisits : List Visit :=
  [{ operations := [.create
      { runId := "run", pipelineId := "pipeline", graph := repairable, now := "t0" }]
     runId := "run", now := "t0" },
    { operations :=
        [.observe "run" (stageObservation "o1" "build" "t1" .attemptStarted),
          .observe "run" (stageObservation "o2" "build" "t1" .attemptSucceeded)]
      runId := "run", now := "t1" }]

def reopenVisits : List Visit :=
  finishVisits ++
    [{ operations := [.observe "run" (stageObservation "o3" "build" "t2" .manualRerun)]
       runId := "run", now := "t2" }]

def finishedTicks : List DaemonTick := @serve blankDigest finishVisits emptyDatabase

def reopenedTicks : List DaemonTick := @serve blankDigest reopenVisits emptyDatabase

def storedOutcome (tick : DaemonTick) : Option TerminalOutcome :=
  (readPipelineSchedule tick.after tick.runId).bind PipelineScheduleSnapshot.terminalOutcome

theorem terminal_coherence_sample :
    finishedTicks.map storedOutcome = [none, some .succeeded] ∧
      ∀ tick ∈ finishedTicks, ∃ schedule, Coherent tick schedule := by
  refine ⟨by decide +kernel, ?_⟩
  let _ : Sha256 := blankDigest
  have closed : ∀ tick ∈ finishedTicks, ¬ Reopens tick := by decide +kernel
  exact terminal_coherence (serve_admitted (by decide)) closed

theorem terminal_stale :
    ¬ ∀ [Sha256] (ticks : List DaemonTick), AdmittedRun ticks →
      ∀ tick ∈ ticks, ∃ schedule, Coherent tick schedule := by
  intro claim
  let _ : Sha256 := blankDigest
  have coherent := claim reopenedTicks (serve_admitted (by decide))
  have broken : (reopenedTicks.any fun tick => (storedOutcome tick).isSome &&
      (readPipelineStageProjections tick.after tick.runId).any fun stage =>
        !stage.state.isTerminal) = true := by
    decide +kernel
  simp only [List.any_eq_true, Bool.and_eq_true, Bool.not_eq_eq_eq_not] at broken
  obtain ⟨tick, member, outcome, stage, listed, active⟩ := broken
  obtain ⟨schedule, stored, ended, _⟩ := coherent tick member
  rw [storedOutcome, stored] at outcome
  have terminal := ended.mp (Option.isSome_iff_ne_none.mp outcome) stage listed
  rw [active] at terminal
  cases terminal

end Heniek.TerminalCoherence
