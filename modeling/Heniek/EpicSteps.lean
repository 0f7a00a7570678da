import Heniek.EpicRuntime
import Heniek.WaveSteps

/-!
What the acts of an epic run can do to its world, as one step relation. A step of the
scheduler is taken on the graph that is active at that time. `perform_steps` says that
an act is a sequence of such steps, whether it returns or throws, and `runActs_invariant`
that what the steps keep holds after every run.
-/

namespace Heniek.EpicSteps
open EffectfulRun KeyedTable ScriptText FallibleRun RecoveryPolicy IntegrationStore TaskGraph
  GraphRevision WaveStore EpicStore WaveScheduler EpicRuntime WaveSteps

variable [Sha256] [Collation]

def Requested (change : PhaseChange) : Prop :=
  change = .cancelPending ∨ ∃ phase observation, statusChange phase observation = some change

inductive EpicStep (env : Environment) : EpicWorld → EpicWorld → Prop where
  | waved (w w' : EpicWorld) (suspended : Bool) (runId : String) (graph : TaskGraphRevisionRecord)
      (active : activeGraph w.graphs runId = some graph)
      (step : WaveStep env suspended runId graph.dag w w') : EpicStep env w w'
  | asked (w : EpicWorld) : EpicStep env w { w with calls := w.calls + 1 }
  | timed (w : EpicWorld) : EpicStep env w { w with readings := w.readings + 1 }
  | drawn (w : EpicWorld) : EpicStep env w { w with issued := w.issued + 1 }
  | changed (w : EpicWorld) (runId taskId : String) (change : PhaseChange)
      (row : TaskLifecycleProjection) (db : WaveDatabase) (requested : Requested change)
      (ok : changePhase w.waves runId taskId change = .ok (row, db)) :
      EpicStep env w (w.setWaves db)
  | initialized (w : EpicWorld) (input : InitialTaskGraph)
      (record result : TaskGraphRevisionRecord) (graphs : GraphDatabase)
      (created : createInitialTaskGraphRevision input = .ok record)
      (ok : initializeGraph w.graphs record = .ok (result, graphs)) :
      EpicStep env w { w with graphs := graphs }
  | proposed (w : EpicWorld) (input : ProposeTaskGraphRevisionInput) (outcome : RevisionOutcome)
      (graphs : GraphDatabase) (ok : propose w.graphs input = .ok (outcome, graphs)) :
      EpicStep env w { w with
        graphs := graphs
        log := w.log ++ revisedEvent w input.proposal.runId outcome.2 }
  | recorded (w : EpicWorld) (active : TaskGraphRevisionRecord)
      (input : ReportHiddenDependencyInput) (replan : HiddenDependencyReplan)
      (replanning : ReplanDatabase)
      (current : activeGraph w.graphs input.finding.runId = some active)
      (checked : checkReport w active input = .ok ())
      (ok : record w.replanning (recordInput input) = .ok (replan, replanning)) :
      EpicStep env w { w with
        replanning := replanning
        log := w.log ++ recordedEvent w active replan }
  | submitted (w : EpicWorld) (replan : HiddenDependencyReplan)
      (member : replan ∈ w.replanning.replans.rows) (revising : ongoing replan = true) :
      EpicStep env w { w with
        log := w.log ++ [.submitted replan (projectionsOf w replan.finding.runId)] }
  | advanced (w : EpicWorld) (input : AdvanceReplanInput) (replan : HiddenDependencyReplan)
      (replanning : ReplanDatabase) (ok : advance w.replanning input = .ok (replan, replanning)) :
      EpicStep env w { w with replanning := replanning }

abbrev EpicReach (env : Environment) : EpicWorld → EpicWorld → Prop :=
  Relation.ReflTransGen (EpicStep env)

section Frame

variable {env : Environment} {suspended : Bool} {runId : String} {dag : TaskDag}
variable {origin w w' : EpicWorld}

omit [Sha256] in
theorem waveStep_frame (step : WaveStep env suspended runId dag w w') :
    w'.graphs = w.graphs ∧ w'.replanning = w.replanning := by
  cases step with
  | propagated => exact ⟨blockAll_frame.graphs, blockAll_frame.replanning⟩
  | _ => exact ⟨rfl, rfl⟩

omit [Sha256] in
theorem waveReach_frame (reached : WaveReach env suspended runId dag w w') :
    w'.graphs = w.graphs ∧ w'.replanning = w.replanning := by
  induction reached with
  | refl => exact ⟨rfl, rfl⟩
  | tail _ step ih =>
    obtain ⟨graphs, replanning⟩ := waveStep_frame step
    exact ⟨graphs.trans ih.1, replanning.trans ih.2⟩

omit [Sha256] in
theorem waveStep_log (step : WaveStep env suspended runId dag w w') :
    ∀ event ∈ w.log, event ∈ w'.log := by
  cases step with
  | propagated => exact blockAll_frame.log
  | _ => exact fun _ logged => logged

theorem epicStep_log (step : EpicStep env w w') : ∀ event ∈ w.log, event ∈ w'.log := by
  cases step with
  | waved _ suspended runId graph active stepped => exact waveStep_log stepped
  | proposed => exact fun _ logged => List.mem_append_left _ logged
  | recorded => exact fun _ logged => List.mem_append_left _ logged
  | submitted => exact fun _ logged => List.mem_append_left _ logged
  | _ => exact fun _ logged => logged

theorem epicReach_waves {graph : TaskGraphRevisionRecord}
    (active : activeGraph w.graphs runId = some graph) (started : EpicReach env origin w)
    (reached : WaveReach env suspended runId graph.dag w w') : EpicReach env origin w' := by
  induction reached with
  | refl => exact started
  | tail before step ih =>
    refine ih.tail (EpicStep.waved _ _ suspended runId graph ?_ step)
    rw [(waveReach_frame before).1]
    exact active

end Frame

section Programs

variable {α : Type} {env : Environment} {origin : EpicWorld}
variable {G : GraphDatabase} {R : ReplanDatabase}

/-- A state of the run in which the graphs and the replans are these. -/
structure At (env : Environment) (origin : EpicWorld) (G : GraphDatabase) (R : ReplanDatabase)
    (w : EpicWorld) : Prop where
  reached : EpicReach env origin w
  graphs : w.graphs = G
  replanning : w.replanning = R

variable {x : EpicProgram α} {Q : α → EpicWorld → Prop} {runId : String}
  {graph : TaskGraphRevisionRecord} {P : EpicWorld → Prop} {replan : HiddenDependencyReplan}
  {input : EpicRuntimeTickInput} {tasks : List TaskLifecycleProjection}

theorem ensures_waves {suspended : Bool} (active : activeGraph G runId = some graph)
    (ran : ∀ w, Ensures (WaveReach env suspended runId graph.dag w) x
      (fun a w' => Q a w' ∧ WaveReach env suspended runId graph.dag w w')
      (WaveReach env suspended runId graph.dag w)) :
    Ensures (At env origin G R) x (fun a w => Q a w ∧ At env origin G R w)
      (EpicReach env origin) := by
  intro w here
  obtain ⟨returns, throws⟩ := ran w w Relation.ReflTransGen.refl
  have current : activeGraph w.graphs runId = some graph := by rw [here.graphs]; exact active
  refine ⟨?_, fun e same => epicReach_waves current here.reached (throws e same)⟩
  intro a same
  obtain ⟨holds, reached⟩ := returns a same
  obtain ⟨graphs, replanning⟩ := waveReach_frame reached
  refine ⟨holds, epicReach_waves current here.reached reached, ?_, ?_⟩
  · exact graphs.trans here.graphs
  · exact replanning.trans here.replanning

theorem ensures_activeGraphOf (here : ∀ w, P w → At env origin G R w) :
    Ensures P (activeGraphOf runId)
      (fun graph w => activeGraph G runId = some graph ∧ P w) (EpicReach env origin) := by
  unfold activeGraphOf
  refine Ensures.bind (Q := fun found w => found = activeGraph G runId ∧ P w)
    (Ensures.read fun w started => ⟨by rw [(here w started).graphs], started⟩) fun found => ?_
  refine Ensures.given fun same => ?_
  split
  · exact Ensures.throw fun w started => (here w started).reached
  · exact Ensures.pure fun _ started => ⟨same.symm, started⟩

omit [Sha256] [Collation] in
/-- An assertion may be made about the state that it starts from. -/
theorem ensures_from {E : EpicWorld → Prop}
    (ran : ∀ G R, Ensures (fun w => P w ∧ w.graphs = G ∧ w.replanning = R) x Q E) :
    Ensures P x Q E := by
  intro w holds
  exact ran w.graphs w.replanning w ⟨holds, rfl, rfl⟩

/-- A program may be started wherever the run has come to. -/
theorem ensures_at (ran : ∀ G R, Ensures (At env origin G R) x Q (EpicReach env origin)) :
    Ensures (EpicReach env origin) x Q (EpicReach env origin) := by
  refine ensures_from fun G R => ?_
  exact (ran G R).mono (fun _ here => ⟨here.1, here.2.1, here.2.2⟩) (fun _ _ h => h) fun _ h => h

theorem ensures_requested {taskId : String} {change : PhaseChange} (requested : Requested change) :
    Preserves (EpicReach env origin) (changeTask runId taskId change) := by
  refine ensures_waved ?_ fun _ reached => reached
  intro w row db reached ok
  exact reached.tail (EpicStep.changed w runId taskId change row db requested ok)

theorem ensures_cancel {taskId : String} :
    Preserves (EpicReach env origin) (cancel env runId taskId) := by
  have requested : Requested .requestCancellation := Or.inr ⟨.active, .cancelling, rfl⟩
  have cancels : Ensures (EpicReach env origin)
      (do
        let cancelling ← changeTask runId taskId .requestCancellation
        cancelChild env cancelling)
      (fun _ => EpicReach env origin) (EpicReach env origin) := by
    refine Ensures.bind (ensures_requested requested) fun cancelling => ?_
    unfold cancelChild
    split
    · exact Ensures.pure_kept
    · intro w reached
      have asked : EpicReach env origin { w with calls := w.calls + 1 } :=
        reached.tail (EpicStep.asked w)
      exact ⟨fun _ _ => asked, fun _ _ => asked⟩
  refine Ensures.bind Ensures.read_kept fun found => ?_
  split
  · exact Ensures.throw fun _ reached => reached
  · split
    · refine Ensures.bind (ensures_requested (Or.inl rfl)) fun _ => ?_
      exact Ensures.pure_kept
    · exact cancels
    · exact cancels
    · exact cancels
    · exact Ensures.pure_kept

theorem ensures_readClock :
    Preserves (EpicReach env origin) (readClock env) := by
  intro w reached
  exact ⟨fun _ _ => reached.tail (EpicStep.timed w), nofun⟩

theorem ensures_initializeRun {input : InitialTaskGraph} :
    Preserves (EpicReach env origin) (initializeRun env input) := by
  refine Ensures.bind ensures_readClock fun now => ?_
  refine Ensures.transact ?_ fun _ reached => reached
  intro w _ w' reached ok
  split at ok
  · cases ok
  · rename_i record created
    split at ok
    · cases ok
    · rename_i result graphs initialized
      cases ok
      exact reached.tail (EpicStep.initialized w _ record result graphs created initialized)

theorem ensures_submit {input : SubmitTaskGraphRevisionInput} :
    Ensures (EpicReach env origin) (submit env input)
      (fun outcome w => (∀ record, outcome.2 = some record →
        activeGraph w.graphs input.proposal.runId = some record) ∧ EpicReach env origin w)
      (EpicReach env origin) := by
  unfold submit
  refine Ensures.bind (Q := fun _ => EpicReach env origin) ?_ fun decisionId => ?_
  · intro w reached
    exact ⟨fun _ _ => reached.tail (EpicStep.drawn w), nofun⟩
  · refine Ensures.bind ensures_readClock fun decidedAt => ?_
    refine Ensures.transact ?_ fun _ reached => reached
    intro w outcome w' reached ok
    split at ok
    · cases ok
    · rename_i result graphs proposed
      cases ok
      refine ⟨?_, reached.tail (EpicStep.proposed w _ outcome graphs proposed)⟩
      intro record accepted
      obtain ⟨current, active, ⟨rejected, _⟩ | ⟨committed, same, follows, after⟩⟩ :=
        propose_ok proposed
      · rw [rejected] at accepted
        cases accepted
      · cases Option.some.inj (same.symm.trans accepted)
        have run : input.proposal.runId = record.runId :=
          (follows.sameRun.trans (runId_of_activeGraph active)).symm
        rw [after, if_pos run]

theorem ensures_recordReport {active : TaskGraphRevisionRecord}
    {input : ReportHiddenDependencyInput}
    (current : activeGraph G input.finding.runId = some active) :
    Ensures (At env origin G R) (recordReport active input) (fun _ => EpicReach env origin)
      (EpicReach env origin) := by
  refine Ensures.transact ?_ fun _ here => here.reached
  intro w replan w' here ok
  split at ok
  · cases ok
  · rename_i checked
    split at ok
    · cases ok
    · rename_i result replanning recorded
      cases ok
      have active' : activeGraph w.graphs input.finding.runId = some active := by
        rw [here.graphs]
        exact current
      exact here.reached.tail
        (EpicStep.recorded w active input replan replanning active' checked recorded)

theorem ensures_reportHiddenDependency {input : ReportHiddenDependencyInput} :
    Preserves (EpicReach env origin) (reportHiddenDependency env input) := by
  refine ensures_at fun G R => ?_
  refine Ensures.bind (ensures_activeGraphOf fun _ here => here) fun active => ?_
  refine Ensures.given fun current => ?_
  refine Ensures.bind (ensures_recordReport current) fun replan => ?_
  exact Ensures.forEach fun _ _ => ensures_cancel

theorem ensures_advanceReplan {input : AdvanceReplanInput} :
    Ensures (At env origin G R) (advanceReplan input)
      (fun replan w => (∃ R', advance R input = .ok (replan, R') ∧ w.replanning = R') ∧
        EpicReach env origin w ∧ w.graphs = G) (EpicReach env origin) := by
  refine Ensures.transact ?_ fun _ here => here.reached
  intro w replan w' here ok
  split at ok
  · cases ok
  · rename_i result replanning advanced
    cases ok
    refine ⟨⟨replanning, ?_, rfl⟩, ?_, here.graphs⟩
    · rw [← here.replanning]
      exact advanced
    · exact here.reached.tail (EpicStep.advanced w input replan replanning advanced)

theorem ensures_advanced {input : AdvanceReplanInput} :
    Ensures (At env origin G R) (advanceReplan input)
      (fun _ w => EpicReach env origin w ∧ w.graphs = G) (EpicReach env origin) :=
  ensures_advanceReplan.weaken fun _ _ holds => holds.2

theorem ensures_blockReplan {blocker : ReplanBlocker} :
    Preserves (EpicReach env origin) (blockReplan replan blocker) := by
  refine ensures_at fun G R => ?_
  refine Ensures.bind ensures_advanced fun _ => ?_
  exact Ensures.pure fun _ holds => holds.1

theorem ensures_schedulerTick {suspended : Bool} (active : activeGraph G input.runId = some graph) :
    Ensures (At env origin G R) (tick env (schedulerInput input graph.dag suspended))
      (fun tasks w => tasks = projectionsOf w input.runId ∧ At env origin G R w)
      (EpicReach env origin) :=
  ensures_waves active fun w =>
    @ensures_tick _ env suspended w (schedulerInput input graph.dag suspended) rfl

theorem ensures_resume {decisionId : Option String}
    (active : activeGraph G input.runId = some graph) :
    Ensures (At env origin G R) (resume env input replan graph decisionId)
      (fun _ => EpicReach env origin) (EpicReach env origin) := by
  refine Ensures.bind ensures_advanced fun _ => ?_
  refine Ensures.bind (Q := fun _ => EpicReach env origin) ?_ fun _ => ?_
  · refine ensures_from fun G' R' => ?_
    refine Ensures.mono (P := fun w => G' = G ∧ At env origin G R' w) ?_ ?_
      (fun _ w holds => holds) fun _ holds => holds
    · refine Ensures.given fun _ => ?_
      exact (ensures_schedulerTick active).weaken fun _ _ holds => holds.2.reached
    · rintro w ⟨⟨reached, graphs⟩, same, replanning⟩
      exact ⟨same.symm.trans graphs, reached, graphs, replanning⟩
  · exact Ensures.pure_kept

theorem ensures_submitReplan (member : replan ∈ R.replans.rows) (revising : ongoing replan = true)
    (sameRun : replan.finding.runId = input.runId) :
    Ensures (fun w => tasks = projectionsOf w input.runId ∧ At env origin G R w)
      (submitReplan env input replan graph tasks) (fun _ => EpicReach env origin)
      (EpicReach env origin) := by
  unfold submitReplan
  refine Ensures.bind (Q := fun _ => EpicReach env origin) ?_ fun _ => ?_
  · refine Ensures.modify ?_
    rintro w ⟨rfl, here⟩
    have stored : replan ∈ w.replanning.replans.rows := by rw [here.replanning]; exact member
    rw [← sameRun]
    exact here.reached.tail (EpicStep.submitted w replan stored revising)
  · refine Ensures.bind ensures_submit fun outcome => ?_
    split
    · exact ensures_blockReplan.mono (fun _ holds => holds.2) (fun _ _ h => h) fun _ h => h
    · rename_i record accepted
      refine ensures_from fun G' R' => ?_
      refine Ensures.mono (P := fun w => activeGraph G' input.runId = some record ∧
        At env origin G' R' w) ?_ ?_ (fun _ _ holds => holds) fun _ holds => holds
      · exact Ensures.given fun active => ensures_resume active
      · rintro w ⟨⟨active, reached⟩, graphs, replanning⟩
        refine ⟨?_, reached, graphs, replanning⟩
        rw [← graphs, ← sameRun, ← replan.sameRun]
        exact active record accepted

structure Replanning (env : Environment) (origin : EpicWorld) (runId : String)
    (tasks : List TaskLifecycleProjection) (replan : HiddenDependencyReplan)
    (w : EpicWorld) : Prop where
  reached : EpicReach env origin w
  listed : tasks = projectionsOf w runId
  member : replan ∈ w.replanning.replans.rows
  unfinished : ongoing replan = true
  sameRun : replan.finding.runId = runId

theorem ensures_replanning
    (ran : ∀ G R, replan ∈ R.replans.rows → ongoing replan = true →
      replan.finding.runId = runId →
        Ensures (fun w => tasks = projectionsOf w runId ∧ At env origin G R w) x Q
          (EpicReach env origin)) :
    Ensures (Replanning env origin runId tasks replan) x Q (EpicReach env origin) := by
  intro w replanning
  exact ran w.graphs w.replanning replanning.member replanning.unfinished replanning.sameRun w
    ⟨replanning.listed, replanning.reached, rfl, rfl⟩

theorem ensures_begin : Ensures (Replanning env origin runId tasks replan)
      (advanceReplan
        { replanId := replan.replanId
          expectedLifecycle := .quiescing
          lifecycle := .revising })
      (fun revising => Replanning env origin runId tasks revising) (EpicReach env origin) := by
  refine Ensures.transact ?_ fun _ replanning => replanning.reached
  intro w revising w' replanning ok
  split at ok
  · cases ok
  · rename_i result replans advanced
    cases ok
    obtain ⟨current, moved⟩ := advance_ok advanced
    have same : some replan = some current :=
      (Table.find?_key replanning.member).symm.trans moved.found
    cases same
    refine ⟨?_, replanning.listed, moved.stored, ?_, ?_⟩
    · exact replanning.reached.tail (EpicStep.advanced w _ revising replans advanced)
    · exact decide_eq_true (Or.inr moved.lifecycle)
    · rw [moved.finding]
      exact replanning.sameRun

theorem ensures_quiesce :
    Ensures (Replanning env origin runId tasks replan) (quiesce env runId replan tasks)
      (fun result w => EpicReach env origin w ∧ ∀ next, result = some next →
        Replanning env origin runId tasks next w) (EpicReach env origin) := by
  have kept : ∀ w, Replanning env origin runId tasks replan w → EpicReach env origin w ∧
      ∀ next, some replan = some next → Replanning env origin runId tasks next w := by
    intro w replanning
    refine ⟨replanning.reached, ?_⟩
    rintro _ ⟨rfl⟩
    exact replanning
  unfold quiesce
  split
  · refine Ensures.bind Ensures.read_kept fun found => ?_
    split
    · refine Ensures.bind (Q := fun _ => EpicReach env origin) ?_ fun _ => ?_
      · exact ensures_blockReplan.mono (fun _ replanning => replanning.reached)
          (fun _ _ reached => reached) fun _ reached => reached
      · exact Ensures.pure fun _ reached =>
          ⟨reached, fun _ same => absurd same.symm (Option.some_ne_none _)⟩
    · refine Ensures.bind ensures_begin fun revising => ?_
      refine Ensures.pure fun w replanning => ⟨replanning.reached, ?_⟩
      rintro _ ⟨rfl⟩
      exact replanning
    · exact Ensures.pure kept
  · exact Ensures.pure kept

theorem ensures_revise :
    Ensures (Replanning env origin input.runId tasks replan) (revise env input replan tasks)
      (fun _ => EpicReach env origin) (EpicReach env origin) := by
  unfold revise
  split
  · refine ensures_replanning fun G R member unfinished sameRun => ?_
    refine Ensures.bind (ensures_activeGraphOf fun _ started => started.2) fun graph => ?_
    refine Ensures.given fun active => ?_
    split
    · exact (ensures_resume active).mono (fun _ started => started.2) (fun _ _ h => h) fun _ h => h
    · exact ensures_submitReplan member unfinished sameRun
  · exact Ensures.pure fun _ replanning => replanning.reached

theorem ensures_replanRun :
    Ensures (Replanning env origin input.runId tasks replan) (replanRun env input tasks replan)
      (fun _ => EpicReach env origin) (EpicReach env origin) := by
  refine Ensures.bind ensures_quiesce fun result => ?_
  split
  · exact Ensures.pure fun _ started => started.1
  · rename_i next
    exact ensures_revise.mono (fun _ started => started.2 next rfl) (fun _ _ h => h) fun _ h => h

theorem ensures_tickRun :
    Preserves (EpicReach env origin) (tickRun env input) := by
  refine ensures_at fun G R => ?_
  refine Ensures.bind (ensures_activeGraphOf fun _ here => here) fun graph => ?_
  refine Ensures.given fun active => ?_
  refine Ensures.bind (Q := fun replan w => replan = activeReplan R input.runId ∧
      At env origin G R w)
    (Ensures.read fun w here => ⟨by rw [here.replanning], here⟩) fun replan => ?_
  refine Ensures.given fun read => ?_
  refine Ensures.bind (ensures_schedulerTick active) fun tasks => ?_
  split
  · exact Ensures.pure fun _ started => started.2.reached
  · obtain ⟨member, unfinished, sameRun⟩ := mem_activeReplan read.symm
    refine ensures_replanRun.mono ?_ (fun _ _ h => h) fun _ h => h
    rintro w ⟨listed, here⟩
    exact ⟨here.reached, listed, by rw [here.replanning]; exact member, unfinished, sameRun⟩

theorem ensures_program {act : Act} :
    Preserves (EpicReach env origin) (program env act) := by
  cases act with
  | initialized input => exact ensures_initializeRun
  | tick input => exact ensures_tickRun
  | reported input => exact ensures_reportHiddenDependency
  | submitted input =>
    refine Ensures.bind ensures_submit fun _ => ?_
    exact Ensures.pure fun _ holds => holds.2
  | reconciled runId =>
    refine ensures_at fun G R => ?_
    refine Ensures.bind (ensures_activeGraphOf fun _ here => here) fun graph => ?_
    refine Ensures.given fun active => ?_
    refine Ensures.weaken (Q := fun _ w => True ∧ At env origin G R w) ?_
      fun _ _ holds => holds.2.reached
    have settles : ∀ w, Ensures (WaveReach env false runId graph.dag w)
        (settleTasks env runId graph.dag)
        (fun _ w' => True ∧ WaveReach env false runId graph.dag w w')
        (WaveReach env false runId graph.dag w) :=
      fun w => ensures_settleTasks.weaken fun _ _ reached => ⟨trivial, reached⟩
    exact ensures_waves active settles
  | cancelled runId taskId => exact ensures_cancel
  | late runId task observation =>
    refine Ensures.bind (Q := fun _ => EpicReach env origin) ?_ fun _ => ?_
    · unfold applyDriverStatus
      split
      · exact Ensures.pure_kept
      · rename_i change cause
        exact ensures_requested (Or.inr ⟨_, _, cause⟩)
    · exact Ensures.pure_kept

/-- An act is a sequence of steps, whether it returns or throws. -/
theorem perform_steps (env : Environment) (w : EpicWorld) (act : Act) :
    EpicReach env w (perform env w act) :=
  ensures_final ensures_program Relation.ReflTransGen.refl

theorem runActs_invariant {env : Environment} (step : ∀ w w', EpicStep env w w' → P w → P w')
    (initial : P start) (acts : List Act) : P (runActs env acts) := by
  have run : ∀ (acts : List Act) (w : EpicWorld), P w → P (acts.foldl (perform env) w) := by
    intro acts
    induction acts with
    | nil => exact fun _ holds => holds
    | cons act acts ih =>
      intro w holds
      refine ih _ ?_
      exact steps_invariant (fun b c held stepped => step b c stepped held) holds
        (perform_steps env w act)
  exact run acts start initial

end Programs

end Heniek.EpicSteps
