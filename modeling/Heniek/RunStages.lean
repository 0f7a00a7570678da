import Heniek.NativeBridgeServiceSteps

/-!
The status of a native run and the state of its stage. The run follows its stage, nothing
changes it once the stage is settled, and only a resume or a cancellation takes a stage
out of recovery, as long as answers and late failures reach a stage that expects them.
-/

namespace Heniek.RunStages
open KeyedTable NativeBridge BridgeModel
open ProjectionTables (RunStatus)

/-- The statuses of the run of a stage. -/
def image : StageState → RunStatus → Bool
  | .waitingForParent, status => decide (status = .waitingForParentSession)
  | .dispatched, status => decide (status = .running)
  | .waitingOnUser, status => decide (status = .waitingOnUser)
  | .recoveryRequired, status => decide (status = .recoveryRequired)
  | .settled, status => terminal status

/-- Answers come to a stage that is with its parent, and late failures to one that waits for it. -/
structure Timely (w : ServiceWorld) (service : ServiceCall) : Prop where
  late : ∀ {claim dispatch stage}, failedClaim w service = some claim →
    w.db.dispatches.find? claim.dispatchId = some dispatch → dispatch.state = .abandoned →
      w.db.stages.find? claim.runId = some stage → stage.state = .waitingForParent
  answers : ∀ {input result stage}, service = .answer input →
    answerable w.db input = .ok result → w.db.stages.find? input.runId = some stage →
      stage.state.engaged = true

def timelyRules : Rules where
  late v r := ∀ stage, v.stages r = some stage → stage.state = .waitingForParent
  answers v r := ∀ stage, v.stages r = some stage → stage.state.engaged = true

variable {w : ServiceWorld} {service : ServiceCall} {v v' : Bridge} {r : String}
variable {action : Action} {stage : StageView}

theorem allowed_of_timely (timely : Timely w service) : Allowed timelyRules w service where
  late := by
    intro claim x failed found abandoned stage listed
    obtain ⟨dispatch, known, same⟩ := Option.map_eq_some_iff.mp found
    obtain ⟨row, known', same'⟩ := Option.map_eq_some_iff.mp listed
    rw [← same] at abandoned
    rw [← same']
    exact timely.late failed known abandoned known'
  answers := by
    intro input result answers ok stage listed
    obtain ⟨row, known, same⟩ := Option.map_eq_some_iff.mp listed
    rw [← same]
    exact timely.answers answers ok known

theorem spares (v : Bridge) (r : String) (inv : Exclusive v) (late : timelyRules.late v r) :
    Idle v r := by
  intro d x found own
  by_contra current
  obtain ⟨stage, listed, engaged, _⟩ := inv.engaged found (by simpa using current)
  rw [own] at listed
  rw [late stage listed] at engaged
  cases engaged

structure Imaged (v : Bridge) : Prop where
  follows : ∀ {r stage}, v.stages r = some stage →
    ∃ status, v.runs r = some status ∧ image stage.state status = true

theorem Imaged.entered {change : StageView → StageView} {status : RunStatus} (imaged : Imaged v)
    (stages : v'.stages = v.stages) (runs : v'.runs = v.runs)
    (follows : ∀ stage, v.stages r = some stage → image (change stage).state status = true) :
    Imaged (v'.enter r change status) := by
  constructor
  intro r' stage' found
  rw [enter_stages, stages] at found
  by_cases same : r' = r
  · rw [if_pos same, same] at found
    obtain ⟨stage, listed, entered⟩ := Option.map_eq_some_iff.mp found
    refine ⟨status, ?_, ?_⟩
    · rw [same]
      exact Function.update_self _ _ _
    · rw [← entered]
      exact follows stage listed
  · rw [if_neg same] at found
    obtain ⟨status', known, follows'⟩ := imaged.follows found
    refine ⟨status', ?_, follows'⟩
    rw [← known, ← runs]
    exact Function.update_of_ne same _ _

theorem image_answered (engaged : stage.state.engaged = true) :
    image stage.answered.state .running = true := by
  unfold StageView.answered
  split_ifs with waits
  · rfl
  · cases state : stage.state with
    | dispatched => rfl
    | waitingOnUser => exact absurd state waits
    | _ =>
      rw [state] at engaged
      cases engaged

theorem Imaged.same (imaged : Imaged v) (stages : v'.stages = v.stages)
    (runs : v'.runs = v.runs) : Imaged v' := by
  constructor
  intro r stage found
  rw [stages] at found
  rw [runs]
  exact imaged.follows found

theorem Imaged.recovered (imaged : Imaged v) (stages : v'.stages = v.stages)
    (runs : v'.runs = v.runs) (r : String) : Imaged (v'.recovered r) := by
  unfold Bridge.recovered
  split
  · exact imaged.entered stages runs fun _ _ => rfl
  · exact imaged.same stages runs

theorem abandoned_recovers (v : Bridge) (d : Nat) (r : String) :
    ∃ closed : Bridge, closed.stages = v.stages ∧ closed.runs = v.runs ∧
      v.abandoned d r = closed.recovered r := by
  unfold Bridge.abandoned
  split
  · exact ⟨v.mapDispatch d (DispatchView.entered .abandoned), rfl, rfl, rfl⟩
  · rename_i i _
    exact ⟨(v.mapDispatch d (DispatchView.entered .abandoned)).mapQuestion (r, i)
      QuestionView.cancelled, rfl, rfl, rfl⟩

theorem Imaged.acted (imaged : Imaged v) (acts : Acts v action v')
    (permitted : Permits timelyRules v action) : Imaged v' := by
  cases acts with
  | openRun fresh =>
    constructor
    intro r' stage found
    obtain ⟨status, known, follows⟩ := imaged.follows found
    refine ⟨status, ?_, follows⟩
    rw [← known]
    apply Function.update_of_ne
    intro same
    rw [same, fresh] at known
    cases known
  | create fresh =>
    rename_i r
    constructor
    intro r' stage found
    by_cases same : r' = r
    · simp only [Bridge.created, Bridge.setRun, same, Function.update_self,
        Option.some.injEq] at found
      refine ⟨.waitingForParentSession, ?_, by rw [← found]; rfl⟩
      rw [same]
      exact Function.update_self _ _ _
    · simp only [Bridge.created, Bridge.setRun, Function.update_of_ne same] at found
      obtain ⟨status, known, follows⟩ := imaged.follows found
      refine ⟨status, ?_, follows⟩
      rw [← known]
      exact Function.update_of_ne same _ _
  | abandon found current =>
    rename_i d x
    obtain ⟨closed, stages, runs, same⟩ := abandoned_recovers v d x.runId
    rw [same]
    exact imaged.recovered stages runs _
  | release found current unasked => exact imaged.entered rfl rfl fun _ _ => rfl
  | claim found waits newAttempt newDispatch => exact imaged.entered rfl rfl fun _ _ => rfl
  | fail closable => exact imaged.entered rfl rfl fun _ _ => rfl
  | raise found current fresh => exact imaged.entered rfl rfl fun _ _ => rfl
  | answer found pending =>
    exact imaged.entered rfl rfl fun stage listed => image_answered (permitted stage listed)
  | submit found current => exact imaged.same rfl rfl
  | settle claimed =>
    refine imaged.entered rfl rfl ?_
    intro stage listed
    exact permitted.2.1
  | finish claimed => exact permitted.elim
  | resume found lost => exact imaged.entered rfl rfl fun _ _ => rfl
  | cancel found current claimed => exact imaged.entered rfl rfl fun _ _ => rfl

theorem enter_elsewhere {change : StageView → StageView} {status : RunStatus} {r' : String}
    (stages : v'.stages = v.stages) (runs : v'.runs = v.runs) (other : r ≠ r') :
    (v'.enter r' change status).stages r = v.stages r ∧
      (v'.enter r' change status).runs r = v.runs r := by
  rw [enter_stages, if_neg other, stages]
  refine ⟨rfl, ?_⟩
  rw [← runs]
  exact Function.update_of_ne other _ _

theorem recovered_elsewhere (stages : v'.stages = v.stages) (runs : v'.runs = v.runs)
    (r' : String) (found : v.stages r = some stage) :
    ((v'.recovered r').stages r = v.stages r ∧ (v'.recovered r').runs r = v.runs r) ∨
      stage.state.engaged = true := by
  unfold Bridge.recovered
  split
  · rename_i engaged
    by_cases same : r = r'
    · right
      rw [stages, ← same, found] at engaged
      exact engaged
    · exact .inl (enter_elsewhere stages runs same)
  · rw [stages, runs]
    exact .inl ⟨rfl, rfl⟩

theorem left_by (inv : Exclusive v) (imaged : Imaged v) (acts : Acts v action v')
    (permitted : Permits timelyRules v action) (found : v.stages r = some stage) :
    (v'.stages r = v.stages r ∧ v'.runs r = v.runs r) ∨ stage.state.engaged = true ∨
      stage.state = .waitingForParent ∨
        (stage.state ≠ .settled ∧ (action = .resume r ∨ action = .cancel r)) := by
  have engaged : ∀ {d x}, v.dispatches d = some x → x.state.isOpen = true → r = x.runId →
      stage.state.engaged = true := by
    intro d x known current own
    obtain ⟨stage', listed, engaged, _⟩ := inv.engaged known current
    rw [← own, found] at listed
    cases listed
    exact engaged
  cases acts with
  | openRun fresh =>
    obtain ⟨status, known, _⟩ := imaged.follows found
    refine .inl ⟨rfl, Function.update_of_ne ?_ _ _⟩
    intro same
    rw [← same, known] at fresh
    cases fresh
  | create fresh =>
    rename_i r'
    have other : r ≠ r' := by
      intro same
      rw [← same, found] at fresh
      cases fresh
    exact .inl ⟨Function.update_of_ne other _ _, Function.update_of_ne other _ _⟩
  | abandon found' current =>
    rename_i d x
    obtain ⟨closed, stages, runs, same⟩ := abandoned_recovers v d x.runId
    rw [same]
    exact (recovered_elsewhere stages runs _ found).imp id .inl
  | release found' current unasked =>
    rename_i d x
    by_cases own : r = x.runId
    · exact .inr (.inl (engaged found' current own))
    · exact .inl (enter_elsewhere rfl rfl own)
  | claim found' waits newAttempt newDispatch =>
    rename_i r' a d stage'
    by_cases own : r = r'
    · rw [← own, found] at found'
      cases found'
      exact .inr (.inr (.inl waits))
    · exact .inl (enter_elsewhere rfl rfl own)
  | fail closable =>
    rename_i r' d
    obtain ⟨x, known, run, late⟩ := permitted
    by_cases own : r = r'
    · cases closable x known with
      | inl current => exact .inr (.inl (engaged known current (own.trans run.symm)))
      | inr abandoned => exact .inr (.inr (.inl (late abandoned stage (own ▸ found))))
    · exact .inl (enter_elsewhere rfl rfl own)
  | raise found' current fresh =>
    rename_i i d x
    by_cases own : r = x.runId
    · exact .inr (.inl (engaged found' (by rw [current]; rfl) own))
    · exact .inl (enter_elsewhere rfl rfl own)
  | answer found' pending =>
    rename_i r' i question
    by_cases own : r = r'
    · exact .inr (.inl (permitted stage (own ▸ found)))
    · exact .inl (enter_elsewhere rfl rfl own)
  | submit found' current => exact .inl ⟨rfl, rfl⟩
  | settle claimed =>
    rename_i r' status
    by_cases own : r = r'
    · exact .inr (.inl (permitted.2.2 stage (own ▸ found)))
    · exact .inl (enter_elsewhere rfl rfl own)
  | finish claimed => exact permitted.elim
  | resume found' lost =>
    rename_i r' stage'
    by_cases own : r = r'
    · rw [← own, found] at found'
      cases found'
      refine .inr (.inr (.inr ⟨?_, .inl (by rw [own])⟩))
      simp [lost]
    · exact .inl (enter_elsewhere rfl rfl own)
  | cancel found' current claimed =>
    rename_i r' stage'
    by_cases own : r = r'
    · rw [← own, found] at found'
      cases found'
      exact .inr (.inr (.inr ⟨current, .inr (by rw [own])⟩))
    · exact .inl (enter_elsewhere rfl rfl own)

theorem Imaged.guided (inv : Exclusive v) (imaged : Imaged v)
    (course : Guided (Lawful timelyRules service) v v') : Exclusive v' ∧ Imaged v' := by
  induction course with
  | refl => exact ⟨inv, imaged⟩
  | tail _ last ih =>
    obtain ⟨action, lawful, acts⟩ := last
    exact ⟨ih.1.acted acts (inTime_of_lawful spares ih.1 lawful),
      ih.2.acted acts lawful.1⟩

theorem unasked (other : (∀ revision, service ≠ .resume r revision) ∧ service ≠ .cancel r)
    (belongs : Belongs service action) : ¬ (action = .resume r ∨ action = .cancel r) := by
  intro asks
  cases service with
  | poll input =>
    cases belongs with
    | inl abandons =>
      obtain ⟨d, same⟩ := abandons
      rw [same] at asks
      cases asks with
      | inl resumes => cases resumes
      | inr cancels => cases cancels
    | inr claims =>
      obtain ⟨r', a, d, same⟩ := claims
      rw [same] at asks
      cases asks with
      | inl resumes => cases resumes
      | inr cancels => cases cancels
  | resume runId revision =>
    have own : action = .resume runId := belongs
    rw [own] at asks
    cases asks with
    | inl resumes =>
      cases resumes
      exact other.1 revision rfl
    | inr cancels => cases cancels
  | cancel runId =>
    have own : action = .cancel runId := belongs
    rw [own] at asks
    cases asks with
    | inl resumes => cases resumes
    | inr cancels =>
      cases cancels
      exact other.2 rfl
  | _ =>
    cases asks with
    | inl resumes => exact belongs.2.1 _ resumes
    | inr cancels => exact belongs.2.2 _ cancels

theorem stays (inv : Exclusive v) (imaged : Imaged v)
    (course : Guided (Lawful timelyRules service) v v') (found : v.stages r = some stage)
    (kind : stage.state = .settled ∨ (stage.state = .recoveryRequired ∧
      (∀ revision, service ≠ .resume r revision) ∧ service ≠ .cancel r)) :
    v'.stages r = some stage ∧ v'.runs r = v.runs r := by
  have away : stage.state.engaged = false ∧ stage.state ≠ .waitingForParent := by
    cases kind with
    | inl settled => simp [settled, StageState.engaged]
    | inr lost => simp [lost.1, StageState.engaged]
  have whole : (Exclusive v' ∧ Imaged v') ∧ v'.stages r = some stage ∧ v'.runs r = v.runs r := by
    induction course with
    | refl => exact ⟨⟨inv, imaged⟩, found, rfl⟩
    | tail _ last ih =>
      obtain ⟨action, lawful, acts⟩ := last
      obtain ⟨invs, listed, run⟩ := ih
      refine ⟨⟨invs.1.acted acts (inTime_of_lawful spares invs.1 lawful),
        invs.2.acted acts lawful.1⟩, ?_⟩
      cases left_by invs.1 invs.2 acts lawful.1 listed with
      | inl same => exact ⟨same.1.trans listed, same.2.trans run⟩
      | inr leaves =>
        cases leaves with
        | inl engaged => simp [engaged] at away
        | inr leaves =>
          cases leaves with
          | inl waits => exact absurd waits away.2
          | inr asks =>
            cases kind with
            | inl settled => exact absurd settled asks.1
            | inr lost => exact (unasked lost.2 lawful.2 asks.2).elim
  exact whole.2

theorem timely_imaged (served : ServedWith Timely w) :
    (Exclusive (view w.db) ∧ Flights w) ∧ Imaged (view w.db) := by
  apply FallibleRun.steps_invariant _ _ served
  · intro w w' holds step
    obtain ⟨now, service, timely, same⟩ := step
    obtain ⟨course, flights⟩ := call_guided now holds.1.1 holds.1.2
      (allowed_of_timely timely)
    have both := holds.2.guided holds.1.1 course
    rw [same]
    exact ⟨⟨both.1, flights⟩, both.2⟩
  · refine ⟨⟨emptyView_exclusive, ?_⟩, ⟨?_⟩⟩
    · intro provisioning listed
      cases listed
    · intro r stage found
      cases found

theorem settled_stays {w' : ServiceWorld} {status : RunStatus} (served : ServedWith Timely w)
    (found : (view w.db).stages r = some stage) (settled : stage.state = .settled)
    (known : (view w.db).runs r = some status)
    (later : Relation.ReflTransGen (Calls Timely) w w') :
    (view w'.db).stages r = some stage ∧ (view w'.db).runs r = some status := by
  induction later with
  | refl => exact ⟨found, known⟩
  | tail before last ih =>
    obtain ⟨now, service, timely, same⟩ := last
    obtain ⟨⟨inv, flights⟩, imaged⟩ := timely_imaged (served.trans before)
    obtain ⟨course, _⟩ := call_guided now inv flights (allowed_of_timely timely)
    have kept := stays inv imaged course ih.1 (.inl settled)
    rw [same]
    exact ⟨kept.1, kept.2.trans ih.2⟩

/-- The run follows its stage, a settled run keeps its status, and recovery is left on request. -/
theorem run_follows_stage (served : ServedWith Timely w) :
    (∀ stage ∈ w.db.stages.rows, ∃ run, w.db.runs.find? stage.runId = some run ∧
      image stage.state run.status = true) ∧
    (∀ w', Relation.ReflTransGen (Calls Timely) w w' →
      ∀ stage ∈ w.db.stages.rows, stage.state = .settled →
        (w'.db.runs.find? stage.runId).map NativeRun.status =
          (w.db.runs.find? stage.runId).map NativeRun.status) ∧
    ∀ now service, Timely w service → ∀ stage ∈ w.db.stages.rows,
      stage.state = .recoveryRequired →
        ((call w now service).db.stages.find? stage.runId).map NativeStage.state =
            some .recoveryRequired ∨
          (∃ revision, service = .resume stage.runId revision) ∨
            service = .cancel stage.runId := by
  obtain ⟨⟨inv, flights⟩, imaged⟩ := timely_imaged served
  have seen : ∀ stage ∈ w.db.stages.rows,
      (view w.db).stages stage.runId = some (stageView stage) := by
    intro stage listed
    simp [view, Table.find?_key listed]
  refine ⟨?_, ?_, ?_⟩
  · intro stage listed
    obtain ⟨status, known, follows⟩ := imaged.follows (seen stage listed)
    obtain ⟨run, found, same⟩ := Option.map_eq_some_iff.mp known
    rw [← same] at follows
    exact ⟨run, found, follows⟩
  · intro w' later stage listed settled
    obtain ⟨status, known, _⟩ := imaged.follows (seen stage listed)
    exact (settled_stays served (seen stage listed) settled known later).2.trans known.symm
  · intro now service timely stage listed lost
    obtain ⟨course, _⟩ := call_guided now inv flights (allowed_of_timely timely)
    by_cases resumes : ∃ revision, service = .resume stage.runId revision
    · exact .inr (.inl resumes)
    · by_cases cancels : service = .cancel stage.runId
      · exact .inr (.inr cancels)
      · left
        have other : ∀ revision, service ≠ .resume stage.runId revision :=
          fun revision same => resumes ⟨revision, same⟩
        have kept := (stays inv imaged course (seen stage listed)
          (.inr ⟨lost, other, cancels⟩)).1
        obtain ⟨stage', found, same⟩ := Option.map_eq_some_iff.mp kept
        rw [found, Option.map_some, ← lost]
        exact congrArg some (congrArg StageView.state same)

theorem timely_of_quiet : SparesQuiet Timely := by
  intro w service quiet asks
  refine ⟨?_, ?_⟩
  · intro claim dispatch stage failed
    rw [quiet] at failed
    cases failed
  · intro input result stage answers
    exact absurd answers (asks input)

theorem run_follows_stage_claimed :
    (∃ stage ∈ claimedOnce.db.stages.rows, stage.state = .dispatched) ∧
      ∀ stage ∈ claimedOnce.db.stages.rows, ∃ run,
        claimedOnce.db.runs.find? stage.runId = some run ∧
          image stage.state run.status = true :=
  ⟨by decide, (run_follows_stage (claimedOnce_served timely_of_quiet)).1⟩

def lateFence (dispatchRevision : Nat) : DispatchFence :=
  ⟨0, 2, 2, dispatchRevision, "run", "stage", 1⟩

def question : RaiseInput where
  fence := lateFence 1
  interaction := ⟨"first", [⟨"q", "which?", none, [], false⟩], "2026-01-01T00:00:00.000Z", none⟩
  witnessOf := silent

/-- The parent gives up while its question is open. -/
def gaveUp : ServiceWorld :=
  let w := call claimedOnce 0 (.question question)
  call w 0 (.submit ⟨⟨lateFence 2, "submission", "digest", .failed, none, silent⟩, false, "", ""⟩)

def lateAnswer : ServiceCall :=
  .answer ⟨"run", ⟨"first", 1, [.freeText "q" "this"]⟩, "key"⟩

/-- The session detaches while the workspace is provisioned. -/
def left : ServiceWorld :=
  call claimedOnce 0 (.detach ⟨0, 2, [(2, .abandoned)], silent⟩)

theorem settled_run_runs_again :
    (∃ w, ServedWith (fun _ _ => True) w ∧ ∃ stage ∈ w.db.stages.rows, stage.state = .settled ∧
      (w.db.runs.find? stage.runId).map NativeRun.status = some .failed ∧
        ((call w 0 lateAnswer).db.runs.find? stage.runId).map NativeRun.status = some .running) ∧
    ∃ w, ServedWith (fun _ _ => True) w ∧ ∃ stage ∈ w.db.stages.rows,
      stage.state = .recoveryRequired ∧
        ((call w 0 (.provisioningFailed 0)).db.stages.find? stage.runId).map NativeStage.state =
          some .waitingForParent := by
  have once : ServedWith (fun _ _ => True) claimedOnce :=
    claimedOnce_served fun _ _ _ _ => trivial
  refine ⟨⟨gaveUp, ?_, by decide⟩, ⟨left, ?_, by decide⟩⟩
  · unfold gaveUp
    exact (once.call _ trivial).call _ trivial
  · exact once.call _ trivial

end Heniek.RunStages
