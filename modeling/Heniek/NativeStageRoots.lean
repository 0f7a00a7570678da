import Heniek.NativeBridgeServiceSteps

/-!
What every stage of the native bridge rests on, whatever calls were made and with whatever
identifiers: its run is there, its current attempt is an attempt of its run, and it waits
for a parent exactly when it says since when.
-/

namespace Heniek.BridgeModel
open NativeBridge

structure Rooted (v : Bridge) : Prop where
  ran : ∀ {r stage}, v.stages r = some stage → (v.runs r).isSome = true
  held : ∀ {r stage a}, v.stages r = some stage → stage.current = some a →
    ∃ n, v.attempts a = some (r, n)
  checked : ∀ {r stage}, v.stages r = some stage →
    (stage.waits = true ↔ stage.state = .waitingForParent)

/-- A question is raised for a stage that has left its parents. -/
def Asks (v : Bridge) (action : Action) : Prop :=
  ∀ i d, action = .raise i d → ∀ x stage, v.dispatches d = some x →
    v.stages x.runId = some stage → stage.waits = false

variable {v v' : Bridge} {r : String} {stage : StageView}

theorem emptyView_rooted : Rooted emptyView where
  ran found := by cases found
  held found := by cases found
  checked found := by cases found

theorem Rooted.kept (inv : Rooted v)
    (runs : ∀ r, (v.runs r).isSome = true → (v'.runs r).isSome = true)
    (attempts : v'.attempts = v.attempts)
    (stages : ∀ r, Option.Rel (StageKept True) (v.stages r) (v'.stages r)) : Rooted v' := by
  have back : ∀ {r stage'}, v'.stages r = some stage' →
      ∃ stage, v.stages r = some stage ∧ StageKept True stage stage' := by
    intro r stage' found
    have related := stages r
    rw [found] at related
    cases listed : v.stages r with
    | none =>
      rw [listed] at related
      cases related
    | some stage =>
      rw [listed] at related
      cases related with
      | some kept => exact ⟨stage, rfl, kept⟩
  constructor
  · intro r stage' found
    obtain ⟨stage, listed, _⟩ := back found
    exact runs r (inv.ran listed)
  · intro r stage' a found held
    obtain ⟨stage, listed, kept⟩ := back found
    rw [attempts]
    cases kept.current with
    | inl left => simp [left] at held
    | inr same => exact inv.held listed (same ▸ held)
  · intro r stage' found
    obtain ⟨stage, listed, kept⟩ := back found
    exact kept.checked (inv.checked listed)

theorem setRun_runs (v : Bridge) (r r' : String) (status : ProjectionTables.RunStatus)
    (ran : (v.runs r').isSome = true) : ((v.setRun r status).runs r').isSome = true := by
  by_cases same : r' = r
  · simp [Bridge.setRun, same]
  · simpa [Bridge.setRun, same] using ran

theorem Rooted.entered (inv : Rooted v) {change : StageView → StageView}
    {status : ProjectionTables.RunStatus} (runs : v'.runs = v.runs)
    (attempts : v'.attempts = v.attempts) (stages : v'.stages = v.stages)
    (kept : ∀ stage, v.stages r = some stage → StageKept True stage (change stage)) :
    Rooted (v'.enter r change status) := by
  apply inv.kept
  · intro r' ran
    rw [← runs] at ran
    exact setRun_runs (v'.mapStage r change) r r' status ran
  · exact attempts
  · intro r'
    rw [enter_stages, stages]
    split_ifs with same
    · rw [same]
      exact rel_of_mapped kept
    · exact rel_refl _ _

theorem Rooted.left (inv : Rooted v) (runs : v'.runs = v.runs) (attempts : v'.attempts = v.attempts)
    (stages : v'.stages = v.stages) : Rooted v' := by
  apply inv.kept
  · intro r ran
    rw [runs]
    exact ran
  · exact attempts
  · intro r
    rw [stages]
    exact rel_refl _ _

theorem Rooted.recovered (inv : Rooted v) (r : String) : Rooted (v.recovered r) := by
  apply inv.kept
  · intro r' ran
    unfold Bridge.recovered
    split
    · exact setRun_runs _ r r' _ ran
    · exact ran
  · exact recovered_attempts v r
  · intro r'
    rw [recovered_stages]
    split_ifs with same
    · apply rel_of_mapped
      intro stage _
      exact recovered_kept stage trivial
    · exact rel_refl _ _

theorem Rooted.abandoned (inv : Rooted v) (d : Nat) (r : String) : Rooted (v.abandoned d r) := by
  unfold Bridge.abandoned
  cases v.first d with
  | none =>
    apply Rooted.recovered
    exact inv.left rfl rfl rfl
  | some i =>
    apply Rooted.recovered
    exact inv.left rfl rfl rfl

theorem Rooted.created (inv : Rooted v) : Rooted (v.created r) := by
  have listed : ∀ r', (v.created r).stages r' =
      if r' = r then some ⟨.waitingForParent, none, 0, true⟩ else v.stages r' := by
    simp [Bridge.created, Bridge.setRun, Function.update_apply]
  constructor
  · intro r' stage found
    rw [listed] at found
    split_ifs at found with same
    · simp [Bridge.created, Bridge.setRun, same]
    · exact setRun_runs _ r r' _ (inv.ran found)
  · intro r' stage a found held
    rw [listed] at found
    split_ifs at found
    · cases found
      cases held
    · exact inv.held found held
  · intro r' stage found
    rw [listed] at found
    split_ifs at found
    · cases found
      simp
    · exact inv.checked found

theorem Rooted.claimed {a d : Nat} (inv : Rooted v) (found : v.stages r = some stage)
    (fresh : v.attempts a = none) : Rooted (v.claimed r a d stage) := by
  have stages := claimed_stages (a := a) (d := d) found
  have attempts := claimed_attempts v r a d stage
  constructor
  · intro r' stage' listed
    rw [stages] at listed
    split_ifs at listed with same
    · rw [same]
      exact setRun_runs _ r r _ (inv.ran found)
    · exact setRun_runs _ r r' _ (inv.ran listed)
  · intro r' stage' a' listed held
    rw [stages] at listed
    rw [attempts]
    split_ifs at listed with same
    · cases listed
      cases held
      exact ⟨stage.count + 1, by rw [if_pos rfl, same]⟩
    · obtain ⟨n, known⟩ := inv.held listed held
      have older : a' ≠ a := by
        intro equal
        simp [equal, fresh] at known
      exact ⟨n, by rw [if_neg older, known]⟩
  · intro r' stage' listed
    rw [stages] at listed
    split_ifs at listed
    · cases listed
      simp [StageView.claimed]
    · exact inv.checked listed

theorem Rooted.acted {action : Action} (inv : Rooted v) (asks : Asks v action)
    (acts : Acts v action v') : Rooted v' := by
  cases acts with
  | openRun fresh =>
    apply inv.kept
    · intro r' ran
      exact setRun_runs v _ r' _ ran
    · rfl
    · intro r'
      exact rel_refl _ _
  | create fresh => exact inv.created
  | abandon found current => exact inv.abandoned _ _
  | release found current unasked =>
    exact inv.entered rfl rfl rfl fun stage _ => waiting_kept stage fun _ => trivial
  | claim found waits newAttempt newDispatch => exact inv.claimed found newAttempt
  | fail closable =>
    exact inv.entered rfl rfl rfl fun stage _ => waiting_kept stage fun _ => trivial
  | raise found current fresh =>
    apply inv.entered
    · rfl
    · rfl
    · rfl
    · intro stage listed
      have claimed := asks _ _ rfl _ stage found listed
      refine ⟨rfl, .inr rfl, ?_, fun _ => .inl trivial⟩
      intro _
      simp [StageView.entered, claimed]
  | answer found pending => exact inv.entered rfl rfl rfl fun stage _ => answered_kept True stage
  | submit found current => exact inv.left rfl rfl rfl
  | settle claimed =>
    exact inv.entered rfl rfl rfl fun stage listed => settled_kept (claimed stage listed) trivial
  | finish claimed =>
    apply inv.kept
    · intro r' ran
      exact ran
    · rfl
    · intro r'
      rw [mapStage_stages]
      split_ifs with same
      · rw [same]
        exact rel_of_mapped fun stage listed => settled_kept (claimed stage listed) trivial
      · exact rel_refl _ _
  | resume found lost =>
    exact inv.entered rfl rfl rfl fun stage _ => waiting_kept stage fun _ => trivial
  | cancel found current claimed =>
    apply inv.entered
    · rfl
    · rfl
    · rfl
    · intro stage listed
      cases found.symm.trans listed
      exact settled_kept claimed trivial

theorem Guided.rooted (inv : Rooted v) (course : Guided Asks v v') : Rooted v' := by
  induction course with
  | refl => exact inv
  | tail _ acts ih =>
    obtain ⟨action, asks, acted⟩ := acts
    exact ih.acted asks acted

end Heniek.BridgeModel

namespace Heniek.NativeBridge
open FallibleRun BridgeModel

variable {db db' : NativeDatabase} {now : Int}

theorem raiseQuestion_asks {dispatch : NativeDispatch} {input : RaiseInput}
    {reply : Reply RaisedQuestion}
    (found : db.dispatches.find? input.fence.dispatchId = some dispatch)
    (run : dispatch.runId = input.fence.runId)
    (ok : raiseQuestion db dispatch input = .ok (reply, db')) :
    Asks (view db) (.raise input.interaction.id input.fence.dispatchId) := by
  unfold raiseQuestion at ok
  split_ifs at ok
  obtain ⟨canonical, _, ok⟩ := bind_eq_ok.mp ok
  obtain ⟨questions, _, ok⟩ := bind_eq_ok.mp ok
  obtain ⟨db₁, updated, _⟩ := bind_eq_ok.mp ok
  have checked := (updateStage_view (StageView.entered .waitingOnUser) updated
    (fun _ => rfl) fun _ => rfl).2
  intro i d same x stage found' listed
  cases same
  have seen : (view db).dispatches input.fence.dispatchId = some (dispatchView dispatch) := by
    simp [view, found]
  cases seen.symm.trans found'
  have own : (view db).stages input.fence.runId = some stage := run ▸ listed
  simpa [StageView.entered] using checked stage own

theorem raiseNativeQuestion_guided {input : RaiseInput} {reply : Reply RaisedQuestion}
    (ok : raiseNativeQuestion db now input = .ok (reply, db')) :
    Guided Asks (view db) (view db') := by
  obtain ⟨swept, reaped, ok⟩ := bind_eq_ok.mp ok
  have first : Guided Asks (view db) (view swept) :=
    sweepSession_guided (fun _ _ _ _ impossible => by cases impossible) reaped
  split at ok
  · cases ok
    exact first
  · rename_i dispatch fenced
    obtain ⟨found, run, _⟩ := validateDispatchFence_ok fenced
    split_ifs at ok with current
    · cases ok
      exact first
    · exact first.also (raiseQuestion_acts found run (not_not.mp current) ok)
        (raiseQuestion_asks found run ok)

theorem asks_of_ne {v : Bridge} {action : Action} (other : ∀ i d, action ≠ .raise i d) :
    Asks v action :=
  fun i d same => absurd same (other i d)

theorem detach_asks {input : DetachInput} {reply : Reply (List (Nat × Disposition))}
    (ok : detachParentSession db now input = .ok (reply, db')) :
    Guided Asks (view db) (view db') := by
  cases detachParentSession_ok ok with
  | inl same => exact Guided.of_eq (by rw [same])
  | inr went =>
    obtain ⟨session, swept, _, reaped, rest⟩ := went
    have first : Guided Asks (view db) (view swept) :=
      swept_guided (fun _ _ => asks_of_ne nofun) (reapExpirations_swept reaped).course
    cases rest with
    | inl same =>
      rw [same]
      exact first
    | inr detaches =>
      apply first.trans
      apply detaches.2.guided
      intro v action closes
      obtain ⟨dispatch, _, _, _, _, kinds⟩ := closes
      cases kinds with
      | inl same =>
        rw [same]
        exact asks_of_ne nofun
      | inr same =>
        rw [same]
        exact asks_of_ne nofun

theorem poll_asks {input : PollInput} {reply : Reply PollResult}
    (ok : pollNativeBridge db now input = .ok (reply, db')) :
    Guided Asks (view db) (view db') := by
  obtain ⟨swept, reaped, claims, _⟩ := pollNativeBridge_ok ok
  have first : Guided Asks (view db) (view swept) :=
    swept_guided (fun _ _ => asks_of_ne nofun) (reapExpirations_swept reaped).course
  apply first.trans
  apply claims.guided
  intro v action claims
  obtain ⟨r, a, d, same⟩ := claims
  rw [same]
  exact asks_of_ne nofun

theorem settle_asks {input : SettleInput} {reply : Reply Settlement}
    (ok : settleNativeDispatch db now input = .ok (reply, db')) :
    Guided Asks (view db) (view db') := by
  obtain ⟨swept, reaped, settles⟩ := settleNativeDispatch_ok ok
  have first : Guided Asks (view db) (view swept) :=
    sweepSession_guided (fun _ _ => asks_of_ne nofun) reaped
  cases settles with
  | inl replay =>
    rw [replay.1]
    exact first
  | inr settles =>
    obtain ⟨dispatch, _, _, ⟨closed, submits, rest⟩, _⟩ := settles
    have second : Guided Asks (view db) closed := first.also submits (asks_of_ne nofun)
    split_ifs at rest
    · rw [rest]
      exact second
    · exact second.also rest (asks_of_ne nofun)

theorem complete_asks {attemptId : Nat} {runId : String}
    (ok : completeNativeAttemptArtifactOutcome db attemptId runId = .ok db') :
    Guided Asks (view db) (view db') := by
  obtain ⟨same, claimed⟩ := completeNativeAttemptArtifactOutcome_view ok
  rw [same]
  exact Guided.one (Acts.finish claimed) (asks_of_ne nofun)

theorem perform_asks (db : NativeDatabase) (now : Int) (operation : Operation) :
    Guided Asks (view db) (view (perform db now operation)) := by
  have still : Guided Asks (view db) (view db) := Guided.of_eq rfl
  cases operation with
  | create input =>
    apply (createNativeStage_course db now input).guided
    intro v action kinds
    cases kinds with
    | inl same =>
      rw [same]
      exact asks_of_ne nofun
    | inr same =>
      rw [same]
      exact asks_of_ne nofun
  | attach input =>
    refine stored_of (P := fun db' => Guided Asks (view db) (view db')) still ?_
    intro reply db' ok
    exact swept_guided (fun _ _ => asks_of_ne nofun) (attachParentSession_course ok)
  | detach input =>
    exact stored_of (P := fun db' => Guided Asks (view db) (view db')) still
      fun _ _ ok => detach_asks ok
  | poll input =>
    exact stored_of (P := fun db' => Guided Asks (view db) (view db')) still
      fun _ _ ok => poll_asks ok
  | assignWorkspace attemptId workspaceId =>
    refine kept_of (P := fun db' => Guided Asks (view db) (view db')) still ?_
    intro db' ok
    exact Guided.of_eq (assignNativeAttemptWorkspace_view ok)
  | recordBaseline attemptId baseline =>
    exact Guided.of_eq (recordNativeAttemptReadonlyBaseline_view db attemptId baseline)
  | workspaceFailure input =>
    refine kept_of (P := fun db' => Guided Asks (view db) (view db')) still ?_
    intro db' ok
    exact Guided.one (recordNativeAttemptWorkspaceFailure_acts ok) (asks_of_ne nofun)
  | raise input =>
    exact stored_of (P := fun db' => Guided Asks (view db) (view db')) still
      fun _ _ ok => raiseNativeQuestion_guided ok
  | answer input =>
    refine stored_of (P := fun db' => Guided Asks (view db) (view db')) still ?_
    intro answered db' ok
    exact Guided.one (answerNativeQuestion_ok ok).2 (asks_of_ne nofun)
  | settle input =>
    exact stored_of (P := fun db' => Guided Asks (view db) (view db')) still
      fun _ _ ok => settle_asks ok
  | complete attemptId runId =>
    exact kept_of (P := fun db' => Guided Asks (view db) (view db')) still
      fun _ ok => complete_asks ok
  | downgrade attemptId runId reasonCode message =>
    refine kept_of (P := fun db' => Guided Asks (view db) (view db')) still ?_
    intro db' ok
    exact Guided.one (downgradeNativeAttemptToFailed_acts ok) (asks_of_ne nofun)
  | resume runId expectedRunRevision =>
    refine stored_of (P := fun db' => Guided Asks (view db) (view db')) still ?_
    intro revision db' ok
    exact Guided.one (resumeNativeStage_acts ok) (asks_of_ne nofun)
  | cancel runId =>
    refine stored_of (P := fun db' => Guided Asks (view db) (view db')) still ?_
    intro status db' ok
    cases cancelNativeStage_ok ok with
    | inl same => exact Guided.of_eq (by rw [same])
    | inr acts => exact Guided.one acts (asks_of_ne nofun)
  | reap witnessOf =>
    refine kept_of (P := fun db' => Guided Asks (view db) (view db')) still ?_
    intro db' ok
    exact swept_guided (fun _ _ => asks_of_ne nofun) (reapExpirations_swept ok).course

theorem rooted_reachable {allowed : NativeDatabase → Int → Operation → Prop}
    (reachable : ReachableWith allowed db) : Rooted (view db) := by
  apply steps_invariant (P := fun db => Rooted (view db)) _ _ reachable
  · intro db db' inv step
    obtain ⟨now, operation, _, same⟩ := step
    rw [same]
    exact Guided.rooted inv (perform_asks db now operation)
  · exact emptyView_rooted

end Heniek.NativeBridge
