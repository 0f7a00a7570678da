import Heniek.RunnerSettlement
import Heniek.StoredStages

/-!
Succeeded stages and merged outputs. As long as no interruption separates a
finalization from its merge, every stored success names an attempt that is
merged or about to be, so a tick, which only runs when nothing is being settled,
reads successes of merged attempts only. After an interruption the stored
success stands and the next tick takes it up.
-/

namespace Heniek.OutputMerge
open KeyedTable PipelineDocument ExpressionEvaluation RecoveryPolicy
open SchedulerTick SchedulerSteps StageChanges SchedulerRun PipelineStore PipelineRunner
open StoredStages RunnerSettlement CanonicalState SchedulerIds FallibleRun ScriptText
open RunnerLedger hiding perform after

def canonicalState (db : StateDatabase) (runId : String) : JsonValue :=
  match readCanonicalRunState db runId with
  | some canonical => canonical.state
  | none => .object []

def replay (merges : List Merge) (runId : String) : JsonValue :=
  (merges.filter fun merge => merge.runId = runId).foldl
    (fun state merge => (buildCanonicalConditionState (.json state) [merge.binding]).state)
    (.object [])

def Delivered (merges : List Merge) (runId stageId attemptId : String) : Prop :=
  ∃ merge ∈ merges, merge.attemptId = attemptId ∧ merge.runId = runId ∧
    merge.binding.stageId = stageId

/-- A stage that succeeded through an attempt has the outputs of the attempt in the canonical state.
-/
structure SucceededMerged (service : Service) : Prop where
  delivered : ∀ stage ∈ service.db.store.stages.rows, stage.state = .succeeded →
    ∀ attemptId, stage.currentAttemptId = some attemptId →
      Delivered service.merges stage.runId stage.stageId attemptId
  outputs : ∀ attempt ∈ service.db.attempts.rows, ∀ result, attempt.result = some result →
    result.outcome = .succeeded →
      (∃ merge ∈ service.merges, merge.attemptId = attempt.attemptId ∧
        merge.binding.outputs = result.outputs) ∨
      ∃ settling, service.settling = some settling ∧ settling.attemptId = attempt.attemptId
  replayed : ∀ runId, canonicalState service.db.store runId = replay service.merges runId

/-- The conditions of a tick are evaluated in a state that holds the outputs of every stage that
has succeeded by its end. -/
def EvaluatesMerged [Sha256] (service : Service) : Prop :=
  ∀ runId now result input plan after,
    tickAttempt service.db.store runId now = .ok (result, input, plan, after) →
    service.settling = none →
      input.canonicalState = replay service.merges runId ∧
      ∀ patch ∈ plan.stagePatches, patch.state = .succeeded →
        ∀ attemptId, patch.currentAttemptId = some attemptId →
          Delivered service.merges runId patch.stageId attemptId

/-- The attempt is the one whose outputs are still to be merged. -/
def Settles (service : Service) (runId stageId attemptId : String) : Prop :=
  ∃ attempt, service.settling = some attempt ∧ attempt.attemptId = attemptId ∧
    attempt.runId = runId ∧ attempt.stageId = stageId

def Announced (service : Service) : Prop :=
  ∀ row ∈ service.db.store.observations.rows, row.observation.kind = .attemptSucceeded →
    ∃ stageId attemptId, row.observation.stageId = some stageId ∧
      row.observation.attemptId = some attemptId ∧
      (Delivered service.merges row.runId stageId attemptId ∨
        Settles service row.runId stageId attemptId)

structure Coherent (service : Service) : Prop extends SucceededMerged service where
  announced : Announced service
  stored : ∀ attempt, service.settling = some attempt → attempt ∈ service.db.attempts.rows

section Tables

variable {db db' : StateDatabase}

theorem mem_updateStages {attempts : Table PipelineStageAttemptRow.attemptId}
    {table table' : Table fun row : StageSnapshot => (row.runId, row.stageId)}
    {patches : List StageSnapshot}
    (updated : patches.foldlM (updateStage db attempts) table = .ok table') :
    ∀ stage ∈ table'.rows, stage ∈ patches ∨ stage ∈ table.rows := by
  refine foldlM_invariant (P := fun other => ∀ stage ∈ other.rows, stage ∈ patches ∨
    stage ∈ table.rows) ?_ (fun _ member => Or.inr member) updated
  intro patch listed before after known updated stage member
  unfold updateStage at updated
  split at updated
  · unfold upsertRow at updated
    split at updated
    · cases updated
      rcases Table.mem_upsert.mp member with rfl | ⟨old, _⟩
      · exact Or.inl listed
      · exact known stage old
    · cases updated
  · cases updated
    exact known stage member

theorem mem_foldl_markConsumed {consumedAt : String} {ids : List String}
    {table : Table fun row : PipelineSchedulerObservationRow => row.observation.observationId} :
    ∀ row ∈ (ids.foldl (markConsumed consumedAt) table).rows,
      ∃ old ∈ table.rows, old.runId = row.runId ∧ old.observation = row.observation := by
  induction ids generalizing table with
  | nil => exact fun row member => ⟨row, member, rfl, rfl⟩
  | cons id ids ih =>
    intro row member
    obtain ⟨mid, marked, run, observed⟩ := ih row member
    obtain ⟨old, stored, rfl⟩ := Table.mem_modify.mp marked
    refine ⟨old, stored, ?_, ?_⟩
    · rw [← run]
      split
      · unfold consumeRow
        split <;> rfl
      · rfl
    · rw [← observed]
      split
      · rw [consumeRow_observation]
      · rfl

theorem writeCanonicalRunState_eq (db : StateDatabase) (runId : String) (state : JsonValue)
    (now : String) :
    ∃ revision, writeCanonicalRunState db runId state none now = some (revision, { db with
      canonicalStates := db.canonicalStates.upsert ⟨runId, state, revision, now⟩ }) := by
  unfold writeCanonicalRunState
  split
  · exact ⟨1, rfl⟩
  · rename_i existing _
    exact ⟨existing.revision + 1, rfl⟩

theorem mergeOutputs_eq_ok {attempt : StageRunnerAttempt} {merge : Merge} {now : String}
    (merged : mergeOutputs db attempt now = .ok (merge, db')) :
    (∃ graph, merge = ⟨attempt.attemptId, attempt.runId, outputBinding graph attempt⟩) ∧
      ∃ revision, db' = { db with
        canonicalStates := db.canonicalStates.upsert ⟨attempt.runId,
          (buildCanonicalConditionState (.json (canonicalState db attempt.runId))
            [merge.binding]).state, revision, now⟩ } := by
  obtain ⟨parts, loaded, built⟩ := bind_eq_ok.mp merged
  have state : parts.canonicalState = canonicalState db attempt.runId := by
    unfold loadPipelineSchedulerInputParts at loaded
    split at loaded
    · cases loaded
    · obtain ⟨graph, _, read⟩ := bind_eq_ok.mp loaded
      cases read
      rfl
  obtain ⟨revision, written⟩ := writeCanonicalRunState_eq db attempt.runId
    (buildCanonicalConditionState (.json parts.canonicalState)
      [outputBinding parts.graph attempt]).state now
  simp only [written] at built
  cases built
  refine ⟨⟨parts.graph, rfl⟩, revision, ?_⟩
  rw [state]

theorem canonicalState_upsert (db : StateDatabase)
    (row : PipelineCanonicalRunStateRow) (runId : String) :
    canonicalState { db with canonicalStates := db.canonicalStates.upsert row } runId =
      if runId = row.runId then row.state else canonicalState db runId := by
  simp only [canonicalState, readCanonicalRunState, Table.find?_upsert]
  by_cases same : runId = row.runId
  · simp only [if_pos same]
  · simp only [if_neg same]

end Tables

section Operations

variable {db db' : StateDatabase} {operation : Operation}

theorem perform_canonicalState (outside : elsewhere operation = true)
    (performed : perform db operation = .ok db') (runId : String) :
    canonicalState db' runId = canonicalState db runId := by
  cases operation with
  | create input =>
    obtain ⟨_, _, _, _, _, _, _, rfl⟩ := createPipelineSchedule_eq_ok performed
    rfl
  | observe runId observation =>
    rw [recordPipelineObservation_eq_ok performed]
    rfl
  | deliver intentId deliveredAt =>
    obtain ⟨_, rfl⟩ := markPipelineSchedulerIntentDelivered_eq_ok performed
    rfl
  | canonical runId state expectedRevision now => cases outside
  | attach input =>
    rcases attachAdHocStage_eq_ok performed with
      rfl | ⟨_, canonical, _, _, _, found, _, _, _, rfl⟩
    · rfl
    · refine (canonicalState_upsert db _ runId).trans ?_
      split
      · rename_i same
        have key : canonical.runId = input.targetRunId := Table.key_of_find? found
        rw [canonicalState, same, key, found]
      · rfl

theorem perform_observations (outside : elsewhere operation = true)
    (performed : perform db operation = .ok db') :
    ∀ row ∈ db'.observations.rows, row.observation.kind = .attemptSucceeded →
      row ∈ db.observations.rows := by
  intro row member kind
  cases operation with
  | create input =>
    obtain ⟨_, _, _, _, _, _, _, rfl⟩ := createPipelineSchedule_eq_ok performed
    exact member
  | observe runId observation =>
    rw [recordPipelineObservation_eq_ok performed] at member
    rcases Table.mem_upsert.mp member with rfl | ⟨old, _⟩
    · exact absurd kind (of_decide_eq_true outside)
    · exact old
  | deliver intentId deliveredAt =>
    obtain ⟨_, rfl⟩ := markPipelineSchedulerIntentDelivered_eq_ok performed
    exact member
  | canonical runId state expectedRevision now => cases outside
  | attach input =>
    rcases attachAdHocStage_eq_ok performed with rfl | ⟨_, _, _, _, _, _, _, _, _, rfl⟩ <;>
      exact member

theorem perform_succeeded (performed : perform db operation = .ok db') :
    ∀ stage ∈ db'.stages.rows, stage.state = .succeeded → ∀ attemptId,
      stage.currentAttemptId = some attemptId →
      ∃ old ∈ db.stages.rows, old.state = .succeeded ∧ old.currentAttemptId = some attemptId ∧
        old.runId = stage.runId ∧ old.stageId = stage.stageId := by
  intro stage member state attemptId attempt
  have stored : ∀ {rows}, db'.stages = db.stages.upsertAll rows → stage ∈ rows ∨
      stage ∈ db.stages.rows := by
    intro rows same
    have found := Table.find?_key member
    rw [same] at found
    exact (Table.mem_of_find?_upsertAll found).imp_right Table.mem_of_find?
  rcases perform_cases performed with same | ⟨input, _, created⟩ | ⟨input, schedule, _, attached⟩
  · exact ⟨stage, same.stages_eq ▸ member, state, attempt, rfl, rfl⟩
  · rcases stored created.stages_eq with fresh | old
    · obtain ⟨_, same⟩ := mem_initialStageSnapshots.mp fresh
      rw [same] at state
      cases state
    · exact ⟨stage, old, state, attempt, rfl, rfl⟩
  · rcases stored attached.stages_eq with listed | old
    · rcases List.mem_append.mp listed with moved | added
      · obtain ⟨old, projected, rfl⟩ := List.mem_map.mp moved
        exact ⟨old, (mem_readPipelineStageProjections.mp projected).1, state, attempt, rfl, rfl⟩
      · rw [List.mem_singleton.mp added] at attempt
        cases attempt
    · exact ⟨stage, old, state, attempt, rfl, rfl⟩

end Operations

section Ticks

variable [Sha256] {service : Service} {tick : DaemonTick}

theorem patches_delivered (coherent : Coherent service) (idle : service.settling = none)
    (from_eq : tick.before = service.db.store) (committed : Committed tick) :
    ∀ patch ∈ tick.plan.stagePatches, patch.runId = tick.runId ∧
      (patch.state = .succeeded → ∀ attemptId, patch.currentAttemptId = some attemptId →
        Delivered service.merges tick.runId patch.stageId attemptId) := by
  obtain ⟨trace⟩ := committed.trace
  obtain ⟨schedule, graph, plan⟩ := planned committed
  let admits : TickContext → SchedulerObservation → Prop := fun _ observation =>
    observation.kind = .attemptSucceeded → ∃ stageId attemptId,
      observation.stageId = some stageId ∧ observation.attemptId = some attemptId ∧
        Delivered service.merges tick.runId stageId attemptId
  have admitted : ∀ ctx, ∀ observation ∈ tick.input.observations, admits ctx observation := by
    intro ctx observation listed kind
    rw [plan.input_eq] at listed
    obtain ⟨row, pending, rfl⟩ := List.mem_map.mp listed
    obtain ⟨stored, here⟩ := List.mem_filter.mp (mem_orderBy.mp pending)
    rw [from_eq] at stored
    obtain ⟨stageId, attemptId, named, given, merged⟩ := coherent.announced row stored kind
    refine ⟨stageId, attemptId, named, given, ?_⟩
    rw [← (of_decide_eq_true here).1]
    rcases merged with delivered | ⟨attempt, settles, _⟩
    · exact delivered
    · rw [idle] at settles
      cases settles
  have rows : ∀ stage ∈ trace.settled.working.rows, stage.runId = tick.runId ∧
      (stage.state = .succeeded → ∀ attemptId, stage.currentAttemptId = some attemptId →
        Delivered service.merges tick.runId stage.stageId attemptId) := by
    refine steps_stages (trace.steps admitted) ?_ ?_
    · intro stage member
      obtain ⟨version, same⟩ := trace.input_eq
      rw [trace.start_working, same] at member
      rcases mem_workingStages member with given | fresh
      · obtain ⟨row, stored, run, rfl⟩ := plan.mem_stages.mp given
        refine ⟨run, fun state attemptId attempt => ?_⟩
        have current : row.currentAttemptId = some attemptId :=
          (Option.filter_eq_some_iff.mp attempt).1
        rw [from_eq] at stored
        rw [← run]
        exact coherent.delivered row stored state attemptId current
      · have run : stage.runId = tick.input.runId := congrArg StageSnapshot.runId fresh
        refine ⟨run.trans (by rw [plan.input_eq]; rfl), fun state => ?_⟩
        rw [fresh] at state
        cases state
    · rintro mid stage next _ _ ⟨run, _⟩ change
      refine ⟨(Change.runId_eq change).trans run, fun state attemptId attempt => ?_⟩
      cases change with
      | observed observation toState reason options admitted named cause =>
        cases cause with
        | succeed kind _ =>
          obtain ⟨stageId, observedId, observed, given, delivered⟩ := admitted kind
          rw [observed, Option.some.injEq] at named
          simp only [movedStage, observedAttemptId, given, Bool.false_eq_true, if_false,
            Option.some.injEq] at attempt
          rw [named, attempt] at delivered
          exact delivered
        | _ => cases state
      | recovered observation decision counters toState reason options admitted named cause =>
        cases cause with
        | classified definition failure result options =>
          exact absurd state (by
            cases result.verdict <;> rintro ⟨⟩)
        | _ => cases state
      | phased toState reason options cause => cases cause <;> cases state
      | rerun => cases state
      | queued => cases state
  intro patch member
  refine rows patch ?_
  rw [← trace.final_working]
  exact trace.stagePatches_perm.mem_iff.mp member

theorem evaluatesMerged_of_coherent (coherent : Coherent service) : EvaluatesMerged service := by
  intro runId now result input plan after ran idle
  have committed : Committed ⟨service.db.store, runId, now, input, plan, after⟩ := ⟨result, ran⟩
  refine ⟨?_, fun patch member => (patches_delivered coherent idle rfl committed patch member).2⟩
  obtain ⟨schedule, graph, plan⟩ := planned committed
  rw [← coherent.replayed, show input = _ from plan.input_eq]
  rfl

end Ticks

section Steps

variable {service service' : Service}

theorem Delivered.mono {merges : List Merge} {runId stageId attemptId : String} (merge : Merge)
    (delivered : Delivered merges runId stageId attemptId) :
    Delivered (merges ++ [merge]) runId stageId attemptId := by
  obtain ⟨made, member, same⟩ := delivered
  exact ⟨made, List.mem_append_left _ member, same⟩

theorem replay_concat (merges : List Merge) (merge : Merge) (runId : String) :
    replay (merges ++ [merge]) runId =
      if merge.runId = runId then
        (buildCanonicalConditionState (.json (replay merges runId)) [merge.binding]).state
      else replay merges runId := by
  unfold replay
  by_cases same : merge.runId = runId <;> simp [same]

variable {db : LedgerDatabase} {store : StateDatabase}

theorem Coherent.of_store (coherent : Coherent service)
    (stages : ∀ stage ∈ store.stages.rows, stage.state = .succeeded → ∀ attemptId,
      stage.currentAttemptId = some attemptId →
        Delivered service.merges stage.runId stage.stageId attemptId)
    (observations : ∀ row ∈ store.observations.rows, row.observation.kind = .attemptSucceeded →
      ∃ old ∈ service.db.store.observations.rows, old.runId = row.runId ∧
        old.observation = row.observation)
    (canonical : ∀ runId, canonicalState store runId = canonicalState service.db.store runId) :
    Coherent { service with db := { service.db with store := store } } where
  delivered := stages
  outputs := coherent.outputs
  replayed runId := (canonical runId).trans (coherent.replayed runId)
  announced := by
    intro row member kind
    obtain ⟨old, stored, run, same⟩ := observations row member kind
    rw [← same] at kind ⊢
    rw [← run]
    exact coherent.announced old stored kind
  stored := coherent.stored

theorem Coherent.of_ledger (coherent : Coherent service) (idle : service.settling = none)
    (kept : db.store = service.db.store)
    (bound : ∀ attempt ∈ db.attempts.rows, ∀ result, attempt.result = some result →
      ∃ old ∈ service.db.attempts.rows, old.attemptId = attempt.attemptId ∧
        old.result = some result) :
    Coherent { service with db := db } := by
  obtain ⟨store, workspaces, attempts, transitions⟩ := db
  obtain rfl : store = service.db.store := kept
  refine ⟨⟨coherent.delivered, ?_, coherent.replayed⟩, coherent.announced, ?_⟩
  · intro attempt member result given succeeded
    obtain ⟨old, stored, same, kept⟩ := bound attempt member result given
    rw [← same]
    exact coherent.outputs old stored result kept succeeded
  · intro attempt settling
    rw [idle] at settling
    cases settling

theorem coherent_operate {operation : Operation} (coherent : Coherent service)
    (outside : elsewhere operation = true)
    (performed : perform service.db.store operation = .ok store) :
    Coherent { service with db := { service.db with store := store } } := by
  refine coherent.of_store ?_ ?_ (perform_canonicalState outside performed)
  · intro stage member state attemptId attempt
    obtain ⟨old, stored, before, current, run, id⟩ :=
      perform_succeeded performed stage member state attemptId attempt
    rw [← run, ← id]
    exact coherent.delivered old stored before attemptId current
  · intro row member kind
    exact ⟨row, perform_observations outside performed row member kind, rfl, rfl⟩

theorem coherent_claim {input : ClaimRunnerDispatchInput} {result : ClaimRunnerDispatchResult}
    (coherent : Coherent service) (idle : service.settling = none)
    (claimed : claimRunnerDispatch service.db input = .ok (result, db)) :
    Coherent { service with db := db } := by
  rcases claimRunnerDispatch_eq_ok claimed with ⟨rfl, _⟩ | ⟨_, _, _, _, _, _, _, rfl⟩
  · exact coherent
  · refine coherent.of_ledger idle rfl ?_
    intro attempt member result given
    rcases Table.mem_upsert.mp member with rfl | ⟨old, _⟩
    · cases given
    · exact ⟨attempt, old, rfl, given⟩

theorem coherent_update {input : UpdateRunnerAttemptInput} {row : StageRunnerAttempt}
    (coherent : Coherent service) (idle : service.settling = none)
    (omitted : input.result = none)
    (updated : updateRunnerAttempt service.db input = .ok (row, db)) :
    Coherent { service with db := db } := by
  obtain ⟨current, stored, rfl, kept, attempts⟩ := updateRunnerAttempt_ok updated
  refine coherent.of_ledger idle kept ?_
  intro attempt member result given
  rw [attempts] at member
  rcases Table.mem_upsert.mp member with rfl | ⟨old, _⟩
  · rw [updatedRow, omitted] at given
    exact ⟨current, stored, rfl, given⟩
  · exact ⟨attempt, old, rfl, given⟩

theorem coherent_finalize {settlement : Settlement} {attempt : StageRunnerAttempt}
    (coherent : Coherent service) (idle : service.settling = none)
    (finalized : finalizeRunnerAttempt service.db (finalizeInput settlement) = .ok (attempt, db)) :
    Coherent { service with
      db := db
      settling := if settlement.result.outcome = .succeeded ∧ settlement.valid = true then
        some attempt else none } := by
  obtain ⟨current, rfl, attempts, store⟩ := finalizeRunnerAttempt_ok finalized
  have settles : settlement.result.outcome = .succeeded →
      (if settlement.result.outcome = .succeeded ∧ settlement.valid = true then
        some (finalizedRow current (finalizeInput settlement)) else none) =
        some (finalizedRow current (finalizeInput settlement)) := by
    intro outcome
    exact if_pos ⟨outcome, settlement.valid_of_succeeded outcome⟩
  have unsettled : ∀ {attempt}, service.settling ≠ some attempt := by
    rw [idle]
    nofun
  constructor
  · constructor
    · rw [store]
      exact coherent.delivered
    · intro attempt member result given succeeded
      rw [attempts] at member
      rcases Table.mem_upsert.mp member with rfl | ⟨old, _⟩
      · cases given
        exact Or.inr ⟨_, settles succeeded, rfl⟩
      · rcases coherent.outputs attempt old result given succeeded with merged | ⟨_, settling, _⟩
        · exact Or.inl merged
        · exact absurd settling unsettled
    · rw [store]
      exact coherent.replayed
  · intro row member kind
    rw [store] at member
    rcases Table.mem_upsert.mp member with rfl | ⟨old, _⟩
    · have outcome : settlement.result.outcome = .succeeded := by
        have announced :
            settledObservationKind settlement.result.outcome = .attemptSucceeded := kind
        revert announced
        cases settlement.result.outcome <;> decide
      exact ⟨current.stageId, current.attemptId, rfl, rfl,
        Or.inr ⟨_, settles outcome, rfl, rfl, rfl⟩⟩
    · obtain ⟨stageId, attemptId, named, given, merged | ⟨_, settling, _⟩⟩ :=
        coherent.announced row old kind
      · exact ⟨stageId, attemptId, named, given, Or.inl merged⟩
      · exact absurd settling unsettled
  · intro attempt settling
    split at settling
    · cases settling
      rw [attempts]
      exact Table.mem_upsert.mpr (Or.inl rfl)
    · cases settling

theorem coherent_merge {attempt : StageRunnerAttempt} {merge : Merge} {now : String}
    (coherent : Coherent service) (settling : service.settling = some attempt)
    (merged : mergeOutputs service.db.store attempt now = .ok (merge, store)) : Coherent
      { db := { service.db with store := store }
        settling := none
        merges := service.merges ++ [merge] } := by
  obtain ⟨⟨graph, made⟩, revision, rfl⟩ := mergeOutputs_eq_ok merged
  have last : merge ∈ service.merges ++ [merge] := List.mem_append_right _ List.mem_cons_self
  constructor
  · constructor
    · intro stage member state attemptId current
      exact (coherent.delivered stage member state attemptId current).mono merge
    · intro row member result given succeeded
      rcases coherent.outputs row member result given succeeded with ⟨earlier, listed, same⟩ |
        ⟨other, settles, same⟩
      · exact Or.inl ⟨earlier, List.mem_append_left _ listed, same⟩
      · rw [settling] at settles
        cases settles
        have here : attempt = row :=
          Table.eq_of_key_eq (coherent.stored attempt settling) member same
        refine Or.inl ⟨merge, last, ?_⟩
        rw [made, here]
        exact ⟨rfl, by simp only [outputBinding, given, Option.map_some, Option.getD_some]⟩
    · intro runId
      refine (canonicalState_upsert _ _ runId).trans ?_
      rw [replay_concat, ← coherent.replayed, show merge.runId = attempt.runId by rw [made]]
      by_cases same : runId = attempt.runId
      · rw [if_pos same, if_pos same.symm, same]
      · rw [if_neg same, if_neg (Ne.symm same)]
  · intro row member kind
    obtain ⟨stageId, attemptId, named, given, delivered | ⟨other, settles, same, run, stage⟩⟩ :=
      coherent.announced row member kind
    · exact ⟨stageId, attemptId, named, given, Or.inl (delivered.mono merge)⟩
    · rw [settling] at settles
      cases settles
      refine ⟨stageId, attemptId, named, given, Or.inl ⟨merge, last, ?_⟩⟩
      rw [made]
      exact ⟨same, run, stage⟩
  · intro attempt settling
    cases settling

end Steps

section Runs

variable [Sha256] {service service' : Service}

theorem coherent_tick {runId now : String} {result : ApplyPipelineSchedulerPlanResult}
    {input : SchedulerInput} {plan : SchedulerPlan} {store : StateDatabase}
    (coherent : Coherent service) (idle : service.settling = none)
    (ran : tickAttempt service.db.store runId now = .ok (result, input, plan, store)) :
    Coherent { service with db := { service.db with store := store } } := by
  have committed : Committed ⟨service.db.store, runId, now, input, plan, store⟩ := ⟨result, ran⟩
  have patches := patches_delivered coherent idle rfl committed
  obtain ⟨wrote, _⟩ := committed.wrote
  refine coherent.of_store ?_ ?_ ?_
  · intro stage member state attemptId attempt
    obtain ⟨attempts, updated⟩ := wrote.stages
    rcases mem_updateStages updated stage member with patched | old
    · obtain ⟨run, delivered⟩ := patches stage patched
      rw [run]
      exact delivered state attemptId attempt
    · exact coherent.delivered stage old state attemptId attempt
  · intro row member _
    exact mem_foldl_markConsumed row (wrote.observations_eq ▸ member)
  · intro id
    simp only [canonicalState, readCanonicalRunState]
    rw [wrote.canonicalStates_eq]

theorem coherent_step (coherent : Coherent service) (step : UncutStep service service') :
    Coherent service' := by
  obtain ⟨transaction, uncut, performed⟩ := step
  unfold performTransaction at performed
  split at performed
  · rename_i idle
    cases transaction with
    | operate operation =>
      simp only [performIdle] at performed
      split at performed
      · rename_i outside
        obtain ⟨store, done, built⟩ := bind_eq_ok.mp performed
        cases built
        exact coherent_operate coherent outside (mapError_eq_ok.mp done)
      · cases performed
    | claim input =>
      obtain ⟨⟨result, db⟩, claimed, built⟩ := bind_eq_ok.mp performed
      cases built
      exact coherent_claim coherent idle (mapError_eq_ok.mp claimed)
    | provision workspaceId =>
      cases performed
      exact coherent.of_ledger idle rfl fun attempt member _ given => ⟨attempt, member, rfl, given⟩
    | update input =>
      simp only [performIdle] at performed
      split at performed
      · rename_i omitted
        rw [Bool.and_eq_true, Option.isNone_iff_eq_none, Option.isNone_iff_eq_none] at omitted
        obtain ⟨⟨row, db⟩, updated, built⟩ := bind_eq_ok.mp performed
        cases built
        exact coherent_update coherent idle omitted.2 (mapError_eq_ok.mp updated)
      · cases performed
    | finalize settlement =>
      obtain ⟨⟨attempt, db⟩, finalized, built⟩ := bind_eq_ok.mp performed
      cases built
      exact coherent_finalize coherent idle (mapError_eq_ok.mp finalized)
    | tick runId now =>
      obtain ⟨⟨result, input, plan, store⟩, ran, built⟩ := bind_eq_ok.mp performed
      cases built
      exact coherent_tick coherent idle (mapError_eq_ok.mp ran)
    | merge now => cases performed
    | interrupt =>
      cases performed
      exact coherent
  · rename_i attempt settling
    cases transaction with
    | merge now =>
      obtain ⟨⟨merge, store⟩, merged, built⟩ := bind_eq_ok.mp performed
      cases built
      exact coherent_merge coherent settling (mapError_eq_ok.mp merged)
    | interrupt =>
      rw [uncut rfl] at settling
      cases settling
    | _ => cases performed

omit [Sha256] in
theorem coherent_empty : Coherent {} where
  delivered := by
    intro stage member
    cases member
  outputs := by
    intro attempt member
    cases member
  replayed runId := rfl
  announced := by
    intro row member
    cases member
  stored := by
    intro attempt settling
    cases settling

/-- Where no interruption separates a finalization from its merge, every stage that succeeded
through an attempt is merged, and ticks evaluate conditions in a state that says so. -/
theorem succeeded_merged (run : Relation.ReflTransGen UncutStep {} service) :
    SucceededMerged service ∧ EvaluatesMerged service := by
  have coherent : Coherent service :=
    steps_invariant (fun _ _ => coherent_step) coherent_empty run
  exact ⟨coherent.toSucceededMerged, evaluatesMerged_of_coherent coherent⟩

end Runs

def writingGraph : PipelineGraph where
  mode := .autonomous
  stages :=
    [{ id := "build", type := .agent, mode := .autonomous, optional := false
       writes := ["artifacts.build"] }]
  edges := []

def buildAttempt : String := deriveAttemptId "run" 1 "build" 1 1

def settledTransactions : List Transaction :=
  [.operate (.create
      { runId := "run", pipelineId := "pipeline", graph := writingGraph, now := "t0" }),
    .tick "run" "t0",
    .claim
      { attemptId := buildAttempt, runId := "run", stageId := "build", stageType := "agent"
        intentId := deriveIntentId "run" 1 .dispatch (attemptKey "build" 1 1)
        graphRevision := 1, generation := 1, attemptOrdinal := 1, now := "t1" },
    .operate (.observe "run"
      { stageObservation "o1" "build" "t1" .attemptStarted with attemptId := some buildAttempt }),
    .tick "run" "t1",
    .finalize
      { attemptId := buildAttempt, expectedRevision := 1, observationId := "o2", now := "t2"
        result :=
          { outcome := .succeeded
            outputs := [⟨"artifacts.build", .value, .json (.string "done")⟩] }
        valid := true
        valid_of_succeeded := fun _ => rfl
        validation := .object [("valid", .bool true)] }]

def mergedTransactions : List Transaction :=
  settledTransactions ++ [.merge "t2", .tick "run" "t3"]

/-- The process ends after the finalization, and the run is ticked when it is back. -/
def cutTransactions : List Transaction :=
  settledTransactions ++ [.interrupt, .tick "run" "t3"]

/-- The service after a run of transactions, up to the first that throws. -/
def serviceAfter [Sha256] : List Transaction → Service → Service
  | [], service => service
  | transaction :: transactions, service =>
    match performTransaction service transaction with
    | .ok next => serviceAfter transactions next
    | .error _ => service

theorem serviceAfter_run [Sha256] {r : Service → Service → Prop} {transactions : List Transaction}
    (step : ∀ transaction ∈ transactions, ∀ service next,
      performTransaction service transaction = .ok next → r service next) (service : Service) :
    Relation.ReflTransGen r service (serviceAfter transactions service) := by
  induction transactions generalizing service with
  | nil => exact .refl
  | cons transaction transactions ih =>
    rw [serviceAfter]
    split
    · rename_i next performed
      refine .head (step transaction List.mem_cons_self service next performed) (ih ?_ next)
      exact fun later listed => step later (List.mem_cons_of_mem _ listed)
    · exact .refl

def interrupts : Transaction → Bool
  | .interrupt => true
  | _ => false

theorem serviceAfter_uncut [Sha256] {transactions : List Transaction}
    (uncut : ∀ transaction ∈ transactions, interrupts transaction = false) (service : Service) :
    Relation.ReflTransGen UncutStep service (serviceAfter transactions service) := by
  refine serviceAfter_run (fun transaction listed _ _ performed => ⟨transaction, ?_, performed⟩) _
  rintro rfl
  cases uncut _ listed

def succeededThrough (service : Service) (attemptId : String) : Bool :=
  service.db.store.stages.rows.any fun stage =>
    decide (stage.state = .succeeded ∧ stage.currentAttemptId = some attemptId)

theorem succeeded_merged_sample :
    let _ : Sha256 := blankDigest
    let service := serviceAfter mergedTransactions {}
    succeededThrough service buildAttempt = true ∧
      service.merges.map Merge.attemptId = [buildAttempt] ∧
      SucceededMerged service ∧ EvaluatesMerged service := by
  intro digest service
  exact ⟨by decide +kernel, by decide +kernel,
    succeeded_merged (serviceAfter_uncut (by decide) {})⟩

/-- After a crash between the two transactions the stage succeeds without its outputs. -/
theorem succeeded_unmerged :
    ¬ ∀ [Sha256] (service : Service), Relation.ReflTransGen Step {} service →
      SucceededMerged service := by
  intro claim
  let _ : Sha256 := blankDigest
  have merged := claim (serviceAfter cutTransactions {})
    (serviceAfter_run (fun transaction _ _ _ performed => ⟨transaction, performed⟩) {})
  have through : succeededThrough (serviceAfter cutTransactions {}) buildAttempt = true := by
    decide +kernel
  have unmerged : (serviceAfter cutTransactions {}).merges.length = 0 := by decide +kernel
  simp only [succeededThrough, List.any_eq_true, decide_eq_true_eq] at through
  obtain ⟨stage, member, state, attempt⟩ := through
  obtain ⟨merge, listed, _⟩ := merged.delivered stage member state buildAttempt attempt
  cases listed

end Heniek.OutputMerge
