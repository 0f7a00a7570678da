import Heniek.CanonicalJson
import Heniek.RetryTraces

/-!
The recovery state of a run across its store. A tick splits the keys of its counters into
stage and generation and hands one entry for each to the plan; the store writes them as
rows, with the directive as a JSON column, and the next tick joins the keys again. The
directive is read back field by field from its canonical text.
-/

namespace Heniek.RecoveryPersistence
open KeyedTable PipelineVocabulary ExpressionEvaluation CanonicalState CanonicalJson
open RecoveryPolicy ScriptText FallibleRun SchedulerTick SchedulerSteps StageChanges SchedulerRun
open CounterSteps PipelineStore PipelineRunner

def modeText : RetryMode → String
  | .fresh => "fresh"
  | .resume => "resume"
  | .delegate => "delegate"

def sessionText : SessionPolicy → String
  | .fresh => "fresh"
  | .resume => "resume"

/-- A member that is left out where its value is undefined. -/
def optionalMember (key : String) (value : Option String) : Members :=
  (value.map fun text => (key, JsonValue.string text)).toList

def directiveMembers (directive : RetryDirective) : Members :=
  [("schemaVersion", .number (.finite 1)), ("mode", .string (modeText directive.mode)),
    ("sessionPolicy", .string (sessionText directive.sessionPolicy))] ++
    (optionalMember "recoveryContextDigest" directive.recoveryContextDigest ++
      (optionalMember "priorAttemptId" directive.priorAttemptId ++
        (optionalMember "priorBackendExecutionId" directive.priorBackendExecutionId ++
          optionalMember "delegateTo" directive.delegateTo)))

def directiveJson (directive : RetryDirective) : JsonValue := .object (directiveMembers directive)

def textMember (members : Members) (key : String) : Option String :=
  match property? members key with
  | some (.string text) => some text
  | _ => none

def readMode (text : String) : Option RetryMode :=
  if text = "fresh" then some .fresh
  else if text = "resume" then some .resume
  else if text = "delegate" then some .delegate
  else none

def readSession (text : String) : Option SessionPolicy :=
  if text = "fresh" then some .fresh
  else if text = "resume" then some .resume
  else none

def readDirective : JsonValue → Option RetryDirective
  | .object members => do
      let mode ← (textMember members "mode").bind readMode
      let sessionPolicy ← (textMember members "sessionPolicy").bind readSession
      some
        { mode := mode
          sessionPolicy := sessionPolicy
          priorAttemptId := textMember members "priorAttemptId"
          priorBackendExecutionId := textMember members "priorBackendExecutionId"
          delegateTo := textMember members "delegateTo"
          recoveryContextDigest := textMember members "recoveryContextDigest" }
  | _ => none

/-- What the value of the column counts as. -/
def readProposal (value : JsonValue) : ProposalJson :=
  match readDirective value with
  | some directive => .directive directive
  | none => .other

theorem canonical_string {text : String} {read : JsonValue}
    (canonical : Canonical (.string text) read) : read = .string text := by
  obtain ⟨depth, passed⟩ := canonical
  cases within_eq_ok passed
  rfl

variable {read : Members} {key : String} {db : StateDatabase}

theorem textMember_alike {members : Members} (alike : Alike members read) {text : String}
    (held : property? members key = some (.string text)) : textMember read key = some text := by
  have related := alike key
  rw [held] at related
  cases found : property? read key with
  | none =>
    rw [found] at related
    cases related
  | some value =>
    rw [found] at related
    cases related with
    | some canonical =>
      rw [canonical_string canonical] at found
      rw [textMember, found]

theorem textMember_absent {members : Members} (alike : Alike members read)
    (absent : property? members key = none) : textMember read key = none := by
  have related := alike key
  rw [absent] at related
  cases found : property? read key with
  | none => rw [textMember, found]
  | some value =>
    rw [found] at related
    cases related

theorem textMember_optional {members : Members} (alike : Alike members read) {value : Option String}
    (held : property? members key = value.map JsonValue.string) : textMember read key = value := by
  cases value with
  | none => exact textMember_absent alike held
  | some text => exact textMember_alike alike held

theorem property?_cons (name key : String) (value : JsonValue) (rest : Members) :
    property? ((name, value) :: rest) key =
      if name = key then some value else property? rest key := by
  by_cases same : name = key <;> simp [property?, same]

theorem property?_append (first second : Members) (key : String) :
    property? (first ++ second) key = (property? first key).or (property? second key) := by
  simp only [property?, List.find?_append]
  cases first.find? fun m => m.1 = key <;> rfl

theorem property?_optional (name key : String) (value : Option String) :
    property? (optionalMember name value) key =
      if name = key then value.map JsonValue.string else none := by
  cases value with
  | none => simp [optionalMember, property?]
  | some text => by_cases same : name = key <;> simp [optionalMember, property?]

theorem readMode_text (mode : RetryMode) : readMode (modeText mode) = some mode := by
  cases mode <;> rfl

theorem readSession_text (policy : SessionPolicy) :
    readSession (sessionText policy) = some policy := by
  cases policy <;> rfl

theorem readDirective_canonical {directive : RetryDirective} {read : JsonValue}
    (canonical : Canonical (directiveJson directive) read) :
    readDirective read = some directive := by
  obtain ⟨members, rfl, alike⟩ := canonical.object
  have mode : textMember members "mode" = some (modeText directive.mode) :=
    textMember_alike alike rfl
  have session : textMember members "sessionPolicy" = some (sessionText directive.sessionPolicy) :=
    textMember_alike alike rfl
  have optional : ∀ key value, property? (directiveMembers directive) key =
      Option.map JsonValue.string value → textMember members key = value :=
    fun _ _ held => textMember_optional alike held
  have attempt := optional "priorAttemptId" directive.priorAttemptId (by
    simp [directiveMembers, property?_cons, property?_append, property?_optional])
  have execution := optional "priorBackendExecutionId" directive.priorBackendExecutionId (by
    simp [directiveMembers, property?_cons, property?_append, property?_optional])
  have delegate := optional "delegateTo" directive.delegateTo (by
    simp [directiveMembers, property?_cons, property?_append, property?_optional])
  have digest := optional "recoveryContextDigest" directive.recoveryContextDigest (by
    simp [directiveMembers, property?_cons, property?_append, property?_optional])
  simp [readDirective, mode, session, attempt, execution, delegate, digest, readMode_text,
    readSession_text]

theorem settle_ok {results : List (String × Except String JsonValue)}
    (each : ∀ result ∈ results, ∃ value, result.2 = .ok value) :
    ∃ members, settle results = .ok members := by
  induction results with
  | nil => exact ⟨[], rfl⟩
  | cons first rest ih =>
    obtain ⟨value, here⟩ := each first List.mem_cons_self
    obtain ⟨members, later⟩ := ih fun result listed => each result (List.mem_cons_of_mem _ listed)
    refine ⟨(first.1, value) :: members, ?_⟩
    exact bind_eq_ok.mpr ⟨value, here, bind_eq_ok.mpr ⟨members, later, rfl⟩⟩

theorem canonicalize_directive (directive : RetryDirective) :
    ∃ read, canonicalize 0 (directiveJson directive) = .ok read := by
  have scalar : ∀ member ∈ directiveMembers directive, ∃ value,
      canonicalize 1 member.2 = .ok value := by
    intro member listed
    have shape : member.2 = .number (.finite 1) ∨ ∃ text, member.2 = .string text := by
      simp only [directiveMembers, optionalMember, List.mem_append, List.mem_cons, List.not_mem_nil,
        or_false, Option.mem_toList, Option.map_eq_some_iff] at listed
      rcases listed with (rfl | rfl | rfl) | ⟨text, _, rfl⟩ | ⟨text, _, rfl⟩ | ⟨text, _, rfl⟩ |
        ⟨text, _, rfl⟩
      · exact Or.inl rfl
      all_goals exact Or.inr ⟨_, rfl⟩
    rcases shape with same | ⟨text, same⟩
    · exact ⟨.number (.finite 1), by rw [same]; rfl⟩
    · exact ⟨.string text, by rw [same]; rfl⟩
  have each : ∀ result ∈ sortBy Prod.fst (canonicalMembers 1 (directiveMembers directive)),
      ∃ value, result.2 = .ok value := by
    intro result listed
    rw [canonicalMembers_eq] at listed
    obtain ⟨member, held, rfl⟩ := List.mem_map.mp ((List.mem_insertionSort _).mp listed)
    exact scalar member held
  obtain ⟨members, settled⟩ := settle_ok each
  exact ⟨.object (enumerate members),
    map_eq_ok.mpr ⟨_, map_eq_ok.mpr ⟨members, settled, rfl⟩, rfl⟩⟩

theorem readProposal_directive (directive : RetryDirective) :
    ∃ read, canonicalize 0 (directiveJson directive) = .ok read ∧
      readProposal read = .directive directive := by
  obtain ⟨read, passed⟩ := canonicalize_directive directive
  refine ⟨read, passed, ?_⟩
  rw [readProposal, readDirective_canonical ⟨0, passed⟩]

def Keyed (entry : RecoveryEntry) : Prop :=
  ∃ stageId, entry.key = recoveryKey stageId entry.generation

theorem freezeRecoveryEntry_stageId {entry : RecoveryEntry} {stageId : String}
    (keyed : entry.key = recoveryKey stageId entry.generation) :
    (freezeRecoveryEntry entry).stageId = stageId := by
  have chars : entry.key.toList =
      stageId.toList ++ ':' :: (toString entry.generation).toList := by
    rw [keyed, recoveryKey]
    simp [String.toList_append]
  change String.ofList (beforeLast ':' entry.key.toList) = stageId
  rw [chars, beforeLast_append ':' _ _ (colonFree_decimal entry.generation), String.ofList_toList]

theorem thaw_stored {entry : RecoveryEntry} (keyed : Keyed entry) (plan : SchedulerPlan) :
    thawRecoveryEntry
      (recoveryEntry (recoveryStateRow plan (freezeRecoveryEntry entry))) = entry := by
  obtain ⟨stageId, key⟩ := keyed
  have named := freezeRecoveryEntry_stageId key
  obtain ⟨name, generation, counters⟩ := entry
  obtain ⟨repairs, digest, count, proposal, directive⟩ := counters
  simp only [recoveryStateRow, named]
  dsimp only at key
  subst key
  cases directive <;> rfl

section Ticks

variable [Sha256] {admits : TickContext → SchedulerObservation → Prop} {scope : Scope}
variable {ctx ctx' : TickContext}

theorem step_entries (step : Step admits scope ctx ctx') :
    ctx'.recoveryByKey = ctx.recoveryByKey ∨ ∃ stage counters,
      ctx'.recoveryByKey = (setRecoveryCounters ctx stage counters).recoveryByKey := by
  cases step with
  | touch stage found =>
    rcases touch_cases ctx stage with same | ⟨_, created⟩
    · exact Or.inl (by rw [same])
    · exact Or.inr ⟨stage, {}, by rw [created]⟩
  | recover stage observation decision counters => exact Or.inr ⟨stage, counters, rfl⟩
  | rerun origin observation stage => exact Or.inr ⟨rerunStage ctx.input.now stage, {}, rfl⟩
  | queue stage definition =>
    have moved : (queueMove ctx stage definition).recoveryByKey =
        (settleDirective ctx (bumped stage)).recoveryByKey := rfl
    rcases settleDirective_cases ctx (bumped stage) with same | ⟨counters, same⟩
    · exact Or.inl (by rw [moved, same])
    · exact Or.inr ⟨bumped stage, counters, by rw [moved, same]⟩
  | _ => exact Or.inl rfl

theorem step_v2 (step : Step admits scope ctx ctx') : ctx'.v2 = ctx.v2 := by
  cases step with
  | touch stage found =>
    rcases touch_cases ctx stage with same | ⟨_, created⟩
    · rw [same]
    · rw [created]
      rfl
  | queue stage definition =>
    have moved : (queueMove ctx stage definition).v2 =
        (settleDirective ctx (bumped stage)).v2 := rfl
    rw [moved]
    rcases settleDirective_cases ctx (bumped stage) with same | ⟨counters, same⟩ <;> rw [same]
    rfl
  | _ => rfl

theorem steps_v2 (steps : Steps admits scope ctx ctx') : ctx'.v2 = ctx.v2 := by
  induction steps with
  | refl => rfl
  | tail _ step ih => rw [step_v2 step, ih]

/-- Entries are never dropped, and each is stored under its key. -/
theorem steps_entries (steps : Steps admits scope ctx ctx')
    (keyed : ∀ entry ∈ ctx.recoveryByKey.rows, Keyed entry) :
    (∀ entry ∈ ctx'.recoveryByKey.rows, Keyed entry) ∧
      ∀ key ∈ ctx.recoveryByKey.keys, key ∈ ctx'.recoveryByKey.keys := by
  induction steps with
  | refl => exact ⟨keyed, fun _ known => known⟩
  | tail _ step ih =>
    rcases step_entries step with same | ⟨stage, counters, same⟩
    · rw [same]
      exact ih
    · rw [same]
      refine ⟨fun entry member => ?_, fun key known => ?_⟩
      · rcases Table.mem_upsert.mp member with rfl | ⟨kept, _⟩
        · exact ⟨stage.stageId, rfl⟩
        · exact ih.1 entry kept
      · exact Table.mem_keys_upsert.mpr (Or.inl (ih.2 key known))

omit [Sha256] in
theorem keyed_thaw (entries : List StageRecoveryState) :
    ∀ entry ∈ (Table.empty.upsertAll (entries.map thawRecoveryEntry) :
      Table RecoveryEntry.key).rows, Keyed entry := by
  intro entry member
  rcases Table.mem_of_find?_upsertAll (Table.find?_key member) with listed | stored
  · obtain ⟨given, _, rfl⟩ := List.mem_map.mp listed
    exact ⟨given.stageId, rfl⟩
  · rw [Table.find?_empty] at stored
    cases stored

omit [Sha256] in
theorem recordTerminal_recovery {terminal : Option ScheduleTerminal}
    (recorded : recordTerminal ctx terminal = .ok ctx') :
    ctx'.recoveryByKey = ctx.recoveryByKey ∧ ctx'.input = ctx.input ∧ ctx'.v2 = ctx.v2 := by
  unfold recordTerminal at recorded
  split at recorded
  · cases recorded
    exact ⟨rfl, rfl, rfl⟩
  · obtain ⟨stageId, _, recorded⟩ := bind_eq_ok.mp recorded
    cases recorded
    exact ⟨rfl, rfl, rfl⟩

/-- What a plan says of the counters that its tick ends with. -/
structure Recovered (input : SchedulerInput) (final : TickContext)
    (plan : SchedulerPlan) : Prop where
  runId_eq : plan.runId = input.runId
  recoveryState_eq : plan.recoveryState = some (freezeRecoveryState final)
  keyed : ∀ entry ∈ final.recoveryByKey.rows, Keyed entry
  kept : ∀ entry ∈ input.recoveryState.getD [],
    recoveryKey entry.stageId entry.generation ∈ final.recoveryByKey.keys

theorem tickWith_recovered {input : SchedulerInput} {final : TickContext} {plan : SchedulerPlan}
    (ticked : tickWith true input = .ok (final, plan)) : Recovered input final plan := by
  obtain ⟨start, settled, created, phases, _, recorded, planned⟩ := trace_of_tickWith ticked
  rw [createTickContext, if_pos (createTickContext_eq_ok created).1] at created
  obtain rfl := Except.ok.inj created
  obtain ⟨entries, inputs, versions⟩ := recordTerminal_recovery recorded
  have steps : Steps (fun _ _ => True) _ _ settled :=
    runPhases_steps (fun _ _ _ _ _ _ => trivial) phases
  have kept := steps_entries steps (keyed_thaw _)
  have given : final.input = input := inputs.trans (steps_input steps)
  have v2 : final.v2 = true := versions.trans (steps_v2 steps)
  refine ⟨?_, ?_, ?_, fun entry listed => ?_⟩
  · rw [planned, planOf, given]
  · rw [planned, planOf, v2]
    rfl
  · rw [entries]
    exact kept.1
  · rw [entries]
    refine kept.2 _ (Table.mem_keys_upsertAll.mpr (Or.inr ?_))
    exact List.mem_map.mpr ⟨thawRecoveryEntry entry, List.mem_map_of_mem listed, rfl⟩

end Ticks

theorem upsertRows_eq {α κ : Type} [DecidableEq κ] {key : α → κ} {admits : α → Bool} {rows : List α}
    {table table' : Table key} (ran : rows.foldlM (upsertRow admits) table = .ok table') :
    table' = table.upsertAll rows := by
  induction rows generalizing table with
  | nil =>
    cases ran
    rfl
  | cons row rows ih =>
    obtain ⟨next, written, rest⟩ := foldlM_cons_eq_ok.mp ran
    unfold upsertRow at written
    split at written
    · cases written
      exact ih rest
    · cases written

theorem nodup_keys {entries : Table RecoveryEntry.key}
    (keyed : ∀ entry ∈ entries.rows, Keyed entry) :
    (entries.rows.map fun entry =>
      ((freezeRecoveryEntry entry).stageId, entry.generation)).Nodup := by
  have distinct := entries.distinct
  rw [List.Nodup, List.pairwise_map] at distinct ⊢
  refine distinct.imp_of_mem fun {first second} inFirst inSecond apart same => apart ?_
  obtain ⟨stageId, key⟩ := keyed first inFirst
  obtain ⟨stageId', key'⟩ := keyed second inSecond
  rw [freezeRecoveryEntry_stageId key, freezeRecoveryEntry_stageId key'] at same
  rw [key, key', (Prod.mk.inj same).1, (Prod.mk.inj same).2]

theorem mem_written {entries : Table RecoveryEntry.key} {plan : SchedulerPlan}
    (keyed : ∀ entry ∈ entries.rows, Keyed entry) {frozen : List StageRecoveryState}
    (listed : frozen.Perm (entries.rows.map freezeRecoveryEntry))
    (covered : ∀ row ∈ db.recoveryStates.rows, row.runId = plan.runId →
      recoveryKey row.stageId row.generation ∈ entries.keys)
    {row : PipelineStageRecoveryStateRow} (run : row.runId = plan.runId) :
    row ∈ (db.recoveryStates.upsertAll (frozen.map (recoveryStateRow plan))).rows ↔
      ∃ entry ∈ entries.rows, row = recoveryStateRow plan (freezeRecoveryEntry entry) := by
  have rows : ∀ row, row ∈ frozen.map (recoveryStateRow plan) ↔
      ∃ entry ∈ entries.rows, row = recoveryStateRow plan (freezeRecoveryEntry entry) := by
    intro row
    rw [((listed.map (recoveryStateRow plan)).mem_iff), List.map_map, List.mem_map]
    simp only [Function.comp_apply, eq_comm]
  have distinct : ((frozen.map (recoveryStateRow plan)).map fun row =>
      (row.runId, row.stageId, row.generation)).Nodup := by
    rw [((listed.map (recoveryStateRow plan)).map _).nodup_iff, List.map_map, List.map_map]
    have pairs := nodup_keys keyed
    rw [List.Nodup, List.pairwise_map] at pairs ⊢
    exact pairs.imp fun apart same => apart (Prod.mk.inj same).2
  constructor
  · intro member
    rw [← rows]
    rcases Table.mem_of_find?_upsertAll (Table.find?_key member) with fresh | old
    · exact fresh
    · obtain ⟨entry, held, key⟩ := List.mem_map.mp (covered row (Table.mem_of_find? old) run)
      obtain ⟨stageId, own⟩ := keyed entry held
      obtain ⟨named, number⟩ := recoveryKey_inj (own.symm.trans key)
      have stored := (rows _).mpr ⟨entry, held, rfl⟩
      have found := Table.find?_upsertAll_of_nodup (t := db.recoveryStates) distinct stored
      have same : ((recoveryStateRow plan (freezeRecoveryEntry entry)).runId,
          (recoveryStateRow plan (freezeRecoveryEntry entry)).stageId,
          (recoveryStateRow plan (freezeRecoveryEntry entry)).generation) =
          (row.runId, row.stageId, row.generation) := by
        rw [run]
        exact Prod.ext rfl (Prod.ext ((freezeRecoveryEntry_stageId own).trans named) number)
      rw [same, Table.find?_key member] at found
      rw [Option.some.inj found]
      exact stored
  · rintro ⟨entry, held, rfl⟩
    exact Table.mem_of_find?
      (Table.find?_upsertAll_of_nodup distinct ((rows _).mpr ⟨entry, held, rfl⟩))

theorem countersAt_loaded {ctx final : TickContext} {plan : SchedulerPlan}
    {rows : List PipelineStageRecoveryStateRow}
    (keyed : ∀ entry ∈ final.recoveryByKey.rows, Keyed entry)
    (stored : ∀ row, row ∈ rows ↔ ∃ entry ∈ final.recoveryByKey.rows,
      row = recoveryStateRow plan (freezeRecoveryEntry entry))
    (loaded : ctx.recoveryByKey =
      Table.empty.upsertAll ((rows.map recoveryEntry).map thawRecoveryEntry))
    (stageId : String) (generation : Nat) :
    countersAt ctx stageId generation = countersAt final stageId generation := by
  have members : ∀ entry, entry ∈ (rows.map recoveryEntry).map thawRecoveryEntry ↔
      entry ∈ final.recoveryByKey.rows := by
    intro entry
    rw [List.map_map, List.mem_map]
    constructor
    · rintro ⟨row, listed, rfl⟩
      obtain ⟨entry, held, rfl⟩ := (stored row).mp listed
      rw [Function.comp_apply, thaw_stored (keyed entry held)]
      exact held
    · intro held
      exact ⟨_, (stored _).mpr ⟨entry, held, rfl⟩, thaw_stored (keyed entry held) plan⟩
  have same : ctx.recoveryByKey.find? (recoveryKey stageId generation) =
      final.recoveryByKey.find? (recoveryKey stageId generation) := by
    cases found : ctx.recoveryByKey.find? (recoveryKey stageId generation) with
    | some entry =>
      have named := Table.key_of_find? found
      rw [loaded] at found
      rcases Table.mem_of_find?_upsertAll found with listed | old
      · rw [← named]
        exact (Table.find?_key ((members entry).mp listed)).symm
      · cases old
    | none =>
      symm
      rw [Table.find?_eq_none] at found ⊢
      intro present
      obtain ⟨entry, held, key⟩ := List.mem_map.mp present
      refine found ?_
      rw [loaded, Table.mem_keys_upsertAll]
      exact Or.inr (List.mem_map.mpr ⟨entry, (members entry).mpr held, key⟩)
  unfold countersAt
  rw [same]

/-- A tick of the second version, with the context that it ends in. -/
inductive V2Tick [Sha256] (input : SchedulerInput)
    (final : TickContext) (plan : SchedulerPlan) : Prop
  | inferred (v2 : inferredV2 input = true) (ran : tickWith true input = .ok (final, plan))
  | forced (computed : SchedulerPlan)
      (ran : tickWith true { input with schemaVersion := 2 } = .ok (final, computed))
      (plan_eq : plan = { computed with
        schemaVersion := 2
        recoveryDecisions := some (computed.recoveryDecisions.getD []) })

/-- The input lists the recovery rows that the store has of its run. -/
def Covers (db : StateDatabase) (input : SchedulerInput) : Prop :=
  ∀ row ∈ db.recoveryStates.rows, row.runId = input.runId →
    ∃ entry ∈ input.recoveryState.getD [],
      entry.stageId = row.stageId ∧ entry.generation = row.generation

theorem recoveryState_loaded {runId now : String} {input : SchedulerInput}
    (loaded : toSchedulerInput db runId now = .ok input) : input.runId = runId ∧
      input.recoveryState.getD [] = (listStageRecoveryStates db runId).map recoveryEntry := by
  obtain ⟨schedule, graph, _, _, rfl⟩ := toSchedulerInput_eq_ok loaded
  refine ⟨rfl, ?_⟩
  simp only [schedulerInput]
  split
  · rfl
  · rename_i first
    have none_left : listStageRecoveryStates db runId = [] := by
      simp only [useV2, Bool.or_eq_true, not_or, Bool.not_eq_true, Bool.not_eq_false',
        List.isEmpty_iff] at first
      exact first.1
    rw [none_left]
    rfl

theorem covers_loaded {runId now : String} {input : SchedulerInput}
    (loaded : toSchedulerInput db runId now = .ok input) : Covers db input := by
  obtain ⟨run, entries⟩ := recoveryState_loaded loaded
  intro row stored own
  rw [entries]
  refine ⟨recoveryEntry row, List.mem_map_of_mem ?_, rfl, rfl⟩
  rw [listStageRecoveryStates, mem_orderBy, List.mem_filter]
  exact ⟨stored, decide_eq_true (own.trans run)⟩

section Hashed

variable [Sha256]

theorem tickSchedulerV2_v2 {input : SchedulerInput} {plan : SchedulerPlan}
    (ticked : tickSchedulerV2 input = .ok plan) : ∃ final, V2Tick input final plan := by
  obtain ⟨⟨final, computed⟩, ran, planned⟩ := bind_eq_ok.mp ticked
  cases planned
  exact ⟨final, .forced computed ran rfl⟩

theorem V2Tick.recovered {input : SchedulerInput} {final : TickContext} {plan : SchedulerPlan}
    (ticked : V2Tick input final plan) : Recovered input final plan := by
  cases ticked with
  | inferred v2 ran => exact tickWith_recovered ran
  | forced computed ran plan_eq =>
    have base := tickWith_recovered ran
    subst plan_eq
    exact ⟨base.runId_eq, base.recoveryState_eq, base.keyed, base.kept⟩

/-- The counters that a tick of the second version ends with are those that the next one begins
with, and a directive is read back from its column. -/
theorem recovery_survives {input next : SchedulerInput} {final ctx : TickContext}
    {plan : SchedulerPlan} {db db' : StateDatabase} {result : ApplyPipelineSchedulerPlanResult}
    {now : String} {v2 : Bool} (ticked : V2Tick input final plan) (covers : Covers db input)
    (applied : applyPipelineSchedulerPlan db plan = .ok (result, db'))
    (accepted : ∀ revision, result ≠ .conflict revision)
    (loaded : toSchedulerInput db' input.runId now = .ok next)
    (created : createTickContext next v2 = .ok ctx) :
    (∀ stageId generation,
        countersAt ctx stageId generation = countersAt final stageId generation) ∧
      ∀ directive, ∃ read, canonicalize 0 (directiveJson directive) = .ok read ∧
        readProposal read = .directive directive := by
  refine ⟨?_, readProposal_directive⟩
  obtain ⟨run, state, keyed, kept⟩ := ticked.recovered
  obtain ⟨schedule, _, outcome⟩ := applyPipelineSchedulerPlan_eq_ok applied
  rcases outcome with ⟨_, _, conflict⟩ | ⟨_, wrote, _⟩
  · exact absurd conflict (accepted _)
  · have rows := upsertRows_eq wrote.recoveryStates
    rw [state] at rows
    have begun : ctx.recoveryByKey = Table.empty.upsertAll
        (((listStageRecoveryStates db' input.runId).map recoveryEntry).map thawRecoveryEntry) := by
      rw [← (recoveryState_loaded loaded).2]
      rw [createTickContext, if_pos (createTickContext_eq_ok created).1] at created
      rw [← Except.ok.inj created]
    have listed : (freezeRecoveryState final).Perm
        (final.recoveryByKey.rows.map freezeRecoveryEntry) := List.perm_insertionSort _ _
    have covered : ∀ row ∈ db.recoveryStates.rows, row.runId = plan.runId →
        recoveryKey row.stageId row.generation ∈ final.recoveryByKey.keys := by
      intro row stored own
      obtain ⟨entry, given, named, number⟩ := covers row stored (own.trans run)
      rw [← named, ← number]
      exact kept entry given
    have stored : ∀ row, row ∈ listStageRecoveryStates db' input.runId ↔
        ∃ entry ∈ final.recoveryByKey.rows,
          row = recoveryStateRow plan (freezeRecoveryEntry entry) := by
      intro row
      rw [listStageRecoveryStates, mem_orderBy, List.mem_filter, decide_eq_true_eq, rows]
      constructor
      · rintro ⟨member, own⟩
        exact (mem_written keyed listed covered (own.trans run.symm)).mp member
      · rintro ⟨entry, held, rfl⟩
        exact ⟨(mem_written keyed listed covered rfl).mpr ⟨entry, held, rfl⟩, run⟩
    exact countersAt_loaded keyed stored begun

end Hashed

section Samples

/-- The tick in which the stage of the sample fails. -/
def failedTick : Option DaemonTick := RetryTraces.repairTicks[1]?

/-- The counters of the stage in the tick that follows on a store. -/
def nextContext (db : StateDatabase) : Option TickContext :=
  (toSchedulerInput db "run" "t2").toOption.bind fun next => (createTickContext next true).toOption

theorem toOption_eq_some {ε α : Type} {x : Except ε α} {a : α} (some_eq : x.toOption = some a) :
    x = .ok a := by
  cases x with
  | error error => cases some_eq
  | ok value =>
    cases some_eq
    rfl

/-- The directive of the failed stage is there in the next tick. -/
theorem recovery_survives_sample : ∃ tick final ctx, tick ∈ failedTick ∧
    nextContext tick.after = some ctx ∧
    (countersAt ctx "build" 1).pendingDirective.isSome = true ∧
    ∀ stageId generation,
      countersAt ctx stageId generation = countersAt final stageId generation := by
  let _ : Sha256 := timeoutDigest
  have facts : ∃ tick ∈ failedTick, tick.runId = "run" ∧ tick.input.schemaVersion = 2 ∧
      ∃ ctx ∈ nextContext tick.after,
        (countersAt ctx "build" 1).pendingDirective.isSome = true := by
    have holds : (failedTick.any fun tick =>
        decide (tick.runId = "run" ∧ tick.input.schemaVersion = 2) &&
          (nextContext tick.after).any fun ctx =>
            (countersAt ctx "build" 1).pendingDirective.isSome) = true := by decide +kernel
    obtain ⟨tick, listed, both⟩ := (Option.any_eq_true _ _).mp holds
    obtain ⟨named, later⟩ := Bool.and_eq_true_iff.mp both
    obtain ⟨ctx, reached, directed⟩ := (Option.any_eq_true _ _).mp later
    exact ⟨tick, listed, (of_decide_eq_true named).1, (of_decide_eq_true named).2, ctx, reached,
      directed⟩
  obtain ⟨tick, listed, named, version, ctx, reached, directed⟩ := facts
  have committed : Committed tick :=
    (serve_run RetryTraces.repairVisits).committed tick (List.mem_of_getElem? listed)
  obtain ⟨result, ran⟩ := committed
  obtain ⟨loaded, planned, applied⟩ := tickAttempt_eq_ok.mp ran
  rw [schedulerPlan, if_pos (Or.inl version)] at planned
  obtain ⟨final, ticked⟩ := tickSchedulerV2_v2 planned
  obtain ⟨next, read, created⟩ := Option.bind_eq_some_iff.mp reached
  refine ⟨tick, final, ctx, listed, reached, directed, ?_⟩
  have run : tick.input.runId = "run" := (recoveryState_loaded loaded).1.trans named
  have again : toSchedulerInput tick.after
      ({ tick.input with schemaVersion := 2 } : SchedulerInput).runId "t2" = .ok next := by
    rw [show ({ tick.input with schemaVersion := 2 } : SchedulerInput).runId = "run" from run]
    exact toOption_eq_some read
  have covers : Covers tick.before { tick.input with schemaVersion := 2 } :=
    fun row stored own => covers_loaded loaded row stored own
  exact (recovery_survives ticked covers applied (tickAttempt_wrote ran).2.2 again
    (toOption_eq_some created)).1

end Samples

end Heniek.RecoveryPersistence
