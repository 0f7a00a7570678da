import Heniek.GraphRevision
import Heniek.WaveExclusivity
import Mathlib.Data.List.Dedup
import Mathlib.Data.List.Induction

/-!
Chains of accepted revisions of a task graph. What a revision may do to the tasks of its
predecessor and to the requirements is read off the checks it has passed, and carried
along the chain. A requirement is known by the text that joins its two ids, so it is kept
only where no other requirement is joined to the same text.
-/

namespace Heniek.RevisionHistory
open KeyedTable ScriptText RecoveryPolicy TaskGraph DagValidation GraphRevision
open WaveExclusivity

/-- What a proposal is judged by besides the current record. -/
structure RevisionStep where
  taskStates : List TaskPlanningState
  hiddenDependencyFinding : Option HiddenDependencyFinding
  maxGraphRevisions : Nat
  decisionId : String
  decidedAt : String
  proposal : TaskGraphRevisionProposal

def RevisionStep.context (step : RevisionStep) (current : TaskGraphRevisionRecord) :
    TaskGraphRevisionValidationContext where
  current := current
  taskStates := step.taskStates
  hiddenDependencyFinding := step.hiddenDependencyFinding
  maxGraphRevisions := step.maxGraphRevisions
  decisionId := step.decisionId
  decidedAt := step.decidedAt

def revise [Sha256] (current : TaskGraphRevisionRecord) (step : RevisionStep) :
    Option TaskGraphRevisionRecord :=
  (validateTaskGraphRevision (step.context current) step.proposal).2

def reviseAll [Sha256] (initial : TaskGraphRevisionRecord) (steps : List RevisionStep) :
    Option TaskGraphRevisionRecord := steps.foldlM revise initial

def nodeText (dag : TaskDag) (taskId : String) : Option String :=
  ((nodeMap dag).find? taskId).map TaskDagNode.json

/-- The task was cancelled and is replaced by one other, as the finding of the revision says. -/
def Superseded (step : RevisionStep) (next : TaskGraphRevisionRecord) (state : TaskPlanningState) :
    Prop :=
  state.outcome = .cancelled ∧ state.taskId ∉ next.dag.taskIds ∧
    ∃ trigger finding, next.trigger = some trigger ∧
      step.hiddenDependencyFinding = some finding ∧ finding.findingId = trigger.findingId ∧
      state.taskId ∈ trigger.interruptedTaskIds ∧ state.taskId ∈ finding.affectedTaskIds ∧
      ∃ change ∈ next.changes, change.kind = .supersede ∧ change.beforeTaskIds = [state.taskId] ∧
        change.afterTaskIds.length = 1

structure Follows (current : TaskGraphRevisionRecord) (step : RevisionStep)
    (next : TaskGraphRevisionRecord) : Prop where
  consecutive : next.graphRevision = current.graphRevision + 1
  limited : next.graphRevision ≤ step.maxGraphRevisions
  linked : next.predecessorRevisionSha256 = some current.revisionSha256
  known : ∀ node ∈ current.dag.nodes, ∃ state ∈ step.taskStates, state.taskId = node.taskId
  started : ∀ node ∈ current.dag.nodes, ∀ state ∈ step.taskStates, state.taskId = node.taskId →
    state.outcome ≠ .notStarted →
      (∃ successor ∈ next.dag.nodes, successor.taskId = node.taskId ∧
        successor.json = (canonicalNode node).json) ∨
      Superseded step next state
  accounted : ∀ taskId, nodeText (canonicalDag current.dag) taskId ≠ nodeText next.dag taskId →
    (next.changes.filter fun change =>
      decide (taskId ∈ change.beforeTaskIds ∨ taskId ∈ change.afterTaskIds)).length = 1

def requirement (mapping : TaskRequirementMapping) : String × String :=
  (mapping.sourceWorkItemId, mapping.requirementId)

def Mapped (record : TaskGraphRevisionRecord) (required : String × String) : Prop :=
  ∃ mapping ∈ record.requirementMappings, requirement mapping = required ∧
    ∃ taskId ∈ mapping.afterTaskIds, taskId ∈ record.dag.taskIds

def KeysAgree (current : TaskGraphRevisionRecord) (step : RevisionStep) : Prop :=
  ∀ mapping ∈ current.requirementMappings, ∀ proposed ∈ step.proposal.requirementMappings,
    mappingKey proposed = mappingKey mapping → requirement proposed = requirement mapping

/-- Every mapping names a task. -/
def Targeted (mappings : List TaskRequirementMapping) : Prop :=
  ∀ mapping ∈ mappings, mapping.afterTaskIds ≠ []

section Step

variable {current next : TaskGraphRevisionRecord} {step : RevisionStep}

theorem mem_canonicalDag {dag : TaskDag} {node : TaskDagNode} :
    node ∈ (canonicalDag dag).nodes ↔ ∃ source ∈ dag.nodes, canonicalNode source = node := by
  unfold canonicalDag sortByPieces
  rw [List.mem_insertionSort, List.mem_map]

variable {taskId : String}

theorem keys_nodeMap {dag : TaskDag} : taskId ∈ (nodeMap dag).keys ↔ taskId ∈ dag.taskIds := by
  unfold nodeMap
  rw [Table.mem_keys_upsertAll]
  simp [TaskDag.taskIds]

theorem mem_canonicalMappings {mappings : List TaskRequirementMapping}
    {mapping : TaskRequirementMapping} :
    mapping ∈ canonicalMappings mappings ↔ ∃ source ∈ mappings,
      canonicalMapping source = mapping := by
  unfold canonicalMappings
  rw [mem_sortBy, List.mem_map]

theorem revise_clean [Sha256] (accepted : revise current step = some next) :
    revisionDiagnostics (step.context current) (canonicalProposal step.proposal) = [] ∧
      next = recordOf (revisionCore (step.context current) (canonicalProposal step.proposal)) := by
  unfold revise validateTaskGraphRevision at accepted
  dsimp only at accepted
  split_ifs at accepted with clean
  exact ⟨List.isEmpty_iff.mp clean, (Option.some.inj accepted).symm⟩

theorem mem_of_supersedeOf {changes : List TaskGraphChange} {change : TaskGraphChange}
    (found : supersedeOf changes taskId = some change) :
    change ∈ changes ∧ change.kind = .supersede ∧ change.beforeTaskIds = [taskId] ∧
      change.afterTaskIds.length = 1 := by
  have named := List.find?_some found
  exact ⟨List.mem_of_find?_eq_some found, of_decide_eq_true named⟩

theorem citing_finding {proposal : TaskGraphRevisionProposal}
    {trigger : HiddenDependencyRevisionTrigger} {finding : HiddenDependencyFinding}
    (none : evidenceDiagnostics proposal trigger (some finding) = []) :
    finding.findingId = trigger.findingId := by
  unfold evidenceDiagnostics at none
  split at none
  · cases none
  · rename_i cited kept
    obtain ⟨same, cites⟩ := Option.filter_eq_some_iff.mp kept
    cases same
    exact (of_decide_eq_true cites).1

theorem superseded_of_authorized [Sha256] {state : TaskPlanningState}
    (none : hiddenDependencyDiagnostics (step.context current) (canonicalProposal step.proposal)
      (nodeMap (canonicalDag current.dag)) (stateMap step.taskStates) = [])
    (authorized : authorizedInterruptedRemoval (canonicalProposal step.proposal)
      step.hiddenDependencyFinding (nodeMap (canonicalProposal step.proposal).proposedDag) state
      state.taskId = true) :
    Superseded step
      (recordOf (revisionCore (step.context current) (canonicalProposal step.proposal))) state := by
  unfold authorizedInterruptedRemoval at authorized
  split at authorized
  · rename_i trigger finding change triggered found supersede
    obtain ⟨removed, cancelled, interrupted, affected, _⟩ := of_decide_eq_true authorized
    obtain ⟨member, kind, replaced, single⟩ := mem_of_supersedeOf supersede
    unfold hiddenDependencyDiagnostics at none
    simp only [triggered, Option.toList_some, List.flatMap_cons, List.flatMap_nil,
      List.append_eq_nil_iff, List.append_nil] at none
    have cited := none.1.1
    rw [show (step.context current).hiddenDependencyFinding = some finding from found] at cited
    refine ⟨cancelled, fun listed => removed (keys_nodeMap.mpr listed), trigger, finding, triggered,
      found, citing_finding cited, interrupted, affected, change, member, kind, replaced, single⟩
  · cases authorized

theorem length_filter_named {changes : List TaskGraphChange} : (changes.filter fun change =>
      decide (taskId ∈ change.beforeTaskIds ∨ taskId ∈ change.afterTaskIds)).length =
      (changes.flatMap namedTasks).count taskId := by
  induction changes with
  | nil => rfl
  | cons change changes ih =>
    have here : (namedTasks change).count taskId =
        if taskId ∈ change.beforeTaskIds ∨ taskId ∈ change.afterTaskIds then 1 else 0 := by
      unfold namedTasks
      rw [List.count_dedup]
      simp only [List.mem_append]
    rw [List.flatMap_cons, List.count_append, here, List.filter_cons]
    by_cases named : taskId ∈ change.beforeTaskIds ∨ taskId ∈ change.afterTaskIds
    · simp only [named, decide_true, if_true, List.length_cons]
      omega
    · simp only [named, decide_false, Bool.false_eq_true, if_false]
      omega

theorem mem_changedTaskIds {first last : TaskDag}
    (different : nodeText first taskId ≠ nodeText last taskId) :
    taskId ∈ changedTaskIds first last := by
  simp only [changedTaskIds, mem_sortTexts, List.mem_filter, List.mem_dedup, List.mem_append,
    decide_eq_true_eq]
  refine ⟨?_, different⟩
  by_contra absent
  rw [not_or] at absent
  apply different
  unfold nodeText
  rw [Table.find?_eq_none.mpr absent.1, Table.find?_eq_none.mpr absent.2]

theorem revise_follows [Sha256] (accepted : revise current step = some next) :
    Follows current step next := by
  obtain ⟨clean, rfl⟩ := revise_clean accepted
  simp only [revisionDiagnostics, List.append_eq_nil_iff] at clean
  obtain ⟨⟨⟨⟨⟨⟨hidden, baseline⟩, _⟩, started⟩, _⟩, changes⟩, _⟩ := clean
  simp only [baselineDiagnostics, List.append_eq_nil_iff, ite_eq_left_iff, reduceCtorEq,
    imp_false, not_not] at baseline
  obtain ⟨⟨⟨⟨⟨_, _⟩, _⟩, consecutive⟩, limited⟩, valid⟩ := baseline
  have coherent : Coherent (canonicalDag current.dag) step.taskStates :=
    coherent_of_dagDiagnostics (List.isEmpty_iff.mp valid)
  have kept : ∀ node ∈ current.dag.nodes,
      canonicalNode node ∈ (canonicalDag current.dag).nodes :=
    fun node member => mem_canonicalDag.mpr ⟨node, member, rfl⟩
  refine ⟨consecutive, limited, rfl, ?_, ?_, ?_⟩
  · intro node member
    have listed := kept node member
    obtain ⟨state, observed, named⟩ := states_cover (List.isEmpty_iff.mp valid) listed
    exact ⟨state, observed, named⟩
  · intro node member state observed named begun
    have stored := find?_nodeMap coherent.distinct (kept node member)
    have quiet :=
      List.flatMap_eq_nil_iff.mp started (canonicalNode node) (Table.mem_of_find? stored)
    have named : state.taskId = (canonicalNode node).taskId := named
    rw [← named, show (step.context current).taskStates = step.taskStates from rfl,
      find?_stateMap coherent.single observed] at quiet
    simp only [ite_eq_right_iff, reduceCtorEq, imp_false, not_and, Bool.not_eq_false] at quiet
    have kept := quiet begun
    by_cases same : some (canonicalNode node).json = ((nodeMap
        (canonicalProposal step.proposal).proposedDag).find? state.taskId).map TaskDagNode.json
    · obtain ⟨successor, found, text⟩ := Option.map_eq_some_iff.mp same.symm
      refine Or.inl ⟨successor, ?_, (Table.key_of_find? found).trans named, text⟩
      rcases Table.mem_of_find?_upsertAll found with here | nowhere
      · exact here
      · cases nowhere
    · exact Or.inr (superseded_of_authorized hidden (kept same))
  · intro taskId different
    simp only [changeDiagnostics, List.append_eq_nil_iff, List.map_eq_nil_iff] at changes
    have counted := List.filter_eq_nil_iff.mp changes.2 taskId (mem_changedTaskIds different)
    rw [length_filter_named]
    change ((canonicalProposal step.proposal).changes.flatMap namedTasks).count taskId = 1
    simpa using counted

theorem Mapped.revise [Sha256] {required : String × String} (mapped : Mapped current required)
    (accepted : revise current step = some next) (agree : KeysAgree current step)
    (targeted : Targeted step.proposal.requirementMappings) : Mapped next required := by
  obtain ⟨clean, rfl⟩ := revise_clean accepted
  simp only [revisionDiagnostics, requirementDiagnostics, List.append_eq_nil_iff,
    List.map_eq_nil_iff] at clean
  obtain ⟨⟨⟨_, mappings⟩, lost⟩, _⟩ := clean.2
  obtain ⟨mapping, member, rfl, _⟩ := mapped
  have key : mappingKey mapping ∈ (mappingMap current.requirementMappings).keys :=
    Table.mem_keys_upsertAll.mpr (Or.inr (List.mem_map_of_mem member))
  have kept := List.filter_eq_nil_iff.mp lost (mappingKey mapping) key
  rw [decide_eq_true_eq, not_not] at kept
  rcases Table.mem_keys_upsertAll.mp kept with nowhere | kept
  · cases nowhere
  obtain ⟨proposed, listed, same⟩ := List.mem_map.mp kept
  obtain ⟨source, offered, rfl⟩ := mem_canonicalMappings.mp listed
  refine ⟨canonicalMapping source, listed, agree mapping member source offered same, ?_⟩
  obtain ⟨taskId, named⟩ := List.exists_mem_of_ne_nil _ (targeted source offered)
  have target : taskId ∈ (canonicalMapping source).afterTaskIds := mem_sortTexts.mpr named
  refine ⟨taskId, target, ?_⟩
  have quiet := List.flatMap_eq_nil_iff.mp mappings (canonicalMapping source) listed
  simp only [mappingDiagnostics, List.append_eq_nil_iff, List.map_eq_nil_iff] at quiet
  have present := List.filter_eq_nil_iff.mp quiet.2 taskId target
  rw [decide_eq_true_eq, not_not] at present
  exact keys_nodeMap.mp present

end Step

theorem initial_mapped [Sha256] {input : InitialTaskGraph} {initial : TaskGraphRevisionRecord}
    (created : createInitialTaskGraphRevision input = .ok initial)
    (targeted : Targeted input.requirementMappings) :
    initial.graphRevision = 1 ∧
      ∀ mapping ∈ initial.requirementMappings, Mapped initial (requirement mapping) := by
  unfold createInitialTaskGraphRevision at created
  dsimp only at created
  split_ifs at created with _ _ _ unknown
  cases created
  refine ⟨rfl, fun mapping member => ⟨mapping, member, rfl, ?_⟩⟩
  obtain ⟨source, offered, rfl⟩ := mem_canonicalMappings.mp member
  obtain ⟨taskId, named⟩ := List.exists_mem_of_ne_nil _ (targeted source offered)
  have target : taskId ∈ (canonicalMapping source).afterTaskIds := mem_sortTexts.mpr named
  refine ⟨taskId, target, ?_⟩
  by_contra missing
  exact unknown ⟨canonicalMapping source, member, taskId, target, missing⟩

/-- Before every step of the chain its proposal agrees with the current keys. -/
def KeysAgreeAlong [Sha256] (initial : TaskGraphRevisionRecord)
    (steps : List RevisionStep) : Prop :=
  ∀ done step rest current, steps = done ++ step :: rest →
    reviseAll initial done = some current → KeysAgree current step

structure HistoryImmutable [Sha256] (initial : TaskGraphRevisionRecord)
    (steps : List RevisionStep) :
    Prop where
  follows : ∀ done step rest current next, steps = done ++ step :: rest →
    reviseAll initial done = some current → revise current step = some next →
      Follows current step next
  numbered : ∀ done rest current, steps = done ++ rest → reviseAll initial done = some current →
    current.graphRevision = done.length + 1
  covered : ∀ done rest current, steps = done ++ rest → reviseAll initial done = some current →
    ∀ mapping ∈ initial.requirementMappings, Mapped current (requirement mapping)

theorem reviseAll_concat [Sha256] {initial last : TaskGraphRevisionRecord}
    {steps : List RevisionStep} {step : RevisionStep}
    (accepted : reviseAll initial (steps ++ [step]) = some last) :
    ∃ current, reviseAll initial steps = some current ∧ revise current step = some last := by
  unfold reviseAll at accepted ⊢
  rw [List.foldlM_append] at accepted
  obtain ⟨current, before, rest⟩ := Option.bind_eq_some_iff.mp accepted
  obtain ⟨next, revised, same⟩ := Option.bind_eq_some_iff.mp rest
  cases same
  exact ⟨current, before, revised⟩

theorem history_immutable [Sha256] (input : InitialTaskGraph) (initial : TaskGraphRevisionRecord)
    (created : createInitialTaskGraphRevision input = .ok initial)
    (targeted : Targeted input.requirementMappings) (steps : List RevisionStep)
    (proposed : ∀ step ∈ steps, Targeted step.proposal.requirementMappings)
    (agree : KeysAgreeAlong initial steps) : HistoryImmutable initial steps := by
  obtain ⟨first, start⟩ := initial_mapped created targeted
  refine ⟨fun _ _ _ _ _ _ _ revised => revise_follows revised, ?_, ?_⟩
  · intro done
    induction done using List.reverseRecOn with
    | nil =>
      intro rest current _ reached
      cases reached
      exact first
    | append_singleton done step ih =>
      intro rest last split reached
      obtain ⟨current, before, revised⟩ := reviseAll_concat reached
      have number := ih (step :: rest) current (by simpa using split) before
      rw [(revise_follows revised).consecutive, number, List.length_append,
        List.length_singleton]
  · intro done
    induction done using List.reverseRecOn with
    | nil =>
      intro rest current _ reached
      cases reached
      exact start
    | append_singleton done step ih =>
      intro rest last split reached mapping member
      obtain ⟨current, before, revised⟩ := reviseAll_concat reached
      have here : steps = done ++ step :: rest := by simpa using split
      have mapped := ih (step :: rest) current here before mapping member
      refine mapped.revise revised (agree done step rest current here before) (proposed step ?_)
      rw [here]
      exact List.mem_append_right _ List.mem_cons_self

section Samples

def sampleDag (graphRevision : Nat) (taskIds : List String) : TaskDag :=
  ⟨"graph", graphRevision, taskIds.map (sampleNode · []), "2026-01-01T00:00:00.000Z"⟩

def sampleInput (mappings : List TaskRequirementMapping) : InitialTaskGraph where
  runId := "run"
  dag := sampleDag 1 ["a"]
  requirementMappings := mappings
  rationale := "rationale"
  evidenceArtifactIds := ["evidence"]
  committedAt := "2026-01-01T00:00:00.000Z"

/-- The second task is added, and every requirement that is named goes on to the first. -/
def sampleStep (expectedRevisionSha256 : String) (mappings : List TaskRequirementMapping) :
    RevisionStep where
  taskStates := [freshState "a"]
  hiddenDependencyFinding := none
  maxGraphRevisions := 8
  decisionId := "decision"
  decidedAt := "2026-01-02T00:00:00.000Z"
  proposal :=
    { runId := "run"
      graphId := "graph"
      expectedGraphRevision := 1
      expectedRevisionSha256 := expectedRevisionSha256
      proposedDag := sampleDag 2 ["a", "b"]
      changes := [⟨.add, [], ["b"], "rationale", ["evidence"]⟩]
      requirementMappings := mappings
      rationale := "rationale"
      evidenceArtifactIds := ["evidence"]
      proposedAt := "2026-01-02T00:00:00.000Z"
      trigger := none }

/-- SHA-256 on the records of the samples. -/
@[reducible] def sampleDigest : Sha256 where
  hex text :=
    if text.utf8ByteSize = 1063 then
      "ea4e6a206a5d50610a939dda5ba312f60c649d813d2652ead3d7d8e264ab16bc"
    else if text.utf8ByteSize = 1842 then
      "abf0721f8c06a89eef2e5520c21ff14468972a9f7bcf9592510820ac9d97fd42"
    else if text.utf8ByteSize = 1173 then
      "ea71e0b63d092cd1cb4c28ae1f5562c6fa989b7543d8521aebc201098a66a996"
    else "c7e0b470bbb73234194c5f29910801ac6ed3dff714cab2a7cb33bd34c5624ed6"

def plainInput : InitialTaskGraph := sampleInput [⟨"item", "requirement", [], ["a"], "rationale"⟩]

def plainStep : RevisionStep :=
  sampleStep "ea4e6a206a5d50610a939dda5ba312f60c649d813d2652ead3d7d8e264ab16bc"
    [⟨"item", "requirement", ["a"], ["a", "b"], "rationale"⟩]

def plainRecord : TaskGraphRevisionRecord :=
  (@createInitialTaskGraphRevision sampleDigest plainInput).toOption.get (by decide +kernel)

/-- Two requirements whose ids make one key. -/
def joinedInput : InitialTaskGraph :=
  sampleInput [⟨"a\x00b", "c", [], ["a"], "rationale"⟩, ⟨"a", "b\x00c", [], ["a"], "rationale"⟩]

def joinedStep : RevisionStep :=
  sampleStep "ea71e0b63d092cd1cb4c28ae1f5562c6fa989b7543d8521aebc201098a66a996"
    [⟨"a", "b\x00c", ["a"], ["a"], "rationale"⟩]

def joinedRecord : TaskGraphRevisionRecord :=
  (@createInitialTaskGraphRevision sampleDigest joinedInput).toOption.get (by decide +kernel)

def joinedNext : TaskGraphRevisionRecord :=
  (@revise sampleDigest joinedRecord joinedStep).get (by decide +kernel)

theorem ok_of_toOption {ε α : Type} {outcome : Except ε α} (returned : outcome.toOption.isSome) :
    outcome = .ok (outcome.toOption.get returned) := by
  cases outcome with
  | error e => cases returned
  | ok a => rfl

instance (current : TaskGraphRevisionRecord) (step : RevisionStep) :
    Decidable (KeysAgree current step) :=
  inferInstanceAs (Decidable (∀ mapping ∈ current.requirementMappings,
    ∀ proposed ∈ step.proposal.requirementMappings,
      mappingKey proposed = mappingKey mapping → requirement proposed = requirement mapping))

instance (mappings : List TaskRequirementMapping) : Decidable (Targeted mappings) :=
  inferInstanceAs (Decidable (∀ mapping ∈ mappings, mapping.afterTaskIds ≠ []))

theorem history_immutable_plain :
    (@revise sampleDigest plainRecord plainStep).isSome = true ∧
      @HistoryImmutable sampleDigest plainRecord [plainStep] := by
  refine ⟨by decide +kernel, ?_⟩
  refine @history_immutable sampleDigest plainInput plainRecord (ok_of_toOption _) (by decide)
    [plainStep] (by decide) ?_
  intro done step rest current split reached
  cases done with
  | nil =>
    cases split
    cases reached
    decide +kernel
  | cons first done => simp at split

theorem mappings_of_created [Sha256] {input : InitialTaskGraph} {initial : TaskGraphRevisionRecord}
    (created : createInitialTaskGraphRevision input = .ok initial) :
    initial.requirementMappings = canonicalMappings input.requirementMappings := by
  unfold createInitialTaskGraphRevision at created
  dsimp only at created
  split_ifs at created
  cases created
  rfl

/-- One of two requirements with one key is lost. -/
theorem requirement_lost : ¬ ∀ [Sha256] (input : InitialTaskGraph)
    (initial : TaskGraphRevisionRecord), createInitialTaskGraphRevision input = .ok initial →
    Targeted input.requirementMappings → ∀ steps : List RevisionStep,
    (∀ step ∈ steps, Targeted step.proposal.requirementMappings) →
    HistoryImmutable initial steps := by
  intro claim
  let _ : Sha256 := sampleDigest
  have created : createInitialTaskGraphRevision joinedInput = .ok joinedRecord := ok_of_toOption _
  have history := claim joinedInput joinedRecord created (by decide) [joinedStep] (by decide)
  have revised : revise joinedRecord joinedStep = some joinedNext := (Option.some_get _).symm
  have reached : reviseAll joinedRecord [joinedStep] = some joinedNext := by
    unfold reviseAll
    rw [List.foldlM_cons, revised]
    rfl
  have held : (⟨"a\x00b", "c", [], ["a"], "rationale"⟩ : TaskRequirementMapping) ∈
      joinedRecord.requirementMappings := by
    rw [mappings_of_created created]
    exact mem_canonicalMappings.mpr ⟨_, List.mem_cons_self, rfl⟩
  obtain ⟨mapping, member, same, _⟩ := history.covered [joinedStep] [] joinedNext rfl reached _ held
  have lost : ∀ mapping ∈ joinedNext.requirementMappings,
      requirement mapping ≠ ("a\x00b", "c") := by
    intro mapping listed
    rw [(revise_clean revised).2] at listed
    obtain ⟨source, offered, rfl⟩ := mem_canonicalMappings.mp listed
    rw [List.mem_singleton.mp offered]
    decide
  exact lost mapping member same

end Samples

end Heniek.RevisionHistory
