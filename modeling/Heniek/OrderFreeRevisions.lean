import Heniek.CanonicalTexts
import Heniek.RevisionHistory

/-!
Proposals that list the same sets in different orders. The canonical form sorts every
array that stands for a set but one: the interrupted tasks of the trigger stay as they
were listed, and the hashes cover them.
-/

namespace Heniek.OrderFreeRevisions
open ScriptText RecoveryPolicy TaskGraph GraphRevision RevisionHistory CanonicalTexts

/-- The same items up to their order and up to a relation between items. -/
def Rearranged {α : Type*} (same : α → α → Prop) (l l' : List α) : Prop :=
  ∃ items, List.Forall₂ same l items ∧ items.Perm l'

variable {α : Type*} {l : List α}

theorem Rearranged.map_perm {β : Type*} {same : α → α → Prop} {f : α → β} {l' : List α}
    (rearranged : Rearranged same l l') (agree : ∀ a b, same a b → f a = f b) :
    (l.map f).Perm (l'.map f) := by
  obtain ⟨items, pairs, permuted⟩ := rearranged
  refine List.Perm.trans ?_ (permuted.map f)
  clear permuted
  induction pairs with
  | nil => exact .refl _
  | cons first _ ih =>
    rw [List.map_cons, agree _ _ first]
    exact ih.cons _

structure SameTask (left right : ExecutionTaskRevision) : Prop where
  readSet : left.readSet.Perm right.readSet
  writeSet : left.writeSet.Perm right.writeSet
  excludedRepositories : left.excludedRepositories.Perm right.excludedRepositories
  dependencies : left.dependencies.Perm right.dependencies
  artifacts : left.artifacts.Perm right.artifacts
  verification : left.verification.Perm right.verification
  rest : { left with
    readSet := right.readSet
    writeSet := right.writeSet
    excludedRepositories := right.excludedRepositories
    dependencies := right.dependencies
    artifacts := right.artifacts
    verification := right.verification } = right

structure SameNode (left right : TaskDagNode) : Prop where
  task : SameTask left.task right.task
  rest : { left with task := right.task } = right

structure SameChange (left right : TaskGraphChange) : Prop where
  beforeTaskIds : left.beforeTaskIds.Perm right.beforeTaskIds
  afterTaskIds : left.afterTaskIds.Perm right.afterTaskIds
  evidenceArtifactIds : left.evidenceArtifactIds.Perm right.evidenceArtifactIds
  rest : { left with
    beforeTaskIds := right.beforeTaskIds
    afterTaskIds := right.afterTaskIds
    evidenceArtifactIds := right.evidenceArtifactIds } = right

structure SameMapping (left right : TaskRequirementMapping) : Prop where
  beforeTaskIds : left.beforeTaskIds.Perm right.beforeTaskIds
  afterTaskIds : left.afterTaskIds.Perm right.afterTaskIds
  rest : { left with
    beforeTaskIds := right.beforeTaskIds
    afterTaskIds := right.afterTaskIds } = right

structure SameTrigger (left right : HiddenDependencyRevisionTrigger) : Prop where
  findingId : left.findingId = right.findingId
  interruptedTaskIds : left.interruptedTaskIds.Perm right.interruptedTaskIds

/-- Proposals that differ at most in the order of the arrays that stand for sets. -/
structure SameProposal (left right : TaskGraphRevisionProposal) : Prop where
  nodes : Rearranged SameNode left.proposedDag.nodes right.proposedDag.nodes
  changes : Rearranged SameChange left.changes right.changes
  requirementMappings : Rearranged SameMapping left.requirementMappings right.requirementMappings
  evidenceArtifactIds : left.evidenceArtifactIds.Perm right.evidenceArtifactIds
  trigger : Option.Rel SameTrigger left.trigger right.trigger
  rest : { left with
    proposedDag := { left.proposedDag with nodes := right.proposedDag.nodes }
    changes := right.changes
    requirementMappings := right.requirementMappings
    evidenceArtifactIds := right.evidenceArtifactIds
    trigger := right.trigger } = right

theorem sortBy_inj_of_perm {text : α → String} (inj : Function.Injective text) {l' : List α}
    (same : l.Perm l') : sortBy text l = sortBy text l' :=
  sortBy_of_perm same fun _ _ _ _ texts => inj texts

theorem canonicalNode_eq {left right : TaskDagNode} (same : SameNode left right) :
    canonicalNode left = canonicalNode right := by
  rw [← same.rest, ← same.task.rest]
  simp only [canonicalNode, sortTexts_of_perm same.task.readSet,
    sortTexts_of_perm same.task.writeSet, sortTexts_of_perm same.task.dependencies,
    sortBy_inj_of_perm excluded_inj same.task.excludedRepositories,
    sortBy_inj_of_perm artifact_inj same.task.artifacts,
    sortBy_inj_of_perm verification_inj same.task.verification]

theorem canonicalChange_eq {left right : TaskGraphChange} (same : SameChange left right) :
    canonicalChange left = canonicalChange right := by
  rw [← same.rest]
  simp only [canonicalChange, sortTexts_of_perm same.beforeTaskIds,
    sortTexts_of_perm same.afterTaskIds, sortTexts_of_perm same.evidenceArtifactIds]

theorem canonicalMapping_eq {left right : TaskRequirementMapping} (same : SameMapping left right) :
    canonicalMapping left = canonicalMapping right := by
  rw [← same.rest]
  simp only [canonicalMapping, sortTexts_of_perm same.beforeTaskIds,
    sortTexts_of_perm same.afterTaskIds]

/-- Two texts with a null before their last part have the same last part. -/
theorem null_inj {head head' tail tail' : String} (free : '\x00' ∉ tail.toList)
    (free' : '\x00' ∉ tail'.toList) (same : head ++ "\x00" ++ tail = head' ++ "\x00" ++ tail') :
    tail = tail' := by
  have chars := congrArg String.toList same
  have separator : "\x00".toList = ['\x00'] := by decide
  simp only [String.toList_append, List.append_assoc, separator] at chars
  exact String.toList_inj.mp (append_separator_inj free free' chars).2

theorem canonicalMappings_eq {left right : List TaskRequirementMapping}
    (same : Rearranged SameMapping left right) :
    canonicalMappings left = canonicalMappings right := by
  refine sortBy_inj_of_perm ?_ (same.map_perm fun _ _ => canonicalMapping_eq)
  intro first second keys
  exact mapping_inj (null_inj (encoded_object (mapping_written first)).no_null
    (encoded_object (mapping_written second)).no_null keys)

theorem sortByPieces_nodeKey (nodes : List TaskDagNode) :
    sortByPieces nodeKey nodes = sortBy (fun node => node.taskId ++ "\x00" ++ node.json) nodes := by
  have units : ∀ node : TaskDagNode, (nodeKey node).flatMap codeUnits =
      codeUnits (node.taskId ++ "\x00" ++ node.json) := by
    simp [nodeKey, codeUnits_append]
  simp only [sortByPieces, units]
  rfl

theorem canonicalDag_eq {left right : TaskDag} (same : Rearranged SameNode left.nodes right.nodes)
    (rest : { left with nodes := right.nodes } = right) :
    canonicalDag left = canonicalDag right := by
  have nodes : sortByPieces nodeKey (left.nodes.map canonicalNode) =
      sortByPieces nodeKey (right.nodes.map canonicalNode) := by
    rw [sortByPieces_nodeKey, sortByPieces_nodeKey]
    refine sortBy_inj_of_perm ?_ (same.map_perm fun _ _ => canonicalNode_eq)
    intro first second keys
    exact node_inj (null_inj (encoded_object (node_written first)).no_null
      (encoded_object (node_written second)).no_null keys)
  rw [← rest] at nodes ⊢
  simp only [canonicalDag, nodes]

theorem canonicalProposal_eq {left right : TaskGraphRevisionProposal}
    (same : SameProposal left right) (trigger : left.trigger = right.trigger) :
    canonicalProposal left = canonicalProposal right := by
  have changes := sortBy_inj_of_perm change_inj
    (same.changes.map_perm fun _ _ => canonicalChange_eq)
  have mappings := canonicalMappings_eq same.requirementMappings
  have evidence := sortTexts_of_perm same.evidenceArtifactIds
  have rest := same.rest
  have dag : canonicalDag left.proposedDag = canonicalDag right.proposedDag := by
    apply canonicalDag_eq same.nodes
    rw [← same.rest]
  cases left
  cases right
  simp_all [canonicalProposal]

/-- What the two decisions and records must have in common. -/
structure SameRevision
    (left right : TaskGraphRevisionDecision × Option TaskGraphRevisionRecord) : Prop where
  outcome : left.1.accepted = right.1.accepted
  diagnostics : left.1.diagnostics = right.1.diagnostics
  proposalSha256 : left.1.proposalSha256 = right.1.proposalSha256
  recordSha256 : left.2.map TaskGraphRevisionRecord.revisionSha256 =
    right.2.map TaskGraphRevisionRecord.revisionSha256

section Hashed

variable [Sha256]

theorem proposalSha256_eq (context : TaskGraphRevisionValidationContext)
    (input : TaskGraphRevisionProposal) :
    (validateTaskGraphRevision context input).1.proposalSha256 =
      Sha256.hex (canonicalProposal input).json := rfl

/-- Where the hash tells the canonical proposals apart, proposals of the same sets are decided
alike just when their triggers list the interrupted tasks in the same order. -/
theorem revisions_order_free_iff {context : TaskGraphRevisionValidationContext}
    {left right : TaskGraphRevisionProposal} (same : SameProposal left right)
    (collisionFree : Sha256.hex (canonicalProposal left).json =
      Sha256.hex (canonicalProposal right).json →
        (canonicalProposal left).json = (canonicalProposal right).json) :
    SameRevision (validateTaskGraphRevision context left)
        (validateTaskGraphRevision context right) ↔ left.trigger = right.trigger := by
  constructor
  · intro decided
    have hashes := decided.proposalSha256
    rw [proposalSha256_eq, proposalSha256_eq] at hashes
    have triggers := proposal_trigger (collisionFree hashes)
    exact triggers
  · intro trigger
    have forms := canonicalProposal_eq same trigger
    have decided : validateTaskGraphRevision context left =
        validateTaskGraphRevision context right := by
      rw [validateTaskGraphRevision, validateTaskGraphRevision, forms]
    rw [decided]
    exact ⟨rfl, rfl, rfl, rfl⟩

end Hashed

def interrupting (taskIds evidenceArtifactIds : List String) : TaskGraphRevisionProposal :=
  { plainStep.proposal with
    evidenceArtifactIds := evidenceArtifactIds
    trigger := some ⟨"finding", taskIds⟩ }

/-- SHA-256 on the canonical texts of the two proposals. -/
@[reducible] def interruptingDigest : Sha256 where
  hex text :=
    if text = (canonicalProposal (interrupting ["a", "b"] ["first", "second"])).json then
      "6b4b06a6abae680fcdd57b9b63d4297170aeba8e7850b1be4b9eb9fc55523f6b"
    else "77a9633a247314077b0d60b8a252c3d4ca7a4e65f72341c62fd4349f1b6b66ad"

theorem rearranged_refl {same : α → α → Prop} (refl : ∀ a, same a a) : Rearranged same l l :=
  ⟨l, List.forall₂_same.mpr fun a _ => refl a, .refl l⟩

theorem interrupting_same {taskIds taskIds' evidence evidence' : List String}
    (tasks : taskIds.Perm taskIds') (cited : evidence.Perm evidence') :
    SameProposal (interrupting taskIds evidence) (interrupting taskIds' evidence') where
  nodes :=
    rearranged_refl fun _ => ⟨⟨.refl _, .refl _, .refl _, .refl _, .refl _, .refl _, rfl⟩, rfl⟩
  changes := rearranged_refl fun _ => ⟨.refl _, .refl _, .refl _, rfl⟩
  requirementMappings := rearranged_refl fun _ => ⟨.refl _, .refl _, rfl⟩
  evidenceArtifactIds := cited
  trigger := .some ⟨rfl, tasks⟩
  rest := rfl

theorem revisions_order_free_iff_evidence :
    SameRevision
      (@validateTaskGraphRevision interruptingDigest (plainStep.context plainRecord)
        (interrupting ["a", "b"] ["second", "first"]))
      (@validateTaskGraphRevision interruptingDigest (plainStep.context plainRecord)
        (interrupting ["a", "b"] ["first", "second"])) := by
  have same := interrupting_same (.refl ["a", "b"]) (List.Perm.swap "first" "second" [])
  refine (@revisions_order_free_iff interruptingDigest _ _ _ same ?_).mpr rfl
  exact fun _ => rfl

theorem interrupted_order_matters :
    ¬ ∀ [Sha256] (context : TaskGraphRevisionValidationContext)
        (left right : TaskGraphRevisionProposal), SameProposal left right →
      SameRevision (validateTaskGraphRevision context left)
        (validateTaskGraphRevision context right) := by
  intro claim
  have decided := @claim interruptingDigest (plainStep.context plainRecord)
    (interrupting ["b", "a"] ["first", "second"]) (interrupting ["a", "b"] ["first", "second"])
    (interrupting_same (List.Perm.swap "a" "b" []) (.refl _))
  have hashes := decided.proposalSha256
  rw [@proposalSha256_eq interruptingDigest, @proposalSha256_eq interruptingDigest] at hashes
  have different : (canonicalProposal (interrupting ["b", "a"] ["first", "second"])).json ≠
      (canonicalProposal (interrupting ["a", "b"] ["first", "second"])).json := by
    intro texts
    have triggers := proposal_trigger texts
    simp [canonicalProposal, interrupting] at triggers
  change (if _ then _ else _) = (if _ then _ else _) at hashes
  rw [if_neg different, if_pos rfl] at hashes
  revert hashes
  decide

end Heniek.OrderFreeRevisions
