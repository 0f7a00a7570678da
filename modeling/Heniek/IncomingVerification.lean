import Heniek.ContinuationCapsule
import Mathlib.Data.List.Dedup

/-!
The verification of a capsule against what a workspace shows. The builder lists each
dirty file once and every head as it was given; the verification compares the dirty
files as they are observed, and of the heads of one repository only the last.
-/

namespace Heniek.IncomingVerification
open KeyedTable ScriptText RecoveryPolicy ContinuationCapsule

inductive IncomingVerificationBlocker where
  | schemaInvalid | digestMismatch | missingArtifact | artifactHashMismatch | missingContextFile
  | contextFileHashMismatch | staleHead | dirtySetMismatch | contradictoryCompletion
  | cheapCheckFailed | tamperedCapsule
  deriving DecidableEq

def IncomingVerificationBlocker.text : IncomingVerificationBlocker → String
  | .schemaInvalid => "schema_invalid"
  | .digestMismatch => "digest_mismatch"
  | .missingArtifact => "missing_artifact"
  | .artifactHashMismatch => "artifact_hash_mismatch"
  | .missingContextFile => "missing_context_file"
  | .contextFileHashMismatch => "context_file_hash_mismatch"
  | .staleHead => "stale_head"
  | .dirtySetMismatch => "dirty_set_mismatch"
  | .contradictoryCompletion => "contradictory_completion"
  | .cheapCheckFailed => "cheap_check_failed"
  | .tamperedCapsule => "tampered_capsule"

structure ObservedArtifact where
  artifactId : String
  contentHash : String
  present : Bool
  deriving DecidableEq

structure ObservedContextFile where
  path : String
  present : Bool
  contentHash : Option String := none
  deriving DecidableEq

structure VerifyIncomingInput where
  capsule : PipelineContinuationCapsule
  observedHeads : List CapsuleRepositoryHead
  observedDirtyFiles : List String
  observedArtifacts : List ObservedArtifact
  observedContextFiles : List ObservedContextFile
  contradictoryCompletion : Option Bool := none
  cheapChecksPassed : Option Bool := none
  segmentId : Option String := none
  recordedAt : String
  deriving DecidableEq

inductive Verdict where
  | pass | block
  deriving DecidableEq

structure PipelineIncomingVerification where
  verificationId : String
  capsuleId : String
  runId : String
  segmentId : Option String
  verdict : Verdict
  blockers : List IncomingVerificationBlocker
  observedHeads : List CapsuleRepositoryHead
  observedDirtyFiles : List String
  detail : Option String
  recordedAt : String
  deriving DecidableEq

def sortPaths (paths : List String) : List String := sortTexts paths

def sameSorted : List String → List String → Bool
  | [], [] => true
  | left :: lefts, right :: rights => decide (left = right) && sameSorted lefts rights
  | _, _ => false

abbrev HeadTable := Table CapsuleRepositoryHead.repositoryId

def headMap (heads : List CapsuleRepositoryHead) : HeadTable := Table.empty.upsertAll heads

abbrev ArtifactTable := Table ObservedArtifact.artifactId

def artifactMap (observed : List ObservedArtifact) : ArtifactTable := Table.empty.upsertAll observed

abbrev ContextTable := Table ObservedContextFile.path

def contextMap (observed : List ObservedContextFile) : ContextTable :=
    Table.empty.upsertAll observed

def checkHeads (expected observed : List CapsuleRepositoryHead) :
    List IncomingVerificationBlocker :=
  if (headMap expected).rows.all fun head =>
      decide (((headMap observed).find? head.repositoryId).map CapsuleRepositoryHead.head =
        some head.head) then []
  else [.staleHead]

def checkArtifacts (required : List CapsuleArtifactRef) (observed : List ObservedArtifact) :
    List IncomingVerificationBlocker :=
  required.flatMap fun ref =>
    match (artifactMap observed).find? ref.artifactId with
    | none => [.missingArtifact]
    | some found =>
      if found.present = false then [.missingArtifact]
      else if found.contentHash ≠ ref.contentHash then [.artifactHashMismatch]
      else []

def checkContextFiles (required : List CapsuleContextFileRef)
    (observed : List ObservedContextFile) : List IncomingVerificationBlocker :=
  required.flatMap fun ref =>
    match (contextMap observed).find? ref.path with
    | none => [.missingContextFile]
    | some found =>
      if found.present = false then [.missingContextFile]
      else if ref.contentHash ≠ none ∧ found.contentHash ≠ ref.contentHash then
        [.contextFileHashMismatch]
      else []

section Hashed

variable [Sha256]

def deriveVerificationId (capsuleId recordedAt : String) : String :=
  "ver:" ++ partsDigest [capsuleId, recordedAt]

/-- What blocks, in the order in which it is found. -/
def incomingBlockers (input : VerifyIncomingInput) : List IncomingVerificationBlocker :=
  (if input.capsule.schemaVersion ≠ 1 then [.schemaInvalid] else []) ++
  (if verifyCapsuleDigest input.capsule then [] else [.digestMismatch, .tamperedCapsule]) ++
  checkHeads input.capsule.repositoryHeads input.observedHeads ++
  (if sameSorted (sortPaths input.capsule.dirtyFiles) (sortPaths input.observedDirtyFiles) then []
    else [.dirtySetMismatch]) ++
  checkArtifacts input.capsule.artifactRefs input.observedArtifacts ++
  checkContextFiles input.capsule.contextFileRefs input.observedContextFiles ++
  (if input.contradictoryCompletion = some true then [.contradictoryCompletion] else []) ++
  (if input.cheapChecksPassed = some false then [.cheapCheckFailed] else [])

def verifyIncomingContinuation (input : VerifyIncomingInput) : PipelineIncomingVerification :=
  let blockers := (incomingBlockers input).eraseDups
  { verificationId := deriveVerificationId input.capsule.capsuleId input.recordedAt
    capsuleId := input.capsule.capsuleId
    runId := input.capsule.runId
    segmentId := input.segmentId
    verdict := if blockers.length = 0 then .pass else .block
    blockers := blockers
    observedHeads := input.observedHeads
    observedDirtyFiles := sortPaths input.observedDirtyFiles
    detail :=
      if 0 < blockers.length then
        some ("blocked:" ++ ",".intercalate (blockers.map IncomingVerificationBlocker.text))
      else none
    recordedAt := input.recordedAt }

end Hashed

theorem sameSorted_iff {left right : List String} :
    sameSorted left right = true ↔ left = right := by
  induction left generalizing right with
  | nil => cases right <;> simp [sameSorted]
  | cons first left ih => cases right <;> simp [sameSorted, ih]

theorem sortTexts_eq_iff {left right : List String} :
    sortTexts left = sortTexts right ↔ left.Perm right := by
  constructor
  · intro same
    have permuted := (sortBy_perm id left).symm
    rw [show sortBy id left = sortTexts right from same] at permuted
    exact permuted.trans (sortBy_perm id right)
  · exact sortTexts_of_perm

theorem sortUnique_perm_iff {paths : List String} :
    (sortUnique paths).Perm paths ↔ paths.Nodup := by
  have deduplicated : (sortUnique paths).Perm paths.dedup := sortBy_perm id paths.dedup
  constructor
  · intro same
    exact ((deduplicated.symm.trans same).nodup_iff).mp paths.nodup_dedup
  · intro distinct
    rw [distinct.dedup] at deduplicated
    exact deduplicated

theorem checkHeads_iff {expected observed : List CapsuleRepositoryHead} :
    checkHeads expected observed = [] ↔ ∀ head ∈ (headMap expected).rows,
      ((headMap observed).find? head.repositoryId).map CapsuleRepositoryHead.head =
        some head.head := by
  simp [checkHeads]

def ArtifactShown (observed : List ObservedArtifact) (ref : CapsuleArtifactRef) : Prop :=
  ∃ found, (artifactMap observed).find? ref.artifactId = some found ∧ found.present = true ∧
    found.contentHash = ref.contentHash

def ContextShown (observed : List ObservedContextFile) (ref : CapsuleContextFileRef) : Prop :=
  ∃ found, (contextMap observed).find? ref.path = some found ∧ found.present = true ∧
    ∀ hash, ref.contentHash = some hash → found.contentHash = some hash

theorem checkArtifacts_iff {required : List CapsuleArtifactRef} {observed : List ObservedArtifact} :
    checkArtifacts required observed = [] ↔ ∀ ref ∈ required, ArtifactShown observed ref := by
  rw [checkArtifacts, List.flatMap_eq_nil_iff]
  refine forall₂_congr fun ref _ => ?_
  unfold ArtifactShown
  cases (artifactMap observed).find? ref.artifactId with
  | none => simp
  | some found => by_cases present : found.present <;> simp [present]

theorem checkContextFiles_iff {required : List CapsuleContextFileRef}
    {observed : List ObservedContextFile} :
    checkContextFiles required observed = [] ↔ ∀ ref ∈ required, ContextShown observed ref := by
  rw [checkContextFiles, List.flatMap_eq_nil_iff]
  refine forall₂_congr fun ref _ => ?_
  unfold ContextShown
  cases (contextMap observed).find? ref.path with
  | none => simp
  | some found =>
    by_cases present : found.present
    · cases hash : ref.contentHash <;> simp [present]
    · simp [present]

section Verdicts

variable [Sha256]

/-- What a verdict `pass` says. -/
structure Passes (input : VerifyIncomingInput) : Prop where
  schemaVersion : input.capsule.schemaVersion = 1
  digest : verifyCapsuleDigest input.capsule = true
  heads : ∀ head ∈ (headMap input.capsule.repositoryHeads).rows,
    ((headMap input.observedHeads).find? head.repositoryId).map CapsuleRepositoryHead.head =
      some head.head
  dirty : input.capsule.dirtyFiles.Perm input.observedDirtyFiles
  artifacts : ∀ ref ∈ input.capsule.artifactRefs, ArtifactShown input.observedArtifacts ref
  contextFiles : ∀ ref ∈ input.capsule.contextFileRefs,
    ContextShown input.observedContextFiles ref
  uncontradicted : input.contradictoryCompletion ≠ some true
  checked : input.cheapChecksPassed ≠ some false

theorem verdict_pass_iff {input : VerifyIncomingInput} :
    (verifyIncomingContinuation input).verdict = .pass ↔ Passes input := by
  have unblocked : (verifyIncomingContinuation input).verdict = .pass ↔
      incomingBlockers input = [] := by
    cases blockers : incomingBlockers input <;>
      simp [verifyIncomingContinuation, blockers, List.eraseDups_cons]
  rw [unblocked]
  simp only [incomingBlockers, List.append_eq_nil_iff, checkHeads_iff, checkArtifacts_iff,
    checkContextFiles_iff, ite_eq_left_iff, ite_eq_right_iff, reduceCtorEq, imp_false, not_not,
    sameSorted_iff, sortPaths, sortTexts_eq_iff]
  constructor
  · rintro ⟨⟨⟨⟨⟨⟨⟨schema, digest⟩, heads⟩, dirty⟩, artifacts⟩, contexts⟩, claims⟩, checks⟩
    exact ⟨schema, digest, heads, dirty, artifacts, contexts, claims, checks⟩
  · intro passes
    exact ⟨⟨⟨⟨⟨⟨⟨passes.schemaVersion, passes.digest⟩, passes.heads⟩, passes.dirty⟩,
      passes.artifacts⟩, passes.contextFiles⟩, passes.uncontradicted⟩, passes.checked⟩

/-- The observations that a workspace gives which is as the builder was told. -/
structure Faithful (input : BuildCapsuleInput) (observed : VerifyIncomingInput) : Prop where
  heads : ∀ head, head ∈ observed.observedHeads ↔ head ∈ input.repositoryHeads
  oneEach : (observed.observedHeads.map CapsuleRepositoryHead.repositoryId).Nodup
  dirtyFiles : observed.observedDirtyFiles = input.dirtyFiles
  artifacts : ∀ ref ∈ input.artifactRefs,
    ref.artifactId ∈ observed.observedArtifacts.map ObservedArtifact.artifactId ∧
      ∀ entry ∈ observed.observedArtifacts, entry.artifactId = ref.artifactId →
        entry.present = true ∧ entry.contentHash = ref.contentHash
  contextFiles : ∀ ref ∈ input.contextFileRefs,
    ref.path ∈ observed.observedContextFiles.map ObservedContextFile.path ∧
      ∀ entry ∈ observed.observedContextFiles, entry.path = ref.path →
        entry.present = true ∧ ∀ hash, ref.contentHash = some hash → entry.contentHash = some hash
  uncontradicted : observed.contradictoryCompletion ≠ some true
  checked : observed.cheapChecksPassed ≠ some false

/-- The capsule is the one observed, part by part. -/
structure Matches (observed : VerifyIncomingInput) : Prop where
  digest : observed.capsule.digest = digestCapsulePayload observed.capsule.toCapsuleContent
  heads : ∀ head ∈ observed.capsule.repositoryHeads,
    ((headMap observed.observedHeads).find? head.repositoryId).map CapsuleRepositoryHead.head =
      some head.head
  artifacts : ∀ ref ∈ observed.capsule.artifactRefs, ArtifactShown observed.observedArtifacts ref
  contextFiles : ∀ ref ∈ observed.capsule.contextFileRefs,
    ContextShown observed.observedContextFiles ref
  dirtyFiles : observed.observedDirtyFiles.Perm observed.capsule.dirtyFiles

/-- No repository is listed with two heads. -/
def HeadsAgree (heads : List CapsuleRepositoryHead) : Prop :=
  ∀ first ∈ heads, ∀ second ∈ heads, first.repositoryId = second.repositoryId → first = second

theorem pass_of_faithful {input : BuildCapsuleInput} {capsule : PipelineContinuationCapsule}
    {observed : VerifyIncomingInput} (built : BuiltFrom input capsule)
    (same : observed.capsule = capsule) (faithful : Faithful input observed) :
    Passes observed ↔ input.dirtyFiles.Nodup := by
  subst same
  constructor
  · intro passes
    have dirty := passes.dirty
    rw [built.dirtyFiles, faithful.dirtyFiles] at dirty
    exact sortUnique_perm_iff.mp dirty
  · intro distinct
    refine ⟨built.schemaVersion, built.digest, ?_, ?_, ?_, ?_, faithful.uncontradicted,
      faithful.checked⟩
    · intro head row
      have given : head ∈ input.repositoryHeads := by
        rw [← built.repositoryHeads]
        exact Table.mem_of_mem_upsertAll row
      rw [headMap,
        Table.find?_upsertAll_of_nodup faithful.oneEach ((faithful.heads head).mpr given)]
      rfl
    · rw [built.dirtyFiles, faithful.dirtyFiles]
      exact sortUnique_perm_iff.mpr distinct
    · rw [built.artifactRefs]
      intro ref listed
      obtain ⟨shown, agrees⟩ := faithful.artifacts ref listed
      obtain ⟨entry, member, named, found⟩ := Table.exists_find?_upsertAll shown
      exact ⟨entry, found, agrees entry member named⟩
    · rw [built.contextFileRefs]
      intro ref listed
      obtain ⟨shown, agrees⟩ := faithful.contextFiles ref listed
      obtain ⟨entry, member, named, found⟩ := Table.exists_find?_upsertAll shown
      exact ⟨entry, found, agrees entry member named⟩

theorem matches_of_pass {observed : VerifyIncomingInput} (passes : Passes observed) :
    Matches observed ↔ HeadsAgree observed.capsule.repositoryHeads := by
  have last : ∀ head ∈ observed.capsule.repositoryHeads,
      ∃ kept ∈ observed.capsule.repositoryHeads, kept.repositoryId = head.repositoryId ∧
        ((headMap observed.observedHeads).find? head.repositoryId).map
          CapsuleRepositoryHead.head = some kept.head := by
    intro head listed
    obtain ⟨kept, member, named, found⟩ :=
      Table.exists_find?_upsertAll (List.mem_map_of_mem listed : head.repositoryId ∈ _)
    have shown := passes.heads kept (Table.mem_of_find? found)
    rw [named] at shown
    exact ⟨kept, member, named, shown⟩
  constructor
  · intro same first listed second listed' repository
    have heads := same.heads first listed
    rw [repository, same.heads second listed'] at heads
    cases first
    cases second
    simp_all
  · intro agree
    refine ⟨(of_decide_eq_true passes.digest).symm, ?_, passes.artifacts, passes.contextFiles,
      passes.dirty.symm⟩
    intro head listed
    obtain ⟨kept, member, named, shown⟩ := last head listed
    rw [shown, agree kept member head listed named]

/-- A capsule passes against the workspace it was built from just when no dirty file was listed
twice, and one that passes is as observed just when no repository has two heads in it. -/
theorem verification_exact :
    (∀ input capsule narrative observed,
      buildContinuationCapsule input = .built capsule narrative → observed.capsule = capsule →
      Faithful input observed →
        ((verifyIncomingContinuation observed).verdict = .pass ↔ input.dirtyFiles.Nodup)) ∧
    ∀ observed, (verifyIncomingContinuation observed).verdict = .pass →
      (Matches observed ↔ HeadsAgree observed.capsule.repositoryHeads) := by
  constructor
  · intro input capsule narrative observed built same faithful
    rw [verdict_pass_iff]
    exact pass_of_faithful (buildContinuationCapsule_built built) same faithful
  · intro observed passed
    exact matches_of_pass (verdict_pass_iff.mp passed)

end Verdicts

def sampleInput (dirtyFiles : List String) : BuildCapsuleInput where
  runId := "run"
  stageId := "stage"
  attemptId := "attempt"
  segmentId := "segment"
  segmentOrdinal := 1
  completedPlanItems := []
  activePlanItem := none
  remainingPlanItems := none
  nextAction := "next"
  repositoryHeads := [⟨"repository", "head"⟩]
  dirtyFiles := dirtyFiles
  artifactRefs := []
  contextFileRefs := []
  decisionIds := []
  unresolvedQuestionIds := []
  riskRefs := []
  telemetryCursor := none
  outgoingSessionId := "session"
  createdAt := "2026-01-01T00:00:00.000Z"
  narrativeMarkdown := none

def sampleObserved (capsule : PipelineContinuationCapsule) (dirtyFiles : List String) :
    VerifyIncomingInput where
  capsule := capsule
  observedHeads := [⟨"repository", "head"⟩]
  observedDirtyFiles := dirtyFiles
  observedArtifacts := []
  observedContextFiles := []
  recordedAt := "2026-01-01T00:00:00.000Z"

theorem sample_faithful (capsule : PipelineContinuationCapsule) (dirtyFiles : List String) :
    Faithful (sampleInput dirtyFiles) (sampleObserved capsule dirtyFiles) where
  heads := fun _ => Iff.rfl
  oneEach := by simp [sampleObserved]
  dirtyFiles := rfl
  artifacts := by simp [sampleInput]
  contextFiles := by simp [sampleInput]
  uncontradicted := by simp [sampleObserved]
  checked := by simp [sampleObserved]

theorem sample_built [Sha256] {dirtyFiles : List String}
    (few : (boundCollection (sortUnique dirtyFiles) referenceCollectionMax).overflow = false) :
    ∃ capsule narrative,
      buildContinuationCapsule (sampleInput dirtyFiles) = .built capsule narrative := by
  have action : trim (sampleInput dirtyFiles).nextAction ≠ "" := by
    change trim "next" ≠ ""
    decide +kernel
  have session : trim (sampleInput dirtyFiles).outgoingSessionId ≠ "" := by
    change trim "session" ≠ ""
    decide +kernel
  have none_listed : (boundCollection (sortUnique []) referenceCollectionMax).overflow = false := by
    decide +kernel
  refine ⟨withDigest (capsuleContent (sampleInput dirtyFiles)), (truncateNarrative "").text, ?_⟩
  rw [buildContinuationCapsule, if_neg action, if_neg session, if_neg, if_neg, if_neg]
  · rfl
  · simp only [sampleInput, few]
    decide
  · simp only [sampleInput]
    decide
  · simp only [sampleInput]
    decide

/-- SHA-256 on the parts of the ids of the sample and on its payload. -/
@[reducible] def capsuleDigest : Sha256 where
  hex text :=
    if text.utf8ByteSize = 27 then
      "b5efad5a17f5dd189047f1fa3ee3a3c0c3515ea0927d5f383a5feb1892723e04"
    else if text.utf8ByteSize = 65 then
      "d59de832be2d8411266d293bb3946672fecf0ee80f33aeecd83bca9e50deb141"
    else "af54de323c2ce110b19932a080d8b85e1099d7d7a105ae06600f6cc3abb0ce23"

theorem verification_exact_sample :
    ∃ capsule narrative,
      @buildContinuationCapsule capsuleDigest (sampleInput ["file"]) = .built capsule narrative ∧
      (@verifyIncomingContinuation capsuleDigest
        (sampleObserved capsule ["file"])).verdict = .pass ∧
      @Matches capsuleDigest (sampleObserved capsule ["file"]) := by
  obtain ⟨capsule, narrative, built⟩ :=
    @sample_built capsuleDigest ["file"] (by decide +kernel)
  have passed := ((@verification_exact capsuleDigest).1 _ _ _ _ built rfl
    (sample_faithful capsule ["file"])).mpr (by simp [sampleInput])
  refine ⟨capsule, narrative, built, passed,
    ((@verification_exact capsuleDigest).2 _ passed).mpr ?_⟩
  have heads := @BuiltFrom.repositoryHeads capsuleDigest _ _
    (@buildContinuationCapsule_built capsuleDigest _ _ _ built)
  simp [HeadsAgree, sampleObserved, heads, sampleInput]

/-- A dirty file that was listed twice blocks the capsule in its own workspace. -/
theorem repeated_dirty_file_blocks :
    ¬ ∀ [Sha256] input capsule narrative observed,
      buildContinuationCapsule input = .built capsule narrative → observed.capsule = capsule →
      Faithful input observed → (verifyIncomingContinuation observed).verdict = .pass := by
  intro claim
  obtain ⟨capsule, narrative, built⟩ :=
    @sample_built capsuleDigest ["file", "file"] (by decide +kernel)
  have passed := @claim capsuleDigest _ _ _ _ built rfl (sample_faithful capsule ["file", "file"])
  have distinct := (@pass_of_faithful capsuleDigest _ _ _
    (@buildContinuationCapsule_built capsuleDigest _ _ _ built) rfl
    (sample_faithful capsule ["file", "file"])).mp ((@verdict_pass_iff capsuleDigest _).mp passed)
  simp [sampleInput] at distinct

end Heniek.IncomingVerification
