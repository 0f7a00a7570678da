import Heniek.JsonTexts
import Heniek.TaskGraph

/-!
The canonical text of a part of the task graph determines the part: two nodes, changes
or mappings that are written alike are equal.
-/

namespace Heniek.CanonicalTexts
open ScriptText RecoveryPolicy TaskGraph JsonTexts

/-- A text of a value, as it stands in a longer one. -/
def Encoded (text : String) : Prop := JsonText text.toList

def plainName (name : String) : Bool := name.toList.flatMap escapeChar = name.toList

def Members (members : List (String × String)) : Prop :=
  ∀ member ∈ members, plainName member.1 = true ∧ Encoded member.2

theorem members_of {members : List (String × String)}
    (names : (members.map Prod.fst).all plainName = true)
    (texts : ∀ text ∈ members.map Prod.snd, Encoded text) : Members members := by
  intro member listed
  exact ⟨List.all_eq_true.mp names member.1 (List.mem_map_of_mem listed),
    texts member.2 (List.mem_map_of_mem listed)⟩

theorem encoded_quote (s : String) : Encoded (quote s) := .string s

theorem encoded_word {text : String} (filled : text ≠ "")
    (plain : ∀ c ∈ text.toList, wordChar c = true) : Encoded text :=
  .word text.toList (by simpa using filled) plain

theorem wordChar_digit {c : Char} (digit : c.isDigit = true) : wordChar c = true := by
  have excluded : ∀ other ∈ closing ++ ['"', '[', '\x7b', '\x00'], other.isDigit = false := by
    simp [closing]
  by_contra bracket
  simp only [wordChar, decide_eq_true_eq, not_and_or, not_not, ← List.mem_append] at bracket
  rw [excluded c bracket] at digit
  cases digit

theorem encoded_natural (n : Nat) : Encoded n.repr := by
  have digits : n.repr.toList = Nat.toDigits 10 n := by
    rw [Nat.repr_eq_ofList_toDigits, String.toList_ofList]
  rw [Encoded, digits]
  exact .word _ Nat.toDigits_ne_nil fun c member =>
    wordChar_digit (Nat.isDigit_of_mem_toDigits (by decide) (by decide) member)

theorem encoded_bool (value : Bool) : Encoded (jsonBool value) := by
  cases value <;> exact encoded_word (by decide) (by simp [wordChar, closing, jsonBool])

theorem encoded_option (value : Option String) : Encoded (jsonOption value) := by
  cases value with
  | none => exact encoded_word (by decide) (by simp [wordChar, closing, jsonOption])
  | some text => exact encoded_quote text

theorem jsonArray_toList (items : List String) :
    (jsonArray items).toList = '[' :: [','].intercalate (items.map String.toList) ++ [']'] := by
  simp [jsonArray]

theorem encoded_array {items : List String} (each : ∀ item ∈ items, Encoded item) :
    Encoded (jsonArray items) := by
  rw [Encoded, jsonArray_toList]
  exact .array _ (List.forall_mem_map.mpr each)

theorem jsonArray_inj {items others : List String} (each : ∀ item ∈ items, Encoded item)
    (each' : ∀ other ∈ others, Encoded other) (same : jsonArray items = jsonArray others) :
    items = others := by
  have lists := congrArg String.toList same
  rw [jsonArray_toList, jsonArray_toList] at lists
  exact List.map_injective_iff.mpr (fun _ _ => String.toList_inj.mp)
    (array_inj (List.forall_mem_map.mpr each) (List.forall_mem_map.mpr each') lists)

theorem encoded_texts (texts : List String) : Encoded (jsonTexts texts) :=
  encoded_array (List.forall_mem_map.mpr fun text _ => encoded_quote text)

def chars (member : String × String) : String × List Char := (member.1, member.2.toList)

theorem chars_inj : Function.Injective chars := by
  intro left right same
  simp only [chars, Prod.mk.injEq, String.toList_inj] at same
  exact Prod.ext same.1 same.2

theorem jsonObject_toList {members : List (String × String)} (written : Members members) :
    (jsonObject members).toList =
      '\x7b' :: [','].intercalate ((members.map chars).map memberText) ++ ['\x7d'] := by
  have texts : (members.map fun member => "\"" ++ member.1 ++ "\":" ++ member.2).map String.toList =
      (members.map chars).map memberText := by
    rw [List.map_map, List.map_map]
    apply List.map_congr_left
    intro member listed
    have plain := (written member listed).1
    simp only [plainName, decide_eq_true_eq] at plain
    simp [memberText, chars, quote, plain]
  rw [jsonObject, String.toList_append, String.toList_append, String.toList_intercalate, texts]
  rfl

theorem values_json {members : List (String × String)} (written : Members members) :
    ∀ member ∈ members.map chars, JsonText member.2 := by
  intro member listed
  obtain ⟨source, source_mem, rfl⟩ := List.mem_map.mp listed
  exact (written source source_mem).2

theorem encoded_object {members : List (String × String)} (written : Members members) :
    Encoded (jsonObject members) := by
  rw [Encoded, jsonObject_toList written]
  exact .object (members.map chars) (values_json written)

theorem jsonObject_inj {members others : List (String × String)} (written : Members members)
    (written' : Members others) (same : jsonObject members = jsonObject others) :
    members = others := by
  have lists := congrArg String.toList same
  rw [jsonObject_toList written, jsonObject_toList written'] at lists
  exact List.map_injective_iff.mpr chars_inj
    (object_inj (values_json written) (values_json written') lists)

@[simp]
theorem quote_eq_iff {a b : String} : quote a = quote b ↔ a = b :=
  ⟨quote_inj, congrArg quote⟩

@[simp]
theorem repr_eq_iff {m n : Nat} : m.repr = n.repr ↔ m = n :=
  ⟨decimal_inj, congrArg Nat.repr⟩

@[simp]
theorem jsonBool_eq_iff {a b : Bool} : jsonBool a = jsonBool b ↔ a = b := by
  cases a <;> cases b <;> decide

theorem null_ne_quote (s : String) : "null" ≠ quote s := by
  intro same
  have heads := congrArg (fun text => text.toList.head?) same
  simp [quote_toList] at heads

@[simp]
theorem jsonOption_eq_iff {a b : Option String} : jsonOption a = jsonOption b ↔ a = b := by
  cases a with
  | none =>
    cases b with
    | none => simp
    | some text => simp [jsonOption, null_ne_quote]
  | some text =>
    cases b with
    | none => simp [jsonOption, (null_ne_quote text).symm]
    | some other => simp [jsonOption]

theorem jsonArray_map_inj {α : Type*} {text : α → String} (encoded : ∀ a, Encoded (text a))
    (inj : Function.Injective text) {l l' : List α}
    (same : jsonArray (l.map text) = jsonArray (l'.map text)) : l = l' :=
  List.map_injective_iff.mpr inj (jsonArray_inj (List.forall_mem_map.mpr fun a _ => encoded a)
    (List.forall_mem_map.mpr fun a _ => encoded a) same)

@[simp]
theorem jsonTexts_eq_iff {a b : List String} : jsonTexts a = jsonTexts b ↔ a = b :=
  ⟨jsonArray_map_inj encoded_quote fun _ _ => quote_inj, congrArg jsonTexts⟩

theorem excluded_written (excluded : ExcludedRepository) :
    Members [("rationale", quote excluded.rationale),
      ("repositoryId", quote excluded.repositoryId)] :=
  members_of (by simp only [List.map_cons]; decide) (by simp [encoded_quote])

theorem excluded_inj : Function.Injective ExcludedRepository.json := by
  intro left right same
  have members := jsonObject_inj (excluded_written left) (excluded_written right) same
  cases left
  simp_all

theorem artifact_written (artifact : TaskArtifactRequirement) :
    Members [("contract", quote artifact.contract), ("name", quote artifact.name),
      ("path", jsonOption artifact.path), ("repositoryId", jsonOption artifact.repositoryId),
      ("required", jsonBool artifact.required)] :=
  members_of (by simp only [List.map_cons]; decide)
    (by simp [encoded_quote, encoded_option, encoded_bool])

theorem artifact_inj : Function.Injective TaskArtifactRequirement.json := by
  intro left right same
  have members := jsonObject_inj (artifact_written left) (artifact_written right) same
  cases left
  simp_all

def entryChars (entry : String × String) : String × List Char := (entry.1, (quote entry.2).toList)

theorem entryChars_inj : Function.Injective entryChars := by
  intro left right same
  simp only [entryChars, Prod.mk.injEq, String.toList_inj, quote_eq_iff] at same
  exact Prod.ext same.1 same.2

theorem environment_toList (env : CheckEnvironment) :
    env.json.toList =
      '\x7b' :: [','].intercalate ((env.entries.map entryChars).map memberText) ++ ['\x7d'] := by
  have texts : (env.entries.map fun entry => quote entry.1 ++ ":" ++ quote entry.2).map
      String.toList = (env.entries.map entryChars).map memberText := by
    simp [memberText, entryChars]
  rw [CheckEnvironment.json, String.toList_append, String.toList_append,
    String.toList_intercalate, texts]
  rfl

theorem entries_json (env : CheckEnvironment) :
    ∀ member ∈ env.entries.map entryChars, JsonText member.2 := by
  intro member listed
  obtain ⟨⟨name, value⟩, _, rfl⟩ := List.mem_map.mp listed
  simp only [entryChars]
  exact JsonText.string value

theorem encoded_environment (env : CheckEnvironment) : Encoded env.json := by
  rw [Encoded, environment_toList]
  exact .object (env.entries.map entryChars) (entries_json env)

theorem environment_inj : Function.Injective CheckEnvironment.json := by
  intro left right same
  have lists := congrArg String.toList same
  rw [environment_toList, environment_toList] at lists
  have entries := List.map_injective_iff.mpr entryChars_inj
    (object_inj (entries_json left) (entries_json right) lists)
  cases left
  simp_all

theorem check_written (check : VerifyCheck) :
    Members ([("argv", jsonTexts check.argv), ("checkId", quote check.checkId)] ++
      check.cwd.toList.map (fun cwd => ("cwd", quote cwd)) ++
      check.env.toList.map (fun env => ("env", env.json)) ++
      [("expectedExitCode", toString check.expectedExitCode), ("required", jsonBool check.required),
        ("schemaVersion", "1")]) := by
  have one : Encoded "1" := encoded_natural 1
  cases check.cwd <;> cases check.env <;>
    exact members_of
      (by
        simp only [Option.toList, List.map_cons, List.map_nil, List.cons_append, List.nil_append]
        decide)
      (by
        simp [encoded_quote, encoded_texts, encoded_natural, encoded_bool, encoded_environment,
          one])

theorem check_inj : Function.Injective VerifyCheck.json := by
  intro left right same
  have members := jsonObject_inj (check_written left) (check_written right) same
  rcases left with ⟨checkId, argv, cwd, env, code, required⟩
  rcases right with ⟨checkId', argv', cwd', env', code', required'⟩
  cases cwd <;> cases env <;> cases cwd' <;> cases env' <;>
    simp_all [environment_inj.eq_iff]

theorem verification_written (verification : TaskVerificationCheck) :
    Members [("check", verification.check.json),
      ("repositoryId", quote verification.repositoryId)] := by
  have check : Encoded verification.check.json := encoded_object (check_written verification.check)
  exact members_of (by simp only [List.map_cons]; decide)
    (by simp [encoded_quote, check])

theorem verification_inj : Function.Injective TaskVerificationCheck.json := by
  intro left right same
  have members := jsonObject_inj (verification_written left) (verification_written right) same
  cases left
  simp_all [check_inj.eq_iff]

theorem task_written (task : ExecutionTaskRevision) : Members task.members := by
  have one : Encoded "1" := encoded_natural 1
  apply members_of
  · simp only [ExecutionTaskRevision.members, List.map_cons]
    decide
  · have artifacts : Encoded (jsonArray (task.artifacts.map TaskArtifactRequirement.json)) :=
      encoded_array (List.forall_mem_map.mpr fun item _ => encoded_object (artifact_written item))
    have excluded : Encoded (jsonArray (task.excludedRepositories.map ExcludedRepository.json)) :=
      encoded_array (List.forall_mem_map.mpr fun item _ => encoded_object (excluded_written item))
    have verification : Encoded (jsonArray (task.verification.map TaskVerificationCheck.json)) :=
      encoded_array
        (List.forall_mem_map.mpr fun item _ => encoded_object (verification_written item))
    simp [ExecutionTaskRevision.members, encoded_quote, encoded_texts, encoded_option,
      encoded_natural, one, artifacts, excluded, verification]

theorem task_inj : Function.Injective ExecutionTaskRevision.members := by
  intro left right same
  simp only [ExecutionTaskRevision.members, List.cons.injEq, Prod.mk.injEq, true_and] at same
  obtain ⟨packet, packetSha, artifacts, created, dependencies, excluded, objective, predecessor,
    primary, rationale, reads, revision, revisionSha, taskId, verification, writes⟩ := same
  have artifacts := jsonArray_map_inj (fun item => encoded_object (artifact_written item))
    artifact_inj artifacts
  have excluded := jsonArray_map_inj (fun item => encoded_object (excluded_written item))
    excluded_inj excluded
  have verification := jsonArray_map_inj (fun item => encoded_object (verification_written item))
    verification_inj verification
  cases left
  simp_all

theorem node_written (node : TaskDagNode) :
    Members [("accountId", jsonOption node.accountId), ("pipelineId", quote node.pipelineId),
      ("profileId", quote node.profileId), ("task", jsonObject node.task.members)] :=
  members_of (by simp only [List.map_cons]; decide)
    (by simpa [encoded_quote, encoded_option] using encoded_object (task_written node.task))

theorem node_inj : Function.Injective TaskDagNode.json := by
  intro left right same
  have members := jsonObject_inj (node_written left) (node_written right) same
  simp only [List.cons.injEq, Prod.mk.injEq, true_and, and_true] at members
  have tasks := task_inj (jsonObject_inj (task_written left.task) (task_written right.task)
    members.2.2.2)
  cases left
  simp_all

theorem dag_written (dag : TaskDag) :
    Members [("createdAt", quote dag.createdAt), ("graphId", quote dag.graphId),
      ("graphRevision", toString dag.graphRevision),
      ("nodes", jsonArray (dag.nodes.map TaskDagNode.json)), ("schemaVersion", "2")] := by
  have two : Encoded "2" := encoded_natural 2
  have nodes : Encoded (jsonArray (dag.nodes.map TaskDagNode.json)) :=
    encoded_array (List.forall_mem_map.mpr fun node _ => encoded_object (node_written node))
  exact members_of (by simp only [List.map_cons]; decide)
    (by simp [encoded_quote, encoded_natural, two, nodes])

theorem kind_text_inj : Function.Injective TaskGraphChangeKind.text := by
  intro left right same
  cases left <;> cases right <;> first | rfl | simp [TaskGraphChangeKind.text] at same

theorem change_written (change : TaskGraphChange) :
    Members [("afterTaskIds", jsonTexts change.afterTaskIds),
      ("beforeTaskIds", jsonTexts change.beforeTaskIds),
      ("evidenceArtifactIds", jsonTexts change.evidenceArtifactIds),
      ("kind", quote change.kind.text), ("rationale", quote change.rationale)] :=
  members_of (by simp only [List.map_cons]; decide)
    (by simp [encoded_quote, encoded_texts])

theorem change_inj : Function.Injective TaskGraphChange.json := by
  intro left right same
  have members := jsonObject_inj (change_written left) (change_written right) same
  cases left
  simp_all [kind_text_inj.eq_iff]

theorem mapping_written (mapping : TaskRequirementMapping) :
    Members [("afterTaskIds", jsonTexts mapping.afterTaskIds),
      ("beforeTaskIds", jsonTexts mapping.beforeTaskIds), ("rationale", quote mapping.rationale),
      ("requirementId", quote mapping.requirementId),
      ("sourceWorkItemId", quote mapping.sourceWorkItemId)] :=
  members_of (by simp only [List.map_cons]; decide)
    (by simp [encoded_quote, encoded_texts])

theorem mapping_inj : Function.Injective TaskRequirementMapping.json := by
  intro left right same
  have members := jsonObject_inj (mapping_written left) (mapping_written right) same
  cases left
  simp_all

theorem trigger_written (trigger : HiddenDependencyRevisionTrigger) :
    Members [("findingId", quote trigger.findingId),
      ("interruptedTaskIds", jsonTexts trigger.interruptedTaskIds),
      ("kind", quote "hidden_dependency")] :=
  members_of (by simp only [List.map_cons]; decide)
    (by simp [encoded_quote, encoded_texts])

theorem trigger_inj : Function.Injective HiddenDependencyRevisionTrigger.json := by
  intro left right same
  have members := jsonObject_inj (trigger_written left) (trigger_written right) same
  cases left
  simp_all

theorem Members.append {members others : List (String × String)} (written : Members members)
    (written' : Members others) : Members (members ++ others) := by
  intro member listed
  rcases List.mem_append.mp listed with first | last
  · exact written member first
  · exact written' member last

/-- The members of a proposal that stand before its trigger. -/
def untriggered (proposal : TaskGraphRevisionProposal) : List (String × String) :=
  [("changes", jsonArray (proposal.changes.map TaskGraphChange.json)),
    ("evidenceArtifactIds", jsonTexts proposal.evidenceArtifactIds),
    ("expectedGraphRevision", toString proposal.expectedGraphRevision),
    ("expectedRevisionSha256", quote proposal.expectedRevisionSha256),
    ("graphId", quote proposal.graphId), ("proposedAt", quote proposal.proposedAt),
    ("proposedDag", proposal.proposedDag.json), ("rationale", quote proposal.rationale),
    ("requirementMappings",
      jsonArray (proposal.requirementMappings.map TaskRequirementMapping.json)),
    ("runId", quote proposal.runId), ("schemaVersion", toString proposal.schemaVersion)]

theorem untriggered_written (proposal : TaskGraphRevisionProposal) :
    Members (untriggered proposal) := by
  have changes : Encoded (jsonArray (proposal.changes.map TaskGraphChange.json)) :=
    encoded_array (List.forall_mem_map.mpr fun change _ => encoded_object (change_written change))
  have mappings : Encoded
      (jsonArray (proposal.requirementMappings.map TaskRequirementMapping.json)) :=
    encoded_array (List.forall_mem_map.mpr fun mapping _ =>
      encoded_object (mapping_written mapping))
  have dag : Encoded proposal.proposedDag.json := encoded_object (dag_written proposal.proposedDag)
  apply members_of
  · simp only [untriggered, List.map_cons]
    decide
  · simp [untriggered, encoded_quote, encoded_texts, encoded_natural, changes, mappings, dag]

theorem triggerMember_written (trigger : Option HiddenDependencyRevisionTrigger) :
    Members (triggerMember trigger) := by
  cases trigger with
  | none => simp [Members, triggerMember]
  | some trigger =>
    have json : Encoded trigger.json := encoded_object (trigger_written trigger)
    exact members_of (by simp only [triggerMember, Option.toList, List.map_cons]; decide)
      (by simp [triggerMember, json])

theorem triggerMember_inj : Function.Injective triggerMember := by
  intro left right same
  cases left <;> cases right <;> simp_all [triggerMember, trigger_inj.eq_iff]

theorem proposal_trigger {left right : TaskGraphRevisionProposal} (same : left.json = right.json) :
    left.trigger = right.trigger := by
  have members := jsonObject_inj
    ((untriggered_written left).append (triggerMember_written left.trigger))
    ((untriggered_written right).append (triggerMember_written right.trigger)) same
  have counted : (untriggered left).length = (untriggered right).length := by simp [untriggered]
  exact triggerMember_inj (List.append_inj members counted).2

end Heniek.CanonicalTexts
