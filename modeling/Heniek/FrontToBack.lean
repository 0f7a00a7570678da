import Heniek.NodeEvaluation
import Heniek.ParserExactness

/-!
Evaluation of a compiled condition without recursion: the nodes from the first to the
last, each from the results of its children. On an array with children first it gives at
the root what the recursive evaluation gives there.
-/

namespace Heniek.FrontToBack
open ExpressionEvaluation NodeEvaluation ConditionParser ParserExactness

/-- The results of the nodes, from the first on; `none` where a child has none yet. -/
def frontResults (nodes : List ExpressionNode) (state : JsonValue) :
    Option (List (Evaluated JsonValue)) :=
  nodes.foldlM (fun results node =>
    (nodeResult state (fun index => results[index]?) node).map fun result => results ++ [result]) []

def evaluateFrontToBack (condition : ExpressionCondition) (state : JsonValue) :
    Option (Evaluated Bool) := do
  let results ← frontResults condition.nodes state
  let result ← results[condition.root]?
  some (rootResult result)

section Node

variable {state : JsonValue} {child child' : Nat → Outcome} {node : ExpressionNode}

theorem nodeResult_congr (same : ∀ index ∈ children node, child index = child' index) :
    nodeResult state child node = nodeResult state child' node := by
  cases node with
  | literal value => rfl
  | path path => rfl
  | not operand =>
    rw [nodeResult, nodeResult, same operand List.mem_cons_self]
  | compare operator left right =>
    rw [nodeResult, nodeResult, same left (by simp [children]), same right (by simp [children])]
  | logical operator left right =>
    rw [nodeResult, nodeResult, same left (by simp [children]), same right (by simp [children])]

/-- A result is there, and no reference to a node was out of range. -/
def Sound (outcome : Outcome) : Prop :=
  ∃ result, outcome = some result ∧
    ∀ reason, result = .failure reason → reason.code ≠ .invalidExpression

theorem sound_some {result : Evaluated JsonValue}
    (code : ∀ reason, result = .failure reason → reason.code = .incompatibleType) :
    Sound (some result) := by
  refine ⟨result, rfl, fun reason failed invalid => ?_⟩
  rw [code reason failed] at invalid
  cases invalid

theorem Sound.proceed {first : Outcome} {next : JsonValue → Outcome} (sound : Sound first)
    (onward : ∀ value, Sound (next value)) :
    Sound (first.bind fun result => NodeEvaluation.proceed result next) := by
  obtain ⟨result, rfl, valid⟩ := sound
  cases result with
  | ok value => exact onward value
  | failure reason => exact ⟨_, rfl, valid⟩

theorem nodeResult_sound (sound : ∀ index ∈ children node, Sound (child index)) :
    Sound (nodeResult state child node) := by
  cases node with
  | literal value => exact ⟨_, rfl, fun _ failed => by cases failed⟩
  | path path =>
    refine ⟨_, rfl, fun reason failed => ?_⟩
    unfold readResult at failed
    cases read : readPath state [] path with
    | inl value =>
      rw [read] at failed
      cases failed
    | inr missing =>
      rw [read] at failed
      cases failed
      intro same
      cases same
  | not operand =>
    exact (sound operand List.mem_cons_self).proceed fun _ => sound_some fun _ => negated_failure
  | compare operator left right =>
    refine (sound left (by simp [children])).proceed fun _ => ?_
    exact (sound right (by simp [children])).proceed fun _ =>
      sound_some fun _ => compared_failure
  | logical operator left right =>
    refine (sound left (by simp [children])).proceed fun value => ?_
    cases value with
    | bool value =>
      by_cases decided : value = decisive operator
      · simp only [if_pos decided]
        exact ⟨_, rfl, fun _ failed => by cases failed⟩
      · simp only [if_neg decided]
        exact (sound right (by simp [children])).proceed fun _ =>
          sound_some fun _ => joinedRight_failure
    | null => exact sound_some fun _ failed => by cases failed; rfl
    | number => exact sound_some fun _ failed => by cases failed; rfl
    | string => exact sound_some fun _ failed => by cases failed; rfl
    | array => exact sound_some fun _ failed => by cases failed; rfl
    | object => exact sound_some fun _ failed => by cases failed; rfl

end Node

section Array

variable {nodes : List ExpressionNode} {state : JsonValue}

/-- The recursive result of a node, with just the depth that it needs. -/
def nodeValue (nodes : List ExpressionNode) (state : JsonValue) (index : Nat) : Outcome :=
  evaluateNode nodes state (index + 1) index

theorem evaluateNode_deeper
    (before : ∀ parent node, nodes[parent]? = some node → ∀ child ∈ children node, child < parent)
    {index : Nat} (inside : index < nodes.length) :
    Sound (nodeValue nodes state index) ∧
      ∀ depth, index < depth → evaluateNode nodes state depth index =
        nodeValue nodes state index := by
  induction index using Nat.strongRecOn with
  | ind index ih =>
    have present : nodes[index]? = some nodes[index] := List.getElem?_eq_getElem inside
    have earlier : ∀ child ∈ children nodes[index], child < index :=
      before index nodes[index] present
    have same : ∀ depth, index ≤ depth → ∀ child ∈ children nodes[index],
        evaluateNode nodes state depth child = nodeValue nodes state child := by
      intro depth enough child listed
      have lower := earlier child listed
      exact (ih child lower (lower.trans inside)).2 depth (lower.trans_le enough)
    have step : ∀ depth, index < depth → evaluateNode nodes state depth index =
        nodeResult state (nodeValue nodes state) nodes[index] := by
      intro depth enough
      obtain ⟨depth, rfl⟩ : ∃ n, depth = n + 1 := ⟨depth - 1, by omega⟩
      rw [evaluateNode_succ present]
      exact nodeResult_congr (same depth (by omega))
    have here : nodeValue nodes state index =
        nodeResult state (nodeValue nodes state) nodes[index] :=
      step (index + 1) (Nat.lt_succ_self index)
    refine ⟨?_, fun depth enough => (step depth enough).trans here.symm⟩
    rw [here]
    refine nodeResult_sound fun child listed => ?_
    have lower := earlier child listed
    exact (ih child lower (lower.trans inside)).1

theorem frontResults_prefix
    (before : ∀ parent node, nodes[parent]? = some node → ∀ child ∈ children node, child < parent)
    {front back : List ExpressionNode} (split : nodes = front ++ back) :
    ∃ results, frontResults front state = some results ∧ results.length = front.length ∧
      ∀ index < front.length, results[index]? = nodeValue nodes state index := by
  induction front using List.reverseRecOn generalizing back with
  | nil => exact ⟨[], rfl, rfl, by simp⟩
  | append_singleton front node ih =>
    obtain ⟨results, read, length, values⟩ := ih (split.trans (List.append_assoc _ _ _))
    have present : nodes[front.length]? = some node := by
      rw [split, List.append_assoc]
      simp
    have inside : front.length < nodes.length := by
      rw [split]
      simp
    obtain ⟨⟨result, valued, _⟩, _⟩ := @evaluateNode_deeper nodes state before _ inside
    have made : nodeResult state (fun index => results[index]?) node = some result := by
      rw [← valued, nodeValue, evaluateNode_succ present]
      refine nodeResult_congr fun child listed => ?_
      have lower := before front.length node present child listed
      rw [values child lower]
      exact ((evaluateNode_deeper before (lower.trans inside)).2 front.length lower).symm
    refine ⟨results ++ [result], ?_, by simp [length], ?_⟩
    · rw [frontResults, List.foldlM_append]
      change (frontResults front state >>= _) = _
      rw [read]
      simp [made]
    · intro index below
      rw [List.length_append] at below
      rcases Nat.lt_succ_iff_lt_or_eq.mp below with earlier | rfl
      · rw [List.getElem?_append_left (by omega)]
        exact values index earlier
      · rw [List.getElem?_append_right (by omega), length, Nat.sub_self, valued]
        rfl

end Array

/-- Front to back or by recursion, a compiled condition has the same result, which is there and
never reports an invalid expression. -/
theorem front_to_back {source : String} {condition : ExpressionCondition}
    (compiled : parseConditionExpression source = .ok condition) (state : JsonValue) :
    evaluateFrontToBack condition state = evaluateExpressionCondition condition state ∧
      ∃ result, evaluateExpressionCondition condition state = some result ∧
        ∀ reason, result = .failure reason → reason.code ≠ .invalidExpression := by
  obtain ⟨last, before, _⟩ := childrenFirst_of_parse compiled
  have inside : condition.root < condition.nodes.length := by omega
  obtain ⟨⟨value, valued, valid⟩, deeper⟩ := evaluateNode_deeper before inside
  have recursive : evaluateExpressionCondition condition state = some (rootResult value) := by
    rw [evaluateExpressionCondition_eq, deeper condition.nodes.length inside, valued]
    rfl
  obtain ⟨results, read, _, values⟩ := frontResults_prefix before (List.append_nil _).symm
  have reached : results[condition.root]? = some value :=
    (values condition.root inside).trans valued
  refine ⟨?_, rootResult value, recursive, ?_⟩
  · rw [recursive, evaluateFrontToBack, read]
    simp [reached]
  · intro reason failed
    cases value with
    | failure other =>
      cases failed
      exact valid reason rfl
    | ok value =>
      cases value <;> cases failed <;> nofun

theorem front_to_back_sample :
    ∃ condition, parseConditionExpression "ready && !done.late" = .ok condition ∧
      evaluateFrontToBack condition (.object [("ready", .bool false)]) =
        evaluateExpressionCondition condition (.object [("ready", .bool false)]) := by
  have compiled : parseConditionExpression "ready && !done.late" = .ok _ := rfl
  exact ⟨_, compiled, (front_to_back compiled _).1⟩

end Heniek.FrontToBack
