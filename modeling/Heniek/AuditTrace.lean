import Heniek.JsonWriter
import Heniek.NodeEvaluation
import Heniek.PathReads

/-!
Evaluation with an audit trace. The trace walks the whole condition, the operands
that evaluation goes past included, and reads each path once more by itself. What
evaluation reads is among what the trace reports, and decides it.
-/

namespace Heniek.AuditTrace
open ExpressionEvaluation NodeEvaluation PathReads

/-- `none` is an absent value. -/
structure ReferencedValue where
  path : List String
  value : Option JsonValue
  present : Bool

structure ConditionTrace where
  expressionSummary : String
  referencedValues : List ReferencedValue
  result : Evaluated Bool

structure TracedEvaluation where
  evaluation : Evaluated Bool
  trace : ConditionTrace

/-- The path walker of the trace. -/
def readPath : (state : JsonValue) → (path : List String) → Bool × Option JsonValue
  | state, [] => (true, some state)
  | state, segment :: rest =>
    match state with
    | .array items =>
      if segment = "length" then readPath (.number (.finite items.length)) rest
      else (false, none)
    | .object members =>
      match members.find? fun member => member.1 = segment with
      | some member => readPath member.2 rest
      | none => (false, none)
    | _ => (false, none)

def operatorText : ComparisonOperator → String
  | .eq => "eq"
  | .ne => "ne"
  | .lt => "lt"
  | .lte => "lte"
  | .gt => "gt"
  | .gte => "gte"

def literalText : JsonScalar → String
  | .null => "null"
  | .bool value => if value then "true" else "false"
  | .number value => String.ofList (JsonWriter.numberText value)
  | .string value => RecoveryPolicy.quote value

/-- `none` is the overflow of the call stack, as in the evaluation. -/
def summarizeNode (nodes : List ExpressionNode) : (depth index : Nat) → Option String
  | depth, index =>
    match nodes[index]? with
    | none => some "<invalid>"
    | some node =>
      match depth with
      | 0 => none
      | depth + 1 =>
        match node with
        | .literal value => some (literalText value)
        | .path path => some (".".intercalate path)
        | .not operand => do
            let operand ← summarizeNode nodes depth operand
            some ("!(" ++ operand ++ ")")
        | .compare operator left right => do
            let left ← summarizeNode nodes depth left
            let right ← summarizeNode nodes depth right
            some ("(" ++ left ++ " " ++ operatorText operator ++ " " ++ right ++ ")")
        | .logical operator left right => do
            let left ← summarizeNode nodes depth left
            let right ← summarizeNode nodes depth right
            some ("(" ++ left ++ " " ++ operator.text ++ " " ++ right ++ ")")

def collectPaths (nodes : List ExpressionNode) : (depth index : Nat) → Option (List (List String))
  | depth, index =>
    match nodes[index]? with
    | none => some []
    | some node =>
      match depth with
      | 0 => none
      | depth + 1 =>
        match node with
        | .literal _ => some []
        | .path path => some [path]
        | .not operand => collectPaths nodes depth operand
        | .compare _ left right => do
            let leftPaths ← collectPaths nodes depth left
            let rightPaths ← collectPaths nodes depth right
            some (leftPaths ++ rightPaths)
        | .logical _ left right => do
            let leftPaths ← collectPaths nodes depth left
            let rightPaths ← collectPaths nodes depth right
            some (leftPaths ++ rightPaths)

def referencedValue (state : JsonValue) (path : List String) : ReferencedValue :=
  ⟨path, (readPath state path).2, (readPath state path).1⟩

def evaluateConditionWithTrace (condition : ExpressionCondition) (state : JsonValue) :
    Option TracedEvaluation := do
  let evaluation ← evaluateExpressionCondition condition state
  let pathRefs ← collectPaths condition.nodes condition.nodes.length condition.root
  let summary ← summarizeNode condition.nodes condition.nodes.length condition.root
  some ⟨evaluation, summary, pathRefs.map (referencedValue state), evaluation⟩

/-- The right operand is evaluated after this result of the left one. -/
def goesOn : ExpressionNode → Evaluated JsonValue → Bool
  | .compare _ _ _, .ok _ => true
  | .logical operator _ _, .ok (.bool value) => decide (value ≠ decisive operator)
  | _, _ => false

def rightPaths (node : ExpressionNode) (left : Outcome) (paths : List (List String)) :
    List (List String) :=
  if left.any (goesOn node) then paths else []

/-- The paths that an evaluation reads, in order. -/
def pathsRead (nodes : List ExpressionNode) (state : JsonValue) :
    (depth index : Nat) → List (List String)
  | 0, _ => []
  | depth + 1, index =>
    match nodes[index]? with
    | none => []
    | some (.literal _) => []
    | some (.path path) => [path]
    | some (.not operand) => pathsRead nodes state depth operand
    | some (.compare operator left right) =>
      pathsRead nodes state depth left ++
        rightPaths (.compare operator left right) (evaluateNode nodes state depth left)
          (pathsRead nodes state depth right)
    | some (.logical operator left right) =>
      pathsRead nodes state depth left ++
        rightPaths (.logical operator left right) (evaluateNode nodes state depth left)
          (pathsRead nodes state depth right)

theorem readPath_eq (state : JsonValue) (path : List String) :
    readPath state path = ((readable state path).isSome, readable state path) := by
  induction path generalizing state with
  | nil => simp [readPath]
  | cons segment rest ih =>
    cases state with
    | array items =>
      rw [readPath, readable, ExpressionEvaluation.readPath]
      by_cases length : segment = "length"
      · rw [if_pos length, if_pos length, getLeft?_readPath]
        exact ih _
      · rw [if_neg length, if_neg length]
        rfl
    | object members =>
      rw [readPath, readable, ExpressionEvaluation.readPath]
      cases members.find? fun member => member.1 = segment with
      | none => rfl
      | some member =>
        simp only [getLeft?_readPath]
        exact ih _
    | null => rfl
    | bool => rfl
    | number => rfl
    | string => rfl

variable {path : List String} {depth index : Nat} {first second state : JsonValue}
  {reason : EvaluationFailure}

theorem mem_rightPaths {node : ExpressionNode} {left : Outcome} {paths : List (List String)}
    (listed : path ∈ rightPaths node left paths) : path ∈ paths := by
  rw [rightPaths] at listed
  by_cases passed : left.any (goesOn node) = true
  · rwa [if_pos passed] at listed
  · rw [if_neg passed] at listed
    exact absurd listed List.not_mem_nil

theorem pathsRead_subset (nodes : List ExpressionNode) (state : JsonValue)
    {paths : List (List String)} (collected : collectPaths nodes depth index = some paths) :
    ∀ path ∈ pathsRead nodes state depth index, path ∈ paths := by
  induction depth generalizing index paths with
  | zero =>
    intro path listed
    simp [pathsRead] at listed
  | succ depth ih =>
    unfold collectPaths at collected
    unfold pathsRead
    cases present : nodes[index]? with
    | none => simp
    | some node =>
      simp only [present] at collected
      have both : ∀ left right : Nat, (do
            let leftPaths ← collectPaths nodes depth left
            let rightPaths ← collectPaths nodes depth right
            some (leftPaths ++ rightPaths)) = some paths →
          ∀ path ∈ pathsRead nodes state depth left ++
            rightPaths node (evaluateNode nodes state depth left)
              (pathsRead nodes state depth right), path ∈ paths := by
        intro left right made path listed
        obtain ⟨leftPaths, first, remaining⟩ := Option.bind_eq_some_iff.mp made
        obtain ⟨rightPaths, second, joined⟩ := Option.bind_eq_some_iff.mp remaining
        rw [← Option.some.inj joined]
        rcases List.mem_append.mp listed with early | late
        · exact List.mem_append_left _ (ih first path early)
        · exact List.mem_append_right _ (ih second path (mem_rightPaths late))
      cases node with
      | literal => simp
      | path path =>
        rw [← Option.some.inj collected]
        exact fun _ listed => listed
      | not operand => exact ih collected
      | compare operator left right => exact both left right collected
      | logical operator left right => exact both left right collected

/-- Scalars that are the same, or two containers. -/
def Alike (first second : JsonValue) : Prop := asComparable first = asComparable second

/-- The same up to the texts of a failure and the insides of a container. -/
inductive SameResult : (first second : Evaluated JsonValue) → Prop
  | ok {first second : JsonValue} (alike : Alike first second) :
      SameResult (.ok first) (.ok second)
  | failure {first second : EvaluationFailure} (code : first.code = second.code) :
      SameResult (.failure first) (.failure second)

abbrev SameOutcome : Outcome → Outcome → Prop := Option.Rel SameResult

theorem SameResult.refl (result : Evaluated JsonValue) : SameResult result result := by
  cases result with
  | ok value => exact .ok rfl
  | failure reason => exact .failure rfl

inductive Container : (value : JsonValue) → Prop
  | array (items : List JsonValue) : Container (.array items)
  | object (members : List (String × JsonValue)) : Container (.object members)

theorem eq_toValue {value : JsonValue} {scalar : JsonScalar}
    (comparable : asComparable value = some scalar) : value = scalar.toValue := by
  cases value <;> cases comparable <;> rfl

theorem container_of_none {value : JsonValue} (comparable : asComparable value = none) :
    Container value := by
  cases value with
  | array items => exact .array items
  | object members => exact .object members
  | null => cases comparable
  | bool => cases comparable
  | number => cases comparable
  | string => cases comparable

theorem Alike.cases (alike : Alike first second) :
    first = second ∨ Container first ∧ Container second := by
  cases comparable : asComparable first with
  | none =>
    exact .inr ⟨container_of_none comparable, container_of_none (alike.symm.trans comparable)⟩
  | some scalar =>
    left
    rw [eq_toValue comparable, eq_toValue (alike.symm.trans comparable)]

theorem negated_same (alike : Alike first second) :
    SameResult (negated first) (negated second) := by
  rcases alike.cases with rfl | ⟨container, container'⟩
  · exact .refl _
  · cases container <;> cases container' <;> exact .failure rfl

theorem joinedRight_same {operator : LogicalOperator} {left : Bool} (alike : Alike first second) :
    SameResult (joinedRight operator left first) (joinedRight operator left second) := by
  rcases alike.cases with rfl | ⟨container, container'⟩
  · exact .refl _
  · cases container <;> cases container' <;> exact .failure rfl

theorem compared_same {operator : ComparisonOperator} {left left' right right' : JsonValue}
    (first : Alike left left') (second : Alike right right') :
    SameResult (compared operator left right) (compared operator left' right') := by
  unfold compared
  rw [first, second]
  cases asComparable left' with
  | none => exact .failure rfl
  | some leftScalar =>
    cases asComparable right' with
    | none => exact .failure rfl
    | some rightScalar => exact .refl _

theorem readResult_same
    (alike : (readable first path).map asComparable = (readable second path).map asComparable) :
    SameResult (readResult first path) (readResult second path) := by
  unfold readable at alike
  unfold readResult
  cases readFirst : ExpressionEvaluation.readPath first [] path with
  | inl value =>
    cases readSecond : ExpressionEvaluation.readPath second [] path with
    | inl other =>
      rw [readFirst, readSecond] at alike
      exact .ok (Option.some.inj alike)
    | inr missing =>
      rw [readFirst, readSecond] at alike
      cases alike
  | inr missing =>
    cases readSecond : ExpressionEvaluation.readPath second [] path with
    | inl other =>
      rw [readFirst, readSecond] at alike
      cases alike
    | inr other => exact .failure rfl

theorem SameOutcome.proceed {first second : Outcome} {next next' : JsonValue → Outcome}
    (same : SameOutcome first second)
    (onward : ∀ value value', first = some (.ok value) → Alike value value' →
      SameOutcome (next value) (next' value')) :
    SameOutcome (first.bind fun result => NodeEvaluation.proceed result next)
      (second.bind fun result => NodeEvaluation.proceed result next') := by
  cases same with
  | none => exact .none
  | some result =>
    cases result with
    | ok alike => exact onward _ _ rfl alike
    | failure code => exact .some (.failure code)

theorem nodeResult_same {child child' : Nat → Outcome} {node : ExpressionNode}
    (read : ∀ path, node = .path path → (readable first path).map asComparable =
      (readable second path).map asComparable)
    (operand : ∀ index, node = .not index → SameOutcome (child index) (child' index))
    (left : ∀ index other, (∃ operator, node = .compare operator index other) ∨
        (∃ operator, node = .logical operator index other) →
      SameOutcome (child index) (child' index) ∧
        ((child index).any (goesOn node) = true → SameOutcome (child other) (child' other))) :
    SameOutcome (nodeResult first child node) (nodeResult second child' node) := by
  cases node with
  | literal value => exact .some (.refl _)
  | path path => exact .some (readResult_same (read path rfl))
  | not index =>
    exact (operand index rfl).proceed fun _ _ _ alike => .some (negated_same alike)
  | compare operator index other =>
    obtain ⟨leftSame, rightSame⟩ := left index other (.inl ⟨operator, rfl⟩)
    refine leftSame.proceed fun value value' reached alike => ?_
    have onward : SameOutcome (child other) (child' other) :=
      rightSame (by rw [reached]; rfl)
    exact onward.proceed fun _ _ _ rightAlike => .some (compared_same alike rightAlike)
  | logical operator index other =>
    obtain ⟨leftSame, rightSame⟩ := left index other (.inr ⟨operator, rfl⟩)
    refine leftSame.proceed fun value value' reached alike => ?_
    rcases alike.cases with rfl | ⟨container, container'⟩
    · cases value with
      | bool value =>
        by_cases decided : value = decisive operator
        · simp only [if_pos decided]
          exact .some (.refl _)
        · simp only [if_neg decided]
          have onward : SameOutcome (child other) (child' other) :=
            rightSame (by rw [reached]; simpa [goesOn] using decided)
          exact onward.proceed fun _ _ _ rightAlike => .some (joinedRight_same rightAlike)
      | null => exact .some (.refl _)
      | number => exact .some (.refl _)
      | string => exact .some (.refl _)
      | array => exact .some (.refl _)
      | object => exact .some (.refl _)
    · cases container <;> cases container' <;> exact .some (.failure rfl)

theorem evaluateNode_same {nodes : List ExpressionNode}
    (read : ∀ path ∈ pathsRead nodes first depth index, (readable first path).map asComparable =
      (readable second path).map asComparable) :
    SameOutcome (evaluateNode nodes first depth index) (evaluateNode nodes second depth index) := by
  induction depth generalizing index with
  | zero =>
    cases present : nodes[index]? with
    | none =>
      rw [evaluateNode_missing present, evaluateNode_missing present]
      exact .some (.refl _)
    | some node =>
      rw [evaluateNode_zero present, evaluateNode_zero present]
      exact .none
  | succ depth ih =>
    cases present : nodes[index]? with
    | none =>
      rw [evaluateNode_missing present, evaluateNode_missing present]
      exact .some (.refl _)
    | some node =>
      rw [evaluateNode_succ present, evaluateNode_succ present]
      unfold pathsRead at read
      simp only [present] at read
      refine nodeResult_same ?_ ?_ ?_
      · rintro path rfl
        exact read path List.mem_cons_self
      · rintro operand rfl
        exact ih read
      · have both : ∀ left right, (∀ path ∈ pathsRead nodes first depth left ++
              rightPaths node (evaluateNode nodes first depth left)
                (pathsRead nodes first depth right),
            (readable first path).map asComparable =
              (readable second path).map asComparable) →
            SameOutcome (evaluateNode nodes first depth left)
                (evaluateNode nodes second depth left) ∧
              ((evaluateNode nodes first depth left).any (goesOn node) = true →
                SameOutcome (evaluateNode nodes first depth right)
                  (evaluateNode nodes second depth right)) := by
          intro left right listed
          refine ⟨ih fun path early => listed path (List.mem_append_left _ early), ?_⟩
          intro passed
          refine ih fun path late => listed path (List.mem_append_right _ ?_)
          rwa [rightPaths, if_pos passed]
        rintro left right (⟨operator, rfl⟩ | ⟨operator, rfl⟩)
        · exact both left right read
        · exact both left right read

theorem missingPath_readResult (failed : readResult state path = .failure reason) :
    readable state path = none := by
  unfold readResult at failed
  unfold readable
  cases read : ExpressionEvaluation.readPath state [] path with
  | inl value =>
    rw [read] at failed
    cases failed
  | inr missing => rfl

theorem nodeResult_missingPath {child : Nat → Outcome} {node : ExpressionNode}
    (failed : nodeResult state child node = some (.failure reason))
    (code : reason.code = .missingPath) : (∃ path, node = .path path ∧ readable state path = none) ∨
      (∃ operand, node = .not operand ∧ child operand = some (.failure reason)) ∨
      ∃ left right, ((∃ operator, node = .compare operator left right) ∨
          ∃ operator, node = .logical operator left right) ∧
        (child left = some (.failure reason) ∨
          (child left).any (goesOn node) = true ∧ child right = some (.failure reason)) := by
  have elsewhere : ∀ {claim : Prop}, reason.code = .incompatibleType → claim := by
    intro claim other
    rw [code] at other
    cases other
  cases node with
  | literal value => cases failed
  | path path => exact .inl ⟨path, rfl, missingPath_readResult (Option.some.inj failed)⟩
  | not operand =>
    rcases proceed_eq_failure.mp failed with below | ⟨value, _, here⟩
    · exact .inr (.inl ⟨operand, rfl, below⟩)
    · exact elsewhere (negated_failure (Option.some.inj here))
  | compare operator left right =>
    refine .inr (.inr ⟨left, right, .inl ⟨operator, rfl⟩, ?_⟩)
    rcases proceed_eq_failure.mp failed with below | ⟨value, reached, onward⟩
    · exact .inl below
    · rcases proceed_eq_failure.mp onward with below | ⟨value', _, here⟩
      · exact .inr ⟨by rw [reached]; rfl, below⟩
      · exact elsewhere (compared_failure (Option.some.inj here))
  | logical operator left right =>
    refine .inr (.inr ⟨left, right, .inr ⟨operator, rfl⟩, ?_⟩)
    rcases proceed_eq_failure.mp failed with below | ⟨value, reached, onward⟩
    · exact .inl below
    · cases value with
      | bool value =>
        by_cases decided : value = decisive operator
        · simp [decided] at onward
        · simp only [if_neg decided] at onward
          rcases proceed_eq_failure.mp onward with below | ⟨value', _, here⟩
          · exact .inr ⟨by rw [reached]; simpa [goesOn] using decided, below⟩
          · exact elsewhere (joinedRight_failure (Option.some.inj here))
      | null => exact elsewhere (by cases onward; rfl)
      | number => exact elsewhere (by cases onward; rfl)
      | string => exact elsewhere (by cases onward; rfl)
      | array => exact elsewhere (by cases onward; rfl)
      | object => exact elsewhere (by cases onward; rfl)

theorem evaluateNode_missingPath {nodes : List ExpressionNode}
    (failed : evaluateNode nodes state depth index = some (.failure reason))
    (code : reason.code = .missingPath) :
    ∃ path ∈ pathsRead nodes state depth index, readable state path = none := by
  induction depth generalizing index with
  | zero =>
    cases present : nodes[index]? with
    | none =>
      rw [evaluateNode_missing present] at failed
      cases failed
      cases code
    | some node =>
      rw [evaluateNode_zero present] at failed
      cases failed
  | succ depth ih =>
    cases present : nodes[index]? with
    | none =>
      rw [evaluateNode_missing present] at failed
      cases failed
      cases code
    | some node =>
      rw [evaluateNode_succ present] at failed
      unfold pathsRead
      simp only [present]
      have both : ∀ left right, (evaluateNode nodes state depth left = some (.failure reason) ∨
            (evaluateNode nodes state depth left).any (goesOn node) = true ∧
              evaluateNode nodes state depth right = some (.failure reason)) →
          ∃ path ∈ pathsRead nodes state depth left ++
              rightPaths node (evaluateNode nodes state depth left)
                (pathsRead nodes state depth right), readable state path = none := by
        rintro left right (early | ⟨passed, late⟩)
        · obtain ⟨path, listed, absent⟩ := ih early
          exact ⟨path, List.mem_append_left _ listed, absent⟩
        · obtain ⟨path, listed, absent⟩ := ih late
          refine ⟨path, List.mem_append_right _ ?_, absent⟩
          rwa [rightPaths, if_pos passed]
      rcases nodeResult_missingPath failed code with ⟨path, rfl, absent⟩ |
        ⟨operand, rfl, below⟩ | ⟨left, right, ⟨operator, rfl⟩ | ⟨operator, rfl⟩, below⟩
      · exact ⟨path, List.mem_cons_self, absent⟩
      · exact ih below
      · exact both left right below
      · exact both left right below

/-- Success with its value, or the code of the failure. -/
def decision : Evaluated Bool → Bool ⊕ EvaluationCode
  | .ok value => .inl value
  | .failure reason => .inr reason.code

/-- Entries that show the same path, the same presence and the same scalar; two containers are not
looked into. -/
def SameEntry (first second : ReferencedValue) : Prop :=
  first.path = second.path ∧ first.present = second.present ∧
    first.value.map asComparable = second.value.map asComparable

theorem SameEntry.refl (entry : ReferencedValue) : SameEntry entry entry := ⟨rfl, rfl, rfl⟩

theorem forall₂_sameEntry {first second : List ReferencedValue} (same : first = second) :
    List.Forall₂ SameEntry first second := by
  subst same
  exact List.forall₂_same.mpr fun entry _ => .refl entry

theorem rootResult_same {first second : Evaluated JsonValue} (same : SameResult first second) :
    decision (rootResult first) = decision (rootResult second) := by
  cases same with
  | failure code => exact congrArg Sum.inr code
  | ok alike =>
    rcases alike.cases with rfl | ⟨container, container'⟩
    · rfl
    · cases container <;> cases container' <;> rfl

theorem evaluateConditionWithTrace_eq_some {condition : ExpressionCondition}
    {run : TracedEvaluation} (traced : evaluateConditionWithTrace condition state = some run) :
    ∃ paths, evaluateExpressionCondition condition state = some run.evaluation ∧
      collectPaths condition.nodes condition.nodes.length condition.root = some paths ∧
      run.trace.referencedValues = paths.map (referencedValue state) := by
  obtain ⟨evaluation, evaluated, remaining⟩ := Option.bind_eq_some_iff.mp traced
  obtain ⟨paths, collected, remaining⟩ := Option.bind_eq_some_iff.mp remaining
  obtain ⟨summary, _, made⟩ := Option.bind_eq_some_iff.mp remaining
  cases made
  exact ⟨paths, evaluated, collected, rfl⟩

/-- Two runs whose traces show the same references decide alike; a missing path is one that the
trace shows as absent; and whatever the evaluation reads is in the trace. -/
theorem trace_explains_decision {condition : ExpressionCondition} {first second : JsonValue}
    {run run' : TracedEvaluation} (traced : evaluateConditionWithTrace condition first = some run)
    (traced' : evaluateConditionWithTrace condition second = some run')
    (same : List.Forall₂ SameEntry run.trace.referencedValues run'.trace.referencedValues) :
    decision run.evaluation = decision run'.evaluation ∧
      (decision run.evaluation = .inr .missingPath →
        ∃ entry ∈ run.trace.referencedValues, entry.present = false) ∧
      ∀ path ∈ pathsRead condition.nodes first condition.nodes.length condition.root,
        path ∈ run.trace.referencedValues.map ReferencedValue.path := by
  obtain ⟨paths, evaluated, collected, reported⟩ := evaluateConditionWithTrace_eq_some traced
  obtain ⟨paths', evaluated', collected', reported'⟩ := evaluateConditionWithTrace_eq_some traced'
  rw [collected] at collected'
  cases collected'
  rw [evaluateExpressionCondition_eq] at evaluated evaluated'
  obtain ⟨result, root, shown⟩ := Option.map_eq_some_iff.mp evaluated
  obtain ⟨result', root', shown'⟩ := Option.map_eq_some_iff.mp evaluated'
  rw [← shown, ← shown']
  have among := pathsRead_subset condition.nodes first collected
  have sameReads : ∀ path ∈ paths,
      (readable first path).map asComparable = (readable second path).map asComparable := by
    intro path listed
    rw [reported, reported', List.forall₂_map_left_iff, List.forall₂_map_right_iff,
      List.forall₂_same] at same
    have shownAlike := (same path listed).2.2
    simpa [referencedValue, readPath_eq] using shownAlike
  refine ⟨?_, ?_, ?_⟩
  · have outcome : SameOutcome (some result) (some result') := by
      rw [← root, ← root']
      exact evaluateNode_same fun path listed => sameReads path (among path listed)
    cases outcome with
    | some related => exact rootResult_same related
  · intro missing
    cases result with
    | ok value =>
      cases value with
      | bool value => cases missing
      | null => cases missing
      | number => cases missing
      | string => cases missing
      | array => cases missing
      | object => cases missing
    | failure reason =>
      obtain ⟨path, listed, absent⟩ := evaluateNode_missingPath root (Sum.inr.inj missing)
      refine ⟨referencedValue first path, ?_, ?_⟩
      · rw [reported]
        exact List.mem_map_of_mem (among path listed)
      · simp [referencedValue, readPath_eq, absent]
  · intro path listed
    rw [reported, List.map_map]
    exact List.mem_map.mpr ⟨path, among path listed, rfl⟩

/-- `ready && count > 3`. -/
def sampleCondition : ExpressionCondition :=
  ⟨[.path ["ready"], .path ["count"], .literal (.number (.finite 3)), .compare .gt 1 2,
    .logical .and 0 3], 4⟩

def sampleState (other : ℚ) : JsonValue :=
  .object [("ready", .bool false), ("other", .number (.finite other))]

theorem trace_explains_decision_sample :
    ∃ run run', evaluateConditionWithTrace sampleCondition (sampleState 1) = some run ∧
      evaluateConditionWithTrace sampleCondition (sampleState 2) = some run' ∧
      decision run.evaluation = decision run'.evaluation := by
  refine ⟨_, _, rfl, rfl, ?_⟩
  have traced : evaluateConditionWithTrace sampleCondition (sampleState 1) = some _ := rfl
  have traced' : evaluateConditionWithTrace sampleCondition (sampleState 2) = some _ := rfl
  exact (trace_explains_decision traced traced' (forall₂_sameEntry rfl)).1

end Heniek.AuditTrace
