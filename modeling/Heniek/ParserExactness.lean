import Heniek.DecimalText
import Heniek.ParserCompleteness
import Heniek.TokenScans

/-!
The condition parser and its grammar accept the same token sequences, and agree on the
tree. In the compiled array every node but the last is the child of one node, which
comes after it.
-/

namespace Heniek.ParserExactness
open ConditionTokens ConditionParser ConditionGrammar ParserSoundness ParserCompleteness TokenScans
open ExpressionEvaluation ScriptText FallibleRun

def children : ExpressionNode → List Nat
  | .literal _ => []
  | .path _ => []
  | .not operand => [operand]
  | .compare _ left right => [left, right]
  | .logical _ left right => [left, right]

theorem range'_size (tree : Tree) (start : Nat) :
    List.range' start tree.size = List.range' start (tree.size - 1) ++ [tree.root start] := by
  have positive := tree.size_pos
  obtain ⟨size, same⟩ : ∃ n, tree.size = n + 1 := ⟨tree.size - 1, by omega⟩
  simp [same, List.range'_concat, Tree.root]

variable {right tree tree' : Tree} {child depth : Nat} {words : List Word}

theorem children_pair {left : Tree} {start : Nat} {node : ExpressionNode}
    (operands : children node = [left.root start, right.root (start + left.size)])
    (first : ((left.compile start).flatMap children).Perm (List.range' start (left.size - 1)))
    (second :
      ((right.compile (start + left.size)).flatMap children).Perm
      (List.range' (start + left.size) (right.size - 1))) :
    ((left.compile start ++ (right.compile (start + left.size) ++ [node])).flatMap children).Perm
      (List.range' start (left.size + right.size)) := by
  rw [List.flatMap_append, List.flatMap_append, List.flatMap_singleton, operands,
    ← List.range'_append_1, range'_size left, range'_size right]
  refine (first.append (second.append_right _)).trans ?_
  rw [List.append_assoc]
  exact List.Perm.append_left _ List.perm_middle

/-- The children of all nodes are the nodes in front of the root, each once. -/
theorem children_perm (tree : Tree) (start : Nat) :
    ((tree.compile start).flatMap children).Perm (List.range' start (tree.size - 1)) := by
  induction tree generalizing start with
  | literal => simp [Tree.compile, children, Tree.size]
  | path => simp [Tree.compile, children, Tree.size]
  | not operand ih =>
    rw [Tree.compile, List.flatMap_append, Tree.size,
      Nat.add_sub_cancel, range'_size operand]
    exact (ih start).append_right _
  | compare operator left right first second =>
    exact children_pair rfl (first start) (second (start + left.size))
  | logical operator left right first second =>
    exact children_pair rfl (first start) (second (start + left.size))

theorem child_pair {left : Tree} {start i : Nat} {node last : ExpressionNode}
    (operands : children last = [left.root start, right.root (start + left.size)])
    (first : ∀ i, (left.compile start)[i]? = some node → child < start + i)
    (second : ∀ i, (right.compile (start + left.size))[i]? = some node →
      child < start + left.size + i)
    (present :
      (left.compile start ++ (right.compile (start + left.size) ++ [last]))[i]? = some node)
    (listed : child ∈ children node) : child < start + i := by
  have leftPositive := left.size_pos
  have rightPositive := right.size_pos
  by_cases early : i < left.size
  · rw [List.getElem?_append_left (by simpa using early)] at present
    exact first i present
  rw [List.getElem?_append_right (by simpa using early), Tree.length_compile] at present
  by_cases middle : i - left.size < right.size
  · rw [List.getElem?_append_left (by simpa using middle)] at present
    have below := second _ present
    omega
  rw [List.getElem?_append_right (by simpa using middle), Tree.length_compile,
    List.getElem?_singleton] at present
  split at present
  · cases present
    rw [operands] at listed
    simp [Tree.root] at listed
    omega
  · cases present

theorem child_lt (tree : Tree) {start i : Nat} {node : ExpressionNode}
    (present : (tree.compile start)[i]? = some node) (listed : child ∈ children node) :
    child < start + i := by
  induction tree generalizing start i with
  | literal value =>
    have same := List.mem_of_getElem? present
    simp [Tree.compile] at same
    simp [same, children] at listed
  | path segments =>
    have same := List.mem_of_getElem? present
    simp [Tree.compile] at same
    simp [same, children] at listed
  | not operand ih =>
    have positive := operand.size_pos
    rw [Tree.compile] at present
    by_cases early : i < operand.size
    · rw [List.getElem?_append_left (by simpa using early)] at present
      exact ih present
    · rw [List.getElem?_append_right (by simpa using early), List.getElem?_singleton] at present
      split at present
      · cases present
        simp [children, Tree.root] at listed
        omega
      · cases present
  | compare operator left right first second =>
    exact child_pair rfl (fun _ => first) (fun _ => second) present listed
  | logical operator left right first second =>
    exact child_pair rfl (fun _ => first) (fun _ => second) present listed

/-- A node array in which children come first and every node but the root has one parent. -/
structure ChildrenFirst (condition : ExpressionCondition) : Prop where
  root : condition.root + 1 = condition.nodes.length
  before : ∀ parent node, condition.nodes[parent]? = some node →
    ∀ child ∈ children node, child < parent
  parent : ∀ index < condition.root, ∃! parent : Nat, ∃ node, condition.nodes[parent]? = some node ∧
    index ∈ children node

theorem unique_position {nodes : List ExpressionNode} (once : (nodes.flatMap children).Nodup)
    {first second : Nat} {node other : ExpressionNode} (present : nodes[first]? = some node)
    (listed : child ∈ children node) (present' : nodes[second]? = some other)
    (listed' : child ∈ children other) : first = second := by
  have apart := (List.nodup_flatMap.mp once).2
  rw [List.pairwise_iff_getElem] at apart
  obtain ⟨inside, rfl⟩ := List.getElem?_eq_some_iff.mp present
  obtain ⟨inside', rfl⟩ := List.getElem?_eq_some_iff.mp present'
  rcases Nat.lt_trichotomy first second with less | same | greater
  · exact absurd listed' (apart first second inside inside' less listed)
  · exact same
  · exact absurd listed (apart second first inside' inside greater listed')

theorem childrenFirst_compile (tree : Tree) :
    ChildrenFirst ⟨tree.compile 0, tree.size - 1⟩ where
  root := by
    have positive := tree.size_pos
    simp
    omega
  before := by
    intro parent node present child listed
    simpa using child_lt tree present listed
  parent := by
    intro index below
    have perm := children_perm tree 0
    have once : ((tree.compile 0).flatMap children).Nodup :=
      perm.nodup_iff.mpr (List.nodup_range' _)
    have reached : index ∈ (tree.compile 0).flatMap children := by
      rw [perm.mem_iff, List.mem_range'_1]
      exact ⟨Nat.zero_le _, by simpa using below⟩
    obtain ⟨node, among, listed⟩ := List.mem_flatMap.mp reached
    obtain ⟨parent, present⟩ := List.mem_iff_getElem?.mp among
    refine ⟨parent, ⟨node, present, listed⟩, ?_⟩
    rintro other ⟨node', present', listed'⟩
    exact unique_position once present' listed' present listed

theorem compile_pair_inj {left left' right' : Tree} {start : Nat} {node node' : ExpressionNode}
    (operands : children node = [left.root start, right.root (start + left.size)])
    (operands' : children node' = [left'.root start, right'.root (start + left'.size)])
    (same : left.compile start ++ (right.compile (start + left.size) ++ [node]) =
      left'.compile start ++ (right'.compile (start + left'.size) ++ [node'])) :
    left.compile start = left'.compile start ∧
      right.compile (start + left.size) = right'.compile (start + left.size) ∧
      left.size = left'.size ∧ node = node' := by
  rw [← List.append_assoc, ← List.append_assoc] at same
  obtain ⟨front, rfl⟩ := List.append_inj' same rfl |>.imp_right fun last => (List.cons.inj last).1
  rw [operands] at operands'
  have roots := (List.cons.inj operands').1
  have positive := left.size_pos
  have positive' := left'.size_pos
  have sizes : left.size = left'.size := by
    unfold Tree.root at roots
    omega
  obtain ⟨first, second⟩ := List.append_inj front (by simp [sizes])
  rw [← sizes] at second
  exact ⟨first, second, sizes, rfl⟩

def rootNode : Tree → (start : Nat) → ExpressionNode
  | .literal value, _ => .literal value
  | .path segments, _ => .path segments
  | .not operand, start => .not (operand.root start)
  | .compare operator left right, start =>
    .compare operator (left.root start) (right.root (start + left.size))
  | .logical operator left right, start =>
    .logical operator (left.root start) (right.root (start + left.size))

theorem getLast?_compile (tree : Tree) (start : Nat) :
    (tree.compile start).getLast? = some (rootNode tree start) := by
  cases tree <;> simp [Tree.compile, rootNode]

theorem rootNode_eq {start : Nat} (same : tree.compile start = tree'.compile start) :
    rootNode tree start = rootNode tree' start := by
  apply Option.some.inj
  rw [← getLast?_compile, ← getLast?_compile, same]

theorem compile_inj {start : Nat} (same : tree.compile start = tree'.compile start) :
    tree = tree' := by
  induction tree generalizing tree' start with
  | literal value =>
    have roots := rootNode_eq same
    obtain rfl : tree' = .literal value := by cases tree' <;> simp_all [rootNode]
    rfl
  | path segments =>
    have roots := rootNode_eq same
    obtain rfl : tree' = .path segments := by cases tree' <;> simp_all [rootNode]
    rfl
  | not operand ih =>
    have roots := rootNode_eq same
    obtain ⟨operand', rfl⟩ : ∃ operand', tree' = .not operand' := by
      cases tree' <;> simp [rootNode] at roots ⊢
    rw [ih (List.append_inj' same rfl).1]
  | compare operator left right first second =>
    have roots := rootNode_eq same
    obtain ⟨operator', left', right', rfl⟩ : ∃ operator' left' right',
        tree' = .compare operator' left' right' := by
      cases tree' <;> simp [rootNode] at roots ⊢
    obtain ⟨front, back, _, last⟩ := compile_pair_inj rfl rfl same
    rw [first front, second back, (ExpressionNode.compare.inj last).1]
  | logical operator left right first second =>
    have roots := rootNode_eq same
    obtain ⟨operator', left', right', rfl⟩ : ∃ operator' left' right',
        tree' = .logical operator' left' right' := by
      cases tree' <;> simp [rootNode] at roots ⊢
    obtain ⟨front, back, _, last⟩ := compile_pair_inj rfl rfl same
    rw [first front, second back, (ExpressionNode.logical.inj last).1]

theorem within_mono {fewer most : Nat} (within : tree.Within fewer) (more : fewer ≤ most) :
    tree.Within most := by
  induction tree with
  | literal => exact within
  | path segments => exact Nat.le_trans within more
  | not operand ih => exact ih within
  | compare operator left right first second => exact ⟨first within.1, second within.2⟩
  | logical operator left right first second => exact ⟨first within.1, second within.2⟩

theorem derives_mono {deeper : Nat} {level : Level} (derived : Derives depth level words tree)
    (more : depth ≤ deeper) : Derives deeper level words tree := by
  induction derived generalizing deeper with
  | one _ ih => exact .one (ih more)
  | more _ kind _ first second => exact .more (first more) kind (second more)
  | single _ ih => exact .single (ih more)
  | compared _ kind named _ first second => exact .compared (first more) kind named (second more)
  | not kind _ ih => exact .not kind (ih more)
  | plain _ ih => exact .plain (ih more)
  | parenthesised opens _ closes ih =>
    obtain ⟨room, rfl⟩ : ∃ n, deeper = n + 1 := ⟨deeper - 1, by omega⟩
    exact .parenthesised opens (ih (Nat.le_of_succ_le_succ more)) closes
  | number kind => exact .number kind
  | string kind => exact .string kind
  | true kind => exact .true kind
  | false kind => exact .false kind
  | null kind => exact .null kind
  | path named segments => exact .path named segments

def FiniteNumbers (words : List Word) : Prop :=
  ∀ word ∈ words, word.kind = .number → (numberOf word.text).finite?.isSome = true

theorem finiteNumbers_append {first second : List Word} :
    FiniteNumbers (first ++ second) ↔ FiniteNumbers first ∧ FiniteNumbers second := by
  simp [FiniteNumbers, or_imp, forall_and]

theorem finiteNumbers_cons {word : Word} (other : word.kind ≠ .number) :
    FiniteNumbers (word :: words) ↔ FiniteNumbers words := by
  simp [FiniteNumbers, other]

theorem finiteNumbers_singleton {word : Word} (other : word.kind ≠ .number) :
    FiniteNumbers [word] := by
  simp [FiniteNumbers, other]

theorem finiteNumbers_dotted {pairs : List (Word × Word)}
    (segments : ∀ pair ∈ pairs, pair.1.kind = .dot ∧ pair.2.kind ∈ segmentKinds) :
    FiniteNumbers (dotted pairs) := by
  intro word listed number
  obtain ⟨pair, among, either⟩ := List.mem_flatMap.mp listed
  obtain ⟨dot, segment⟩ := segments pair among
  simp only [List.mem_cons, List.not_mem_nil, or_false] at either
  rcases either with rfl | rfl
  · rw [number] at dot
    cases dot
  · rw [number] at segment
    simp [segmentKinds] at segment

theorem finite_iff {level : Level} (derived : Derives depth level words tree) :
    FiniteNumbers words ↔ ∃ most, tree.Within most := by
  have both : ∀ {left right : Tree}, (∃ most, left.Within most) ∧ (∃ most, right.Within most) ↔
      ∃ most, left.Within most ∧ right.Within most := by
    intro left right
    constructor
    · rintro ⟨⟨first, within⟩, ⟨second, within'⟩⟩
      exact ⟨max first second, within_mono within (le_max_left _ _),
        within_mono within' (le_max_right _ _)⟩
    · rintro ⟨most, within, within'⟩
      exact ⟨⟨most, within⟩, ⟨most, within'⟩⟩
  induction derived with
  | one _ ih => exact ih
  | @more _ operator _ _ _ _ _ _ kind _ first second =>
    have other : kindOf operator ≠ .number := by cases operator <;> nofun
    rw [finiteNumbers_append, finiteNumbers_cons (by rwa [kind])]
    exact (and_congr first second).trans both
  | single _ ih => exact ih
  | compared _ kind named _ first second =>
    rw [finiteNumbers_append, finiteNumbers_cons (by rw [kind]; nofun)]
    exact (and_congr first second).trans both
  | not kind _ ih =>
    rw [finiteNumbers_cons (by rw [kind]; nofun)]
    exact ih
  | plain _ ih => exact ih
  | parenthesised opens _ closes ih =>
    rw [finiteNumbers_cons (by rw [opens]; nofun), finiteNumbers_append]
    exact (and_iff_left (finiteNumbers_singleton (by rw [closes]; nofun))).trans ih
  | number kind =>
    simp [FiniteNumbers, kind, Tree.Within, finiteScalar]
  | string kind =>
    exact iff_of_true (finiteNumbers_singleton (by rw [kind]; nofun)) ⟨0, rfl⟩
  | true kind => exact iff_of_true (finiteNumbers_singleton (by rw [kind]; nofun)) ⟨0, rfl⟩
  | false kind => exact iff_of_true (finiteNumbers_singleton (by rw [kind]; nofun)) ⟨0, rfl⟩
  | null kind => exact iff_of_true (finiteNumbers_singleton (by rw [kind]; nofun)) ⟨0, rfl⟩
  | path named segments =>
    refine iff_of_true ?_ ⟨_, Nat.le_refl _⟩
    rw [finiteNumbers_cons]
    · exact finiteNumbers_dotted segments
    · intro number
      rcases named with identifier | ⟨keyword, _⟩
      · rw [number] at identifier
        cases identifier
      · rw [number] at keyword
        simp [keywordKinds] at keyword

theorem derives_unique {depth' : Nat} (derived : Derives depth (.logical .or) words tree)
    (derived' : Derives depth' (.logical .or) words tree') (finite : FiniteNumbers words) :
    tree = tree' := by
  obtain ⟨most, within⟩ := (finite_iff derived).mp finite
  obtain ⟨most', within'⟩ := (finite_iff derived').mp finite
  let tokens : List Token := words.map fun word => ⟨word.kind, 0, word.text⟩
  have spelled : tokens.map word = words := by
    rw [List.map_map]
    exact List.map_id _
  rw [← spelled] at derived derived'
  let wide : Limits := ⟨max tree.size tree'.size, max most most'⟩
  have first : parseExpression wide (max depth depth' + 1)
      ⟨tokens ++ [⟨TokenKind.end, 0, ""⟩], []⟩ = .ok (tree.root 0, ⟨_, tree.compile 0⟩) :=
    parseExpression_complete (derives_mono derived (le_max_left depth depth')) (le_max_left _ _)
      (within_mono within (le_max_left _ _)) rfl
  have second : parseExpression wide (max depth depth' + 1)
      ⟨tokens ++ [⟨TokenKind.end, 0, ""⟩], []⟩ = .ok (tree'.root 0, ⟨_, tree'.compile 0⟩) :=
    parseExpression_complete (derives_mono derived' (le_max_right depth depth')) (le_max_right _ _)
      (within_mono within' (le_max_right _ _)) rfl
  rw [first] at second
  have nodes := (Prod.mk.inj (Except.ok.inj second)).2
  exact compile_inj (Parsing.mk.inj nodes).2

def Compiles (words : List Word) (condition : ExpressionCondition) : Prop :=
  ∃ tree : Tree, Derives maxExpressionDepth (.logical .or) words tree ∧
    tree.size ≤ limits.nodes ∧ tree.Within limits.segments ∧
    condition = ⟨tree.compile 0, tree.size - 1⟩

theorem split_end {front rest : List Token} {next : Token}
    (spelled : (front ++ next :: rest).map word = words ++ [endWord])
    (inner : ∀ word ∈ words, word.kind ≠ TokenKind.end) (ends : next.kind = TokenKind.end) :
    front.map word = words ∧ rest = [] := by
  rw [List.map_append] at spelled
  rcases List.append_eq_append_iff.mp spelled with ⟨more, rfl, last⟩ | ⟨more, same, last⟩
  · cases more with
    | nil =>
      rw [List.nil_append] at last
      exact ⟨(List.append_nil _).symm, List.map_eq_nil_iff.mp (List.cons.inj last).2⟩
    | cons first more =>
      have head := (List.cons.inj last).1
      exact absurd (by rw [← head]; exact ends) (inner first (by simp))
  · cases more with
    | nil =>
      rw [List.append_nil] at same
      exact ⟨same, List.map_eq_nil_iff.mp (List.cons.inj last).2.symm⟩
    | cons first more => simp at last

theorem parse_iff (source : String) (condition : ExpressionCondition) :
    parseConditionExpression source = .ok condition ↔
      ∃ tokens words, lexExpression source = .ok tokens ∧ tokens.map word = words ++ [endWord] ∧
        Compiles words condition := by
  constructor
  · intro parsed
    obtain ⟨tokens, lexed, remaining⟩ := bind_eq_ok.mp parsed
    obtain ⟨⟨root, state⟩, read, remaining⟩ := bind_eq_ok.mp remaining
    obtain ⟨_, ended, done⟩ := bind_eq_ok.mp remaining
    cases done
    obtain ⟨_, words, last, scans, spelled⟩ := lexExpression_eq_ok lexed
    obtain ⟨below, levels, consumed, tree, same, derived, within, nodes, rfl, bound⟩ :=
      parseExpression_sound (by decide) read
    obtain rfl : below = maxExpressionDepth := (Nat.succ_inj.mp levels).symm
    obtain ⟨token, peeked, ended⟩ := bind_eq_ok.mp ended
    obtain ⟨rest, shape⟩ := peek_eq_ok peeked
    have ends : token.kind = TokenKind.end := by
      by_contra other
      rw [if_pos other] at ended
      cases ended
    dsimp only at same nodes
    rw [same, shape] at spelled
    obtain ⟨inner, rfl⟩ := split_end spelled scans.kind_ne_end ends
    rw [inner] at derived
    rw [List.nil_append] at nodes
    refine ⟨tokens, words, lexed, by rw [same, shape]; exact spelled, tree, derived, ?_, within, ?_⟩
    · simpa [nodes] using bound
    · rw [nodes]
      simp [Tree.root]
  · rintro ⟨tokens, words, lexed, spelled, tree, derived, room, within, rfl⟩
    obtain ⟨front, ending, rfl, rfl, last⟩ := List.map_eq_append_iff.mp spelled
    obtain ⟨token, none, rfl, same, nothing⟩ := List.map_eq_cons_iff.mp last
    rw [List.map_eq_nil_iff.mp nothing] at lexed
    have ends : token.kind = TokenKind.end := congrArg Word.kind same
    have read : parseExpression limits (maxExpressionDepth + 1) ⟨front ++ [token], []⟩ = _ :=
      parseExpression_complete derived room within ends
    rw [parseConditionExpression, lexed, ok_bind, read, ok_bind]
    dsimp only
    rw [expectEnd, peek_cons, ok_bind, if_neg (not_not.mpr ends)]
    simp [Tree.root, ok_bind]

theorem childrenFirst_of_parse {source : String} {condition : ExpressionCondition}
    (parsed : parseConditionExpression source = .ok condition) : ChildrenFirst condition := by
  obtain ⟨_, _, _, _, tree, _, _, _, rfl⟩ := (parse_iff source condition).mp parsed
  exact childrenFirst_compile tree

theorem floor_le_roundHalfEven (q : ℚ) : ⌊q⌋₊ ≤ RpcCodec.roundHalfEven q := by
  unfold RpcCodec.roundHalfEven
  simp only
  split_ifs <;> omega

theorem roundBinary64_overflow {negative : Bool} {q : ℚ} (large : (2 : ℚ) ^ 1024 ≤ q) :
    RpcCodec.roundBinary64 negative q = .notFinite negative := by
  have positive : 0 < q := lt_of_lt_of_le (by positivity) large
  have log : ((1024 : Nat) : Int) ≤ Int.log 2 q := by
    rw [← Int.zpow_le_iff_le_log (by norm_num) positive, zpow_natCast]
    exact large
  have unit : RpcCodec.binary64Unit q = (2 : ℚ) ^ (Int.log 2 q - 52) := by
    rw [RpcCodec.binary64Unit, max_eq_left (by omega)]
  have above : (0 : ℚ) < RpcCodec.binary64Unit q := by
    rw [unit]
    exact zpow_pos (by norm_num) _
  have whole : (2 : ℚ) ^ 52 * RpcCodec.binary64Unit q = (2 : ℚ) ^ Int.log 2 q := by
    rw [unit, ← zpow_natCast, ← zpow_add₀ two_ne_zero]
    congr 1
    omega
  have floor : 2 ^ 52 ≤ ⌊q / RpcCodec.binary64Unit q⌋₊ := by
    refine Nat.le_floor ?_
    rw [le_div_iff₀ above, Nat.cast_pow, Nat.cast_ofNat, whole]
    exact Int.zpow_log_le_self (by norm_num) positive
  have value : (2 : ℚ) ^ 1024 ≤
      RpcCodec.roundHalfEven (q / RpcCodec.binary64Unit q) * RpcCodec.binary64Unit q := by
    calc (2 : ℚ) ^ 1024 = (2 : ℚ) ^ ((1024 : Nat) : Int) := (zpow_natCast 2 1024).symm
      _ ≤ (2 : ℚ) ^ Int.log 2 q := zpow_le_zpow_right₀ (by norm_num) log
      _ = (2 : ℚ) ^ 52 * RpcCodec.binary64Unit q := whole.symm
      _ ≤ RpcCodec.roundHalfEven (q / RpcCodec.binary64Unit q) * RpcCodec.binary64Unit q := by
          refine mul_le_mul_of_nonneg_right ?_ above.le
          exact_mod_cast floor.trans (floor_le_roundHalfEven _)
  rw [RpcCodec.roundBinary64, if_neg positive.ne']
  simp only [if_pos value]

/-- A one with 309 zeros behind it. -/
def hugeText : List Char := '1' :: List.replicate 309 '0'

theorem hugeText_digits : ∀ c ∈ hugeText, c.isDigit = true := by
  intro c listed
  rcases List.mem_cons.mp listed with rfl | zero
  · rfl
  · exact DecimalText.zeros_isDigit 309 c zero

theorem numberOf_huge : (numberOf (String.ofList hugeText)).finite? = none := by
  have taken : (hugeText ++ []).takeWhile Char.isDigit = hugeText :=
    (Lexemes.takeWhile_of_stop hugeText_digits (by simp)).1
  have dropped : (hugeText ++ []).dropWhile Char.isDigit = [] :=
    (Lexemes.takeWhile_of_stop hugeText_digits (by simp)).2
  rw [List.append_nil] at taken dropped
  have unsigned : decide (hugeText.head? = some '-') = false := by decide
  have digits : JsonSyntax.digitsValue hugeText = 10 ^ 309 := by
    have shape : hugeText = ['1'] ++ List.replicate 309 '0' := rfl
    have one : JsonSyntax.digitsValue ['1'] = 1 := by decide
    rw [shape, DecimalText.digitsValue_append, DecimalText.digitsValue_zeros, one,
      List.length_replicate, Nat.one_mul, Nat.add_zero]
  have large :
      (2 : ℚ) ^ 1024 ≤ ((10 ^ 309 : Nat) : ℚ) * (10 : ℚ) ^ (-(([] : List Char).length : Int)) := by
    have natural : 2 ^ 1024 ≤ 10 ^ 309 := by decide +kernel
    have cast : ((2 ^ 1024 : Nat) : ℚ) ≤ ((10 ^ 309 : Nat) : ℚ) := Nat.cast_le.mpr natural
    rw [Nat.cast_pow, Nat.cast_ofNat] at cast
    simpa only [List.length_nil, Nat.cast_zero, neg_zero, zpow_zero, mul_one] using cast
  unfold numberOf
  simp only [String.toList_ofList, unsigned, Bool.false_eq_true, if_false, taken, dropped]
  rw [List.drop_nil, List.append_nil, digits, RpcCodec.readNumeral, roundBinary64_overflow large]
  rfl

theorem widths_huge : widths hugeText = 310 := by
  have zeros : ∀ n, widths (List.replicate n '0') = n := by
    intro n
    have one : width '0' = 1 := rfl
    rw [widths, List.map_replicate, one, List.sum_replicate_nat, Nat.mul_one]
  rw [hugeText, widths_cons, zeros]
  rfl

/-- The paths of a tree have so many segments at most. -/
def ShortPaths (most : Nat) : Tree → Prop
  | .literal _ => True
  | .path segments => segments.length ≤ most
  | .not operand => ShortPaths most operand
  | .compare _ left right => ShortPaths most left ∧ ShortPaths most right
  | .logical _ left right => ShortPaths most left ∧ ShortPaths most right

theorem huge_lexed : ∃ tokens, lexExpression (String.ofList hugeText) = .ok tokens ∧
    tokens.map word = [⟨.number, String.ofList hugeText⟩] ++ [endWord] := by
  have made : Lexemes.Lexeme none hugeText ⟨.number, String.ofList hugeText⟩ := by
    have lexeme : Lexemes.Lexeme none ([] ++ (hugeText ++ []))
        ⟨.number, String.ofList ([] ++ (hugeText ++ []))⟩ :=
      .number (.inl rfl) ⟨List.cons_ne_nil _ _, hugeText_digits⟩ (.inl rfl)
    rwa [List.append_nil] at lexeme
  have scans : Scans [] none hugeText [⟨.number, String.ofList hugeText⟩] (some .number) := by
    have ended : Scans [] none (hugeText ++ []) [⟨.number, String.ofList hugeText⟩]
        (some .number) := .token made (by simp) (.done _)
    rwa [List.append_nil] at ended
  obtain ⟨tokens, lexed, spelled⟩ := lexFrom_of_scans scans 0
  have short : ¬ maxExpressionLength < (codeUnits (String.ofList hugeText)).length := by
    rw [length_codeUnits, String.toList_ofList, widths_huge]
    decide
  refine ⟨tokens, ?_, spelled⟩
  rw [lexExpression, if_neg short, String.toList_ofList]
  exact lexed

/-- A number token beyond the finite numbers is refused, though the grammar has it. -/
theorem huge_number_refused :
    ¬ ∀ source, (codeUnits source).length ≤ maxExpressionLength →
      ((∃ condition, parseConditionExpression source = .ok condition) ↔
        ∃ tokens words tree, lexExpression source = .ok tokens ∧
          tokens.map word = words ++ [endWord] ∧
          Derives maxExpressionDepth (.logical .or) words tree ∧ tree.size ≤ limits.nodes ∧
          ShortPaths limits.segments tree) := by
  intro claimed
  obtain ⟨tokens, lexed, spelled⟩ := huge_lexed
  have leaf : Derives maxExpressionDepth (.logical .or) [⟨.number, String.ofList hugeText⟩]
      (.literal (.number (numberOf (String.ofList hugeText)))) :=
    .one (.one (.single (.plain (.number rfl))))
  have short : (codeUnits (String.ofList hugeText)).length ≤ maxExpressionLength := by
    rw [length_codeUnits, String.toList_ofList, widths_huge]
    decide
  obtain ⟨condition, parsed⟩ := (claimed (String.ofList hugeText) short).mpr
    ⟨tokens, _, _, lexed, spelled, leaf, by decide, trivial⟩
  obtain ⟨tokens', words', lexed', spelled', tree, derived, _, within, _⟩ :=
    (parse_iff _ _).mp parsed
  rw [lexed] at lexed'
  cases lexed'
  rw [spelled] at spelled'
  rw [← List.append_cancel_right spelled'] at derived
  have finite := (finite_iff derived).mpr ⟨_, within⟩ _ List.mem_cons_self rfl
  rw [numberOf_huge] at finite
  cases finite

/-- Parsing succeeds exactly on the derivations within the limits; the array is that of the
derivation's tree, children first; and no words have another tree. -/
theorem parser_accepts_grammar (source : String) :
    (∀ condition, parseConditionExpression source = .ok condition ↔
      ∃ tokens words, lexExpression source = .ok tokens ∧ tokens.map word = words ++ [endWord] ∧
        ∃ tree : Tree, Derives maxExpressionDepth (.logical .or) words tree ∧
          tree.size ≤ limits.nodes ∧ tree.Within limits.segments ∧
          condition = ⟨tree.compile 0, tree.size - 1⟩) ∧
    (∀ condition, parseConditionExpression source = .ok condition → ChildrenFirst condition) ∧
    ∀ condition tokens words, parseConditionExpression source = .ok condition →
      lexExpression source = .ok tokens → tokens.map word = words ++ [endWord] →
      ∀ depth depth' tree tree', Derives depth (.logical .or) words tree →
        Derives depth' (.logical .or) words tree' → tree = tree' := by
  refine ⟨parse_iff source, fun condition => childrenFirst_of_parse, ?_⟩
  · intro condition tokens words parsed lexed spelled depth depth' tree tree' derived derived'
    obtain ⟨tokens', words', lexed', spelled', found, reads, _, within, _⟩ :=
      (parse_iff source condition).mp parsed
    rw [lexed] at lexed'
    cases lexed'
    rw [spelled] at spelled'
    rw [← List.append_cancel_right spelled'] at reads
    exact derives_unique derived derived' ((finite_iff reads).mpr ⟨_, within⟩)

end Heniek.ParserExactness
