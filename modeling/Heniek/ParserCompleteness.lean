import Heniek.ParserSoundness

/-!
What the grammar derives within the limits is accepted by the parser, which leaves the
tree of the derivation behind. A chain of operands joined by one operator is read from
the left, so its derivation is followed through the loop.
-/

namespace Heniek.ParserCompleteness
open ConditionTokens ConditionParser ConditionGrammar ParserSoundness ExpressionEvaluation

def continuing : Level → List TokenKind
  | .primary => [.dot]
  | .unary => [.dot]
  | .comparison => [.dot, .operator]
  | .logical .and => [.dot, .operator, .and]
  | .logical .or => [.dot, .operator, .and, .or]

theorem continuing_operand (operator : LogicalOperator) :
    kindOf operator ∉ continuing (operandLevel operator) ∧
      kindOf operator ∈ continuing (.logical operator) ∧
      ∀ kind ∈ continuing (operandLevel operator), kind ∈ continuing (.logical operator) := by
  cases operator <;> decide

section Steps

variable {limits : Limits} {nodes : List ExpressionNode} {token : Token} {rest : List Token}

theorem peek_cons : peek ⟨token :: rest, nodes⟩ = .ok token := rfl

theorem advance_cons (more : token.kind ≠ TokenKind.end) :
    advance ⟨token :: rest, nodes⟩ = ⟨rest, nodes⟩ := advance_eq rfl more

theorem emit_room {node : ExpressionNode} {tokens : List Token}
    (room : nodes.length < limits.nodes) :
    emit limits node ⟨tokens, nodes⟩ = .ok (nodes.length, ⟨tokens, nodes ++ [node]⟩) := by
  unfold emit
  rw [if_neg (Nat.not_le_of_lt room)]

theorem ok_bind {ε α β : Type} (a : α) (f : α → Except ε β) : ((.ok a : Except ε α) >>= f) = f a :=
  rfl

end Steps

/-- A level reads the words of a tree, up to a token that it would not go on with. -/
def Accepts (limits : Limits) (depth : Nat) (level : Level) (words : List Word) (tree : Tree) :
    Prop :=
  ∀ nodes tokens next rest, tokens.map word = words → next.kind ∉ continuing level →
    nodes.length + tree.size ≤ limits.nodes → tree.Within limits.segments →
    parserAt limits depth level ⟨tokens ++ next :: rest, nodes⟩ =
      .ok (tree.root nodes.length, ⟨next :: rest, nodes ++ tree.compile nodes.length⟩)

/-- The loop of a chain arrives behind the words of a tree with turns to spare. -/
def Chains (limits : Limits) (depth : Nat) (operator : LogicalOperator) (words : List Word)
    (tree : Tree) : Prop :=
  ∀ nodes tokens next rest, tokens.map word = words →
    next.kind ∉ continuing (operandLevel operator) →
    nodes.length + tree.size ≤ limits.nodes → tree.Within limits.segments →
    ∃ turns, (next :: rest).length ≤ turns ∧
      parserAt limits depth (.logical operator) ⟨tokens ++ next :: rest, nodes⟩ =
        parseRest limits (parserAt limits depth (operandLevel operator)) (kindOf operator) operator
          turns (tree.root nodes.length) ⟨next :: rest, nodes ++ tree.compile nodes.length⟩

section Levels

variable {limits : Limits} {depth : Nat} {words : List Word} {tree : Tree}
variable {operator : LogicalOperator} {sign : Word}

theorem Chains.accepts (chains : Chains limits depth operator words tree) :
    Accepts limits depth (.logical operator) words tree := by
  intro nodes tokens next rest spelled stops room within
  obtain ⟨_, itself, larger⟩ := continuing_operand operator
  obtain ⟨turns, enough, reached⟩ := chains nodes tokens next rest spelled
    (fun goes => stops (larger _ goes)) room within
  obtain ⟨turns, rfl⟩ : ∃ n, turns = n + 1 := ⟨turns - 1, by simp at enough; omega⟩
  have other : next.kind ≠ kindOf operator := by
    intro same
    rw [same] at stops
    exact stops itself
  rw [reached, parseRest, peek_cons, ok_bind, if_pos other]

theorem Accepts.chains (accepts : Accepts limits depth (operandLevel operator) words tree) :
    Chains limits depth operator words tree := by
  intro nodes tokens next rest spelled stops room within
  refine ⟨(next :: rest).length, Nat.le_refl _, ?_⟩
  rw [parserAt_logical, parseLogical, accepts nodes tokens next rest spelled stops room within,
    ok_bind]

theorem Chains.more {left right : List Word} {leftTree rightTree : Tree}
    (first : Chains limits depth operator left leftTree) (kind : sign.kind = kindOf operator)
    (second : Accepts limits depth (operandLevel operator) right rightTree) :
    Chains limits depth operator (left ++ sign :: right)
      (.logical operator leftTree rightTree) := by
  intro nodes tokens next rest spelled stops room within
  obtain ⟨leftTokens, others, rfl, rfl, joined⟩ := List.map_eq_append_iff.mp spelled
  obtain ⟨token, rightTokens, rfl, rfl, rfl⟩ := List.map_eq_cons_iff.mp joined
  have joins : token.kind = kindOf operator := kind
  have more : token.kind ≠ TokenKind.end := by
    rw [joins]
    cases operator <;> nofun
  have size : nodes.length + (leftTree.size + rightTree.size + 1) ≤ limits.nodes := room
  obtain ⟨turns, enough, reached⟩ := first nodes leftTokens token (rightTokens ++ next :: rest) rfl
    (by rw [joins]; exact (continuing_operand operator).1) (by omega) within.1
  obtain ⟨turns, rfl⟩ : ∃ n, turns = n + 1 := ⟨turns - 1, by simp at enough; omega⟩
  refine ⟨turns, by simp at enough ⊢; omega, ?_⟩
  have operand := second (nodes ++ leftTree.compile nodes.length) rightTokens next rest rfl stops
    (by simp; omega) within.2
  have emitted : (nodes ++ leftTree.compile nodes.length ++
      rightTree.compile (nodes ++ leftTree.compile nodes.length).length).length < limits.nodes := by
    simp
    omega
  rw [List.append_assoc, List.cons_append, reached, parseRest, peek_cons, ok_bind,
    if_neg (not_not.mpr joins), advance_cons more, operand, ok_bind]
  dsimp only
  rw [emit_room emitted, ok_bind]
  simp [Tree.compile]

theorem accepts_unary (accepts : Accepts limits depth .primary words tree)
    (start : ∀ first ∈ words.head?, first.kind ≠ .not) (filled : words ≠ []) :
    Accepts limits depth .unary words tree := by
  intro nodes tokens next rest spelled stops room within
  have read := accepts nodes tokens next rest spelled stops room within
  cases tokens with
  | nil => exact absurd spelled.symm filled
  | cons token tokens =>
    have other : token.kind ≠ .not := by
      refine start (word token) ?_
      rw [← spelled]
      rfl
    change parseUnary limits _ nodes (token :: (tokens ++ next :: rest)) = _
    rw [parseUnary, if_neg other]
    exact read

theorem accepts_not (kind : sign.kind = .not) (operand : Accepts limits depth .unary words tree) :
    Accepts limits depth .unary (sign :: words) (.not tree) := by
  intro nodes tokens next rest spelled stops room within
  obtain ⟨token, others, rfl, rfl, rfl⟩ := List.map_eq_cons_iff.mp spelled
  have negation : token.kind = .not := kind
  have size : nodes.length + (tree.size + 1) ≤ limits.nodes := room
  have read := operand nodes others next rest rfl stops (by omega) within
  change parseUnary limits _ nodes (token :: (others ++ next :: rest)) = _
  change parseUnary limits _ nodes (others ++ next :: rest) = _ at read
  have emitted : (nodes ++ tree.compile nodes.length).length < limits.nodes := by
    simp
    omega
  rw [parseUnary, if_pos negation, read, ok_bind]
  dsimp only
  rw [emit_room emitted]
  simp [Tree.compile]

theorem accepts_comparison (operand : Accepts limits depth .unary words tree) :
    Accepts limits depth .comparison words tree := by
  intro nodes tokens next rest spelled stops room within
  have dot : next.kind ∉ continuing .unary := fun goes => stops (by simp_all [continuing])
  have other : next.kind ≠ .operator := fun same => stops (by simp [same, continuing])
  have read := operand nodes tokens next rest spelled dot room within
  change parseComparison limits _ _ = _
  change parseUnary limits _ nodes (tokens ++ next :: rest) = _ at read
  rw [parseComparison, read, ok_bind]
  dsimp only
  rw [peek_cons, ok_bind, if_pos other]

theorem accepts_compared {left right : List Word} {leftTree rightTree : Tree}
    {operator : ComparisonOperator} (first : Accepts limits depth .unary left leftTree)
    (kind : sign.kind = .operator) (named : comparisonOperator? sign.text = some operator)
    (second : Accepts limits depth .unary right rightTree) :
    Accepts limits depth .comparison (left ++ sign :: right)
      (.compare operator leftTree rightTree) := by
  intro nodes tokens next rest spelled stops room within
  obtain ⟨leftTokens, others, rfl, rfl, joined⟩ := List.map_eq_append_iff.mp spelled
  obtain ⟨token, rightTokens, rfl, rfl, rfl⟩ := List.map_eq_cons_iff.mp joined
  have compares : token.kind = .operator := kind
  have text : comparisonOperator? token.text = some operator := named
  have dot : next.kind ∉ continuing .unary := fun goes => stops (by simp_all [continuing])
  have other : next.kind ≠ .operator := fun same => stops (by simp [same, continuing])
  have size : nodes.length + (leftTree.size + rightTree.size + 1) ≤ limits.nodes := room
  have readLeft := first nodes leftTokens token (rightTokens ++ next :: rest) rfl
    (by simp [compares, continuing]) (by omega) within.1
  have readRight := second (nodes ++ leftTree.compile nodes.length) rightTokens next rest rfl dot
    (by simp; omega) within.2
  have emitted : (nodes ++ leftTree.compile nodes.length ++
      rightTree.compile (nodes ++ leftTree.compile nodes.length).length).length < limits.nodes := by
    simp
    omega
  change parseComparison limits _ _ = _
  change parseUnary limits _ nodes (leftTokens ++ token :: (rightTokens ++ next :: rest)) = _
    at readLeft
  change parseUnary limits _ (nodes ++ leftTree.compile nodes.length)
    (rightTokens ++ next :: rest) = _ at readRight
  rw [List.append_assoc, List.cons_append, parseComparison, readLeft, ok_bind]
  dsimp only
  rw [peek_cons, ok_bind, if_neg (not_not.mpr compares), text]
  dsimp only
  rw [advance_cons (by rw [compares]; nofun), readRight, ok_bind]
  rw [peek_cons, ok_bind, if_neg other, emit_room emitted]
  simp [Tree.compile]

theorem accepts_leaf {value : JsonScalar} (more : sign.kind ≠ TokenKind.end)
    (reads : ∀ token next rest nodes, word token = sign → next.kind ≠ .dot →
      finiteScalar value = true →
        parsePrimary limits (parseExpression limits depth) ⟨token :: next :: rest, nodes⟩ =
          emit limits (.literal value) (advance ⟨token :: next :: rest, nodes⟩)) :
    Accepts limits depth .primary [sign] (.literal value) := by
  intro nodes tokens next rest spelled stops room within
  obtain ⟨token, others, rfl, rfl, none⟩ := List.map_eq_cons_iff.mp spelled
  rw [List.map_eq_nil_iff.mp none]
  have plain : next.kind ≠ .dot := fun same => stops (by simp [same, continuing])
  change parsePrimary limits _ ⟨token :: next :: rest, nodes⟩ = _
  rw [reads token next rest nodes rfl plain within, advance_cons more, emit_room room]
  simp [Tree.compile]

theorem accepts_parenthesised {opening closing : Word} (opens : opening.kind = .lparen)
    (inner : Accepts limits depth (.logical .or) words tree) (closes : closing.kind = .rparen) :
    Accepts limits (depth + 1) .primary (opening :: (words ++ [closing])) tree := by
  intro nodes tokens next rest spelled stops room within
  obtain ⟨token, others, rfl, rfl, joined⟩ := List.map_eq_cons_iff.mp spelled
  obtain ⟨inside, ending, rfl, rfl, ended⟩ := List.map_eq_append_iff.mp joined
  obtain ⟨last, none, rfl, rfl, nothing⟩ := List.map_eq_cons_iff.mp ended
  rw [List.map_eq_nil_iff.mp nothing]
  have isOpen : token.kind = .lparen := opens
  have isClosed : last.kind = .rparen := closes
  have read := inner nodes inside last (next :: rest) rfl (by simp [isClosed, continuing]) room
    within
  change parsePrimary limits (parseExpression limits (depth + 1)) _ = _
  change parseExpression limits (depth + 1) _ = _ at read
  have shape : token :: (inside ++ [last]) ++ next :: rest =
      token :: (inside ++ last :: next :: rest) := by simp
  rw [shape, parsePrimary, peek_cons, ok_bind]
  simp only [isOpen]
  rw [advance_cons (by rw [isOpen]; nofun), read, ok_bind]
  rw [peek_cons, ok_bind, if_neg (not_not.mpr isClosed), advance_cons (by rw [isClosed]; nofun)]

theorem pathSegments_pairs {next : Token} {rest : List Token} (stops : next.kind ≠ .dot)
    {segments : List String} {pairs : List (Token × Token)}
    (kinds : ∀ pair ∈ pairs, pair.1.kind = .dot ∧ pair.2.kind ∈ segmentKinds)
    (short : segments.length + pairs.length ≤ limits.segments) :
    pathSegments limits segments ((pairs.flatMap fun pair => [pair.1, pair.2]) ++ next :: rest) =
      .ok (segments ++ pairs.map (fun pair => pair.2.text), next :: rest) := by
  induction pairs generalizing segments with
  | nil =>
    cases rest with
    | nil => simp [pathSegments, stops]
    | cons => simp [pathSegments, stops]
  | cons pair pairs ih =>
    obtain ⟨dot, segment⟩ := pair
    have here := kinds (dot, segment) List.mem_cons_self
    have isDot : dot.kind = .dot := here.1
    have named : segment.kind ∈ segmentKinds := here.2
    rw [List.length_cons] at short
    have fewer : (segments ++ [segment.text]).length + pairs.length ≤ limits.segments := by
      simp
      omega
    have later := ih (fun pair listed => kinds pair (List.mem_cons_of_mem _ listed)) fewer
    rw [List.flatMap_cons, List.cons_append, List.cons_append, List.cons_append, List.cons_append,
      List.nil_append, pathSegments, if_pos isDot, if_neg (not_not.mpr named),
      if_neg (by omega), later]
    simp

theorem parsePath_accepts {token : Token} {pairs : List (Token × Token)} {next : Token}
    {rest : List Token} {nodes : List ExpressionNode} (more : token.kind ≠ TokenKind.end)
    (stops : next.kind ≠ .dot)
    (kinds : ∀ pair ∈ pairs, pair.1.kind = .dot ∧ pair.2.kind ∈ segmentKinds)
    (short : 1 + pairs.length ≤ limits.segments) (room : nodes.length < limits.nodes) :
    parsePath limits
        ⟨token :: ((pairs.flatMap fun pair => [pair.1, pair.2]) ++ next :: rest), nodes⟩ =
      .ok (nodes.length, ⟨next :: rest,
        nodes ++ [.path (token.text :: pairs.map fun pair => pair.2.text)]⟩) := by
  have read : pathSegments limits [token.text]
      ((pairs.flatMap fun pair => [pair.1, pair.2]) ++ next :: rest) =
        .ok ([token.text] ++ pairs.map (fun pair => pair.2.text), next :: rest) :=
    pathSegments_pairs stops kinds short
  rw [parsePath, peek_cons, ok_bind, advance_cons more, read, ok_bind]
  dsimp only
  rw [emit_room room]
  rfl

theorem exists_pairs {tokens : List Token} {pairs : List (Word × Word)}
    (spelled : tokens.map word = dotted pairs) :
    ∃ origins : List (Token × Token), tokens = (origins.flatMap fun pair => [pair.1, pair.2]) ∧
      pairWords origins = pairs := by
  induction pairs generalizing tokens with
  | nil => exact ⟨[], List.map_eq_nil_iff.mp spelled, rfl⟩
  | cons pair pairs ih =>
    obtain ⟨dot, others, rfl, first, spelled⟩ := List.map_eq_cons_iff.mp spelled
    obtain ⟨segment, others, rfl, second, spelled⟩ := List.map_eq_cons_iff.mp spelled
    obtain ⟨origins, rfl, same⟩ := ih spelled
    refine ⟨(dot, segment) :: origins, rfl, ?_⟩
    rw [pairWords, List.map_cons, ← pairWords, same]
    exact congrArg (· :: pairs) (Prod.ext first second)

theorem accepts_path {first : Word} {pairs : List (Word × Word)}
    (named : first.kind = .identifier ∨ first.kind ∈ keywordKinds ∧ pairs ≠ [])
    (segments : ∀ pair ∈ pairs, pair.1.kind = .dot ∧ pair.2.kind ∈ segmentKinds) :
    Accepts limits depth .primary (first :: dotted pairs)
      (.path (first.text :: pairs.map fun pair => pair.2.text)) := by
  intro nodes tokens next rest spelled stops room within
  obtain ⟨token, others, rfl, rfl, dots⟩ := List.map_eq_cons_iff.mp spelled
  obtain ⟨origins, rfl, rfl⟩ := exists_pairs dots
  have plain : next.kind ≠ .dot := fun same => stops (by simp [same, continuing])
  have kinds : ∀ pair ∈ origins, pair.1.kind = .dot ∧ pair.2.kind ∈ segmentKinds :=
    fun pair listed => segments (word pair.1, word pair.2) (List.mem_map_of_mem listed)
  have short : 1 + origins.length ≤ limits.segments := by
    have length : (((word token).text :: (pairWords origins).map fun pair => pair.2.text)).length ≤
      limits.segments := within
    simp [pairWords] at length
    omega
  have texts : ((pairWords origins).map fun pair => pair.2.text) =
      origins.map fun pair => pair.2.text := by
    simp [pairWords, word]
  have read : token.kind ≠ TokenKind.end → parsePath limits
      ⟨token :: ((origins.flatMap fun pair => [pair.1, pair.2]) ++ next :: rest), nodes⟩ = _ :=
    fun more => parsePath_accepts more plain kinds short room
  change parsePrimary limits _ ⟨token :: (_ ++ next :: rest), nodes⟩ = _
  rw [texts, parsePrimary, peek_cons, ok_bind]
  rcases named with identifier | ⟨keyword, several⟩
  · have kind : token.kind = .identifier := identifier
    simp only [kind]
    exact read (by rw [kind]; decide)
  · have dotFollows : ((token :: ((origins.flatMap fun pair => [pair.1, pair.2]) ++
        next :: rest))[1]?).any (fun next => decide (next.kind = .dot)) = true := by
      cases origins with
      | nil => exact absurd rfl several
      | cons pair origins => simp [kinds pair List.mem_cons_self]
    have kind : token.kind = .true ∨ token.kind = .false ∨ token.kind = .null := by
      simpa [keywordKinds, word] using keyword
    rcases kind with kind | kind | kind
    · simp only [kind, dotFollows]
      exact read (by rw [kind]; decide)
    · simp only [kind, dotFollows]
      exact read (by rw [kind]; decide)
    · simp only [kind, dotFollows]
      exact read (by rw [kind]; decide)

end Levels

/-- A chain is followed through its loop, every other level from its start to its end. -/
def Completes (limits : Limits) (depth : Nat) : Level → List Word → Tree → Prop
  | .logical operator, words, tree => Chains limits depth operator words tree
  | level, words, tree => Accepts limits depth level words tree

variable {depth : Nat} {words : List Word} {tree : Tree}

theorem Completes.accepts {limits : Limits} {level : Level}
    (completes : Completes limits depth level words tree) :
    Accepts limits depth level words tree := by
  cases level with
  | logical operator => exact Chains.accepts completes
  | comparison => exact completes
  | unary => exact completes
  | primary => exact completes

theorem Derives.head_primary (derived : Derives depth .primary words tree) :
    words ≠ [] ∧ ∀ first ∈ words.head?, first.kind ≠ .not := by
  cases derived with
  | parenthesised opens => exact ⟨nofun, by simp [opens]⟩
  | number kind => exact ⟨nofun, by simp [kind]⟩
  | string kind => exact ⟨nofun, by simp [kind]⟩
  | true kind => exact ⟨nofun, by simp [kind]⟩
  | false kind => exact ⟨nofun, by simp [kind]⟩
  | null kind => exact ⟨nofun, by simp [kind]⟩
  | path named =>
    refine ⟨nofun, ?_⟩
    rintro first ⟨rfl⟩ negation
    rcases named with identifier | ⟨keyword, _⟩
    · rw [identifier] at negation
      cases negation
    · rw [negation] at keyword
      simp [keywordKinds] at keyword

theorem completes_of_derives (limits : Limits) {level : Level}
    (derived : Derives depth level words tree) : Completes limits depth level words tree := by
  induction derived with
  | one _ ih => exact ih.accepts.chains
  | more _ kind _ first second => exact Chains.more first kind second.accepts
  | single _ ih => exact accepts_comparison ih
  | compared _ kind named _ first second => exact accepts_compared first kind named second
  | not kind _ ih => exact accepts_not kind ih
  | plain operand ih =>
    exact accepts_unary ih (Derives.head_primary operand).2 (Derives.head_primary operand).1
  | parenthesised opens _ closes ih => exact accepts_parenthesised opens ih.accepts closes
  | number kind =>
    refine accepts_leaf (by rw [kind]; decide) ?_
    rintro token next rest nodes rfl _ finite
    have isNumber : token.kind = .number := kind
    have present : (numberOf token.text).finite? ≠ none := Option.isSome_iff_ne_none.mp finite
    rw [parsePrimary, peek_cons, ok_bind]
    simp only [isNumber, if_neg present, word]
  | string kind =>
    refine accepts_leaf (by rw [kind]; decide) ?_
    rintro token next rest nodes rfl _ _
    have isString : token.kind = .string := kind
    rw [parsePrimary, peek_cons, ok_bind]
    simp only [isString, word]
  | true kind =>
    refine accepts_leaf (by rw [kind]; decide) ?_
    rintro token next rest nodes rfl plain _
    have isTrue : token.kind = .true := kind
    rw [parsePrimary, peek_cons, ok_bind]
    simp [isTrue, plain]
  | false kind =>
    refine accepts_leaf (by rw [kind]; decide) ?_
    rintro token next rest nodes rfl plain _
    have isFalse : token.kind = .false := kind
    rw [parsePrimary, peek_cons, ok_bind]
    simp [isFalse, plain]
  | null kind =>
    refine accepts_leaf (by rw [kind]; decide) ?_
    rintro token next rest nodes rfl plain _
    have isNull : token.kind = .null := kind
    rw [parsePrimary, peek_cons, ok_bind]
    simp [isNull, plain]
  | path named segments => exact accepts_path named segments

theorem parseExpression_complete {limits : Limits} {tokens rest : List Token} {next : Token}
    (derived : Derives depth (.logical .or) (tokens.map word) tree)
    (room : tree.size ≤ limits.nodes) (within : tree.Within limits.segments)
    (stops : next.kind = TokenKind.end) :
    parseExpression limits (depth + 1) ⟨tokens ++ next :: rest, []⟩ =
      .ok (tree.root 0, ⟨next :: rest, tree.compile 0⟩) := by
  have read := (completes_of_derives limits derived).accepts [] tokens next rest rfl
    (by simp [stops, continuing]) (by simpa using room) within
  exact read

end Heniek.ParserCompleteness
