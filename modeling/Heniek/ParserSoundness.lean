import Heniek.ConditionGrammar

/-!
What the parser accepts is derived by the grammar: each function consumes the words of one
derivation of its level and appends the nodes of its tree.
-/

namespace Heniek.ParserSoundness
open ConditionTokens ConditionParser ConditionGrammar ExpressionEvaluation FallibleRun

variable {limits : Limits} {depth : Nat} {state state' : Parsing} {index : Nat}

theorem peek_eq_ok {token : Token} (peeked : peek state = .ok token) :
    ∃ rest, state.tokens = token :: rest := by
  unfold peek at peeked
  cases tokens : state.tokens with
  | nil =>
    rw [tokens] at peeked
    cases peeked
  | cons first rest =>
    rw [tokens] at peeked
    cases peeked
    exact ⟨rest, rfl⟩

theorem advance_eq {token : Token} {rest : List Token} (tokens : state.tokens = token :: rest)
    (more : token.kind ≠ TokenKind.end) : advance state = ⟨rest, state.nodes⟩ := by
  unfold advance
  rw [tokens]
  simp only [if_neg more]

theorem emit_eq_ok {node : ExpressionNode}
    (emitted : emit limits node state = .ok (index, state')) :
    state.nodes.length < limits.nodes ∧ index = state.nodes.length ∧
      state' = ⟨state.tokens, state.nodes ++ [node]⟩ := by
  unfold emit at emitted
  by_cases full : limits.nodes ≤ state.nodes.length
  · rw [if_pos full] at emitted
    obtain ⟨token, _, impossible⟩ := bind_eq_ok.mp emitted
    cases impossible
  · rw [if_neg full] at emitted
    cases emitted
    exact ⟨Nat.lt_of_not_le full, rfl, rfl⟩

def Parsed (limits : Limits) (depth : Nat) (level : Level) (state : Parsing) (index : Nat)
    (state' : Parsing) : Prop :=
  ∃ consumed tree, state.tokens = consumed ++ state'.tokens ∧
    Derives depth level (consumed.map word) tree ∧ tree.Within limits.segments ∧
    state'.nodes = state.nodes ++ tree.compile state.nodes.length ∧
    index = tree.root state.nodes.length ∧ state'.nodes.length ≤ limits.nodes

theorem Parsed.lift {level level' : Level} {depth' : Nat}
    (parsed : Parsed limits depth level state index state')
    (rule : ∀ words tree, Derives depth level words tree → Derives depth' level' words tree) :
    Parsed limits depth' level' state index state' := by
  obtain ⟨consumed, tree, tokens, derived, remaining⟩ := parsed
  exact ⟨consumed, tree, tokens, rule _ _ derived, remaining⟩

theorem leaf_sound {token : Token} {rest : List Token} {value : JsonScalar}
    (tokens : state.tokens = token :: rest) (more : token.kind ≠ TokenKind.end)
    (derived : Derives depth .primary [word token] (.literal value))
    (finite : finiteScalar value = true)
    (emitted : emit limits (.literal value) (advance state) = .ok (index, state')) :
    Parsed limits depth .primary state index state' := by
  rw [advance_eq tokens more] at emitted
  obtain ⟨room, rfl, rfl⟩ := emit_eq_ok emitted
  refine ⟨[token], .literal value, tokens, derived, finite, rfl, rfl, ?_⟩
  simpa using Nat.succ_le_of_lt room

def pairWords (pairs : List (Token × Token)) : List (Word × Word) :=
  pairs.map fun pair => (word pair.1, word pair.2)

theorem pathSegments_sound {segments result : List String} {tokens rest : List Token}
    (read : pathSegments limits segments tokens = .ok (result, rest)) :
    ∃ pairs : List (Token × Token), tokens = (pairs.flatMap fun pair => [pair.1, pair.2]) ++ rest ∧
      (∀ pair ∈ pairs, pair.1.kind = .dot ∧ pair.2.kind ∈ segmentKinds) ∧
      result = segments ++ pairs.map (fun pair => pair.2.text) ∧
      (pairs = [] ∨ result.length ≤ limits.segments) ∧
      ∀ next ∈ rest.head?, next.kind ≠ .dot := by
  fun_induction pathSegments limits segments tokens with
  | case1 => cases read
  | case2 => cases read
  | case3 segments token other =>
    cases read
    exact ⟨[], rfl, by simp, by simp, .inl rfl, by simpa using other⟩
  | case4 => cases read
  | case5 => cases read
  | case6 segments dot segment rest' isDot named room ih =>
    obtain ⟨pairs, tokens, kinds, texts, bound, stops⟩ := ih read
    refine ⟨(dot, segment) :: pairs, by simp [tokens], ?_, by simp [texts], .inr ?_, stops⟩
    · intro pair listed
      rcases List.mem_cons.mp listed with rfl | later
      · exact ⟨isDot, not_not.mp named⟩
      · exact kinds pair later
    · rcases bound with rfl | short
      · simpa [texts] using Nat.le_of_not_lt room
      · exact short
  | case7 segments dot segment rest' other =>
    cases read
    exact ⟨[], rfl, by simp, by simp, .inl rfl, by simpa using other⟩

theorem map_word_pairs (pairs : List (Token × Token)) :
    (pairs.flatMap fun pair => [pair.1, pair.2]).map word = dotted (pairWords pairs) := by
  simp [dotted, pairWords, List.map_flatMap, List.flatMap_map]

theorem parsePath_sound {token : Token} {rest : List Token} (room : 0 < limits.segments)
    (tokens : state.tokens = token :: rest) (more : token.kind ≠ TokenKind.end)
    (named : token.kind = .identifier ∨
      token.kind ∈ keywordKinds ∧ ∃ next ∈ rest.head?, next.kind = .dot)
    (parsed : parsePath limits state = .ok (index, state')) :
    Parsed limits depth .primary state index state' := by
  obtain ⟨first, peeked, remaining⟩ := bind_eq_ok.mp parsed
  obtain ⟨rest', shape⟩ := peek_eq_ok peeked
  rw [tokens] at shape
  cases shape
  obtain ⟨⟨segments, after⟩, read, emitted⟩ := bind_eq_ok.mp remaining
  rw [advance_eq tokens more] at read
  obtain ⟨pairs, words, kinds, texts, bound, stops⟩ := pathSegments_sound read
  obtain ⟨space, rfl, rfl⟩ := emit_eq_ok emitted
  dsimp only at words texts bound stops
  refine ⟨token :: pairs.flatMap fun pair => [pair.1, pair.2], .path segments, ?_, ?_, ?_, rfl,
    rfl, ?_⟩
  · rw [tokens, words]
    rfl
  · rw [List.map_cons, map_word_pairs, texts]
    have path : Derives depth .primary (word token :: dotted (pairWords pairs))
        (.path ((word token).text :: (pairWords pairs).map fun pair => pair.2.text)) := by
      refine .path ?_ ?_
      · rcases named with identifier | ⟨keyword, next, head, isDot⟩
        · exact .inl identifier
        · refine .inr ⟨keyword, ?_⟩
          intro none
          have empty : pairs = [] := List.map_eq_nil_iff.mp none
          rw [empty] at words
          rw [words] at head
          exact stops next head isDot
      · intro pair listed
        obtain ⟨origin, among, rfl⟩ := List.mem_map.mp listed
        exact kinds origin among
    simpa [pairWords, word, Function.comp_def] using path
  · rcases bound with none | short
    · rw [none] at texts
      have single : segments.length = 1 := by simp [texts]
      change segments.length ≤ limits.segments
      omega
    · exact short
  · simpa using Nat.succ_le_of_lt space

theorem keyword_sound {token : Token} {rest : List Token} {value : JsonScalar}
    (room : 0 < limits.segments) (tokens : state.tokens = token :: rest)
    (keyword : token.kind ∈ keywordKinds)
    (derived : Derives depth .primary [word token] (.literal value))
    (finite : finiteScalar value = true)
    (parsed : (if (state.tokens[1]?).any (fun next => decide (next.kind = .dot)) then
        parsePath limits state
      else emit limits (.literal value) (advance state)) = .ok (index, state')) :
    Parsed limits depth .primary state index state' := by
  have more : token.kind ≠ TokenKind.end := by
    intro last
    rw [last] at keyword
    simp [keywordKinds] at keyword
  by_cases path : (state.tokens[1]?).any (fun next => decide (next.kind = .dot)) = true
  · rw [if_pos path] at parsed
    refine parsePath_sound room tokens more (.inr ⟨keyword, ?_⟩) parsed
    rw [tokens, List.getElem?_cons_succ, ← List.head?_eq_getElem?] at path
    cases head : rest.head? with
    | none => simp [head] at path
    | some next => exact ⟨next, rfl, by simpa [head] using path⟩
  · rw [if_neg path] at parsed
    exact leaf_sound tokens more derived finite parsed

/-- The parser of what stands in parentheses goes one level deeper. -/
def Inside (limits : Limits) (depth : Nat) (inner : Parser) : Prop :=
  ∀ state index state', inner state = .ok (index, state') →
    ∃ below, depth = below + 1 ∧ Parsed limits below (.logical .or) state index state'

section Inner

variable {inner : Parser}

theorem parsePrimary_sound (room : 0 < limits.segments) (inside : Inside limits depth inner)
    (parsed : parsePrimary limits inner state = .ok (index, state')) :
    Parsed limits depth .primary state index state' := by
  obtain ⟨token, peeked, remaining⟩ := bind_eq_ok.mp parsed
  obtain ⟨rest, tokens⟩ := peek_eq_ok peeked
  cases kind : token.kind with
  | lparen =>
    have more : token.kind ≠ TokenKind.end := by rw [kind]; nofun
    simp only [kind] at remaining
    obtain ⟨⟨root, after⟩, opened, remaining⟩ := bind_eq_ok.mp remaining
    obtain ⟨closing, last, remaining⟩ := bind_eq_ok.mp remaining
    obtain ⟨rest', closed⟩ := peek_eq_ok last
    by_cases closes : closing.kind = .rparen
    · rw [if_neg (not_not.mpr closes)] at remaining
      cases remaining
      rw [advance_eq tokens more] at opened
      obtain ⟨below, rfl, consumed, tree, words, derived, within, nodes, rfl, bound⟩ :=
        inside _ _ _ opened
      have moved : advance after = ⟨rest', after.nodes⟩ :=
        advance_eq closed (by rw [closes]; nofun)
      refine ⟨token :: (consumed ++ [closing]), tree, ?_, ?_, within, ?_, rfl, ?_⟩
      · dsimp only at words
        rw [tokens, words, closed, moved]
        simp
      · rw [List.map_cons, List.map_append]
        exact .parenthesised kind derived closes
      · rw [moved]
        exact nodes
      · rw [moved]
        exact bound
    · rw [if_pos closes] at remaining
      cases remaining
  | number =>
    have more : token.kind ≠ TokenKind.end := by rw [kind]; nofun
    simp only [kind] at remaining
    by_cases infinite : (numberOf token.text).finite? = none
    · rw [if_pos infinite] at remaining
      cases remaining
    · rw [if_neg infinite] at remaining
      refine leaf_sound tokens more (.number kind) ?_ remaining
      exact Option.isSome_iff_ne_none.mpr infinite
  | string =>
    have more : token.kind ≠ TokenKind.end := by rw [kind]; nofun
    simp only [kind] at remaining
    exact leaf_sound tokens more (.string kind) rfl remaining
  | true =>
    simp only [kind] at remaining
    exact keyword_sound room tokens (by simp [kind, keywordKinds]) (.true kind) rfl remaining
  | false =>
    simp only [kind] at remaining
    exact keyword_sound room tokens (by simp [kind, keywordKinds]) (.false kind) rfl remaining
  | null =>
    simp only [kind] at remaining
    exact keyword_sound room tokens (by simp [kind, keywordKinds]) (.null kind) rfl remaining
  | identifier =>
    simp only [kind] at remaining
    exact parsePath_sound room tokens (by rw [kind]; nofun) (.inl kind) remaining
  | dot => simp [kind] at remaining
  | operator => simp [kind] at remaining
  | and => simp [kind] at remaining
  | or => simp [kind] at remaining
  | not => simp [kind] at remaining
  | rparen => simp [kind] at remaining
  | «end» => simp [kind] at remaining

theorem parseUnary_sound (room : 0 < limits.segments) (inside : Inside limits depth inner)
    {nodes : List ExpressionNode} {tokens : List Token}
    (parsed : parseUnary limits inner nodes tokens = .ok (index, state')) :
    Parsed limits depth .unary ⟨tokens, nodes⟩ index state' := by
  induction tokens generalizing index state' with
  | nil => cases parsed
  | cons token rest ih =>
    rw [parseUnary] at parsed
    by_cases negation : token.kind = .not
    · rw [if_pos negation] at parsed
      obtain ⟨⟨operand, after⟩, read, emitted⟩ := bind_eq_ok.mp parsed
      obtain ⟨space, rfl, rfl⟩ := emit_eq_ok emitted
      obtain ⟨consumed, tree, words, derived, within, nodes', rfl, bound⟩ := ih read
      dsimp only at words nodes'
      refine ⟨token :: consumed, .not tree, by simp [words], .not negation derived, within,
        ?_, ?_, ?_⟩
      · simp [nodes', Tree.compile]
      · simp [nodes']
      · simpa using Nat.succ_le_of_lt space
    · rw [if_neg negation] at parsed
      exact (parsePrimary_sound room inside parsed).lift fun _ _ => .plain

theorem parseComparison_sound (room : 0 < limits.segments) (inside : Inside limits depth inner)
    (parsed : parseComparison limits inner state = .ok (index, state')) :
    Parsed limits depth .comparison state index state' := by
  obtain ⟨⟨left, middle⟩, read, remaining⟩ := bind_eq_ok.mp parsed
  obtain ⟨token, peeked, remaining⟩ := bind_eq_ok.mp remaining
  have first := parseUnary_sound room inside read
  by_cases single : token.kind = .operator
  · rw [if_neg (not_not.mpr single)] at remaining
    obtain ⟨rest, tokens⟩ := peek_eq_ok peeked
    cases named : comparisonOperator? token.text with
    | none =>
      rw [named] at remaining
      cases remaining
    | some operator =>
      rw [named] at remaining
      obtain ⟨⟨right, last⟩, readRight, remaining⟩ := bind_eq_ok.mp remaining
      obtain ⟨next, _, remaining⟩ := bind_eq_ok.mp remaining
      by_cases chained : next.kind = .operator
      · rw [if_pos chained] at remaining
        cases remaining
      · rw [if_neg chained] at remaining
        obtain ⟨space, rfl, rfl⟩ := emit_eq_ok remaining
        rw [advance_eq tokens (by rw [single]; nofun)] at readRight
        obtain ⟨consumed, tree, words, derived, within, nodes, rfl, _⟩ := first
        obtain ⟨consumed', tree', words', derived', within', nodes', rfl, _⟩ :=
          parseUnary_sound room inside readRight
        dsimp only at words nodes words' nodes'
        refine ⟨consumed ++ token :: consumed', .compare operator tree tree', ?_, ?_,
          ⟨within, within'⟩, ?_, ?_, ?_⟩
        · rw [words, tokens, words']
          simp
        · rw [List.map_append, List.map_cons]
          exact .compared derived single named derived'
        · simp [nodes', nodes, Tree.compile]
        · simp [nodes', nodes]
        · simpa using Nat.succ_le_of_lt space
  · rw [if_pos single] at remaining
    cases remaining
    exact first.lift fun _ _ => .single

end Inner

theorem parseRest_sound {operand : Parser} {operator : LogicalOperator} {start : Parsing}
    (operands : ∀ state index state', operand state = .ok (index, state') →
      Parsed limits depth (operandLevel operator) state index state') {turns left : Nat}
    (parsedLeft : Parsed limits depth (.logical operator) start left state)
    (parsed : parseRest limits operand (kindOf operator) operator turns left state =
      .ok (index, state')) :
    Parsed limits depth (.logical operator) start index state' := by
  induction turns generalizing left state with
  | zero => cases parsed
  | succ turns ih =>
    rw [parseRest] at parsed
    obtain ⟨token, peeked, remaining⟩ := bind_eq_ok.mp parsed
    by_cases joins : token.kind = kindOf operator
    · rw [if_neg (not_not.mpr joins)] at remaining
      obtain ⟨⟨right, last⟩, read, remaining⟩ := bind_eq_ok.mp remaining
      obtain ⟨⟨joined, after⟩, emitted, remaining⟩ := bind_eq_ok.mp remaining
      refine ih ?_ remaining
      obtain ⟨rest, tokens⟩ := peek_eq_ok peeked
      have more : token.kind ≠ TokenKind.end := by
        rw [joins]
        cases operator <;> nofun
      rw [advance_eq tokens more] at read
      obtain ⟨space, rfl, rfl⟩ := emit_eq_ok emitted
      obtain ⟨consumed, tree, words, derived, within, nodes, rfl, _⟩ := parsedLeft
      obtain ⟨consumed', tree', words', derived', within', nodes', rfl, _⟩ := operands _ _ _ read
      dsimp only at words' nodes'
      refine ⟨consumed ++ token :: consumed', .logical operator tree tree', ?_, ?_,
        ⟨within, within'⟩, ?_, ?_, ?_⟩
      · rw [words, tokens, words']
        simp
      · rw [List.map_append, List.map_cons]
        exact .more derived joins derived'
      · simp [nodes', nodes, Tree.compile]
      · simp [nodes', nodes]
      · simpa using Nat.succ_le_of_lt space
    · rw [if_pos joins] at remaining
      cases remaining
      exact parsedLeft

theorem parseLogical_sound {operand : Parser} {operator : LogicalOperator}
    (operands : ∀ state index state', operand state = .ok (index, state') →
      Parsed limits depth (operandLevel operator) state index state')
    (parsed : parseLogical limits operand (kindOf operator) operator state = .ok (index, state')) :
    Parsed limits depth (.logical operator) state index state' := by
  obtain ⟨⟨left, middle⟩, read, remaining⟩ := bind_eq_ok.mp parsed
  exact parseRest_sound operands ((operands _ _ _ read).lift fun _ _ => .one) remaining

theorem parseExpression_sound (room : 0 < limits.segments) {levels : Nat}
    (parsed : parseExpression limits levels state = .ok (index, state')) :
    ∃ below, levels = below + 1 ∧ Parsed limits below (.logical .or) state index state' := by
  induction levels generalizing state index state' with
  | zero =>
    obtain ⟨token, _, impossible⟩ := bind_eq_ok.mp parsed
    cases impossible
  | succ levels ih =>
    refine ⟨levels, rfl, ?_⟩
    refine parseLogical_sound (fun _ _ _ read => ?_) parsed
    refine parseLogical_sound (fun _ _ _ read => ?_) read
    exact parseComparison_sound room (fun _ _ _ deeper => ih deeper) read

end Heniek.ParserSoundness
