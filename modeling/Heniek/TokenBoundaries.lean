import Heniek.ParserExactness

/-!
Whitespace between tokens. A scan of a text depends on what follows only through the
character that would continue its last token; a blank continues none, and the first
character of the next token continues it only for a few pairs of tokens.
-/

namespace Heniek.TokenBoundaries
open ConditionTokens ConditionParser ConditionGrammar Lexemes TokenScans ParserExactness
open ScriptText

variable {c : Char} {last : Option TokenKind}

theorem blank_cases (blank : isBlank c = true) : c = ' ' ∨ c = '\t' ∨ c = '\n' ∨ c = '\r' := by
  have listed : c ∈ [' ', '\t', '\n', '\r'] := of_decide_eq_true blank
  simpa using listed

theorem joins_blank (word : Word) (blank : isBlank c = true) : joins word c = false := by
  have notEquals : c ≠ '=' := by rcases blank_cases blank with rfl | rfl | rfl | rfl <;> decide
  have notPoint : c ≠ '.' := by rcases blank_cases blank with rfl | rfl | rfl | rfl <;> decide
  have notDigit : c.isDigit = false := by
    rcases blank_cases blank with rfl | rfl | rfl | rfl <;> decide
  have notPart : isIdentifierPart c = false := by
    rcases blank_cases blank with rfl | rfl | rfl | rfl <;> decide
  simp [joins, goesOn, notEquals, notPoint, notDigit, notPart]

def wordLikeKinds : List TokenKind := .number :: nameKinds

/-- What the first character of a lexeme says about its word. -/
structure FirstCharacter (c : Char) (word : Word) : Prop where
  visible : isBlank c = false
  equals : c = '=' → word.kind = .operator ∧ word.text.toList.head? = some '='
  digit : c.isDigit = true → word.kind = .number
  point : c = '.' → word.kind = .dot
  part : isIdentifierPart c = true → word.kind ∈ wordLikeKinds

theorem first_of_lexeme {text : List Char} {word : Word} (made : Lexeme last text word) :
    ∃ c more, text = c :: more ∧ FirstCharacter c word := by
  cases made with
  | lparen => exact ⟨'(', [], rfl, by decide, by decide, by decide, by decide, by decide⟩
  | rparen => exact ⟨')', [], rfl, by decide, by decide, by decide, by decide, by decide⟩
  | dot => exact ⟨'.', [], rfl, by decide, by decide, by decide, by decide, by decide⟩
  | and => exact ⟨'&', ['&'], rfl, by decide, by decide, by decide, by decide, by decide⟩
  | or => exact ⟨'|', ['|'], rfl, by decide, by decide, by decide, by decide, by decide⟩
  | pair sign =>
    refine ⟨_, ['='], rfl, ?_⟩
    rcases sign with rfl | rfl | rfl | rfl
    · exact ⟨by decide, by decide, by decide, by decide, by decide⟩
    · exact ⟨by decide, by decide, by decide, by decide, by decide⟩
    · exact ⟨by decide, by decide, by decide, by decide, by decide⟩
    · exact ⟨by decide, by decide, by decide, by decide, by decide⟩
  | single sign =>
    refine ⟨_, [], rfl, ?_⟩
    rcases sign with rfl | rfl
    · exact ⟨by decide, by decide, by decide, by decide, by decide⟩
    · exact ⟨by decide, by decide, by decide, by decide, by decide⟩
  | not => exact ⟨'!', [], rfl, by decide, by decide, by decide, by decide, by decide⟩
  | @string quote body value mark inner =>
    refine ⟨quote, body ++ [quote], rfl, ?_⟩
    rcases mark with rfl | rfl
    · exact ⟨by decide, nofun, nofun, nofun, nofun⟩
    · exact ⟨by decide, nofun, nofun, nofun, nofun⟩
  | @number sign whole fraction signed digits decimals =>
    obtain ⟨c, more, rfl⟩ : ∃ c more, whole = c :: more := List.exists_cons_of_ne_nil digits.1
    have digit : c.isDigit = true := digits.2 c List.mem_cons_self
    rcases signed with rfl | ⟨rfl, _⟩
    · refine ⟨c, more ++ fraction, rfl, decide_eq_false (notMem_of_class digit (by decide)),
        fun same => ?_, fun _ => rfl, fun same => ?_, fun _ => List.mem_cons_self⟩
      · exact absurd same (ne_of_class digit rfl)
      · exact absurd same (ne_of_class digit rfl)
    · exact ⟨'-', c :: more ++ fraction, rfl, by decide, nofun, fun _ => rfl, nofun,
        fun _ => List.mem_cons_self⟩
  | @name c more start parts =>
    refine ⟨c, more, rfl, decide_eq_false (notMem_of_class start (by decide)),
      fun same => ?_, fun digit => ?_, fun same => ?_, fun _ => ?_⟩
    · exact absurd same (ne_of_class start rfl)
    · rw [isDigit_of_start start] at digit
      cases digit
    · exact absurd same (ne_of_class start rfl)
    · exact List.mem_cons_of_mem _ (keywordKind_mem _)

section Scans

variable {back back' : List Char} {last last' : Option TokenKind} {text blanks : List Char}
  {words : List Word}

theorem Scans.lexeme (scans : Scans back last text words last') :
    ∀ word ∈ words, ∃ before spelled, Lexeme before spelled word := by
  induction scans with
  | done => simp
  | blank _ _ ih => exact ih
  | token made _ _ ih =>
    intro other listed
    rcases List.mem_cons.mp listed with rfl | later
    · exact ⟨_, _, made⟩
    · exact ih other later

theorem Scans.start (scans : Scans back last text words last') :
    (text = [] ∧ words = []) ∨ (∃ c rest, text = c :: rest ∧ isBlank c = true ∧
      Scans back last rest words last') ∨
    ∃ c rest, text = c :: rest ∧ ∃ first ∈ words.head?, FirstCharacter c first := by
  cases scans with
  | done => exact .inl ⟨rfl, rfl⟩
  | blank blank rest => exact .inr (.inl ⟨_, _, rfl, blank, rest⟩)
  | token made stops rest =>
    obtain ⟨c, more, rfl, opens⟩ := first_of_lexeme made
    exact .inr (.inr ⟨c, _, rfl, _, rfl, opens⟩)

theorem Scans.of_blanks (blank : ∀ c ∈ blanks, isBlank c = true)
    (scans : Scans back last (blanks ++ text) words last') : Scans back last text words last' := by
  induction blanks with
  | nil => exact scans
  | cons c blanks ih =>
    refine ih (fun d listed => blank d (List.mem_cons_of_mem _ listed)) ?_
    rcases Scans.start scans with ⟨empty, _⟩ | ⟨d, rest, same, _, scans⟩ |
      ⟨d, rest, same, _, _, opens⟩
    · cases empty
    · cases same
      exact scans
    · cases same
      have visible := opens.visible
      rw [blank c List.mem_cons_self] at visible
      cases visible

theorem Scans.add_blanks (blank : ∀ c ∈ blanks, isBlank c = true)
    (scans : Scans back last text words last') : Scans back last (blanks ++ text) words last' := by
  induction blanks with
  | nil => exact scans
  | cons c blanks ih =>
    exact .blank (blank c List.mem_cons_self)
      (ih fun d listed => blank d (List.mem_cons_of_mem _ listed))

theorem Scans.follow (scans : Scans back last text words last')
    (stops : ∀ next ∈ back'.head?, ∀ word ∈ words.getLast?, joins word next = false) :
    Scans back' last text words last' := by
  induction scans with
  | done last => exact .done last
  | blank blank _ ih => exact .blank blank (ih stops)
  | @token last last' lexeme text word words made inner rest ih =>
    refine .token made ?_ (ih fun next head other final => ?_)
    · cases text with
      | nil =>
        rcases Scans.start rest with ⟨_, rfl⟩ | ⟨_, _, same, _⟩ | ⟨_, _, same, _⟩
        · exact fun next head => stops next head word rfl
        · cases same
        · cases same
      | cons c text => exact inner
    · refine stops next head other ?_
      rw [List.getLast?_cons, Option.mem_def.mp final]
      rfl

end Scans

/-- A place of a text that is not inside a token. -/
def Boundary (front back : List Char) : Prop := ∃ words last, Scans back none front words last

def Adjacent (front back : List Char) (first second : Word) : Prop :=
  ∃ words last words' last', Scans back none front words last ∧ Scans [] last back words' last' ∧
    first ∈ words.getLast? ∧ second ∈ words'.head?

def WordLike (word : Word) : Prop := word.kind ∈ wordLikeKinds

def JoinsOperator (first second : Word) : Prop :=
  first.kind ∈ [TokenKind.operator, .not] ∧ second.kind = .operator ∧
    first.text.toList ++ second.text.toList.take 1 ∈ comparisonOperators

/-- The dot would be read as the decimal point of the number. -/
def JoinsNumber (first second : Word) : Prop :=
  first.kind = .number ∧ '.' ∉ first.text.toList ∧ second.kind = .dot

instance (word : Word) : Decidable (WordLike word) :=
  inferInstanceAs (Decidable (word.kind ∈ wordLikeKinds))

instance (first second : Word) : Decidable (JoinsOperator first second) :=
  inferInstanceAs (Decidable (_ ∧ _))

instance (first second : Word) : Decidable (JoinsNumber first second) :=
  inferInstanceAs (Decidable (_ ∧ _))

def Separable (first second : Word) : Prop :=
  ¬ (WordLike first ∧ WordLike second) ∧ ¬ JoinsOperator first second ∧ ¬ JoinsNumber first second

theorem joins_separable {before : Option TokenKind} {spelled : List Char} {first second : Word}
    (made : Lexeme before spelled first) (opens : FirstCharacter c second)
    (separable : Separable first second) : joins first c = false := by
  obtain ⟨apart, noOperator, noNumber⟩ := separable
  have operator : ∀ sign : Char, [sign, '='] ∈ comparisonOperators →
      first.kind ∈ [TokenKind.operator, .not] → first.text = String.ofList [sign] → c ≠ '=' := by
    rintro sign pair kinds spelled rfl
    obtain ⟨kind, ends⟩ := opens.equals rfl
    obtain ⟨more, same⟩ := List.head?_eq_some_iff.mp ends
    refine noOperator ⟨kinds, kind, ?_⟩
    rw [spelled, same, String.toList_ofList]
    exact pair
  have notWord : WordLike first → isIdentifierPart c = false := by
    intro wordLike
    by_contra part
    exact apart ⟨wordLike, opens.part (by simpa using part)⟩
  cases made with
  | lparen => rfl
  | rparen => rfl
  | dot => rfl
  | and => rfl
  | or => rfl
  | pair sign => simp [joins]
  | @single sign signs =>
    have different : c ≠ '=' :=
      operator sign (by rcases signs with rfl | rfl <;> decide) List.mem_cons_self rfl
    simp [joins, different]
  | not =>
    have different : c ≠ '=' := operator '!' (by decide) (by decide) rfl
    simp [joins, different]
  | string => simp [joins, nameKinds]
  | @number sign whole fraction =>
    have notDigit : c.isDigit = false := by
      by_contra digit
      have number := opens.digit (by simpa using digit)
      exact apart ⟨List.mem_cons_self, by simp [WordLike, wordLikeKinds, number]⟩
    by_cases point : c = '.'
    · have pointed : '.' ∈ sign ++ (whole ++ fraction) := by
        by_contra plain
        refine noNumber ⟨rfl, ?_, opens.point point⟩
        rwa [String.toList_ofList]
      simp [joins, goesOn, notDigit, pointed]
    · simp [joins, goesOn, notDigit, point]
  | @name d more start parts =>
    rw [joins_name]
    exact notWord (List.mem_cons_of_mem _ (keywordKind_mem _))

def SameReading (source source' : String) : Prop :=
  ∃ tokens tokens', lexExpression source = .ok tokens ∧ lexExpression source' = .ok tokens' ∧
    tokens.map word = tokens'.map word ∧
    ∀ condition, parseConditionExpression source = .ok condition ↔
      parseConditionExpression source' = .ok condition

theorem sameReading_of_words {source source' : String} {tokens tokens' : List Token}
    (lexed : lexExpression source = .ok tokens) (lexed' : lexExpression source' = .ok tokens')
    (same : tokens.map word = tokens'.map word) : SameReading source source' := by
  refine ⟨tokens, tokens', lexed, lexed', same, fun condition => ?_⟩
  rw [parse_iff, parse_iff]
  constructor
  · rintro ⟨_, words, other, spelled, compiles⟩
    cases lexed.symm.trans other
    exact ⟨tokens', words, lexed', same ▸ spelled, compiles⟩
  · rintro ⟨_, words, other, spelled, compiles⟩
    cases lexed'.symm.trans other
    exact ⟨tokens, words, lexed, same ▸ spelled, compiles⟩

theorem sameReading_of_scans {front front' back back' : List Char} {words words' : List Word}
    {last' : Option TokenKind} (scans : Scans back none front words last)
    (scans' : Scans back' none front' words last) (rest : Scans [] last back words' last')
    (rest' : Scans [] last back' words' last')
    (short : widths (front ++ back) ≤ maxExpressionLength)
    (short' : widths (front' ++ back') ≤ maxExpressionLength) :
    SameReading (String.ofList (front ++ back)) (String.ofList (front' ++ back')) := by
  have lexes : ∀ {front back : List Char}, Scans back none front words last →
      Scans [] last back words' last' → widths (front ++ back) ≤ maxExpressionLength →
      ∃ tokens, lexExpression (String.ofList (front ++ back)) = .ok tokens ∧
        tokens.map word = words ++ (words' ++ [endWord]) := by
    intro front back scans rest short
    obtain ⟨first, spelled, lexed⟩ := lexFrom_scans scans 0
    obtain ⟨others, lexedRest, spelledRest⟩ := lexFrom_of_scans rest (0 + widths front)
    refine ⟨first ++ others, ?_, by rw [List.map_append, spelled, spelledRest]⟩
    have units : (codeUnits (String.ofList (front ++ back))).length ≤ maxExpressionLength := by
      rwa [length_codeUnits, String.toList_ofList]
    unfold lexExpression
    rw [if_neg (Nat.not_lt.mpr units), String.toList_ofList, lexed, lexedRest]
    rfl
  obtain ⟨tokens, lexed, spelled⟩ := lexes scans rest short
  obtain ⟨tokens', lexed', spelled'⟩ := lexes scans' rest' short'
  exact sameReading_of_words lexed lexed' (spelled.trans spelled'.symm)

theorem rest_of_boundary {front back : List Char} {words : List Word} {tokens : List Token}
    (scans : Scans back none front words last)
    (lexed : lexExpression (String.ofList (front ++ back)) = .ok tokens) :
    widths (front ++ back) ≤ maxExpressionLength ∧
      ∃ words' last', Scans [] last back words' last' := by
  unfold lexExpression at lexed
  rw [length_codeUnits, String.toList_ofList] at lexed
  by_cases long : maxExpressionLength < widths (front ++ back)
  · rw [if_pos long] at lexed
    cases lexed
  · rw [if_neg long] at lexed
    obtain ⟨first, _, same⟩ := lexFrom_scans scans 0
    rw [same] at lexed
    cases rest : lexFrom 0 last (0 + widths front) back with
    | error e =>
      rw [rest] at lexed
      cases lexed
    | ok others =>
      obtain ⟨words', last', scansRest, _⟩ := scans_of_lexFrom rest
      exact ⟨Nat.le_of_not_lt long, words', last', scansRest⟩

/-- Blanks may be added at every boundary, and removed between tokens that do not join. -/
theorem whitespace_insignificant (front blanks back : List Char)
    (blank : ∀ c ∈ blanks, isBlank c = true) :
    (∀ tokens, Boundary front back → lexExpression (String.ofList (front ++ back)) = .ok tokens →
      (codeUnits (String.ofList (front ++ (blanks ++ back)))).length ≤ maxExpressionLength →
      SameReading (String.ofList (front ++ back)) (String.ofList (front ++ (blanks ++ back)))) ∧
    ∀ tokens first second, Adjacent front (blanks ++ back) first second →
      lexExpression (String.ofList (front ++ (blanks ++ back))) = .ok tokens →
      Separable first second →
      SameReading (String.ofList (front ++ (blanks ++ back))) (String.ofList (front ++ back)) := by
  constructor
  · rintro tokens ⟨words, last, scans⟩ lexed short
    obtain ⟨fits, words', last', rest⟩ := rest_of_boundary scans lexed
    rw [length_codeUnits, String.toList_ofList] at short
    refine sameReading_of_scans scans ?_ rest (Scans.add_blanks blank rest) fits short
    cases blanks with
    | nil => exact scans
    | cons c blanks =>
      refine Scans.follow scans ?_
      rintro _ ⟨rfl⟩ word _
      exact joins_blank word (blank c List.mem_cons_self)
  · rintro tokens first second ⟨words, last, words', last', scans, rest, final, head⟩ lexed apart
    have fits := (rest_of_boundary scans lexed).1
    have bare := Scans.of_blanks blank rest
    have shorter : widths (front ++ back) ≤ maxExpressionLength := by
      rw [widths_append, widths_append] at fits
      rw [widths_append]
      omega
    refine sameReading_of_scans scans ?_ rest bare fits shorter
    refine Scans.follow scans fun next starts word final' => ?_
    cases Option.mem_unique final final'
    rcases Scans.start bare with ⟨_, rfl⟩ | ⟨c, tail, rfl, isBlank, _⟩ |
      ⟨c, tail, rfl, other, head', opens⟩
    · cases head
    · cases starts
      exact joins_blank first isBlank
    · cases starts
      cases Option.mem_unique head head'
      obtain ⟨before, spelled, made⟩ := Scans.lexeme scans first (List.mem_of_getLast? final)
      exact joins_separable made opens apart

theorem lexeme_digit (digit : c.isDigit = true) : Lexeme last [c] ⟨.number, String.ofList [c]⟩ := by
  have digits : Digits [c] := ⟨List.cons_ne_nil _ _, by simpa using digit⟩
  exact .number (.inl rfl) digits (.inl rfl)

theorem whitespace_insignificant_sample :
    SameReading "a<1" "a \n<1" ∧ SameReading "a \n<1" "a<1" := by
  have name : Lexeme none ['a'] ⟨.identifier, "a"⟩ := .name rfl (by simp)
  have less : Lexeme (some .identifier) ['<'] ⟨.operator, "<"⟩ := .single (.inl rfl)
  have one : Lexeme (some .operator) ['1'] ⟨.number, "1"⟩ := lexeme_digit rfl
  have rest : Scans [] (some .identifier) ['<', '1'] [⟨.operator, "<"⟩, ⟨.number, "1"⟩]
      (some .number) := .token less (stops_of_all rfl) (.token one (stops_of_all rfl) (.done _))
  have reading := whitespace_insignificant ['a'] [' ', '\n'] ['<', '1'] (List.all_eq_true.mp rfl)
  refine ⟨reading.1 _ ?_ rfl (by decide), reading.2 _ ⟨.identifier, "a"⟩ ⟨.operator, "<"⟩ ?_ rfl ?_⟩
  · exact ⟨_, _, .token name (stops_of_all rfl) (.done _)⟩
  · refine ⟨_, _, _, _, .token name (stops_of_all rfl) (.done _),
      .blank rfl (.blank rfl rest), rfl, rfl⟩
  · exact ⟨by decide, by decide, by decide⟩

/-- A number without a decimal point takes the dot behind it. -/
theorem number_takes_dot :
    ¬ ∀ (front blanks back : List Char) (tokens : List Token) (first second : Word),
      (∀ c ∈ blanks, isBlank c = true) → Adjacent front (blanks ++ back) first second →
      lexExpression (String.ofList (front ++ (blanks ++ back))) = .ok tokens →
      ¬ (WordLike first ∧ WordLike second) → ¬ JoinsOperator first second →
      SameReading (String.ofList (front ++ (blanks ++ back))) (String.ofList (front ++ back)) := by
  intro claimed
  have one : Lexeme none ['1'] ⟨.number, "1"⟩ := lexeme_digit rfl
  have point : Lexeme (some .number) ['.'] ⟨.dot, "."⟩ := .dot
  have five : Lexeme (some .dot) ['5'] ⟨.number, "5"⟩ := lexeme_digit rfl
  have adjacent : Adjacent ['1'] [' ', '.', '5'] ⟨.number, "1"⟩ ⟨.dot, "."⟩ :=
    ⟨_, _, _, _, .token one (stops_of_all rfl) (.done _),
      .blank rfl (.token point (stops_of_all rfl) (.token five (stops_of_all rfl) (.done _))), rfl,
        rfl⟩
  obtain ⟨tokens, tokens', lexed, lexed', same, _⟩ :=
    claimed ['1'] [' ']
      ['.', '5'] _ _ _ (List.all_eq_true.mp rfl) adjacent rfl (by decide) (by decide)
  have spaced : lexExpression "1 .5" =
      .ok [⟨.number, 0, "1"⟩, ⟨.dot, 2, "."⟩, ⟨.number, 3, "5"⟩, ⟨TokenKind.end, 4, ""⟩] := rfl
  have joined : lexExpression "1.5" = .ok [⟨.number, 0, "1.5"⟩, ⟨TokenKind.end, 3, ""⟩] := rfl
  cases lexed.symm.trans spaced
  cases lexed'.symm.trans joined
  exact absurd same (by decide)

end Heniek.TokenBoundaries
