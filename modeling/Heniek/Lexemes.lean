import Heniek.ConditionGrammar
import Mathlib.Data.List.TakeWhile

/-!
The lexical grammar of conditions: which characters make which word, and which character
a word would go on with. The scanner takes exactly the lexeme that the next character
does not continue.
-/

namespace Heniek.Lexemes
open ConditionTokens ConditionGrammar FallibleRun

/-- The characters between the quotes of a string, and what they stand for. -/
inductive Body (quote : Char) : (body value : List Char) → Prop
  | nil : Body quote [] []
  | escape {escaped : Char} {body value : List Char} (known : escaped = quote ∨ escaped = '\\')
      (rest : Body quote body value) : Body quote ('\\' :: escaped :: body) (escaped :: value)
  | plain {c : Char} {body value : List Char} (notEscape : c ≠ '\\') (notQuote : c ≠ quote)
      (inLine : c ≠ '\n' ∧ c ≠ '\r') (rest : Body quote body value) :
      Body quote (c :: body) (c :: value)

def Digits (text : List Char) : Prop := text ≠ [] ∧ ∀ c ∈ text, c.isDigit = true

inductive Lexeme (last : Option TokenKind) : (text : List Char) → Word → Prop
  | lparen : Lexeme last ['('] ⟨.lparen, String.ofList ['(']⟩
  | rparen : Lexeme last [')'] ⟨.rparen, String.ofList [')']⟩
  | dot : Lexeme last ['.'] ⟨.dot, String.ofList ['.']⟩
  | and : Lexeme last ['&', '&'] ⟨.and, String.ofList ['&', '&']⟩
  | or : Lexeme last ['|', '|'] ⟨.or, String.ofList ['|', '|']⟩
  | pair {c : Char} (sign : c = '=' ∨ c = '!' ∨ c = '<' ∨ c = '>') :
      Lexeme last [c, '='] ⟨.operator, String.ofList [c, '=']⟩
  | single {c : Char} (sign : c = '<' ∨ c = '>') : Lexeme last [c] ⟨.operator, String.ofList [c]⟩
  | not : Lexeme last ['!'] ⟨.not, String.ofList ['!']⟩
  | string {quote : Char} {body value : List Char} (mark : quote = '"' ∨ quote = '\'')
      (inner : Body quote body value) :
      Lexeme last (quote :: (body ++ [quote])) ⟨.string, String.ofList value⟩
  | number {sign whole fraction : List Char}
      (signed : sign = [] ∨ sign = ['-'] ∧ endsValue last = false) (digits : Digits whole)
      (decimals : fraction = [] ∨ ∃ digits, Digits digits ∧ fraction = '.' :: digits) :
      Lexeme last (sign ++ (whole ++ fraction))
        ⟨.number, String.ofList (sign ++ (whole ++ fraction))⟩
  | name {c : Char} {more : List Char} (start : isIdentifierStart c = true)
      (parts : ∀ d ∈ more, isIdentifierPart d = true) :
      Lexeme last (c :: more) ⟨keywordKind (c :: more), String.ofList (c :: more)⟩

def nameKinds : List TokenKind := [.identifier, .true, .false, .null]

def goesOn (text : List Char) (next : Char) : Bool :=
  next.isDigit || (decide (next = '.') && decide ('.' ∉ text))

/-- The character would make the word longer, or spoil it. -/
def joins (word : Word) (next : Char) : Bool :=
  if word.kind = .operator then decide (word.text.toList.length = 1) && decide (next = '=')
  else if word.kind = .not then decide (next = '=')
  else if word.kind = .number then goesOn word.text.toList next
  else decide (word.kind ∈ nameKinds) && isIdentifierPart next

theorem keywordKind_mem (text : List Char) : keywordKind text ∈ nameKinds := by
  unfold keywordKind
  split_ifs <;> decide

theorem joins_name (text : List Char) (spelled : String) (next : Char) :
    joins ⟨keywordKind text, spelled⟩ next = isIdentifierPart next := by
  have named := keywordKind_mem text
  have other : keywordKind text ≠ .operator ∧ keywordKind text ≠ .not ∧
      keywordKind text ≠ .number := by
    refine ⟨?_, ?_, ?_⟩ <;> intro same <;> rw [same] at named <;> simp [nameKinds] at named
  simp [joins, other, named]

theorem joins_number {last : Option TokenKind} {sign text : List Char}
    (signed : sign = [] ∨ sign = ['-'] ∧ endsValue last = false) (next : Char) :
    joins ⟨.number, String.ofList (sign ++ text)⟩ next = goesOn text next := by
  rcases signed with rfl | ⟨rfl, _⟩ <;> simp [joins, goesOn]

theorem Lexeme.kind_ne_end {last : Option TokenKind} {text : List Char} {word : Word}
    (lexeme : Lexeme last text word) : word.kind ≠ TokenKind.end := by
  cases lexeme with
  | @name c more =>
    intro same
    have named := keywordKind_mem (c :: more)
    dsimp only at same
    rw [same] at named
    simp [nameKinds] at named
  | _ => nofun

theorem ne_of_class {p : Char → Bool} {c d : Char} (holds : p c = true) (fails : p d = false) :
    c ≠ d := by
  rintro rfl
  rw [holds] at fails
  cases fails

section Strings

variable {quote : Char} {start offset : Nat}

theorem scanString_sound {text value : List Char} {count : Nat}
    (scanned : scanString quote start offset text = .ok (value, count)) :
    ∃ body tail, text = body ++ quote :: tail ∧
      count = body.length + 1 ∧ Body quote body value := by
  fun_induction scanString quote start offset text generalizing value count with
  | case1 => cases scanned
  | case2 => cases scanned
  | case3 => cases scanned
  | case4 offset escaped rest known ih =>
    obtain ⟨⟨inner, counted⟩, read, done⟩ := bind_eq_ok.mp scanned
    cases done
    obtain ⟨body, tail, rfl, rfl, inside⟩ := ih read
    have either : escaped = quote ∨ escaped = '\\' := by
      by_contra neither
      exact known (not_or.mp neither)
    exact ⟨'\\' :: escaped :: body, tail, rfl, rfl, .escape either inside⟩
  | case5 offset rest notEscape =>
    cases scanned
    exact ⟨[], rest, rfl, rfl, .nil⟩
  | case6 => cases scanned
  | case7 offset inner rest notEscape notQuote inLine ih =>
    obtain ⟨⟨inner', counted⟩, read, done⟩ := bind_eq_ok.mp scanned
    cases done
    obtain ⟨body, tail, rfl, rfl, inside⟩ := ih read
    exact ⟨inner :: body, tail, rfl, rfl, .plain notEscape notQuote (not_or.mp inLine) inside⟩

theorem scanString_complete {body value : List Char} (inner : Body quote body value)
    (mark : quote ≠ '\\') (tail : List Char) :
    scanString quote start offset (body ++ quote :: tail) = .ok (value, body.length + 1) := by
  induction inner generalizing offset with
  | nil =>
    rw [List.nil_append]
    unfold scanString
    rw [if_neg mark, if_pos rfl]
    rfl
  | escape known _ ih =>
    rw [List.cons_append, List.cons_append, scanString, if_pos rfl]
    rw [if_neg (by tauto), ih]
    rfl
  | plain notEscape notQuote inLine _ ih =>
    rw [List.cons_append]
    unfold scanString
    rw [if_neg notEscape, if_neg notQuote, if_neg (not_or.mpr inLine), ih]
    rfl

end Strings

section Numbers

variable {text : List Char}

theorem head?_dropWhile {p : Char → Bool} : ∀ c ∈ (text.dropWhile p).head?, p c = false := by
  induction text with
  | nil => simp
  | cons d text ih =>
    by_cases holds : p d = true
    · rw [List.dropWhile_cons_of_pos holds]
      exact ih
    · rw [List.dropWhile_cons_of_neg holds]
      simpa using holds

theorem dot_notMem {digits : List Char} (each : ∀ c ∈ digits, c.isDigit = true) : '.' ∉ digits :=
  fun listed => absurd (each '.' listed) (by decide)

theorem scanNumber_sound {offset : Nat} {result : List Char}
    (starts : text.head?.any Char.isDigit = true) (scanned : scanNumber offset text = .ok result) :
    ∃ whole fraction tail, result = whole ++ fraction ∧ text = result ++ tail ∧ Digits whole ∧
      (fraction = [] ∨ ∃ digits, Digits digits ∧ fraction = '.' :: digits) ∧
      ∀ next ∈ tail.head?, goesOn result next = false := by
  have split := List.takeWhile_append_dropWhile (p := Char.isDigit) (l := text)
  have each : ∀ c ∈ text.takeWhile Char.isDigit, c.isDigit = true := fun c => List.mem_takeWhile_imp
  have digits : Digits (text.takeWhile Char.isDigit) := by
    refine ⟨?_, each⟩
    cases text with
    | nil => cases starts
    | cons c text =>
      rw [List.takeWhile_cons_of_pos (by simpa using starts)]
      nofun
  have stops : ∀ c ∈ (text.dropWhile Char.isDigit).head?, c.isDigit = false := head?_dropWhile
  unfold scanNumber at scanned
  cases after : text.dropWhile Char.isDigit with
  | nil =>
    rw [after] at scanned split
    cases scanned
    exact ⟨_, [], [], (List.append_nil _).symm, split.symm, digits, .inl rfl, by simp⟩
  | cons c rest =>
    rw [after] at scanned split stops
    simp only at scanned
    have notDigit : c.isDigit = false := stops c rfl
    by_cases point : c = '.'
    · subst point
      by_cases none : rest.takeWhile Char.isDigit = []
      · rw [if_pos none] at scanned
        cases scanned
      · rw [if_neg none] at scanned
        cases scanned
        have inner : ∀ c ∈ rest.takeWhile Char.isDigit, c.isDigit = true :=
          fun c => List.mem_takeWhile_imp
        refine ⟨_, '.' :: rest.takeWhile Char.isDigit, rest.dropWhile Char.isDigit, rfl, ?_, digits,
          .inr ⟨_, ⟨none, inner⟩, rfl⟩, ?_⟩
        · rw [List.append_assoc, List.cons_append, List.takeWhile_append_dropWhile]
          exact split.symm
        · intro next head
          have other := head?_dropWhile next head
          simp [goesOn, other]
    · rw [if_neg point] at scanned
      cases scanned
      refine ⟨_, [], c :: rest, (List.append_nil _).symm, split.symm, digits, .inl rfl, ?_⟩
      simp [goesOn, notDigit, point]

theorem takeWhile_of_stop {p : Char → Bool} {tail : List Char} (each : ∀ c ∈ text, p c = true)
    (stops : ∀ c ∈ tail.head?, p c = false) :
    (text ++ tail).takeWhile p = text ∧ (text ++ tail).dropWhile p = tail := by
  rw [List.takeWhile_append_of_pos each, List.dropWhile_append_of_pos each]
  cases tail with
  | nil => simp
  | cons c tail => simp [stops c rfl]

theorem scanNumber_complete {offset : Nat} {whole fraction tail : List Char}
    (digits : Digits whole)
    (decimals : fraction = [] ∨ ∃ digits, Digits digits ∧ fraction = '.' :: digits)
    (stops : ∀ next ∈ tail.head?, goesOn (whole ++ fraction) next = false) :
    scanNumber offset (whole ++ (fraction ++ tail)) = .ok (whole ++ fraction) := by
  unfold scanNumber
  rcases decimals with rfl | ⟨places, inner, rfl⟩
  · have ends : ∀ c ∈ tail.head?, c.isDigit = false := by
      intro c head
      have other := stops c head
      simp [goesOn] at other
      exact other.1
    rw [List.nil_append, (takeWhile_of_stop digits.2 ends).1, (takeWhile_of_stop digits.2 ends).2,
      List.append_nil]
    cases tail with
    | nil => rfl
    | cons c rest =>
      have notPoint : c ≠ '.' := by
        rintro rfl
        have other := stops '.' rfl
        simp [goesOn, dot_notMem digits.2] at other
      simp only [if_neg notPoint]
  · have point : ∀ c ∈ ('.' :: (places ++ tail)).head?, c.isDigit = false := by
      rintro c ⟨rfl⟩
      decide
    have ends : ∀ c ∈ tail.head?, c.isDigit = false := by
      intro c head
      have other := stops c head
      simp [goesOn] at other
      exact other
    rw [List.cons_append, (takeWhile_of_stop digits.2 point).1,
      (takeWhile_of_stop digits.2 point).2]
    simp only [if_true, (takeWhile_of_stop inner.2 ends).1, if_neg inner.1]

end Numbers

section Tokens

variable {last : Option TokenKind} {start : Nat} {c : Char} {rest : List Char}

/-- A scanned token is a lexeme in front of a character that does not continue it. -/
def Takes (last : Option TokenKind) (start : Nat) (text : List Char) (token : Token)
    (count : Nat) : Prop :=
  ∃ lexeme tail, text = lexeme ++ tail ∧ count = lexeme.length ∧ token.offset = start ∧
    Lexeme last lexeme (word token) ∧ ∀ next ∈ tail.head?, joins (word token) next = false

variable {tail : List Char} {token : Token} {count : Nat} {c : Char}

theorem takes_plain {kind : TokenKind} {lexeme text : List Char} (split : text = lexeme ++ tail)
    (made : Lexeme last lexeme ⟨kind, String.ofList lexeme⟩)
    (stops : ∀ next ∈ tail.head?, joins ⟨kind, String.ofList lexeme⟩ next = false) :
    Takes last start text (plain kind start lexeme).1 (plain kind start lexeme).2 :=
  ⟨lexeme, tail, split, rfl, rfl, made, stops⟩

theorem pair_sound (sign : c = '=' ∨ c = '!' ∨ c = '<' ∨ c = '>')
    (lexed : (if c :: rest.take 1 ∈ comparisonOperators then
          .ok (plain .operator start (c :: rest.take 1))
        else if c = '!' then .ok (plain .not start [c])
        else if c = '=' then
          .error ⟨"Unsupported operator \"=\" — use \"==\" to compare.", start⟩
        else .ok (plain .operator start [c]) : Except LexError (Token × Nat)) =
      .ok (token, count)) :
    Takes last start (c :: rest) token count := by
  have single : ∀ kind, rest.head? ≠ some '=' → (kind = .not ∨ kind = .operator) →
      ∀ next ∈ rest.head?, joins ⟨kind, String.ofList [c]⟩ next = false := by
    intro kind other either next head
    have different : next ≠ '=' := by
      rintro rfl
      exact other head
    rcases either with rfl | rfl <;> simp [joins, different]
  cases rest with
  | nil =>
    rcases sign with rfl | rfl | rfl | rfl
    · simp [comparisonOperators] at lexed
    · cases lexed
      exact takes_plain rfl .not (by simp)
    · cases lexed
      exact takes_plain rfl (.single (.inl rfl)) (by simp)
    · cases lexed
      exact takes_plain rfl (.single (.inr rfl)) (by simp)
  | cons d rest =>
    by_cases equals : d = '='
    · subst equals
      have shape : c :: ('=' :: rest).take 1 = [c, '='] := by simp
      have made : [c, '='] ∈ comparisonOperators := by
        rcases sign with rfl | rfl | rfl | rfl <;> decide
      rw [shape, if_pos made] at lexed
      cases lexed
      exact takes_plain rfl (.pair sign) (by simp [joins])
    · have unpaired : c :: (d :: rest).take 1 ∉ comparisonOperators := by
        simp [comparisonOperators, equals]
      have alone : (d :: rest).head? ≠ some '=' := by simpa using equals
      rw [if_neg unpaired] at lexed
      rcases sign with rfl | rfl | rfl | rfl
      · cases lexed
      · cases lexed
        exact takes_plain rfl .not (single .not alone (.inl rfl))
      · cases lexed
        exact takes_plain rfl (.single (.inl rfl)) (single .operator alone (.inr rfl))
      · cases lexed
        exact takes_plain rfl (.single (.inr rfl)) (single .operator alone (.inr rfl))

theorem number_sound {sign text : List Char} {offset : Nat}
    (signed : sign = [] ∨ sign = ['-'] ∧ endsValue last = false)
    (starts : text.head?.any Char.isDigit = true)
    (lexed : (scanNumber offset text >>= fun result => .ok (plain .number start (sign ++ result))) =
      .ok (token, count)) :
    Takes last start (sign ++ text) token count := by
  obtain ⟨result, scanned, done⟩ := bind_eq_ok.mp lexed
  cases done
  obtain ⟨whole, fraction, tail, rfl, rfl, digits, decimals, stops⟩ :=
    scanNumber_sound starts scanned
  refine takes_plain (List.append_assoc _ _ _).symm (.number signed digits decimals) ?_
  intro next head
  rw [joins_number signed]
  exact stops next head

theorem name_sound (letter : isIdentifierStart c = true)
    (lexed : (.ok (plain (keywordKind (c :: rest.takeWhile isIdentifierPart)) start
        (c :: rest.takeWhile isIdentifierPart)) : Except LexError (Token × Nat)) =
      .ok (token, count)) :
    Takes last start (c :: rest) token count := by
  cases lexed
  have split : c :: rest =
      c :: rest.takeWhile isIdentifierPart ++ rest.dropWhile isIdentifierPart := by
    rw [List.cons_append, List.takeWhile_append_dropWhile]
  refine takes_plain split (.name letter fun d listed => ?_) ?_
  · exact List.mem_takeWhile_imp listed
  · intro next head
    rw [joins_name]
    exact head?_dropWhile next head

theorem nextToken_sound (lexed : nextToken last start c rest = .ok (token, count)) :
    Takes last start (c :: rest) token count := by
  unfold nextToken at lexed
  by_cases lparen : c = '('
  · subst lparen
    cases lexed
    exact takes_plain rfl .lparen (by simp [joins, nameKinds])
  rw [if_neg lparen] at lexed
  by_cases rparen : c = ')'
  · subst rparen
    cases lexed
    exact takes_plain rfl .rparen (by simp [joins, nameKinds])
  rw [if_neg rparen] at lexed
  by_cases dot : c = '.'
  · subst dot
    cases lexed
    exact takes_plain rfl .dot (by simp [joins, nameKinds])
  rw [if_neg dot] at lexed
  by_cases connective : c = '&' ∨ c = '|'
  · rw [if_pos connective] at lexed
    by_cases doubled : rest.head? = some c
    · obtain ⟨tail, rfl⟩ : ∃ tail, rest = c :: tail := by
        cases rest with
        | nil => cases doubled
        | cons d tail =>
          cases doubled
          exact ⟨tail, rfl⟩
      rcases connective with rfl | rfl
      · cases lexed
        exact takes_plain rfl .and (by simp [joins, nameKinds])
      · cases lexed
        exact takes_plain rfl .or (by simp [joins, nameKinds])
    · rw [if_neg doubled] at lexed
      cases lexed
  rw [if_neg connective] at lexed
  by_cases comparison : c = '=' ∨ c = '!' ∨ c = '<' ∨ c = '>'
  · rw [if_pos comparison] at lexed
    exact pair_sound comparison lexed
  rw [if_neg comparison] at lexed
  by_cases quotation : c = '"' ∨ c = '\''
  · rw [if_pos quotation] at lexed
    obtain ⟨⟨value, counted⟩, scanned, done⟩ := bind_eq_ok.mp lexed
    cases done
    obtain ⟨body, tail, rfl, rfl, inner⟩ := scanString_sound scanned
    exact ⟨c :: (body ++ [c]), tail, by simp, by simp, rfl, .string quotation inner,
      by simp [joins, word, nameKinds]⟩
  rw [if_neg quotation] at lexed
  by_cases refused : c ∈ arithmeticCharacters ∧
      ¬ (c = '-' ∧ rest.head?.any Char.isDigit = true ∧ endsValue last = false)
  · rw [if_pos refused] at lexed
    cases lexed
  rw [if_neg refused] at lexed
  by_cases minus : c = '-'
  · subst minus
    have allowed : rest.head?.any Char.isDigit = true ∧ endsValue last = false := by
      by_contra denied
      exact refused ⟨by decide, fun all => denied all.2⟩
    have signed : ['-'] = [] ∨ ['-'] = ['-'] ∧ endsValue last = false := .inr ⟨rfl, allowed.2⟩
    exact number_sound signed allowed.1 lexed
  rw [if_neg minus] at lexed
  by_cases digit : c.isDigit = true
  · rw [if_pos digit] at lexed
    have unsigned : ([] : List Char) = [] ∨ ([] : List Char) = ['-'] ∧ endsValue last = false :=
      .inl rfl
    exact number_sound unsigned (by simpa using digit) lexed
  rw [if_neg digit] at lexed
  by_cases letter : isIdentifierStart c = true
  · rw [if_pos letter] at lexed
    exact name_sound letter lexed
  · rw [if_neg letter] at lexed
    cases lexed

/-- The characters that the scanner asks for one by one. -/
def marks : List Char :=
  ['(', ')', '.', '&', '|', '=', '!', '<', '>', '"', '\'', '+', '-', '*', '/', '%']

theorem nextToken_unmarked {rest : List Char} (unmarked : c ∉ marks) : nextToken last start c rest =
      if c.isDigit then
        scanNumber start (c :: rest) >>= fun text => .ok (plain .number start text)
      else if isIdentifierStart c then
        .ok (plain (keywordKind (c :: rest.takeWhile isIdentifierPart)) start
          (c :: rest.takeWhile isIdentifierPart))
      else .error ⟨"Unexpected character \"" ++ shown c ++ "\" in condition.", start⟩ := by
  simp only [marks, List.mem_cons, List.not_mem_nil, not_or] at unmarked
  obtain ⟨lparen, rparen, dot, ampersand, bar, equals, bang, less, greater, double, single, plus,
    minus, star, slash, percent⟩ := unmarked
  have noSign : c ∉ arithmeticCharacters := by
    simp [arithmeticCharacters, plus, minus, star, slash, percent]
  unfold nextToken
  rw [if_neg lparen, if_neg rparen, if_neg dot, if_neg (not_or.mpr ⟨ampersand, bar⟩),
    if_neg (by simp [equals, bang, less, greater]), if_neg (not_or.mpr ⟨double, single⟩),
    if_neg (fun both => noSign both.1), if_neg minus]

theorem notMem_of_class {p : Char → Bool} {others : List Char} (holds : p c = true)
    (fail : others.any p = false) : c ∉ others :=
  fun listed => List.any_eq_false.mp fail c listed holds

theorem isDigit_of_start (letter : isIdentifierStart c = true) : c.isDigit = false := by
  rcases Bool.or_eq_true_iff.mp letter with alpha | underscore
  · change (decide ('A'.val ≤ c.val ∧ c.val ≤ 'Z'.val) ||
      decide ('a'.val ≤ c.val) && decide (c.val ≤ 'z'.val)) = true at alpha
    simp only [Bool.or_eq_true, Bool.and_eq_true, decide_eq_true_eq,
      UInt32.le_iff_toNat_le] at alpha
    simp only [Char.isDigit, Bool.and_eq_false_iff, decide_eq_false_iff_not, UInt32.le_iff_toNat_le]
    have upper : 'A'.val.toNat = 65 ∧ 'a'.val.toNat = 97 ∧ '9'.val.toNat = 57 := by decide
    omega
  · rw [beq_iff_eq.mp underscore]
    decide

def Scanned (last : Option TokenKind) (lexeme : List Char)
    (word : Word) (tail : List Char) : Prop :=
  ∃ c more, lexeme = c :: more ∧ isBlank c = false ∧ ∀ start,
    nextToken last start c (more ++ tail) = .ok (⟨word.kind, start, word.text⟩, more.length + 1)

theorem single_scanned {kind : TokenKind}
    (sign : c = '!' ∧ kind = .not ∨ (c = '<' ∨ c = '>') ∧ kind = .operator)
    (stops : ∀ next ∈ tail.head?, joins ⟨kind, String.ofList [c]⟩ next = false) :
    Scanned last [c] ⟨kind, String.ofList [c]⟩ tail := by
  refine ⟨c, [], rfl, by rcases sign with ⟨rfl, _⟩ | ⟨rfl | rfl, _⟩ <;> decide, fun start => ?_⟩
  unfold nextToken
  cases tail with
  | nil => rcases sign with ⟨rfl, rfl⟩ | ⟨rfl | rfl, rfl⟩ <;> rfl
  | cons d tail =>
    have different : d ≠ '=' := by
      rintro rfl
      have other := stops '=' rfl
      rcases sign with ⟨rfl, rfl⟩ | ⟨rfl | rfl, rfl⟩ <;> simp [joins] at other
    rcases sign with ⟨rfl, rfl⟩ | ⟨rfl | rfl, rfl⟩ <;>
      simp [plain, comparisonOperators, different]

theorem number_scanned {sign whole fraction : List Char}
    (signed : sign = [] ∨ sign = ['-'] ∧ endsValue last = false) (digits : Digits whole)
    (decimals : fraction = [] ∨ ∃ digits, Digits digits ∧ fraction = '.' :: digits)
    (stops : ∀ next ∈ tail.head?, goesOn (whole ++ fraction) next = false) :
    Scanned last (sign ++ (whole ++ fraction))
      ⟨.number, String.ofList (sign ++ (whole ++ fraction))⟩ tail := by
  have scanned :
      ∀ offset, scanNumber offset (whole ++ fraction ++ tail) = .ok (whole ++ fraction) := by
    intro offset
    rw [List.append_assoc]
    exact scanNumber_complete digits decimals stops
  obtain ⟨c, more, rfl⟩ : ∃ c more, whole = c :: more := List.exists_cons_of_ne_nil digits.1
  have digit : c.isDigit = true := digits.2 c List.mem_cons_self
  rcases signed with rfl | ⟨rfl, allowed⟩
  · refine ⟨c, more ++ fraction, rfl, ?_, fun start => ?_⟩
    · exact decide_eq_false (notMem_of_class digit (by decide))
    · rw [nextToken_unmarked (notMem_of_class digit (by decide)), if_pos digit]
      have read := scanned start
      rw [List.cons_append, List.cons_append] at read
      rw [read]
      rfl
  · refine ⟨'-', c :: more ++ fraction, rfl, by decide, fun start => ?_⟩
    have read := scanned (start + 1)
    have signed : '-' = '-' ∧ (c :: more ++ fraction ++ tail).head?.any Char.isDigit = true ∧
        endsValue last = false := ⟨rfl, by simpa using digit, allowed⟩
    unfold nextToken
    rw [if_neg (by decide), if_neg (by decide), if_neg (by decide), if_neg (by decide),
      if_neg (by decide), if_neg (by decide), if_neg (fun both => both.2 signed), read]
    rfl

theorem name_scanned {more : List Char} (start : isIdentifierStart c = true)
    (parts : ∀ d ∈ more, isIdentifierPart d = true)
    (stops : ∀ next ∈ tail.head?, isIdentifierPart next = false) :
    Scanned last (c :: more) ⟨keywordKind (c :: more), String.ofList (c :: more)⟩ tail := by
  refine ⟨c, more, rfl, decide_eq_false (notMem_of_class start (by decide)), fun offset => ?_⟩
  rw [nextToken_unmarked (notMem_of_class start (by decide)), isDigit_of_start start,
    (takeWhile_of_stop parts stops).1, if_pos start]
  rfl

theorem Lexeme.scanned {lexeme : List Char} {word : Word} (made : Lexeme last lexeme word)
    (stops : ∀ next ∈ tail.head?, joins word next = false) : Scanned last lexeme word tail := by
  cases made with
  | lparen => exact ⟨'(', [], rfl, by decide, fun _ => rfl⟩
  | rparen => exact ⟨')', [], rfl, by decide, fun _ => rfl⟩
  | dot => exact ⟨'.', [], rfl, by decide, fun _ => rfl⟩
  | and => exact ⟨'&', ['&'], rfl, by decide, fun _ => rfl⟩
  | or => exact ⟨'|', ['|'], rfl, by decide, fun _ => rfl⟩
  | pair sign =>
    refine ⟨_, ['='], rfl, ?_, fun start => ?_⟩
    · rcases sign with rfl | rfl | rfl | rfl <;> decide
    · rcases sign with rfl | rfl | rfl | rfl <;> rfl
  | single sign => exact single_scanned (.inr ⟨sign, rfl⟩) stops
  | not => exact single_scanned (.inl ⟨rfl, rfl⟩) stops
  | @string quote body value mark inner =>
    refine ⟨quote, body ++ [quote], rfl, by rcases mark with rfl | rfl <;> decide, fun start => ?_⟩
    have closed : quote ≠ '\\' := by rcases mark with rfl | rfl <;> decide
    have read : scanString quote start (start + 1) (body ++ quote :: tail) =
        .ok (value, body.length + 1) := scanString_complete inner closed tail
    rw [List.append_assoc]
    unfold nextToken
    rcases mark with rfl | rfl
    · rw [if_neg (by decide), if_neg (by decide), if_neg (by decide), if_neg (by decide),
        if_neg (by decide), List.cons_append, List.nil_append, read]
      simp [bind, Except.bind]
    · rw [if_neg (by decide), if_neg (by decide), if_neg (by decide), if_neg (by decide),
        if_neg (by decide), List.cons_append, List.nil_append, read]
      simp [bind, Except.bind]
  | number signed digits decimals =>
    refine number_scanned signed digits decimals fun next head => ?_
    rw [← joins_number signed]
    exact stops next head
  | @name c more start parts =>
    refine name_scanned start parts fun next head => ?_
    rw [← joins_name (c :: more)]
    exact stops next head

end Tokens

end Heniek.Lexemes
