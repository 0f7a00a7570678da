import Heniek.Lexemes

/-!
The scan of a text as a relation: blanks and lexemes one after the other, up to a place
where the scanner comes to rest. It is what the loop does, whatever the offsets are.
-/

namespace Heniek.TokenScans
open ConditionTokens ConditionGrammar Lexemes ScriptText FallibleRun

/-- Text in front of other text, scanned into words from behind a token of one kind to behind a
token of another. -/
inductive Scans (back : List Char) :
    (last : Option TokenKind) → (text : List Char) → List Word → (last' : Option TokenKind) → Prop
  | done (last : Option TokenKind) : Scans back last [] [] last
  | blank {last last' : Option TokenKind} {c : Char} {text : List Char} {words : List Word}
      (blank : isBlank c = true) (rest : Scans back last text words last') :
      Scans back last (c :: text) words last'
  | token {last last' : Option TokenKind} {lexeme text : List Char} {word : Word}
      {words : List Word} (made : Lexeme last lexeme word)
      (stops : ∀ next ∈ (text ++ back).head?, joins word next = false)
      (rest : Scans back (some word.kind) text words last') :
      Scans back last (lexeme ++ text) (word :: words) last'

theorem stops_of_all {word : Word} {text : List Char}
    (free : text.head?.all (fun next => !joins word next) = true) :
    ∀ next ∈ text.head?, joins word next = false := by
  intro next first
  rw [Option.mem_def.mp first] at free
  simpa using free

/-- The word of the token that ends every list of tokens. -/
def endWord : Word := ⟨TokenKind.end, ""⟩

def widths (text : List Char) : Nat := (text.map width).sum

theorem widths_cons (c : Char) (text : List Char) : widths (c :: text) = width c + widths text := by
  simp [widths]

theorem widths_append (front back : List Char) :
    widths (front ++ back) = widths front + widths back := by
  simp [widths]

theorem length_codeUnits (source : String) : (codeUnits source).length = widths source.toList := by
  unfold codeUnits
  induction source.toList with
  | nil => rfl
  | cons c text ih =>
    rw [List.flatMap_cons, List.length_append, ih, widths_cons]
    unfold width
    split <;> rfl

theorem lexFrom_covered (last : Option TokenKind) (offset : Nat) {covered : Nat}
    {text : List Char} (inside : covered ≤ text.length) :
    lexFrom covered last offset text =
      lexFrom 0 last (offset + widths (text.take covered)) (text.drop covered) := by
  induction covered generalizing offset text with
  | zero => rfl
  | succ covered ih =>
    cases text with
    | nil => simp at inside
    | cons c text =>
      rw [lexFrom, ih _ (Nat.le_of_succ_le_succ inside)]
      rw [List.take_succ_cons, List.drop_succ_cons, widths_cons, Nat.add_assoc]

section Scans

variable {last last' last'' : Option TokenKind} {front back : List Char} {words words' : List Word}

theorem lexFrom_lexeme {lexeme tail : List Char} {word : Word} (offset : Nat)
    (made : Lexeme last lexeme word) (stops : ∀ next ∈ tail.head?, joins word next = false) :
    lexFrom 0 last offset (lexeme ++ tail) =
      (lexFrom 0 (some word.kind) (offset + widths lexeme) tail).map
        (⟨word.kind, offset, word.text⟩ :: ·) := by
  obtain ⟨c, more, rfl, visible, scanned⟩ := made.scanned stops
  rw [List.cons_append, lexFrom, if_neg (by simp [visible]), scanned offset]
  have inside : more.length ≤ (more ++ tail).length := by simp
  have covered := lexFrom_covered (some word.kind) (offset + width c) inside
  rw [List.take_left, List.drop_left] at covered
  change (lexFrom more.length (some word.kind) (offset + width c) (more ++ tail) >>= _) = _
  rw [covered, widths_cons, Nat.add_assoc]
  cases lexFrom 0 (some word.kind) (offset + (width c + widths more)) tail <;> rfl

/-- The loop goes through a scan and goes on behind it. -/
theorem lexFrom_scans (scans : Scans back last front words last') (offset : Nat) :
    ∃ tokens, tokens.map word = words ∧ lexFrom 0 last offset (front ++ back) =
      (lexFrom 0 last' (offset + widths front) back).map (tokens ++ ·) := by
  induction scans generalizing offset with
  | done last =>
    refine ⟨[], rfl, ?_⟩
    change lexFrom 0 last offset back = (lexFrom 0 last offset back).map id
    cases lexFrom 0 last offset back <;> rfl
  | @blank last last' c text words blank _ ih =>
    obtain ⟨tokens, spelled, same⟩ := ih (offset + 1)
    have narrow : width c = 1 := by
      have listed : c ∈ [' ', '\t', '\n', '\r'] := of_decide_eq_true blank
      simp at listed
      rcases listed with rfl | rfl | rfl | rfl <;> rfl
    refine ⟨tokens, spelled, ?_⟩
    rw [List.cons_append, lexFrom, if_pos blank, same, widths_cons, narrow, Nat.add_assoc]
  | @token last last' lexeme text word words made stops _ ih =>
    obtain ⟨tokens, spelled, same⟩ := ih (offset + widths lexeme)
    refine ⟨⟨word.kind, offset, word.text⟩ :: tokens, by rw [List.map_cons, spelled]; rfl, ?_⟩
    rw [List.append_assoc, lexFrom_lexeme offset made stops, same]
    rw [widths_append, ← Nat.add_assoc]
    cases lexFrom 0 last' (offset + widths lexeme + widths text) back <;> rfl

theorem lexFrom_of_scans (scans : Scans [] last front words last') (offset : Nat) :
    ∃ tokens, lexFrom 0 last offset front = .ok tokens ∧ tokens.map word = words ++ [endWord] := by
  obtain ⟨tokens, spelled, lexed⟩ := lexFrom_scans scans offset
  rw [List.append_nil] at lexed
  exact ⟨_, lexed, by rw [List.map_append, spelled]; rfl⟩

theorem scans_of_lexFrom {text : List Char} {offset : Nat} {tokens : List Token}
    (lexed : lexFrom 0 last offset text = .ok tokens) :
    ∃ words last', Scans [] last text words last' ∧ tokens.map word = words ++ [endWord] := by
  induction size : text.length using Nat.strongRecOn generalizing text last offset tokens with
  | ind size ih =>
    cases text with
    | nil =>
      cases lexed
      exact ⟨[], last, .done last, rfl⟩
    | cons c rest =>
      rw [lexFrom] at lexed
      by_cases blank : isBlank c = true
      · rw [if_pos blank] at lexed
        obtain ⟨words, last', scans, spelled⟩ := ih rest.length (by simp [← size]) lexed rfl
        exact ⟨words, last', .blank blank scans, spelled⟩
      · rw [if_neg blank] at lexed
        obtain ⟨⟨token, count⟩, scanned, lexed⟩ := bind_eq_ok.mp lexed
        obtain ⟨others, lexedRest, done⟩ := bind_eq_ok.mp lexed
        cases done
        obtain ⟨lexeme, tail, split, rfl, _, made, stops⟩ := nextToken_sound scanned
        obtain ⟨d, more, rfl, _, _⟩ := made.scanned stops
        rw [List.cons_append] at split
        obtain ⟨rfl, rfl⟩ := List.cons.inj split
        rw [List.length_cons, Nat.add_sub_cancel, lexFrom_covered _ _ (by simp),
          List.drop_left] at lexedRest
        obtain ⟨words, last', scans, spelled⟩ :=
          ih tail.length (by simp at size; omega) lexedRest rfl
        refine ⟨word token :: words, last', ?_, by rw [List.map_cons, spelled]; rfl⟩
        refine .token made ?_ scans
        rwa [List.append_nil]

theorem Scans.kind_ne_end (scans : Scans back last front words last') :
    ∀ word ∈ words, word.kind ≠ TokenKind.end := by
  induction scans with
  | done last => simp
  | blank _ _ ih => exact ih
  | token made _ _ ih =>
    intro other listed
    rcases List.mem_cons.mp listed with rfl | later
    · exact made.kind_ne_end
    · exact ih other later

end Scans

theorem lexExpression_eq_ok {source : String} {tokens : List Token}
    (lexed : lexExpression source = .ok tokens) :
    (codeUnits source).length ≤ maxExpressionLength ∧
      ∃ words last, Scans [] none source.toList words last ∧
        tokens.map word = words ++ [endWord] := by
  unfold lexExpression at lexed
  by_cases long : maxExpressionLength < (codeUnits source).length
  · rw [if_pos long] at lexed
    cases lexed
  · rw [if_neg long] at lexed
    exact ⟨Nat.le_of_not_lt long, scans_of_lexFrom lexed⟩

end Heniek.TokenScans
