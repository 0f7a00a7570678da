import Heniek.ContinuationCapsule
import Heniek.FallibleRun

/-!
The questions that a backend puts to the user, in their canonical form, and the check of
an answer against them. An answer that passes names every question once, in the order of
the questions.
-/

namespace Heniek.Interactions
open ContinuationCapsule

structure InteractionOption where
  label : String
  description : Option String := none
  deriving DecidableEq

structure BackendQuestion where
  id : String
  prompt : String
  header : Option String := none
  options : List InteractionOption
  multiSelect : Bool
  deriving DecidableEq

structure BackendInteraction where
  id : String
  questions : List BackendQuestion
  requestedAt : String
  timeoutAt : Option String := none
  deriving DecidableEq

inductive QuestionKind where
  | freeText | singleChoice | multipleChoice
  deriving DecidableEq

structure InteractionQuestion where
  questionId : String
  kind : QuestionKind
  prompt : String
  header : Option String
  options : List InteractionOption
  deriving DecidableEq

structure Interaction where
  interactionId : String
  questions : List InteractionQuestion
  requestedAt : String
  timeoutAt : Option String
  deriving DecidableEq

def firstRepeated (seen : List String) : List String → Option String
  | [] => none
  | value :: rest => if value ∈ seen then some value else firstRepeated (value :: seen) rest

def canonicalQuestion (question : BackendQuestion) : Except String InteractionQuestion :=
  match firstRepeated [] (question.options.map InteractionOption.label) with
  | some label => .error ("interaction question has duplicate option label: " ++ label)
  | none =>
    if question.options = [] then
      if question.multiSelect then
        .error ("free-text question cannot enable multi-select: " ++ question.id)
      else .ok ⟨question.id, .freeText, question.prompt, question.header, []⟩
    else
      .ok ⟨question.id, if question.multiSelect then .multipleChoice else .singleChoice,
        question.prompt, question.header, question.options⟩

def canonicalQuestions (seen : List String) :
    List BackendQuestion → Except String (List InteractionQuestion)
  | [] => .ok []
  | question :: rest =>
    if question.id ∈ seen then
      .error ("interaction has duplicate question id: " ++ question.id)
    else do
      let canonical ← canonicalQuestion question
      let others ← canonicalQuestions (question.id :: seen) rest
      .ok (canonical :: others)

def canonicalizeBackendInteraction (interaction : BackendInteraction) :
    Except String Interaction := do
  let questions ← canonicalQuestions [] interaction.questions
  .ok ⟨interaction.id, questions, interaction.requestedAt, interaction.timeoutAt⟩

inductive AnswerValue where
  | freeText (questionId text : String)
  | choice (questionId : String) (multiple : Bool) (selectedLabels : List String)
  deriving DecidableEq

def AnswerValue.questionId : AnswerValue → String
  | .freeText questionId _ => questionId
  | .choice questionId _ _ => questionId

def AnswerValue.kind : AnswerValue → QuestionKind
  | .freeText _ _ => .freeText
  | .choice _ multiple _ => if multiple then .multipleChoice else .singleChoice

structure AnswerSubmission where
  interactionId : String
  expectedInteractionRevision : Nat
  answers : List AnswerValue
  deriving DecidableEq

structure BackendAnswerValue where
  questionId : String
  selectedLabels : List String
  freeText : Option String
  deriving DecidableEq

structure BackendAnswer where
  interactionId : String
  answers : List BackendAnswerValue
  deriving DecidableEq

def checkChoice (question : InteractionQuestion) (selectedLabels : List String) :
    Except String BackendAnswerValue :=
  if (firstRepeated [] selectedLabels).isSome then
    .error ("answer selected a duplicate option: " ++ question.questionId)
  else if selectedLabels.any fun label =>
      decide (label ∉ question.options.map InteractionOption.label) then
    .error ("answer selected an unknown option: " ++ question.questionId)
  else if question.kind = .singleChoice ∧ selectedLabels.length ≠ 1 then
    .error ("single-choice answer must select exactly one option: " ++ question.questionId)
  else if question.kind = .multipleChoice ∧ selectedLabels = [] then
    .error ("multiple-choice answer must select an option: " ++ question.questionId)
  else .ok ⟨question.questionId, selectedLabels, none⟩

/-- The answer to a question, of which the last of several under one id counts. -/
def checkAnswer (answers : List AnswerValue) (question : InteractionQuestion) :
    Except String BackendAnswerValue :=
  match answers.reverse.find? fun answer => decide (answer.questionId = question.questionId) with
  | none => .error ("answer shape does not match question: " ++ question.questionId)
  | some answer =>
    if answer.kind ≠ question.kind then
      .error ("answer shape does not match question: " ++ question.questionId)
    else
      match answer with
      | .freeText _ text =>
        if trim text = "" then .error ("free-text answer is empty: " ++ question.questionId)
        else .ok ⟨question.questionId, [], some text⟩
      | .choice _ _ selectedLabels => checkChoice question selectedLabels

/-- The questions that an answer names, each once. -/
def answered (submission : AnswerSubmission) : List String :=
  (submission.answers.map AnswerValue.questionId).eraseDups

def validateAnswer (interaction : Interaction) (submission : AnswerSubmission) :
    Except String BackendAnswer :=
  if (answered submission).length ≠ submission.answers.length ∨
      (answered submission).length ≠ interaction.questions.length then
    .error "answer must cover every interaction question exactly once"
  else do
    let answers ← interaction.questions.mapM (checkAnswer submission.answers)
    .ok ⟨interaction.interactionId, answers⟩

end Heniek.Interactions
