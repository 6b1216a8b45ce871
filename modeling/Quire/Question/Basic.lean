import Quire.Chat.Client
import Quire.Failure.Job
import Quire.Label

/-! Questions, as they are stored and as models write them, and what is wanted when they are
generated: their kind, their number, their difficulty. -/
namespace Quire
open Json (Shape Record)

structure Question where
  text : String
  /-- The answers to choose from, if there is a choice. -/
  options : List String
  answerKey : String
  /-- Which of the options is right. -/
  correctIndex : Option UInt32
  deriving DecidableEq, Repr, Inhabited

namespace Question

/-- Models shorten the names of the fields; both names are read. -/
def shape : Shape Question :=
  Record.shape "Question" <|
    Question.mk <$> .aliased ["question_text", "question"] .string "" <*>
      .optional "options" (.list .string) [] <*> .aliased ["answer_key", "answer"] .string "" <*>
      .aliased ["correct_index", "correctIndex"] (.option .word32) none

/-- Fields without content are left out. -/
def toJson (q : Question) : Json :=
  .ofMembers <|
    [("question_text", .text q.text), ("answer_key", .text q.answerKey)] ++
    (if q.options.isEmpty then [] else [("options", .array (q.options.map .text))]) ++
    (q.correctIndex.map fun i => ("correct_index", Json.ofNat i.toNat)).toList

/-- The questions in a model's reply: a JSON array, with or without a fence around it. -/
def parseReply (reply : String) : Except GenerationError (List Question) :=
  match Json.readText (Shape.list shape) (Chat.stripFences reply) with
  | .ok questions => .ok questions
  | .error fault =>
    .error (.malformed ("expected a JSON array of questions: " ++ fault.message))

end Question
/-! ### What is wanted of questions -/

inductive QuestionType
  | mcq | openEnded | trueFalse | fillInBlank
  deriving DecidableEq, Repr, Inhabited

instance : Label QuestionType where
  all := [.mcq, .openEnded, .trueFalse, .fillInBlank]
  word
    | .mcq => "mcq"
    | .openEnded => "open_ended"
    | .trueFalse => "true_false"
    | .fillInBlank => "fill_in_blank"

inductive Difficulty
  | easy | medium | hard
  deriving DecidableEq, Repr, Inhabited

instance : Label Difficulty where
  all := [.easy, .medium, .hard]
  word
    | .easy => "easy"
    | .medium => "medium"
    | .hard => "hard"

structure QuestionParams where
  questionType : QuestionType
  count : UInt32
  difficulty : Difficulty
  deriving DecidableEq, Repr

namespace QuestionParams

def standard : QuestionParams := ⟨.mcq, 5, .medium⟩

instance : Inhabited QuestionParams := ⟨standard⟩

/-- The largest number of questions. -/
def maxCount : UInt32 := 50

/-- The number of questions is between one and the largest. -/
def check (p : QuestionParams) : Except GenerationError Unit :=
  if p.count == 0 || maxCount < p.count then
    .error (.invalidParams s!"count must be between 1 and {maxCount.toNat}, got {p.count.toNat}")
  else .ok ()

def record : Record QuestionParams :=
  QuestionParams.mk <$> .optional "question_type" Label.shape standard.questionType <*>
    .optional "count" .word32 standard.count <*>
    .optional "difficulty" Label.shape standard.difficulty

def shape : Shape QuestionParams := record.shape "QuestionParams"

def members (p : QuestionParams) : List (String × Json) :=
  [("question_type", Label.toJson p.questionType), ("count", .ofNat p.count.toNat),
    ("difficulty", Label.toJson p.difficulty)]

def toJson (p : QuestionParams) : Json := .ofMembers p.members

end QuestionParams

/-- What a generation job works on: a published version, and what is wanted. -/
structure GenerationJobParams where
  versionId : String
  questions : QuestionParams
  deriving DecidableEq, Repr

namespace GenerationJobParams

/-- The version's id stands among the fields of what is wanted. -/
def shape : Shape GenerationJobParams := fun origin o => do
  let (versionId, questions) ←
    Record.flattened "GenerationJobParams" (.required "version_id" .string) QuestionParams.record
      origin o
  return ⟨versionId, questions⟩

def toJson (p : GenerationJobParams) : Json :=
  .ofMembers (("version_id", .text p.versionId) :: p.questions.members)

end GenerationJobParams
end Quire
