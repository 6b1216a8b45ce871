import Quire.Effect
import Quire.Question.Fingerprint
import Quire.Store.Artifacts

/-! The cache of generated questions.

Questions are kept per owner under the fingerprint of what they were generated from; nothing is
ever dropped. -/
namespace Quire

structure CachedQuestions where
  fingerprint : String
  questions : List Question
  /-- The questions were there already. -/
  hit : Bool

def CachedQuestions.toJson (c : CachedQuestions) : Json :=
  .ofMembers
    [("source_text_hash", .text c.fingerprint),
      ("questions", .array (c.questions.map Question.toJson)), ("cache_hit", .bool c.hit)]

namespace QuestionCache

/-- Something is wanted that can be generated. -/
def check (text : String) (p : QuestionParams) : Except GenerationError Unit := do
  p.check
  if Text.isEmptyOrBlank text then .error (.invalidParams "no source text to generate from")
  else .ok ()

/-- The question that an artifact holds. -/
def questionOf (a : Artifact) : Except GenerationError Question :=
  match Json.readValue Question.shape a.payload with
  | .ok q => .ok q
  | .error fault => .error (.malformed ("cached question: " ++ fault.message))

/-- The questions as artifacts, each with an id of its own. -/
def artifactsOf (ownerId : String) (documentId : Option String) (fingerprint : String)
    (p : QuestionParams) (now : String) : List (String × Question) → List Artifact :=
  List.map fun (id, q) => ⟨id, ownerId, documentId, fingerprint, Label.word p.questionType, q.toJson, now⟩

/-- An id for each of some things. -/
def withIds : List α → Run ε (List (String × α))
  | [] => return []
  | a :: rest => do
    let id ← Run.freshId
    return (id, a) :: (← withIds rest)

/-- The questions of an owner for a text and parameters: those that are kept, or new ones, which
are kept from now on. -/
def getOrGenerate (ownerId : String) (documentId : Option String) (text : String)
    (p : QuestionParams) : Run GenerationError CachedQuestions := do
  Run.ofExcept (check text p)
  let fingerprint := Fingerprint.of text p
  let kept ← Run.transact (Artifacts.find ownerId fingerprint)
  if ! kept.isEmpty then
    return ⟨fingerprint, ← Run.ofExcept (kept.mapM questionOf), true⟩
  let questions ← Run.request (.generate text p)
  let now ← Run.clock
  let named ← withIds questions
  Run.transact
    (Artifacts.insertAll (artifactsOf ownerId documentId fingerprint p now.timestamp named))
  return ⟨fingerprint, questions, false⟩

end QuestionCache
end Quire
