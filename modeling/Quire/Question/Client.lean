import Quire.Question.Basic
import Quire.Chat.Client

/-! Generating questions with a chat model. -/
namespace Quire.Question

/-- What each kind of question should look like. -/
def instructions : QuestionType → String
  | .mcq =>
    "Çoxdan seçməli (4 variantlı) test sualları yarat.\n" ++
    "Format: [\x7b\"question\":\"...\",\"options\":[\"A\",\"B\",\"C\",\"D\"]," ++
    "\"correctIndex\":0,\"answer\":\"düzgün cavab\"\x7d]"
  | .openEnded =>
    "Açıq suallar yarat. Cavab 1-3 cümlə olsun.\n" ++
    "Format: [\x7b\"question\":\"...\",\"answer\":\"gözlənilən cavab\"\x7d]"
  | .trueFalse =>
    "Doğru/Yanlış sualları yarat.\n" ++
    "Format: [\x7b\"question\":\"...ifadə...\",\"answer\":\"Doğru\" yaxud \"Yanlış\"\x7d]"
  | .fillInBlank =>
    "Boşluq doldurun sualları yarat. Sualda ___ işarəsi ilə boşluq göstər.\n" ++
    "Format: [\x7b\"question\":\"___ bu ideyanın əsas prinsipidir.\"," ++
    "\"answer\":\"düzgün söz/ifadə\"\x7d]"

/-- The name of a level in requests. -/
def level : Difficulty → String
  | .easy => "Asan"
  | .medium => "Orta"
  | .hard => "Çətin"

def systemPrompt (d : Difficulty) : String :=
  "Sən təhsil mütəxəssisisən. Azərbaycan dilində suallar yarat. " ++
    "Yalnız JSON array qaytar, başqa heç nə yazma. Səviyyə: " ++ level d ++ "."

/-- The request for questions on the beginning of a text. -/
def userPrompt (text : String) (p : QuestionParams) (maxChars : Nat) : String :=
  s!"Aşağıdakı mətnə əsasən {p.count.toNat} ədəd sual yarat.\n\n" ++
    instructions p.questionType ++ "\n\nMətn:\n" ++ String.ofList (text.toList.take maxChars)

/-- A chat model that writes questions. -/
structure Client where
  chat : Chat.Client
  model : String
  maxSourceChars : Nat
  maxTokens : UInt32

def Client.request (c : Client) (text : String) (p : QuestionParams) : Chat.Request where
  model := c.model
  messages := [⟨.system, systemPrompt p.difficulty⟩, ⟨.user, userPrompt text p c.maxSourceChars⟩]
  temperature := 0.7
  maxTokens := some c.maxTokens
  jsonObject := false

/-- Generates questions on a text. -/
def Client.generate {m : Type → Type} [Monad m] (c : Client) (wire : Http.Wire m)
    (text : String) (p : QuestionParams) : m (Except GenerationError (List Question)) := do
  match p.check with
  | .error e => return .error e
  | .ok () =>
    match ← c.chat.complete wire (c.request text p) with
    | .error e => return .error (.llm e)
    | .ok reply => return parseReply reply

end Quire.Question
