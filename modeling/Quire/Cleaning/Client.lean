import Quire.Chat.Client
import Quire.Failure.Provider
import Quire.Label

/-! Cleaning recognized text.

A cleaner mends what recognition has spoiled and leaves the content alone. A chat model does it
on request; its reply is a JSON object with the text and a word on what was changed. -/
namespace Quire.Cleaning

/-- The language to expect in a raw text. -/
inductive LanguageHint
  | az | en | mixed
  deriving DecidableEq, Repr, Inhabited

instance : Label LanguageHint where
  all := [.az, .en, .mixed]
  word
    | .az => "az"
    | .en => "en"
    | .mixed => "mixed"

structure CleanedText where
  text : String
  /-- What was changed, if the cleaner says. -/
  summary : Option String
  deriving DecidableEq, Repr, Inhabited

/-- A text of at most `minLength` characters is not worth a request. -/
def isTooShort (text : String) (minLength : Nat) : Bool := Text.trimmedLength text ≤ minLength

/-- A short text as it is. -/
def passthrough (text : String) : CleanedText := ⟨text, some "Too short to clean"⟩

def systemPrompt : String := "You output strictly valid JSON."

def prompt (text : String) (hint : LanguageHint) : String :=
  "\n".intercalate
    ["You are a meticulous OCR text cleaner.",
     "Fix scanning errors, broken hyphenation and erratic line breaks in the text below.",
     "LANGUAGE HINT: " ++ Label.word hint ++ ".",
     "",
     "RULES:",
     "1. Do not add information, facts or commentary.",
     "2. Only fix typos, whitespace and formatting.",
     "3. Return only a JSON object of the form \x7b\"clean_text\": \"...\", " ++
       "\"changes_summary\": \"one sentence on what was fixed\"\x7d.",
     "",
     "RAW OCR INPUT:",
     "\"\"\"",
     text,
     "\"\"\""]

/-- What to ask the model for a text. -/
def request (model text : String) (hint : LanguageHint) : Chat.Request where
  model := model
  messages := [⟨.system, systemPrompt⟩, ⟨.user, prompt text hint⟩]
  temperature := 0.1
  maxTokens := none
  jsonObject := true

/-- A text that is there and not empty. -/
def nonEmpty (s : Option String) : Option String := s.filter (· != "")

/-- The reply for a given text, which stands in for a missing or empty answer. -/
def parseReply (given reply : String) : Except CleaningError CleanedText :=
  let shape := Json.Record.shape "CleaningReply" <|
    (fun text summary => CleanedText.mk ((nonEmpty text).getD given) (nonEmpty summary)) <$>
      .optional "clean_text" (.option .string) none <*>
      .optional "changes_summary" (.option .string) none
  match Json.readText shape (Text.trim reply) with
  | .ok cleaned => .ok cleaned
  | .error fault => .error (.malformed ("reply is not the expected JSON: " ++ fault.message))

/-! ### Cleaning with a chat model -/

/-- A chat model that cleans. -/
structure Client where
  chat : Chat.Client
  model : String
  minLength : Nat

/-- The version that is recorded with a cleaned page. -/
def version : String := "v1"

/-- Cleans a text; a short one is not sent. -/
def Client.clean {m : Type → Type} [Monad m] (c : Client) (wire : Http.Wire m) (text : String)
    (hint : LanguageHint) : m (Except CleaningError CleanedText) := do
  if isTooShort text c.minLength then return .ok (passthrough text)
  match ← c.chat.complete wire (request c.model text hint) with
  | .error e => return .error (.llm e)
  | .ok reply => return parseReply text reply

end Quire.Cleaning
