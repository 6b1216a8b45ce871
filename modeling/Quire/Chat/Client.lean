import Quire.Decimal.Text
import Quire.Http.Wire
import Quire.Json.Shape
import Quire.Retry
import Quire.Text.Cut

/-! What is asked of a chat model, how its replies are unwrapped, and asking it for a completion. -/
namespace Quire.Chat
open Json (Shape Record)

inductive Role
  | system | user
  deriving DecidableEq, Repr

def Role.word : Role → String
  | .system => "system"
  | .user => "user"

structure Message where
  role : Role
  content : String

structure Request where
  model : String
  messages : List Message
  temperature : Float32
  maxTokens : Option UInt32
  /-- The reply has to be a JSON object. -/
  jsonObject : Bool

def Message.toJson (m : Message) : Json :=
  .ofMembers [("role", .text m.role.word), ("content", .text m.content)]

/-- The request as it is sent; what is not set is left out. -/
def Request.toJson (r : Request) : Json :=
  .ofMembers <|
    [("model", .text r.model), ("messages", .array (r.messages.map Message.toJson)),
      ("temperature", .ofFloat (Decimal.sameDigits r.temperature))] ++
    (r.maxTokens.map fun n => ("max_tokens", Json.ofNat n.toNat)).toList ++
    if r.jsonObject then [("response_format", .ofMembers [("type", .text "json_object")])] else []

/-- The contents of the choices in a response. -/
def choicesShape : Shape (List (Option String)) :=
  let message := Record.shape "ChatResponseMessage" (.optional "content" (.option .string) none)
  let choice := Record.shape "ChatChoice" (.required "message" message)
  Record.shape "ChatResponse" (.optional "choices" (.list choice) [])

/-! ### Fences -/

/-- Without the fences of three backticks at the end. -/
def dropClosing : List Char → List Char
  | '`' :: '`' :: '`' :: rest => dropClosing rest
  | cs => cs

/-- What follows the first line break, or everything if there is none. -/
def dropInfo (cs : List Char) : List Char :=
  match cs.dropWhile (· != '\n') with
  | [] => cs
  | _ :: rest => rest

/-- The text inside a Markdown fence, or the text itself, without blanks around it. -/
def stripFences (reply : String) : String :=
  match Text.dropStart? "```" (Text.trim reply) with
  | none => Text.trim reply
  | some rest =>
    let body := Text.trimRight (dropInfo rest.toList)
    Text.trim (String.ofList (dropClosing body.reverse).reverse)

/-! ### Asking for a completion -/

structure Client where
  endpoint : String
  apiKey : String
  retry : RetryPolicy

namespace Client
variable {m : Type → Type} [Monad m]

/-- What a reply says: the text of the first choice. -/
def answer (r : Http.Reply) : Except LlmError String :=
  if ! r.isSuccess then
    let body := Http.truncated r.text
    .error (if RetryPolicy.isTransientStatus r.status then .transient r.status body
      else .api r.status body)
  else
    match r.read choicesShape with
    | .error _ => .error (.malformed Http.undecodable)
    | .ok (some text :: _) => .ok text
    | .ok _ => .error (.malformed "response has no choices")

/-- One attempt. -/
def ask (c : Client) (wire : Http.Wire m) (r : Request) : m (Except LlmError String) := do
  match ← wire.send ⟨.post, c.endpoint, [], some c.apiKey, .json r.toJson⟩ with
  | none => return .error .request
  | some reply => return answer reply

/-- The completion, with further attempts while the service is throttling. -/
def complete (c : Client) (wire : Http.Wire m) (r : Request) : m (Except LlmError String) :=
  c.retry.run wire.pause (c.ask wire r)

end Client
end Quire.Chat
