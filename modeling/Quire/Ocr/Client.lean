import Quire.Config.Load
import Quire.Http.Wire
import Quire.Text.Base64

/-! Asking the recognition service.

A small file is recognized within one request; a larger one is handed over as an object, and the
state of the operation is asked for later. -/
namespace Quire.Ocr
open Json (Shape Record)

/-- The state of an operation. -/
structure OperationStatus where
  done : Bool
  /-- What went wrong, in the words of the service; it counts once the operation is done. -/
  error : Option String
  /-- Where the service says that it has left the results. -/
  outputLocation : Option String
  deriving DecidableEq, Repr, Inhabited

/-- An operation as the service describes it. -/
structure Operation where
  name : Option String
  done : Bool
  error : Option Json
  destinations : List (Option String)

def Operation.shape : Shape Operation :=
  let status := Record.shape "IndividualProcessStatus" (.nullable "outputGcsDestination" .string)
  let metadata := Record.shape "OperationMetadata" <|
    .optional "individualProcessStatuses" (.list status) []
  Record.shape "OperationResource" <|
    (fun name done error metadata => Operation.mk name done error (metadata.getD [])) <$>
      .nullable "name" .string <*> .optional "done" .boolean false <*>
      .nullable "error" .any <*> .nullable "metadata" metadata

def Operation.status (o : Operation) : OperationStatus where
  done := o.done
  error := o.error.map Json.compact
  outputLocation := o.destinations.findSome? id

/-- The text of a document that was recognized within a request. -/
def processedShape : Shape (Option String) :=
  let document := Record.shape "ProcessedDocument" (.optional "text" .string "")
  Record.shape "ProcessResponse" (.nullable "document" document)

structure Client where
  endpoint : String
  processorPath : String
  retry : RetryPolicy

namespace Client

def ofConfig (c : Config.Ocr) : Client where
  endpoint := Text.dropTrailing '/' c.endpoint
  processorPath :=
    s!"projects/{c.projectId}/locations/{c.location}/processors/{c.processorId}"
  retry := c.retry.policy

def methodUrl (c : Client) (method : String) : String :=
  c.endpoint ++ "/v1/" ++ c.processorPath ++ ":" ++ method

/-- What a reply holds in a given shape. -/
def answer (s : Shape α) (r : Http.Reply) : Except OcrError α :=
  if ! r.isSuccess then
    let body := Http.truncated r.text
    .error (if RetryPolicy.isTransientStatus r.status then .transient r.status body
      else .api r.status body)
  else match r.read s with
    | .ok a => .ok a
    | .error _ => .error (.malformed Http.undecodable)

variable {m : Type → Type} [Monad m]

/-- One attempt, with a token of its own. -/
def ask (wire : Http.Wire m) (token : m (Except AuthError String)) (s : Shape α)
    (method : Http.Method) (url : String) (body : Http.Body) : m (Except OcrError α) := do
  match ← token with
  | .error e => return .error (.auth e)
  | .ok bearer =>
    match ← wire.send ⟨method, url, [], some bearer, body⟩ with
    | none => return .error .request
    | some reply => return answer s reply

/-- Recognizes a file within the request. -/
def process (c : Client) (wire : Http.Wire m) (token : m (Except AuthError String))
    (content : ByteArray) (mime : String) : m (Except OcrError String) := do
  let document : Json :=
    .ofMembers [("content", .text (Text.Base64.encode content)), ("mimeType", .text mime)]
  let body := Http.Body.json (.ofMembers [("rawDocument", document)])
  let processed ← c.retry.run wire.pause
    (ask wire token processedShape .post (c.methodUrl "process") body)
  return processed.map (·.getD "")

/-- What is asked when an operation is started. -/
def submission (inputUri mime outputUri : String) : Json :=
  let document : Json := .ofMembers [("gcsUri", .text inputUri), ("mimeType", .text mime)]
  .ofMembers
    [("inputDocuments", .ofMembers
        [("gcsDocuments", .ofMembers [("documents", .array [document])])]),
      ("documentOutputConfig", .ofMembers
        [("gcsOutputConfig", .ofMembers [("gcsUri", .text outputUri)])])]

/-- Starts an operation; the answer is its handle. -/
def submit (c : Client) (wire : Http.Wire m) (token : m (Except AuthError String))
    (inputUri mime outputUri : String) : m (Except OcrError String) := do
  let body := Http.Body.json (submission inputUri mime outputUri)
  let started ← c.retry.run wire.pause
    (ask wire token Operation.shape .post (c.methodUrl "batchProcess") body)
  match started with
  | .error e => return .error e
  | .ok operation =>
    match operation.name.filter (· != "") with
    | some name => return .ok name
    | none => return .error (.malformed "batch operation has no name")

/-- Asks once for the state of an operation. -/
def status (c : Client) (wire : Http.Wire m) (token : m (Except AuthError String))
    (handle : String) : m (Except OcrError OperationStatus) := do
  let operation ← c.retry.run wire.pause
    (ask wire token Operation.shape .get (c.endpoint ++ "/v1/" ++ handle) .empty)
  return operation.map Operation.status

end Client
end Quire.Ocr
