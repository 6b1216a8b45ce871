import Quire.Object.Store
import Quire.Http.Url
import Quire.Http.Wire

/-! Objects in a remote bucket. -/
namespace Quire.Object
open Json (Shape Record)

/-- A bucket behind an endpoint. -/
structure Client where
  endpoint : String
  bucketName : String

/-- The names on a page of a listing, and the token of the next page. -/
structure Listing where
  names : List String
  nextPage : Option String
  deriving DecidableEq, Repr

def Listing.shape : Shape Listing :=
  let item := Record.shape "ObjectResource" (.required "name" .string)
  Record.shape "ListResponse" <|
    Listing.mk <$> .optional "items" (.list item) [] <*> .nullable "nextPageToken" .string

namespace Client

/-- No slash stands at the end of the endpoint. -/
def new (endpoint bucketName : String) : Client := ⟨Text.dropTrailing '/' endpoint, bucketName⟩

def bucket (c : Client) : Bucket := ⟨"gs", c.bucketName⟩

/-- The address of the bucket's objects under some segments, or of one object. -/
def address (c : Client) (under : List String) (key : Option String) :
    Except StorageError String :=
  match Http.Url.extend c.endpoint (under ++ [c.bucketName, "o"] ++ key.toList) with
  | .ok url => .ok url
  | .error .invalid => .error (.stream ("invalid storage endpoint: " ++ detail))
  | .error .closed => .error (.stream "storage endpoint cannot be a base")

/-- The failure that a reply tells of. -/
def refusal (r : Http.Reply) : StorageError := .api r.status (Http.truncated r.text)

variable {m : Type → Type} [Monad m]

/-- Sends a request to an address, authorized by a token. -/
def send (wire : Http.Wire m) (token : m (Except AuthError String)) (method : Http.Method)
    (address : Except StorageError String) (query : List (String × String)) (body : Http.Body) :
    m (Except StorageError Http.Reply) := do
  match address with
  | .error e => return .error e
  | .ok url =>
    match ← token with
    | .error e => return .error (.auth e)
    | .ok bearer =>
      match ← wire.send ⟨method, url, query, some bearer, body⟩ with
      | some reply => return .ok reply
      | none => return .error .request

/-- Writes an object. A stream that fails breaks the request off. -/
def put (c : Client) (wire : Http.Wire m) (token : m (Except AuthError String)) (key : String)
    (body : ByteStream) (contentType : String) : m (Except StorageError Unit) := do
  let address := c.address ["upload", "storage", "v1", "b"] none
  let query := [("uploadType", "media"), ("name", key)]
  match body.collect with
  | .error _ =>
    match address with
    | .error e => return .error e
    | .ok _ =>
      match ← token with
      | .error e => return .error (.auth e)
      | .ok _ => return .error .request
  | .ok content =>
    match ← send wire token .post address query (.bytes contentType content) with
    | .error e => return .error e
    | .ok reply => return if reply.isSuccess then .ok () else .error (refusal reply)

/-- What a page of a listing holds. -/
def listing (r : Http.Reply) : Except StorageError Listing :=
  if ! r.isSuccess then .error (refusal r)
  else match r.read Listing.shape with
    | .ok page => .ok page
    | .error _ => .error .request

/-- The parameters of a request for a page of a listing. -/
def listQuery (start : String) (page : Option String) : List (String × String) :=
  ("prefix", start) :: (page.map fun t => ("pageToken", t)).toList

/-- What a page leads to, after the names of the pages before: there is a next page, or the listing
has ended. -/
def turn (names : List String) :
    Except StorageError Listing → (List String × Option String) ⊕ Except StorageError (List String)
  | .error e => .inr (.error e)
  | .ok page =>
    match page.nextPage.filter (· != "") with
    | none => .inr (.ok (names ++ page.names))
    | some next => .inl (names ++ page.names, some next)

/-- A round of a listing: a page is asked for, by its token unless it is the first one. -/
def listRound (c : Client) (wire : Http.Wire m) (token : m (Except AuthError String))
    (start : String) : List String × Option String →
      m ((List String × Option String) ⊕ Except StorageError (List String))
  | (names, page) => do
    let address := c.address ["storage", "v1", "b"] none
    match ← send wire token .get address (listQuery start page) .empty with
    | .error e => return .inr (.error e)
    | .ok reply => return turn names (listing reply)

/-- The names that begin alike, page after page. -/
def list (c : Client) (wire : Http.Wire m) (token : m (Except AuthError String))
    (start : String) : m (Except StorageError (List String)) :=
  repeatM (c.listRound wire token start) ([], none)

/-- The content of an object. -/
def get (c : Client) (wire : Http.Wire m) (token : m (Except AuthError String)) (key : String) :
    m (Except StorageError ByteArray) := do
  let address := c.address ["storage", "v1", "b"] (some key)
  match ← send wire token .get address [("alt", "media")] .empty with
  | .error e => return .error e
  | .ok reply =>
    return if reply.isSuccess then .ok reply.body
      else if reply.status == 404 then .error (.notFound key)
      else .error (refusal reply)

/-- Removes an object; one that is not there counts as removed. -/
def delete (c : Client) (wire : Http.Wire m) (token : m (Except AuthError String))
    (key : String) : m (Except StorageError Unit) := do
  match ← send wire token .delete (c.address ["storage", "v1", "b"] (some key)) [] .empty with
  | .error e => return .error e
  | .ok reply =>
    return if reply.isSuccess || reply.status == 404 then .ok () else .error (refusal reply)

end Client
end Quire.Object
