import Quire.Json.Shape
import Quire.Json.Printer

/-! Requests to services and their replies.

The clients of this library say what they ask and what they make of a reply. How a request
travels is up to a `Wire`, which may also bring no reply at all. -/
namespace Quire.Http

inductive Method
  | get | post | delete
  deriving DecidableEq, Repr

def Method.word : Method → String
  | .get => "GET"
  | .post => "POST"
  | .delete => "DELETE"

/-- What a request carries. -/
inductive Body
  | empty
  | json (j : Json)
  | form (fields : List (String × String))
  | bytes (contentType : String) (content : ByteArray)

structure Request where
  method : Method
  url : String
  /-- Parameters that are added to the address. -/
  query : List (String × String)
  /-- The token that the request is authorized by. -/
  bearer : Option String
  body : Body

structure Reply where
  status : Nat
  body : ByteArray

def Reply.isSuccess (r : Reply) : Bool := 200 ≤ r.status && r.status < 300

def Reply.text (r : Reply) : String := Text.decodeLossy r.body

/-- The body in a given shape. -/
def Reply.read (r : Reply) (s : Json.Shape α) : Except Json.Fault α := Json.readBytes s r.body

/-- How clients reach their services. -/
structure Wire (m : Type → Type) where
  /-- Sends a request; no reply means that the way there or back failed. -/
  send : Request → m (Option Reply)
  /-- Waits for so many milliseconds. -/
  pause : Nat → m Unit

/-- What stands for a body that has not the shape that was asked for. -/
def undecodable : String := "<undecodable body>"

/-- How many bytes of a body are kept in a failure. -/
def bodyLimit : Nat := 200

/-- What stands behind a body that has been cut. -/
def cutMark : String := "... (truncated)"

/-- A body cut to what is kept of it, behind its last whole character; none if no place is found for
the cut. -/
def truncated? (body : String) : Option String :=
  if body.utf8ByteSize ≤ bodyLimit then some body
  else do
    let place ← Text.lastBoundary? body.toUTF8 bodyLimit
    let kept ← Text.firstBytes? body.toUTF8 place
    return kept ++ cutMark

/-- A body as failures show it; there always is a place for the cut. -/
def truncated (body : String) : String := (truncated? body).getD body

end Quire.Http
