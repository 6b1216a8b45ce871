import Quire.Program
import Quire.Store.Basic
import Quire.Upload.Source
import Quire.Ocr.Client
import Quire.Question.Basic

/-! What the pipeline asks of its surroundings.

A `Flow` is a program over these questions: transactions on the store, the clock, new
identifiers, uploads, temporary objects, text recognition, cleaning and the generation of
questions. A `Run` is a flow that may fail. -/
namespace Quire

inductive Effect : Type → Type 1
  /-- A transaction; a failed one has changed nothing. The store itself may fail it, so the errors
  of the store are among its failures. -/
  | transact {ε α : Type} [Widen StoreError ε] (t : Txn ε α) : Effect (Except ε α)
  | clock : Effect Instant
  | freshId : Effect String
  | sleep (millis : Nat) : Effect Unit
  /-- A reference to an upload that is valid for a while. -/
  | reference (path : String) (ttl : Span) : Effect (Except StorageError Upload.Reference)
  | openUpload (r : Upload.Reference) : Effect (Except StorageError ByteStream)
  | put (key : String) (body : ByteStream) (contentType : String) : Effect (Except StorageError Unit)
  /-- The keys of temporary objects that begin alike. -/
  | list (start : String) : Effect (Except StorageError (List String))
  | get (key : String) : Effect (Except StorageError ByteArray)
  | delete (key : String) : Effect (Except StorageError Unit)
  /-- The text that a paginated file holds by itself. -/
  | extract (content : ByteArray) : Effect (Except ProcessError (List String))
  /-- The text of a small file, recognized at once. -/
  | recognize (content : ByteArray) (mime : String) : Effect (Except OcrError String)
  /-- Starts an operation; the answer is its handle. -/
  | submit (inputUri mime outputUri : String) : Effect (Except OcrError String)
  | status (handle : String) : Effect (Except OcrError Ocr.OperationStatus)
  /-- Begins to clean the text of the page of an index; it may be clean at once. -/
  | beginCleaning (index : Nat) (text : String) (hint : Cleaning.LanguageHint) :
      Effect (Option (Except CleaningError Cleaning.CleanedText))
  /-- One of the pages that are being cleaned is clean, given by their indexes. -/
  | awaitCleaning (first : Nat) (others : List Nat) :
      Effect (Fin (others.length + 1) × Except CleaningError Cleaning.CleanedText)
  | generate (text : String) (p : QuestionParams) : Effect (Except GenerationError (List Question))

abbrev Flow : Type → Type 1 := Program Effect

abbrev Run (ε : Type) : Type → Type 1 := ExceptT ε Flow

namespace Run
variable {ε ε' α : Type}

/-- Asks something that cannot fail. -/
def perform (e : Effect α) : Run ε α := ExceptT.lift (.perform e)

/-- Asks something that may fail. -/
def request [Widen ε ε'] (e : Effect (Except ε α)) : Run ε' α :=
  ExceptT.mk do
    match ← Program.perform e with
    | .ok a => return .ok a
    | .error fault => return .error (Widen.widen fault)

/-- What may fail, with its outcome instead of the failure. -/
def outcome (r : Run ε α) : Run ε' (Except ε α) := ExceptT.lift r.run

/-- The same with failures of a wider kind. -/
def widen [Widen ε ε'] (r : Run ε α) : Run ε' α :=
  ExceptT.mk do
    match ← r.run with
    | .ok a => return .ok a
    | .error fault => return .error (Widen.widen fault)

/-- A result or a failure that is there already. -/
def ofExcept [Widen ε ε'] : Except ε α → Run ε' α
  | .ok a => pure a
  | .error fault => throw (Widen.widen fault)

/-- A transaction. -/
def transact [Widen StoreError ε] [Widen ε ε'] (t : Txn ε α) : Run ε' α := request (.transact t)

def clock : Run ε Instant := perform .clock

def freshId : Run ε String := perform .freshId

end Run
end Quire
