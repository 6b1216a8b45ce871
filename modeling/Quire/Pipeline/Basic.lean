import Quire.Pipeline.Settings
import Quire.Job.Ledger
import Quire.Failure.Pipeline

/-! The pipeline: what every step of it works with. -/
namespace Quire

/-- Who cleans pages; recorded with each page that was cleaned. -/
structure CleanerName where
  model : String
  version : String
  deriving DecidableEq, Repr

structure Pipeline where
  ledger : Ledger
  settings : Settings
  /-- Where files are kept while they are recognized. -/
  bucket : Bucket
  cleaner : Option CleanerName

namespace Pipeline

/-- The document of an id, if it belongs to the one who asks. -/
def ownDocument (documentId ownerId : String) : Txn PipelineError Document := do
  match ← (Documents.find documentId).widen with
  | none => Txn.fail (.notFound .document documentId)
  | some document =>
    Txn.require (document.ownerId == ownerId) .forbidden
    return document

/-- The uploaded file of a reference, if it is not larger than a limit. -/
def readUpload (r : Upload.Reference) (limit : Nat) : Run PipelineError ByteArray := do
  Run.ofExcept (← ExceptT.lift (Upload.readAll (Program.perform (.openUpload r)) r limit))

end Pipeline
end Quire
