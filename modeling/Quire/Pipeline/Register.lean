import Quire.Pipeline.Basic
import Quire.FileType

/-! Registering an upload as a document. -/
namespace Quire

/-- An upload, as its owner describes it. -/
structure NewDocument where
  ownerId : String
  fileName : String
  /-- Where the upload is. -/
  storagePath : String
  mimeType : Option String
  fileSize : UInt64
  title : Option String

/-- The document that an upload becomes: nothing has been taken from it yet. -/
def NewDocument.toDocument (d : NewDocument) (fileType : FileType) (id now : String) :
    Document where
  id := id
  ownerId := d.ownerId
  title := d.title
  fileName := d.fileName
  storagePath := d.storagePath
  mimeType := d.mimeType
  fileType := Label.word fileType
  fileSize := d.fileSize
  status := .uploading
  pageCount := 0
  activeVersion := 0
  publishedAt := none
  createdAt := now
  updatedAt := now

namespace Pipeline

/-- Registers an upload of a kind that text can be taken from. -/
def register (d : NewDocument) : Run PipelineError Document := do
  let fileType := FileType.detect d.mimeType d.fileName
  if ! fileType.isSupported then throw (.precondition (.unsupportedFile d.fileName))
  let now ← Run.clock
  let id ← Run.freshId
  let document := d.toDocument fileType id now.timestamp
  Run.transact (Documents.insert document)
  return document

end Pipeline
end Quire
