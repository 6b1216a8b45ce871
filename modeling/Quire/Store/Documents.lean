import Quire.Store.Basic

/-! Documents in the store.

Every change of a status names the statuses from which it may start, and tells how many rows it
has changed: none, if the document was not there or not in one of them. -/
namespace Quire

/-- A document as it is read. -/
structure Document where
  id : String
  ownerId : String
  title : Option String
  fileName : String
  storagePath : String
  mimeType : Option String
  fileType : String
  fileSize : UInt64
  status : DocumentStatus
  pageCount : UInt32
  activeVersion : UInt32
  publishedAt : Option String
  createdAt : String
  updatedAt : String
  deriving DecidableEq, Inhabited

def Document.toJson (d : Document) : Json :=
  .ofMembers
    [("id", .text d.id), ("owner_id", .text d.ownerId), ("title", .ofOption .text d.title),
      ("file_name", .text d.fileName), ("storage_path", .text d.storagePath),
      ("mime_type", .ofOption .text d.mimeType), ("file_type", .text d.fileType),
      ("file_size_bytes", .ofNat d.fileSize.toNat), ("status", Label.toJson d.status),
      ("page_count", .ofNat d.pageCount.toNat), ("active_version", .ofNat d.activeVersion.toNat),
      ("published_at", .ofOption .text d.publishedAt), ("created_at", .text d.createdAt),
      ("updated_at", .text d.updatedAt)]

/-- A row as a document, column by column. -/
def DocumentRow.read (r : DocumentRow) : Except StoreError Document := do
  let fileSize ← r.fileSize.word64 7 "file_size_bytes"
  let pageCount ← r.pageCount.word32 9 "page_count"
  let activeVersion ← r.activeVersion.word32 10 "active_version"
  return { id := r.id, ownerId := r.ownerId, title := r.title, fileName := r.fileName,
           storagePath := r.storagePath, mimeType := r.mimeType, fileType := r.fileType,
           fileSize := fileSize, status := r.status, pageCount := pageCount,
           activeVersion := activeVersion, publishedAt := r.publishedAt,
           createdAt := r.createdAt, updatedAt := r.updatedAt }

namespace Documents

/-- A rule of the schema: the column's words. -/
def wordsRule (α : Type) [Label α] (column : String) : String :=
  column ++ " IN (" ++
    ", ".intercalate ((Label.all (α := α)).map fun a => "'" ++ Label.word a ++ "'") ++ ")"

/-- Adds a document with a status in words. -/
def insertAs (statusWord : String) (d : Document) : Txn StoreError Unit := do
  let fileSize ← .ofExcept (Cell.store d.fileSize.toNat)
  match Label.ofWord? statusWord with
  | none => .fail (.violation (.check (wordsRule DocumentStatus "status")))
  | some status =>
    let s ← Txn.store
    Txn.require (! s.hasDocument d.id) (.violation (.primaryKey "documents" "id"))
    let row : DocumentRow :=
      { id := d.id, ownerId := d.ownerId, title := d.title, fileName := d.fileName,
        storagePath := d.storagePath, mimeType := d.mimeType, fileType := d.fileType,
        fileSize := fileSize, status := status, pageCount := .ofNat d.pageCount.toNat,
        activeVersion := .ofNat d.activeVersion.toNat, publishedAt := d.publishedAt,
        createdAt := d.createdAt, updatedAt := d.updatedAt }
    Txn.modify fun s => { s with documents := s.documents ++ [row] }

/-- Adds a document. -/
def insert (d : Document) : Txn StoreError Unit := insertAs (Label.word d.status) d

def find (id : String) : Txn StoreError (Option Document) := do
  match (← Txn.store).documents.find? (·.id == id) with
  | none => return none
  | some r => return some (← .ofExcept r.read)

/-- Changes the document of an id if its status is one of those allowed; tells how many rows that
were. -/
def changeFrom (id : String) (allowed : List DocumentStatus) (f : DocumentRow → DocumentRow) :
    Txn StoreError Nat := do
  let p (r : DocumentRow) : Bool := r.id == id && allowed.contains r.status
  let changed := ((← Txn.store).documents.filter p).length
  Txn.modify fun s => { s with documents := changeWhere p f s.documents }
  return changed

/-- Moves a document to another status. -/
def transition (id : String) (allowed : List DocumentStatus) (target : DocumentStatus)
    (now : String) : Txn StoreError Nat :=
  changeFrom id allowed fun r => { r with status := target, updatedAt := now }

/-- The extraction of a document is finished. -/
def markDraft (id : String) (pageCount : UInt32) (now : String) : Txn StoreError Nat :=
  changeFrom id [.processing] fun r =>
    { r with status := .draft, pageCount := .ofNat pageCount.toNat, updatedAt := now }

/-- The extraction of a document has failed. -/
def markFailed (id : String) (now : String) : Txn StoreError Nat :=
  changeFrom id [.processing] fun r => { r with status := .failed, updatedAt := now }

/-- A draft is published, perhaps under another title. -/
def markPublished (id : String) (version : UInt32) (title : Option String) (now : String) :
    Txn StoreError Nat :=
  changeFrom id [.draft] fun r =>
    { r with
      status := .published
      activeVersion := .ofNat version.toNat
      title := title <|> r.title
      publishedAt := some now
      updatedAt := now }

end Documents
end Quire
