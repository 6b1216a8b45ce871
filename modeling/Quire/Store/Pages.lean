import Quire.Store.Documents
import Quire.Text.Cut

/-! Pages in the store.

A document has at most one page of a number. Storing a page again replaces what extraction has
found and leaves what somebody has edited. -/
namespace Quire

/-- A page as it is read. -/
structure Page where
  documentId : String
  pageNo : UInt32
  rawText : Option String
  cleanText : Option String
  editedText : Option String
  source : PageSource
  wordCount : UInt32
  cleaningModel : Option String
  cleaningVersion : Option String
  cleaningFailed : Bool
  changesSummary : Option String
  editedBy : Option String
  editedAt : Option String
  createdAt : String
  deriving DecidableEq, Inhabited

/-- The text that counts: the edited one, else the clean one, else the raw one. -/
def finalText (raw clean edited : Option String) : String :=
  (edited <|> clean <|> raw).getD ""

def Page.finalText (p : Page) : String := Quire.finalText p.rawText p.cleanText p.editedText

def Page.toJson (p : Page) : Json :=
  .ofMembers
    [("document_id", .text p.documentId), ("page_no", .ofNat p.pageNo.toNat),
      ("raw_text", .ofOption .text p.rawText), ("clean_text", .ofOption .text p.cleanText),
      ("edited_text", .ofOption .text p.editedText), ("source", Label.toJson p.source),
      ("word_count", .ofNat p.wordCount.toNat),
      ("cleaning_model", .ofOption .text p.cleaningModel),
      ("cleaning_version", .ofOption .text p.cleaningVersion),
      ("cleaning_failed", .bool p.cleaningFailed),
      ("changes_summary", .ofOption .text p.changesSummary),
      ("edited_by", .ofOption .text p.editedBy), ("edited_at", .ofOption .text p.editedAt),
      ("created_at", .text p.createdAt), ("final_text", .text p.finalText)]

/-- A row as a page, column by column. -/
def PageRow.read (r : PageRow) : Except StoreError Page := do
  let pageNo ← r.pageNo.word32 2 "page_no"
  let wordCount ← r.wordCount.word32 7 "word_count"
  let cleaningFailed ← r.cleaningFailed.flag 10 "cleaning_failed"
  return { documentId := r.documentId, pageNo := pageNo, rawText := r.rawText,
           cleanText := r.cleanText, editedText := r.editedText, source := r.source,
           wordCount := wordCount, cleaningModel := r.cleaningModel,
           cleaningVersion := r.cleaningVersion, cleaningFailed := cleaningFailed,
           changesSummary := r.changesSummary, editedBy := r.editedBy, editedAt := r.editedAt,
           createdAt := r.createdAt }

/-- A page that extraction has produced. -/
structure NewPage where
  pageNo : UInt32
  rawText : String
  cleanText : String
  source : PageSource
  cleaningModel : Option String
  cleaningVersion : Option String
  cleaningFailed : Bool
  changesSummary : Option String
  deriving DecidableEq, Inhabited

/-- A page whose clean text is its raw text. -/
def NewPage.uncleaned (pageNo : UInt32) (text : String) (source : PageSource) : NewPage where
  pageNo := pageNo
  rawText := text
  cleanText := text
  source := source
  cleaningModel := none
  cleaningVersion := none
  cleaningFailed := false
  changesSummary := none

namespace Pages

/-- Whether a row is the page of a document and a number. -/
def isPage (documentId : String) (pageNo : UInt32) (r : PageRow) : Bool :=
  r.documentId == documentId && r.pageNo == .ofNat pageNo.toNat

/-- A row with what extraction has found. -/
def withContent (p : NewPage) (r : PageRow) : PageRow :=
  { r with
    rawText := some p.rawText
    cleanText := some p.cleanText
    source := p.source
    wordCount := .ofNat (UInt32.ofNat (Text.wordCount p.rawText)).toNat
    cleaningModel := p.cleaningModel
    cleaningVersion := p.cleaningVersion
    cleaningFailed := .ofFlag p.cleaningFailed
    changesSummary := p.changesSummary }

/-- A new row. -/
def rowOf (id : Int) (documentId : String) (p : NewPage) (now : String) : PageRow :=
  withContent p
    { id := id, documentId := documentId, pageNo := .ofNat p.pageNo.toNat, rawText := none,
      cleanText := none, editedText := none, source := p.source, wordCount := .ofNat 0,
      cleaningModel := none, cleaningVersion := none, cleaningFailed := .ofFlag false,
      changesSummary := none, editedBy := none, editedAt := none, createdAt := now }

/-- The largest id among the rows, and the last one given out. -/
def lastId (s : Store) : Int := s.pages.foldl (fun n r => max n r.id) s.pageSeq

/-- Adds a page or replaces its content. Either way an id is used up. -/
def upsert (documentId : String) (p : NewPage) (now : String) : Txn StoreError Unit := do
  Txn.require (1 ≤ p.pageNo) (.violation (.check "page_no >= 1"))
  let s ← Txn.store
  let id := lastId s + 1
  if s.pages.any (isPage documentId p.pageNo) then
    Txn.modify fun s =>
      { s with
        pages := changeWhere (isPage documentId p.pageNo) (withContent p) s.pages
        pageSeq := id }
  else
    Txn.require (s.hasDocument documentId) (.violation .foreignKey)
    Txn.modify fun s =>
      { s with pages := s.pages ++ [rowOf id documentId p now], pageSeq := id }

/-- Adds or replaces pages one after the other. -/
def upsertAll (documentId : String) (now : String) : List NewPage → Txn StoreError Unit
  | [] => pure ()
  | p :: rest => do
    upsert documentId p now
    upsertAll documentId now rest

/-- The pages of a document by number. -/
def list (documentId : String) : Txn StoreError (List Page) := do
  let rows := (← Txn.store).pages.filter (·.documentId == documentId)
  .ofExcept ((rows.mergeSort fun a b => a.pageNo.le b.pageNo).mapM PageRow.read)

def find (documentId : String) (pageNo : UInt32) : Txn StoreError (Option Page) := do
  match (← Txn.store).pages.find? (isPage documentId pageNo) with
  | none => return none
  | some r => return some (← .ofExcept r.read)

/-- Sets or clears what somebody has edited; tells how many rows that were. -/
def setEdit (documentId : String) (pageNo : UInt32) (text : Option String) (editor now : String) :
    Txn StoreError Nat := do
  let changed := ((← Txn.store).pages.filter (isPage documentId pageNo)).length
  Txn.modify fun s =>
    { s with
      pages := changeWhere (isPage documentId pageNo)
        (fun r => { r with editedText := text, editedBy := some editor, editedAt := some now })
        s.pages }
  return changed

/-- Removes the pages of a document; tells how many there were. -/
def deleteAll (documentId : String) : Txn StoreError Nat := do
  let gone := ((← Txn.store).pages.filter (·.documentId == documentId)).length
  Txn.modify fun s => { s with pages := s.pages.filter (·.documentId != documentId) }
  return gone

end Pages
end Quire
