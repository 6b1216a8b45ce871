import Quire.Pipeline.Poll
import Quire.FileType
import Quire.NativeText

/-! Ingestion: from an upload to a draft.

The document's lock is taken first. Then text is taken from the file in the cheapest way that
yields any: a paginated file's own text, else recognition, at once for a small file of one page
and in the background for all others. Whatever fails after the lock is taken fails the job and
the document. -/
namespace Quire.Pipeline

/-! ### The lock -/

/-- Why a document that was not moved cannot be ingested. -/
def notIngestible : DocumentStatus → PipelineError
  | .published => .conflict .alreadyPublished
  | status => .precondition (.notIngestible status)

/-- Takes the lock of a document and sets it processing, without the pages of earlier attempts. -/
def lockDocument (documentId ownerId jobId : String) (now : Instant) (heartbeat : Respite) :
    Txn PipelineError (Document × Job) := do
  let document ← ownDocument documentId ownerId
  let wanted := NewJob.onDocument ownerId documentId .documentExtract
  match ← (tryAcquire wanted jobId now heartbeat).widen with
  | .alreadyLocked => Txn.fail (.conflict .alreadyProcessing)
  | .acquired job =>
    let moved ←
      (Documents.transition documentId [.uploading, .failed] .processing now.timestamp).widen
    Txn.require (0 < moved) (notIngestible document.status)
    let cleared ← (Pages.deleteAll documentId).widen
    (Jobs.insertEvent job.id .info (some "lock") s!"Lock acquired; cleared {cleared} stale pages"
      none now.timestamp).widen
    return (document, job)

/-! ### Text at once -/

/-- Stores the pages of a document, makes it a draft and completes the job. -/
def finishWith (document : Document) (jobId : String) (pages : List NewPage) (source now : String) :
    Txn PipelineError Unit := do
  let pageCount := UInt32.ofNat pages.length
  (Pages.upsertAll document.id now pages).widen
  let moved ← (Documents.markDraft document.id pageCount now).widen
  Txn.require (0 < moved) (.precondition .leftProcessing)
  let result : Json :=
    .ofMembers [("page_count", .ofNat pageCount.toNat), ("source", .text source)]
  (guarded jobId (Jobs.markCompleted jobId (some result) now)).widen

def finish (document : Document) (jobId : String) (pages : List NewPage) (source : String) :
    Run PipelineError Ingestion := do
  let now ← Run.clock
  Run.transact (finishWith document jobId pages source now.timestamp)
  return .completed jobId true

/-- The file's own text, if it has enough of it. -/
def ownText (p : Pipeline) (jobId : String) (r : Upload.Reference) :
    Run PipelineError (Option (List String)) := do
  let content ← readUpload r p.settings.nativeSizeLimit
  match ← Run.perform (.extract content) with
  | .error e =>
    Run.widen (Ledger.report jobId .warning (some "native_extraction")
      "Native extraction failed, using OCR" e)
    return none
  | .ok pages =>
    if NativeText.isUsable pages p.settings.nativeTextThreshold then return some pages
    Run.widen (Ledger.note jobId .info (some "native_extraction")
      s!"Only {NativeText.totalChars pages} characters of native text across {pages.length} pages, using OCR")
    return none

/-- Pages with a file's own text, numbered from one. -/
def ownPages (texts : List String) : List NewPage :=
  texts.zipIdx.map fun (text, i) => .uncleaned (UInt32.ofNat (i + 1)) text .native

/-- Recognizes a file of one page at once. -/
def recognizeNow (p : Pipeline) (document : Document) (jobId : String) (r : Upload.Reference)
    (mime : String) : Run PipelineError Ingestion := do
  Run.widen (Ledger.updateProgress jobId 0 1 "ocr")
  let content ← readUpload r p.settings.syncSizeLimit
  let text ← Run.request (.recognize content mime)
  finish document jobId [.uncleaned 1 (Text.trim text) .ocr] "ocr_sync"

/-! ### Recognition in the background -/

/-- The extension for the copy of an upload. -/
def copyExtension (document : Document) : String :=
  ((Path.extension? document.fileName).map Text.asciiLower).getD document.fileType

/-- Starts an operation on a copied file. If it does not start, the copy is removed. -/
def submit (s : Staging) : Run PipelineError String := do
  match ← Run.perform (.submit s.inputUri s.mime s.outputUri) with
  | .ok handle => return handle
  | .error e =>
    let _ ← Run.perform (.delete s.inputKey)
    throw (.ofOcr e)

/-- Copies the upload, starts an operation on the copy and leaves the job to it. -/
def dispatch (p : Pipeline) (document : Document) (jobId : String) (r : Upload.Reference)
    (mime : String) : Run PipelineError Ingestion := do
  let now ← Run.clock
  let staging := Staging.plan p.bucket document.ownerId document.id now (copyExtension document) mime
  Run.widen (Ledger.updateProgress jobId 0 1 "staging")
  let body ← Run.request (.openUpload r)
  Run.request (.put staging.inputKey body mime)
  let handle ← submit staging
  Run.widen (p.ledger.markPolling jobId handle staging.toJson)
  Run.widen (Ledger.note jobId .info (some "ocr_submit") "Asynchronous OCR operation started")
  match p.settings.polling.discipline .documentExtract with
  | .external => return .polling jobId
  | .inProcess => return .ofReport (← p.wait jobId)

/-! ### The whole -/

/-- Recognition, at once or in the background. -/
def recognize (p : Pipeline) (document : Document) (jobId : String) (fileType : FileType)
    (r : Upload.Reference) : Run PipelineError Ingestion :=
  let mime := document.mimeType.getD fileType.defaultMime
  if fileType.isPaginated || p.settings.syncSizeLimit < r.size then
    p.dispatch document jobId r mime
  else p.recognizeNow document jobId r mime

/-- Takes the text from a document's file. -/
def extract (p : Pipeline) (document : Document) (jobId : String) :
    Run PipelineError Ingestion := do
  let fileType ← Run.ofExcept (FileType.ofWord document.fileType)
  let r ← Run.request (.reference document.storagePath p.settings.referenceTtl)
  if fileType.supportsNativePagination && r.size ≤ p.settings.nativeSizeLimit then
    Run.widen (Ledger.updateProgress jobId 0 1 "native_extraction")
    match ← p.ownText jobId r with
    | some texts => return ← finish document jobId (ownPages texts) "native"
    | none => pure ()
  p.recognize document jobId fileType r

/-- What is recorded of a failed ingestion. -/
def recordFailure (document : Document) (jobId : String) (e : PipelineError) (now : String) :
    Txn StoreError Unit := do
  let _ ← Jobs.markFailed jobId e.publicMessage now
  let _ ← Documents.markFailed document.id now
  Jobs.insertEvent jobId .error (some "ingest") ("Ingestion failed: " ++ e.publicMessage)
    (some (Failure.message e)) now

/-- Hands an outcome on; a failure is recorded first, as far as that is possible. -/
def conclude (document : Document) (jobId : String) :
    Except PipelineError Ingestion → Run PipelineError Ingestion
  | .ok outcome => return outcome
  | .error e => do
    let now ← Run.clock
    let _ ← Run.perform (.transact (recordFailure document jobId e now.timestamp))
    throw e

/-- Ingests a document of an owner. -/
def ingest (p : Pipeline) (documentId ownerId : String) : Run PipelineError Ingestion := do
  let id ← Run.freshId
  let now ← Run.clock
  let (document, job) ← Run.transact (lockDocument documentId ownerId id now p.ledger.heartbeat)
  Run.widen (Ledger.markRunning job.id)
  conclude document job.id (← Run.outcome (p.extract document job.id))

end Quire.Pipeline
