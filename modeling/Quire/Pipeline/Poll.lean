import Quire.Json.Shape
import Quire.Object.Store
import Quire.Pipeline.Cleanup
import Quire.Pipeline.Outcome
import Quire.Time.Instant

/-! Checking on operations in the background.

A check asks for the state of a job's operation once. It goes on from what is stored with the job
alone, which tells where its files are (`Staging`), so one that breaks off can be made again. A job type
is either polled from outside, one check at a time, or waited for here, with a bounded number of
checks. -/
namespace Quire

/-- Where the files of a recognition in the background are. The upload is copied to an object of its own,
and the results come into a folder of their own; both are named by owner, document and the moment of the
copy, so that no two attempts meet. -/
structure Staging where
  inputKey : String
  /-- What the keys of all results begin with. -/
  outputFolder : String
  inputUri : String
  outputUri : String
  mime : String
  deriving DecidableEq, Repr

namespace Staging
open Json (Shape Record)

/-- The places for a document's file at a moment. -/
def plan (bucket : Bucket) (ownerId documentId : String) (now : Instant)
    (extension mime : String) : Staging :=
  let stamp := toString now.millis
  let inputKey := s!"inputs/{ownerId}/{documentId}/{stamp}.{extension}"
  let outputFolder := s!"outputs/{ownerId}/{documentId}/{stamp}/"
  ⟨inputKey, outputFolder, bucket.uri inputKey, bucket.uri outputFolder, mime⟩

def shape : Shape Staging :=
  Record.shape "OcrJobParams" <|
    Staging.mk <$> .required "input_key" .string <*> .required "output_prefix" .string <*>
      .required "input_uri" .string <*> .required "output_uri" .string <*>
      .required "mime_type" .string

def toJson (s : Staging) : Json :=
  .ofMembers
    [("input_key", .text s.inputKey), ("output_prefix", .text s.outputFolder),
      ("input_uri", .text s.inputUri), ("output_uri", .text s.outputUri),
      ("mime_type", .text s.mime)]

end Staging

/-- What a collected operation has brought. -/
structure Collected where
  pageCount : UInt32
  cleaningFailures : Nat

namespace Pipeline

/-! ### Failing -/

/-- Fails a job, and its document while that is processing. -/
def failJob (job : Job) (message : String) (detail : Option String) (now : String) :
    Txn PipelineError Unit := do
  (guarded job.id (Jobs.markFailed job.id message now)).widen
  match job.documentId with
  | none => pure ()
  | some documentId =>
    let _ ← (Documents.markFailed documentId now).widen
  (Jobs.insertEvent job.id .error (some "poll") message detail now).widen

def fail (job : Job) (message : String) (detail : Option String) :
    Run PipelineError JobReport := do
  let now ← Run.clock
  Run.transact (failJob job message detail now.timestamp)
  return .failed job.id message

/-! ### Collecting results -/

/-- The pages of the shards under some keys, by number. -/
def readShards : List String → Run PipelineError (List (List Ocr.Page))
  | [] => return []
  | key :: rest => do
    let content ← Run.request (.get key)
    let pages ← Run.ofExcept (Ocr.Shard.parse content)
    return pages :: (← readShards rest)

/-- Stores pages batch by batch, each in a transaction of its own; `left` bounds the number of
batches. -/
def storeBatches (jobId documentId : String) (batch total stored : Nat) :
    (left : Nat) → List NewPage → Run PipelineError Unit
  | 0, _ => return
  | _, [] => return
  | left + 1, pages => do
    let now ← Run.clock
    let here := pages.take batch
    Run.transact (Pages.upsertAll documentId now.timestamp here)
    let stored := stored + here.length
    Run.widen (Ledger.updateProgress jobId (UInt32.ofNat stored) (UInt32.ofNat total) "saving")
    storeBatches jobId documentId batch total stored left (pages.drop batch)

def storePages (p : Pipeline) (jobId documentId : String) (pages : List NewPage) :
    Run PipelineError Unit :=
  storeBatches jobId documentId (max p.settings.pageInsertBatch 1) pages.length 0 pages.length pages

/-- What shards hold, cleaned and stored. -/
def collect (p : Pipeline) (jobId documentId : String) (keys : List String) :
    Run PipelineError Collected := do
  let pages := Ocr.Shard.merge (← readShards keys)
  let cleaned ← ExceptT.lift (p.cleanPages jobId pages)
  p.storePages jobId documentId cleaned
  return ⟨UInt32.ofNat cleaned.length, (cleaned.filter (·.cleaningFailed)).length⟩

/-- What an earlier check has stored, when no shards are left. -/
def alreadyCollected (documentId : String) : Run PipelineError Collected := do
  let pages ← Run.transact (Pages.list documentId)
  return ⟨UInt32.ofNat pages.length, (pages.filter (·.cleaningFailed)).length⟩

/-- Deletes objects one after the other, whatever happens; tells the last failure. -/
def deleteObjects (last : Option StorageError) :
    List String → Run PipelineError (Option StorageError)
  | [] => return last
  | key :: rest => do
    match ← Run.perform (.delete key) with
    | .ok () => deleteObjects last rest
    | .error e => deleteObjects (some e) rest

/-- Deletes the files of an operation; tells whether some are left. -/
def deleteFiles (jobId : String) (keys : List String) : Run PipelineError Bool := do
  match ← deleteObjects none keys with
  | none => return false
  | some e =>
    Run.widen (Ledger.report jobId .warning (some "cleanup")
      "Temporary OCR files were not fully deleted" e)
    return true

/-- What is kept of a collected operation with its job. -/
def summary (c : Collected) (cleanupFailed : Bool) : Json :=
  .ofMembers
    [("page_count", .ofNat c.pageCount.toNat), ("cleaning_failures", .ofNat c.cleaningFailures),
      ("cleanup_failed", .bool cleanupFailed)]

/-- The document becomes a draft, and the job is completed. -/
def completeJob (jobId documentId : String) (c : Collected) (cleanupFailed : Bool)
    (now : String) : Txn PipelineError Unit := do
  let moved ← (Documents.markDraft documentId c.pageCount now).widen
  Txn.require (0 < moved) (.precondition (.noLongerProcessing documentId))
  (guarded jobId (Jobs.markCompleted jobId (some (summary c cleanupFailed)) now)).widen
  (Jobs.insertEvent jobId .info (some "complete") s!"Extracted {c.pageCount.toNat} pages" none
    now).widen

/-- What a job has recorded of its operation. -/
def stagingOf (job : Job) : Except PipelineError Staging :=
  match Json.readValue Staging.shape job.params with
  | .ok s => .ok s
  | .error fault => .error (.internal (.badOcrParams fault))

def documentOf (job : Job) : Except PipelineError String :=
  match job.documentId with
  | some id => .ok id
  | none => .error (.internal .noDocument)

/-- Collects the results of an operation that is done. -/
def finalize (p : Pipeline) (job : Job) : Run PipelineError JobReport := do
  let staging ← Run.ofExcept (stagingOf job)
  let documentId ← Run.ofExcept (documentOf job)
  let found ← Run.request (.list staging.outputFolder)
  let keys := found.filter Ocr.Shard.isShardKey
  let collected ←
    if keys.isEmpty then alreadyCollected documentId else p.collect job.id documentId keys
  let cleanupFailed ← deleteFiles job.id (staging.inputKey :: keys)
  let now ← Run.clock
  Run.transact (completeJob job.id documentId collected cleanupFailed now.timestamp)
  return .completed job.id collected.pageCount

/-! ### Checking -/

/-- What follows from the outcome of collecting: a lasting failure fails the job. -/
def settle (job : Job) : Except PipelineError JobReport → Run PipelineError JobReport
  | .ok report => return report
  | .error e => do
    if ! e.isRetryable then
      let _ ← fail job e.publicMessage (some (Failure.message e))
    throw e

/-- What follows from the state of an operation. -/
def proceed (p : Pipeline) (job : Job) (state : Ocr.OperationStatus) :
    Run PipelineError JobReport := do
  if ! state.done then
    Run.widen (p.ledger.signalAlive job.id)
    return .polling job.id
  match state.error with
  | some message => fail job message none
  | none => settle job (← Run.outcome (p.finalize job))

/-- One check on a job that waits for an operation. -/
def check (p : Pipeline) (job : Job) : Run PipelineError JobReport := do
  match job.operationHandle with
  | none => fail job "Job has no operation handle" none
  | some handle =>
    match ← Run.perform (.status handle) with
    | .ok state => p.proceed job state
    | .error e =>
      Run.widen (Ledger.report job.id .warning (some "poll") "Operation status check failed" e)
      throw (.ofOcr e)

/-- One check from outside; a job that is not polled from outside is told as it is stored. -/
def poll (p : Pipeline) (jobId : String) : Run PipelineError JobReport := do
  let job ← Run.widen (Ledger.find jobId)
  if job.status != .polling then Run.ofExcept (JobReport.ofJob job)
  else match p.settings.polling.discipline (← Run.ofExcept job.type) with
    | .inProcess => Run.ofExcept (JobReport.ofJob job)
    | .external => p.check job

/-- How often a job is checked on. -/
def attempts (p : Pipeline) : Nat := max p.settings.maxPollAttempts.toNat 1

/-- What is done when no check is left. -/
def giveUp (p : Pipeline) (jobId : String) : Run PipelineError JobReport := do
  let job ← Run.widen (Ledger.find jobId)
  if job.status != .polling then Run.ofExcept (JobReport.ofJob job)
  else fail job s!"OCR operation did not finish after {p.attempts} checks" none

/-- Up to `left` checks with a pause between two of them. A check that fails is made again. -/
def waitFor (p : Pipeline) (jobId : String) : (left : Nat) → Run PipelineError JobReport
  | 0 => p.giveUp jobId
  | left + 1 => do
    let job ← Run.widen (Ledger.find jobId)
    if job.status != .polling then Run.ofExcept (JobReport.ofJob job)
    else
      let again : Run PipelineError JobReport := do
        if 0 < left then Run.perform (.sleep p.settings.pollIntervalMillis)
        waitFor p jobId left
      let outcome : Except PipelineError JobReport ← Run.outcome (p.check job)
      match outcome with
      | .ok report => if report.isSettled then return report else again
      | .error _ => again

/-- Waits for the end of a job that is not polled from outside. -/
def wait (p : Pipeline) (jobId : String) : Run PipelineError JobReport := do
  let job ← Run.widen (Ledger.find jobId)
  let jobType ← Run.ofExcept job.type
  match p.settings.polling.discipline jobType with
  | .external => throw (.precondition (.polledExternally jobType))
  | .inProcess => p.waitFor jobId p.attempts

/-! ### Parts

Collecting results is gathering pages and then closing the job; waiting is a check and, as long
as nothing is settled, another round. Both are the operations themselves, cut where proofs are
cut. -/

section Parts
variable (p : Pipeline)

/-- The pages of the shards, or what is stored when no shard is left. -/
def gather (jobId documentId : String) (keys : List String) : Run PipelineError Collected :=
  if keys.isEmpty then alreadyCollected documentId else p.collect jobId documentId keys

/-- The files go, and job and document are done. -/
def close (jobId documentId inputKey : String) (keys : List String) (c : Collected) :
    Run PipelineError JobReport := do
  let cleanupFailed ← deleteFiles jobId (inputKey :: keys)
  let now ← Run.clock
  Run.transact (completeJob jobId documentId c cleanupFailed now.timestamp)
  return .completed jobId c.pageCount

theorem finalize_eq (job : Job) : p.finalize job = (do
    let staging ← Run.ofExcept (stagingOf job)
    let documentId ← Run.ofExcept (documentOf job)
    let found ← Run.request (.list staging.outputFolder)
    let keys := found.filter Ocr.Shard.isShardKey
    let c ← p.gather job.id documentId keys
    close job.id documentId staging.inputKey keys c) := by
  unfold finalize gather close
  refine bind_congr fun staging => bind_congr fun documentId => bind_congr fun found => ?_
  dsimp only
  split
  · rfl
  · rfl

/-- Another round of waiting, after a pause if it makes a check. -/
def again (jobId : String) (left : Nat) : Run PipelineError JobReport := do
  if 0 < left then Run.perform (.sleep p.settings.pollIntervalMillis)
  p.waitFor jobId left

theorem waitFor_succ (jobId : String) (left : Nat) : p.waitFor jobId (left + 1) = (do
    let job ← Run.widen (Ledger.find jobId)
    if job.status != .polling then Run.ofExcept (JobReport.ofJob job)
    else
      let outcome : Except PipelineError JobReport ← Run.outcome (p.check job)
      match outcome with
      | .ok report => if report.isSettled then return report else p.again jobId left
      | .error _ => p.again jobId left) := rfl

end Parts

end Pipeline
end Quire
