import Quire.Job.Sweep
import Quire.Pipeline.Outcome
import Quire.Rehearsal.Step.Basic
import Quire.Store.Artifacts
import Quire.Store.Database

/-! Steps of the ledger and the lock, and steps on the store itself. -/
namespace Quire.Rehearsal.Step
open Lookup

/-- The member of a finite kind that a step names. -/
def named {α : Type} [Label α] (j : Json) (key : String) (standard : α) : α :=
  (Label.ofWord? (text j key)).getD standard

def newJob (j : Json) : NewJob :=
  ⟨owner j, text? j "doc", named j "type" .documentExtract, object j "params"⟩

/-- The job that holds the lock now. -/
def acquired : LockOutcome → Json
  | .acquired job => job.toJson
  | .alreadyLocked => .null

/-- Takes a lock at a given time. -/
def tryAcquireAt (j : Json) : Act := do
  match Respite.ofSpan? ⟨int j "extension"⟩ with
  | none => return .ofMembers [("error", .text "Panic")]
  | some heartbeat =>
    let w ← get
    set { w with issued := w.issued + 1 }
    transact (fun o => .ofMembers [("acquired", acquired o)])
      (tryAcquire (newJob j) (identifier (w.issued + 1)) ⟨int j "secs", 0⟩ heartbeat)

/-- A job as it is stored. -/
def outcome (jobId : String) : Act := do
  let job : Except JobError Job ← fun w => w.run (Ledger.find jobId)
  match job with
  | .error e => return Shown.json e
  | .ok job =>
    return Shown.outcome (fun r => with_ "settled" (.bool r.isSettled) r.toJson)
      (JobReport.ofJob job)

def logEvent (j : Json) : Run JobError Unit :=
  let kind := named j "kind" EventKind.info
  match field? j "err" with
  | none => Ledger.note (text j "job") kind (text? j "step") (text j "message")
  | some e =>
    Described.any e fun e => Ledger.report (text j "job") kind (text? j "step") (text j "message") e

def ledger (l : Ledger) (j : Json) : Option Act :=
  let job := text j "job"
  match text j "do" with
  | "sweep" => some do
    let now := (← get).now
    run (fun r => with_ "empty" (.bool r.isEmpty) r.toJson)
      (Sweep.run (now.after ⟨int j "offset_secs"⟩))
  | "lock" =>
    some (run (fun o => .ofMembers
      [("acquired", acquired o), ("is_acquired", .bool o.isAcquired)]) (l.acquire (newJob j)))
  | "try_acquire" => some (tryAcquireAt j)
  | "holder" => some (run (orNull Job.toJson) (Ledger.holder (text j "doc")))
  | "enqueue" => some (run Job.toJson (l.enqueue (newJob j)))
  | "find_job" => some (run Job.toJson (Ledger.find job))
  | "outcome" => some (outcome job)
  | "job_types" =>
    some (run (fun job => .ofMembers
      [("status", Label.toJson job.status), ("type", Shown.outcome Label.toJson job.type)])
      (Ledger.find job))
  | "events" => some (run (all EventRow.toJson) (Ledger.events job))
  | "mark_running" => some (run done (Ledger.markRunning job))
  | "mark_polling" => some (run done (l.markPolling job (text j "handle") (object j "params")))
  | "mark_completed" => some (run done (Ledger.markCompleted job (j.get? "result")))
  | "mark_failed" => some (run done (Ledger.markFailed job (text j "message")))
  | "heartbeat" => some (run done (l.signalAlive job))
  | "progress" =>
    some (run done
      (Ledger.updateProgress job (word32 j "done") (word32 j "total") (text j "step")))
  | "log_event" => some (run done (logEvent j))
  | _ => none

/-! ### The store -/

def documentOf (j : Json) : Document where
  id := text j "id"
  ownerId := text j "owner_id" "owner-1"
  title := text? j "title"
  fileName := text j "file_name" "lesson.pdf"
  storagePath := text j "storage_path" "owner-1/lesson.pdf"
  mimeType := text? j "mime_type"
  fileType := text j "file_type" "pdf"
  fileSize := UInt64.ofNat (nat j "file_size_bytes")
  status := .uploading
  pageCount := word32 j "page_count"
  activeVersion := word32 j "active_version"
  publishedAt := text? j "published_at"
  createdAt := text j "created_at" "t0"
  updatedAt := text j "updated_at" "t0"

def jobOf (j : Json) : Job where
  id := text j "id"
  ownerId := text j "owner_id" "owner-1"
  documentId := text? j "document_id"
  jobType := text j "job_type" "document_extract"
  status := .queued
  doneSteps := word32 j "done_steps"
  totalSteps := word32 j "total_steps"
  percent := float j "percent"
  currentStep := text? j "current_step"
  heartbeatAt := text? j "heartbeat_at"
  timeoutAt := text? j "timeout_at"
  operationHandle := text? j "operation_handle"
  params := object j "params"
  result := field? j "result"
  errorMessage := text? j "error_message"
  createdAt := text j "created_at" "t0"
  updatedAt := text j "updated_at" "t0"
  completedAt := text? j "completed_at"

def pageOf (j : Json) : NewPage :=
  let page := NewPage.uncleaned (word32 j "page_no" 1) (text j "raw_text")
    (named j "source" .native)
  { page with
    cleanText := text j "clean_text" page.cleanText
    cleaningModel := text? j "cleaning_model"
    cleaningVersion := text? j "cleaning_version"
    cleaningFailed := flag j "cleaning_failed"
    changesSummary := text? j "changes_summary" }

def versionOf (j : Json) : Version where
  id := text j "id"
  documentId := text j "document_id"
  version := word32 j "version" 1
  snapshot := (Described.numbered (field j "pages")).map fun (n, t) => ⟨n, t⟩
  createdBy := text j "created_by"
  createdAt := text j "created_at"
  notes := text? j "notes"

def artifactOf (j : Json) : Artifact where
  id := text j "id"
  ownerId := owner j
  documentId := text? j "doc"
  sourceHash := text j "hash"
  kind := text j "kind"
  payload := (j.get? "payload").getD .null
  createdAt := text j "created_at" "t0"

/-- Rows that are added in one transaction, or each in one of its own. -/
def added (j : Json) (together : Txn StoreError Unit) (each : List (Txn StoreError Unit)) : Act :=
  if flag j "tx" then transact done together
  else do return Shown.outcome done (← eachAlone each)

def documents (j : Json) : Option Act :=
  let id := text j "id"
  let now := text j "now" "t1"
  match text j "do" with
  | "doc_insert" =>
    some (transact done (Documents.insertAs (text j "status" "uploading") (documentOf j)))
  | "doc_find" => some (transact (orNull Document.toJson) (Documents.find id))
  | "doc_status" =>
    some (transact (orNull fun d : Document => Label.toJson d.status) (Documents.find id))
  | "doc_transition" =>
    some (transact changed (Documents.transition id
      ((list j "from").filterMap fun s => Label.ofWord? (asText s))
      (named j "to" .uploading) now))
  | "doc_mark_draft" =>
    some (transact changed (Documents.markDraft id (word32 j "page_count") now))
  | "doc_mark_failed" => some (transact changed (Documents.markFailed id now))
  | "doc_mark_published" =>
    some (transact changed
      (Documents.markPublished id (word32 j "version" 1) (text? j "title") now))
  | _ => none

def pages (j : Json) : Option Act :=
  let doc := text j "doc"
  let page := word32 j "page" 1
  let now := text j "now" "t1"
  match text j "do" with
  | "page_upsert" =>
    let pages := (list j "pages").map pageOf
    some (added j (Pages.upsertAll doc now pages) (pages.map fun p => Pages.upsert doc p now))
  | "page_find" => some (transact (orNull Page.toJson) (Pages.find doc page))
  | "page_list" => some (transact (all Page.toJson) (Pages.list doc))
  | "page_edit" =>
    some (transact changed (Pages.setEdit doc page (text? j "text") (owner j) now))
  | "page_delete" => some (transact changed (Pages.deleteAll doc))
  | _ => none

def versions (j : Json) : Option Act :=
  match text j "do" with
  | "version_insert" => some (transact done (Versions.insert (versionOf j)))
  | "version_next" =>
    some (transact (fun n : UInt32 => .ofMembers [("next", .ofNat n.toNat)])
      (Versions.next (text j "doc") (word32 j "active")))
  | "version_find" => some (transact (orNull Version.toJson) (Versions.find (text j "id")))
  | "version_list" => some (transact (all Version.toJson) (Versions.list (text j "doc")))
  | _ => none

def jobs (j : Json) : Option Act :=
  let id := text j "id"
  let now := text j "now" "t1"
  match text j "do" with
  | "job_insert" => some (transact done (Jobs.insertAs (text j "status" "queued") (jobOf j)))
  | "job_find" => some (transact (orNull Job.toJson) (Jobs.find id))
  | "job_active" => some (transact (orNull Job.toJson) (Jobs.findActive (text j "doc")))
  | "job_mark_running" => some (transact changed (Jobs.markRunning id now))
  | "job_mark_polling" =>
    some (transact changed
      (Jobs.markPolling id (text j "handle") (object j "params") now (text j "timeout_at")))
  | "job_mark_completed" => some (transact changed (Jobs.markCompleted id (j.get? "result") now))
  | "job_mark_failed" => some (transact changed (Jobs.markFailed id (text j "message") now))
  | "job_touch" => some (transact changed (Jobs.touch id now (text j "timeout_at")))
  | "job_progress" =>
    some (transact changed (Jobs.updateProgress id (word32 j "done") (word32 j "total")
      (float j "percent") (text j "step") now))
  | "job_stale" => some (transact (all fun job : Job => .text job.id) (Jobs.listStale now))
  | "job_event" =>
    some (transact done (Jobs.insertEvent id (named j "kind" .info) (text? j "step")
      (text j "message") (text? j "trace") now))
  | "job_events" =>
    some (transact (all fun e : EventRow => .array [e.toJson, Label.toJson e.kind])
      (Jobs.events id))
  | _ => none

/-- The rest: artifacts, values set by hand, and the migrations. -/
def others (j : Json) : Option Act :=
  match text j "do" with
  | "artifact_insert" =>
    let rows := (list j "rows").map artifactOf
    some (added j (Artifacts.insertAll rows) (rows.map Artifacts.insert))
  | "artifact_find" =>
    some (transact (all Artifact.toJson) (Artifacts.find (owner j) (text j "hash")))
  | "force" =>
    some (transact changed
      (Column.write (text j "table") (text j "column") (text j "id") (scalar (field j "value"))))
  | "migrations" =>
    some (pure (all (fun m : Migration => .array [.ofNat m.version, .text m.description])
      Migration.all))
  | _ => none

def store (j : Json) : Option Act :=
  documents j <|> pages j <|> versions j <|> jobs j <|> others j

end Quire.Rehearsal.Step
