import Quire.Store.Documents
import Quire.Job.Progress
import Quire.Time.Instant
import Quire.Failure.Job

/-! Jobs and their events in the store.

A document has at most one job that has not ended: the index `oneActive` refuses a second one.
A change of a job leaves a job that has ended alone, and tells how many rows it has changed. -/
namespace Quire

/-- A job as it is read. -/
structure Job where
  id : String
  ownerId : String
  documentId : Option String
  jobType : String
  status : JobStatus
  doneSteps : UInt32
  totalSteps : UInt32
  percent : Float
  currentStep : Option String
  heartbeatAt : Option String
  timeoutAt : Option String
  operationHandle : Option String
  params : Json
  result : Option Json
  errorMessage : Option String
  createdAt : String
  updatedAt : String
  completedAt : Option String
  deriving Inhabited

def Job.toJson (j : Job) : Json :=
  .ofMembers
    [("id", .text j.id), ("owner_id", .text j.ownerId),
      ("document_id", .ofOption .text j.documentId), ("job_type", .text j.jobType),
      ("status", Label.toJson j.status), ("done_steps", .ofNat j.doneSteps.toNat),
      ("total_steps", .ofNat j.totalSteps.toNat), ("percent", .ofFloat j.percent),
      ("current_step", .ofOption .text j.currentStep),
      ("heartbeat_at", .ofOption .text j.heartbeatAt),
      ("timeout_at", .ofOption .text j.timeoutAt),
      ("operation_handle", .ofOption .text j.operationHandle), ("params", j.params),
      ("result", j.result.getD .null), ("error_message", .ofOption .text j.errorMessage),
      ("created_at", .text j.createdAt), ("updated_at", .text j.updatedAt),
      ("completed_at", .ofOption .text j.completedAt)]

/-- The type of a job, which is stored as a word. -/
def Job.type (j : Job) : Except StoreError JobType := StoredKind.read j.jobType

/-- A row as a job, column by column; the result before what follows it. -/
def JobRow.read (r : JobRow) : Except StoreError Job := do
  let doneSteps ← r.doneSteps.word32 5 "done_steps"
  let totalSteps ← r.totalSteps.word32 6 "total_steps"
  let percent ← r.percent.float 7 "percent"
  let params ← r.params.read
  let result ← r.result.mapM StoredJson.read
  return { id := r.id, ownerId := r.ownerId, documentId := r.documentId, jobType := r.jobType,
           status := r.status, doneSteps := doneSteps, totalSteps := totalSteps,
           percent := percent, currentStep := r.currentStep, heartbeatAt := r.heartbeatAt,
           timeoutAt := r.timeoutAt, operationHandle := r.operationHandle, params := params,
           result := result, errorMessage := r.errorMessage, createdAt := r.createdAt,
           updatedAt := r.updatedAt, completedAt := r.completedAt }

/-- The row holds the lock of its document. -/
def JobRow.isActive (r : JobRow) : Bool := ! r.status.isTerminal

/-- Two jobs of one document that have both not ended. -/
def JobRow.clashes (a b : JobRow) : Bool :=
  a.isActive && b.isActive && a.documentId.isSome && a.documentId == b.documentId

namespace Jobs

/-- A document has at most one job that has not ended. -/
def oneActive : Violation := .unique "jobs" ["document_id"]

/-- Whether a reference to a document leads to one. -/
def refersWell (s : Store) : Option String → Bool
  | none => true
  | some id => s.hasDocument id

/-- The row of a job with a status. -/
def rowOf (j : Job) (status : JobStatus) : JobRow :=
  { id := j.id, ownerId := j.ownerId, documentId := j.documentId, jobType := j.jobType,
    status := status, doneSteps := .ofNat j.doneSteps.toNat,
    totalSteps := .ofNat j.totalSteps.toNat, percent := .real j.percent,
    currentStep := j.currentStep, heartbeatAt := j.heartbeatAt, timeoutAt := j.timeoutAt,
    operationHandle := j.operationHandle, params := .ofJson j.params,
    result := j.result.map .ofJson, errorMessage := j.errorMessage, createdAt := j.createdAt,
    updatedAt := j.updatedAt, completedAt := j.completedAt }

/-- Adds a row, if the rules of the schema allow it. -/
def insertRow (r : JobRow) : Txn StoreError Unit := do
  let s ← Txn.store
  Txn.require (! s.jobs.any r.clashes) (.violation oneActive)
  Txn.require (! s.hasJob r.id) (.violation (.primaryKey "jobs" "id"))
  Txn.require (refersWell s r.documentId) (.violation .foreignKey)
  Txn.modify fun s => { s with jobs := s.jobs ++ [r] }

/-- Adds a job with a status in words. -/
def insertAs (statusWord : String) (j : Job) : Txn StoreError Unit :=
  match Label.ofWord? statusWord with
  | none => .fail (.violation (.check (Documents.wordsRule JobStatus "status")))
  | some status => insertRow (rowOf j status)

/-- Adds a job. -/
def insert (j : Job) : Txn StoreError Unit := insertRow (rowOf j j.status)

def find (id : String) : Txn StoreError (Option Job) := do
  match (← Txn.store).jobs.find? (·.id == id) with
  | none => return none
  | some r => return some (← .ofExcept r.read)

/-- The job of a document that has not ended. -/
def findActive (documentId : String) : Txn StoreError (Option Job) := do
  match (← Txn.store).jobs.find? fun r => r.documentId == some documentId && r.isActive with
  | none => return none
  | some r => return some (← .ofExcept r.read)

/-- Rows changed one by one, unless a changed row clashes with another one. -/
def changeRows (p : JobRow → Bool) (f : JobRow → JobRow) (above : List JobRow) :
    List JobRow → Except StoreError (List JobRow)
  | [] => .ok above.reverse
  | r :: rest =>
    if p r then
      if (above ++ rest).any (f r).clashes then .error (.violation oneActive)
      else changeRows p f (f r :: above) rest
    else changeRows p f (r :: above) rest

/-- Changes the job of an id unless it has ended; tells how many rows that were. -/
def changeOpen (id : String) (f : JobRow → JobRow) : Txn StoreError Nat := do
  let p (r : JobRow) : Bool := r.id == id && r.isActive
  let s ← Txn.store
  let jobs ← .ofExcept (changeRows p f [] s.jobs)
  Txn.modify fun s => { s with jobs := jobs }
  return (s.jobs.filter p).length

def markRunning (id now : String) : Txn StoreError Nat :=
  changeOpen id fun r => { r with status := .running, updatedAt := now }

/-- The job waits for an operation. -/
def markPolling (id handle : String) (params : Json) (now timeoutAt : String) :
    Txn StoreError Nat :=
  changeOpen id fun r =>
    { r with
      status := .polling
      operationHandle := some handle
      params := .ofJson params
      heartbeatAt := some now
      timeoutAt := some timeoutAt
      updatedAt := now }

def markCompleted (id : String) (result : Option Json) (now : String) : Txn StoreError Nat :=
  changeOpen id fun r =>
    { r with
      status := .completed
      result := result.map .ofJson <|> r.result
      percent := .real 100
      updatedAt := now
      completedAt := some now }

def markFailed (id message now : String) : Txn StoreError Nat :=
  changeOpen id fun r =>
    { r with
      status := .failed
      errorMessage := some message
      updatedAt := now
      completedAt := some now }

/-- A sign of life that moves the deadline. -/
def touch (id now timeoutAt : String) : Txn StoreError Nat :=
  changeOpen id fun r =>
    { r with heartbeatAt := some now, timeoutAt := some timeoutAt, updatedAt := now }

def updateProgress (id : String) (done total : UInt32) (percent : Float) (step now : String) :
    Txn StoreError Nat :=
  changeOpen id fun r =>
    { r with
      doneSteps := .ofNat done.toNat
      totalSteps := .ofNat total.toNat
      percent := .real percent
      currentStep := some step
      heartbeatAt := some now
      updatedAt := now }

/-- The job has not ended and its deadline lies before a time. -/
def JobRow.isStale (now : String) (r : JobRow) : Bool :=
  r.isActive && match r.timeoutAt with
    | some t => t < now
    | none => false

/-- Where a status stands among the words in alphabetical order. -/
def alphabetical : JobStatus → Nat
  | .completed => 0
  | .failed => 1
  | .polling => 2
  | .queued => 3
  | .running => 4

/-- Stale jobs go by deadline, and those of one deadline by the word of their status. -/
def staleBefore (a b : JobRow) : Bool :=
  let x := a.timeoutAt.getD ""
  let y := b.timeoutAt.getD ""
  x < y || (x == y && alphabetical a.status ≤ alphabetical b.status)

def listStale (now : String) : Txn StoreError (List Job) := do
  let rows := (← Txn.store).jobs.filter (JobRow.isStale now)
  .ofExcept ((rows.mergeSort staleBefore).mapM JobRow.read)

/-! ### Events -/

def lastEventId (s : Store) : Int := s.events.foldl (fun n e => max n e.id) s.eventSeq

/-- Adds an event to a job's history. -/
def insertEvent (jobId : String) (kind : EventKind) (step : Option String) (message : String)
    (trace : Option String) (now : String) : Txn StoreError Unit := do
  let s ← Txn.store
  Txn.require (s.hasJob jobId) (.violation .foreignKey)
  let id := lastEventId s + 1
  Txn.modify fun s =>
    { s with events := s.events ++ [⟨id, jobId, kind, step, message, trace, now⟩], eventSeq := id }

/-- The events of a job in their order. -/
def events (jobId : String) : Txn StoreError (List EventRow) := do
  return ((← Txn.store).events.filter (·.jobId == jobId)).mergeSort fun a b => a.id ≤ b.id

end Jobs

def EventRow.toJson (e : EventRow) : Json :=
  .ofMembers
    [("id", .ofInt e.id), ("job_id", .text e.jobId), ("event_type", Label.toJson e.kind),
      ("step", .ofOption .text e.step), ("message", .text e.message),
      ("stack_trace", .ofOption .text e.trace), ("created_at", .text e.createdAt)]

end Quire
