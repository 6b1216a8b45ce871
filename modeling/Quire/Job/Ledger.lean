import Quire.Job.Lock
import Quire.Effect

/-! The ledger of jobs: changes of status, progress, signs of life and events.

Every change but the first leaves a job alone that has ended, and says so. -/
namespace Quire

structure Ledger where
  /-- How far a sign of life moves a job's deadline. -/
  heartbeat : Respite
  deriving DecidableEq, Repr

/-- A change that has found no open job: there is none of that id, or it has ended. -/
def ensureChanged (jobId : String) (changed : Nat) : Txn JobError Unit :=
  if 0 < changed then pure ()
  else do
    match ← (Jobs.find jobId).widen with
    | none => Txn.fail (.notFound jobId)
    | some job => Txn.fail (.terminal jobId job.status)

/-- A change of an open job. -/
def guarded (jobId : String) (change : Txn StoreError Nat) : Txn JobError Unit := do
  ensureChanged jobId (← change.widen)

namespace Ledger
variable (l : Ledger)

/-- The deadline after a sign of life. -/
def deadline (now : Instant) : String := (now.after l.heartbeat).timestamp

/-! ### Transactions -/

def running (jobId : String) (now : Instant) : Txn JobError Unit :=
  guarded jobId (Jobs.markRunning jobId now.timestamp)

def polling (jobId handle : String) (params : Json) (now : Instant) : Txn JobError Unit :=
  guarded jobId (Jobs.markPolling jobId handle params now.timestamp (l.deadline now))

def completed (jobId : String) (result : Option Json) (now : Instant) : Txn JobError Unit :=
  guarded jobId (Jobs.markCompleted jobId result now.timestamp)

def failed (jobId message : String) (now : Instant) : Txn JobError Unit :=
  guarded jobId (Jobs.markFailed jobId message now.timestamp)

def alive (jobId : String) (now : Instant) : Txn JobError Unit :=
  guarded jobId (Jobs.touch jobId now.timestamp (l.deadline now))

def progressed (jobId : String) (done total : UInt32) (step : String) (now : Instant) :
    Txn JobError Unit :=
  guarded jobId
    (Jobs.updateProgress jobId done total (Progress.percent done total) step now.timestamp)

/-! ### Runs -/

/-- A transaction at the time of the clock. -/
def atNow (t : Instant → Txn JobError α) : Run JobError α := do
  Run.transact (t (← Run.clock))

def find (jobId : String) : Run JobError Job := do
  match ← Run.transact (Jobs.find jobId) with
  | some job => return job
  | none => throw (.notFound jobId)

/-- Creates a queued job that holds no lock, or takes the lock of a document that is free. -/
def enqueue (n : NewJob) : Run JobError Job := do
  let id ← Run.freshId
  let now ← Run.clock
  let job := n.toJob id now l.heartbeat
  Run.transact (Jobs.insert job)
  return job

/-- Takes the lock of a document. -/
def acquire (n : NewJob) : Run JobError LockOutcome := do
  let id ← Run.freshId
  let now ← Run.clock
  Run.transact (tryAcquire n id now l.heartbeat)

/-- The job that holds the lock of a document. -/
def holder (documentId : String) : Run JobError (Option Job) :=
  Run.transact (Jobs.findActive documentId)

def markRunning (jobId : String) : Run JobError Unit := atNow (running jobId)

def markPolling (jobId handle : String) (params : Json) : Run JobError Unit :=
  atNow (l.polling jobId handle params)

def markCompleted (jobId : String) (result : Option Json) : Run JobError Unit :=
  atNow (completed jobId result)

def markFailed (jobId message : String) : Run JobError Unit := atNow (failed jobId message)

def signalAlive (jobId : String) : Run JobError Unit := atNow (l.alive jobId)

def updateProgress (jobId : String) (done total : UInt32) (step : String) : Run JobError Unit :=
  atNow (progressed jobId done total step)

def addEvent (jobId : String) (kind : EventKind) (step : Option String) (message : String)
    (trace : Option String) : Run JobError Unit := do
  let now ← Run.clock
  Run.transact (Jobs.insertEvent jobId kind step message trace now.timestamp)

/-- Adds an event. -/
def note (jobId : String) (kind : EventKind) (step : Option String) (message : String) :
    Run JobError Unit :=
  addEvent jobId kind step message none

/-- Adds an event about a failure: its message follows, its causes are kept with the event. -/
def report {ε : Type} [Failure ε] (jobId : String) (kind : EventKind) (step : Option String)
    (message : String) (e : ε) : Run JobError Unit :=
  addEvent jobId kind step (message ++ ": " ++ Failure.message e) (some (Failure.trace e))

def events (jobId : String) : Run JobError (List EventRow) := Run.transact (Jobs.events jobId)

end Ledger
end Quire
