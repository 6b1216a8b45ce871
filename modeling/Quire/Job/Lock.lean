import Quire.Store.Jobs

/-! The lock of a document.

A document is locked as long as it has a job that has not ended; taking the lock is adding such a
job. There is no unlocking: the lock goes when the job ends. -/
namespace Quire

/-- How far a sign of life moves a job's deadline. -/
structure Respite extends Span where
  /-- From every moment of the years 0 to 9999 on, the deadline is an instant of the calendar. -/
  within : seconds.natAbs ≤ 7956864576000
  deriving DecidableEq, Repr

namespace Respite

instance : Coe Respite Span := ⟨toSpan⟩

def minute : Respite := ⟨⟨60⟩, by decide⟩

/-- As far as a span says; none if that leads out of the calendar. -/
def ofSpan? (s : Span) : Option Respite :=
  if h : s.seconds.natAbs ≤ 7956864576000 then some ⟨s, h⟩ else none

end Respite

/-- A job that is about to be created. -/
structure NewJob where
  ownerId : String
  /-- The document whose lock the job holds, if there is one. -/
  documentId : Option String
  jobType : JobType
  params : Json

namespace NewJob

/-- A job on a document, without parameters. -/
def onDocument (ownerId documentId : String) (jobType : JobType) : NewJob :=
  ⟨ownerId, some documentId, jobType, .ofMembers []⟩

/-- The queued job. Its creation counts as a sign of life, so that a job that never starts is
stale after a while. -/
def toJob (n : NewJob) (id : String) (now : Instant) (heartbeat : Respite) : Job :=
  { id := id, ownerId := n.ownerId, documentId := n.documentId, jobType := Label.word n.jobType,
    status := .queued, doneSteps := 0, totalSteps := 0, percent := 0, currentStep := none,
    heartbeatAt := some now.timestamp, timeoutAt := some (now.after heartbeat).timestamp,
    operationHandle := none, params := n.params, result := none, errorMessage := none,
    createdAt := now.timestamp, updatedAt := now.timestamp, completedAt := none }

end NewJob

inductive LockOutcome
  | acquired (job : Job)
  | alreadyLocked

namespace LockOutcome

def isAcquired : LockOutcome → Bool
  | .acquired _ => true
  | .alreadyLocked => false

end LockOutcome

/-- Adds a job as the holder of its document's lock. Every failure but a taken lock is the
caller's. -/
def tryAcquire (n : NewJob) (id : String) (now : Instant) (heartbeat : Respite) :
    Txn StoreError LockOutcome := do
  let job := n.toJob id now heartbeat
  match ← Txn.attempt (Jobs.insert job) with
  | .ok () => return .acquired job
  | .error e => if e.isUniqueViolation then return .alreadyLocked else Txn.fail e

end Quire
