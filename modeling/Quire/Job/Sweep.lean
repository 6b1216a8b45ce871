import Quire.Job.Ledger

/-! The sweep: jobs whose deadline has passed are failed, with their documents.

The stale jobs are listed first; then each is failed in a transaction of its own, unless it has
ended in the meantime. -/
namespace Quire

structure SweepReport where
  failedJobs : List String
  failedDocuments : List String
  deriving DecidableEq, Repr

namespace SweepReport

def isEmpty (r : SweepReport) : Bool := r.failedJobs.isEmpty

def toJson (r : SweepReport) : Json :=
  .ofMembers
    [("failed_jobs", .array (r.failedJobs.map .text)),
      ("failed_documents", .array (r.failedDocuments.map .text))]

end SweepReport

namespace Sweep

/-- What a swept job is told. -/
def message (job : Job) : String :=
  "Timed out: no heartbeat since " ++ job.heartbeatAt.getD job.createdAt

/-- Fails a job, and its document while that is processing: nothing if the job has ended, else
whether the document was failed too. -/
def failJob (job : Job) (stamp : String) : Txn JobError (Option Bool) := do
  if (← (Jobs.markFailed job.id (message job) stamp).widen) == 0 then return none
  (Jobs.insertEvent job.id .error (some "sweep") (message job) none stamp).widen
  match job.documentId with
  | none => return some false
  | some documentId => return some (0 < (← (Documents.markFailed documentId stamp).widen))

/-- The report with a job that was failed. -/
def noted (r : SweepReport) (job : Job) : Option Bool → SweepReport
  | none => r
  | some documentFailed =>
    ⟨r.failedJobs ++ [job.id],
      r.failedDocuments ++ if documentFailed then job.documentId.toList else []⟩

/-- Fails jobs one after the other. -/
def failEach (stamp : String) (r : SweepReport) : List Job → Run JobError SweepReport
  | [] => return r
  | job :: rest => do
    failEach stamp (noted r job (← Run.transact (failJob job stamp))) rest

/-- Fails every job that is stale at a time. -/
def run (now : Instant) : Run JobError SweepReport := do
  let stale ← Run.transact (Jobs.listStale now.timestamp)
  failEach now.timestamp ⟨[], []⟩ stale

end Sweep
end Quire
