import Quire.Store.Jobs

/-! What a caller learns about an extraction. -/
namespace Quire

/-- A job as it stands. -/
structure JobReport where
  jobId : String
  status : JobStatus
  /-- The job was an extraction, and its document is a draft now. -/
  draftReady : Bool
  pageCount : Option UInt32
  error : Option String
  deriving DecidableEq, Repr

namespace JobReport

/-- The operation of the job is still running. -/
def polling (jobId : String) : JobReport := ⟨jobId, .polling, false, none, none⟩

def completed (jobId : String) (pageCount : UInt32) : JobReport :=
  ⟨jobId, .completed, true, some pageCount, none⟩

def failed (jobId message : String) : JobReport := ⟨jobId, .failed, false, none, some message⟩

/-- The number of pages in a job's result. -/
def pageCountOf (result : Option Json) : Option UInt32 :=
  match result.bind (·.get? "page_count") with
  | some (.number (.integer n)) =>
    if 0 ≤ n && n < 0x10000000000000000 then some (UInt32.ofNat n.toNat) else none
  | _ => none

/-- A job as it is stored. -/
def ofJob (job : Job) : Except StoreError JobReport := do
  let jobType ← job.type
  return { jobId := job.id, status := job.status,
           draftReady := jobType == .documentExtract && job.status == .completed,
           pageCount := pageCountOf job.result, error := job.errorMessage }

def isSettled (r : JobReport) : Bool := r.status.isTerminal

/-- What is not known is left out. -/
def toJson (r : JobReport) : Json :=
  .ofMembers <|
    [("job_id", .text r.jobId), ("status", Label.toJson r.status),
      ("draft_ready", .bool r.draftReady)] ++
    (r.pageCount.map fun n => ("page_count", Json.ofNat n.toNat)).toList ++
    (r.error.map fun e => ("error", Json.text e)).toList

end JobReport

/-- How an ingestion has left its job. -/
inductive Ingestion
  | completed (jobId : String) (draftReady : Bool)
  /-- An operation in the background goes on. -/
  | polling (jobId : String)
  | failed (jobId error : String)
  deriving DecidableEq, Repr

namespace Ingestion

def jobId : Ingestion → String
  | .completed id _ => id
  | .polling id => id
  | .failed id _ => id

def ofReport (r : JobReport) : Ingestion :=
  match r.status with
  | .completed => .completed r.jobId r.draftReady
  | .failed => .failed r.jobId (r.error.getD "")
  | _ => .polling r.jobId

def toJson : Ingestion → Json
  | .completed id ready =>
    .ofMembers [("status", .text "completed"), ("job_id", .text id), ("draft_ready", .bool ready)]
  | .polling id => .ofMembers [("status", .text "polling"), ("job_id", .text id)]
  | .failed id error =>
    .ofMembers [("status", .text "failed"), ("job_id", .text id), ("error", .text error)]

end Ingestion
end Quire
