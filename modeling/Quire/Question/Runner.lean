import Quire.Job.Ledger
import Quire.Question.Cache
import Quire.Store.Versions
import Quire.Failure.Pipeline

/-! Running a generation job.

The job points at a published version, so that later edits of pages never change what it works
on. Whatever comes of it, the job ends. -/
namespace Quire

structure GenerationOutcome where
  jobId : String
  versionId : String
  cacheHit : Bool
  questions : List Question

def GenerationOutcome.toJson (o : GenerationOutcome) : Json :=
  .ofMembers
    [("job_id", .text o.jobId), ("version_id", .text o.versionId), ("cache_hit", .bool o.cacheHit),
      ("questions", .array (o.questions.map Question.toJson))]

namespace GenerationJob

/-- What a job wants. -/
def paramsOf (job : Job) : Except PipelineError GenerationJobParams :=
  match Json.readValue GenerationJobParams.shape job.params with
  | .ok p => .ok p
  | .error fault => .error (.precondition (.badParams fault))

/-- The questions for a job. -/
def generate (job : Job) : Run PipelineError GenerationOutcome := do
  let p ← Run.ofExcept (paramsOf job)
  match ← Run.transact (Versions.find p.versionId) with
  | none => throw (.notFound .version p.versionId)
  | some v =>
    let cached ← Run.widen
      (QuestionCache.getOrGenerate job.ownerId (some v.documentId) v.joinedText p.questions)
    return ⟨job.id, v.id, cached.hit, cached.questions⟩

/-- What is kept of an outcome with the job. -/
def summary (o : GenerationOutcome) : Json :=
  .ofMembers
    [("question_count", .ofNat o.questions.length), ("cache_hit", .bool o.cacheHit),
      ("version_id", .text o.versionId)]

/-- Ends the job with its outcome. -/
def settle (jobId : String) : Except PipelineError GenerationOutcome →
    Run PipelineError GenerationOutcome
  | .ok o => do
    Run.widen (Ledger.markCompleted jobId (some (summary o)))
    Run.widen (Ledger.note jobId .info (some "generate")
      s!"Generated {o.questions.length} questions")
    return o
  | .error e => do
    Run.widen (Ledger.markFailed jobId e.publicMessage)
    Run.widen (Ledger.report jobId .error (some "generate") "Question generation failed" e)
    throw e

/-- Runs a generation job that has not ended. -/
def run (jobId : String) : Run PipelineError GenerationOutcome := do
  let job ← Run.widen (Ledger.find jobId)
  let jobType ← Run.ofExcept job.type
  if jobType != .generateQuestions then
    throw (.precondition (.otherJob jobId job.jobType))
  if job.status.isTerminal then throw (.conflict (.jobFinished job.status))
  if job.status == .queued then Run.widen (Ledger.markRunning jobId)
  settle jobId (← Run.outcome (generate job))

end GenerationJob
end Quire
