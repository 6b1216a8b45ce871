import Quire.Label

/-! The states of documents and jobs, and the kinds that go with them.

A document goes `uploading → processing → draft → published`, and from `processing` to `failed`,
from where it may be processed again. A job ends `completed` or `failed` and never leaves these
two. -/
namespace Quire

inductive DocumentStatus
  | uploading | processing | draft | published | failed
  deriving DecidableEq, Repr, Inhabited

instance : Label DocumentStatus where
  all := [.uploading, .processing, .draft, .published, .failed]
  word
    | .uploading => "uploading"
    | .processing => "processing"
    | .draft => "draft"
    | .published => "published"
    | .failed => "failed"

/-- Where the raw text of a page came from. -/
inductive PageSource
  | native | ocr
  deriving DecidableEq, Repr, Inhabited

instance : Label PageSource where
  all := [.native, .ocr]
  word
    | .native => "native"
    | .ocr => "ocr"

inductive JobStatus
  | queued | running | polling | completed | failed
  deriving DecidableEq, Repr, Inhabited

instance : Label JobStatus where
  all := [.queued, .running, .polling, .completed, .failed]
  word
    | .queued => "queued"
    | .running => "running"
    | .polling => "polling"
    | .completed => "completed"
    | .failed => "failed"

/-- The job has ended. -/
def JobStatus.isTerminal : JobStatus → Bool
  | .completed | .failed => true
  | _ => false

inductive JobType
  | documentExtract | generateQuestions
  deriving DecidableEq, Repr, Inhabited

instance : Label JobType where
  all := [.documentExtract, .generateQuestions]
  word
    | .documentExtract => "document_extract"
    | .generateQuestions => "generate_questions"

/-- What a job's event tells. -/
inductive EventKind
  | info | warning | error | progress
  deriving DecidableEq, Repr, Inhabited

instance : Label EventKind where
  all := [.info, .warning, .error, .progress]
  word
    | .info => "info"
    | .warning => "warning"
    | .error => "error"
    | .progress => "progress"

end Quire
