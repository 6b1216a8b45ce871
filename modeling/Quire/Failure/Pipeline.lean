import Quire.Failure.Job

/-! What a caller of the pipeline is told.

`PipelineError.message` is the full text; `publicMessage` withholds what went wrong inside. Only
throttling is worth a retry, every other failure repeats itself. -/
namespace Quire

/-- What already is, and stands in the way. -/
inductive Conflict
  | alreadyProcessing
  | alreadyPublished
  | jobFinished (status : JobStatus)

def Conflict.message : Conflict → String
  | .alreadyProcessing => "document is already being processed"
  | .alreadyPublished => "document is already published"
  | .jobFinished status => s!"job is already {Label.word status}"

inductive Entity
  | document | page | job | version

def Entity.message : Entity → String
  | .document => "Document"
  | .page => "Page"
  | .job => "Job"
  | .version => "Version"

/-- Which condition of an operation does not hold. -/
inductive Refusal
  | unsupportedFile (name : String)
  | notIngestible (status : DocumentStatus)
  | notEditable (status : DocumentStatus)
  | notPublishable (status : DocumentStatus)
  | leftProcessing
  | noLongerProcessing (documentId : String)
  | leftDraft
  | polledExternally (jobType : JobType)
  | otherJob (id jobType : String)
  | badParams (fault : Json.Fault)
  | storage (inner : StorageError)
  | process (inner : ProcessError)
  | generation (inner : GenerationError)

def Refusal.message : Refusal → String
  | .unsupportedFile name => s!"unsupported file type for '{name}'"
  | .notIngestible status =>
    s!"document is {Label.word status}; only uploading or failed documents can be ingested"
  | .notEditable status => s!"document is {Label.word status}; pages can only be edited in draft"
  | .notPublishable status => s!"document is {Label.word status}; only drafts can be published"
  | .leftProcessing => "document left processing during extraction"
  | .noLongerProcessing id => s!"document '{id}' is no longer processing"
  | .leftDraft => "document left draft while publishing"
  | .polledExternally jobType =>
    s!"{Label.word jobType} jobs are polled externally; check them with poll"
  | .otherJob id jobType => s!"job {id} is a {jobType} job"
  | .badParams fault => s!"invalid job params: {fault.message}"
  | .storage inner => Failure.message inner
  | .process inner => Failure.message inner
  | .generation inner => Failure.message inner

/-- What went wrong with another party. -/
inductive External
  | storage (inner : StorageError)
  | ocr (inner : OcrError)
  | process (inner : ProcessError)
  | cleaning (inner : CleaningError)
  | generation (inner : GenerationError)

def External.message : External → String
  | .storage inner => Failure.message inner
  | .ocr inner => Failure.message inner
  | .process inner => Failure.message inner
  | .cleaning inner => Failure.message inner
  | .generation inner => Failure.message inner

/-- What went wrong inside. -/
inductive Internal
  | store (inner : StoreError)
  /-- A job's own record of its operation cannot be read. -/
  | badOcrParams (fault : Json.Fault)
  | noDocument

def Internal.message : Internal → String
  | .store inner => Failure.message inner
  | .badOcrParams fault => s!"invalid OCR job params: {fault.message}"
  | .noDocument => "extraction job has no document"

inductive PipelineError
  | conflict (c : Conflict)
  | notFound (entity : Entity) (id : String)
  | forbidden
  | precondition (r : Refusal)
  | external (e : External)
  | transient (e : External)
  | internal (i : Internal)

instance : Failure PipelineError where
  message
    | .conflict c => s!"Conflict: {c.message}"
    | .notFound entity id => s!"{entity.message} '{id}' not found"
    | .forbidden => "Only the document owner may do this"
    | .precondition r => s!"Precondition failed: {r.message}"
    | .external e => s!"Upstream failure: {e.message}"
    | .transient e => s!"Upstream is throttling: {e.message}"
    | .internal i => s!"Internal error: {i.message}"
  causes _ := []

namespace PipelineError

def isRetryable : PipelineError → Bool
  | .transient _ => true
  | _ => false

/-- The message for a caller, without what went wrong inside. -/
def publicMessage : PipelineError → String
  | .internal _ => "Internal error"
  | e => Failure.message e

def ofJob : JobError → PipelineError
  | .store inner => .internal (.store inner)
  | .notFound id => .notFound .job id
  | .terminal _ status => .conflict (.jobFinished status)

def ofStorage (e : StorageError) : PipelineError :=
  match e with
  | .tooLarge _ _ => .precondition (.storage e)
  | _ => .external (.storage e)

def ofOcr (e : OcrError) : PipelineError :=
  match e with
  | .transient _ _ => .transient (.ocr e)
  | _ => .external (.ocr e)

def ofProcess (e : ProcessError) : PipelineError :=
  match e with
  | .unsupportedFormat _ => .precondition (.process e)
  | _ => .external (.process e)

def ofGeneration (e : GenerationError) : PipelineError :=
  match e with
  | .invalidParams _ => .precondition (.generation e)
  | .llm (.transient _ _) => .transient (.generation e)
  | .store inner => .internal (.store inner)
  | _ => .external (.generation e)

end PipelineError

instance : Widen StoreError PipelineError := ⟨fun e => .internal (.store e)⟩
instance : Widen JobError PipelineError := ⟨.ofJob⟩
instance : Widen StorageError PipelineError := ⟨.ofStorage⟩
instance : Widen OcrError PipelineError := ⟨.ofOcr⟩
instance : Widen ProcessError PipelineError := ⟨.ofProcess⟩
instance : Widen CleaningError PipelineError := ⟨fun e => .external (.cleaning e)⟩
instance : Widen GenerationError PipelineError := ⟨.ofGeneration⟩

end Quire
