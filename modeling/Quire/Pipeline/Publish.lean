import Quire.Pipeline.Basic
import Quire.Store.Pages
import Quire.Store.Versions

/-! Editing and publishing a draft.

While a document is a draft, its owner may set the texts of its pages. A version is a snapshot of the
texts that count at that moment; its number is higher than that of every version before it. In the same
transaction the document becomes published, and a job is queued that generates questions on the
version. -/
namespace Quire

/-! ### Editing -/

namespace Pipeline

/-- Sets what the owner has made of a page's text, or clears it. -/
def editPage (documentId ownerId : String) (pageNo : UInt32) (text : Option String)
    (now : String) : Txn PipelineError Unit := do
  let document ← ownDocument documentId ownerId
  Txn.require (document.status == .draft) (.precondition (.notEditable document.status))
  let changed ← (Pages.setEdit documentId pageNo text ownerId now).widen
  Txn.require (0 < changed) (.notFound .page s!"{documentId}#{pageNo.toNat}")

/-- Saves an edit; the answer is when that was. -/
def saveEdit (documentId ownerId : String) (pageNo : UInt32) (text : Option String) :
    Run PipelineError String := do
  let now ← Run.clock
  Run.transact (editPage documentId ownerId pageNo text now.timestamp)
  return now.timestamp

end Pipeline

/-! ### Publishing -/

structure PublishOptions where
  /-- Another title for the document. -/
  title : Option String
  notes : Option String
  /-- Questions are to be generated. -/
  generates : Bool
  questions : QuestionParams

namespace PublishOptions

def standard : PublishOptions := ⟨none, none, true, .standard⟩

end PublishOptions

structure Published where
  documentId : String
  versionId : String
  version : UInt32
  /-- The job that generates questions. -/
  generationJobId : Option String
  deriving DecidableEq, Repr

def Published.toJson (p : Published) : Json :=
  .ofMembers <|
    [("document_id", .text p.documentId), ("version_id", .text p.versionId),
      ("version", .ofNat p.version.toNat)] ++
    (p.generationJobId.map fun id => ("downstream_job_id", Json.text id)).toList

/-- The identifiers that publishing uses up. -/
structure PublishIds where
  version : String
  job : String

namespace Pipeline

/-- A document that may be published. -/
def draftToPublish (documentId ownerId : String) : Txn PipelineError Document := do
  let document ← ownDocument documentId ownerId
  match document.status with
  | .draft => return document
  | .published => Txn.fail (.conflict .alreadyPublished)
  | status => Txn.fail (.precondition (.notPublishable status))

/-- The texts that count, page by page. -/
def snapshot (documentId : String) : Txn StoreError (List SnapshotPage) := do
  return (← Pages.list documentId).map fun page => ⟨page.pageNo, page.finalText⟩

/-- The job that generates questions on a version. It holds no document's lock. -/
def generationJob (ownerId versionId : String) (questions : QuestionParams) : NewJob :=
  ⟨ownerId, none, .generateQuestions, GenerationJobParams.toJson ⟨versionId, questions⟩⟩

/-- Queues the job of a published version. -/
def queueGeneration (ids : PublishIds) (ownerId : String) (questions : QuestionParams)
    (now : Instant) (heartbeat : Respite) : Txn StoreError String := do
  Jobs.insert ((generationJob ownerId ids.version questions).toJob ids.job now heartbeat)
  return ids.job

/-- Makes the draft a version, publishes the document and queues what follows. -/
def publishDraft (documentId ownerId : String) (o : PublishOptions) (ids : PublishIds)
    (now : Instant) (heartbeat : Respite) : Txn PipelineError Published := do
  let document ← draftToPublish documentId ownerId
  let pages ← (snapshot documentId).widen
  let number ← (Versions.next documentId document.activeVersion).widen
  (Versions.insert ⟨ids.version, documentId, number, pages, ownerId, now.timestamp, o.notes⟩).widen
  let changed ← (Documents.markPublished documentId number o.title now.timestamp).widen
  Txn.require (0 < changed) (.precondition .leftDraft)
  let jobId ←
    if o.generates then
      some <$> (queueGeneration ids ownerId o.questions now heartbeat).widen
    else pure none
  return ⟨documentId, ids.version, number, jobId⟩

/-- Publishes a draft. -/
def publish (l : Ledger) (documentId ownerId : String) (o : PublishOptions) :
    Run PipelineError Published := do
  if o.generates then Run.ofExcept o.questions.check
  let now ← Run.clock
  let ids : PublishIds := ⟨← Run.freshId, ← Run.freshId⟩
  Run.transact (publishDraft documentId ownerId o ids now l.heartbeat)

end Pipeline
end Quire
