import Quire.Store.Cell
import Quire.Store.Word

/-! The store: documents, their pages and versions, jobs and their events, and artifacts.

Rows stand in the order in which they were added. A transaction reads and writes the store and
may fail; if it fails, nothing has happened. -/
namespace Quire

structure DocumentRow where
  id : String
  ownerId : String
  title : Option String
  fileName : String
  storagePath : String
  mimeType : Option String
  fileType : String
  fileSize : Cell
  status : DocumentStatus
  pageCount : Cell
  /-- The number of the version that is published, or zero. -/
  activeVersion : Cell
  publishedAt : Option String
  createdAt : String
  updatedAt : String
  deriving Inhabited

structure PageRow where
  id : Int
  documentId : String
  pageNo : Cell
  rawText : Option String
  cleanText : Option String
  editedText : Option String
  source : PageSource
  wordCount : Cell
  cleaningModel : Option String
  cleaningVersion : Option String
  cleaningFailed : Cell
  changesSummary : Option String
  editedBy : Option String
  editedAt : Option String
  createdAt : String
  deriving Inhabited

structure JobRow where
  id : String
  ownerId : String
  documentId : Option String
  jobType : String
  status : JobStatus
  doneSteps : Cell
  totalSteps : Cell
  percent : Cell
  currentStep : Option String
  heartbeatAt : Option String
  timeoutAt : Option String
  operationHandle : Option String
  params : StoredJson
  result : Option StoredJson
  errorMessage : Option String
  createdAt : String
  updatedAt : String
  completedAt : Option String
  deriving Inhabited

structure EventRow where
  id : Int
  jobId : String
  kind : EventKind
  step : Option String
  message : String
  trace : Option String
  createdAt : String
  deriving DecidableEq, Inhabited

/-- A page as it was published. -/
structure SnapshotPage where
  pageNo : UInt32
  text : String
  deriving DecidableEq, Repr, Inhabited

/-- A published version; it never changes. -/
structure Version where
  id : String
  documentId : String
  version : UInt32
  snapshot : List SnapshotPage
  createdBy : String
  createdAt : String
  notes : Option String
  deriving DecidableEq, Inhabited

structure ArtifactRow where
  id : String
  ownerId : String
  documentId : Option String
  sourceHash : String
  kind : String
  payload : StoredJson
  createdAt : String
  deriving Inhabited

structure Store where
  documents : List DocumentRow
  pages : List PageRow
  jobs : List JobRow
  events : List EventRow
  versions : List Version
  artifacts : List ArtifactRow
  /-- The last page id that was given out. -/
  pageSeq : Int
  /-- The last event id that was given out. -/
  eventSeq : Int
  deriving Inhabited

namespace Store

def empty : Store := ⟨[], [], [], [], [], [], 0, 0⟩

def hasDocument (s : Store) (id : String) : Bool := s.documents.any (·.id == id)

def hasJob (s : Store) (id : String) : Bool := s.jobs.any (·.id == id)

end Store

/-! ### Transactions -/

/-- A transaction: from a store to a result and a store, or to a failure. -/
def Txn (ε α : Type) : Type := Store → Except ε (α × Store)

namespace Txn

instance : Monad (Txn ε) where
  pure a := fun s => .ok (a, s)
  bind t f := fun s =>
    match t s with
    | .ok (a, s) => f a s
    | .error e => .error e

def fail (e : ε) : Txn ε α := fun _ => .error e

/-- What a result or a failure says, without touching the store. -/
def ofExcept (r : Except ε α) : Txn ε α := fun s => r.map fun a => (a, s)

/-- The store as it is. -/
def store : Txn ε Store := fun s => .ok (s, s)

def modify (f : Store → Store) : Txn ε Unit := fun s => .ok ((), f s)

/-- The same with failures of a wider kind. -/
def widen [Widen ε ε'] (t : Txn ε α) : Txn ε' α := fun s =>
  match t s with
  | .ok r => .ok r
  | .error e => .error (Widen.widen e)

/-- Fails unless a condition holds. -/
def require (holds : Bool) (e : ε) : Txn ε Unit := if holds then pure () else fail e

/-- Whatever fails, instead of failing. -/
def attempt (t : Txn ε α) : Txn ε' (Except ε α) := fun s =>
  match t s with
  | .ok (a, s') => .ok (.ok a, s')
  | .error e => .ok (.error e, s)

/-- The outcome of a transaction and the store after it: a failure leaves the store alone. -/
def run (t : Txn ε α) (s : Store) : Except ε α × Store :=
  match t s with
  | .ok (a, s') => (.ok a, s')
  | .error e => (.error e, s)

end Txn

/-- A list in which the rows that satisfy a condition are changed. -/
def changeWhere (p : α → Bool) (f : α → α) (rows : List α) : List α :=
  rows.map fun a => if p a then f a else a

end Quire
