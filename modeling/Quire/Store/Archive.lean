import Quire.Store.Basic

/-! A store as one JSON value, and back.

Every row is an array of its columns in their order. A value that is no archive is refused as a
whole. -/
namespace Quire.Archive

/-! ### Columns -/

def cell : Cell → Json
  | .integer n => .ofInt n
  | .real x => .ofFloat x
  | .text s => .text s

def cell? : Json → Option Cell
  | .number (.integer n) => some (.integer n)
  | .number (.real x) => some (.real x)
  | .text s => some (.text s)
  | _ => none

/-- A JSON column: its value in an array, or its text. -/
def stored : StoredJson → Json
  | .value j => .array [j]
  | .text s => .text s

def stored? : Json → Option StoredJson
  | .array [j] => some (.value j)
  | .text s => some (.text s)
  | _ => none

def opt : Option String → Json := .ofOption .text

def opt? : Json → Option (Option String)
  | .null => some none
  | .text s => some (some s)
  | _ => none

def int? : Json → Option Int
  | .number (.integer n) => some n
  | _ => none

def word32? (j : Json) : Option UInt32 :=
  j.nat?.bind fun n => if n < 0x100000000 then some (UInt32.ofNat n) else none

/-- The member of a finite kind. -/
def label? (α : Type) [Label α] (j : Json) : Option α := j.text?.bind Label.ofWord?

/-- A column that may be missing. -/
def orNull? (read? : Json → Option α) : Json → Option (Option α)
  | .null => some none
  | j => (read? j).map some

/-! ### Rows -/

def document (r : DocumentRow) : Json :=
  .array
    [.text r.id, .text r.ownerId, opt r.title, .text r.fileName, .text r.storagePath,
      opt r.mimeType, .text r.fileType, cell r.fileSize, Label.toJson r.status, cell r.pageCount,
      cell r.activeVersion, opt r.publishedAt, .text r.createdAt, .text r.updatedAt]

def document? : Json → Option DocumentRow
  | .array [a, b, c, d, e, f, g, h, i, j, k, l, m, n] => do
    return ⟨← a.text?, ← b.text?, ← opt? c, ← d.text?, ← e.text?, ← opt? f, ← g.text?, ← cell? h,
      ← label? DocumentStatus i, ← cell? j, ← cell? k, ← opt? l, ← m.text?, ← n.text?⟩
  | _ => none

def page (r : PageRow) : Json :=
  .array
    [.ofInt r.id, .text r.documentId, cell r.pageNo, opt r.rawText, opt r.cleanText,
      opt r.editedText, Label.toJson r.source, cell r.wordCount, opt r.cleaningModel,
      opt r.cleaningVersion, cell r.cleaningFailed, opt r.changesSummary, opt r.editedBy,
      opt r.editedAt, .text r.createdAt]

def page? : Json → Option PageRow
  | .array [a, b, c, d, e, f, g, h, i, j, k, l, m, n, o] => do
    return ⟨← int? a, ← b.text?, ← cell? c, ← opt? d, ← opt? e, ← opt? f, ← label? PageSource g,
      ← cell? h, ← opt? i, ← opt? j, ← cell? k, ← opt? l, ← opt? m, ← opt? n, ← o.text?⟩
  | _ => none

def job (r : JobRow) : Json :=
  .array
    [.text r.id, .text r.ownerId, opt r.documentId, .text r.jobType, Label.toJson r.status,
      cell r.doneSteps, cell r.totalSteps, cell r.percent, opt r.currentStep, opt r.heartbeatAt,
      opt r.timeoutAt, opt r.operationHandle, stored r.params, .ofOption stored r.result,
      opt r.errorMessage, .text r.createdAt, .text r.updatedAt, opt r.completedAt]

def job? : Json → Option JobRow
  | .array [a, b, c, d, e, f, g, h, i, j, k, l, m, n, o, p, q, r] => do
    return ⟨← a.text?, ← b.text?, ← opt? c, ← d.text?, ← label? JobStatus e, ← cell? f, ← cell? g,
      ← cell? h, ← opt? i, ← opt? j, ← opt? k, ← opt? l, ← stored? m, ← orNull? stored? n,
      ← opt? o, ← p.text?, ← q.text?, ← opt? r⟩
  | _ => none

def event (r : EventRow) : Json :=
  .array
    [.ofInt r.id, .text r.jobId, Label.toJson r.kind, opt r.step, .text r.message, opt r.trace,
      .text r.createdAt]

def event? : Json → Option EventRow
  | .array [a, b, c, d, e, f, g] => do
    return ⟨← int? a, ← b.text?, ← label? EventKind c, ← opt? d, ← e.text?, ← opt? f, ← g.text?⟩
  | _ => none

def snapshotPage (p : SnapshotPage) : Json := .array [.ofNat p.pageNo.toNat, .text p.text]

def snapshotPage? : Json → Option SnapshotPage
  | .array [a, b] => do return ⟨← word32? a, ← b.text?⟩
  | _ => none

/-- A list of rows. -/
def rows? (row? : Json → Option α) : Json → Option (List α)
  | .array items => items.mapM row?
  | _ => none

def version (r : Version) : Json :=
  .array
    [.text r.id, .text r.documentId, .ofNat r.version.toNat,
      .array (r.snapshot.map snapshotPage), .text r.createdBy, .text r.createdAt, opt r.notes]

def version? : Json → Option Version
  | .array [a, b, c, d, e, f, g] => do
    return ⟨← a.text?, ← b.text?, ← word32? c, ← rows? snapshotPage? d, ← e.text?, ← f.text?,
      ← opt? g⟩
  | _ => none

def artifact (r : ArtifactRow) : Json :=
  .array
    [.text r.id, .text r.ownerId, opt r.documentId, .text r.sourceHash, .text r.kind,
      stored r.payload, .text r.createdAt]

def artifact? : Json → Option ArtifactRow
  | .array [a, b, c, d, e, f, g] => do
    return ⟨← a.text?, ← b.text?, ← opt? c, ← d.text?, ← e.text?, ← stored? f, ← g.text?⟩
  | _ => none

/-! ### Stores -/

def store (s : Store) : Json :=
  .array
    [.array (s.documents.map document), .array (s.pages.map page), .array (s.jobs.map job),
      .array (s.events.map event), .array (s.versions.map version),
      .array (s.artifacts.map artifact), .ofInt s.pageSeq, .ofInt s.eventSeq]

def store? : Json → Option Store
  | .array [a, b, c, d, e, f, g, h] => do
    return ⟨← rows? document? a, ← rows? page? b, ← rows? job? c, ← rows? event? d,
      ← rows? version? e, ← rows? artifact? f, ← int? g, ← int? h⟩
  | _ => none

/-- The bytes of the file that keeps a store. -/
def bytes (s : Store) : ByteArray := (store s).compact.toUTF8

/-- The store that a file keeps. -/
def bytes? (content : ByteArray) : Option Store := do
  let text ← Text.decode? content
  store? (← (Json.parse text).toOption)

end Quire.Archive
