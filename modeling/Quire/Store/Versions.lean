import Quire.Store.Basic

/-! Versions in the store. They are only ever added: whatever would overwrite or remove one is
stopped. -/
namespace Quire
open Json (Shape Record)

/-- The texts of the pages with a blank line between them. -/
def joinedText (pages : List SnapshotPage) : String := "\n\n".intercalate (pages.map (·.text))

def Version.joinedText (v : Version) : String := Quire.joinedText v.snapshot

def SnapshotPage.toJson (p : SnapshotPage) : Json :=
  .ofMembers [("page_no", .ofNat p.pageNo.toNat), ("final_text", .text p.text)]

def Version.toJson (v : Version) : Json :=
  .ofMembers
    [("id", .text v.id), ("document_id", .text v.documentId),
      ("version", .ofNat v.version.toNat),
      ("snapshot", .array (v.snapshot.map SnapshotPage.toJson)), ("created_by", .text v.createdBy),
      ("created_at", .text v.createdAt), ("publish_notes", .ofOption .text v.notes),
      ("joined_text", .text v.joinedText)]

/-! ### The column of a snapshot -/

namespace Snapshot

/-- A page in the column. -/
def shape : Shape SnapshotPage :=
  Record.shape "SnapshotPage" <|
    SnapshotPage.mk <$> .required "page_no" .word32 <*> .required "final_text" .string

/-- A page as the column spells it, its fields in this order. -/
def pageJson (p : SnapshotPage) : Json :=
  .object [("page_no", .ofNat p.pageNo.toNat), ("final_text", .text p.text)]

/-- The text of the column. -/
def text (pages : List SnapshotPage) : String := (Json.array (pages.map pageJson)).compact

/-- The snapshot that a text in the column spells. -/
def read (text : String) : Except StoreError (List SnapshotPage) :=
  match Json.readText (.list shape) text with
  | .ok pages => .ok pages
  | .error fault => .error (.conversion fault)

end Snapshot

/-- The text of the column that holds the snapshot. -/
def Version.column (v : Version) : String := Snapshot.text v.snapshot

/-- A version as it is read, with the snapshot that its column spells. -/
def Version.read (v : Version) : Except StoreError Version := do
  return { v with snapshot := ← Snapshot.read v.column }

namespace Versions

/-- The highest version number of a document, or zero. -/
def highest (documentId : String) (versions : List Version) : Nat :=
  versions.foldl (fun n v => if v.documentId == documentId then max n v.version.toNat else n) 0

/-- The number after the highest, counting the one that is published. -/
def next (documentId : String) (active : UInt32) : Txn StoreError UInt32 := do
  let n := max (highest documentId (← Txn.store).versions) active.toNat + 1
  if n < 0x100000000 then return UInt32.ofNat n else Txn.fail .versionsExhausted

def isVersion (documentId : String) (version : UInt32) (v : Version) : Bool :=
  v.documentId == documentId && v.version == version

/-- Adds a version. -/
def insert (v : Version) : Txn StoreError Unit := do
  Txn.require (1 ≤ v.version) (.violation (.check "version >= 1"))
  let s ← Txn.store
  Txn.require (! s.versions.any (isVersion v.documentId v.version))
    (.violation (.unique "document_versions" ["document_id", "version"]))
  Txn.require (! s.versions.any (·.id == v.id))
    (.violation (.primaryKey "document_versions" "id"))
  Txn.require (s.hasDocument v.documentId) (.violation .foreignKey)
  Txn.modify fun s => { s with versions := s.versions ++ [v] }

def find (id : String) : Txn StoreError (Option Version) := do
  match (← Txn.store).versions.find? (·.id == id) with
  | none => return none
  | some v => return some (← .ofExcept v.read)

/-- The versions of a document, oldest first. -/
def list (documentId : String) : Txn StoreError (List Version) := do
  let rows := (← Txn.store).versions.filter (·.documentId == documentId)
  .ofExcept ((rows.mergeSort fun a b => a.version ≤ b.version).mapM Version.read)

/-- What happens before a version is overwritten or removed. -/
def protect (_ : Version) : Except StoreError Unit := .error (.violation .immutable)

/-- Overwrites or removes the versions that satisfy a condition; tells how many rows that were. -/
def alter (p : Version → Bool) (f : Version → Option Version) : Txn StoreError Nat := do
  let s ← Txn.store
  let rows ← .ofExcept (s.versions.mapM fun v =>
    if p v then do
      protect v
      return f v
    else .ok (some v))
  Txn.modify fun s => { s with versions := rows.filterMap id }
  return (s.versions.filter p).length

end Versions
end Quire
