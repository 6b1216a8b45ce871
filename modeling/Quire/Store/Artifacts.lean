import Quire.Store.Basic

/-! Artifacts in the store: what was generated, by owner and fingerprint. -/
namespace Quire

/-- An artifact as it is read. -/
structure Artifact where
  id : String
  ownerId : String
  documentId : Option String
  sourceHash : String
  kind : String
  payload : Json
  createdAt : String
  deriving Inhabited

def Artifact.toJson (a : Artifact) : Json :=
  .ofMembers
    [("id", .text a.id), ("owner_id", .text a.ownerId),
      ("document_id", .ofOption .text a.documentId), ("source_text_hash", .text a.sourceHash),
      ("kind", .text a.kind), ("payload", a.payload), ("created_at", .text a.createdAt)]

def ArtifactRow.read (r : ArtifactRow) : Except StoreError Artifact := do
  return { id := r.id, ownerId := r.ownerId, documentId := r.documentId,
           sourceHash := r.sourceHash, kind := r.kind, payload := (← r.payload.read),
           createdAt := r.createdAt }

namespace Artifacts

/-- What an owner has for a fingerprint, in the order in which it was added. -/
def find (ownerId sourceHash : String) : Txn StoreError (List Artifact) := do
  let rows := (← Txn.store).artifacts.filter fun r =>
    r.ownerId == ownerId && r.sourceHash == sourceHash
  .ofExcept (rows.mapM ArtifactRow.read)

def insert (a : Artifact) : Txn StoreError Unit := do
  let s ← Txn.store
  Txn.require (! s.artifacts.any (·.id == a.id))
    (.violation (.primaryKey "generated_artifacts" "id"))
  let row : ArtifactRow :=
    { id := a.id, ownerId := a.ownerId, documentId := a.documentId, sourceHash := a.sourceHash,
      kind := a.kind, payload := .ofJson a.payload, createdAt := a.createdAt }
  Txn.modify fun s => { s with artifacts := s.artifacts ++ [row] }

def insertAll : List Artifact → Txn StoreError Unit
  | [] => pure ()
  | a :: rest => do
    insert a
    insertAll rest

end Artifacts
end Quire
