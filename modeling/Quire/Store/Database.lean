import Quire.Store.Basic
import Quire.Environment

/-! Databases in files.

A database is brought up to date when it is opened, one migration after the other. A file that
holds something else is refused, and so is a database whose tables are not ours. -/
namespace Quire

structure Migration where
  version : Nat
  description : String
  deriving DecidableEq, Repr

/-- All migrations in order. -/
def Migration.all : List Migration :=
  [⟨1, "create_documents_table"⟩, ⟨2, "create_document_pages_table"⟩,
   ⟨3, "create_jobs_and_job_events_tables"⟩, ⟨4, "create_document_versions_table"⟩,
   ⟨5, "create_generated_artifacts_table"⟩]

/-- What a database file holds. -/
inductive Database
  /-- All migrations have been applied. -/
  | ready (s : Store)
  /-- There is a table of documents that has nothing but ids. -/
  | foreign
  deriving Inhabited

namespace Database

/-- The migrations that have been applied. -/
def migrations : Database → List Migration
  | .ready _ => Migration.all
  | .foreign => []

/-- The file that is used when no other is named. -/
def defaultPath? (e : Environment δ) : Option String :=
  e.home?.map fun home => Path.join home ".scriptorium/data/scriptorium.db"

/-- Paths that name no file: their database is gone with the run. -/
def isFleeting (path : String) : Bool := path == "" || path == ":memory:"

/-- The environment in which the directory of a path is there. -/
def makeParent (e : Environment Database) (path : String) :
    Except StoreError (Environment Database) :=
  match Path.parent? path with
  | none | some "" => .ok e
  | some parent =>
    match e.files.makeDirectories (e.absolute parent) with
    | .ok files => .ok { e with files := files }
    | .error fault => .error (.io parent fault)

/-- The environment with a store at the path of its database. -/
def saveAt (e : Environment Database) (path : String) (s : Store) : Environment Database :=
  if isFleeting path then e
  else { e with files := e.files.write (e.absolute path) (.database (.ready s)) }

/-- The store at a path; a new one where there is nothing or an empty file. The database is there
afterwards, and so is its directory. -/
def openAt (e : Environment Database) (path : String) :
    Except StoreError (Store × Environment Database) := do
  if isFleeting path then return (Store.empty, e)
  let e ← makeParent e path
  match e.find path with
  | .error .notFound => return (Store.empty, saveAt e path Store.empty)
  | .ok (.database (.ready s)) => return (s, e)
  | .ok (.database .foreign) => .error (.migration 1 "no such column: owner_id")
  | .ok (.bytes content) =>
    if content.size == 0 then return (Store.empty, saveAt e path Store.empty)
    else .error .notADatabase
  | .ok (.directory _) | .error _ => .error (.cannotOpen path)

end Database
end Quire
