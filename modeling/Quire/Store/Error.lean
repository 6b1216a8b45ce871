import Quire.Failure.Provider

/-! What the store refuses, and why.

A `Violation` is a rule of the schema that a write would break; only the breach of a `unique`
rule tells that a value is already taken. -/
namespace Quire

inductive Violation
  | unique (table : String) (columns : List String)
  /-- The row's own identifier is taken. -/
  | primaryKey (table column : String)
  | check (rule : String)
  | notNull (table column : String)
  /-- A row refers to one that is not there. -/
  | foreignKey
  /-- Published versions never change. -/
  | immutable
  deriving DecidableEq

inductive StoreError
  | violation (v : Violation)
  /-- A stored number does not fit the field it is read into. -/
  | outOfRange (value : Int) (column : Nat)
  /-- A stored value is of another type than its column. -/
  | wrongType (found : String) (column : Nat) (name : String)
  /-- A stored JSON text cannot be read. -/
  | conversion (fault : Json.Fault)
  /-- A number is too large to be stored. -/
  | tooLarge
  | notADatabase
  | cannotOpen (path : String)
  | noSuchColumn (name : String)
  | noSuchTable (name : String)
  | datatypeMismatch
  | io (path : String) (fault : FileFault)
  | migration (version : Nat) (reason : String)
  /-- A stored word is not one of its kind. -/
  | unknownValue (kind value : String)
  | lockPoisoned
  /-- There is no version number after the last. -/
  | versionsExhausted

/-- A value that must be the only one is already taken. -/
def StoreError.isUniqueViolation : StoreError → Bool
  | .violation (.unique _ _) => true
  | _ => false

def Violation.message : Violation → String
  | .unique table columns =>
    "UNIQUE constraint failed: " ++ ", ".intercalate (columns.map fun c => s!"{table}.{c}")
  | .primaryKey table column => s!"UNIQUE constraint failed: {table}.{column}"
  | .check rule => s!"CHECK constraint failed: {rule}"
  | .notNull table column => s!"NOT NULL constraint failed: {table}.{column}"
  | .foreignKey => "FOREIGN KEY constraint failed"
  | .immutable => "document versions are immutable"

/-- What the database engine itself reports. -/
def StoreError.engineText? : StoreError → Option String
  | .violation v => some v.message
  | .outOfRange value column => some s!"Integer {value} out of range at index {column}"
  | .wrongType found column name =>
    some s!"Invalid column type {found} at index: {column}, name: {name}"
  | .conversion fault =>
    some s!"Conversion error from type Text at index: 0, {fault.message}"
  | .tooLarge => some "number too large to fit in target type"
  | .notADatabase => some "file is not a database"
  | .cannotOpen path => some s!"unable to open database file: {path}"
  | .noSuchColumn name => some s!"no such column: {name}"
  | .noSuchTable name => some s!"no such table: {name}"
  | .datatypeMismatch => some "datatype mismatch"
  | _ => none

instance : Failure StoreError where
  message
    | .io path fault => s!"IO error for path '{path}': {fault.message}"
    | .migration version reason => s!"Migration failed at version {version}: {reason}"
    | .unknownValue kind value => s!"Unknown {kind} value '{value}'"
    | .lockPoisoned => "Database lock poisoned"
    | .versionsExhausted => "No version number left"
    | e => s!"SQLite error: {e.engineText?.getD detail}"
  causes
    | .io _ fault => [fault.message]
    | e => e.engineText?.toList

end Quire
