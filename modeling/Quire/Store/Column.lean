import Quire.Store.Pages
import Quire.Store.Jobs
import Quire.Store.Versions

/-! One column of a row set by hand.

A value by hand is kept as its column keeps values: a number column takes a text for the number
that it spells, a text column takes a number for its digits. The rules of the schema hold as for
every other write. -/
namespace Quire.Column

/-- A value by hand. -/
inductive Scalar
  | null
  | integer (n : Int)
  | text (s : String)

/-! ### Numbers in texts -/

def isBlank (c : Char) : Bool := c == ' ' || (9 ≤ c.toNat && c.toNat ≤ 13)

/-- A sign, if there is one, and what follows it. -/
def signed : List Char → Bool × List Char
  | '-' :: rest => (true, rest)
  | '+' :: rest => (false, rest)
  | cs => (false, cs)

def digitsValue (ds : List Char) : Nat := ds.foldl (fun n c => n * 10 + (c.toNat - 48)) 0

/-- The power of ten that stands at the end of a number, nothing being the power zero. -/
def power? : List Char → Option Int
  | [] => some 0
  | c :: rest =>
    let (negative, ds) := signed rest
    if (c == 'e' || c == 'E') && ! ds.isEmpty && ds.all Char.isDigit then
      some (if negative then -digitsValue ds else digitsValue ds)
    else none

/-- A whole number if a cell can hold it, else a double. -/
def wholeCell (n : Int) : Cell :=
  if -Cell.limit - 1 ≤ n && n ≤ Cell.limit then .integer n else .real (Float.ofInt n)

/-- A double, or the whole number that it equals. -/
def doubleCell (x : Float) : Cell :=
  -- below 2^63 a whole double is a whole number of 64 bits
  if x == x.floor && x.abs < 9223372036854775808.0 then .integer x.toInt64.toInt else .real x

/-- `digits · 10^power` as a double. A power beyond four hundred leads out of all doubles. -/
def double (negative : Bool) (digits : Nat) (power : Int) : Float :=
  let x := Float.ofScientific digits (power < 0) (min power.natAbs 400)
  if negative then -x else x

/-- The number that a text spells, blanks around it left out. -/
def spelled? (s : String) : Option Cell := do
  let cs := s.toList.dropWhile isBlank
  let (negative, cs) := signed (cs.reverse.dropWhile isBlank).reverse
  let whole := cs.takeWhile Char.isDigit
  let rest := cs.drop whole.length
  if rest.isEmpty && ! whole.isEmpty then
    return wholeCell (if negative then -digitsValue whole else digitsValue whole)
  let afterPoint := match rest with | '.' :: cs => cs | _ => []
  let fraction := afterPoint.takeWhile Char.isDigit
  if whole.isEmpty && fraction.isEmpty then none
  let power ← power? (if rest.head? == some '.' then afterPoint.drop fraction.length else rest)
  return doubleCell (double negative (digitsValue (whole ++ fraction)) (power - fraction.length))

/-- The whole number that a text spells. -/
def spelledWhole? (s : String) : Option Int :=
  match spelled? s with
  | some (.integer n) => some n
  | _ => none

/-! ### Values in columns -/

/-- What a column makes of a value. -/
def textOf (table column : String) : Scalar → Except StoreError String
  | .null => .error (.violation (.notNull table column))
  | .integer n => .ok (toString n)
  | .text s => .ok s

def optionalText : Scalar → Option String
  | .null => none
  | .integer n => some (toString n)
  | .text s => some s

def cellOf (table column : String) : Scalar → Except StoreError Cell
  | .null => .error (.violation (.notNull table column))
  | .integer n => .ok (.integer n)
  | .text s => .ok ((spelled? s).getD (.text s))

def realOf (table column : String) (v : Scalar) : Except StoreError Cell := do
  match ← cellOf table column v with
  | .integer n => .ok (.real (Float.ofInt n))
  | c => .ok c

def wordOf (α : Type) [Label α] (table column : String) (v : Scalar) : Except StoreError α := do
  match Label.ofWord? (← textOf table column v) with
  | some a => .ok a
  | none => .error (.violation (.check (Documents.wordsRule α column)))

/-- The value of an integer key. -/
def keyOf : Scalar → Except StoreError Int
  | .integer n => .ok n
  | .text s =>
    match spelledWhole? s with
    | some n => .ok n
    | none => .error .datatypeMismatch
  | .null => .error .datatypeMismatch

/-- How a column of a kind of row is set; none if there is no such column. -/
abbrev Setter (ρ : Type) := Scalar → ρ → Except StoreError ρ

def document : String → Option (Setter DocumentRow)
  | "id" => some fun v r => return { r with id := ← textOf "documents" "id" v }
  | "owner_id" => some fun v r => return { r with ownerId := ← textOf "documents" "owner_id" v }
  | "title" => some fun v r => return { r with title := optionalText v }
  | "file_name" => some fun v r => return { r with fileName := ← textOf "documents" "file_name" v }
  | "storage_path" =>
    some fun v r => return { r with storagePath := ← textOf "documents" "storage_path" v }
  | "mime_type" => some fun v r => return { r with mimeType := optionalText v }
  | "file_type" => some fun v r => return { r with fileType := ← textOf "documents" "file_type" v }
  | "file_size_bytes" =>
    some fun v r => return { r with fileSize := ← cellOf "documents" "file_size_bytes" v }
  | "status" =>
    some fun v r => return { r with status := ← wordOf DocumentStatus "documents" "status" v }
  | "page_count" =>
    some fun v r => return { r with pageCount := ← cellOf "documents" "page_count" v }
  | "active_version" =>
    some fun v r => return { r with activeVersion := ← cellOf "documents" "active_version" v }
  | "published_at" => some fun v r => return { r with publishedAt := optionalText v }
  | "created_at" =>
    some fun v r => return { r with createdAt := ← textOf "documents" "created_at" v }
  | "updated_at" =>
    some fun v r => return { r with updatedAt := ← textOf "documents" "updated_at" v }
  | _ => none

/-- A page number is at least one; a text counts as larger. -/
def checkPageNo (c : Cell) : Except StoreError Cell :=
  if (Cell.integer 1).le c then .ok c else .error (.violation (.check "page_no >= 1"))

def page : String → Option (Setter PageRow)
  | "id" => some fun v r => return { r with id := ← keyOf v }
  | "document_id" =>
    some fun v r => return { r with documentId := ← textOf "document_pages" "document_id" v }
  | "page_no" =>
    some fun v r => return { r with pageNo := ← checkPageNo (← cellOf "document_pages" "page_no" v) }
  | "raw_text" => some fun v r => return { r with rawText := optionalText v }
  | "clean_text" => some fun v r => return { r with cleanText := optionalText v }
  | "edited_text" => some fun v r => return { r with editedText := optionalText v }
  | "source" =>
    some fun v r => return { r with source := ← wordOf PageSource "document_pages" "source" v }
  | "word_count" =>
    some fun v r => return { r with wordCount := ← cellOf "document_pages" "word_count" v }
  | "cleaning_model" => some fun v r => return { r with cleaningModel := optionalText v }
  | "cleaning_version" => some fun v r => return { r with cleaningVersion := optionalText v }
  | "cleaning_failed" =>
    some fun v r =>
      return { r with cleaningFailed := ← cellOf "document_pages" "cleaning_failed" v }
  | "changes_summary" => some fun v r => return { r with changesSummary := optionalText v }
  | "edited_by" => some fun v r => return { r with editedBy := optionalText v }
  | "edited_at" => some fun v r => return { r with editedAt := optionalText v }
  | "created_at" =>
    some fun v r => return { r with createdAt := ← textOf "document_pages" "created_at" v }
  | _ => none

def job : String → Option (Setter JobRow)
  | "id" => some fun v r => return { r with id := ← textOf "jobs" "id" v }
  | "owner_id" => some fun v r => return { r with ownerId := ← textOf "jobs" "owner_id" v }
  | "document_id" => some fun v r => return { r with documentId := optionalText v }
  | "job_type" => some fun v r => return { r with jobType := ← textOf "jobs" "job_type" v }
  | "status" => some fun v r => return { r with status := ← wordOf JobStatus "jobs" "status" v }
  | "done_steps" => some fun v r => return { r with doneSteps := ← cellOf "jobs" "done_steps" v }
  | "total_steps" => some fun v r => return { r with totalSteps := ← cellOf "jobs" "total_steps" v }
  | "percent" => some fun v r => return { r with percent := ← realOf "jobs" "percent" v }
  | "current_step" => some fun v r => return { r with currentStep := optionalText v }
  | "heartbeat_at" => some fun v r => return { r with heartbeatAt := optionalText v }
  | "timeout_at" => some fun v r => return { r with timeoutAt := optionalText v }
  | "operation_handle" => some fun v r => return { r with operationHandle := optionalText v }
  | "params" => some fun v r => return { r with params := .text (← textOf "jobs" "params" v) }
  | "result" => some fun v r => return { r with result := (optionalText v).map .text }
  | "error_message" => some fun v r => return { r with errorMessage := optionalText v }
  | "created_at" => some fun v r => return { r with createdAt := ← textOf "jobs" "created_at" v }
  | "updated_at" => some fun v r => return { r with updatedAt := ← textOf "jobs" "updated_at" v }
  | "completed_at" => some fun v r => return { r with completedAt := optionalText v }
  | _ => none

def event : String → Option (Setter EventRow)
  | "id" => some fun v r => return { r with id := ← keyOf v }
  | "job_id" => some fun v r => return { r with jobId := ← textOf "job_events" "job_id" v }
  | "event_type" =>
    some fun v r => return { r with kind := ← wordOf EventKind "job_events" "event_type" v }
  | "step" => some fun v r => return { r with step := optionalText v }
  | "message" => some fun v r => return { r with message := ← textOf "job_events" "message" v }
  | "stack_trace" => some fun v r => return { r with trace := optionalText v }
  | "created_at" =>
    some fun v r => return { r with createdAt := ← textOf "job_events" "created_at" v }
  | _ => none

/-- The columns of a version; none of them can be set. -/
def versionColumns : List String :=
  ["id", "document_id", "version", "snapshot_json", "created_by", "created_at", "publish_notes"]

/-- The columns of a migration. -/
def migrationColumns : List String := ["version", "description", "applied_at"]

def artifact : String → Option (Setter ArtifactRow)
  | "id" => some fun v r => return { r with id := ← textOf "generated_artifacts" "id" v }
  | "owner_id" =>
    some fun v r => return { r with ownerId := ← textOf "generated_artifacts" "owner_id" v }
  | "document_id" => some fun v r => return { r with documentId := optionalText v }
  | "source_text_hash" =>
    some fun v r =>
      return { r with sourceHash := ← textOf "generated_artifacts" "source_text_hash" v }
  | "kind" => some fun v r => return { r with kind := ← textOf "generated_artifacts" "kind" v }
  | "payload" =>
    some fun v r => return { r with payload := .text (← textOf "generated_artifacts" "payload" v) }
  | "created_at" =>
    some fun v r => return { r with createdAt := ← textOf "generated_artifacts" "created_at" v }
  | _ => none

/-! ### The rules of the schema, for rows in place -/

/-- Two rows of a list clash. -/
def anyPair (clash : ρ → ρ → Bool) : List ρ → Bool
  | [] => false
  | r :: rest => rest.any (clash r) || anyPair clash rest

/-- Every row refers to one that is there. -/
def refersWell (s : Store) : Bool :=
  s.pages.all (fun r => s.hasDocument r.documentId) &&
    s.jobs.all (fun r => Jobs.refersWell s r.documentId) &&
    s.events.all (fun e => s.hasJob e.jobId) &&
    s.versions.all fun v => s.hasDocument v.documentId

/-- The rules on several rows, in the order in which they are checked. -/
def check (s : Store) : Except StoreError Unit := do
  let demand (holds : Bool) (v : Violation) : Except StoreError Unit :=
    if holds then .ok () else .error (.violation v)
  demand (! anyPair (fun a b => a.id == b.id) s.documents) (.primaryKey "documents" "id")
  demand (! anyPair (fun a b => a.id == b.id) s.pages) (.primaryKey "document_pages" "id")
  demand (! anyPair (fun a b => a.documentId == b.documentId && a.pageNo == b.pageNo) s.pages)
    (.unique "document_pages" ["document_id", "page_no"])
  demand (! anyPair JobRow.clashes s.jobs) Jobs.oneActive
  demand (! anyPair (fun a b => a.id == b.id) s.jobs) (.primaryKey "jobs" "id")
  demand (! anyPair (fun a b => a.id == b.id) s.events) (.primaryKey "job_events" "id")
  demand (! anyPair (fun a b => a.id == b.id) s.artifacts) (.primaryKey "generated_artifacts" "id")
  demand (refersWell s) .foreignKey

/-- The rows with a column set where a condition holds, and how many those are. -/
def setWhere (p : ρ → Bool) (set : Setter ρ) (v : Scalar) (rows : List ρ) :
    Except StoreError (List ρ × Nat) := do
  let rows' ← rows.mapM fun r => if p r then set v r else .ok r
  return (rows', (rows.filter p).length)

/-- A write to the rows of a table, if it has the column. -/
def writeTable (column : String) (set : Option (Setter ρ)) (p : ρ → Bool) (v : Scalar)
    (rows : List ρ) (put : List ρ → Store → Store) : Txn StoreError Nat :=
  match set with
  | none => .fail (.noSuchColumn column)
  | some set => do
    let (rows, n) ← .ofExcept (setWhere p set v rows)
    Txn.modify (put rows)
    .ofExcept (check (← Txn.store))
    return n

/-- Sets a column of the row with an id; tells how many rows that were. -/
def write (table column id : String) (v : Scalar) : Txn StoreError Nat := do
  let s ← Txn.store
  let key := spelledWhole? id
  match table with
  | "documents" =>
    writeTable column (document column) (·.id == id) v s.documents
      fun rows s => { s with documents := rows }
  | "document_pages" =>
    writeTable column (page column) (fun r => some r.id == key) v s.pages
      fun rows s => { s with pages := rows }
  | "jobs" =>
    writeTable column (job column) (·.id == id) v s.jobs fun rows s => { s with jobs := rows }
  | "job_events" =>
    writeTable column (event column) (fun r => some r.id == key) v s.events
      fun rows s => { s with events := rows }
  | "document_versions" =>
    if ! versionColumns.contains column then .fail (.noSuchColumn column)
    else Versions.alter (·.id == id) some
  | "generated_artifacts" =>
    writeTable column (artifact column) (·.id == id) v s.artifacts
      fun rows s => { s with artifacts := rows }
  | "_migrations" =>
    -- these rows go by their version
    .fail (.noSuchColumn (if migrationColumns.contains column then "id" else column))
  | _ => .fail (.noSuchTable table)

end Quire.Column
