import Quire.Backend.Services
import Quire.Command.Basic
import Quire.Failure.Report
import Quire.Job.Sweep
import Quire.Pipeline.Ingest
import Quire.Pipeline.Publish
import Quire.Pipeline.Register
import Quire.Question.Runner

/-! Running a command.

The configuration is loaded and the database is opened for every command; keys and secrets are
looked up by those that need them. What a command has stored stays, even if it fails later. -/
namespace Quire

/-! ### What can go wrong with a command -/

inductive CommandError
  | config (path : String) (e : ConfigError)
  | noHome
  | database (path : String) (e : StoreError)
  /-- A secret that a command cannot do without. -/
  | secret (purpose : String) (e : SecretError)
  | optionalSecret (e : SecretError)
  | key (e : AuthError)
  | upload (path : String) (fault : FileFault)
  | job (e : JobError)
  | pipeline (e : PipelineError)
  /-- A length of time is too long to be worked with. -/
  | overlong

instance : Failure CommandError where
  message
    | .config path _ => s!"loading config {path}"
    | .noHome => "cannot determine home directory for the database"
    | .database path _ => s!"opening database {path}"
    | .secret purpose _ => purpose
    | .optionalSecret e => Failure.message e
    | .key e => Failure.message e
    | .upload path _ => s!"reading upload {path}"
    | .job e => Failure.message e
    | .pipeline e => e.publicMessage
    | .overlong => "a length of time is out of range"
  causes
    | .config _ e => Failure.chain e
    | .database _ e => Failure.chain e
    | .secret _ e => Failure.chain e
    | .optionalSecret e => Failure.causes e
    | .key e => Failure.causes e
    | .upload _ fault => [fault.message]
    | .job e => Failure.causes e
    | _ => []

namespace CommandError

/-- The line that tells of a failure, with all its causes. -/
def line (e : CommandError) : String := "error: " ++ ": ".intercalate (Failure.chain e)

/-- The status that a process ends with. -/
def exitCode : CommandError → UInt8
  | .overlong => 101
  | _ => 1

end CommandError

/-! ### A command and what it works with -/

/-- What every command works with. -/
structure Workplace where
  config : Config
  /-- The files and variables, with the database in its place. -/
  environment : Environment Database
  ledger : Ledger

namespace Workplace

/-! ### What the configuration asks for -/

def accountKey (w : Workplace) : Except CommandError Credential.ServiceAccountKey :=
  match w.config.credentials.resolve w.environment with
  | .error e => .error (.secret "service account key" e)
  | .ok secret =>
    match Credential.ServiceAccountKey.ofSecret secret with
    | .error e => .error (.key e)
    | .ok key => .ok key

/-- The cleaner, if it is wanted and has a key. -/
def cleaner (w : Workplace) : Except CommandError (Option Cleaning.Client) :=
  let c := w.config.cleaning
  if ! c.enabled then .ok none
  else match c.apiKey.resolveOptional w.environment with
    | .error e => .error (.optionalSecret e)
    | .ok secret =>
      .ok (secret.map fun apiKey => ⟨⟨c.endpoint, apiKey, c.retry.policy⟩, c.model, c.minLength.toNat⟩)

def generator (w : Workplace) : Except CommandError Question.Client :=
  let c := w.config.generation
  match c.apiKey.resolve w.environment with
  | .error e => .error (.secret "generation API key" e)
  | .ok apiKey =>
    .ok ⟨⟨c.endpoint, apiKey, c.retry.policy⟩, c.model, c.maxSourceChars.toNat, c.maxTokens⟩

/-- The services without keys: enough for what stays inside. -/
def services (w : Workplace) : Services where
  key := none
  recognizer := .ofConfig w.config.ocr
  objects := .new w.config.storage.endpoint w.config.storage.tempBucket
  cleaner := none
  generator := none
  environment := w.environment
  uploadsRoot := w.config.storage.uploadsRoot

/-- The pipeline with the services that it asks. -/
def pipeline (w : Workplace) : Except CommandError (Pipeline × Services) := do
  let key ← w.accountKey
  let cleaner ← w.cleaner
  match Settings.ofConfig? w.config with
  | none => .error .overlong
  | some settings =>
    let services := { w.services with key := some key, cleaner := cleaner }
    let name := cleaner.map fun c => ⟨c.model, Cleaning.version⟩
    return (⟨w.ledger, settings, services.objects.bucket, name⟩, services)

/-- The size of an upload. -/
def uploadSize (w : Workplace) (storagePath : String) : Except CommandError Nat :=
  let path := Path.join w.config.storage.uploadsRoot storagePath
  match w.environment.find path with
  | .ok e => .ok (Upload.entrySize Services.databaseSize e)
  | .error fault => .error (.upload path fault)

end Workplace

namespace Command
variable {m : Type → Type} [Monad m]

/-- What a command does within a session. -/
abbrev Action (m : Type → Type) := ExceptT CommandError (StateT Session m) Json

/-- A run of the pipeline, with its value as `f` shows it. -/
def told (s : Services) (machine : Machine m) (f : α → Json) (r : Run PipelineError α) :
    Action m :=
  ExceptT.mk do
    match ← s.run machine r with
    | .ok a => return .ok (f a)
    | .error e => return .error (.pipeline e)

/-- The same for what may fail for reasons of the ledger alone. -/
def toldByLedger (s : Services) (machine : Machine m) (f : α → Json) (r : Run JobError α) :
    Action m :=
  ExceptT.mk do
    match ← s.run machine r with
    | .ok a => return .ok (f a)
    | .error e => return .error (.job e)

/-- A job with its events. -/
def jobWithEvents (s : Services) (machine : Machine m) (jobId : String) : Action m := do
  let job ← told s machine Job.toJson (Run.widen (Ledger.find jobId))
  let events ← toldByLedger s machine (fun es => .array (es.map EventRow.toJson))
    (Ledger.events jobId)
  return .ofMembers [("job", job), ("events", events)]

def newDocument (ownerId fileName storagePath : String) (mime title : Option String)
    (size : Nat) : NewDocument :=
  ⟨ownerId, fileName, storagePath, mime, UInt64.ofNat size, title⟩

/-- Runs a command at its workplace. -/
def perform (w : Workplace) (machine : Machine m) : Command → Action m
  | .register ownerId fileName storagePath mime title => do
    let size ← ExceptT.mk (pure (w.uploadSize storagePath))
    let (_, services) ← ExceptT.mk (pure w.pipeline)
    told services machine Document.toJson
      (Pipeline.register (newDocument ownerId fileName storagePath mime title size))
  | .ingest documentId ownerId => do
    let (p, services) ← ExceptT.mk (pure w.pipeline)
    told services machine Ingestion.toJson (p.ingest documentId ownerId)
  | .poll jobId => do
    let (p, services) ← ExceptT.mk (pure w.pipeline)
    told services machine JobReport.toJson (p.poll jobId)
  | .wait jobId => do
    let (p, services) ← ExceptT.mk (pure w.pipeline)
    told services machine JobReport.toJson (p.wait jobId)
  | .edit documentId ownerId page text =>
    let saved (time : String) : Json :=
      .ofMembers [("document_id", .text documentId), ("page_no", .ofNat page.toNat),
        ("saved_at", .text time)]
    told w.services machine saved (Pipeline.saveEdit documentId ownerId page text)
  | .publish documentId ownerId options =>
    told w.services machine Published.toJson
      (Pipeline.publish w.ledger documentId ownerId options)
  | .generate jobId => do
    let generator ← ExceptT.mk (pure w.generator)
    told { w.services with generator := some generator } machine GenerationOutcome.toJson
      (GenerationJob.run jobId)
  | .sweep => do
    let now ← ExceptT.lift (StateT.lift machine.clock)
    toldByLedger w.services machine SweepReport.toJson (Sweep.run now)
  | .status jobId => jobWithEvents w.services machine jobId

end Command

namespace Invocation
variable {m : Type → Type} [Monad m]

/-- The path of the database. -/
def databasePath (c : Config) (e : Environment Database) : Except CommandError String :=
  match c.database.path <|> Database.defaultPath? e with
  | some path => .ok path
  | none => .error .noHome

/-- An opened database: where it is, its store, and the workplace. -/
structure Opened where
  path : String
  store : Store
  workplace : Workplace

/-- Loads the configuration and opens the database. The environment is told in either case. -/
def prepare (i : Invocation) (e : Environment Database) :
    Except CommandError Opened × Environment Database :=
  match Config.loadFile e i.config with
  | .error fault => (.error (.config i.config fault), e)
  | .ok c =>
    match databasePath c e with
    | .error fault => (.error fault, e)
    | .ok path =>
      match Database.openAt e path with
      | .error fault => (.error (.database path fault), e)
      | .ok (store, e) =>
        match c.jobs.heartbeat?.bind Respite.ofSpan? with
        | none => (.error .overlong, e)
        | some heartbeat => (.ok ⟨path, store, ⟨c, e, ⟨heartbeat⟩⟩⟩, e)

/-- Runs a command: what it answers, and the environment after it. -/
def run (i : Invocation) (machine : Machine m) (e : Environment Database) :
    m (Except CommandError Json × Environment Database) := do
  match i.prepare e with
  | (.error fault, e) => return (.error fault, e)
  | (.ok opened, e) =>
    let session : Session := ⟨opened.store, .empty⟩
    let (answer, session) ← (i.command.perform opened.workplace machine).run.run session
    return (answer, Database.saveAt e opened.path session.store)

end Invocation

end Quire

/-! ### What a command reads from outside: variables and files

Which files are needed shows only as others are read: the configuration names the database and
the files of secrets, the database names a document's upload. -/
namespace Quire.Command

/-- The secrets of a configuration. -/
def secrets (c : Config) : List SecretSource :=
  [c.credentials, c.cleaning.apiKey, c.generation.apiKey]

/-- The upload that a command works on, as far as that is known. -/
def storagePath? (s : Option Store) : Command → Option String
  | .register _ _ path _ _ => some path
  | .ingest documentId _ => do
    let row ← (← s).documents.find? (·.id == documentId)
    return row.storagePath
  | _ => none

/-- The store in a database among the files. -/
def storeAt? (e : Environment Database) (path : String) : Option Store :=
  match e.find path with
  | .ok (.database (.ready s)) => some s
  | _ => none

/-- Where the database is, if that is known. -/
def databaseAt? (i : Invocation) (e : Environment Database) : Option String := do
  let c ← (Config.loadFile e i.config).toOption
  (Invocation.databasePath c e).toOption

/-- The files that a command reads beside its database, as far as they are known. -/
def files (i : Invocation) (e : Environment Database) : List String :=
  match Config.loadFile e i.config with
  | .error _ => [i.config]
  | .ok c =>
    let keys := (secrets c).filterMap fun s => s.file.map e.expandHome
    let store := (databaseAt? i e).bind (storeAt? e)
    let upload := (storagePath? store i.command).map (Path.join c.storage.uploadsRoot)
    i.config :: keys ++ upload.toList

/-- The variables that a command reads, as far as they are known. -/
def varNames (i : Invocation) (e : Environment Database) : List String :=
  match Config.loadFile e i.config with
  | .error _ => []
  | .ok c => (secrets c).filterMap (·.envName)

end Quire.Command
