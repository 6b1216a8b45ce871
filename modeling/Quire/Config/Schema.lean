import Quire.Lifecycle
import Quire.Cleaning.Client
import Quire.Credential.Secret
import Quire.Retry

/-! The configuration and how it is written in JSON.

It has nine parts; of these only the version, the storage and the recognition service must be
given. Whatever else is left out has a standard value, and `toJson` writes all of it. -/
namespace Quire
open Json (Shape Record)

/-! ### Who drives the operation of a job to its end -/

inductive Discipline
  /-- Each poll makes one check, and somebody outside polls again. -/
  | external
  /-- The ingestion itself waits, with a bounded number of checks. -/
  | inProcess
  deriving DecidableEq, Repr, Inhabited

instance : Label Discipline where
  all := [.external, .inProcess]
  word
    | .external => "external"
    | .inProcess => "in_process"

/-- The disciplines that are set. -/
structure Polling where
  documentExtract : Option Discipline
  generateQuestions : Option Discipline
  deriving DecidableEq, Repr

namespace Polling

def empty : Polling := ⟨none, none⟩

def standard : Polling := ⟨some .external, none⟩

def get? (p : Polling) : JobType → Option Discipline
  | .documentExtract => p.documentExtract
  | .generateQuestions => p.generateQuestions

def set (p : Polling) (t : JobType) (d : Discipline) : Polling :=
  match t with
  | .documentExtract => { p with documentExtract := some d }
  | .generateQuestions => { p with generateQuestions := some d }

/-- A job type that is not set is polled externally. -/
def discipline (p : Polling) (t : JobType) : Discipline := (p.get? t).getD .external

/-- An object with job types as keys; of two equal keys the later one counts. -/
def shape : Json.Shape Polling := fun origin o => do
  let entries ← Json.Shape.map (Label.shape (α := JobType)) (Label.shape (α := Discipline)) origin o
  return entries.foldl (fun p (t, d) => p.set t d) empty

def toJson (p : Polling) : Json :=
  .ofMembers <| Label.all.filterMap fun t : JobType =>
    (p.get? t).map fun d => (Label.word t, Label.toJson d)

end Polling

/-! ### Parts that recur -/

/-- Three fields that name the places of a secret. -/
def SecretSource.record (name : String) (standardEnv : Option String) : Record SecretSource :=
  SecretSource.mk <$> .optional name (.option .string) none <*>
    .optional (name ++ "_file") (.option .string) none <*>
    .optional (name ++ "_env_var") (.option .string) standardEnv

def SecretSource.members (name : String) (s : SecretSource) : List (String × Json) :=
  [(name, .ofOption .text s.direct), (name ++ "_file", .ofOption .text s.file),
    (name ++ "_env_var", .ofOption .text s.envName)]

namespace Config

/-- How often to try a service, and how long to pause. -/
structure Retry where
  maxAttempts : UInt32
  /-- Milliseconds before the second attempt. -/
  backoffMillis : UInt64
  deriving DecidableEq, Repr

namespace Retry

def standard : Retry := ⟨3, 500⟩

/-- With milliseconds as the unit. -/
def policy (r : Retry) : RetryPolicy := ⟨r.maxAttempts, r.backoffMillis.toNat⟩

def record : Record Retry :=
  Retry.mk <$> .optional "max_attempts" .word32 standard.maxAttempts <*>
    .optional "backoff_base_ms" .word64 standard.backoffMillis

def members (r : Retry) : List (String × Json) :=
  [("max_attempts", .ofNat r.maxAttempts.toNat), ("backoff_base_ms", .ofNat r.backoffMillis.toNat)]

end Retry

/-- The file that holds the database, if it is not the standard one. -/
structure Database where
  path : Option String
  deriving DecidableEq, Repr

structure Storage where
  /-- The bucket for what is handed to the recognition service and comes back. -/
  tempBucket : String
  /-- The directory of the uploads. -/
  uploadsRoot : String
  endpoint : String
  deriving DecidableEq, Repr

structure Ocr where
  projectId : String
  location : String
  processorId : String
  /-- Stands for the address that follows from the location. -/
  endpointOverride : Option String
  /-- A larger file never goes into a synchronous request. -/
  syncSizeLimit : UInt64
  pollInterval : UInt64
  maxPollAttempts : UInt32
  retry : Retry
  deriving DecidableEq, Repr

structure Cleaning where
  enabled : Bool
  endpoint : String
  model : String
  languageHint : Cleaning.LanguageHint
  apiKey : SecretSource
  concurrency : UInt64
  minLength : UInt64
  retry : Retry
  deriving DecidableEq, Repr

structure Ingest where
  nativeTextThreshold : UInt64
  nativeSizeLimit : UInt64
  pageInsertBatch : UInt64
  referenceTtl : UInt64
  polling : Polling
  deriving DecidableEq, Repr

structure Jobs where
  /-- How far a sign of life moves a job's deadline, in seconds. -/
  heartbeatExtension : UInt64
  deriving DecidableEq, Repr

structure Generation where
  endpoint : String
  model : String
  outputLanguage : String
  apiKey : SecretSource
  maxSourceChars : UInt64
  maxTokens : UInt32
  retry : Retry
  deriving DecidableEq, Repr

end Config

structure Config where
  version : String
  database : Config.Database
  storage : Config.Storage
  credentials : SecretSource
  ocr : Config.Ocr
  cleaning : Config.Cleaning
  ingest : Config.Ingest
  jobs : Config.Jobs
  generation : Config.Generation
  deriving DecidableEq, Repr

namespace Config

/-! ### Standard values -/

def mebibyte : UInt64 := 1024 * 1024

def Ocr.syncSizeCeiling : UInt64 := 20 * mebibyte

def chatEndpoint : String := "https://api.groq.com/openai/v1/chat/completions"

def chatModel : String := "llama-3.3-70b-versatile"

def chatKey : SecretSource := ⟨none, none, some "GROQ_API_KEY"⟩

def accountKey : SecretSource := ⟨none, none, some "GOOGLE_SERVICE_ACCOUNT_KEY"⟩

def Database.standard : Database := ⟨none⟩

def Cleaning.standard : Cleaning :=
  ⟨true, chatEndpoint, chatModel, .az, chatKey, 3, 15, .standard⟩

def Ingest.standard : Ingest := ⟨50, 50 * mebibyte, 10, 3600, .standard⟩

def Jobs.standard : Jobs := ⟨600⟩

def Generation.standard : Generation :=
  ⟨chatEndpoint, chatModel, "Azerbaijani", chatKey, 8000, 3000, .standard⟩

/-! ### Reading -/

def Database.shape : Shape Database :=
  Record.shape "DatabaseConfig" (Database.mk <$> .optional "path" (.option .string) none)

def Storage.shape : Shape Storage :=
  Record.shape "StorageConfig" <|
    Storage.mk <$> .required "temp_bucket" .string <*> .required "uploads_root" .string <*>
      .optional "endpoint" .string "https://storage.googleapis.com"

def credentialsShape : Shape SecretSource :=
  Record.shape "CredentialsConfig" (SecretSource.record "service_account_key" accountKey.envName)

def Ocr.shape : Shape Ocr :=
  Record.shape "OcrConfig" <|
    Ocr.mk <$> .required "project_id" .string <*> .optional "location" .string "us" <*>
      .required "processor_id" .string <*> .optional "endpoint" (.option .string) none <*>
      .optional "sync_size_limit_bytes" .word64 syncSizeCeiling <*>
      .optional "poll_interval_secs" .word64 10 <*> .optional "max_poll_attempts" .word32 90 <*>
      Retry.record

def Cleaning.shape : Shape Cleaning :=
  let d := Cleaning.standard
  Record.shape "CleaningConfig" <|
    Cleaning.mk <$> .optional "enabled" .boolean d.enabled <*>
      .optional "endpoint" .string d.endpoint <*> .optional "model" .string d.model <*>
      .optional "language_hint" Label.shape d.languageHint <*>
      SecretSource.record "api_key" d.apiKey.envName <*>
      .optional "concurrency" .size d.concurrency <*> .optional "min_length" .size d.minLength <*>
      Retry.record

def Ingest.shape : Shape Ingest :=
  let d := Ingest.standard
  Record.shape "IngestConfig" <|
    Ingest.mk <$> .optional "native_text_threshold" .size d.nativeTextThreshold <*>
      .optional "native_size_limit_bytes" .word64 d.nativeSizeLimit <*>
      .optional "page_insert_batch" .size d.pageInsertBatch <*>
      .optional "signed_reference_ttl_secs" .word64 d.referenceTtl <*>
      .optional "polling" Polling.shape d.polling

def Jobs.shape : Shape Jobs :=
  Record.shape "JobsConfig" <|
    Jobs.mk <$> .optional "heartbeat_extension_secs" .word64 Jobs.standard.heartbeatExtension

def Generation.shape : Shape Generation :=
  let d := Generation.standard
  Record.shape "GenerationConfig" <|
    Generation.mk <$> .optional "endpoint" .string d.endpoint <*>
      .optional "model" .string d.model <*>
      .optional "output_language" .string d.outputLanguage <*>
      SecretSource.record "api_key" d.apiKey.envName <*>
      .optional "max_source_chars" .size d.maxSourceChars <*>
      .optional "max_tokens" .word32 d.maxTokens <*> Retry.record

def shape : Shape Config :=
  Record.shape "Config" <|
    Config.mk <$> .required "version" .string <*>
      .optional "database" Database.shape .standard <*> .required "storage" Storage.shape <*>
      .optional "credentials" credentialsShape accountKey <*> .required "ocr" Ocr.shape <*>
      .optional "cleaning" Cleaning.shape .standard <*>
      .optional "ingest" Ingest.shape .standard <*> .optional "jobs" Jobs.shape .standard <*>
      .optional "generation" Generation.shape .standard

/-! ### Writing -/

def Storage.toJson (s : Storage) : Json :=
  .ofMembers
    [("temp_bucket", .text s.tempBucket), ("uploads_root", .text s.uploadsRoot),
      ("endpoint", .text s.endpoint)]

def Ocr.toJson (o : Ocr) : Json :=
  .ofMembers <|
    [("project_id", .text o.projectId), ("location", .text o.location),
      ("processor_id", .text o.processorId), ("endpoint", .ofOption .text o.endpointOverride),
      ("sync_size_limit_bytes", .ofNat o.syncSizeLimit.toNat),
      ("poll_interval_secs", .ofNat o.pollInterval.toNat),
      ("max_poll_attempts", .ofNat o.maxPollAttempts.toNat)] ++ o.retry.members

def Cleaning.toJson (c : Cleaning) : Json :=
  .ofMembers <|
    [("enabled", .bool c.enabled), ("endpoint", .text c.endpoint), ("model", .text c.model),
      ("language_hint", Label.toJson c.languageHint)] ++ c.apiKey.members "api_key" ++
    [("concurrency", .ofNat c.concurrency.toNat), ("min_length", .ofNat c.minLength.toNat)] ++
    c.retry.members

def Ingest.toJson (i : Ingest) : Json :=
  .ofMembers
    [("native_text_threshold", .ofNat i.nativeTextThreshold.toNat),
      ("native_size_limit_bytes", .ofNat i.nativeSizeLimit.toNat),
      ("page_insert_batch", .ofNat i.pageInsertBatch.toNat),
      ("signed_reference_ttl_secs", .ofNat i.referenceTtl.toNat),
      ("polling", i.polling.toJson)]

def Generation.toJson (g : Generation) : Json :=
  .ofMembers <|
    [("endpoint", .text g.endpoint), ("model", .text g.model),
      ("output_language", .text g.outputLanguage)] ++ g.apiKey.members "api_key" ++
    [("max_source_chars", .ofNat g.maxSourceChars.toNat),
      ("max_tokens", .ofNat g.maxTokens.toNat)] ++ g.retry.members

def toJson (c : Config) : Json :=
  .ofMembers
    [("version", .text c.version),
      ("database", .ofMembers [("path", .ofOption .text c.database.path)]),
      ("storage", c.storage.toJson),
      ("credentials", .ofMembers (c.credentials.members "service_account_key")),
      ("ocr", c.ocr.toJson), ("cleaning", c.cleaning.toJson), ("ingest", c.ingest.toJson),
      ("jobs", .ofMembers
        [("heartbeat_extension_secs", .ofNat c.jobs.heartbeatExtension.toNat)]),
      ("generation", c.generation.toJson)]

end Config

end Quire
