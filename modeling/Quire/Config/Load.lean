import Quire.Config.Schema
import Quire.Time.Instant

/-! Loading a configuration.

A configuration is read and then checked; the first check that fails is told. -/
namespace Quire

inductive ConfigError
  | unreadable (path : String) (fault : FileFault)
  | badJson (fault : Json.Fault)
  | invalid (reason : String)

instance : Failure ConfigError where
  message
    | .unreadable path fault => s!"Failed to read config file '{path}': {fault.message}"
    | .badJson fault => s!"Failed to parse config JSON: {fault.message}"
    | .invalid reason => s!"Config validation failed: {reason}"
  causes
    | .unreadable _ fault => [fault.message]
    | .badJson fault => [fault.message]
    | .invalid _ => []

namespace Config

/-- The fault of a condition that does not hold. -/
def demand (holds : Bool) (reason : String) : Except ConfigError Unit :=
  if holds then .ok () else .error (.invalid reason)

def demandText (field value : String) : Except ConfigError Unit :=
  demand (! Text.isEmptyOrBlank value) (field ++ " must not be empty")

def demandPositive (field : String) (value : Nat) : Except ConfigError Unit :=
  demand (0 < value) (field ++ " must be greater than zero")

/-- What every configuration in use satisfies, in the order in which it is checked. -/
def check (c : Config) : Except ConfigError Unit := do
  demand (c.version == "1.0") ("Unsupported config version: " ++ c.version)
  demandText "storage.temp_bucket" c.storage.tempBucket
  demandText "ocr.project_id" c.ocr.projectId
  demandText "ocr.processor_id" c.ocr.processorId
  demandPositive "ocr.max_poll_attempts" c.ocr.maxPollAttempts.toNat
  demandPositive "ocr.poll_interval_secs" c.ocr.pollInterval.toNat
  demandPositive "ocr.max_attempts" c.ocr.retry.maxAttempts.toNat
  demandPositive "cleaning.concurrency" c.cleaning.concurrency.toNat
  demandPositive "cleaning.max_attempts" c.cleaning.retry.maxAttempts.toNat
  demandPositive "ingest.page_insert_batch" c.ingest.pageInsertBatch.toNat
  demandPositive "generation.max_source_chars" c.generation.maxSourceChars.toNat
  demand (c.ocr.syncSizeLimit ≤ Ocr.syncSizeCeiling)
    "ocr.sync_size_limit_bytes may not exceed 20 MiB"

/-- The configuration that a text holds. -/
def load (text : String) : Except ConfigError Config :=
  match Json.readText shape text with
  | .error fault => .error (.badJson fault)
  | .ok c => do
    c.check
    .ok c

/-- The configuration that a file holds; messages name the path as it is given. -/
def loadFile (e : Environment δ) (path : String) : Except ConfigError Config :=
  match e.readText path with
  | .error fault => .error (.unreadable path fault)
  | .ok text => load text

/-! ### What follows from a configuration -/

/-- The address of the recognition service. -/
def Ocr.endpoint (o : Ocr) : String :=
  o.endpointOverride.getD s!"https://{o.location}-documentai.googleapis.com"

/-- How far a sign of life moves a job's deadline; none if that is too far. -/
def Jobs.heartbeat? (j : Jobs) : Option Span := Span.ofWord? j.heartbeatExtension

end Config
end Quire
