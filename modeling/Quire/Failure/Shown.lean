import Quire.Failure.Report

/-! Failures for programs: an object with the name of a failure's kind beside its message. -/
namespace Quire

/-- The name of a failure's kind. -/
class Kind (ε : Type) where
  kind : ε → String

instance : Kind AuthError where
  kind
    | .readKey .. => "ReadKey"
    | .invalidKey _ => "InvalidKey"
    | .signing => "Signing"
    | .request => "Request"
    | .tokenEndpoint .. => "TokenEndpoint"

instance : Kind StorageError where
  kind
    | .unreadable .. => "ReadFile"
    | .notFound _ => "NotFound"
    | .tooLarge .. => "TooLarge"
    | .request => "Request"
    | .api .. => "Api"
    | .auth _ => "Auth"
    | .stream _ => "Stream"

instance : Kind OcrError where
  kind
    | .auth _ => "Auth"
    | .request => "Request"
    | .transient .. => "Transient"
    | .api .. => "Api"
    | .malformed _ => "Malformed"
    | .storage _ => "Storage"

instance : Kind LlmError where
  kind
    | .request => "Request"
    | .transient .. => "Transient"
    | .api .. => "Api"
    | .malformed _ => "Malformed"

instance : Kind CleaningError where
  kind
    | .llm _ => "Llm"
    | .malformed _ => "Malformed"

instance : Kind ProcessError where
  kind
    | .unsupportedFormat _ => "UnsupportedFormat"
    | .pdf _ => "PdfProcessing"

instance : Kind JobError where
  kind
    | .store _ => "Database"
    | .notFound _ => "NotFound"
    | .terminal .. => "Terminal"

instance : Kind GenerationError where
  kind
    | .llm _ => "Llm"
    | .malformed _ => "Malformed"
    | .invalidParams _ => "InvalidParams"
    | .store _ => "Database"

instance : Kind ConfigError where
  kind
    | .unreadable .. => "ReadFile"
    | .badJson _ => "ParseJson"
    | .invalid _ => "Validation"

instance : Kind SecretError where
  kind
    | .noSource => "NoSourceProvided"
    | .unreadable .. => "FileReadError"
    | .unset _ => "EnvVarNotSet"
    | .notUnicode _ => "EnvVarNotUnicode"

instance : Kind StoreError where
  kind
    | .io .. => "Io"
    | .migration .. => "Migration"
    | .unknownValue .. => "UnknownValue"
    | .lockPoisoned => "LockPoisoned"
    | .versionsExhausted => "VersionsExhausted"
    | _ => "Sqlite"

instance : Kind PipelineError where
  kind
    | .conflict _ => "Conflict"
    | .notFound .. => "NotFound"
    | .forbidden => "Forbidden"
    | .precondition _ => "Precondition"
    | .external _ => "Upstream"
    | .transient _ => "Transient"
    | .internal _ => "Internal"

/-- How a kind of failure is shown. -/
class Shown (ε : Type) where
  json : ε → Json

namespace Shown
variable {ε α : Type}

/-- Kind and message. -/
def plain [Failure ε] [Kind ε] (e : ε) : Json :=
  .ofMembers [("error", .text (Kind.kind e)), ("message", .text (Failure.message e))]

/-- An outcome: a value as `f` shows it, or a failure. -/
def outcome [Shown ε] (f : α → Json) : Except ε α → Json
  | .ok a => f a
  | .error e => json e

end Shown

instance (priority := low) {ε : Type} [Failure ε] [Kind ε] : Shown ε := ⟨Shown.plain⟩

/-- A failure of the pipeline also tells what a caller may be told, and whether to try again. -/
instance : Shown PipelineError where
  json e :=
    .ofMembers
      [("error", .text (Kind.kind e)), ("message", .text (Failure.message e)),
        ("public", .text e.publicMessage), ("retryable", .bool e.isRetryable)]

/-- A failure of the store also tells whether a value is taken. -/
instance : Shown StoreError where
  json e :=
    .ofMembers
      [("error", .text (Kind.kind e)), ("message", .text (Failure.message e)),
        ("unique_violation", .bool e.isUniqueViolation)]

end Quire
