import Quire.Json.Fault

/-! Failures and their causes: of files, credentials, object stores and remote services.

Every kind of failure has a message for readers and the messages of its causes, nearest first.
Two failures that differ in a detail of another party's wording share the text `<detail>`. -/
namespace Quire

/-! ### Kinds of failures -/

/-- How a kind of failure is told. -/
class Failure (ε : Type) where
  message : ε → String
  causes : ε → List String

namespace Failure
variable {ε : Type} [Failure ε]

/-- The message, then a line for each cause. -/
def trace (e : ε) : String :=
  "\n".intercalate (message e :: (causes e).map fun c => s!"caused by: {c}")

/-- The message and the messages of the causes. -/
def chain (e : ε) : List String := message e :: causes e

end Failure

/-- A failure of one kind seen as a failure of another. -/
class Widen (ε ε' : Type) where
  widen : ε → ε'

instance : Widen ε ε := ⟨id⟩

/-- What stands for the wording of another party. -/
def detail : String := "<detail>"

/-! ### What can go wrong with others -/

/-- Why a file could not be read. -/
inductive FileFault
  | notFound
  | notDirectory
  | isDirectory
  | exists
  | notUnicode
  | nameTooLong
  | nulByte
  | other (text : String)
  deriving DecidableEq

def FileFault.message : FileFault → String
  | .notFound => "No such file or directory (os error 2)"
  | .notDirectory => "Not a directory (os error 20)"
  | .isDirectory => "Is a directory (os error 21)"
  | .exists => "File exists (os error 17)"
  | .notUnicode => "stream did not contain valid UTF-8"
  | .nameTooLong => "File name too long (os error 36)"
  | .nulByte => "file name contained an unexpected NUL byte"
  | .other text => text

inductive AuthError
  | readKey (path : String) (fault : FileFault)
  | invalidKey (reason : String)
  | signing
  | request
  | tokenEndpoint (status : Nat) (body : String)

instance : Failure AuthError where
  message
    | .readKey path fault => s!"Failed to read service account key '{path}': {fault.message}"
    | .invalidKey reason => s!"Invalid service account key: {reason}"
    | .signing => s!"Failed to sign assertion: {detail}"
    | .request => s!"Token request failed: {detail}"
    | .tokenEndpoint status body => s!"Token endpoint returned {status}: {body}"
  causes
    | .readKey _ fault => [fault.message]
    | _ => []

inductive StorageError
  | unreadable (path : String) (fault : FileFault)
  | notFound (key : String)
  /-- The content is larger than the buffer that it should go into. -/
  | tooLarge (size limit : Nat)
  | request
  | api (status : Nat) (body : String)
  | auth (inner : AuthError)
  | stream (reason : String)

instance : Failure StorageError where
  message
    | .unreadable path fault => s!"Failed to read '{path}': {fault.message}"
    | .notFound key => s!"Object '{key}' not found"
    | .tooLarge size limit => s!"Blob of {size} bytes exceeds the {limit} byte buffer limit"
    | .request => s!"Object store request failed: {detail}"
    | .api status body => s!"Object store returned {status}: {body}"
    | .auth inner => s!"Object store credentials unavailable: {Failure.message inner}"
    | .stream reason => s!"Stream error: {reason}"
  causes
    | .unreadable _ fault => [fault.message]
    | .auth inner => Failure.chain inner
    | _ => []

inductive OcrError
  | auth (inner : AuthError)
  | request
  /-- The provider asks to come back later. -/
  | transient (status : Nat) (body : String)
  | api (status : Nat) (body : String)
  | malformed (reason : String)
  | storage (inner : StorageError)

instance : Failure OcrError where
  message
    | .auth inner => s!"OCR credentials unavailable: {Failure.message inner}"
    | .request => s!"OCR request failed: {detail}"
    | .transient status _ => s!"OCR provider is throttling ({status})"
    | .api status body => s!"OCR provider returned {status}: {body}"
    | .malformed reason => s!"Malformed OCR response: {reason}"
    | .storage inner => s!"OCR output unavailable: {Failure.message inner}"
  causes
    | .auth inner => Failure.chain inner
    | .storage inner => Failure.chain inner
    | _ => []

inductive LlmError
  | request
  | transient (status : Nat) (body : String)
  | api (status : Nat) (body : String)
  | malformed (reason : String)

instance : Failure LlmError where
  message
    | .request => s!"Chat completion request failed: {detail}"
    | .transient status _ => s!"Chat completion provider is throttling ({status})"
    | .api status body => s!"Chat completion provider returned {status}: {body}"
    | .malformed reason => s!"Malformed chat completion response: {reason}"
  causes _ := []

inductive CleaningError
  | llm (inner : LlmError)
  | malformed (reason : String)

instance : Failure CleaningError where
  message
    | .llm inner => Failure.message inner
    | .malformed reason => s!"Cleaner returned unusable output: {reason}"
  causes
    | .llm inner => Failure.causes inner
    | _ => []

inductive ProcessError
  | unsupportedFormat (format : String)
  | pdf (reason : String)

instance : Failure ProcessError where
  message
    | .unsupportedFormat format => s!"Unsupported document format: {format}"
    | .pdf reason => s!"Failed to process PDF: {reason}"
  causes _ := []

instance : Widen AuthError StorageError := ⟨.auth⟩
instance : Widen AuthError OcrError := ⟨.auth⟩
instance : Widen StorageError OcrError := ⟨.storage⟩
instance : Widen LlmError CleaningError := ⟨.llm⟩

end Quire
