import Quire.Json.Lookup
import Quire.Failure.Report
import Quire.Text.Base64
import Quire.NativeText

/-! Failures and contents as a script describes them. -/
namespace Quire.Rehearsal.Described
open Lookup

/-- Bytes in base64, by their number, or as text. -/
def bytes (j : Json) : ByteArray :=
  match text? j "b64" with
  | some s => (Text.Base64.decode? s).getD ByteArray.empty
  | none =>
    match nat? j "size" with
    | some n => ⟨(List.replicate n (120 : UInt8)).toArray⟩
    | none => (text j "text").toUTF8

mutual

/-- The contents in a description whose text is told with them. -/
def known : Json → NativeText.Known
  | .array items => knownItems items
  | .object ms =>
    let here : NativeText.Known :=
      match (Json.object ms).get? "pdf_lines" with
      | some (.array lines) => [(bytes (.object ms), lines.map asText)]
      | _ => []
    here ++ knownMembers ms
  | _ => []

def knownItems : List Json → NativeText.Known
  | [] => []
  | j :: rest => known j ++ knownItems rest

def knownMembers : List (String × Json) → NativeText.Known
  | [] => []
  | (_, j) :: rest => known j ++ knownMembers rest

end

/-- Texts with their page numbers. -/
def numbered (j : Json) : List (UInt32 × String) :=
  (items j).map fun page =>
    match items page with
    | n :: t :: _ => (UInt32.ofNat (asNat n), asText t)
    | [n] => (UInt32.ofNat (asNat n), "")
    | [] => (0, "")

def status (j : Json) : Nat := nat j "status" 500 % 65536

def fault (j : Json) : FileFault := .other (text j "text")

def auth (j : Json) : AuthError :=
  match text j "variant" with
  | "InvalidKey" => .invalidKey (text j "text")
  | "ReadKey" => .readKey (text j "path") (fault j)
  | _ => .tokenEndpoint (status j) (text j "body")

def storage (j : Json) : StorageError :=
  match text j "variant" with
  | "NotFound" => .notFound (text j "text")
  | "TooLarge" => .tooLarge (nat j "size") (nat j "limit")
  | "Stream" => .stream (text j "text")
  | "ReadFile" => .unreadable (text j "path") (fault j)
  | "Auth" => .auth (auth (field j "inner"))
  | _ => .api (status j) (text j "body")

def ocr (j : Json) : OcrError :=
  match text j "variant" with
  | "Transient" => .transient (status j) (text j "body")
  | "Malformed" => .malformed (text j "text")
  | "Auth" => .auth (auth (field j "inner"))
  | "Storage" => .storage (storage (field j "inner"))
  | _ => .api (status j) (text j "body")

def llm (j : Json) : LlmError :=
  match text j "variant" with
  | "Transient" => .transient (status j) (text j "body")
  | "Malformed" => .malformed (text j "text")
  | _ => .api (status j) (text j "body")

def cleaning (j : Json) : CleaningError :=
  match text j "variant" with
  | "Llm" => .llm (llm (field j "inner"))
  | _ => .malformed (text j "text")

def store (j : Json) : StoreError :=
  match text j "variant" with
  | "Migration" => .migration (nat j "version") (text j "text")
  | "UnknownValue" => .unknownValue "document status" (text j "text")
  | "Io" => .io (text j "path") (fault j)
  | _ => .lockPoisoned

def generation (j : Json) : GenerationError :=
  match text j "variant" with
  | "Llm" => .llm (llm (field j "inner"))
  | "InvalidParams" => .invalidParams (text j "text")
  | "Database" => .store (store (field j "inner"))
  | _ => .malformed (text j "text")

def process (j : Json) : ProcessError :=
  match text j "variant" with
  | "UnsupportedFormat" => .unsupportedFormat (text j "text")
  | _ => .pdf (text j "text")

def job (j : Json) : JobError :=
  match text j "variant" with
  | "Terminal" =>
    .terminal (text j "text") ((Label.ofWord? (text j "job_status")).getD .failed)
  | "Database" => .store (store (field j "inner"))
  | _ => .notFound (text j "text")

def config (j : Json) : ConfigError :=
  match text j "variant" with
  | "ReadFile" => .unreadable (text j "path") (fault j)
  | _ => .invalid (text j "text")

/-- What `f` makes of a failure of any kind. -/
def any {α : Type u} (j : Json) (f : {ε : Type} → [Failure ε] → ε → α) : α :=
  match text j "from" with
  | "auth" => f (auth j)
  | "storage" => f (storage j)
  | "ocr" => f (ocr j)
  | "llm" => f (llm j)
  | "cleaning" => f (cleaning j)
  | "generation" => f (generation j)
  | "process" => f (process j)
  | "job" => f (job j)
  | "config" => f (config j)
  | _ => f (store j)

end Quire.Rehearsal.Described
