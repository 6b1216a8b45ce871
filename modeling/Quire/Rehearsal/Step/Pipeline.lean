import Quire.Pipeline.Ingest
import Quire.Pipeline.Publish
import Quire.Pipeline.Register
import Quire.Question.Runner
import Quire.Rehearsal.Names
import Quire.Rehearsal.Step.Basic

/-! Steps of the pipeline, and those that prepare the other parties for them: uploads, scripts,
faults and hooks. -/
namespace Quire.Rehearsal.Step
open Lookup

def callOf : String → Call
  | "process" => .process
  | "submit" => .submit
  | "status" => .status
  | "clean" => .clean
  | "generate" => .generate
  | _ => .extract

def objectCallOf : String → ObjectCall
  | "put" => .put
  | "list" => .list
  | "get" => .get
  | _ => .delete

def cueOf (j : Json) : Cue :=
  match j, j.get? "fail", j.get? "err" with
  | .text "running", _, _ => .running
  | _, some message, _ => .failed (asText message)
  | _, none, some e => .refused (Described.ocr e)
  | _, none, none => .finished

/-- What the generator gives for an entry of its script. -/
def generatedOf (j : Json) : Except GenerationError (List Question) :=
  match j.get? "err" with
  | some e => .error (Described.generation e)
  | none =>
    match Json.readValue (.list Question.shape) (field j "questions") with
    | .ok questions => .ok questions
    | .error _ => .ok []

/-- The recognition service with more to say. -/
def scripted (j : Json) (w : World) : World :=
  { w with
    cues := w.cues ++ (list j "status").map cueOf
    shards := w.shards ++ (list j "shards").map fun s => (text s "name", Described.bytes s)
    submitError := (field? j "submit_error").map Described.ocr <|> w.submitError
    processError := (field? j "process_error").map Described.ocr <|> w.processError
    text := (text? j "sync_text").getD w.text }

/-- Faults with one more; without an operation that fails all are gone. -/
def faulty (j : Json) (faults : List Fault) : List Fault :=
  match text? j "op" with
  | none => []
  | some call =>
    faults ++ [⟨objectCallOf call, text j "match", Described.storage (field j "err")⟩]

def hookOf (j : Json) : Hook :=
  ⟨callOf (text j "at"), text j "table", text j "column", text j "id", scalar (field j "value")⟩

/-- A change of the world that is answered by `ok`. -/
def prepare (f : World → World) : Act := do
  modify f
  return ok

/-- Where an upload of a path is. -/
def uploadAt (path : String) : String := Path.join uploadsRoot path

def party (j : Json) : Option Act :=
  let path := uploadAt (text j "path")
  let key := text j "key"
  match text j "do" with
  | "upload" =>
    some (prepare fun w => { w with files := w.files.write path (.bytes (Described.bytes j)) })
  | "remove_upload" =>
    some (prepare fun w => { w with files := w.files.remove (Entry.wayTo path) })
  | "ocr" => some (prepare (scripted j))
  | "generator" =>
    some (prepare fun w =>
      { w with generated := w.generated ++ (list j "script").map generatedOf })
  | "store_fault" => some (prepare fun w => { w with faults := faulty j w.faults })
  | "store_insert" =>
    some (prepare fun w =>
      { w with objects := w.objects.insert key "application/json" (Described.bytes j) })
  | "store_info" => some do
    let found := (← get).objects.find? key
    return .ofMembers [("contains", .bool found.isSome),
      ("type", .ofOption (fun o => .text o.contentType) found)]
  | "hook" => some (prepare fun w => { w with hooks := w.hooks ++ [hookOf j] })
  | _ => none

/-! ### The pipeline -/

def report (r : JobReport) : Json := with_ "settled" (.bool r.isSettled) r.toJson

/-- The size of an upload; one that is not there counts as empty. -/
def uploadSize (w : World) (path : String) : Nat :=
  match w.files.find (uploadAt path) with
  | .ok e => Upload.entrySize World.noDatabase e
  | .error _ => 0

def newDocument (j : Json) (size : Nat) : NewDocument where
  ownerId := owner j
  fileName := text j "file_name"
  storagePath := text j "path"
  mimeType := text? j "mime"
  fileSize := UInt64.ofNat (nat j "size" size)
  title := text? j "title"

def publishOptions (j : Json) : PublishOptions :=
  if flag j "defaults" then .standard
  else ⟨text? j "title", text? j "notes", flag j "trigger" true, questions j⟩

def pipeline (p : Pipeline) (j : Json) : Option Act :=
  let doc := text j "doc"
  let job := text j "job"
  match text j "do" with
  | "register" => some do
    let size := uploadSize (← get) (text j "path")
    run Document.toJson (Pipeline.register (newDocument j size))
  | "ingest" =>
    some (run (fun o => with_ "of" (.text o.jobId) o.toJson) (p.ingest doc (owner j)))
  | "poll" => some (run report (p.poll job))
  | "wait" => some (run report (p.wait job))
  | "edit" =>
    some (run (fun time => .ofMembers [("saved_at", .text time)])
      (Pipeline.saveEdit doc (owner j) (word32 j "page" 1) (text? j "text")))
  | "publish" => some (run Published.toJson (Pipeline.publish p.ledger doc (owner j) (publishOptions j)))
  | "generate" => some (run GenerationOutcome.toJson (GenerationJob.run job))
  | "cached" =>
    some (run CachedQuestions.toJson
      (QuestionCache.getOrGenerate (owner j) (text? j "doc") (text j "text") (questions j)))
  | _ => none

end Quire.Rehearsal.Step
