import Quire.Rehearsal.Script
import Quire.Effect

/-! The world of a rehearsal: everything that the pipeline asks, answered from one value.

Time stands still but between two steps, nobody sleeps, and new identifiers are numbered. -/
namespace Quire.Rehearsal

structure World where
  store : Store
  now : Instant
  /-- How many identifiers were given out. -/
  issued : Nat
  /-- The root of all uploads. -/
  root : String
  /-- The files, seen from the root of all directories. -/
  files : Entry Empty
  known : NativeText.Known
  extractor : Extractor
  cleaner : Option Cleaner
  objects : ObjectStore
  faults : List Fault
  cues : List Cue
  /-- Results that no operation has left yet, by the ends of their keys. -/
  shards : List (String × ByteArray)
  submitError : Option OcrError
  processError : Option OcrError
  /-- The text of every file that is recognized at once. -/
  text : String
  /-- Where the last operation leaves its results. -/
  output : Option String
  generated : List (Except GenerationError (List Question))
  hooks : List Hook
  calls : Calls

/-- What all identifiers begin with. -/
def identifierStart : String := "00000000-0000-4000-8000-"

/-- The identifier of a number. -/
def identifier (n : Nat) : String :=
  let digits := String.ofList (Nat.toDigits 16 n)
  identifierStart ++ "".pushn '0' (12 - digits.length) ++ digits

namespace World

/-- A transaction on the world's store. -/
def transact (t : Txn ε α) : StateM World (Except ε α) := do
  let w ← get
  let (r, store) := t.run w.store
  set { w with store := store }
  return r

/-- The store after the writes of hooks, as far as they are possible. -/
def afterHooks (store : Store) (hooks : List Hook) : Store :=
  hooks.foldl (fun s h => ((Column.write h.table h.column h.id h.value).run s).2) store

/-- A call begins: first its hooks, then it is counted. -/
def begin (call : Call) : StateM World Unit :=
  modify fun w =>
    let (due, others) := w.hooks.partition (·.before == call)
    { w with store := afterHooks w.store due, hooks := others, calls := w.calls.count call }

/-- The first fault that fits an operation on objects. -/
def fault? (w : World) (call : ObjectCall) (key : String) : Option StorageError :=
  (w.faults.find? fun f => f.call == call && Text.contains f.part key).map (·.error)

/-- An operation on objects, unless a fault fits it. -/
def object (call : ObjectCall) (key : String) (f : ObjectStore → Except StorageError (α × ObjectStore)) :
    StateM World (Except StorageError α) := do
  let w ← get
  match w.fault? call key with
  | some e => return .error e
  | none =>
    match f w.objects with
    | .error e => return .error e
    | .ok (a, objects) =>
      set { w with objects := objects }
      return .ok a

/-- The objects with shards in a folder. -/
def leave (objects : ObjectStore) (folder : String) (shards : List (String × ByteArray)) :
    ObjectStore :=
  shards.foldl (fun o (name, content) => o.insert (folder ++ name) "application/json" content)
    objects

/-- The operation is finished: it leaves its results, if there has been one. -/
def finishOperation (w : World) : World :=
  match w.output.bind w.objects.bucket.key? with
  | some folder => { w with objects := leave w.objects folder w.shards, shards := [] }
  | none => w

def recognize : StateM World (Except OcrError String) := do
  begin .process
  let w ← get
  match w.processError with
  | some e =>
    set { w with processError := none }
    return .error e
  | none => return .ok w.text

def submit (outputUri : String) : StateM World (Except OcrError String) := do
  begin .submit
  let w ← get
  match w.submitError with
  | some e =>
    set { w with submitError := none }
    return .error e
  | none =>
    set { w with output := some outputUri }
    return .ok s!"operations/op-{w.calls.submit}"

def status : StateM World (Except OcrError Ocr.OperationStatus) := do
  begin .status
  let w ← get
  set { w with cues := w.cues.tail }
  match w.cues.headD .finished with
  | .running => return .ok ⟨false, none, none⟩
  | .failed message => return .ok ⟨true, some message, none⟩
  | .refused e => return .error e
  | .finished =>
    modify finishOperation
    return .ok ⟨true, none, w.output⟩

def clean (text : String) : StateM World (Except CleaningError Cleaning.CleanedText) := do
  begin .clean
  match (← get).cleaner with
  | some c => return c.clean text
  | none => return .ok ⟨text, none⟩

def generate (text : String) (p : QuestionParams) :
    StateM World (Except GenerationError (List Question)) := do
  begin .generate
  let w ← get
  set { w with generated := w.generated.tail }
  return w.generated.headD (.ok (madeUp text p))

def extract (content : ByteArray) : StateM World (Except ProcessError (List String)) := do
  if (← get).extractor == .scripted then begin .extract
  let w ← get
  return w.extractor.answer w.known content

def environment (w : World) : Environment Empty := ⟨w.files, "/", []⟩

/-- The size of a database among the uploads; there is none. -/
def noDatabase : Empty → Nat := nofun

/-- Everything that the pipeline asks. -/
def answer : {β : Type} → Effect β → StateM World β
  | _, @Effect.transact _ _ _ t => transact t
  | _, .clock => return (← get).now
  | _, .freshId => do
    let w ← get
    set { w with issued := w.issued + 1 }
    return identifier (w.issued + 1)
  | _, .sleep _ => return ()
  | _, .reference path ttl => do
    let w ← get
    return Upload.reference w.environment noDatabase w.root path ttl w.now
  | _, .openUpload r => do
    let w ← get
    return Upload.openStream w.environment r w.now
  | _, .put key body contentType =>
    object .put key fun o => return ((), ← o.put key body contentType)
  | _, .list start => object .list start fun o => return (o.list start, o)
  | _, .get key => object .get key fun o => return (← o.get key, o)
  | _, .delete key => object .delete key fun o => return ((), o.delete key)
  | _, .extract content => extract content
  | _, .recognize _ _ => recognize
  | _, .submit _ _ outputUri => submit outputUri
  | _, .status _ => status
  | _, .beginCleaning _ text _ => some <$> clean text
  | _, .awaitCleaning _ _ => return (⟨0, Nat.succ_pos _⟩, .error (.malformed ""))
  | _, .generate text p => generate text p

/-- A run in this world. -/
def run (w : World) (r : Run ε α) : Except ε α × World := (Program.run answer r.run).run w

end World
end Quire.Rehearsal
