import Quire.Store.Column
import Quire.Ocr.Client
import Quire.Question.Basic
import Quire.NativeText

/-! What the other parties of a rehearsal say and do.

A rehearsal runs the pipeline without any remote service: every party follows a script. A `Hook`
is a write to the store at the moment when a party is called, as if somebody else had been
quicker. -/
namespace Quire.Rehearsal

/-- The calls to other parties. -/
inductive Call
  | process | submit | status | clean | generate | extract
  deriving DecidableEq, Repr

/-- How often the parties were called. -/
structure Calls where
  submit : Nat
  status : Nat
  process : Nat
  clean : Nat
  generate : Nat
  deriving DecidableEq, Repr

namespace Calls

def none : Calls := ⟨0, 0, 0, 0, 0⟩

/-- One call more; extraction is not counted. -/
def count (c : Calls) : Call → Calls
  | .submit => { c with submit := c.submit + 1 }
  | .status => { c with status := c.status + 1 }
  | .process => { c with process := c.process + 1 }
  | .clean => { c with clean := c.clean + 1 }
  | .generate => { c with generate := c.generate + 1 }
  | .extract => c

end Calls

/-- A write to the store at the start of the next call of a kind. -/
structure Hook where
  before : Call
  table : String
  column : String
  id : String
  value : Column.Scalar

/-- What the status of an operation is when it is asked for. -/
inductive Cue
  | running
  /-- The results are there. -/
  | finished
  | failed (message : String)
  /-- The question itself fails. -/
  | refused (e : OcrError)

/-- The operations on temporary objects. -/
inductive ObjectCall
  | put | list | get | delete
  deriving DecidableEq, Repr

/-- An operation on objects that fails for keys with a certain part. -/
structure Fault where
  call : ObjectCall
  part : String
  error : StorageError

/-- Who takes the text from paginated files. -/
inductive Extractor
  /-- One that knows the contents. -/
  | real
  /-- One that reads from the content what it should answer. -/
  | scripted
  deriving DecidableEq, Repr

namespace Extractor

/-- The answer that a content asks for: pages, a failure, or no pages at all. -/
def scriptedAnswer (content : ByteArray) : Except ProcessError (List String) :=
  let text := Text.decodeLossy content
  match Text.dropStart? "PAGES:" text, Text.dropStart? "BAD:" text with
  | some pages, _ =>
    match Json.readText (.list .string) pages with
    | .ok pages => .ok pages
    | .error _ => .ok []
  | none, some reason => .error (.pdf reason)
  | none, none => .ok []

def answer (known : NativeText.Known) (content : ByteArray) :
    Extractor → Except ProcessError (List String)
  | .real => NativeText.extract known content
  | .scripted => scriptedAnswer content

end Extractor

/-- A cleaner that mends one misreading and fails on certain words. -/
structure Cleaner where
  summary : Option String
  failsOn : List String
  error : CleaningError

def Cleaner.clean (c : Cleaner) (text : String) : Except CleaningError Cleaning.CleanedText :=
  if c.failsOn.any fun word => Text.contains word text then .error c.error
  else .ok ⟨String.ofList (text.toList.map fun ch => if ch == '|' then 'l' else ch), c.summary⟩

/-- The questions of a generator without a script. -/
def madeUp (text : String) (p : QuestionParams) : List Question :=
  let topic := (Text.words text).headD "?"
  (List.range p.count.toNat).map fun i =>
    ⟨topic ++ ": " ++ toString (i + 1), [], toString text.length, none⟩

end Quire.Rehearsal
