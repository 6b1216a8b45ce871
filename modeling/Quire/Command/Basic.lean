import Quire.Command.Arguments
import Quire.LogFormat
import Quire.Environment
import Quire.Pipeline.Publish

/-! The commands, and how they are told on a command line. -/
namespace Quire

inductive Command
  /-- Registers an upload as a document. -/
  | register (ownerId fileName storagePath : String) (mime title : Option String)
  /-- Takes the text from a document's file. -/
  | ingest (documentId ownerId : String)
  /-- Checks on a job once. -/
  | poll (jobId : String)
  /-- Waits until a job ends. -/
  | wait (jobId : String)
  /-- Sets or clears the edited text of a page. -/
  | edit (documentId ownerId : String) (page : UInt32) (text : Option String)
  /-- Publishes a draft. -/
  | publish (documentId ownerId : String) (options : PublishOptions)
  /-- Runs a job that generates questions. -/
  | generate (jobId : String)
  /-- Fails the jobs whose deadline has passed. -/
  | sweep
  /-- Shows a job and its events. -/
  | status (jobId : String)

/-- A command with what is told beside it. -/
structure Invocation where
  /-- The file of the configuration. -/
  config : String
  logFormat : LogFormat
  command : Command

namespace Command

/-! ### Values -/

/-- A whole number with an optional sign that fits 32 bits. -/
def word32? (s : String) : Option UInt32 :=
  let digits := (Text.dropStart? "+" s <|> Text.dropStart? "-" s).getD s
  if digits == "" || ! digits.toList.all Char.isDigit then none
  else
    let n := digits.toList.foldl (fun n c => n * 10 + (c.toNat - 48)) 0
    let negative := Text.startsWith "-" s && n != 0
    if negative || 0x100000000 ≤ n then none else some (UInt32.ofNat n)

/-- A path that is not empty. -/
def path? (s : String) : Option String := if s == "" then none else some s

def logFormat? (s : String) : Option LogFormat := (LogFormat.parse s).toOption

/-! ### Options -/

/-- Options that may stand before and after the name of a command. -/
def global : List Opt :=
  [{ Opt.read "config" path? with letter := some 'c' }, .read "log-format" logFormat?]

/-- What is accepted after the name of a command. -/
def grammar? (name : String) : Option Grammar :=
  let of (words : Nat) (options : List Opt) : Option Grammar :=
    some ⟨options ++ global, words, false⟩
  match name with
  | "register" =>
    of 0 [.text "owner", .text "file-name", .text "storage-path", .text "mime", .text "title"]
  | "ingest" => of 1 [.text "owner"]
  | "poll" | "wait" | "generate" | "status" => of 1 []
  | "edit" => of 1 [.text "owner", .read "page" word32?, .text "text", .flag "clear"]
  | "publish" =>
    of 1
      [.text "owner", .text "title", .text "notes", .flag "no-generate",
        .read "question-type" (Label.ofWord? (α := QuestionType)), .read "count" word32?,
        .read "difficulty" (Label.ofWord? (α := Difficulty))]
  | "sweep" => of 0 []
  | _ => none

/-! ### Commands -/

/-- A text that sets the page, or its absence that clears it: just one of the two is told. -/
def editedText (g : Given) : Option (Option String) :=
  match g.value? "text", g.has "clear" with
  | some text, false => some (some text)
  | none, true => some none
  | _, _ => none

/-- A value that can be read, or a standard one. -/
def valueOr (g : Given) (name : String) (parse : String → Option α) (standard : α) : α :=
  ((g.value? name).bind parse).getD standard

def publishOptions (g : Given) : PublishOptions where
  title := g.value? "title"
  notes := g.value? "notes"
  generates := ! g.has "no-generate"
  questions :=
    ⟨valueOr g "question-type" Label.ofWord? QuestionParams.standard.questionType,
      valueOr g "count" word32? QuestionParams.standard.count,
      valueOr g "difficulty" Label.ofWord? QuestionParams.standard.difficulty⟩

/-- The command of a name, if everything is there that it needs. -/
def ofGiven? (name : String) (g : Given) : Option Command :=
  match name, g.words with
  | "register", _ => do
    return .register (← g.value? "owner") (← g.value? "file-name") (← g.value? "storage-path")
      (g.value? "mime") (g.value? "title")
  | "ingest", [documentId] => return .ingest documentId (← g.value? "owner")
  | "poll", [jobId] => some (.poll jobId)
  | "wait", [jobId] => some (.wait jobId)
  | "edit", [documentId] => do
    return .edit documentId (← g.value? "owner") (← (g.value? "page").bind word32?)
      (← editedText g)
  | "publish", [documentId] => do
    return .publish documentId (← g.value? "owner") (publishOptions g)
  | "generate", [jobId] => some (.generate jobId)
  | "sweep", _ => some .sweep
  | "status", [jobId] => some (.status jobId)
  | _, _ => none

/-- The configuration's file when none is told. -/
def standardConfig : String := "scriptorium.json"

/-- The variable that names another file. -/
def configVariable : String := "SCRIPTORIUM_CONFIG"

/-- The file of the configuration: told after the command's name, before it, or by the variable.
The variable must name a file, unless the option is told in both places. -/
def configOf (e : Environment δ) (before after : Given) : Except Stop String :=
  let told := after.value? "config" <|> before.value? "config"
  match e.lookup? configVariable with
  | none => .ok (told.getD standardConfig)
  | some bytes =>
    match path? (Text.decodeLossy bytes) with
    | some path => .ok (told.getD path)
    | none =>
      if after.has "config" && before.has "config" then .ok (told.getD standardConfig)
      else .error .mistake

/-- What asking for help with these words gives: help, if they name at most one command. -/
def helpFor (words : List String) : Stop :=
  match words with
  | [] => .help
  | [name] => if name == "help" || (grammar? name).isSome then .help else .mistake
  | _ => .mistake

/-- What the arguments say. -/
def parse (e : Environment δ) (args : List String) : Except Stop Invocation := do
  let (before, name, rest) ← Grammar.upToWord ⟨global, 0, true⟩ .nothing none args
  match grammar? name with
  | none => .error (if name == "help" then helpFor rest else .mistake)
  | some gr =>
    let after ← gr.scan .nothing none rest
    let config ← configOf e before after
    match ofGiven? name after with
    | none => .error .mistake
    | some command =>
      let format := (after.value? "log-format" <|> before.value? "log-format").bind logFormat?
      return ⟨config, format.getD .text, command⟩

end Command
end Quire
