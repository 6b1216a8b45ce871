import Quire.Command.Run

/-! How a process ends that has run a command. -/
namespace Quire

/-- What is written to the output. -/
inductive Output
  | nothing
  | json (j : Json)
  | line (s : String)

/-- Why nothing was written. -/
inductive Complaint
  | failure (e : CommandError)
  /-- The arguments are no command. -/
  | usage

structure Exit where
  output : Output
  complaint : Option Complaint

namespace Exit

def usage : String :=
  "Usage: scriptorium [--config FILE] [--log-format text|json] COMMAND\n\n" ++
  "Commands:\n" ++
  "  register --owner ID --file-name NAME --storage-path PATH [--mime TYPE] [--title TITLE]\n" ++
  "  ingest DOCUMENT --owner ID\n" ++
  "  poll JOB\n" ++
  "  wait JOB\n" ++
  "  edit DOCUMENT --owner ID --page N (--text TEXT | --clear)\n" ++
  "  publish DOCUMENT --owner ID [--title TITLE] [--notes NOTES] [--no-generate]\n" ++
  "      [--question-type TYPE] [--count N] [--difficulty LEVEL]\n" ++
  "  generate JOB\n" ++
  "  sweep\n" ++
  "  status JOB"

def version : String := "scriptorium 0.1.0"

/-- The status of the process: 2 if the arguments are no command. -/
def code (x : Exit) : UInt8 :=
  match x.complaint with
  | none => 0
  | some (.failure e) => e.exitCode
  | some .usage => 2

def ofAnswer : Except CommandError Json → Exit
  | .ok j => ⟨.json j, none⟩
  | .error e => ⟨.nothing, some (.failure e)⟩

def ofStop : Command.Stop → Exit
  | .mistake => ⟨.nothing, some .usage⟩
  | .help => ⟨.line usage, none⟩
  | .version => ⟨.line version, none⟩

end Exit

namespace Command
variable {m : Type → Type} [Monad m]

/-- Runs what the arguments say. -/
def execute (machine : Machine m) (e : Environment Database) (args : List String) :
    m (Exit × Environment Database) := do
  match parse e args with
  | .error stop => return (.ofStop stop, e)
  | .ok invocation =>
    let (answer, e) ← invocation.run machine e
    return (.ofAnswer answer, e)

end Command
end Quire
