import Std.Time.DateTime.Timestamp
import Quire.Command.Exit
import Quire.Command.Run
import Quire.Store.Archive

/-! The command line.

Files and variables are read before a command runs, and its database is written afterwards. There
is no way to a network from here, and nothing signs or takes paginated files apart: requests go
unanswered, and such files are recognized elsewhere. -/
namespace Quire.Terminal

/-- An environment in the making. -/
abbrev Surroundings := Environment Database

/-- With a variable, if it is set. -/
def withVariable (e : Surroundings) (name : String) : IO Surroundings := do
  if (e.lookup? name).isSome then return e
  match ← IO.getEnv name with
  | some value => return { e with vars := (name, value.toUTF8) :: e.vars }
  | none => return e

/-- The content of a file, if it can be read. -/
def content? (path : String) : IO (Option ByteArray) := do
  match ← (IO.FS.readBinFile path).toBaseIO with
  | .ok bytes => return some bytes
  | .error _ => return none

/-- With a file, if there is one. -/
def withFile (e : Surroundings) (path : String) : IO Surroundings := do
  match ← content? (e.absolute path) with
  | some bytes => return { e with files := e.files.write (e.absolute path) (.bytes bytes) }
  | none => return e

/-- With the database, if there is one. A file that is no archive stays what it is. -/
def withDatabase (e : Surroundings) (path : String) : IO Surroundings := do
  match ← content? (e.absolute path) with
  | none => return e
  | some bytes =>
    let entry := match Archive.bytes? bytes with
      | some store => Entry.database (.ready store)
      | none => .bytes bytes
    return { e with files := e.files.write (e.absolute path) entry }

/-- With everything that a command reads. -/
def gather (i : Invocation) (e : Surroundings) : IO Surroundings := do
  let e ← withFile e i.config
  let e ← (Command.varNames i e).foldlM withVariable e
  let e ←
    match Command.databaseAt? i e with
    | some path => withDatabase e path
    | none => pure e
  (Command.files i e).foldlM withFile e

/-- Writes the database that a command has left. -/
def keep (i : Invocation) (e : Surroundings) : IO Unit := do
  match Command.databaseAt? i e with
  | none => return
  | some path =>
    match Command.storeAt? e path with
    | none => return
    | some store =>
      match Path.parent? (e.absolute path) with
      | some parent => IO.FS.createDirAll parent
      | none => pure ()
      IO.FS.writeBinFile (e.absolute path) (Archive.bytes store)

def now : IO Instant := do
  let t ← Std.Time.Timestamp.now
  let nanos := t.toNanosecondsSinceUnixEpoch.toInt
  return ⟨nanos / 1000000000, (nanos % 1000000000).toNat⟩

/-- Two hexadecimal digits. -/
def hexByte (b : UInt8) : String :=
  String.ofList [Nat.digitChar (b.toNat / 16), Nat.digitChar (b.toNat % 16)]

/-- A random identifier: 32 hexadecimal digits in five groups. -/
def freshId : IO String := do
  let bytes ← IO.getRandomBytes 16
  let bytes := (bytes.set! 6 (bytes.get! 6 &&& 0x0F ||| 0x40)).set! 8 (bytes.get! 8 &&& 0x3F ||| 0x80)
  let digits := (bytes.toList.map hexByte)
  let group (start size : Nat) : String := String.join ((digits.drop start).take size)
  return "-".intercalate [group 0 4, group 4 2, group 6 2, group 8 2, group 10 6]

def machine : Machine IO where
  clock := now
  freshId := freshId
  wire := ⟨fun _ => pure none, fun millis => IO.sleep (UInt32.ofNat millis)⟩
  sign := fun _ _ => pure none
  known := []

def report (x : Exit) : IO Unit := do
  match x.output with
  | .nothing => pure ()
  | .json j => IO.println j.pretty
  | .line s => IO.println s
  match x.complaint with
  | none => pure ()
  | some (.failure e) => IO.eprintln e.line
  | some .usage => IO.eprintln Exit.usage

def run (args : List String) : IO UInt8 := do
  let bare : Surroundings := ⟨.directory [], (← IO.currentDir).toString, []⟩
  let e ← ["HOME", Command.configVariable].foldlM withVariable bare
  match Command.parse e args with
  | .error stop =>
    let x := Exit.ofStop stop
    report x
    return x.code
  | .ok invocation =>
    let e ← gather invocation e
    let (answer, e) ← invocation.run machine e
    keep invocation e
    let x := Exit.ofAnswer answer
    report x
    return x.code

end Quire.Terminal

def main (args : List String) : IO UInt32 := do
  return (← Quire.Terminal.run args).toUInt32
