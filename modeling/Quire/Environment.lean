import Quire.Files

/-! What surrounds a run: the files, the working directory and the variables. -/
namespace Quire

structure Environment (δ : Type) where
  files : Entry δ
  /-- Where relative paths begin. -/
  directory : String
  vars : List (String × ByteArray)

namespace Environment
variable {δ : Type}

/-- A path seen from the working directory. -/
def absolute (e : Environment δ) (path : String) : String :=
  if path == "" then "" else Path.join e.directory path

/-- What is at a path. -/
def find (e : Environment δ) (path : String) : Except FileFault (Entry δ) :=
  e.files.find (e.absolute path)

def readText (e : Environment δ) (path : String) : Except FileFault String :=
  e.files.readText (e.absolute path)

def lookup? (e : Environment δ) (name : String) : Option ByteArray :=
  (e.vars.find? fun (n, _) => n == name).map Prod.snd

def home? (e : Environment δ) : Option String :=
  ((e.lookup? "HOME").map Text.decodeLossy).filter (· != "")

/-- A path whose `~` at the beginning stands for the home directory. -/
def expandHome (e : Environment δ) (path : String) : String :=
  if path == "~" || Text.startsWith "~/" path then
    match e.home? with
    | some home => home ++ (Text.dropStart? "~" path).getD ""
    | none => path
  else path

end Environment
end Quire
