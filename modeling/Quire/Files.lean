import Quire.Path
import Quire.Failure.Provider
import Quire.Text.Utf8

/-! A tree of files and directories.

A file holds bytes, or a database of some kind `δ`. Looking a path up goes through its parts one
by one: only a directory can be gone through, even by a part that names nothing. -/
namespace Quire

inductive Entry (δ : Type)
  | bytes (content : ByteArray)
  | database (d : δ)
  | directory (children : List (String × Entry δ))

instance : Inhabited (Entry δ) := ⟨.directory []⟩

namespace Entry
variable {δ : Type}

/-- The child of a given name. -/
def child? (name : String) : List (String × Entry δ) → Option (Entry δ)
  | [] => none
  | (n, e) :: rest => if n == name then some e else child? name rest

/-- How many bytes a name may have, and a path. -/
def nameLimit : Nat := 255
def pathLimit : Nat := 4095

/-- The entry at the end of a way through the tree; `above` are the directories passed. -/
def walk (above : List (Entry δ)) (here : Entry δ) : List String → Except FileFault (Entry δ)
  | [] => .ok here
  | part :: rest =>
    match here with
    | .directory children =>
      if part == "" || part == "." then walk above here rest
      else if part == ".." then
        match above with
        | up :: more => walk more up rest
        | [] => walk [] here rest
      else if nameLimit < part.utf8ByteSize then .error .nameTooLong
      else match child? part children with
        | some e => walk (here :: above) e rest
        | none => .error .notFound
    | _ => .error .notDirectory

/-- The entry at a path. -/
def find (root : Entry δ) (path : String) : Except FileFault (Entry δ) :=
  if path == "" then .error .notFound
  else if path.toList.any fun c => c.toNat == 0 then .error .nulByte
  else if pathLimit < path.utf8ByteSize then .error .nameTooLong
  else walk [] root (Text.cut '/' path)

/-- The bytes of the file at a path. -/
def read (root : Entry δ) (path : String) : Except FileFault ByteArray := do
  match ← root.find path with
  | .bytes content => .ok content
  | .database _ => .error .notUnicode
  | .directory _ => .error .isDirectory

/-- The text of the file at a path. -/
def readText (root : Entry δ) (path : String) : Except FileFault String := do
  match Text.decode? (← root.read path) with
  | some s => .ok s
  | none => .error .notUnicode

/-- Children with one of them replaced or added. -/
def setChild (name : String) (e : Entry δ) : List (String × Entry δ) → List (String × Entry δ)
  | [] => [(name, e)]
  | (n, old) :: rest => if n == name then (n, e) :: rest else (n, old) :: setChild name e rest

/-- The tree with an entry at the end of a way of names; missing directories are made. -/
def put (e : Entry δ) : List String → Entry δ → Entry δ
  | [], _ => e
  | name :: rest, here =>
    let children := match here with | .directory cs => cs | _ => []
    .directory (setChild name (put e rest ((child? name children).getD (.directory []))) children)

/-- The tree without the entry at the end of a way of names. -/
def remove : List String → Entry δ → Entry δ
  | [], e => e
  | [name], .directory cs => .directory (cs.filter fun (n, _) => n != name)
  | name :: rest, .directory cs =>
    match child? name cs with
    | some e => .directory (setChild name (remove rest e) cs)
    | none => .directory cs
  | _, e => e

/-- The names on the way after some components; `back` are the names so far, the last one first. -/
def wayFrom (back : List String) : List Path.Component → List String
  | [] => back.reverse
  | .normal name :: rest => wayFrom (name :: back) rest
  | .parent :: rest => wayFrom back.tail rest
  | _ :: rest => wayFrom back rest

/-- The names on the way to a path, without what names nothing and without detours. -/
def wayTo (path : String) : List String := wayFrom [] (Path.components path)

/-- The tree with a file at a path. -/
def write (root : Entry δ) (path : String) (e : Entry δ) : Entry δ := put e (wayTo path) root

/-- All directories of a path made, where they are missing. -/
def makeDirectories (root : Entry δ) (path : String) : Except FileFault (Entry δ) :=
  match root.find path with
  | .ok (.directory _) => .ok root
  | .ok _ => .error .exists
  | .error .notFound => .ok (root.write path (.directory []))
  | .error fault => .error fault

end Entry
end Quire
