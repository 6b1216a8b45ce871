import Quire.Text.Cut

/-! Paths and their parts.

A path is a text; `/` separates its parts. Empty parts and parts `.` name nothing, except a `.`
at the very beginning of a relative path. -/
namespace Quire.Path

/-- What a part of a path stands for. -/
inductive Component
  | root
  | current
  | parent
  | normal (name : String)
  deriving DecidableEq, Repr

/-- A part that is not the first of a relative path. -/
def inner (part : String) : Option Component :=
  if part == "" || part == "." then none
  else if part == ".." then some .parent
  else some (.normal part)

/-- The components of a path from left to right. -/
def components (path : String) : List Component :=
  match Text.cut '/' path with
  | [] => []
  | first :: rest =>
    let others := rest.filterMap inner
    if first == "" then if rest.isEmpty then [] else .root :: others
    else if first == "." then .current :: others
    else (inner first).toList ++ others

/-- Whether a path starts at the root. -/
def isAbsolute (path : String) : Bool := Text.startsWith "/" path

/-- `path` seen from `base`; an absolute path stands for itself. -/
def join (base path : String) : String :=
  if isAbsolute path then path
  else if base == "" || Text.endsWith "/" base then base ++ path
  else base ++ "/" ++ path

/-- The last component, if it is a name. -/
def fileName? (path : String) : Option String :=
  match (components path).getLast? with
  | some (.normal name) => some name
  | _ => none

/-- What follows the last dot of the file name, unless the name has no other dot than its first
character. -/
def extension? (path : String) : Option String := do
  let name ← fileName? path
  match (Text.cutChars '.' name.toList).reverse with
  | last :: before :: more =>
    if more.isEmpty && before.isEmpty then none else some (String.ofList last)
  | _ => none

/-- The parts of a path without its last one; a path of one name has an empty parent. -/
def parent? (path : String) : Option String :=
  -- the last part, with the separators around it
  let parts := Text.cut '/' path
  let trailing := (parts.reverse.takeWhile fun p => p == "" || p == ".").length
  let parts := parts.take (parts.length - trailing)
  match parts with
  | [] => none
  | _ =>
    let front := parts.dropLast
    let back := (front.reverse.dropWhile fun p => p == "" || p == ".").reverse
    if back.isEmpty then some (if isAbsolute path then "/" else "")
    else some ("/".intercalate back)

end Quire.Path
