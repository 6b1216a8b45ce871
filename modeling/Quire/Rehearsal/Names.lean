import Quire.Json.Value
import Quire.Rehearsal.World
import Quire.Text.Cut

/-! Names for what differs from one rehearsal to the next.

Identifiers are told by their table and the place of their row in it, such as `doc#1`; times by the
step at which the clock was read, such as `@4`, and how far they are from it. -/

/-! ### Texts with parts of them replaced, and JSON values with their texts changed -/
namespace Quire.Text

/-- A text in which `part?` finds parts: it gives what stands in the place of a part at the
beginning, and how long that part is. `left` bounds the number of places. -/
def substituteChars (part? : List Char → Option (String × Nat)) :
    (left : Nat) → List Char → List Char
  | 0, cs => cs
  | _, [] => []
  | left + 1, c :: rest =>
    match part? (c :: rest) with
    | some (shown, length) => shown.toList ++ substituteChars part? left (rest.drop (length - 1))
    | none => c :: substituteChars part? left rest

def substitute (part? : List Char → Option (String × Nat)) (s : String) : String :=
  String.ofList (substituteChars part? s.length s.toList)

/-- A text with another one in the place of every occurrence of a part. -/
def replace (part shown s : String) : String :=
  if part != "" && contains part s then
    substitute (fun cs => (afterStart? part.toList cs).map fun _ => (shown, part.length)) s
  else s

end Quire.Text

namespace Quire.Json

mutual

/-- A value with all its texts changed; the keys stay. -/
def mapTexts (f : String → String) : Json → Json
  | .text s => .text (f s)
  | .array items => .array (mapItems f items)
  | .object ms => .ofMembers (mapMembers f ms)
  | j => j

def mapItems (f : String → String) : List Json → List Json
  | [] => []
  | j :: rest => mapTexts f j :: mapItems f rest

def mapMembers (f : String → String) : List (String × Json) → List (String × Json)
  | [] => []
  | (key, j) :: rest => (key, mapTexts f j) :: mapMembers f rest

end

end Quire.Json

/-! ### Names -/
namespace Quire.Rehearsal

/-- Where the uploads are. -/
def uploadsRoot : String := "/uploads-7c1e"

/-- The time of a step. Steps are a millisecond apart. -/
def timeOf (step : Nat) : Instant := .ofMillis (1782864000000 + step)

structure Names where
  /-- Identifiers that have reached a table. -/
  ids : List (String × String)
  /-- Timestamps, and numbers of milliseconds. -/
  times : List (String × String)

namespace Names

/-- The name of a time some seconds from a step's. -/
def timeName (step : Nat) (offset : Int) : String :=
  if offset == 0 then s!"@{step}"
  else if offset < 0 then s!"@{step}{offset}"
  else s!"@{step}+{offset}"

/-- The names of all times that a rehearsal of so many steps can tell. -/
def timesOf (steps : Nat) (offsets : List Int) : List (String × String) :=
  (List.range (steps + 1)).flatMap fun step =>
    (toString (timeOf step).millis, timeName step 0) ::
      offsets.map fun offset => (((timeOf step).after ⟨offset⟩).timestamp, timeName step offset)

/-- What stands in the place of a time at the beginning, and how long the time is. -/
def time? (names : Names) (cs : List Char) : Option (String × Nat) :=
  let at? (length : Nat) : Option (String × Nat) :=
    (names.times.lookup (String.ofList (cs.take length))).map fun name => (name, length)
  match cs with
  | c :: _ => if c.isDigit then at? 24 <|> at? 13 else none
  | [] => none

/-- What stands in the place of an identifier at the beginning. -/
def id? (names : Names) (cs : List Char) : Option (String × Nat) :=
  if (Text.afterStart? identifierStart.toList cs).isSome then
    some ((names.ids.lookup (String.ofList (cs.take 36))).getD "<uuid>", 36)
  else none

def root? (cs : List Char) : Option (String × Nat) :=
  (Text.afterStart? uploadsRoot.toList cs).map fun _ => ("UPLOADS", uploadsRoot.length)

/-- A text with names. -/
def shown (names : Names) (s : String) : String :=
  Text.substitute (fun cs => names.id? cs <|> names.time? cs <|> root? cs) s

/-- The identifier of a name at the beginning. -/
def named? (names : Names) (cs : List Char) : Option (String × Nat) :=
  let digits := (cs.drop 4).takeWhile Char.isDigit
  let name := String.ofList (cs.take 4 ++ digits)
  (names.ids.find? fun (_, known) => known == name).map fun (id, _) => (id, name.length)

/-- A text with identifiers for their names. -/
def read (names : Names) (s : String) : String :=
  if Text.contains "#" s then Text.substitute names.named? s else s

/-- The names of the identifiers in a table that have none yet. -/
def unnamed (names : Names) (kind : String) (ids : List String) : List (String × String) :=
  ids.zipIdx.filterMap fun (id, i) =>
    if Text.startsWith identifierStart id && (names.ids.lookup id).isNone then
      some (id, s!"{kind}#{i + 1}")
    else none

/-- With the names of the rows that are new. -/
def learn (names : Names) (s : Store) : Names :=
  { names with
    ids := names.ids ++ names.unnamed "doc" (s.documents.map (·.id)) ++
      names.unnamed "job" (s.jobs.map (·.id)) ++ names.unnamed "ver" (s.versions.map (·.id)) ++
      names.unnamed "art" (s.artifacts.map (·.id)) }

end Names
end Quire.Rehearsal
