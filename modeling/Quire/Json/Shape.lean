import Quire.Json.Outline

/-! Reading values of a given shape.

A shape turns an outline into a value of a type, or into the first fault from left to right. A
shape is asked of a text or of a value that has been read before; the two differ only in a few
faults, so a shape is told the `Origin`. -/
namespace Quire.Json

/-- Where an outline comes from. -/
inductive Origin
  | text
  | value
  deriving DecidableEq

/-- How to read a value of type `α`. -/
abbrev Shape (α : Type) := Origin → Outline → Except Fault α

/-- The fault of finding `o` where something else is expected. -/
def mismatch (o : Outline) (expected : String) : Fault :=
  match o with
  | .fault | .number none | .text none => .notJson
  | .null => .wrongType .null expected
  | .bool b => .wrongType (.bool b) expected
  | .number (some n) => .wrongType (.number n) expected
  | .text (some s) => .wrongType (.text s) expected
  | .array _ _ | .buried false _ => .wrongType .sequence expected
  | .object _ _ | .buried true _ => .wrongType .map expected

namespace Shape

/-! ### Scalars -/

def string : Shape String := fun _ o =>
  match o with
  | .text (some s) => .ok s
  | o => .error (mismatch o "a string")

def boolean : Shape Bool := fun _ o =>
  match o with
  | .bool b => .ok b
  | o => .error (mismatch o "a boolean")

/-- A whole number from `low` to `high`; `expected` names the type in faults. -/
def integer (expected : String) (low high : Int) : Shape Int := fun _ o =>
  match o with
  | .number (some (.integer n)) =>
    if low ≤ n && n ≤ high then .ok n
    else .error (.wrongValue (.number (.integer n)) expected)
  | o => .error (mismatch o expected)

def word32 : Shape UInt32 := fun origin o => do
  return UInt32.ofNat (← integer "u32" 0 0xFFFFFFFF origin o).toNat

def word64 : Shape UInt64 := fun origin o => do
  return UInt64.ofNat (← integer "u64" 0 0xFFFFFFFFFFFFFFFF origin o).toNat

/-- A size in memory, of 64 bits too. -/
def size : Shape UInt64 := fun origin o => do
  return UInt64.ofNat (← integer "usize" 0 0xFFFFFFFFFFFFFFFF origin o).toNat

def signed64 : Shape Int := integer "i64" (-0x8000000000000000) 0x7FFFFFFFFFFFFFFF

/-- Any value. -/
def any : Shape Json := fun _ o => o.toJson

/-- Absent when `null`. -/
def option (inner : Shape α) : Shape (Option α) := fun origin o =>
  match o with
  | .null => .ok none
  | o => do return some (← inner origin o)

/-- A word out of a list, written as a string or as an object with that key and `null`. -/
def variant (known : List (String × α)) : Shape α := fun origin o =>
  let lookup (name : String) : Except Fault α :=
    match known.find? (·.1 == name) with
    | some (_, a) => .ok a
    | none => .error (.unknownVariant name (known.map Prod.fst))
  let only (o : Outline) : Except Fault Unit :=
    match o with
    | .null => .ok ()
    | o => .error (mismatch o "unit")
  match origin, o with
  | _, .text (some s) => lookup s
  | .text, .object ((some key, content) :: rest) closed => do
    let a ← lookup key
    only content
    if rest.isEmpty && closed then .ok a else .error .notJson
  | .text, _ => .error .notJson
  | .value, .object [(some key, content)] _ => do
    let a ← lookup key
    only content
    .ok a
  | .value, .object _ _ => .error (.wrongValue .map "map with a single key")
  | .value, o => .error (mismatch o "string or map")

/-! ### Sequences and maps -/

def items (inner : Shape α) (origin : Origin) : List Outline → Except Fault (List α)
  | [] => .ok []
  | o :: rest => do return (← inner origin o) :: (← items inner origin rest)

/-- A fault if the container's end was not reached. -/
def ended (closed : Bool) : Except Fault Unit := if closed then .ok () else .error .notJson

def list (inner : Shape α) : Shape (List α) := fun origin o =>
  match o with
  | .array os closed => do
    let values ← items inner origin os
    ended closed
    .ok values
  | .buried false _ => .error .notJson
  | o => .error (mismatch o "a sequence")

def entries (key : Shape κ) (inner : Shape α) (origin : Origin) :
    List (Option String × Outline) → Except Fault (List (κ × α))
  | [] => .ok []
  | (name, o) :: rest => do
    let k ← key origin (.text name)
    let a ← inner origin o
    return (k, a) :: (← entries key inner origin rest)

/-- The members of an object in the order of the text. -/
def map (key : Shape κ) (inner : Shape α) : Shape (List (κ × α)) := fun origin o =>
  match o with
  | .object members closed => do
    let values ← entries key inner origin members
    ended closed
    .ok values
  | .buried true _ => .error .notJson
  | o => .error (mismatch o "a map")

end Shape

/-! ### Records

A record has fields in a fixed order. It is written as an object, whose keys may come in any
order and may include unknown ones, or as an array with the fields in their order. -/

/-- What was found for a field. -/
inductive Slot
  | given (o : Outline)
  /-- The object has no such key. -/
  | absent
  /-- The array is too short to reach the field. -/
  | beyond (fault : Fault)

/-- The accepted names of a field, the one used in faults first, and a check of its value. -/
structure Field where
  names : List String
  check : Origin → Outline → Except Fault Unit

/-- How to read a record: its fields, and the value that is built from what was found for them. -/
structure Record (α : Type) where
  fields : List Field
  build : Origin → List Slot → Except Fault α

namespace Record

/-- A record of one field; `absent` and `beyond` give its value when it is missing. -/
def field (names : List String) (inner : Shape α) (absent : Except Fault α)
    (beyond : Fault → Except Fault α) : Record α where
  fields := [⟨names, fun origin o => do discard (inner origin o)⟩]
  build := fun origin slots =>
    match slots with
    | .given o :: _ => inner origin o
    | .beyond fault :: _ => beyond fault
    | _ => absent

/-- A field that must be there. -/
def required (name : String) (inner : Shape α) : Record α :=
  field [name] inner (.error (.missingField name)) .error

/-- A field with a value for when it is missing, under any of its names. -/
def aliased (names : List String) (inner : Shape α) (whenMissing : α) : Record α :=
  field names inner (.ok whenMissing) fun _ => .ok whenMissing

/-- A field with a value for when it is missing. -/
def optional (name : String) (inner : Shape α) (whenMissing : α) : Record α :=
  aliased [name] inner whenMissing

/-- A field that may be missing in an object, but not in an array. -/
def nullable (name : String) (inner : Shape α) : Record (Option α) :=
  field [name] (Shape.option inner) (.ok none) .error

def map (f : α → β) (r : Record α) : Record β where
  fields := r.fields
  build := fun origin slots => do return f (← r.build origin slots)

/-- The fields of `f` come first. -/
def seq (f : Record (α → β)) (r : Record α) : Record β where
  fields := f.fields ++ r.fields
  build := fun origin slots => do
    let g ← f.build origin (slots.take f.fields.length)
    let a ← r.build origin (slots.drop f.fields.length)
    return g a

instance : Functor Record where map := Record.map
instance : Seq Record where seq f r := Record.seq f (r ())

/-- What was found so far, with a further field's value in its place; the field's name if it was
found before. -/
def fill (key : String) (o : Outline) (origin : Origin) :
    List (Field × Option Outline) → Except Fault (Option (List (Field × Option Outline)))
  | [] => .ok none
  | (f, found) :: rest =>
    if f.names.contains key then
      match found with
      | some _ => .error (.duplicateField (f.names.headD key))
      | none => do
        f.check origin o
        .ok (some ((f, some o) :: rest))
    else do
      return (← fill key o origin rest).map ((f, found) :: ·)

/-- The members of an object, in the order of the text; unknown keys are passed over. -/
def gather (origin : Origin) (found : List (Field × Option Outline)) :
    List (Option String × Outline) → Except Fault (List (Field × Option Outline))
  | [] => .ok found
  | (none, _) :: _ => .error .notJson
  | (some key, o) :: rest => do
    match ← fill key o origin found with
    | some found => gather origin found rest
    | none => if o.sound then gather origin found rest else .error .notJson

/-- A record from the members of an object. -/
def ofMembers (r : Record α) (origin : Origin) (members : List (Option String × Outline))
    (closed : Bool) : Except Fault α := do
  let found ← gather origin (r.fields.map fun f => (f, none)) members
  Shape.ended closed
  r.build origin (found.map fun (_, o) => match o with | some o => .given o | none => .absent)

/-- How many elements a record has, in words. -/
def expectation (name : String) (n : Nat) : String :=
  s!"struct {name} with {n} element" ++ if n == 1 then "" else "s"

/-- The items of an array, one for each field from the `i`-th on; and those left over. -/
def align (origin : Origin) (closed : Bool) (tooShort : String) :
    Nat → List Field → List Outline → Except Fault (List Slot × List Outline)
  | _, [], rest => .ok ([], rest)
  | i, f :: fs, o :: rest => do
    f.check origin o
    let (slots, left) ← align origin closed tooShort (i + 1) fs rest
    return (.given o :: slots, left)
  | i, _ :: fs, [] => do
    Shape.ended closed
    let (slots, left) ← align origin closed tooShort (i + 1) fs []
    return (.beyond (.wrongLength i tooShort) :: slots, left)

/-- A record from the items of an array. -/
def ofItems (r : Record α) (name : String) (origin : Origin) (items : List Outline)
    (closed : Bool) : Except Fault α := do
  let (slots, left) ← align origin closed (expectation name r.fields.length) 0 r.fields items
  let a ← r.build origin slots
  match origin with
  | .text => if left.isEmpty && closed then .ok a else .error .notJson
  | .value =>
    if left.isEmpty then .ok a
    else .error (.wrongLength items.length "fewer elements in array")

/-- The members of an object as far as they belong to `own`, and the members left over, which
must be readable. -/
def sift (origin : Origin) (found : List (Field × Option Outline)) :
    List (Option String × Outline) →
      Except Fault (List (Field × Option Outline) × List (Option String × Outline))
  | [] => .ok (found, [])
  | (none, _) :: _ => .error .notJson
  | (some key, o) :: rest => do
    match ← fill key o origin found with
    | some found => sift origin found rest
    | none => do
      discard (Shape.any origin o)
      let (found, left) ← sift origin found rest
      return (found, (some key, o) :: left)

/-- The slots of fields after all members have been seen. -/
def slotsOf (found : List (Field × Option Outline)) : List Slot :=
  found.map fun (_, o) => match o with | some o => .given o | none => .absent

/-- Two records whose fields stand in one object. What is left over by the first is kept as
values, of which the second one is read when the object has ended. -/
def flattened (name : String) (own : Record α) (other : Record β) : Shape (α × β) :=
  fun origin o =>
    match o with
    | .object members closed => do
      let (found, left) ← sift origin (own.fields.map fun f => (f, none)) members
      Shape.ended closed
      let a ← own.build origin (slotsOf found)
      let b ← other.ofMembers .value left true
      return (a, b)
    | .buried _ _ => .error .notJson
    | o => .error (mismatch o s!"struct {name}")

/-- The shape of a record; `name` stands for it in faults. -/
def shape (name : String) (r : Record α) : Shape α := fun origin o =>
  match o with
  | .object members closed => r.ofMembers origin members closed
  | .array items closed => r.ofItems name origin items closed
  | .buried _ _ => .error .notJson
  | o => .error (mismatch o s!"struct {name}")

end Record

/-! ### Texts and values -/

/-- The value that a document holds in a given shape. -/
def Document.read (d : Document) (s : Shape α) : Except Fault α := do
  let a ← s .text d.value
  if d.complete then .ok a else .error .notJson

/-- The symbols of a text. -/
def symbolsOf (text : String) : List Text.Symbol := text.toList.map some

/-- A text read in a given shape. -/
def readText (s : Shape α) (text : String) : Except Fault α := (documentOf (symbolsOf text)).read s

/-- Bytes read in a given shape. -/
def readBytes (s : Shape α) (bytes : ByteArray) : Except Fault α :=
  (documentOf (Text.symbols bytes)).read s

/-- A value read in a given shape. -/
def readValue (s : Shape α) (j : Json) : Except Fault α := s .value (toOutline j)

/-- The value of a JSON text. -/
def parse (text : String) : Except Fault Json := readText Shape.any text

end Quire.Json
