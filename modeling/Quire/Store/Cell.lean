import Quire.Store.Error
import Quire.Json.Shape
import Quire.Json.Printer

/-! What the cells of a row hold.

A number column holds a number, or a text that somebody has put there. A JSON column holds a
value, or a text that may be no JSON at all. Reading a cell in the type that is expected there
tells what stands in the way. -/
namespace Quire

inductive Cell
  | integer (n : Int)
  | real (x : Float)
  | text (s : String)
  deriving BEq, Inhabited

namespace Cell

def ofNat (n : Nat) : Cell := .integer n

/-- The order of cells: numbers by value, then texts. -/
def le : Cell → Cell → Bool
  | .integer n, .integer k => n ≤ k
  | .integer n, .real y => Float.ofInt n ≤ y
  | .real x, .integer k => x ≤ Float.ofInt k
  | .real x, .real y => x ≤ y
  | .text s, .text t => s ≤ t
  | .text _, _ => false
  | _, .text _ => true

/-- The fault of another type in a column. -/
def fault (found : String) (column : Nat) (name : String) : StoreError :=
  .wrongType found column name

/-- A whole number within bounds. -/
def bounded (low high : Int) (column : Nat) (name : String) : Cell → Except StoreError Int
  | .integer n => if low ≤ n && n ≤ high then .ok n else .error (.outOfRange n column)
  | .real _ => .error (fault "Real" column name)
  | .text _ => .error (fault "Text" column name)

def word32 (column : Nat) (name : String) (c : Cell) : Except StoreError UInt32 := do
  return UInt32.ofNat (← c.bounded 0 0xFFFFFFFF column name).toNat

def word64 (column : Nat) (name : String) (c : Cell) : Except StoreError UInt64 := do
  return UInt64.ofNat (← c.bounded 0 0xFFFFFFFFFFFFFFFF column name).toNat

/-- True for every number but zero. -/
def flag (column : Nat) (name : String) (c : Cell) : Except StoreError Bool := do
  return (← c.bounded (-0x8000000000000000) 0x7FFFFFFFFFFFFFFF column name) != 0

def float (column : Nat) (name : String) : Cell → Except StoreError Float
  | .integer n => .ok (Float.ofInt n)
  | .real x => .ok x
  | .text _ => .error (fault "Text" column name)

def ofFlag (b : Bool) : Cell := .integer (if b then 1 else 0)

/-- The largest number that a cell can hold. -/
def limit : Int := 0x7FFFFFFFFFFFFFFF

/-- A number on its way into a cell. -/
def store (n : Nat) : Except StoreError Cell :=
  if (n : Int) ≤ limit then .ok (.integer n) else .error .tooLarge

end Cell

mutual

/-- Whether a number with a fraction stands in a value. -/
def Json.hasReal : Json → Bool
  | .number (.real _) => true
  | .array items => Json.anyReal items
  | .object members => Json.anyMemberReal members
  | _ => false

def Json.anyReal : List Json → Bool
  | [] => false
  | j :: rest => j.hasReal || Json.anyReal rest

def Json.anyMemberReal : List (String × Json) → Bool
  | [] => false
  | (_, j) :: rest => j.hasReal || Json.anyMemberReal rest

end

mutual

/-- How many containers stand one within the other. -/
def Json.depth : Json → Nat
  | .array items => Json.itemsDepth items + 1
  | .object members => Json.membersDepth members + 1
  | _ => 0

def Json.itemsDepth : List Json → Nat
  | [] => 0
  | j :: rest => max j.depth (Json.itemsDepth rest)

def Json.membersDepth : List (String × Json) → Nat
  | [] => 0
  | (_, j) :: rest => max j.depth (Json.membersDepth rest)

end

/-- The value is read back as it was: it has no fractions, which reading can round, and is not
deeper than what is read. -/
def Json.isDurable (j : Json) : Bool := ! j.hasReal && j.depth ≤ Json.depthLimit

/-- The content of a JSON column. -/
inductive StoredJson
  | value (j : Json)
  | text (s : String)
  deriving Inhabited

namespace StoredJson

/-- A value as it is stored. One that may not come back as it was is kept as its text; this is
written without a look at what can be read. -/
def ofJson (j : Json) : StoredJson := if j.isDurable then .value j else .text j.compact

def read : StoredJson → Except StoreError Json
  | .value j => .ok j
  | .text s =>
    match Json.parse s with
    | .ok j => .ok j
    | .error fault => .error (.conversion fault)

end StoredJson
end Quire
