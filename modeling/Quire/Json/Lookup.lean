import Quire.Json.Value

/-! Looking members up without complaint.

A description in JSON is read leniently: a member that is missing, or of another type than the
one that is looked for, counts as its standard value. -/
namespace Quire.Lookup

/-- A member of an object; `null` counts as missing. -/
def field? (j : Json) (key : String) : Option Json :=
  (j.get? key).filter fun
    | .null => false
    | _ => true

def field (j : Json) (key : String) : Json := (field? j key).getD .null

/-- A member that may be missing: then an object without members. -/
def object (j : Json) (key : String) : Json := (j.get? key).getD (.ofMembers [])

def text? (j : Json) (key : String) : Option String := (field? j key).bind Json.text?

def text (j : Json) (key : String) (standard : String := "") : String :=
  (text? j key).getD standard

def nat? (j : Json) (key : String) : Option Nat := (field? j key).bind Json.nat?

def nat (j : Json) (key : String) (standard : Nat := 0) : Nat := (nat? j key).getD standard

/-- The low 32 bits of a number. -/
def word32 (j : Json) (key : String) (standard : Nat := 0) : UInt32 :=
  UInt32.ofNat (nat j key standard)

def int (j : Json) (key : String) (standard : Int := 0) : Int :=
  match field? j key with
  | some (.number (.integer n)) => n
  | _ => standard

def float (j : Json) (key : String) : Float :=
  match field? j key with
  | some (.number (.integer n)) => Float.ofInt n
  | some (.number (.real x)) => x
  | _ => 0

def flag (j : Json) (key : String) (standard : Bool := false) : Bool :=
  match field? j key with
  | some (.bool b) => b
  | _ => standard

def items : Json → List Json
  | .array items => items
  | _ => []

def list (j : Json) (key : String) : List Json := items (field j key)

def members : Json → List (String × Json)
  | .object ms => ms
  | _ => []

def asText (j : Json) : String := j.text?.getD ""

def asNat (j : Json) : Nat := j.nat?.getD 0

end Quire.Lookup
