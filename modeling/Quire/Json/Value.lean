/-! JSON values.

Whole numbers are kept apart from numbers with a fraction or an exponent, and the members of an
object are in ascending order of their keys, each key once. -/
namespace Quire

/-- A number: whole, or a double. -/
inductive Json.Number
  | integer (n : Int)
  | real (x : Float)
  deriving Inhabited

inductive Json
  | null
  | bool (b : Bool)
  | number (n : Json.Number)
  | text (s : String)
  | array (items : List Json)
  | object (members : List (String × Json))
  deriving Inhabited

namespace Json

/-- A member put in its place among members in ascending order; an equal key is replaced. -/
def insert (key : String) (value : Json) : List (String × Json) → List (String × Json)
  | [] => [(key, value)]
  | (k, v) :: rest =>
    if key < k then (key, value) :: (k, v) :: rest
    else if k < key then (k, v) :: insert key value rest
    else (key, value) :: rest

/-- The object with these members; of two with the same key the later one counts. -/
def ofMembers (members : List (String × Json)) : Json :=
  .object (members.foldl (fun acc (k, v) => insert k v acc) [])

/-- The member of an object with a given key. -/
def get? (key : String) : Json → Option Json
  | .object members => (members.find? fun (k, _) => k == key).map Prod.snd
  | _ => none

/-- A whole number that is not negative. -/
def nat? : Json → Option Nat
  | .number (.integer (.ofNat n)) => some n
  | _ => none

def text? : Json → Option String
  | .text s => some s
  | _ => none

def ofNat (n : Nat) : Json := .number (.integer n)

def ofInt (n : Int) : Json := .number (.integer n)

def ofFloat (x : Float) : Json := .number (.real x)

/-- `null` for what is absent. -/
def ofOption (f : α → Json) : Option α → Json
  | none => .null
  | some a => f a

end Json
end Quire
