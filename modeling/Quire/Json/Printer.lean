import Quire.Json.Value
import Quire.Decimal.Text

/-! JSON text.

`compact` writes a value without any blank; `pretty` gives every item and member a line of its
own, indented by two blanks for every container around it. -/
namespace Quire.Json

/-- A character inside a JSON string: quote, backslash and controls are escaped. -/
def escapedChar (c : Char) : String :=
  match c with
  | '"' => "\\\""
  | '\\' => "\\\\"
  | '\n' => "\\n"
  | '\r' => "\\r"
  | '\t' => "\\t"
  | c =>
    if c.toNat == 8 then "\\b"
    else if c.toNat == 12 then "\\f"
    else if c.toNat < 32 then
      "\\u00" ++ String.ofList [Nat.digitChar (c.toNat / 16), Nat.digitChar (c.toNat % 16)]
    else c.toString

/-- A JSON string. -/
def stringText (s : String) : String := "\"" ++ String.join (s.toList.map escapedChar) ++ "\""

def Number.text : Number → String
  | .integer n => toString n
  | .real x => Decimal.inJson.text (.ofFloat x)

/-- A scalar's text; containers are written by the functions below. -/
def scalarText : Json → String
  | .null => "null"
  | .bool b => if b then "true" else "false"
  | .number n => n.text
  | .text s => stringText s
  | .array _ => "[]"
  | .object _ => "\x7b\x7d"

mutual

/-- The value without any blank. -/
def compact : Json → String
  | .array items => "[" ++ compactItems items ++ "]"
  | .object members => "\x7b" ++ compactMembers members ++ "\x7d"
  | j => scalarText j

def compactItems : List Json → String
  | [] => ""
  | [j] => compact j
  | j :: k :: rest => compact j ++ "," ++ compactItems (k :: rest)

def compactMembers : List (String × Json) → String
  | [] => ""
  | [(key, j)] => stringText key ++ ":" ++ compact j
  | (key, j) :: m :: rest =>
    stringText key ++ ":" ++ compact j ++ "," ++ compactMembers (m :: rest)

end

/-- The start of a line inside `depth` containers. -/
def newline (depth : Nat) : String := "\n" ++ "".pushn ' ' (2 * depth)

mutual

/-- The value inside `depth` containers, one item or member a line. -/
def prettyAt (depth : Nat) : Json → String
  | .array [] => "[]"
  | .array items => "[" ++ prettyItems (depth + 1) items ++ newline depth ++ "]"
  | .object [] => "\x7b\x7d"
  | .object members => "\x7b" ++ prettyMembers (depth + 1) members ++ newline depth ++ "\x7d"
  | j => scalarText j

def prettyItems (depth : Nat) : List Json → String
  | [] => ""
  | [j] => newline depth ++ prettyAt depth j
  | j :: k :: rest => newline depth ++ prettyAt depth j ++ "," ++ prettyItems depth (k :: rest)

def prettyMembers (depth : Nat) : List (String × Json) → String
  | [] => ""
  | [(key, j)] => newline depth ++ stringText key ++ ": " ++ prettyAt depth j
  | (key, j) :: m :: rest =>
    newline depth ++ stringText key ++ ": " ++ prettyAt depth j ++ "," ++
      prettyMembers depth (m :: rest)

end

/-- The value over several lines. -/
def pretty (j : Json) : String := prettyAt 0 j

end Quire.Json
