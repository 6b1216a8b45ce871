import Quire.Json.Value
import Quire.Text.Quoted
import Quire.Decimal.Text

/-! Why a text or a value does not have the shape that is asked for.

A text that is not JSON at all is `notJson`; every other fault tells what was found and what was
expected. `Fault.message` holds all the wording. -/
namespace Quire.Json

/-- What stood in the place of what was expected. -/
inductive Found
  | null
  | bool (b : Bool)
  | number (n : Number)
  | text (s : String)
  | sequence
  | map

inductive Fault
  | notJson
  | missingField (name : String)
  | duplicateField (name : String)
  | unknownVariant (found : String) (known : List String)
  | wrongType (found : Found) (expected : String)
  | wrongValue (found : Found) (expected : String)
  | wrongLength (length : Nat) (expected : String)
  | noVariant (name : String)

def Found.message : Found → String
  | .null => "null"
  | .bool b => s!"boolean `{b}`"
  | .number (.integer n) => s!"integer `{n}`"
  | .number (.real x) => "floating point `" ++ Decimal.inJson.text (.ofFloat x) ++ "`"
  | .text s => "string " ++ Text.quoted s
  | .sequence => "sequence"
  | .map => "map"

/-- A list of names to choose from. -/
def choices : List String → String
  | [] => "there are no variants"
  | [a] => s!"expected `{a}`"
  | [a, b] => s!"expected `{a}` or `{b}`"
  | names => "expected one of " ++ ", ".intercalate (names.map fun n => s!"`{n}`")

def Fault.message : Fault → String
  | .notJson => "<invalid json>"
  | .missingField name => s!"missing field `{name}`"
  | .duplicateField name => s!"duplicate field `{name}`"
  | .unknownVariant found known => s!"unknown variant `{found}`, {choices known}"
  | .wrongType found expected => s!"invalid type: {found.message}, expected {expected}"
  | .wrongValue found expected => s!"invalid value: {found.message}, expected {expected}"
  | .wrongLength n expected => s!"invalid length {n}, expected {expected}"
  | .noVariant name => s!"data did not match any variant of untagged enum {name}"

end Quire.Json
