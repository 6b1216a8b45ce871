import Quire.Text.Cut

/-! The form that the log is written in. -/
namespace Quire

inductive LogFormat
  | text | json
  deriving DecidableEq, Repr, Inhabited

namespace LogFormat

def word : LogFormat → String
  | .text => "text"
  | .json => "json"

/-- The form of a word in either case, or what is wrong with it. -/
def parse (s : String) : Except String LogFormat :=
  let lower := Text.asciiLower s
  if lower == "text" then .ok .text
  else if lower == "json" then .ok .json
  else .error s!"unknown log format '{lower}' (expected text or json)"

end LogFormat
end Quire
