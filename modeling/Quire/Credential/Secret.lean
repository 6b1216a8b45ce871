import Quire.Environment
import Quire.Text.Cut

/-! Where a secret is taken from.

A secret stands in the configuration itself, in a file or in a variable; the first of these that
is named counts, even if it cannot be read. -/
namespace Quire

inductive SecretError
  | noSource
  | unreadable (path : String) (fault : FileFault)
  | unset (name : String)
  | notUnicode (name : String)

instance : Failure SecretError where
  message
    | .noSource =>
      "No secret source provided (need one of: direct value, file path, or env var name)"
    | .unreadable path fault => s!"Failed to read secret from file '{path}': {fault.message}"
    | .unset name => s!"Environment variable '{name}' not set"
    | .notUnicode name => s!"Environment variable '{name}' contains invalid UTF-8"
  causes
    | .unreadable _ fault => [fault.message]
    | _ => []

/-- The places that a secret may come from; an empty one is not named. -/
structure SecretSource where
  direct : Option String
  file : Option String
  envName : Option String
  deriving DecidableEq, Repr

namespace SecretSource

/-- A name that is given and not empty. -/
def named (s : Option String) : Option String := s.filter (· != "")

/-- The secret; blanks around it are dropped unless it stands in the configuration. -/
def resolve (s : SecretSource) (e : Environment δ) : Except SecretError String :=
  match named s.direct, named s.file, named s.envName with
  | some value, _, _ => .ok value
  | none, some path, _ =>
    match e.readText (e.expandHome path) with
    | .ok text => .ok (Text.trim text)
    | .error fault => .error (.unreadable (e.expandHome path) fault)
  | none, none, some name =>
    match e.lookup? name with
    | none => .error (.unset name)
    | some bytes =>
      match Text.decode? bytes with
      | some text => .ok (Text.trim text)
      | none => .error (.notUnicode name)
  | none, none, none => .error .noSource

/-- The secret, or nothing if no place is named. -/
def resolveOptional (s : SecretSource) (e : Environment δ) : Except SecretError (Option String) :=
  match s.resolve e with
  | .ok secret => .ok (some secret)
  | .error .noSource => .ok none
  | .error fault => .error fault

end SecretSource
end Quire
