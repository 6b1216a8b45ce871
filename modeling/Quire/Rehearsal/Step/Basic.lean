import Quire.Rehearsal.World
import Quire.Rehearsal.Described
import Quire.Failure.Shown

/-! A step of a rehearsal, and how its answer is shown. -/
namespace Quire.Rehearsal
open Lookup

/-- What a step does; its answer is shown in JSON. -/
abbrev Act := StateM World Json

namespace Step

/-- A run, with its value as `f` shows it. -/
def run {ε α : Type} [Shown ε] (f : α → Json) (r : Run ε α) : Act := do
  let outcome : Except ε α ← fun w => w.run r
  return Shown.outcome f outcome

/-- A transaction, with its value as `f` shows it. -/
def transact {ε α : Type} [Shown ε] (f : α → Json) (t : Txn ε α) : Act := do
  return Shown.outcome f (← World.transact t)

/-- Transactions one after the other up to the first that fails. -/
def eachAlone {ε : Type} : List (Txn ε Unit) → StateM World (Except ε Unit)
  | [] => return .ok ()
  | t :: rest => do
    match ← World.transact t with
    | .ok () => eachAlone rest
    | .error e => return .error e

def ok : Json := .text "ok"

def done (_ : Unit) : Json := ok

/-- How many rows were changed. -/
def changed (n : Nat) : Json := .ofMembers [("changed", .ofNat n)]

def orNull {α : Type} (f : α → Json) (a : Option α) : Json := .ofOption f a

def all {α : Type} (f : α → Json) (as : List α) : Json := .array (as.map f)

/-- An object with a member more. -/
def with_ (key : String) (value : Json) (j : Json) : Json :=
  .ofMembers (members j ++ [(key, value)])

/-- A value that is set by hand. -/
def scalar : Json → Column.Scalar
  | .number (.integer n) => .integer n
  | .text s => .text s
  | _ => .null

/-- Who acts when a step does not say. -/
def owner (j : Json) : String := text j "owner" "owner-1"

/-- What a step wants of questions; something that cannot be read counts as nothing. -/
def questions (j : Json) : QuestionParams :=
  match (field? j "questions").map (Json.readValue QuestionParams.shape) with
  | some (.ok p) => p
  | _ => .standard

end Step
end Quire.Rehearsal
