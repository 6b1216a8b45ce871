import Quire.Retry

/-! Attempts with given outcomes on a clock that moves only in pauses. -/
namespace Quire.Rehearsal

/-- The outcomes to come; the last one is given again and again. -/
structure Attempts (ε α : Type) where
  script : List (Except ε α)
  calls : Nat
  elapsed : Nat

namespace Attempts
variable {ε α : Type}

def start (script : List (Except ε α)) : Attempts ε α := ⟨script, 0, 0⟩

/-- The next outcome; `whenEmpty` if there is no script at all. -/
def attempt (whenEmpty : Except ε α) : StateM (Attempts ε α) (Except ε α) := do
  let s ← get
  set { s with calls := s.calls + 1, script := if s.script.length ≤ 1 then s.script else s.script.tail }
  return s.script.headD whenEmpty

def pause (millis : Nat) : StateM (Attempts ε α) Unit :=
  modify fun s => { s with elapsed := s.elapsed + millis }

end Attempts
end Quire.Rehearsal
