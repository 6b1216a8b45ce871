import Quire.Pool

/-! A batch of naps on a clock that moves only when everybody sleeps.

Each item sleeps for a while, or not at all, and then is done or has failed. Of those who wake at
the same moment the one with the earlier worker comes first. -/
namespace Quire.Rehearsal

structure Nap where
  delay : Nat
  fails : Bool
  deriving DecidableEq, Repr

/-- Who sleeps, and what has been noted. -/
structure Naps where
  clock : Nat
  /-- When each sleeper wakes, and how it ends. -/
  asleep : List (Nat × Nat × Except String String)
  started : List Nat
  peak : Nat

namespace Naps

def start : Naps := ⟨0, [], [], 0⟩

/-- How the nap of an index ends. -/
def result (i : Nat) (nap : Nap) : Except String String :=
  if nap.fails then .error s!"item {i} failed" else .ok s!"done {i}"

def begin (i : Nat) (nap : Nap) : StateM Naps (Option (Except String String)) := do
  let s ← get
  let s := { s with started := s.started ++ [i], peak := max s.peak (s.asleep.length + 1) }
  if nap.delay == 0 then
    set s
    return some (result i nap)
  set { s with asleep := s.asleep ++ [(i, s.clock + nap.delay, result i nap)] }
  return none

/-- When a sleeper wakes. -/
def wake (s : Naps) (i : Nat) : Nat := ((s.asleep.find? (·.1 == i)).map (·.2.1)).getD s.clock

/-- The place of the first of those who wake earliest. -/
def earliest (s : Naps) (first : Nat) : (others : List Nat) → Fin (others.length + 1)
  | [] => 0
  | next :: others =>
    let place := (earliest s next others).succ
    if s.wake first ≤ s.wake ((first :: next :: others).get place) then 0 else place

def await (first : Nat) (others : List Nat) :
    StateM Naps (Fin (others.length + 1) × Except String String) := do
  let s ← get
  let place := s.earliest first others
  let i := (first :: others).get place
  let ending := ((s.asleep.find? (·.1 == i)).map (·.2.2)).getD (.error "")
  set { s with clock := max s.clock (s.wake i), asleep := s.asleep.filter (·.1 != i) }
  return (place, ending)

def service : Service (StateM Naps) Nap String String := ⟨begin, await⟩

end Naps
end Quire.Rehearsal
