import Quire.Failure.Provider

/-! Trying again when a service is throttling.

An attempt that is throttled is made again after a pause, each pause one base longer than the one
before. When the attempts are used up, the last failure counts as an ordinary one, so throttling
is never what a caller is told. -/
namespace Quire

/-- A kind of failure that can tell throttling from the rest. -/
class Throttled (ε : Type) where
  isTransient : ε → Bool
  /-- A throttling failure as an ordinary one. -/
  settled : ε → ε

instance : Throttled LlmError where
  isTransient
    | .transient _ _ => true
    | _ => false
  settled
    | .transient status body => .api status body
    | e => e

instance : Throttled OcrError where
  isTransient
    | .transient _ _ => true
    | _ => false
  settled
    | .transient status body => .api status body
    | e => e

/-- How often to try, and how long to pause. -/
structure RetryPolicy where
  /-- All attempts, the first included; none counts as one. -/
  maxAttempts : UInt32
  /-- The pause before the second attempt, in the unit that pauses are counted in. -/
  backoff : Nat
  deriving DecidableEq, Repr

namespace RetryPolicy

/-- With milliseconds as the unit. -/
def standard : RetryPolicy := ⟨3, 500⟩

/-- The statuses that services use for throttling. -/
def isTransientStatus (status : Nat) : Bool := status == 429 || status == 503

variable {m : Type → Type} [Monad m] {ε α : Type} [Throttled ε]

/-- The attempts from the `made + 1`-th on, of which `left` may follow the next one. -/
def attempts (base : Nat) (pause : Nat → m Unit) (attempt : m (Except ε α)) (made : Nat) :
    Nat → m (Except ε α)
  | 0 => do
    match ← attempt with
    | .ok a => return .ok a
    | .error e => return .error (if Throttled.isTransient e then Throttled.settled e else e)
  | left + 1 => do
    match ← attempt with
    | .ok a => return .ok a
    | .error e =>
      if Throttled.isTransient e then
        pause (base * (made + 1))
        attempts base pause attempt (made + 1) left
      else return .error e

/-- Makes the attempt until it is not throttled or no attempt is left. -/
def run (p : RetryPolicy) (pause : Nat → m Unit) (attempt : m (Except ε α)) : m (Except ε α) :=
  attempts p.backoff pause attempt 0 (p.maxAttempts.toNat - 1)

end RetryPolicy
end Quire
