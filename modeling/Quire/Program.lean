/-! Programs that ask their surroundings.

A program is finished, or it asks something and goes on with the answer. What is asked, and of
which type the answer is, is up to `Op`; who answers is up to `Program.run`. -/
namespace Quire

inductive Program (Op : Type → Type u) (α : Type) : Type (max u 1)
  | done (a : α)
  | ask {β : Type} (op : Op β) (next : β → Program Op α)

namespace Program
variable {Op : Type → Type u} {α β : Type}

/-- One program after another. -/
def bind : Program Op α → (α → Program Op β) → Program Op β
  | .done a, f => f a
  | .ask op next, f => .ask op fun b => bind (next b) f

instance : Monad (Program Op) where
  pure := .done
  bind := bind

/-- Asks, and is finished with the answer. -/
def perform (op : Op α) : Program Op α := .ask op .done

/-- What a program comes to when `answer` gives the answers. -/
def run {m : Type → Type v} [Monad m] (answer : {β : Type} → Op β → m β) :
    Program Op α → m α
  | .done a => pure a
  | .ask op next => do run answer (next (← answer op))

end Program
end Quire
