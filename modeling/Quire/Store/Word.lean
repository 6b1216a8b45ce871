import Quire.Store.Error
import Quire.Lifecycle

/-! Words in the store.

The store keeps the members of a finite kind as words; a word that is none of them is told
together with the kind. -/
namespace Quire

/-- A kind that the store keeps, and what it is called in messages. -/
class StoredKind (α : Type) extends Label α where
  kindName : String

namespace StoredKind

/-- The member of a stored word. -/
def read {α : Type} [StoredKind α] (word : String) : Except StoreError α :=
  match Label.ofWord? word with
  | some a => .ok a
  | none => .error (.unknownValue (kindName α) word)

end StoredKind

instance : StoredKind DocumentStatus := { kindName := "document status" }
instance : StoredKind PageSource := { kindName := "page source" }
instance : StoredKind JobStatus := { kindName := "job status" }
instance : StoredKind JobType := { kindName := "job type" }
instance : StoredKind EventKind := { kindName := "event type" }

end Quire
