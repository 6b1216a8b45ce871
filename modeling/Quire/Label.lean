import Quire.Json.Shape

/-! Finite kinds and their words.

A kind with a word for each of its members is written as that word in the store, in JSON and in
messages; reading accepts exactly these words. -/
namespace Quire

/-- A finite kind: all its members in order, and the word of each. -/
class Label (α : Type) where
  all : List α
  word : α → String

namespace Label
variable {α : Type} [Label α]

/-- Each word with its member. -/
def table : List (String × α) := all.map fun a => (word a, a)

/-- The member with a given word. -/
def ofWord? (s : String) : Option α := all.find? fun a => word a == s

/-- The words as a shape of JSON values. -/
def shape : Json.Shape α := .variant table

def toJson (a : α) : Json := .text (word a)

end Label
end Quire
