import Quire.Text.Cut
import Quire.Failure.Provider

/-! Text that a paginated file holds by itself.

A file that was scanned holds no text, or a few stray characters; its own text is worth keeping
only when all pages together have enough of it. -/
namespace Quire.NativeText

/-- The characters on all pages, blanks around a page's text left out. -/
def totalChars (pages : List String) : Nat :=
  pages.foldl (fun n page => n + Text.trimmedLength page) 0

/-- There are pages, and `threshold` characters or more on them. -/
def isUsable (pages : List String) (threshold : Nat) : Bool :=
  ! pages.isEmpty && threshold ≤ totalChars pages

/-- Contents whose text is known, each with the text of its pages. -/
abbrev Known := List (ByteArray × List String)

/-- The trimmed text of every page of a content. -/
def extract (known : Known) (content : ByteArray) : Except ProcessError (List String) :=
  match known.find? fun (bytes, _) => bytes.data == content.data with
  | some (_, pages) => .ok (pages.map Text.trim)
  | none => .error (.pdf ("Failed to load PDF: " ++ detail))

end Quire.NativeText
