/-! Blank characters, trimming and words; cutting text at a character, and taking a known beginning
or end away.

A character is blank when Unicode gives it the property White_Space. `trim` drops the
blanks at both ends; `words` are the maximal runs of characters that are not blank. -/
namespace Quire.Text

/-- The characters with the property White_Space. -/
def isBlank (c : Char) : Bool :=
  let n := c.toNat
  (0x9 ≤ n && n ≤ 0xD) || n == 0x20 || n == 0x85 || n == 0xA0 || n == 0x1680 ||
    (0x2000 ≤ n && n ≤ 0x200A) || n == 0x2028 || n == 0x2029 || n == 0x202F || n == 0x205F ||
    n == 0x3000

/-- Without the blanks in front. -/
def trimLeft (cs : List Char) : List Char := cs.dropWhile isBlank

/-- Without the blanks at the end. -/
def trimRight (cs : List Char) : List Char := (cs.reverse.dropWhile isBlank).reverse

/-- Without the blanks at both ends. -/
def trim (s : String) : String := String.ofList (trimRight (trimLeft s.toList))

/-- No character but blanks. -/
def isEmptyOrBlank (s : String) : Bool := s.toList.all isBlank

/-- The text cut at every blank; two blanks in a row leave an empty piece between them. -/
def pieces : List Char → List (List Char)
  | [] => [[]]
  | c :: rest =>
    if isBlank c then [] :: pieces rest
    else match pieces rest with
      | p :: ps => (c :: p) :: ps
      | [] => [[c]]

/-- The maximal runs of characters that are not blank, in order. -/
def words (s : String) : List String :=
  ((pieces s.toList).filter (! ·.isEmpty)).map String.ofList

/-- How many words a text has. -/
def wordCount (s : String) : Nat := (words s).length

/-- How many characters are left after trimming. -/
def trimmedLength (s : String) : Nat := (trim s).length

/-! ### Cutting -/

/-- The pieces between the occurrences of `sep`; there is one more of them than of `sep`. -/
def cutChars (sep : Char) : List Char → List (List Char)
  | [] => [[]]
  | c :: rest =>
    if c == sep then [] :: cutChars sep rest
    else match cutChars sep rest with
      | p :: ps => (c :: p) :: ps
      | [] => [[c]]

/-- The pieces of a text between the occurrences of `sep`. -/
def cut (sep : Char) (s : String) : List String := (cutChars sep s.toList).map String.ofList

/-- What follows `start` in a list that begins with it. -/
def afterStart? : List Char → List Char → Option (List Char)
  | [], rest => some rest
  | _ :: _, [] => none
  | a :: start, c :: rest => if a == c then afterStart? start rest else none

/-- The text without its beginning, if that is how it begins. -/
def dropStart? (start s : String) : Option String :=
  (afterStart? start.toList s.toList).map String.ofList

def startsWith (start s : String) : Bool := (afterStart? start.toList s.toList).isSome

def endsWith (ending s : String) : Bool :=
  (afterStart? ending.toList.reverse s.toList.reverse).isSome

/-- Whether `part` stands anywhere in a text. -/
def containsChars (part : List Char) : List Char → Bool
  | [] => part.isEmpty
  | c :: rest => (afterStart? part (c :: rest)).isSome || containsChars part rest

def contains (part s : String) : Bool := containsChars part.toList s.toList

/-- Every character in lower case, ASCII letters alone. -/
def asciiLower (s : String) : String := String.ofList (s.toList.map Char.toLower)

/-- Without any `c` at the end. -/
def dropTrailing (c : Char) (s : String) : String :=
  String.ofList (s.toList.reverse.dropWhile (· == c)).reverse

end Quire.Text
