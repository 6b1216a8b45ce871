import Quire.Json.Token
import Quire.Json.Fault

/-! What a text holds as far as it is JSON.

An outline keeps every value up to the first place where the text stops being JSON, and marks
that place, so that a reader who works from left to right meets a wrong shape and a wrong
character in the order in which they stand. `assemble` builds it in one pass over the tokens,
with a stack of the containers that are still open. -/
namespace Quire.Json

inductive Outline
  /-- Here the text stops being JSON. -/
  | fault
  | null
  | bool (b : Bool)
  /-- No number: beyond every double. -/
  | number (n : Option Number)
  /-- No text: the string has a lone surrogate or bytes that are no character. -/
  | text (s : Option String)
  /-- An array; `closed` tells that its end was reached. -/
  | array (items : List Outline) (closed : Bool)
  | object (members : List (Option String × Outline)) (closed : Bool)
  /-- A container inside so many others that it is not read any more, only passed over. -/
  | buried (isObject : Bool) (sound : Bool)
  deriving Inhabited

mutual

/-- Whether the value can be passed over: its text is JSON to its end. -/
def Outline.sound : Outline → Bool
  | .fault => false
  | .array items closed => soundItems items && closed
  | .object members closed => soundMembers members && closed
  | .buried _ sound => sound
  | _ => true

def soundItems : List Outline → Bool
  | [] => true
  | o :: rest => o.sound && soundItems rest

def soundMembers : List (Option String × Outline) → Bool
  | [] => true
  | (_, o) :: rest => o.sound && soundMembers rest

end

/-! ### Open containers -/

/-- A container that is still open; what it holds so far has the newest first. -/
inductive Frame
  | array (items : List Outline)
  | object (members : List (Option String × Outline)) (key : Option String)

/-- How many containers may stand around a value that is read. -/
def depthLimit : Nat := 127

/-- A container with `below` other containers around it. -/
def settled (below : List Frame) (o : Outline) : Outline :=
  if depthLimit ≤ below.length then
    match o with
    | .array items closed => .buried false (soundItems items && closed)
    | .object members closed => .buried true (soundMembers members && closed)
    | o => o
  else o

/-- The container at the place where the text stopped being JSON. -/
def Frame.broken : Frame → Option Outline → Outline
  | .array items, child => .array ((child.toList ++ items).reverse) false
  | .object members key, child =>
    .object ((child.toList.map fun o => (key, o)) ++ members).reverse false

/-- Every open container ends at the fault; `child` is the innermost unfinished value, if one was
awaited there. -/
def collapse : List Frame → Option Outline → Outline
  | [], child => child.getD .fault
  | f :: below, child => collapse below (some (settled below (f.broken child)))

/-! ### The machine -/

/-- What may come next. -/
inductive Awaits
  | value
  | firstItem
  | afterItem
  | firstKey
  | key
  | colon
  | afterMember

/-- A text's value, and whether nothing follows it. -/
structure Document where
  value : Outline
  complete : Bool

/-- A value is finished inside the open containers: what comes next, or the whole document. -/
def place (o : Outline) : List Frame → Except Outline (Awaits × List Frame)
  | [] => .error o
  | .array items :: below => .ok (.afterItem, .array (o :: items) :: below)
  | .object members key :: below => .ok (.afterMember, .object ((key, o) :: members) none :: below)

/-- A finished container inside the ones below it. -/
def close (below : List Frame) (o : Outline) : Except Outline (Awaits × List Frame) :=
  place (settled below o) below

/-- What a token does: `error` tells that the document's value is finished or broken. -/
def advance (awaits : Awaits) (stack : List Frame) (t : Token) :
    Except Outline (Awaits × List Frame) :=
  let value (t : Token) : Except Outline (Awaits × List Frame) :=
    match t with
    | .openArray => .ok (.firstItem, .array [] :: stack)
    | .openObject => .ok (.firstKey, .object [] none :: stack)
    | .null => place .null stack
    | .bool b => place (.bool b) stack
    | .number n => place (.number n) stack
    | .text s => place (.text s) stack
    | _ => .error (collapse stack (some .fault))
  match awaits, t, stack with
  | .value, t, _ => value t
  | .firstItem, .closeArray, .array items :: below => close below (.array items.reverse true)
  | .firstItem, t, _ => value t
  | .afterItem, .comma, _ => .ok (.value, stack)
  | .afterItem, .closeArray, .array items :: below => close below (.array items.reverse true)
  | .firstKey, .closeObject, .object members _ :: below =>
    close below (.object members.reverse true)
  | .firstKey, .text s, .object members _ :: below => .ok (.colon, .object members s :: below)
  | .key, .text s, .object members _ :: below => .ok (.colon, .object members s :: below)
  | .colon, .colon, _ => .ok (.value, stack)
  | .colon, _, _ => .error (collapse stack (some .fault))
  | .afterMember, .comma, _ => .ok (.key, stack)
  | .afterMember, .closeObject, .object members _ :: below =>
    close below (.object members.reverse true)
  | _, _, _ => .error (collapse stack none)

/-- What the end of the tokens leaves. -/
def cutOff (awaits : Awaits) (stack : List Frame) : Outline :=
  match awaits with
  | .value | .colon => collapse stack (some .fault)
  | _ => collapse stack none

def assembleFrom (awaits : Awaits) (stack : List Frame) : List Token → Document
  | [] => ⟨cutOff awaits stack, true⟩
  | t :: rest =>
    match advance awaits stack t with
    | .ok (awaits, stack) => assembleFrom awaits stack rest
    | .error o => ⟨o, rest.isEmpty⟩

/-- The document that the tokens spell. -/
def assemble (ts : List Token) : Document := assembleFrom .value [] ts

/-- The document of a symbol stream. -/
def documentOf (symbols : List Text.Symbol) : Document := assemble (tokens symbols)

/-! ### Values -/

mutual

/-- The value, if all of it can be read. -/
def Outline.toJson : Outline → Except Fault Json
  | .null => .ok .null
  | .bool b => .ok (.bool b)
  | .number (some n) => .ok (.number n)
  | .text (some s) => .ok (.text s)
  | .array items true => do return .array (← valuesOf items)
  | .object members true => do return .ofMembers (← membersOf members)
  | _ => .error .notJson

def valuesOf : List Outline → Except Fault (List Json)
  | [] => .ok []
  | o :: rest => do return (← o.toJson) :: (← valuesOf rest)

def membersOf : List (Option String × Outline) → Except Fault (List (String × Json))
  | [] => .ok []
  | (some key, o) :: rest => do return (key, ← o.toJson) :: (← membersOf rest)
  | (none, _) :: _ => .error .notJson

end

mutual

/-- The outline of a value, in which nothing is missing. -/
def toOutline : Json → Outline
  | .null => .null
  | .bool b => .bool b
  | .number n => .number (some n)
  | .text s => .text (some s)
  | .array items => .array (outlines items) true
  | .object members => .object (memberOutlines members) true

def outlines : List Json → List Outline
  | [] => []
  | j :: rest => toOutline j :: outlines rest

def memberOutlines : List (String × Json) → List (Option String × Outline)
  | [] => []
  | (key, j) :: rest => (some key, toOutline j) :: memberOutlines rest

end

end Quire.Json
