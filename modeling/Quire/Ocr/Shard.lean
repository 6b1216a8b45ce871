import Quire.Json.Shape
import Quire.Text.Cut
import Quire.Failure.Provider

/-! Shards: the files in which a recognition service leaves its results.

A shard holds the text of several pages as one text, and for each page the segments of it that
belong to the page, as offsets in bytes. The shards of an operation come in any order; `merge`
puts all their pages in the order of their numbers. -/
namespace Quire.Ocr

/-- The text that was recognized on a page. -/
structure Page where
  number : UInt32
  text : String
  deriving DecidableEq, Repr, Inhabited

namespace Shard
open Json (Shape Record)

/-- A whole number in digits, with an optional plus sign, that fits 64 bits. -/
def word? (s : String) : Option Nat :=
  let digits := (Text.dropStart? "+" s).getD s
  if digits == "" || ! digits.toList.all Char.isDigit then none
  else
    let n := digits.toList.foldl (fun n c => n * 10 + (c.toNat - 48)) 0
    if n < 0x10000000000000000 then some n else none

/-- A number that is written as a number or as a text. -/
inductive Offset
  | number (n : Nat)
  | text (s : String)
  deriving DecidableEq, Repr

def Offset.value? : Offset → Option Nat
  | .number n => some n
  | .text s => word? (Text.trim s)

/-- A number that fits 64 bits, or any text. -/
def Offset.shape : Shape Offset := fun origin o => do
  match ← Shape.any origin o with
  | .number (.integer (.ofNat n)) =>
    if n < 0x10000000000000000 then .ok (.number n) else .error (.noVariant "NumberOrString")
  | .text s => .ok (.text s)
  | _ => .error (.noVariant "NumberOrString")

structure Segment where
  start : Option Offset
  stop : Option Offset

/-- The bytes of a text from an offset up to another, as far as there are any. -/
def slice (text : ByteArray) (start stop : Nat) : String :=
  let stop := min stop text.size
  let start := min start stop
  Text.decodeLossy (text.extract start stop)

/-- An offset that is missing or cannot be read is zero. -/
def offset (o : Option Offset) : Nat := (o.bind Offset.value?).getD 0

def Segment.text (s : Segment) (text : ByteArray) : String :=
  slice text (offset s.start) (offset s.stop)

/-- A page of a shard, with its segments in order. -/
structure Entry where
  number : Option Offset
  segments : List Segment

structure Content where
  text : String
  entries : List Entry

def segmentShape : Shape Segment :=
  Record.shape "TextSegment" <|
    Segment.mk <$> .nullable "startIndex" Offset.shape <*> .nullable "endIndex" Offset.shape

def anchorShape : Shape (List Segment) :=
  Record.shape "TextAnchor" (.optional "textSegments" (.list segmentShape) [])

/-- Segments stand in an anchor, or one stands alone, or both. -/
def layoutShape : Shape (List Segment) :=
  Record.shape "Layout" <|
    (fun anchor alone => anchor.getD [] ++ alone.toList) <$>
      .nullable "textAnchor" anchorShape <*> .nullable "textSegment" segmentShape

def entryShape : Shape Entry :=
  Record.shape "ShardPage" <|
    (fun number layout => ⟨number, layout.getD []⟩) <$>
      .nullable "pageNumber" Offset.shape <*> .nullable "layout" layoutShape

def documentShape : Shape Content :=
  Record.shape "ShardDocument" <|
    Content.mk <$> .optional "text" .string "" <*> .optional "pages" (.list entryShape) []

/-- The document stands under its own key, or its parts stand at the top. -/
def shape : Shape Content :=
  Record.shape "Shard" <|
    (fun document text entries => document.getD ⟨text.getD "", entries.getD []⟩) <$>
      .nullable "document" documentShape <*> .optional "text" (.option .string) none <*>
      .optional "pages" (.option (.list entryShape)) none

/-- A page without a number is page 1; a larger number keeps its low 32 bits. -/
def Entry.page (e : Entry) (text : ByteArray) : Page where
  number := UInt32.ofNat ((e.number.bind Offset.value?).getD 1)
  text := Text.trim (String.join (e.segments.map (·.text text)))

/-- Whether an object is a shard, by its key. -/
def isShardKey (key : String) : Bool := Text.endsWith ".json" key

/-- The pages of a shard. -/
def parse (bytes : ByteArray) : Except OcrError (List Page) :=
  match Json.readBytes shape bytes with
  | .ok content =>
    let text := content.text.toUTF8
    .ok (content.entries.map (·.page text))
  | .error fault => .error (.malformed fault.message)

/-- The pages of all shards by number; pages of one number keep their order. -/
def merge (shards : List (List Page)) : List Page :=
  shards.flatten.mergeSort fun a b => a.number ≤ b.number

end Shard
end Quire.Ocr
