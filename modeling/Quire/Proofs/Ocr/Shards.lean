import Quire.Ocr.Shard
import Quire.Proofs.Json.Objects
import Quire.Proofs.Pipeline.Collection
import Quire.Proofs.Text.Cut

/-! What is read of shards.

A shard is read from any object that has its parts (`parse_content`), whatever its offsets are: a
page for each entry. If the segments of its entries cover the pages one after the other, each cut
of a text into pieces being as good as another (`Covers`, `LaysOut`), these are the pages whose
text it holds, with the blanks around them trimmed (`parse_pages`). -/
namespace Quire.Ocr

/-- A page with the blanks around its text trimmed. -/
def Page.trimmed (p : Page) : Page := { p with text := Text.trim p.text }

namespace Shard
open Json (HasMembers HasItems Maybe Record Shape)

/-! ### Offsets -/

/-- A number is read from its digits. -/
theorem word?_toString {n : Nat} (h : n < 0x10000000000000000) : word? (toString n) = some n := by
  have hdigits := Text.isDigit_of_mem_toString n
  have hchars : (toString n).toList = Nat.toDigits 10 n := Nat.toList_repr
  have hplain : Text.dropStart? "+" (toString n) = none := by
    rw [Text.dropStart?, Option.map_eq_none_iff, Option.eq_none_iff_forall_ne_some]
    intro rest hrest
    have hplus : '+' ∈ (toString n).toList :=
      Text.afterStart?_eq_some.mp hrest ▸ List.mem_cons_self
    exact absurd (hdigits _ hplus) (by decide)
  have hvalue : (toString n).toList.foldl (fun n c => n * 10 + (c.toNat - 48)) 0 = n := by
    have := Nat.ofDigitChars_ten_toDigits (n := n)
    rw [hchars]
    simpa [Nat.ofDigitChars, Nat.mul_comm] using this
  have hsome : (toString n == "") = false := beq_eq_false_iff_ne.mpr fun heq =>
    Nat.toDigits_ne_nil (hchars.symm.trans (congrArg String.toList heq))
  have hall : (toString n).toList.all Char.isDigit = true := List.all_eq_true.mpr hdigits
  unfold word?
  rw [hplain, Option.getD_none]
  dsimp only
  rw [hsome, hall, hvalue, if_neg (by decide), if_pos h]

/-- A number as it stands in a shard: as a number, or its digits as a text. -/
inductive Offset.Spells : Offset → Nat → Prop
  | number {n : Nat} : n < 0x10000000000000000 → Spells (.number n) n
  | text {n : Nat} : n < 0x10000000000000000 → Spells (.text (toString n)) n

theorem Offset.Spells.value {o : Offset} {n : Nat} (h : o.Spells n) : o.value? = some n := by
  cases h with
  | number h => rfl
  | text h =>
    show word? (Text.trim (toString n)) = _
    rw [Text.trim_of_unblank fun c hc =>
      Text.isBlank_of_isDigit (Text.isDigit_of_mem_toString n c hc), word?_toString h]

/-- The mark of an offset in a text; none is needed at the start. -/
inductive Offset.Marks : Option Offset → Nat → Prop
  | given {o : Offset} {n : Nat} : o.Spells n → Marks (some o) n
  | omitted : Marks none 0

theorem Offset.Marks.offset_eq {o : Option Offset} {n : Nat} (h : Offset.Marks o n) :
    offset o = n := by
  cases h with
  | given h => show (Offset.value? _).getD 0 = n; rw [h.value]; rfl
  | omitted => rfl

/-! ### Pages in a text -/

/-- Segments that cover these pieces of a text one after the other, from one offset to another. -/
inductive Covers : Nat → List String → List Segment → Nat → Prop
  | nil {start : Nat} : Covers start [] [] start
  | cons {start stop : Nat} {piece : String} {pieces : List String} {s : Segment}
      {rest : List Segment} :
      Offset.Marks s.start start → Offset.Marks s.stop (start + piece.utf8ByteSize) →
      Covers (start + piece.utf8ByteSize) pieces rest stop →
      Covers start (piece :: pieces) (s :: rest) stop

/-- Entries that lay out pages over their joined text, from an offset on. The text of a page may
be cut into any pieces. -/
inductive LaysOut : Nat → List Page → List Entry → Prop
  | nil {start : Nat} : LaysOut start [] []
  | cons {start stop : Nat} {p : Page} {pages : List Page} {e : Entry} {rest : List Entry}
      {o : Offset} {pieces : List String} :
      e.number = some o → o.Spells p.number.toNat → String.join pieces = p.text →
      Covers start pieces e.segments stop → LaysOut stop pages rest →
      LaysOut start (p :: pages) (e :: rest)

/-- The bytes of a piece within a text are read as that piece. -/
theorem slice_piece (before piece after : String) :
    slice (before ++ piece ++ after).toUTF8 before.utf8ByteSize
      (before.utf8ByteSize + piece.utf8ByteSize) = piece := by
  have hsize : (before ++ piece ++ after).toUTF8.size =
      before.utf8ByteSize + piece.utf8ByteSize + after.utf8ByteSize := by
    show (before ++ piece ++ after).utf8ByteSize = _
    rw [String.utf8ByteSize_append, String.utf8ByteSize_append]
  unfold slice
  dsimp only
  rw [hsize, Nat.min_eq_left (Nat.le_add_right _ _), Nat.min_eq_left (Nat.le_add_right _ _)]
  refine Text.decodeLossy_of_bytes ?_
  rw [ByteArray.data_extract, Array.toList_extract, List.extract_eq_take_drop,
    Nat.add_sub_cancel_left]
  show ((Text.bytesOf (before ++ piece ++ after)).drop _).take _ = _
  rw [Text.bytesOf_append, Text.bytesOf_append, List.append_assoc,
    List.drop_left' (Text.length_bytesOf before), List.take_left' (Text.length_bytesOf piece)]

theorem Covers.stop_eq {start stop : Nat} {pieces : List String} {segments : List Segment}
    (h : Covers start pieces segments stop) :
    stop = start + (String.join pieces).utf8ByteSize := by
  induction h with
  | nil => rfl
  | cons _ _ _ ih => rw [ih, String.join_cons, String.utf8ByteSize_append, Nat.add_assoc]

theorem Covers.texts {start stop : Nat} {pieces : List String} {segments : List Segment}
    (h : Covers start pieces segments stop) (before after : String)
    (hbefore : before.utf8ByteSize = start) :
    segments.map (·.text (before ++ String.join pieces ++ after).toUTF8) = pieces := by
  induction h generalizing before with
  | nil => rfl
  | cons hstart hstop _ ih =>
    rename_i start stop piece pieces s rest _
    subst hbefore
    have htext : before ++ String.join (piece :: pieces) ++ after =
        before ++ piece ++ (String.join pieces ++ after) := by
      simp only [String.join_cons, String.append_assoc]
    have hfirst : s.text (before ++ piece ++ (String.join pieces ++ after)).toUTF8 = piece := by
      rw [Segment.text, hstart.offset_eq, hstop.offset_eq, slice_piece]
    have hrest := ih (before ++ piece) String.utf8ByteSize_append
    rw [List.map_cons, htext, hfirst, ← String.append_assoc, hrest]

theorem LaysOut.pages_eq {start : Nat} {pages : List Page} {entries : List Entry}
    (h : LaysOut start pages entries) (before : String) (hbefore : before.utf8ByteSize = start) :
    entries.map (·.page (before ++ String.join (pages.map (·.text))).toUTF8) =
      pages.map Page.trimmed := by
  induction h generalizing before with
  | nil => rfl
  | cons hnumber hspells hjoin hcovers _ ih =>
    rename_i start stop p pages e rest o pieces _
    subst hbefore
    have htexts : before ++ String.join ((p :: pages).map (·.text)) =
        before ++ String.join pieces ++ String.join (pages.map (·.text)) := by
      rw [List.map_cons, String.join_cons, hjoin, String.append_assoc]
    have hfirst : e.page (before ++ String.join pieces ++
        String.join (pages.map (·.text))).toUTF8 = p.trimmed := by
      unfold Entry.page Page.trimmed
      rw [hcovers.texts before _ rfl, hjoin, hnumber]
      show Page.mk (UInt32.ofNat (o.value?.getD 1)) _ = _
      rw [hspells.value, Option.getD_some, UInt32.ofNat_toNat]
    have hstop : (before ++ String.join pieces).utf8ByteSize = stop := by
      rw [hcovers.stop_eq, String.utf8ByteSize_append]
    rw [htexts, List.map_cons, List.map_cons, hfirst, ih _ hstop]

/-! ### What stands in a shard -/

/-- A number or a text. -/
inductive Offset.Writes : Offset → Json → Prop
  | number {n : Nat} : n < 0x10000000000000000 → Writes (.number n) (.ofNat n)
  | text (s : String) : Writes (.text s) (.text s)

def Segment.Parts (s : Segment) (members : String → Option Json) : Prop :=
  Maybe Offset.Writes s.start (members "startIndex") ∧
    Maybe Offset.Writes s.stop (members "endIndex")

/-- An anchor has a list of segments, or none. -/
def AnchorParts (segments : List Segment) (members : String → Option Json) : Prop :=
  segments = [] ∧ members "textSegments" = none ∨
    ∃ j, members "textSegments" = some j ∧
      HasItems (fun s => HasMembers (Segment.Parts s)) segments j

/-- Segments stand in an anchor, or one stands alone, or both. -/
def LayoutParts (segments : List Segment) (members : String → Option Json) : Prop :=
  ∃ anchor alone, segments = anchor.getD [] ++ alone.toList ∧
    Maybe (fun segments => HasMembers (AnchorParts segments)) anchor (members "textAnchor") ∧
    Maybe (fun s => HasMembers (Segment.Parts s)) alone (members "textSegment")

def Entry.Parts (e : Entry) (members : String → Option Json) : Prop :=
  Maybe Offset.Writes e.number (members "pageNumber") ∧
    ∃ layout, e.segments = layout.getD [] ∧
      Maybe (fun segments => HasMembers (LayoutParts segments)) layout (members "layout")

def Content.Parts (c : Content) (members : String → Option Json) : Prop :=
  members "text" = some (.text c.text) ∧
    ∃ j, members "pages" = some j ∧ HasItems (fun e => HasMembers (Entry.Parts e)) c.entries j

/-- The parts stand under a key of their own, or at the top. -/
inductive Content.Stands (c : Content) (members : String → Option Json) : Prop
  | inside {j : Json} : members "document" = some j → HasMembers c.Parts j →
      members "text" = none → members "pages" = none → Stands c members
  | atTop : members "document" = none → c.Parts members → Stands c members

theorem reads_offset : Offset.shape.Reads Offset.Writes where
  read h origin := by
    cases h with
    | number h => exact if_pos h
    | text s => rfl
  something h := by cases h <;> exact Json.noConfusion

theorem reads_segment : segmentShape.Reads fun s => HasMembers (Segment.Parts s) :=
  Record.reads_object _ ⟨rfl, by decide⟩ fun h origin =>
    ((Record.Gives.nullable reads_offset h.1).map Segment.mk).seq
      (Record.Gives.nullable reads_offset h.2)

theorem reads_anchor : anchorShape.Reads fun segments => HasMembers (AnchorParts segments) :=
  Record.reads_object _ ⟨rfl, by decide⟩ fun h origin => by
    rcases h with ⟨rfl, hnone⟩ | ⟨j, hj, hitems⟩
    · exact Record.Gives.missing hnone
    · exact Record.Gives.given hj (reads_segment.list.read hitems origin)

theorem reads_layout : layoutShape.Reads fun segments => HasMembers (LayoutParts segments) :=
  Record.reads_object _ ⟨rfl, by decide⟩ fun h origin => by
    obtain ⟨anchor, alone, rfl, hanchor, halone⟩ := h
    exact ((Record.Gives.nullable reads_anchor hanchor).map _).seq
      (Record.Gives.nullable reads_segment halone)

theorem reads_entry : entryShape.Reads fun e => HasMembers (Entry.Parts e) :=
  Record.reads_object _ ⟨rfl, by decide⟩ fun {e _} h origin => by
    obtain ⟨number, segments⟩ := e
    obtain ⟨hnumber, layout, rfl, hlayout⟩ := h
    exact ((Record.Gives.nullable reads_offset hnumber).map _).seq
      (Record.Gives.nullable reads_layout hlayout)

theorem reads_document : documentShape.Reads fun c => HasMembers (Content.Parts c) :=
  Record.reads_object _ ⟨rfl, by decide⟩ fun h origin => by
    obtain ⟨htext, j, hj, hitems⟩ := h
    exact ((Record.Gives.given htext rfl).map Content.mk).seq
      (Record.Gives.given hj (reads_entry.list.read hitems origin))

theorem reads_content : shape.Reads fun c => HasMembers (Content.Stands c) :=
  Record.reads_object _ ⟨rfl, by decide⟩ fun {c members} h origin => by
    cases h with
    | inside hdocument hparts htext hpages =>
      have hread := reads_document.option hparts origin
      exact (((Record.Gives.given hdocument hread).map _).seq (Record.Gives.missing htext)).seq
        (Record.Gives.missing hpages)
    | atTop hdocument hparts =>
      obtain ⟨htext, j, hj, hitems⟩ := hparts
      have hnone : (Record.nullable "document" documentShape).Gives origin members none :=
        .missing hdocument
      have hsome : (Record.optional "text" (.option .string) none).Gives origin members
          (some c.text) := .given htext rfl
      have hentries : (Shape.list entryShape).option origin j.toOutline = .ok (some c.entries) :=
        reads_entry.list.option hitems origin
      exact ((hnone.map _).seq hsome).seq (Record.Gives.given hj hentries)

/-! ### Shards -/

/-- Bytes of a shard with some content. -/
def Content.Written (c : Content) (bytes : ByteArray) : Prop :=
  ∃ j, HasMembers (Content.Stands c) j ∧ j.Written bytes

/-- Whatever the offsets are, a page is read for each entry. -/
theorem parse_content {c : Content} {bytes : ByteArray} (h : c.Written bytes) :
    parse bytes = .ok (c.entries.map (·.page c.text.toUTF8)) := by
  obtain ⟨j, hj, hwritten⟩ := h
  unfold parse
  rw [Json.readBytes_written shape hwritten, reads_content.read hj]

/-- Bytes of a shard with some pages: it has their joined text and entries that lay it out. -/
def Holds (pages : List Page) (bytes : ByteArray) : Prop :=
  ∃ entries, LaysOut 0 pages entries ∧
    Content.Written ⟨String.join (pages.map (·.text)), entries⟩ bytes

theorem parse_pages {pages : List Page} {bytes : ByteArray} (h : Holds pages bytes) :
    parse bytes = .ok (pages.map Page.trimmed) := by
  obtain ⟨entries, hlays, hwritten⟩ := h
  rw [parse_content hwritten]
  have hpages := hlays.pages_eq "" rfl
  rw [String.empty_append] at hpages
  exact congrArg Except.ok hpages

/-- Shards give back the pages that were laid out in them, whatever offsets are written like and
however a page is cut; their pages come together in ascending order, however they are divided. From
a shard with any offsets at all a page is read for each entry. -/
theorem pages_recovered :
    (∀ pages bytes, Holds pages bytes → parse bytes = .ok (pages.map Page.trimmed)) ∧
    (∀ (all : List Page) (shards : List (List Page)) (files : List ByteArray),
      all.Pairwise (fun a b => a.number < b.number) → shards.flatten.Perm all →
      List.Forall₂ Holds shards files →
        ∃ parsed, files.mapM parse = .ok parsed ∧ merge parsed = all.map Page.trimmed) ∧
    ∀ (c : Content) bytes, c.Written bytes →
      parse bytes = .ok (c.entries.map (·.page c.text.toUTF8)) := by
  refine ⟨fun _ _ => parse_pages, fun all shards files hall hperm hfiles => ?_,
    fun _ _ => parse_content⟩
  have hparsed : List.Forall₂ (fun bytes pages => parse bytes = .ok pages) files
      (shards.map (·.map Page.trimmed)) :=
    List.forall₂_map_right_iff.mpr (hfiles.flip.imp fun _ _ => parse_pages)
  have hall' : (all.map Page.trimmed).Pairwise fun a b => a.number < b.number :=
    List.pairwise_map.mpr hall
  have hperm' : (shards.map (·.map Page.trimmed)).flatten.Perm (all.map Page.trimmed) := by
    rw [← List.map_flatten]
    exact hperm.map _
  exact ⟨_, mapM_eq_ok.mpr hparsed, merge_of_ascending hall' hperm'⟩

/-- A page in two segments, the first of which has no start. -/
def anchored : Json :=
  .object [("document", .object [
    ("pages", .array [.object [
      ("layout", .object [("textAnchor", .object [("textSegments", .array [
        .object [("endIndex", .ofNat 4)],
        .object [("endIndex", .text "8"), ("startIndex", .ofNat 4)]])])]),
      ("pageNumber", .ofNat 7)]]),
    ("text", .text "Şəkil ")])]

/-- A page in one segment, in a document that stands at the top. -/
def alone : Json :=
  .object [
    ("pages", .array [.object [
      ("layout", .object [("textSegment", .object [
        ("endIndex", .text "5"), ("startIndex", .ofNat 0)])]),
      ("pageNumber", .text "3")]]),
    ("text", .text "été")]

/-- Offsets that are reversed, and others that are within a character and past the end. -/
def astray : Json :=
  .object [
    ("pages", .array [
      .object [("layout", .object [("textSegment", .object [
        ("endIndex", .ofNat 1), ("startIndex", .ofNat 4)])])],
      .object [("layout", .object [("textSegment", .object [
        ("endIndex", .ofNat 99), ("startIndex", .ofNat 1)])])]]),
    ("text", .text "été")]

theorem holds_anchored : Holds [⟨7, "Şəkil "⟩] anchored.compact.toUTF8 := by
  have hfour : Offset.Spells (.number 4) 4 := .number (by decide)
  have height : Offset.Spells (.text (toString 8)) 8 := .text (by decide)
  refine ⟨[⟨some (.number 7), [⟨none, some (.number 4)⟩, ⟨some (.number 4), some (.text "8")⟩]⟩],
    ?_, anchored, ?_, Json.written_compact ?_ (by decide)⟩
  · exact .cons rfl (.number (by decide)) (show String.join ["Şə", "kil "] = _ by decide)
      (.cons .omitted (.given hfour) (.cons (.given hfour) (.given height) .nil)) .nil
  · have hsegments : HasItems (fun s => HasMembers (Segment.Parts s))
        [⟨none, some (.number 4)⟩, ⟨some (.number 4), some (.text "8")⟩]
        (.array [.object [("endIndex", .ofNat 4)],
          .object [("endIndex", .text "8"), ("startIndex", .ofNat 4)]]) :=
      ⟨_, rfl, .cons ⟨_, rfl, by decide, .missing, .given (.number (by decide))⟩
        (.cons ⟨_, rfl, by decide, .given (.number (by decide)), .given (.text _)⟩ .nil)⟩
    refine ⟨_, rfl, by decide, .inside rfl ⟨_, rfl, by decide, rfl, _, rfl, _, rfl, ?_⟩ rfl rfl⟩
    refine .cons ⟨_, rfl, by decide, .given (.number (by decide)), some _, rfl, .given
      ⟨_, rfl, by decide, some _, none, rfl, .given ⟨_, rfl, by decide, .inr ⟨_, rfl, hsegments⟩⟩,
        .missing⟩⟩ .nil
  · simp [anchored, Json.Fits, Json.MembersFit, Json.ItemsFit, Json.ofNat, Json.Number.Fits,
      Json.maxWord]

theorem holds_alone : Holds [⟨3, "été"⟩] alone.compact.toUTF8 := by
  have hthree : Offset.Spells (.text (toString 3)) 3 := .text (by decide)
  have hfive : Offset.Spells (.text (toString 5)) 5 := .text (by decide)
  refine ⟨[⟨some (.text "3"), [⟨some (.number 0), some (.text "5")⟩]⟩],
    .cons rfl hthree (show String.join ["été"] = _ by decide)
      (.cons (.given (.number (by decide))) (.given hfive) .nil) .nil,
    alone, ?_, Json.written_compact ?_ (by decide)⟩
  · refine ⟨_, rfl, by decide, .atTop rfl ⟨rfl, _, rfl, _, rfl, ?_⟩⟩
    exact .cons ⟨_, rfl, by decide, .given (.text _), some _, rfl, .given
      ⟨_, rfl, by decide, none, some _, rfl, .missing,
        .given ⟨_, rfl, by decide, .given (.number (by decide)), .given (.text _)⟩⟩⟩ .nil
  · simp [alone, Json.Fits, Json.MembersFit, Json.ItemsFit, Json.ofNat, Json.Number.Fits,
      Json.maxWord]

theorem written_astray : Content.Written
    ⟨"été", [⟨none, [⟨some (.number 4), some (.number 1)⟩]⟩,
      ⟨none, [⟨some (.number 1), some (.number 99)⟩]⟩]⟩ astray.compact.toUTF8 := by
  have hlayout : ∀ start stop : Nat, start < 0x10000000000000000 → stop < 0x10000000000000000 →
      HasMembers (Entry.Parts ⟨none, [⟨some (.number start), some (.number stop)⟩]⟩)
        (.object [("layout", .object [("textSegment", .object [
          ("endIndex", .ofNat stop), ("startIndex", .ofNat start)])])]) :=
    fun start stop hstart hstop => ⟨_, rfl, by simp, .missing, some _, rfl, .given
      ⟨_, rfl, by simp, none, some _, rfl, .missing,
        .given ⟨_, rfl, by simp, .given (.number hstart), .given (.number hstop)⟩⟩⟩
  refine ⟨astray, ⟨_, rfl, by decide, .atTop rfl ⟨rfl, _, rfl, _, rfl,
    .cons (hlayout 4 1 (by decide) (by decide))
      (.cons (hlayout 1 99 (by decide) (by decide)) .nil)⟩⟩,
    Json.written_compact ?_ (by decide)⟩
  simp [astray, Json.Fits, Json.MembersFit, Json.ItemsFit, Json.ofNat, Json.Number.Fits,
    Json.maxWord]

theorem pages_recovered_accents :
    Holds [⟨7, "Şəkil "⟩] anchored.compact.toUTF8 ∧ Holds [⟨3, "été"⟩] alone.compact.toUTF8 ∧
      (∃ parsed, [anchored.compact.toUTF8, alone.compact.toUTF8].mapM parse = .ok parsed ∧
        merge parsed = [⟨3, "été"⟩, ⟨7, "Şəkil"⟩]) ∧
      parse anchored.compact.toUTF8 = .ok [⟨7, "Şəkil"⟩] ∧
      parse astray.compact.toUTF8 = .ok [⟨1, ""⟩, ⟨1, "\uFFFDté"⟩] := by
  obtain ⟨hparse, hmerge, hany⟩ := pages_recovered
  have hperm : ([[⟨7, "Şəkil "⟩], [⟨3, "été"⟩]] : List (List Page)).flatten.Perm
      [⟨3, "été"⟩, ⟨7, "Şəkil "⟩] := .swap ..
  have hmerged := hmerge _ _ _ (by decide) hperm (.cons holds_anchored (.cons holds_alone .nil))
  exact ⟨holds_anchored, holds_alone, hmerged, hparse _ _ holds_anchored, hany _ _ written_astray⟩

end Shard
end Quire.Ocr
