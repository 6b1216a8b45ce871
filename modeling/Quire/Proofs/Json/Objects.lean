import Mathlib.Data.List.Forall2
import Mathlib.Logic.Function.Basic
import Quire.Proofs.Json.Assembly
import Quire.Proofs.Text.Utf8

/-! What is read of an object.

A record is read from any object that has the members of its fields, in whichever order they come
and whatever other members stand among them (`Record.shape_object`); under which of its names a field
is written makes no difference (`Record.shape_rename`). Of the bytes of a value only the tokens count,
so blanks and escapes may be anything (`readBytes_written`). -/
namespace Quire.Json

/-! ### Written values -/

/-- Bytes that spell a value, with any blanks and escapes; it is not nested deeper than what is
read. -/
structure Written (j : Json) (bytes : ByteArray) : Prop where
  spelled : tokens (Text.symbols bytes) = j.spelling
  shallow : j.depth ≤ depthLimit

theorem readBytes_written {α : Type} (s : Shape α) {j : Json} {bytes : ByteArray}
    (h : j.Written bytes) : readBytes s bytes = s .text j.toOutline := by
  rw [readBytes, documentOf, h.spelled, assemble_spelling h.shallow]
  show (do let a ← s .text j.toOutline; if true then .ok a else .error .notJson) = _
  cases s .text j.toOutline <;> rfl

theorem readText_written {α : Type} (s : Shape α) {j : Json} {text : String}
    (h : j.Written text.toUTF8) : readText s text = s .text j.toOutline := by
  rw [← readBytes_written s h, readText, readBytes, symbolsOf, Text.symbols_toUTF8]

/-- A value is written as it is printed. -/
theorem written_compact {j : Json} (hfits : j.Fits) (hdepth : j.depth ≤ depthLimit) :
    j.Written j.compact.toUTF8 where
  spelled := by
    rw [Text.symbols_toUTF8]
    exact (spells_compact j hfits).tokens_eq
  shallow := hdepth

mutual

theorem sound_toOutline : ∀ j : Json, j.toOutline.sound = true
  | .null | .bool _ | .number _ | .text _ => rfl
  | .array items => by rw [toOutline, Outline.sound, soundItems_outlines items]; rfl
  | .object members => by rw [toOutline, Outline.sound, soundMembers_outlines members]; rfl

theorem soundItems_outlines : ∀ items : List Json, soundItems (outlines items) = true
  | [] => rfl
  | j :: rest => by rw [outlines, soundItems, sound_toOutline j, soundItems_outlines rest]; rfl

theorem soundMembers_outlines :
    ∀ members : List (String × Json), soundMembers (memberOutlines members) = true
  | [] => rfl
  | (_, j) :: rest => by
    rw [memberOutlines, soundMembers, sound_toOutline j, soundMembers_outlines rest]; rfl

end

/-! ### Texts and numbers -/

section
variable {expected : String} {low high n : Int} {origin : Origin}

theorem eq_text_of_string {j : Json} {s : String} (h : Shape.string origin j.toOutline = .ok s) :
    j = text s := by
  cases j with
  | text s => exact congrArg text (Except.ok.inj h)
  | _ => cases h

theorem integer_ofInt (hlow : low ≤ n) (hhigh : n ≤ high) :
    Shape.integer expected low high origin (ofInt n).toOutline = .ok n :=
  if_pos (Bool.and_eq_true_iff.mpr ⟨decide_eq_true hlow, decide_eq_true hhigh⟩)

/-- An integer is read only of itself, and only within the bounds. -/
theorem eq_ofInt_of_integer {j : Json}
    (h : Shape.integer expected low high origin j.toOutline = .ok n) :
    j = ofInt n ∧ low ≤ n ∧ n ≤ high := by
  cases j with
  | number k =>
    cases k with
    | integer k =>
      change (if (decide (low ≤ k) && decide (k ≤ high)) = true then Except.ok k else _) = _ at h
      split at h
      case isTrue hwithin =>
        obtain rfl := Except.ok.inj h
        rw [Bool.and_eq_true, decide_eq_true_iff, decide_eq_true_iff] at hwithin
        exact ⟨rfl, hwithin⟩
      case isFalse => cases h
    | real x => cases h
  | _ => cases h

/-- A whole number that is not too large is read as a word. -/
theorem word_ofNat {α : Type} {k : Nat} (hk : (k : Int) ≤ high) (word : Nat → α) :
    (do return word (← Shape.integer expected 0 high origin (ofNat k).toOutline).toNat) =
      Except.ok (word k) := by
  have hread : Shape.integer expected 0 high origin (ofNat k).toOutline = .ok (k : Int) :=
    integer_ofInt (Int.natCast_nonneg k) hk
  rw [hread]
  rfl

theorem word32_ofNat (w : UInt32) : Shape.word32 origin (ofNat w.toNat).toOutline = .ok w := by
  have hword := w.toNat_lt
  exact (word_ofNat (by omega) UInt32.ofNat).trans (congrArg Except.ok UInt32.ofNat_toNat)

theorem word64_ofNat (w : UInt64) : Shape.word64 origin (ofNat w.toNat).toOutline = .ok w := by
  have hword := w.toNat_lt
  exact (word_ofNat (by omega) UInt64.ofNat).trans (congrArg Except.ok UInt64.ofNat_toNat)

theorem size_ofNat (w : UInt64) : Shape.size origin (ofNat w.toNat).toOutline = .ok w := by
  have hword := w.toNat_lt
  exact (word_ofNat (by omega) UInt64.ofNat).trans (congrArg Except.ok UInt64.ofNat_toNat)

theorem eq_ofNat_of_word64 {j : Json} {w : UInt64}
    (h : Shape.word64 origin j.toOutline = .ok w) : j = ofNat w.toNat := by
  unfold Shape.word64 at h
  cases hread : Shape.integer "u64" 0 0xFFFFFFFFFFFFFFFF origin j.toOutline with
  | error e =>
    rw [hread] at h
    cases h
  | ok n =>
    rw [hread] at h
    obtain ⟨rfl, hlow, hhigh⟩ := eq_ofInt_of_integer hread
    obtain rfl : UInt64.ofNat n.toNat = w := Except.ok.inj h
    have hvalue : ((UInt64.ofNat n.toNat).toNat : Int) = n := by
      rw [UInt64.toNat_ofNat_of_lt' (by show n.toNat < 2 ^ 64; omega)]
      omega
    exact congrArg (fun n : Int => number (.integer n)) hvalue.symm

end

/-! ### What is written under a key -/

/-- An object in which each key stands once, in any order; `p` tells what stands under the keys. -/
def HasMembers (p : (String → Option Json) → Prop) (j : Json) : Prop :=
  ∃ members, j = .object members ∧ (members.map Prod.fst).Nodup ∧ p fun key => members.lookup key

/-- An array of what is written for the items. -/
def HasItems {α : Type} (writes : α → Json → Prop) (as : List α) (j : Json) : Prop :=
  ∃ items, j = .array items ∧ List.Forall₂ writes as items

/-- What stands under a key that may be missing; `null` is nothing too. -/
inductive Maybe {α : Type} (writes : α → Json → Prop) : Option α → Option Json → Prop
  | missing : Maybe writes none none
  | null : Maybe writes none (some .null)
  | given {a : α} {j : Json} : writes a j → Maybe writes (some a) (some j)

/-- A shape reads back whatever is written; `null` is not written for anything. -/
structure Shape.Reads {α : Type} (s : Shape α) (writes : α → Json → Prop) : Prop where
  read : ∀ {a j}, writes a j → ∀ origin, s origin j.toOutline = .ok a
  something : ∀ {a j}, writes a j → j ≠ .null

namespace Shape
variable {α : Type} {s : Shape α} {writes : α → Json → Prop}

theorem Reads.option (h : s.Reads writes) {a : α} {j : Json} (hj : writes a j) (origin : Origin) :
    Shape.option s origin j.toOutline = .ok (some a) := by
  have hread := h.read hj origin
  have hsome := h.something hj
  cases j with
  | null => exact absurd rfl hsome
  | _ =>
    show (s origin _ >>= fun a => pure (some a)) = _
    rw [hread]
    rfl

theorem Reads.items (h : s.Reads writes) (origin : Origin) {as : List α} {js : List Json}
    (hjs : List.Forall₂ writes as js) : Shape.items s origin (outlines js) = .ok as := by
  induction hjs with
  | nil => rfl
  | cons hj _ ih =>
    rw [outlines, Shape.items, h.read hj origin, ih]
    rfl

theorem Reads.list (h : s.Reads writes) : (Shape.list s).Reads (HasItems writes) where
  read := by
    rintro as _ ⟨js, rfl, hjs⟩ origin
    rw [toOutline, Shape.list, h.items origin hjs]
    rfl
  something := by
    rintro as _ ⟨js, rfl, -⟩
    exact Json.noConfusion

end Shape

/-! ### Records -/

/-- The name of a field. -/
def Field.name (f : Field) : String := f.names.headD ""

/-- What was found under a name. -/
def Slot.of : Option Json → Slot
  | some j => .given j.toOutline
  | none => .absent

namespace Record
variable {origin : Origin} {fields : List Field}

/-- The fields have one name each, and no two the same. -/
structure Plain (fields : List Field) : Prop where
  single : fields.map Field.names = fields.map fun f => [f.name]
  distinct : (fields.map Field.name).Nodup

theorem Plain.tail {f : Field} (h : Plain (f :: fields)) : Plain fields where
  single := (List.cons.inj h.single).2
  distinct := (List.nodup_cons.mp h.distinct).2

/-- The fields with what has been found for their names. -/
def found (fields : List Field) (seen : String → Option Json) : List (Field × Option Outline) :=
  fields.map fun f => (f, (seen f.name).map toOutline)

theorem found_congr {seen seen' : String → Option Json}
    (h : ∀ f ∈ fields, seen f.name = seen' f.name) : found fields seen = found fields seen' :=
  List.map_congr_left fun f hf => by rw [h f hf]

theorem slotsOf_found (fields : List Field) (seen : String → Option Json) :
    slotsOf (found fields seen) = fields.map fun f => .of (seen f.name) := by
  rw [slotsOf, found, List.map_map]
  refine List.map_congr_left fun f _ => ?_
  rw [Function.comp_apply]
  cases seen f.name <;> rfl

section Fill
variable {f : Field} {key : String} {o : Outline} {entry : Option Outline}
  {entries : List (Field × Option Outline)}

theorem fill_found (h : f.names.contains key = true) :
    fill key o origin ((f, none) :: entries) =
      (f.check origin o).map fun _ => some ((f, some o) :: entries) := by
  show (if f.names.contains key then _ else _) = _
  rw [if_pos h]
  show (f.check origin o >>= _) = _
  cases f.check origin o <;> rfl

theorem fill_again (h : f.names.contains key = true) (o' : Outline) :
    fill key o origin ((f, some o') :: entries) = .error (.duplicateField f.name) := by
  have hcalled : f.names.headD key = f.name := by
    unfold Field.name
    cases hnames : f.names with
    | nil => simp [hnames] at h
    | cons => rfl
  show (if f.names.contains key then _ else _) = _
  rw [if_pos h, hcalled]

theorem fill_behind (h : f.names.contains key = false) :
    fill key o origin ((f, entry) :: entries) =
      (fill key o origin entries).map (Option.map ((f, entry) :: ·)) := by
  show (if f.names.contains key then _ else _) = _
  rw [h, if_neg (by decide)]
  show (fill key o origin entries >>= _) = _
  cases fill key o origin entries <;> rfl

end Fill

/-- A name that is not the first field's. -/
theorem fill_other (h : Plain (f :: fields)) {key : String} (hkey : f.name ≠ key) (o : Outline)
    (seen : String → Option Json) :
    fill key o origin (found (f :: fields) seen) =
      (fill key o origin (found fields seen)).map
        (Option.map ((f, (seen f.name).map toOutline) :: ·)) := by
  refine fill_behind ?_
  rw [show f.names = [f.name] from (List.cons.inj h.single).1]
  simpa using hkey.symm

/-- An unknown name is none of the fields'. -/
theorem fill_unknown (h : Plain fields) {key : String} (hkey : key ∉ fields.map Field.name)
    (o : Outline) (seen : String → Option Json) :
    fill key o origin (found fields seen) = .ok none := by
  induction fields with
  | nil => rfl
  | cons f rest ih =>
    rw [List.map_cons, List.mem_cons, not_or] at hkey
    rw [fill_other h (Ne.symm hkey.1), ih h.tail hkey.2]
    rfl

/-- What is found for a name is checked and kept for the field of that name. -/
theorem fill_field (h : Plain fields) {f : Field} (hf : f ∈ fields) {j : Json}
    {seen : String → Option Json} (hunseen : seen f.name = none) :
    fill f.name j.toOutline origin (found fields seen) = do
      f.check origin j.toOutline
      return some (found fields (Function.update seen f.name (some j))) := by
  induction fields with
  | nil => cases hf
  | cons g rest ih =>
    have hfresh : ∀ e ∈ rest, e.name ≠ g.name := fun e he heq =>
      (List.nodup_cons.mp h.distinct).1 (heq ▸ List.mem_map_of_mem he)
    rcases List.mem_cons.mp hf with rfl | hmem
    · have hsame : f.names.contains f.name = true := by
        rw [show f.names = [f.name] from (List.cons.inj h.single).1]
        simp
      have hrest : found rest (Function.update seen f.name (some j)) = found rest seen :=
        found_congr fun e he => Function.update_of_ne (hfresh e he) _ _
      have hfound : found (f :: rest) seen = (f, none) :: found rest seen := by
        rw [found, List.map_cons, hunseen]
        rfl
      have hfilled : found (f :: rest) (Function.update seen f.name (some j)) =
          (f, some j.toOutline) :: found rest seen := by
        rw [← hrest, found, List.map_cons, Function.update_self]
        rfl
      rw [hfound, fill_found hsame, hfilled]
      cases f.check origin j.toOutline <;> rfl
    · have hne : g.name ≠ f.name := (hfresh f hmem).symm
      rw [fill_other h hne, ih h.tail hmem]
      cases f.check origin j.toOutline with
      | error e => rfl
      | ok _ =>
        rw [found, found, List.map_cons, Function.update_of_ne hne]
        rfl

section
variable {members rest : List (String × Json)} {key : String} {j : Json}
  {seen : String → Option Json} {filled : List (Field × Option Outline)}

/-- A member whose field accepts it is seen under its key; one of an unknown key makes no
difference. -/
theorem gather_cons (h : Plain fields) (hunseen : seen key = none)
    (hcheck : ∀ f ∈ fields, f.name = key → f.check origin j.toOutline = .ok ()) :
    gather origin (found fields seen) (memberOutlines ((key, j) :: rest)) =
      gather origin (found fields (Function.update seen key (some j))) (memberOutlines rest) := by
  show (fill key j.toOutline origin (found fields seen) >>= fun filled => _) = _
  by_cases hknown : key ∈ fields.map Field.name
  · obtain ⟨f, hf, rfl⟩ := List.mem_map.mp hknown
    rw [fill_field h hf hunseen, hcheck f hf rfl]
    rfl
  · rw [fill_unknown h hknown]
    show (if j.toOutline.sound then gather origin (found fields seen) (memberOutlines rest)
      else _) = _
    have hsame : found fields (Function.update seen key (some j)) = found fields seen := by
      refine found_congr fun f hf => Function.update_of_ne ?_ _ _
      rintro rfl
      exact hknown (List.mem_map_of_mem hf)
    rw [if_pos (sound_toOutline j), hsame]

theorem check_of_gather_cons (h : Plain fields) (hunseen : seen key = none)
    (hgather : gather origin (found fields seen) (memberOutlines ((key, j) :: rest)) =
      .ok filled) :
    ∀ f ∈ fields, f.name = key → f.check origin j.toOutline = .ok () := by
  rintro f hf rfl
  change (fill f.name j.toOutline origin (found fields seen) >>= fun filled => _) = _ at hgather
  rw [fill_field h hf hunseen] at hgather
  cases hcheck : f.check origin j.toOutline with
  | error e =>
    rw [hcheck] at hgather
    cases hgather
  | ok _ => rfl

/-- A key that comes once is not met again. -/
theorem lookup_of_fresh (h : key ∉ members.map Prod.fst) : members.lookup key = none :=
  List.lookup_eq_none_iff.mpr fun m hm => by
    simpa using fun heq : key = m.1 => h (heq ▸ List.mem_map_of_mem hm)

theorem lookup_cons_self : List.lookup key ((key, j) :: rest) = some j := by
  rw [List.lookup_cons, beq_self_eq_true]

theorem lookup_cons_of_ne {name : String} (hne : name ≠ key) :
    List.lookup name ((key, j) :: rest) = rest.lookup name := by
  rw [List.lookup_cons, beq_eq_false_iff_ne.mpr hne]

/-- Keys that come once and have not been seen are still not seen after another one. -/
theorem unseen_rest (hfresh : key ∉ rest.map Prod.fst) (hunseen : ∀ m ∈ rest, seen m.1 = none) :
    ∀ m ∈ rest, Function.update seen key (some j) m.1 = none := by
  intro m hm
  have hne : m.1 ≠ key := by
    rintro rfl
    exact hfresh (List.mem_map_of_mem hm)
  rw [Function.update_of_ne hne]
  exact hunseen m hm

/-- Every field has what stands under its name, once all members have been seen. -/
theorem gather_members (h : Plain fields) (seen : String → Option Json)
    (hnodup : (members.map Prod.fst).Nodup) (hunseen : ∀ m ∈ members, seen m.1 = none)
    (hchecks : ∀ f ∈ fields, ∀ j, members.lookup f.name = some j →
      f.check origin j.toOutline = .ok ()) :
    gather origin (found fields seen) (memberOutlines members) =
      .ok (found fields fun key => (members.lookup key).or (seen key)) := by
  induction members generalizing seen with
  | nil => simp [memberOutlines, gather]
  | cons m rest ih =>
    obtain ⟨key, j⟩ := m
    have hfresh : key ∉ rest.map Prod.fst := (List.nodup_cons.mp hnodup).1
    have hlast : rest.lookup key = none := lookup_of_fresh hfresh
    have hrest := unseen_rest (j := j) hfresh fun m hm => hunseen m (List.mem_cons_of_mem _ hm)
    rw [gather_cons h (hunseen _ List.mem_cons_self)
      fun f hf hname => hchecks f hf j (hname ▸ lookup_cons_self)]
    rw [ih _ (List.nodup_cons.mp hnodup).2 hrest fun f hf j' hj' => ?_]
    · refine congrArg Except.ok (found_congr fun g _ => ?_)
      by_cases heq : g.name = key
      · simp [heq, hlast]
      · rw [lookup_cons_of_ne heq, Function.update_of_ne heq]
    · have hne : f.name ≠ key := fun heq => by simp [heq, hlast] at hj'
      exact hchecks f hf j' ((lookup_cons_of_ne hne).trans hj')

/-- If all members have been seen, every field has accepted what stands under its name. -/
theorem checks_of_gather (h : Plain fields) (hnodup : (members.map Prod.fst).Nodup)
    (hunseen : ∀ m ∈ members, seen m.1 = none)
    (hgather : gather origin (found fields seen) (memberOutlines members) = .ok filled) :
    ∀ f ∈ fields, ∀ j, members.lookup f.name = some j → f.check origin j.toOutline = .ok () := by
  induction members generalizing seen with
  | nil => exact fun _ _ _ hj => nomatch hj
  | cons m rest ih =>
    obtain ⟨key, j⟩ := m
    have hfresh : key ∉ rest.map Prod.fst := (List.nodup_cons.mp hnodup).1
    have hrest := unseen_rest (j := j) hfresh fun m hm => hunseen m (List.mem_cons_of_mem _ hm)
    have hfirst := check_of_gather_cons h (hunseen _ List.mem_cons_self) hgather
    rw [gather_cons h (hunseen _ List.mem_cons_self) hfirst] at hgather
    intro f hf j' hj'
    by_cases heq : f.name = key
    · obtain rfl : j = j' := by
        rw [heq, lookup_cons_self] at hj'
        exact Option.some.inj hj'
      exact hfirst f hf heq
    · rw [lookup_cons_of_ne heq] at hj'
      exact ih (List.nodup_cons.mp hnodup).2 hrest hgather f hf j' hj'

end

/-- What a record is read as, where such members stand under the names of its fields. -/
structure Gives {α : Type} (r : Record α) (origin : Origin) (members : String → Option Json)
    (a : α) : Prop where
  checks : ∀ f ∈ r.fields, ∀ j, members f.name = some j → f.check origin j.toOutline = .ok ()
  built : r.build origin (r.fields.map fun f => .of (members f.name)) = .ok a

section Gives
variable {α β : Type} {name : String} {members : String → Option Json} {inner : Shape α} {a : α}

theorem Gives.given {absent : Except Fault α} {beyond : Fault → Except Fault α} {j : Json}
    (hj : members name = some j) (ha : inner origin j.toOutline = .ok a) :
    (field [name] inner absent beyond).Gives origin members a where
  checks := by
    intro f hf j' hj'
    obtain rfl := List.mem_singleton.mp hf
    obtain rfl : j = j' := Option.some.inj (hj.symm.trans hj')
    show discard (inner origin j.toOutline) = _
    rw [ha]
    rfl
  built := by
    show (field [name] inner absent beyond).build origin [.of (members name)] = _
    rw [hj]
    exact ha

theorem Gives.missing {beyond : Fault → Except Fault α} (hnone : members name = none) :
    (field [name] inner (.ok a) beyond).Gives origin members a where
  checks := by
    intro f hf j' hj'
    obtain rfl := List.mem_singleton.mp hf
    exact absurd (hnone.symm.trans hj') nofun
  built := by
    show (field [name] inner (.ok a) beyond).build origin [.of (members name)] = _
    rw [hnone]
    rfl

theorem Gives.nullable {writes : α → Json → Prop} (h : inner.Reads writes) {a : Option α}
    (ha : Maybe writes a (members name)) :
    (Record.nullable name inner).Gives origin members a := by
  generalize hj : members name = j at ha
  cases ha with
  | missing => exact missing hj
  | null => exact given hj rfl
  | given ha => exact given hj (h.option ha origin)

theorem Gives.map {r : Record α} (h : r.Gives origin members a) (f : α → β) :
    (f <$> r).Gives origin members (f a) where
  checks := h.checks
  built := by
    show (r.build origin (r.fields.map fun f => .of (members f.name)) >>= fun a => pure (f a)) = _
    rw [h.built]
    rfl

theorem Gives.seq {f : Record (α → β)} {g : α → β} {r : Record α} (hf : f.Gives origin members g)
    (hr : r.Gives origin members a) : (f <*> r).Gives origin members (g a) where
  checks e he := (List.mem_append.mp he).elim (hf.checks e) (hr.checks e)
  built := by
    show (Record.seq f r).build origin ((f.fields ++ r.fields).map fun f => .of (members f.name)) = _
    rw [List.map_append]
    show (f.build origin ((_ ++ _ : List Slot).take f.fields.length) >>= fun g =>
      r.build origin ((_ ++ _ : List Slot).drop f.fields.length) >>= fun a => pure (g a)) = _
    rw [List.take_left' (List.length_map _), List.drop_left' (List.length_map _), hf.built]
    show (r.build origin _ >>= fun a => pure (g a)) = _
    rw [hr.built]
    rfl

/-- A field is read from what stands under its name, if anything does. -/
theorem Gives.of_field {absent : Except Fault α} {beyond : Fault → Except Fault α}
    (h : (field [name] inner absent beyond).Gives origin members a) :
    (∃ j, members name = some j ∧ inner origin j.toOutline = .ok a) ∨
      members name = none ∧ absent = .ok a := by
  have hbuilt : (field [name] inner absent beyond).build origin [.of (members name)] = _ := h.built
  cases hstands : members name with
  | some j =>
    rw [hstands] at hbuilt
    exact .inl ⟨j, rfl, hbuilt⟩
  | none =>
    rw [hstands] at hbuilt
    exact .inr ⟨rfl, hbuilt⟩

theorem Gives.of_map {r : Record α} {f : α → β} {b : β} (h : (f <$> r).Gives origin members b) :
    ∃ a, r.Gives origin members a ∧ f a = b := by
  have hbuilt : (r.build origin (r.fields.map fun f => .of (members f.name)) >>= fun a =>
    pure (f a)) = .ok b := h.built
  cases hr : r.build origin (r.fields.map fun f => .of (members f.name)) with
  | error e =>
    rw [hr] at hbuilt
    cases hbuilt
  | ok a =>
    rw [hr] at hbuilt
    exact ⟨a, ⟨h.checks, hr⟩, Except.ok.inj hbuilt⟩

theorem Gives.of_seq {f : Record (α → β)} {r : Record α} {b : β}
    (h : (f <*> r).Gives origin members b) :
    ∃ g a, f.Gives origin members g ∧ r.Gives origin members a ∧ g a = b := by
  have hbuilt : (Record.seq f r).build origin
    ((f.fields ++ r.fields).map fun f => .of (members f.name)) = .ok b := h.built
  rw [List.map_append] at hbuilt
  change (f.build origin ((_ ++ _ : List Slot).take f.fields.length) >>= fun g =>
    r.build origin ((_ ++ _ : List Slot).drop f.fields.length) >>= fun a => pure (g a)) = _ at hbuilt
  rw [List.take_left' (List.length_map _), List.drop_left' (List.length_map _)] at hbuilt
  cases hf : f.build origin (f.fields.map fun f => .of (members f.name)) with
  | error e =>
    rw [hf] at hbuilt
    cases hbuilt
  | ok g =>
    cases hr : r.build origin (r.fields.map fun f => .of (members f.name)) with
    | error e =>
      rw [hf, hr] at hbuilt
      cases hbuilt
    | ok a =>
      rw [hf, hr] at hbuilt
      exact ⟨g, a, ⟨fun e he => h.checks e (List.mem_append_left _ he), hf⟩,
        ⟨fun e he => h.checks e (List.mem_append_right _ he), hr⟩, Except.ok.inj hbuilt⟩

end Gives

/-- A record is read from an object by what stands under the names of its fields. -/
theorem shape_object {α : Type} {r : Record α} (name : String) (h : Plain r.fields)
    {members : List (String × Json)} (hnodup : (members.map Prod.fst).Nodup) {a : α}
    (ha : r.Gives origin (members.lookup ·) a) :
    shape name r origin (toOutline (.object members)) = .ok a := by
  have hgather := gather_members h (fun _ => none) hnodup (fun _ _ => rfl) ha.checks
  simp only [Option.or_none] at hgather
  show (gather origin (found r.fields fun _ => none) (memberOutlines members) >>= fun found => _) = _
  rw [hgather]
  show r.build origin (slotsOf (found r.fields (members.lookup ·))) = _
  rw [slotsOf_found, ha.built]

/-- What is read from an object is what stands under the names of the fields. -/
theorem gives_of_shape {α : Type} {r : Record α} (name : String) (h : Plain r.fields)
    {members : List (String × Json)} (hnodup : (members.map Prod.fst).Nodup) {a : α}
    (ha : shape name r origin (toOutline (.object members)) = .ok a) :
    r.Gives origin (members.lookup ·) a := by
  change (gather origin (found r.fields fun _ => none) (memberOutlines members) >>= fun filled => _) =
    _ at ha
  cases hgather : gather origin (found r.fields fun _ => none) (memberOutlines members) with
  | error e =>
    rw [hgather] at ha
    cases ha
  | ok filled =>
    have hchecks := checks_of_gather h hnodup (fun _ _ => rfl) hgather
    have hfilled := gather_members h (fun _ => none) hnodup (fun _ _ => rfl) hchecks
    simp only [Option.or_none] at hfilled
    rw [hfilled] at ha
    change r.build origin (slotsOf (found r.fields (members.lookup ·))) = _ at ha
    rw [slotsOf_found] at ha
    exact ⟨hchecks, ha⟩

/-- A record reads back an object that has the members of its fields. -/
theorem reads_object {α : Type} {r : Record α} (name : String) (h : Plain r.fields)
    {spec : α → (String → Option Json) → Prop}
    (hspec : ∀ {a members}, spec a members → ∀ origin, r.Gives origin members a) :
    (shape name r).Reads fun a => HasMembers (spec a) where
  read := by
    rintro a _ ⟨members, rfl, hnodup, ha⟩ origin
    exact shape_object name h hnodup (hspec ha origin)
  something := by
    rintro a _ ⟨members, rfl, -⟩
    exact Json.noConfusion

/-! ### Fields with several names -/

/-- Each field has the name that it is called by, and shares none with fields of other names. -/
structure Apart (fields : List Field) : Prop where
  called : ∀ f ∈ fields, f.name ∈ f.names
  apart : ∀ f ∈ fields, ∀ g ∈ fields, ∀ key ∈ f.names, key ∈ g.names → f.names = g.names

/-- What the field that a key belongs to is called; any other key stays. -/
def rename (fields : List Field) (key : String) : String :=
  ((fields.find? fun f => f.names.contains key).map Field.name).getD key

/-- The field under the name alone that it is called by. -/
def plain (f : Field) : Field := { f with names := [f.name] }

/-- A key belongs to a field just if it is renamed to what the field is called. -/
theorem Apart.contains_eq (h : Apart fields) {f : Field} (hf : f ∈ fields) (key : String) :
    f.names.contains key = (f.name == rename fields key) := by
  rw [Bool.eq_iff_iff, List.contains_iff_mem, beq_iff_eq, rename]
  cases hfind : fields.find? fun f => f.names.contains key with
  | none =>
    constructor
    · intro hkey
      exact absurd hkey (by simpa using List.find?_eq_none.mp hfind f hf)
    · intro hname
      have hkey : f.name = key := hname
      exact hkey ▸ h.called f hf
  | some g =>
    have hg := List.mem_of_find?_eq_some hfind
    have hkey' : key ∈ g.names := by simpa using List.find?_some hfind
    constructor
    · intro hkey
      exact congrArg (·.headD "") (h.apart f hf g hg key hkey hkey')
    · intro hname
      have hcalled : f.name ∈ g.names := hname ▸ h.called g hg
      rwa [h.apart f hf g hg _ (h.called f hf) hcalled]

/-- Fields under one name each, with what has been found for them. -/
def plainFound (found : List (Field × Option Outline)) : List (Field × Option Outline) :=
  found.map fun p => (plain p.1, p.2)

/-- A key finds its field just as well under the name alone that the field is called by. -/
theorem fill_rename {found : List (Field × Option Outline)} {key name : String}
    (h : ∀ p ∈ found, p.1.names.contains key = (p.1.name == name)) (o : Outline) :
    fill name o origin (plainFound found) = (fill key o origin found).map (Option.map plainFound) := by
  induction found with
  | nil => rfl
  | cons p rest ih =>
    obtain ⟨f, seen⟩ := p
    have hplain : (plain f).names.contains name = f.names.contains key := by
      show (name == f.name || false) = _
      rw [h _ List.mem_cons_self, Bool.or_false, BEq.comm]
    have hrest := ih fun p hp => h p (List.mem_cons_of_mem _ hp)
    rw [plainFound, List.map_cons]
    cases hmine : f.names.contains key with
    | true =>
      rw [hmine] at hplain
      cases seen with
      | some o' =>
        rw [fill_again hplain, fill_again hmine]
        rfl
      | none =>
        rw [fill_found hplain, fill_found hmine]
        show Except.map _ (f.check origin o) = _
        cases f.check origin o <;> rfl
    | false =>
      rw [hmine] at hplain
      rw [fill_behind hplain, fill_behind hmine, ← plainFound, hrest]
      cases fill key o origin rest with
      | error e => rfl
      | ok filled => cases filled <;> rfl

theorem fill_fields {found filled : List (Field × Option Outline)} {key : String} {o : Outline}
    (h : fill key o origin found = .ok (some filled)) :
    filled.map Prod.fst = found.map Prod.fst := by
  induction found generalizing filled with
  | nil => cases h
  | cons p rest ih =>
    obtain ⟨f, seen⟩ := p
    cases hmine : f.names.contains key with
    | true =>
      cases seen with
      | some o' =>
        rw [fill_again hmine] at h
        cases h
      | none =>
        rw [fill_found hmine] at h
        cases hcheck : f.check origin o with
        | error e =>
          rw [hcheck] at h
          cases h
        | ok _ =>
          rw [hcheck] at h
          cases h
          rfl
    | false =>
      rw [fill_behind hmine] at h
      cases hrest : fill key o origin rest with
      | error e =>
        rw [hrest] at h
        cases h
      | ok found =>
        rw [hrest] at h
        cases found with
        | none => cases h
        | some found =>
          cases h
          rw [List.map_cons, List.map_cons, ih hrest]

/-- So do the keys of members. -/
theorem gather_rename (h : Apart fields) {found : List (Field × Option Outline)}
    (hfound : found.map Prod.fst = fields) (members : List (String × Json)) :
    gather origin (plainFound found)
        (memberOutlines (members.map fun m => (rename fields m.1, m.2))) =
      (gather origin found (memberOutlines members)).map plainFound := by
  induction members generalizing found with
  | nil => rfl
  | cons m rest ih =>
    obtain ⟨key, j⟩ := m
    have hkey : ∀ p ∈ found, p.1.names.contains key = (p.1.name == rename fields key) :=
      fun p hp => h.contains_eq (hfound ▸ List.mem_map_of_mem hp) key
    show (fill (rename fields key) j.toOutline origin (plainFound found) >>= _) =
      Except.map _ (fill key j.toOutline origin found >>= _)
    rw [fill_rename hkey]
    cases hfill : fill key j.toOutline origin found with
    | error e => rfl
    | ok filled =>
      cases filled with
      | none =>
        show (if j.toOutline.sound then _ else _) = Except.map _ (if j.toOutline.sound then _ else _)
        rw [if_pos (sound_toOutline j), if_pos (sound_toOutline j)]
        exact ih hfound
      | some filled => exact ih ((fill_fields hfill).trans hfound)

/-- A record is read just as well from an object whose keys are what the fields are called. -/
theorem shape_rename {α : Type} {r r' : Record α} (h : Apart r.fields)
    (hfields : r'.fields = r.fields.map plain) (hbuild : r'.build = r.build) (name : String)
    (members : List (String × Json)) :
    shape name r' origin
        (toOutline (.object (members.map fun m => (rename r.fields m.1, m.2)))) =
      shape name r origin (toOutline (.object members)) := by
  have hstart : r'.fields.map (fun f => (f, none)) =
      plainFound (r.fields.map fun f => (f, none)) := by
    rw [hfields, plainFound, List.map_map, List.map_map]
    rfl
  show (gather origin (r'.fields.map fun f => (f, none)) _ >>= _) =
    (gather origin (r.fields.map fun f => (f, none)) _ >>= _)
  have hfound : (r.fields.map fun f => (f, (none : Option Outline))).map Prod.fst = r.fields := by
    rw [List.map_map]
    exact List.map_id _
  rw [hstart, gather_rename h hfound]
  cases gather origin (r.fields.map fun f => (f, none)) (memberOutlines members) with
  | error e => rfl
  | ok found =>
    show r'.build origin (slotsOf (plainFound found)) = r.build origin (slotsOf found)
    rw [hbuild, slotsOf, plainFound, List.map_map]
    rfl

end Record
end Quire.Json
