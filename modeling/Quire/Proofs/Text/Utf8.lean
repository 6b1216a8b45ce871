import Mathlib.Data.List.Basic
import Quire.Text.Utf8

/-! The bytes of a text.

A text has one to four bytes for each of its characters. Read as UTF-8 they give the characters
again (`symbols_toUTF8`): the first byte of a character announces how many follow, and the bounds
on the second one shut out nothing that a character has. They shut out all else, so no other bytes
are read as a text (`decode?_eq_some_iff`). -/
namespace Quire.Text

/-- The bytes of a text. -/
def bytesOf (s : String) : List UInt8 := s.toUTF8.data.toList

theorem bytesOf_eq (s : String) : bytesOf s = s.toList.flatMap String.utf8EncodeChar := by
  unfold bytesOf
  rw [String.toUTF8_eq_toByteArray, ← String.utf8Encode_toList, List.utf8Encode,
    List.toList_data_toByteArray]

theorem toNat_byte {n : Nat} (h : n < 256) : (UInt8.ofNat n).toNat = n := UInt8.toNat_ofNat_of_lt' h

/-- A byte by its number. -/
theorem eq_ofNat {n : Nat} {b : UInt8} (h : b.toNat = n) : b = UInt8.ofNat n := by
  rw [← h, UInt8.ofNat_toNat]

namespace Utf8

/-! ### Sequences of bytes -/

section
variable {value left lo hi n : Nat} {rest : List UInt8}

/-- The last byte of a sequence completes its character. -/
theorem symbolsFrom_last (hn : n < 256) (hlo : lo ≤ n) (hhi : n ≤ hi) :
    symbolsFrom (some ⟨value, 1, lo, hi⟩) (UInt8.ofNat n :: rest) =
      some (Char.ofNat (value * 64 + (n - 0x80))) :: symbolsFrom none rest := by
  simp [symbolsFrom, next, toNat_byte hn, hlo, hhi]

/-- A byte within a sequence. -/
theorem symbolsFrom_more (hn : n < 256) (hlo : lo ≤ n) (hhi : n ≤ hi) (hleft : 2 ≤ left) :
    symbolsFrom (some ⟨value, left, lo, hi⟩) (UInt8.ofNat n :: rest) =
      symbolsFrom (some ⟨value * 64 + (n - 0x80), left - 1, 0x80, 0xBF⟩) rest := by
  have hmore : ¬ left ≤ 1 := by omega
  simp [symbolsFrom, next, toNat_byte hn, hlo, hhi, hmore]

/-- The first byte of a sequence. -/
theorem symbolsFrom_lead {b : UInt8} (h : lead b = .sequence value left lo hi) :
    symbolsFrom none (b :: rest) = symbolsFrom (some ⟨value, left, lo, hi⟩) rest := by
  simp [symbolsFrom, next, begin, h]

theorem lead_one (h : n < 0x80) : lead (UInt8.ofNat n) = .char (Char.ofNat n) := by
  have hn : (UInt8.ofNat n).toNat = n := toNat_byte (by omega)
  simp only [lead, hn]
  rw [if_pos h]

theorem lead_two (hlow : 0xC2 ≤ n) (hhigh : n < 0xE0) :
    lead (UInt8.ofNat n) = .sequence (n - 0xC0) 1 0x80 0xBF := by
  have hn : (UInt8.ofNat n).toNat = n := toNat_byte (by omega)
  simp only [lead, hn]
  rw [if_neg (by omega), if_neg (by omega), if_pos hhigh]

/-- The bounds on the second byte of three. -/
theorem lead_three (hlow : 0xE0 ≤ n) (hhigh : n < 0xF0) :
    lead (UInt8.ofNat n) = .sequence (n - 0xE0) 2 (if n = 0xE0 then 0xA0 else 0x80)
      (if n = 0xED then 0x9F else 0xBF) := by
  have hn : (UInt8.ofNat n).toNat = n := toNat_byte (by omega)
  simp only [lead, hn, beq_iff_eq]
  rw [if_neg (by omega), if_neg (by omega), if_neg (by omega)]
  by_cases hfirst : n = 0xE0
  · simp [hfirst]
  by_cases hlast : n = 0xED
  · simp [hlast]
  rw [if_neg hfirst, if_neg hlast, if_pos hhigh, if_neg hfirst, if_neg hlast]

/-- The bounds on the second byte of four. -/
theorem lead_four (hlow : 0xF0 ≤ n) (hhigh : n ≤ 0xF4) :
    lead (UInt8.ofNat n) = .sequence (n - 0xF0) 3 (if n = 0xF0 then 0x90 else 0x80)
      (if n = 0xF4 then 0x8F else 0xBF) := by
  have hn : (UInt8.ofNat n).toNat = n := toNat_byte (by omega)
  simp only [lead, hn, beq_iff_eq]
  rw [if_neg (by omega), if_neg (by omega), if_neg (by omega), if_neg (by omega), if_neg (by omega),
    if_neg (by omega)]
  by_cases hfirst : n = 0xF0
  · simp [hfirst]
  by_cases hlast : n = 0xF4
  · simp [hlast]
  rw [if_neg hfirst, if_pos (by omega), if_neg hfirst, if_neg hlast]

end

/-! ### Characters -/

/-- The bytes of a character are read as that character. -/
theorem symbolsFrom_encode (c : Char) (rest : List UInt8) :
    symbolsFrom none (String.utf8EncodeChar c ++ rest) = some c :: symbolsFrom none rest := by
  have hvalid : c.val.toNat < 0xD800 ∨ 0xDFFF < c.val.toNat ∧ c.val.toNat < 0x110000 := c.valid
  have hc : Char.ofNat c.val.toNat = c := Char.ofNat_toNat c
  unfold String.utf8EncodeChar
  generalize c.val.toNat = v at hvalid hc ⊢
  dsimp only
  split
  case isTrue hone =>
    have hlead : lead (UInt8.ofNat v) = .char (Char.ofNat v) := lead_one (by omega)
    simp [symbolsFrom, next, begin, hlead, hc]
  case isFalse hone =>
    split
    case isTrue htwo =>
      rw [List.cons_append, List.cons_append, List.nil_append,
        symbolsFrom_lead (lead_two (by omega) (by omega)),
        symbolsFrom_last (by omega) (by omega) (by omega)]
      rw [show (v / 64 % 32 + 192 - 0xC0) * 64 + (v % 64 + 128 - 0x80) = v by omega, hc]
    case isFalse htwo =>
      split
      case isTrue hthree =>
        rw [List.cons_append, List.cons_append, List.cons_append, List.nil_append,
          symbolsFrom_lead (lead_three (by omega) (by omega)),
          symbolsFrom_more (by omega) (by split <;> omega) (by split <;> omega) (Nat.le_refl 2),
          symbolsFrom_last (by omega) (by omega) (by omega)]
        rw [show ((v / 4096 % 16 + 224 - 0xE0) * 64 + (v / 64 % 64 + 128 - 0x80)) * 64 +
          (v % 64 + 128 - 0x80) = v by omega, hc]
      case isFalse hthree =>
        rw [List.cons_append, List.cons_append, List.cons_append, List.cons_append, List.nil_append,
          symbolsFrom_lead (lead_four (by omega) (by omega)),
          symbolsFrom_more (by omega) (by split <;> omega) (by split <;> omega) (by omega),
          symbolsFrom_more (by omega) (by omega) (by omega) (Nat.le_refl 2),
          symbolsFrom_last (by omega) (by omega) (by omega)]
        rw [show (((v / 262144 % 8 + 240 - 0xF0) * 64 + (v / 4096 % 64 + 128 - 0x80)) * 64 +
          (v / 64 % 64 + 128 - 0x80)) * 64 + (v % 64 + 128 - 0x80) = v by omega, hc]

theorem symbolsFrom_chars (cs : List Char) :
    symbolsFrom none (cs.flatMap String.utf8EncodeChar) = cs.map some := by
  induction cs with
  | nil => rfl
  | cons c cs ih => rw [List.flatMap_cons, symbolsFrom_encode, ih, List.map_cons]

/-! ### Back to bytes -/

/-- The bytes of a code point that is one. -/
theorem encode_ofNat {n : Nat} (h : n < 0xD800 ∨ 0xDFFF < n ∧ n < 0x110000) :
    String.utf8EncodeChar (Char.ofNat n) =
      if n ≤ 0x7F then [UInt8.ofNat n]
      else if n ≤ 0x7FF then [UInt8.ofNat (n / 64 % 32 + 0xC0), UInt8.ofNat (n % 64 + 0x80)]
      else if n ≤ 0xFFFF then
        [UInt8.ofNat (n / 4096 % 16 + 0xE0), UInt8.ofNat (n / 64 % 64 + 0x80),
          UInt8.ofNat (n % 64 + 0x80)]
      else
        [UInt8.ofNat (n / 262144 % 8 + 0xF0), UInt8.ofNat (n / 4096 % 64 + 0x80),
          UInt8.ofNat (n / 64 % 64 + 0x80), UInt8.ofNat (n % 64 + 0x80)] := by
  have hvalue : (Char.ofNat n).val.toNat = n := by
    rw [Char.ofNat, dif_pos h]
    rfl
  unfold String.utf8EncodeChar
  rw [hvalue]

section
variable {x y z w : UInt8} {n : Nat}

theorem encode_one (hx : x.toNat < 0x80) : String.utf8EncodeChar (Char.ofNat x.toNat) = [x] := by
  rw [encode_ofNat (by omega), if_pos (by omega), UInt8.ofNat_toNat]

theorem encode_two (hx : 0xC2 ≤ x.toNat ∧ x.toNat < 0xE0) (hy : 0x80 ≤ y.toNat ∧ y.toNat ≤ 0xBF)
    (hn : (x.toNat - 0xC0) * 64 + (y.toNat - 0x80) = n) :
    String.utf8EncodeChar (Char.ofNat n) = [x, y] := by
  rw [encode_ofNat (by omega), if_neg (by omega), if_pos (by omega),
    ← eq_ofNat (b := x) (by omega), ← eq_ofNat (b := y) (by omega)]

theorem encode_three (hx : 0xE0 ≤ x.toNat ∧ x.toNat < 0xF0) (hy : 0x80 ≤ y.toNat ∧ y.toNat ≤ 0xBF)
    (hlow : x.toNat = 0xE0 → 0xA0 ≤ y.toNat) (hhigh : x.toNat = 0xED → y.toNat ≤ 0x9F)
    (hz : 0x80 ≤ z.toNat ∧ z.toNat ≤ 0xBF)
    (hn : ((x.toNat - 0xE0) * 64 + (y.toNat - 0x80)) * 64 + (z.toNat - 0x80) = n) :
    String.utf8EncodeChar (Char.ofNat n) = [x, y, z] := by
  rw [encode_ofNat (by omega), if_neg (by omega), if_neg (by omega), if_pos (by omega),
    ← eq_ofNat (b := x) (by omega), ← eq_ofNat (b := y) (by omega), ← eq_ofNat (b := z) (by omega)]

theorem encode_four (hx : 0xF0 ≤ x.toNat ∧ x.toNat ≤ 0xF4) (hy : 0x80 ≤ y.toNat ∧ y.toNat ≤ 0xBF)
    (hlow : x.toNat = 0xF0 → 0x90 ≤ y.toNat) (hhigh : x.toNat = 0xF4 → y.toNat ≤ 0x8F)
    (hz : 0x80 ≤ z.toNat ∧ z.toNat ≤ 0xBF) (hw : 0x80 ≤ w.toNat ∧ w.toNat ≤ 0xBF)
    (hn : (((x.toNat - 0xF0) * 64 + (y.toNat - 0x80)) * 64 + (z.toNat - 0x80)) * 64 +
      (w.toNat - 0x80) = n) :
    String.utf8EncodeChar (Char.ofNat n) = [x, y, z, w] := by
  rw [encode_ofNat (by omega), if_neg (by omega), if_neg (by omega), if_neg (by omega),
    ← eq_ofNat (b := x) (by omega), ← eq_ofNat (b := y) (by omega), ← eq_ofNat (b := z) (by omega),
    ← eq_ofNat (b := w) (by omega)]

end

section
variable {value left lo hi : Nat} {bs : List UInt8} {c : Char} {more : List Symbol}

/-- A sequence gives a character only if its next byte is within the bounds. -/
theorem exists_within (h : symbolsFrom (some ⟨value, left, lo, hi⟩) bs = some c :: more) :
    ∃ b rest, bs = b :: rest ∧ lo ≤ b.toNat ∧ b.toNat ≤ hi := by
  cases bs with
  | nil => cases h
  | cons b rest =>
    refine ⟨b, rest, rfl, ?_⟩
    by_contra hbounds
    simp [symbolsFrom, next, hbounds] at h

/-- The byte that completes a character. -/
theorem exists_last (h : symbolsFrom (some ⟨value, 1, lo, hi⟩) bs = some c :: more) :
    ∃ b rest, bs = b :: rest ∧ lo ≤ b.toNat ∧ b.toNat ≤ hi ∧
      c = Char.ofNat (value * 64 + (b.toNat - 0x80)) ∧ symbolsFrom none rest = more := by
  obtain ⟨b, rest, rfl, hlo, hhi⟩ := exists_within h
  rw [← UInt8.ofNat_toNat (x := b), symbolsFrom_last b.toNat_lt hlo hhi, List.cons.injEq] at h
  exact ⟨b, rest, rfl, hlo, hhi, (Option.some.inj h.1).symm, h.2⟩

/-- A byte within a sequence that gives a character. -/
theorem exists_more (hleft : 2 ≤ left)
    (h : symbolsFrom (some ⟨value, left, lo, hi⟩) bs = some c :: more) :
    ∃ b rest, bs = b :: rest ∧ lo ≤ b.toNat ∧ b.toNat ≤ hi ∧
      symbolsFrom (some ⟨value * 64 + (b.toNat - 0x80), left - 1, 0x80, 0xBF⟩) rest =
        some c :: more := by
  obtain ⟨b, rest, rfl, hlo, hhi⟩ := exists_within h
  rw [← UInt8.ofNat_toNat (x := b), symbolsFrom_more b.toNat_lt hlo hhi hleft] at h
  exact ⟨b, rest, rfl, hlo, hhi, h⟩

end

/-- What a first byte can announce, by its range. -/
theorem lead_cases (b : UInt8) :
    b.toNat < 0x80 ∧ lead b = .char (Char.ofNat b.toNat) ∨
    (0xC2 ≤ b.toNat ∧ b.toNat < 0xE0) ∧ lead b = .sequence (b.toNat - 0xC0) 1 0x80 0xBF ∨
    (0xE0 ≤ b.toNat ∧ b.toNat < 0xF0) ∧ lead b = .sequence (b.toNat - 0xE0) 2
      (if b.toNat = 0xE0 then 0xA0 else 0x80) (if b.toNat = 0xED then 0x9F else 0xBF) ∨
    (0xF0 ≤ b.toNat ∧ b.toNat ≤ 0xF4) ∧ lead b = .sequence (b.toNat - 0xF0) 3
      (if b.toNat = 0xF0 then 0x90 else 0x80) (if b.toNat = 0xF4 then 0x8F else 0xBF) ∨
    lead b = .bad := by
  have hb := UInt8.ofNat_toNat (x := b)
  by_cases h₁ : b.toNat < 0x80
  · exact .inl ⟨h₁, by rw [← lead_one h₁, hb]⟩
  by_cases h₂ : 0xC2 ≤ b.toNat ∧ b.toNat < 0xE0
  · exact .inr (.inl ⟨h₂, by rw [← lead_two h₂.1 h₂.2, hb]⟩)
  by_cases h₃ : 0xE0 ≤ b.toNat ∧ b.toNat < 0xF0
  · exact .inr (.inr (.inl ⟨h₃, by rw [← lead_three h₃.1 h₃.2, hb]⟩))
  by_cases h₄ : 0xF0 ≤ b.toNat ∧ b.toNat ≤ 0xF4
  · exact .inr (.inr (.inr (.inl ⟨h₄, by rw [← lead_four h₄.1 h₄.2, hb]⟩)))
  refine .inr (.inr (.inr (.inr ?_)))
  simp only [lead, beq_iff_eq]
  split_ifs <;> first | rfl | omega

/-- The character that bytes begin with is written as its bytes before the others. -/
theorem exists_encoded {bs : List UInt8} {c : Char} {more : List Symbol}
    (h : symbolsFrom none bs = some c :: more) :
    ∃ rest, bs = String.utf8EncodeChar c ++ rest ∧ symbolsFrom none rest = more := by
  cases bs with
  | nil => cases h
  | cons x bs =>
    rcases lead_cases x with ⟨hx, hlead⟩ | ⟨hx, hlead⟩ | ⟨hx, hlead⟩ | ⟨hx, hlead⟩ | hlead
    · simp only [symbolsFrom, next, begin, hlead, List.cons_append, List.nil_append,
        List.cons.injEq, Option.some.injEq] at h
      obtain ⟨rfl, hmore⟩ := h
      exact ⟨bs, by rw [encode_one hx]; rfl, hmore⟩
    · rw [symbolsFrom_lead hlead] at h
      obtain ⟨y, rest, rfl, hlo, hhi, hc, hmore⟩ := exists_last h
      exact ⟨rest, by rw [hc, encode_two hx ⟨hlo, hhi⟩ rfl]; rfl, hmore⟩
    · rw [symbolsFrom_lead hlead] at h
      obtain ⟨y, rest, rfl, hlo, hhi, h⟩ := exists_more (Nat.le_refl 2) h
      obtain ⟨z, rest, rfl, hlo', hhi', hc, hmore⟩ := exists_last h
      have hy : (0x80 ≤ y.toNat ∧ y.toNat ≤ 0xBF) ∧ (x.toNat = 0xE0 → 0xA0 ≤ y.toNat) ∧
          (x.toNat = 0xED → y.toNat ≤ 0x9F) := by
        split_ifs at hlo hhi <;> omega
      exact ⟨rest, by rw [hc, encode_three hx hy.1 hy.2.1 hy.2.2 ⟨hlo', hhi'⟩ rfl]; rfl, hmore⟩
    · rw [symbolsFrom_lead hlead] at h
      obtain ⟨y, rest, rfl, hlo, hhi, h⟩ := exists_more (by omega) h
      obtain ⟨z, rest, rfl, hlo', hhi', h⟩ := exists_more (Nat.le_refl 2) h
      obtain ⟨w, rest, rfl, hlo'', hhi'', hc, hmore⟩ := exists_last h
      have hy : (0x80 ≤ y.toNat ∧ y.toNat ≤ 0xBF) ∧ (x.toNat = 0xF0 → 0x90 ≤ y.toNat) ∧
          (x.toNat = 0xF4 → y.toNat ≤ 0x8F) := by
        split_ifs at hlo hhi <;> omega
      refine ⟨rest, ?_, hmore⟩
      rw [hc, encode_four hx hy.1 hy.2.1 hy.2.2 ⟨hlo', hhi'⟩ ⟨hlo'', hhi''⟩ rfl]
      rfl
    · simp [symbolsFrom, next, begin, hlead] at h

/-- A sequence that has begun leaves a symbol. -/
theorem symbolsFrom_ne_nil (p : Pending) (bs : List UInt8) : symbolsFrom (some p) bs ≠ [] := by
  induction bs generalizing p with
  | nil => exact List.cons_ne_nil _ _
  | cons b rest ih =>
    by_cases hbounds : p.lo ≤ b.toNat ∧ b.toNat ≤ p.hi
    · by_cases hlast : p.left ≤ 1
      · simp [symbolsFrom, next, hbounds, hlast]
      · simpa [symbolsFrom, next, hbounds, hlast] using ih _
    · simp [symbolsFrom, next, hbounds]

theorem eq_nil_of_symbolsFrom {bs : List UInt8} (h : symbolsFrom none bs = []) : bs = [] := by
  cases bs with
  | nil => rfl
  | cons b rest =>
    cases hlead : lead b with
    | sequence value left lo hi =>
      rw [symbolsFrom_lead hlead] at h
      exact absurd h (symbolsFrom_ne_nil _ _)
    | _ => simp [symbolsFrom, next, begin, hlead] at h

/-- Only the bytes of some characters are read as these characters and nothing else. -/
theorem eq_flatMap_of_symbolsFrom {bs : List UInt8} {cs : List Char}
    (h : symbolsFrom none bs = cs.map some) : bs = cs.flatMap String.utf8EncodeChar := by
  induction cs generalizing bs with
  | nil => exact eq_nil_of_symbolsFrom h
  | cons c cs ih =>
    obtain ⟨rest, rfl, hrest⟩ := exists_encoded h
    rw [ih hrest, List.flatMap_cons]

end Utf8

/-! ### Texts -/

/-- The bytes of a text are read as its characters. -/
theorem symbols_toUTF8 (s : String) : symbols s.toUTF8 = s.toList.map some := by
  show Utf8.symbolsFrom none (bytesOf s) = _
  rw [bytesOf_eq, Utf8.symbolsFrom_chars]

/-- Bytes of a text, wherever they come from, are read as that text. -/
theorem decodeLossy_of_bytes {bytes : ByteArray} {s : String} (h : bytes.data.toList = bytesOf s) :
    decodeLossy bytes = s := by
  have hsymbols : symbols bytes = s.toList.map some := by
    unfold symbols
    rw [h, bytesOf_eq, Utf8.symbolsFrom_chars]
  unfold decodeLossy
  rw [hsymbols, List.map_map]
  show String.ofList (s.toList.map id) = s
  rw [List.map_id, String.ofList_toList]

/-- Symbols without a fault are characters. -/
theorem mapM_id_eq_some_iff {xs : List Symbol} {cs : List Char} :
    xs.mapM id = some cs ↔ xs = cs.map some := by
  induction xs generalizing cs with
  | nil => cases cs <;> simp
  | cons x xs ih =>
    rw [List.mapM_cons]
    cases x with
    | none => cases cs <;> simp
    | some d =>
      show ((xs.mapM id).bind fun ds => some (d :: ds)) = some cs ↔ _
      rw [Option.bind_eq_some_iff]
      cases cs with
      | nil => simp
      | cons c cs => simp [ih, and_comm]

/-- Bytes spell a text just if they are its bytes. -/
theorem decode?_eq_some_iff {bytes : ByteArray} {s : String} :
    decode? bytes = some s ↔ bytes = s.toUTF8 := by
  unfold decode?
  rw [Option.map_eq_some_iff]
  constructor
  · rintro ⟨cs, hcs, rfl⟩
    have hbytes := Utf8.eq_flatMap_of_symbolsFrom (mapM_id_eq_some_iff.mp hcs)
    rw [← String.toList_ofList (l := cs), ← bytesOf_eq] at hbytes
    exact ByteArray.ext (Array.ext' hbytes)
  · rintro rfl
    exact ⟨s.toList, mapM_id_eq_some_iff.mpr (symbols_toUTF8 s), String.ofList_toList⟩

theorem bytesOf_append (s t : String) : bytesOf (s ++ t) = bytesOf s ++ bytesOf t := by
  rw [bytesOf_eq, bytesOf_eq, bytesOf_eq, String.toList_append, List.flatMap_append]

theorem length_bytesOf (s : String) : (bytesOf s).length = s.utf8ByteSize := rfl

end Quire.Text
