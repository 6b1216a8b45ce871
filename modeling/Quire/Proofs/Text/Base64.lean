import Quire.Proofs.Text.Cut
import Quire.Proofs.Text.Utf8
import Quire.Text.Base64

/-! Base64 there and back.

Each six-bit value has a character of its own, so a group of four characters tells the bytes that it was
written for, and no other group does: padding stands at the end alone, and no bits are left over. So a
text is read just if it is what some bytes are written as (`decode?_eq_some_iff`). None of its characters
is a blank or a brace. -/
namespace Quire.Text.Base64

/-! ### Characters -/

theorem value?_symbol : ∀ n < 64, value? (symbol n) = some n := by decide

theorem value?_ascii : ∀ k < 128, ∀ n ∈ value? (Char.ofNat k), n < 64 ∧ Char.ofNat k = symbol n := by
  decide

/-- Only the character of a value has it. -/
theorem of_value? {c : Char} {n : Nat} (h : value? c = some n) : n < 64 ∧ c = symbol n := by
  have hascii : c.toNat < 128 := by
    by_contra hwide
    have hplus : c ≠ '+' := by rintro rfl; exact hwide (by decide)
    have hslash : c ≠ '/' := by rintro rfl; exact hwide (by decide)
    have hnone : value? c = none := by
      simp only [value?, Bool.and_eq_true, decide_eq_true_eq, beq_iff_eq]
      split_ifs <;> first | rfl | omega
    rw [hnone] at h
    cases h
  have hvalue : value? (Char.ofNat c.toNat) = some n := by rwa [Char.ofNat_toNat]
  have hboth := value?_ascii c.toNat hascii n hvalue
  rwa [Char.ofNat_toNat] at hboth

/-! ### Groups -/

section
variable {a b c d : Char} {x y z w : Nat}

theorem ne_pad_of_value? (h : value? c = some z) : c ≠ '=' := by
  rintro rfl
  cases h

/-- Two characters with values are one byte, if no bits are left over. -/
theorem lastGroup_one (ha : value? a = some x) (hb : value? b = some y) (hover : y % 16 = 0) :
    lastGroup a b '=' '=' = some [UInt8.ofNat (x * 4 + y / 16)] := by
  simp [lastGroup, ha, hb, hover]

theorem lastGroup_two (ha : value? a = some x) (hb : value? b = some y) (hc : value? c = some z)
    (hover : z % 4 = 0) :
    lastGroup a b c '=' =
      some [UInt8.ofNat (x * 4 + y / 16), UInt8.ofNat (y % 16 * 16 + z / 4)] := by
  simp [lastGroup, ha, hb, hc, hover, ne_pad_of_value? hc]

/-- Four characters with values are three bytes, whether others follow or not. -/
theorem decodeChars_three (ha : value? a = some x) (hb : value? b = some y) (hc : value? c = some z)
    (hd : value? d = some w) (rest : List Char) :
    decodeChars (a :: b :: c :: d :: rest) = (decodeChars rest).map fun more =>
      UInt8.ofNat (x * 4 + y / 16) :: UInt8.ofNat (y % 16 * 16 + z / 4) ::
        UInt8.ofNat (z % 4 * 64 + w) :: more := by
  cases rest with
  | nil => simp [decodeChars, lastGroup, ha, hb, hc, hd, ne_pad_of_value? hc, ne_pad_of_value? hd]
  | cons e rest =>
    rw [decodeChars]
    · simp only [ha, hb, hc, hd]
      cases decodeChars (e :: rest) <;> rfl
    · exact List.cons_ne_nil e rest

theorem encodeBytes_one (hx : x < 64) (hy : y < 64) (hover : y % 16 = 0) :
    encodeBytes [UInt8.ofNat (x * 4 + y / 16)] = [symbol x, symbol y, '=', '='] := by
  rw [encodeBytes, toNat_byte (by omega), show (x * 4 + y / 16) / 4 = x by omega,
    show (x * 4 + y / 16) % 4 * 16 = y by omega]

theorem encodeBytes_two (hx : x < 64) (hy : y < 64) (hz : z < 64) (hover : z % 4 = 0) :
    encodeBytes [UInt8.ofNat (x * 4 + y / 16), UInt8.ofNat (y % 16 * 16 + z / 4)] =
      [symbol x, symbol y, symbol z, '='] := by
  have hn : (x * 4 + y / 16) * 256 + (y % 16 * 16 + z / 4) = x * 1024 + y * 16 + z / 4 := by omega
  rw [encodeBytes, toNat_byte (by omega), toNat_byte (by omega)]
  rw [hn, show (x * 1024 + y * 16 + z / 4) / 1024 = x by omega,
    show (x * 1024 + y * 16 + z / 4) / 16 % 64 = y by omega,
    show (x * 1024 + y * 16 + z / 4) % 16 * 4 = z by omega]

theorem encodeBytes_three (hx : x < 64) (hy : y < 64) (hz : z < 64) (hw : w < 64)
    (rest : List UInt8) :
    encodeBytes (UInt8.ofNat (x * 4 + y / 16) :: UInt8.ofNat (y % 16 * 16 + z / 4) ::
        UInt8.ofNat (z % 4 * 64 + w) :: rest) =
      symbol x :: symbol y :: symbol z :: symbol w :: encodeBytes rest := by
  have hn : (x * 4 + y / 16) * 65536 + (y % 16 * 16 + z / 4) * 256 + (z % 4 * 64 + w) =
      x * 262144 + y * 4096 + z * 64 + w := by omega
  rw [encodeBytes, toNat_byte (by omega), toNat_byte (by omega), toNat_byte (by omega)]
  rw [hn, show (x * 262144 + y * 4096 + z * 64 + w) / 262144 = x by omega,
    show (x * 262144 + y * 4096 + z * 64 + w) / 4096 % 64 = y by omega,
    show (x * 262144 + y * 4096 + z * 64 + w) / 64 % 64 = z by omega,
    show (x * 262144 + y * 4096 + z * 64 + w) % 64 = w by omega]

/-- The last group is read only of what its bytes are written as. -/
theorem encodeBytes_of_lastGroup {bytes : List UInt8} (h : lastGroup a b c d = some bytes) :
    encodeBytes bytes = [a, b, c, d] := by
  simp only [lastGroup, Option.bind_eq_bind, Option.bind_eq_some_iff] at h
  obtain ⟨x, ha, y, hb, h⟩ := h
  obtain ⟨hx, rfl⟩ := of_value? ha
  obtain ⟨hy, rfl⟩ := of_value? hb
  split at h
  case isTrue hpads =>
    obtain ⟨rfl, rfl⟩ : c = '=' ∧ d = '=' := by simpa using hpads
    obtain ⟨hover, rfl⟩ : y % 16 = 0 ∧ [UInt8.ofNat (x * 4 + y / 16)] = bytes := by simpa using h
    exact encodeBytes_one hx hy hover
  case isFalse =>
    simp only [Option.bind_eq_some_iff] at h
    obtain ⟨z, hc, h⟩ := h
    obtain ⟨hz, rfl⟩ := of_value? hc
    split at h
    case isTrue hpad =>
      obtain rfl := beq_iff_eq.mp hpad
      obtain ⟨hover, rfl⟩ : z % 4 = 0 ∧
          [UInt8.ofNat (x * 4 + y / 16), UInt8.ofNat (y % 16 * 16 + z / 4)] = bytes := by
        simpa using h
      exact encodeBytes_two hx hy hz hover
    case isFalse =>
      simp only [Option.bind_eq_some_iff] at h
      obtain ⟨w, hd, h⟩ := h
      obtain ⟨hw, rfl⟩ := of_value? hd
      obtain rfl := Option.some.inj h
      exact encodeBytes_three hx hy hz hw []

end

/-! ### Texts -/

/-- What is written is read again. -/
theorem decodeChars_encodeBytes (bytes : List UInt8) : decodeChars (encodeBytes bytes) = some bytes := by
  induction bytes using encodeBytes.induct with
  | case1 a b c rest ih =>
    have ha := a.toNat_lt
    have hb := b.toNat_lt
    have hc := c.toNat_lt
    rw [encodeBytes, decodeChars_three (value?_symbol _ (by omega)) (value?_symbol _ (by omega))
      (value?_symbol _ (by omega)) (value?_symbol _ (by omega)), ih, Option.map_some,
      ← @eq_ofNat _ a (by omega), ← @eq_ofNat _ b (by omega), ← @eq_ofNat _ c (by omega)]
  | case2 a b =>
    have ha := a.toNat_lt
    have hb := b.toNat_lt
    rw [encodeBytes, decodeChars, lastGroup_two (value?_symbol _ (by omega))
      (value?_symbol _ (by omega)) (value?_symbol _ (by omega)) (by omega),
      ← @eq_ofNat _ a (by omega), ← @eq_ofNat _ b (by omega)]
  | case3 a =>
    have ha := a.toNat_lt
    rw [encodeBytes, decodeChars, lastGroup_one (value?_symbol _ (by omega))
      (value?_symbol _ (by omega)) (by omega), ← @eq_ofNat _ a (by omega)]
  | case4 => rfl

/-- And nothing else is read. -/
theorem encodeBytes_of_decodeChars {cs : List Char} {bytes : List UInt8}
    (h : decodeChars cs = some bytes) : encodeBytes bytes = cs := by
  induction cs using decodeChars.induct generalizing bytes with
  | case1 =>
    obtain rfl := Option.some.inj h
    rfl
  | case2 a b c d => exact encodeBytes_of_lastGroup h
  | case3 a b c d rest hrest ih =>
    rw [decodeChars] at h
    · simp only [Option.bind_eq_bind, Option.bind_eq_some_iff] at h
      obtain ⟨x, ha, y, hb, z, hc, w, hd, more, hmore, h⟩ := h
      obtain ⟨hx, rfl⟩ := of_value? ha
      obtain ⟨hy, rfl⟩ := of_value? hb
      obtain ⟨hz, rfl⟩ := of_value? hc
      obtain ⟨hw, rfl⟩ := of_value? hd
      obtain rfl := Option.some.inj h
      rw [encodeBytes_three hx hy hz hw, ih hmore]
    · exact hrest
  | case4 cs h₁ h₂ h₃ =>
    rw [decodeChars] at h
    · cases h
    all_goals assumption

/-- Only signs of values and padding are written. -/
theorem mem_encodeBytes {c : Char} {bytes : List UInt8} (h : c ∈ encodeBytes bytes) :
    c = '=' ∨ ∃ n < 64, c = symbol n := by
  induction bytes using encodeBytes.induct with
  | case1 a b d rest ih =>
    have ha := a.toNat_lt
    have hb := b.toNat_lt
    have hd := d.toNat_lt
    rw [encodeBytes] at h
    simp only [List.mem_cons] at h
    rcases h with rfl | rfl | rfl | rfl | h
    case inr.inr.inr.inr => exact ih h
    all_goals exact .inr ⟨_, by omega, rfl⟩
  | case2 a b =>
    have ha := a.toNat_lt
    have hb := b.toNat_lt
    rw [encodeBytes] at h
    simp only [List.mem_cons, List.not_mem_nil, or_false] at h
    rcases h with rfl | rfl | rfl | rfl
    case inr.inr.inr => exact .inl rfl
    all_goals exact .inr ⟨_, by omega, rfl⟩
  | case3 a =>
    have ha := a.toNat_lt
    rw [encodeBytes] at h
    simp only [List.mem_cons, List.not_mem_nil, or_false] at h
    rcases h with rfl | rfl | h
    case inr.inr => exact .inl (by simpa using h)
    all_goals exact .inr ⟨_, by omega, rfl⟩
  | case4 => cases h

/-- A text is read as bytes just if it is what they are written as. -/
theorem decode?_eq_some_iff {s : String} {bytes : ByteArray} :
    decode? s = some bytes ↔ s = encode bytes := by
  rw [decode?, Option.map_eq_some_iff]
  constructor
  · rintro ⟨bs, hbs, rfl⟩
    rw [encode, encodeBytes_of_decodeChars hbs, String.ofList_toList]
  · rintro rfl
    exact ⟨bytes.data.toList, by rw [encode, String.toList_ofList, decodeChars_encodeBytes], rfl⟩

/-- No character of an encoded text is blank, so nothing of it is trimmed. -/
theorem trim_encode (bytes : ByteArray) : trim (encode bytes) = encode bytes := by
  refine trim_of_unblank fun c hc => ?_
  rw [encode, String.toList_ofList] at hc
  rcases mem_encodeBytes hc with rfl | ⟨n, hn, rfl⟩
  · rfl
  · exact (by decide : ∀ n < 64, isBlank (symbol n) = false) n hn

/-- An encoded text is no JSON object. -/
theorem startsWith_encode (bytes : ByteArray) : startsWith "\x7b" (encode bytes) = false := by
  rw [Bool.eq_false_iff]
  intro hstart
  obtain ⟨rest, hrest⟩ := startsWith_iff.mp hstart
  have hmem : '{' ∈ encodeBytes bytes.data.toList := by
    rw [← String.toList_ofList (l := encodeBytes _), ← encode, ← hrest]
    exact List.mem_cons_self
  rcases mem_encodeBytes hmem with hpad | ⟨n, hn, hsymbol⟩
  · cases hpad
  · exact (by decide : ∀ n < 64, '{' ≠ symbol n) n hn hsymbol

end Quire.Text.Base64
