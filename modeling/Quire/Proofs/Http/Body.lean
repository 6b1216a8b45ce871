import Quire.Http.Wire
import Quire.Proofs.Text.Utf8

/-! Bodies in failures.

A text can be cut exactly behind its beginnings (`isBoundary_iff`): of the bytes of a character only the
first one begins anything. So a search backwards for a place for the cut ends, at the latest before the
first character, and the longest beginning within the limit is what it finds
(`truncated_keeps_longest`). -/
namespace Quire.Text
open String (utf8EncodeChar)

/-! ### Places for a cut -/

/-- A character has one byte that begins it, and all others go on with it. -/
theorem Utf8.exists_lead (c : Char) : ∃ b rest, utf8EncodeChar c = b :: rest ∧
    Utf8.continues b = false ∧ ∀ b' ∈ rest, Utf8.continues b' = true := by
  have hvalid : c.val.toNat < 0xD800 ∨ 0xDFFF < c.val.toNat ∧ c.val.toNat < 0x110000 := c.valid
  unfold String.utf8EncodeChar
  generalize c.val.toNat = v at hvalid ⊢
  dsimp only
  split_ifs
  · refine ⟨_, _, rfl, ?_, by simp⟩
    simp [Utf8.continues]
    omega
  all_goals
    refine ⟨_, _, rfl, ?_, ?_⟩
    · simp [Utf8.continues]
      omega
    · simp [Utf8.continues]
      omega

theorem isBoundary_iff_byte {bytes : ByteArray} {n : Nat} : isBoundary bytes n = true ↔
    n = 0 ∨ n = bytes.size ∨ ∃ b, bytes.data.toList[n]? = some b ∧ Utf8.continues b = false := by
  have hsize : bytes.data.toList.length = bytes.size := rfl
  unfold isBoundary
  split
  case isTrue hn =>
    have hbyte : bytes.data.toList[n]? = some bytes[n] := List.getElem?_eq_getElem (hsize.symm ▸ hn)
    simp [hbyte, Nat.ne_of_lt hn]
  case isFalse hn =>
    have hnone : bytes.data.toList[n]? = none := List.getElem?_eq_none (Nat.not_lt.mp hn)
    have hzero : n = 0 → n = bytes.size := fun h => by omega
    simpa [hnone] using hzero

/-- Behind some of the bytes of a character, but not all, another byte goes on with it. -/
theorem Utf8.continues_within {c : Char} {n : Nat} (hzero : n ≠ 0) (hn : n < (utf8EncodeChar c).length)
    {b : UInt8} (hb : (utf8EncodeChar c)[n]? = some b) : Utf8.continues b = true := by
  obtain ⟨first, rest, hbytes, -, hrest⟩ := Utf8.exists_lead c
  obtain ⟨k, rfl⟩ := Nat.exists_eq_succ_of_ne_zero hzero
  rw [hbytes, List.getElem?_cons_succ] at hb
  exact hrest b (List.mem_of_getElem? hb)

/-- Where the bytes of some characters can be cut, one of the characters ends. -/
theorem exists_beginning {cs : List Char} {n : Nat}
    (h : n = 0 ∨ n = (cs.flatMap utf8EncodeChar).length ∨
      ∃ b, (cs.flatMap utf8EncodeChar)[n]? = some b ∧ Utf8.continues b = false) :
    ∃ kept rest, cs = kept ++ rest ∧ (kept.flatMap utf8EncodeChar).length = n := by
  by_cases hzero : n = 0
  · exact ⟨[], cs, rfl, hzero.symm⟩
  induction cs generalizing n with
  | nil => simp [hzero] at h
  | cons c cs ih =>
    rw [List.flatMap_cons] at h
    by_cases hwithin : n < (utf8EncodeChar c).length
    · rcases h with h | h | ⟨b, hb, hfirst⟩
      · exact absurd h hzero
      · simp at h hwithin
        omega
      · rw [List.getElem?_append_left hwithin] at hb
        rw [Utf8.continues_within hzero hwithin hb] at hfirst
        cases hfirst
    · obtain ⟨k, rfl⟩ := Nat.exists_eq_add_of_le (Nat.not_lt.mp hwithin)
      by_cases hk : k = 0
      · exact ⟨[c], cs, rfl, by simp [hk]⟩
      · have hrest : k = 0 ∨ k = (cs.flatMap utf8EncodeChar).length ∨
            ∃ b, (cs.flatMap utf8EncodeChar)[k]? = some b ∧ Utf8.continues b = false := by
          rw [List.getElem?_append_right (Nat.le_add_right _ _), Nat.add_sub_cancel_left,
            List.length_append, Nat.add_left_cancel_iff] at h
          exact .inr (h.resolve_left hzero)
        obtain ⟨kept, rest, rfl, hlength⟩ := ih hrest hk
        exact ⟨c :: kept, rest, rfl, by rw [List.flatMap_cons, List.length_append, hlength]⟩

/-- A text can be cut exactly behind its beginnings. -/
theorem isBoundary_iff {s : String} {n : Nat} : isBoundary s.toUTF8 n = true ↔
    ∃ kept rest, s = kept ++ rest ∧ kept.utf8ByteSize = n := by
  have hbytes : s.toUTF8.data.toList = s.toList.flatMap utf8EncodeChar := bytesOf_eq s
  have hsize : s.toUTF8.size = (s.toList.flatMap utf8EncodeChar).length := by
    rw [← hbytes]
    rfl
  rw [isBoundary_iff_byte, hbytes, hsize]
  constructor
  · intro h
    obtain ⟨kept, rest, hs, hlength⟩ := exists_beginning h
    refine ⟨String.ofList kept, String.ofList rest, ?_, ?_⟩
    · rw [← String.ofList_append, ← hs, String.ofList_toList]
    · rw [← length_bytesOf, bytesOf_eq, String.toList_ofList, hlength]
  · rintro ⟨kept, rest, rfl, rfl⟩
    rw [← length_bytesOf kept, bytesOf_eq, String.toList_append, List.flatMap_append]
    cases hrest : rest.toList with
    | nil => simp
    | cons c cs =>
      obtain ⟨b, bs, hb, hfirst, -⟩ := Utf8.exists_lead c
      refine .inr (.inr ⟨b, ?_, hfirst⟩)
      rw [List.getElem?_append_right (Nat.le_refl _), Nat.sub_self, List.flatMap_cons, hb]
      rfl

/-- What stands before a place for a cut. -/
theorem firstBytes?_append (kept rest : String) :
    firstBytes? (kept ++ rest).toUTF8 kept.utf8ByteSize = some kept := by
  have hplace : isBoundary (kept ++ rest).toUTF8 kept.utf8ByteSize = true :=
    isBoundary_iff.mpr ⟨kept, rest, rfl, rfl⟩
  rw [firstBytes?, if_pos hplace, decode?_eq_some_iff]
  show (kept ++ rest).toByteArray.extract 0 _ = _
  rw [String.toByteArray_append, @ByteArray.extract_append_eq_left _ _ kept.utf8ByteSize rfl]
  rfl

/-- The search backwards always ends at a place for a cut, and passes none by. -/
theorem exists_lastBoundary (bytes : ByteArray) (n : Nat) : ∃ place,
    lastBoundary? bytes n = some place ∧ place ≤ n ∧ isBoundary bytes place = true ∧
      ∀ k ≤ n, isBoundary bytes k = true → k ≤ place := by
  induction n with
  | zero =>
    have hzero : isBoundary bytes 0 = true := isBoundary_iff_byte.mpr (.inl rfl)
    exact ⟨0, if_pos hzero, Nat.le_refl 0, hzero, fun k hk _ => hk⟩
  | succ n ih =>
    by_cases hlast : isBoundary bytes (n + 1) = true
    · exact ⟨n + 1, if_pos hlast, Nat.le_refl _, hlast, fun k hk _ => hk⟩
    · obtain ⟨place, hfound, hplace, hboundary, hnone⟩ := ih
      refine ⟨place, ?_, Nat.le_succ_of_le hplace, hboundary, fun k hk hk' => ?_⟩
      · rw [← hfound]
        exact if_neg hlast
      · have hne : k ≠ n + 1 := fun heq => hlast (heq ▸ hk')
        exact hnone k (by omega) hk'

end Quire.Text

namespace Quire.Http
open Text (isBoundary_iff)

/-! ### Bodies -/

/-- A longer body is cut behind its longest beginning that is within the limit; less than a character
is lost of it. -/
theorem truncated?_of_longer {body : String} (h : bodyLimit < body.utf8ByteSize) :
    ∃ kept rest, body = kept ++ rest ∧ truncated? body = some (kept ++ cutMark) ∧
      kept.utf8ByteSize ≤ bodyLimit ∧ bodyLimit < kept.utf8ByteSize + 4 ∧
      ∀ kept' rest', body = kept' ++ rest' → kept'.utf8ByteSize ≤ bodyLimit →
        kept'.utf8ByteSize ≤ kept.utf8ByteSize := by
  obtain ⟨place, hfound, hplace, hboundary, hlast⟩ := Text.exists_lastBoundary body.toUTF8 bodyLimit
  obtain ⟨kept, rest, rfl, rfl⟩ := isBoundary_iff.mp hboundary
  have hlongest : ∀ kept' rest', kept ++ rest = kept' ++ rest' → kept'.utf8ByteSize ≤ bodyLimit →
      kept'.utf8ByteSize ≤ kept.utf8ByteSize := fun kept' rest' heq hk =>
    hlast _ hk (isBoundary_iff.mpr ⟨kept', rest', heq, rfl⟩)
  refine ⟨kept, rest, rfl, ?_, hplace, ?_, hlongest⟩
  · unfold truncated?
    rw [if_neg (Nat.not_le.mpr h), hfound]
    show (Text.firstBytes? (kept ++ rest).toUTF8 kept.utf8ByteSize >>= fun kept => _) = _
    rw [Text.firstBytes?_append]
    rfl
  · cases hrest : rest.toList with
    | nil =>
      rw [String.toList_eq_nil_iff.mp hrest, String.append_empty] at h
      exact absurd h (Nat.not_lt.mpr hplace)
    | cons c cs =>
      -- With its next character the beginning would be too long.
      have hnext : kept ++ rest = kept ++ String.ofList [c] ++ String.ofList cs := by
        rw [String.append_assoc, ← String.ofList_append, List.singleton_append, ← hrest,
          String.ofList_toList]
      have hsize : (kept ++ String.ofList [c]).utf8ByteSize = kept.utf8ByteSize + c.utf8Size := by
        rw [String.utf8ByteSize_append, ← Text.length_bytesOf (String.ofList [c]), Text.bytesOf_eq,
          String.toList_ofList]
        simp
      have hpositive := c.utf8Size_pos
      have hfour := c.utf8Size_le_four
      by_contra hroom
      have htoo := hlongest _ _ hnext (by omega)
      omega

/-- A place for the cut is always found. A body of at most 200 bytes stays as it is; of a longer one the
longest beginning of at most 200 bytes is kept, which has 197 of them at least, and the mark of the cut
stands behind it. -/
theorem truncated_keeps_longest (body : String) :
    truncated? body = some (truncated body) ∧
    (body.utf8ByteSize ≤ 200 → truncated body = body) ∧
    (200 < body.utf8ByteSize → ∃ kept rest, body = kept ++ rest ∧
      truncated body = kept ++ "... (truncated)" ∧
      197 ≤ kept.utf8ByteSize ∧ kept.utf8ByteSize ≤ 200 ∧
      ∀ kept' rest', body = kept' ++ rest' → kept'.utf8ByteSize ≤ 200 →
        kept'.utf8ByteSize ≤ kept.utf8ByteSize) ∧
    (truncated body).utf8ByteSize ≤ 215 := by
  unfold truncated
  rcases Nat.lt_or_ge bodyLimit body.utf8ByteSize with hlong | hshort
  · obtain ⟨kept, rest, hbody, hcut, hkept, hnear, hlongest⟩ := truncated?_of_longer hlong
    have hsize : (kept ++ cutMark).utf8ByteSize = kept.utf8ByteSize + 15 :=
      String.utf8ByteSize_append
    unfold bodyLimit at hlong hkept hnear hlongest
    rw [hcut, Option.getD_some, hsize]
    refine ⟨rfl, fun hshort => ?_, fun _ => ⟨kept, rest, hbody, rfl, ?_, hkept, hlongest⟩, ?_⟩ <;>
      omega
  · have hwhole : truncated? body = some body := if_pos hshort
    unfold bodyLimit at hshort
    rw [hwhole, Option.getD_some]
    exact ⟨rfl, fun _ => rfl, fun hlong => absurd hlong (Nat.not_lt.mpr hshort), by omega⟩

end Quire.Http
