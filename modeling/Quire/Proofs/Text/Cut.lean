import Mathlib.Data.List.Infix
import Mathlib.Data.List.TakeWhile
import Quire.Text.Cut

/-! What becomes of a text that is cut.

Cutting is the library's splitting of a list (`cutChars_eq_splitOn`): no piece has the character in
it at which the text is cut, and the pieces give the text back. So a text that ends with that
character begins another one exactly if its pieces are the first pieces there (`cutChars_prefix`). Blanks
around a text do not count when it is trimmed (`trim_around`). At the end stands what numbers and letters
are written with. -/
namespace Quire.Text
variable {sep : Char}

theorem afterStart?_eq_some {start cs rest : List Char} :
    afterStart? start cs = some rest ↔ cs = start ++ rest := by
  induction start generalizing cs with
  | nil => simp [afterStart?]
  | cons a start ih =>
    cases cs with
    | nil => simp [afterStart?]
    | cons c cs =>
      unfold afterStart?
      split
      case isTrue h => simp [ih, (beq_iff_eq.mp h).symm]
      case isFalse h => simpa using fun hc => absurd (beq_iff_eq.mpr hc.symm) h

theorem startsWith_iff {start s : String} :
    startsWith start s = true ↔ start.toList <+: s.toList := by
  unfold startsWith
  simp only [Option.isSome_iff_exists, afterStart?_eq_some]
  exact ⟨fun ⟨rest, h⟩ => ⟨rest, h.symm⟩, fun ⟨rest, h⟩ => ⟨rest, h.symm⟩⟩

/-! ### Pieces -/

theorem cutChars_eq_splitOn (cs : List Char) : cutChars sep cs = cs.splitOn sep := by
  induction cs with
  | nil => rfl
  | cons c cs ih =>
    obtain ⟨piece, pieces, hcs⟩ := List.exists_cons_of_ne_nil (List.splitOn_ne_nil sep cs)
    rw [List.splitOn_cons_eq_if_modifyHead, cutChars, ih, hcs]
    split <;> rfl

/-- A text without the character is one piece. -/
theorem cutChars_of_not_mem {cs : List Char} (h : sep ∉ cs) : cutChars sep cs = [cs] := by
  rw [cutChars_eq_splitOn, List.splitOn_eq_singleton h]

/-- A cut between two texts leaves the pieces of both. -/
theorem cutChars_append (a b : List Char) :
    cutChars sep (a ++ sep :: b) = cutChars sep a ++ cutChars sep b := by
  simp only [cutChars_eq_splitOn, List.splitOn_append_cons_self]

/-- The same with a last piece that is not cut. -/
theorem cutChars_concat (a : List Char) {b : List Char} (hb : sep ∉ b) :
    cutChars sep (a ++ sep :: b) = cutChars sep a ++ [b] := by
  rw [cutChars_append, cutChars_of_not_mem hb]

theorem intercalate_cutChars (cs : List Char) : [sep].intercalate (cutChars sep cs) = cs := by
  rw [cutChars_eq_splitOn, List.intercalate_splitOn]

theorem cutChars_inj {a b : List Char} : cutChars sep a = cutChars sep b ↔ a = b := by
  refine ⟨fun h => ?_, fun h => h ▸ rfl⟩
  rw [← @intercalate_cutChars sep a, h, intercalate_cutChars]

/-- The pieces have all characters of the text, but not the one at which it is cut. -/
theorem mem_cutChars {cs piece : List Char} (h : piece ∈ cutChars sep cs) :
    sep ∉ piece ∧ piece ⊆ cs := by
  induction cs generalizing piece with
  | nil =>
    obtain rfl := List.mem_singleton.mp h
    simp
  | cons c cs ih =>
    obtain ⟨first, pieces, hcs⟩ := List.exists_cons_of_ne_nil (List.splitOn_ne_nil sep cs)
    rw [cutChars_eq_splitOn, List.splitOn_cons_eq_if_modifyHead, hcs] at h
    rw [cutChars_eq_splitOn, hcs] at ih
    split at h
    · rcases List.mem_cons.mp h with rfl | h
      · simp
      · exact ⟨(ih h).1, List.subset_cons_of_subset _ (ih h).2⟩
    case isFalse hc =>
      rcases List.mem_cons.mp h with rfl | h
      · obtain ⟨hsep, hsub⟩ := ih List.mem_cons_self
        refine ⟨fun hmem => ?_, List.cons_subset_cons _ hsub⟩
        rcases List.mem_cons.mp hmem with rfl | hmem
        · simp at hc
        · exact hsep hmem
      · have hrest := ih (List.mem_cons_of_mem _ h)
        exact ⟨hrest.1, List.subset_cons_of_subset _ hrest.2⟩

/-- A text that ends with a cut begins another such text exactly if its pieces come first there. -/
theorem cutChars_prefix {a b : List Char} :
    cutChars sep a <+: cutChars sep b ↔ a ++ [sep] <+: b ++ [sep] := by
  constructor
  · rintro ⟨pieces, h⟩
    by_cases hpieces : pieces = []
    · rw [hpieces, List.append_nil] at h
      exact cutChars_inj.mp h ▸ List.prefix_refl _
    · have hrest : cutChars sep ([sep].intercalate pieces) = pieces := by
        rw [cutChars_eq_splitOn, List.splitOn_intercalate sep (fun piece hpiece => ?_) hpieces]
        exact (mem_cutChars (h ▸ List.mem_append_right _ hpiece)).1
      rw [← hrest, ← cutChars_append, cutChars_inj] at h
      exact ⟨[sep].intercalate pieces ++ [sep], by simp [← h]⟩
  · rintro ⟨rest, h⟩
    rcases List.eq_nil_or_concat rest with rfl | ⟨rest, c, rfl⟩
    · rw [List.append_nil, List.append_left_inj] at h
      exact h ▸ List.prefix_refl _
    · rw [List.concat_eq_append, ← List.append_assoc] at h
      rw [← (List.append_inj' h rfl).1, List.append_assoc, List.singleton_append, cutChars_append]
      exact List.prefix_append _ _

/-! ### Trimming -/

theorem trimRight_append {cs after : List Char} (h : ∀ c ∈ after, isBlank c = true) :
    trimRight (cs ++ after) = trimRight cs := by
  have hback : ∀ c ∈ after.reverse, isBlank c = true := fun c hc => h c (List.mem_reverse.mp hc)
  rw [trimRight, List.reverse_append, List.dropWhile_append_of_pos hback, trimRight]

theorem trimRight_of_end {last : Char} (hlast : isBlank last = false) (cs : List Char) :
    trimRight (cs ++ [last]) = cs ++ [last] := by
  rw [trimRight, List.reverse_append, List.reverse_singleton, List.singleton_append,
    List.dropWhile_cons_of_neg (by simp [hlast]), List.reverse_cons, List.reverse_reverse]

/-- Nothing is trimmed where the text begins and ends with something else. -/
theorem trim_of_ends {first last : Char} {inner : List Char} (hfirst : isBlank first = false)
    (hlast : isBlank last = false) :
    trim (String.ofList (first :: (inner ++ [last]))) = String.ofList (first :: (inner ++ [last])) := by
  rw [trim, String.toList_ofList, trimLeft, List.dropWhile_cons_of_neg (by simp [hfirst])]
  exact congrArg String.ofList (trimRight_of_end hlast (first :: inner))

/-- Blanks around a text make no difference to what is left of it. -/
theorem trim_around {before after : String} (hbefore : isEmptyOrBlank before = true)
    (hafter : isEmptyOrBlank after = true) (s : String) : trim (before ++ s ++ after) = trim s := by
  have hfront : ∀ c ∈ before.toList, isBlank c = true := List.all_eq_true.mp hbefore
  have hback : ∀ c ∈ after.toList, isBlank c = true := List.all_eq_true.mp hafter
  have hchars : trimRight (trimLeft (before ++ s ++ after).toList) = trimRight (trimLeft s.toList) := by
    rw [String.toList_append, String.toList_append, List.append_assoc, trimLeft, trimLeft,
      List.dropWhile_append_of_pos hfront, List.dropWhile_append]
    by_cases hs : s.toList.dropWhile isBlank = []
    · rw [hs, List.dropWhile_eq_nil_iff.mpr hback]
      rfl
    · rw [if_neg (by simpa using hs), trimRight_append hback]
  rw [trim, hchars, trim]

/-! ### Numbers and letters -/

theorem isDigit_of_mem_toString (n : Nat) : ∀ c ∈ (toString n).toList, c.isDigit = true := by
  intro c hc
  rw [show (toString n).toList = Nat.toDigits 10 n from Nat.toList_repr] at hc
  exact Nat.isDigit_of_mem_toDigits (by decide) (by decide) hc

/-- A whole number is written with digits, and at most a sign before them. -/
theorem toList_toString_int (n : Int) : ∃ ds : List Char, (∀ c ∈ ds, c.isDigit = true) ∧
    ((toString n).toList = ds ∨ (toString n).toList = '-' :: ds) := by
  cases n with
  | ofNat k => exact ⟨(toString k).toList, isDigit_of_mem_toString k, .inl rfl⟩
  | negSucc k =>
    exact ⟨(toString (k + 1)).toList, isDigit_of_mem_toString _, .inr (String.toList_append ..)⟩

theorem isBlank_of_isDigit {c : Char} (h : c.isDigit = true) : isBlank c = false := by
  have hbounds : 48 ≤ c.toNat ∧ c.toNat ≤ 57 := by
    simpa [Char.isDigit, UInt32.le_iff_toNat_le] using h
  obtain ⟨hlow, hhigh⟩ := hbounds
  simp [isBlank]
  omega

theorem dropWhile_of_unblank {cs : List Char} (h : ∀ c ∈ cs, isBlank c = false) :
    cs.dropWhile isBlank = cs := by
  cases cs with
  | nil => rfl
  | cons c rest => exact List.dropWhile_cons_of_neg (by simp [h c List.mem_cons_self])

/-- Nothing is trimmed where no character is blank. -/
theorem trim_of_unblank {s : String} (h : ∀ c ∈ s.toList, isBlank c = false) : trim s = s := by
  have hback : ∀ c ∈ s.toList.reverse, isBlank c = false := fun c hc => h c (List.mem_reverse.mp hc)
  rw [trim, trimLeft, dropWhile_of_unblank h, trimRight, dropWhile_of_unblank hback,
    List.reverse_reverse, String.ofList_toList]

/-- No other character has a slash for its lower case. -/
theorem toLower_eq_slash {c : Char} (h : c.toLower = '/') : c = '/' := by
  unfold Char.toLower at h
  split at h
  case isTrue hupper =>
    have hlow : 65 ≤ c.toNat := UInt32.le_iff_toNat_le.mp hupper.1
    have hhigh : c.toNat ≤ 90 := UInt32.le_iff_toNat_le.mp hupper.2
    have hlower : (c.toNat + 32) % 2 ^ 32 = 47 := congrArg Char.toNat h
    omega
  case isFalse => exact h

end Quire.Text
