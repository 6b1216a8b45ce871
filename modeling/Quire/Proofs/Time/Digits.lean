import Mathlib.Data.List.Forall2
import Mathlib.Data.List.Lex
import Mathlib.Data.Nat.Digits.Defs
import Quire.Time.Instant

/-! Numbers in texts.

Texts of numbers of fixed widths, each with a character behind it, compare as the numbers do, the
first that differs deciding. A year may have a sign and more digits than others; with the dash
behind it no year begins another, so that texts which go on after different years compare as the
texts of these years. That is the order of the years only up to 9999. -/
namespace Quire.Time

/-! ### Numbers of a fixed width -/

/-- The last digits of a number. -/
def digits : (width : Nat) → Nat → List Char
  | 0, _ => []
  | w + 1, n => digits w (n / 10) ++ [Nat.digitChar (n % 10)]

@[simp] theorem length_digits (w n : Nat) : (digits w n).length = w := by
  induction w generalizing n with
  | zero => rfl
  | succ w ih => simp [digits, ih]

theorem digits_zero (w : Nat) : digits w 0 = List.replicate w '0' := by
  induction w with
  | zero => rfl
  | succ w ih => rw [digits, Nat.zero_div, ih, List.replicate_succ']; rfl

/-- Zeros in front of the digits of a number up to a width. -/
theorem digits_eq {w n : Nat} (hw : 0 < w) (hn : n < 10 ^ w) :
    digits w n = List.replicate (w - (Nat.toDigits 10 n).length) '0' ++ Nat.toDigits 10 n := by
  induction w generalizing n with
  | zero => omega
  | succ w ih =>
    by_cases hsmall : n < 10
    · rw [Nat.toDigits_of_lt_base hsmall, digits, Nat.div_eq_of_lt hsmall, digits_zero,
        Nat.mod_eq_of_lt hsmall]
      rfl
    · have hsplit := Nat.toDigits_append_toDigits (b := 10) (n := n / 10) (d := n % 10)
        (by decide) (by omega) (by omega)
      rw [Nat.div_add_mod, Nat.toDigits_of_lt_base (Nat.mod_lt n (by decide))] at hsplit
      have hwidth : 0 < w := by
        by_contra hzero
        obtain rfl : w = 0 := by omega
        omega
      rw [digits, ih hwidth (by rw [Nat.pow_succ] at hn; omega), ← hsplit, List.append_assoc,
        List.length_append, List.length_singleton, Nat.add_sub_add_right]

theorem toList_padded {w n : Nat} (hw : 0 < w) (hn : n < 10 ^ w) :
    (padded w n).toList = digits w n := by
  have hpushed : ∀ (k : Nat) (s : String),
      (Nat.repeat (fun s => s.push '0') k s).toList = s.toList ++ List.replicate k '0' := by
    intro k s
    induction k with
    | zero => simp [Nat.repeat]
    | succ k ih => simp [Nat.repeat, ih, List.replicate_succ']
  rw [digits_eq hw hn, padded, String.toList_append, String.pushn_eq_repeat_push, hpushed]
  simp [← String.length_toList]

theorem append_lt_append_iff {a b : List Char} (h : a.length = b.length) (c d : List Char) :
    a ++ c < b ++ d ↔ a < b ∨ a = b ∧ c < d := by
  induction a generalizing b with
  | nil =>
    obtain rfl := List.length_eq_zero_iff.mp h.symm
    simp
  | cons x a ih =>
    cases b with
    | nil => cases h
    | cons y b =>
      rw [List.cons_append, List.cons_append, List.cons_lt_cons_iff, List.cons_lt_cons_iff,
        ih (Nat.succ.inj h), List.cons.injEq]
      tauto

theorem digitChar_lt_iff {n k : Nat} (hn : n < 10) (hk : k < 10) :
    Nat.digitChar n < Nat.digitChar k ↔ n < k := by
  rw [Char.lt_def, UInt32.lt_iff_toNat_lt]
  show (Nat.digitChar n).toNat < (Nat.digitChar k).toNat ↔ _
  rw [Nat.toNat_digitChar_of_lt_ten hn, Nat.toNat_digitChar_of_lt_ten hk]
  omega

/-- Digits come after a sign. -/
theorem sign_lt_digits {sign : Char} (hsign : sign < '0') (cs ds : List Char) {w n : Nat}
    (hw : 0 < w) : sign :: cs < digits w n ++ ds := by
  induction w generalizing n ds with
  | zero => omega
  | succ w ih =>
    rw [digits, List.append_assoc]
    cases w with
    | zero =>
      refine List.cons_lt_cons_iff.mpr (.inl (Std.lt_of_lt_of_le hsign ?_))
      rw [Char.le_def, UInt32.le_iff_toNat_le]
      show 48 ≤ (Nat.digitChar (n % 10)).toNat
      rw [Nat.toNat_digitChar_of_lt_ten (Nat.mod_lt n (by decide))]
      omega
    | succ w => exact ih _ (Nat.succ_pos w)

theorem digits_inj {w n k : Nat} (hn : n < 10 ^ w) (hk : k < 10 ^ w) :
    digits w n = digits w k ↔ n = k := by
  refine ⟨fun h => ?_, fun h => h ▸ rfl⟩
  induction w generalizing n k with
  | zero => omega
  | succ w ih =>
    obtain ⟨hfront, hlast⟩ := List.append_inj h (by simp)
    have hless : ¬ n % 10 < k % 10 ∧ ¬ k % 10 < n % 10 := by
      have hdigits := List.singleton_inj.mp hlast
      rw [← digitChar_lt_iff (by omega) (by omega), ← digitChar_lt_iff (by omega) (by omega),
        hdigits]
      simp
    rw [Nat.pow_succ] at hn hk
    have := ih (n := n / 10) (k := k / 10) (by omega) (by omega) hfront
    omega

/-- Digits compare as the numbers do. -/
theorem digits_lt_iff {w n k : Nat} (hn : n < 10 ^ w) (hk : k < 10 ^ w) :
    digits w n < digits w k ↔ n < k := by
  induction w generalizing n k with
  | zero => simp [digits]; omega
  | succ w ih =>
    rw [Nat.pow_succ] at hn hk
    have hn' : n / 10 < 10 ^ w := by omega
    have hk' : k / 10 < 10 ^ w := by omega
    rw [digits, digits, append_lt_append_iff (by simp), ih hn' hk', digits_inj hn' hk',
      List.cons_lt_cons_iff, digitChar_lt_iff (by omega) (by omega)]
    simp only [List.not_lt_nil, and_false, or_false]
    omega

/-! ### Rows of numbers -/

/-- Numbers of fixed widths, each with a character behind it. -/
def spelled : List (Nat × Char) → List Nat → List Char
  | (w, c) :: format, n :: ns => digits w n ++ c :: spelled format ns
  | _, _ => []

/-- There are as many numbers as the format has, and none is wider. -/
def Fits (format : List (Nat × Char)) (ns : List Nat) : Prop :=
  List.Forall₂ (fun f n => n < 10 ^ f.1) format ns

/-- Texts of one format compare as their numbers do. -/
theorem spelled_lt_iff {format : List (Nat × Char)} {ns ks : List Nat} (hns : Fits format ns)
    (hks : Fits format ks) : spelled format ns < spelled format ks ↔ ns < ks := by
  unfold Fits at hns hks
  induction hns generalizing ks with
  | nil =>
    obtain rfl := List.forall₂_nil_left_iff.mp hks
    simp [spelled]
  | @cons f n format ns hn _ ih =>
    obtain ⟨k, rest, hk, hrest, rfl⟩ := List.forall₂_cons_left_iff.mp hks
    rw [spelled, spelled, append_lt_append_iff (by simp), digits_lt_iff hn hk, digits_inj hn hk,
      List.cons_lt_cons_iff, List.cons_lt_cons_iff, ih hrest]
    simp

/-! ### Years -/

theorem toList_padded_width {w n : Nat} (hw : 0 < w) :
    (padded w n).toList = digits (max w (Nat.toDigits 10 n).length) n := by
  have hwidth : padded w n = padded (max w (Nat.toDigits 10 n).length) n := by
    have hzeros : w - (toString n).length =
        max w (Nat.toDigits 10 n).length - (toString n).length := by
      rw [← String.length_toList, Nat.toString_eq_repr, Nat.toList_repr]
      omega
    show "".pushn '0' (w - (toString n).length) ++ toString n = _
    rw [hzeros]
    rfl
  rw [hwidth]
  exact toList_padded (by omega) ((Nat.length_toDigits_le_iff (by decide) (by omega)).mp (by omega))

/-- The text of a year and the dash behind it. -/
def yearStem (year : Int) : List Char := (yearText year).toList ++ ['-']

/-- What stands before the digits of a year. -/
def yearSign (year : Int) : List Char :=
  if 0 ≤ year ∧ year ≤ 9999 then [] else if year < 0 then ['-'] else ['+']

/-- How many digits a year has. -/
def yearWidth (year : Int) : Nat := max 4 (Nat.toDigits 10 year.natAbs).length

def isSign (c : Char) : Bool := c == '-' || c == '+'

variable {y z : Int}

theorem yearStem_eq (y : Int) :
    yearStem y = yearSign y ++ (digits (yearWidth y) y.natAbs ++ ['-']) := by
  unfold yearStem yearText yearSign yearWidth
  by_cases hfour : 0 ≤ y ∧ y ≤ 9999
  · have habs : y.toNat = y.natAbs := by omega
    simp [hfour, toList_padded_width, habs]
  · have hsigned : ¬ (decide (0 ≤ y) && decide (y ≤ 9999)) = true := by simpa using hfour
    rw [if_neg hfour, if_neg hsigned]
    split_ifs <;> simp [toList_padded_width]

theorem natAbs_lt_yearWidth (y : Int) : y.natAbs < 10 ^ yearWidth y :=
  (Nat.length_toDigits_le_iff (by decide) (by unfold yearWidth; omega)).mp (Nat.le_max_right _ _)

theorem isSign_yearSign : ∀ c ∈ yearSign y, isSign c = true := by
  unfold yearSign
  split_ifs <;> simp [isSign]

theorem not_isSign_digits {w n : Nat} : ∀ c ∈ digits w n, isSign c = false := by
  induction w generalizing n with
  | zero => exact fun _ hc => nomatch hc
  | succ w ih =>
    intro c hc
    rcases List.mem_append.mp hc with hc | hc
    · exact ih c hc
    · have hdigit : ∀ k < 10, isSign (Nat.digitChar k) = false := by decide
      exact List.mem_singleton.mp hc ▸ hdigit _ (Nat.mod_lt n (by decide))

/-- A text can be taken apart into signs, what follows up to the next sign, and the rest. -/
theorem signs_inj {a a' b b' e e' : List Char} (ha : ∀ c ∈ a, isSign c = true)
    (ha' : ∀ c ∈ a', isSign c = true) (hb : ∀ c ∈ b, isSign c = false)
    (hb' : ∀ c ∈ b', isSign c = false) (hne : b ≠ []) (hne' : b' ≠ [])
    (h : a ++ (b ++ '-' :: e) = a' ++ (b' ++ '-' :: e')) : a = a' ∧ b = b' := by
  have hsigns : ∀ {a b e : List Char}, (∀ c ∈ a, isSign c = true) → (∀ c ∈ b, isSign c = false) →
      b ≠ [] → (a ++ (b ++ '-' :: e)).takeWhile isSign = a := by
    intro a b e ha hb hne
    obtain ⟨c, rest, rfl⟩ := List.exists_cons_of_ne_nil hne
    rw [List.takeWhile_append_of_pos ha, List.cons_append,
      List.takeWhile_cons_of_neg (by simp [hb c List.mem_cons_self]), List.append_nil]
  have hrest : ∀ {b e : List Char}, (∀ c ∈ b, isSign c = false) →
      (b ++ '-' :: e).takeWhile (fun c => !isSign c) = b := by
    intro b e hb
    rw [List.takeWhile_append_of_pos fun c hc => by rw [hb c hc]; rfl,
      List.takeWhile_cons_of_neg (by simp [isSign]), List.append_nil]
  obtain rfl : a = a' := by
    rw [← hsigns (e := e) ha hb hne, h, hsigns ha' hb' hne']
  refine ⟨rfl, ?_⟩
  rw [← hrest (e := e) hb, List.append_cancel_left h, hrest hb']

theorem digits_ne_nil (y : Int) : digits (yearWidth y) y.natAbs ≠ [] := by
  refine List.ne_nil_of_length_pos ?_
  rw [length_digits]
  unfold yearWidth
  omega

/-- No year with the dash behind it begins another one. -/
theorem eq_of_yearStem_append {e e' : List Char} (h : yearStem y ++ e = yearStem z ++ e') :
    y = z := by
  simp only [yearStem_eq, List.append_assoc, List.singleton_append] at h
  obtain ⟨hsign, hdigits⟩ := signs_inj isSign_yearSign isSign_yearSign not_isSign_digits
    not_isSign_digits (digits_ne_nil y) (digits_ne_nil z) h
  have hwidth : yearWidth y = yearWidth z := by
    simpa using congrArg List.length hdigits
  have habs : y.natAbs = z.natAbs :=
    (digits_inj (natAbs_lt_yearWidth y) (hwidth ▸ natAbs_lt_yearWidth z)).mp
      (hdigits.trans (by rw [hwidth]))
  unfold yearSign at hsign
  split_ifs at hsign <;> first | omega | simp at hsign

/-- What follows does not decide, where neither text begins the other. -/
theorem append_lt_append_of_apart {a b : List Char} (h : ∀ c d, a ++ c ≠ b ++ d) (c d : List Char) :
    a ++ c < b ++ d ↔ a < b := by
  induction a generalizing b with
  | nil => exact absurd (List.append_nil b).symm (h b [])
  | cons x a ih =>
    cases b with
    | nil => exact absurd (List.append_nil _) (h [] (x :: a))
    | cons y b =>
      rw [List.cons_append, List.cons_append, List.cons_lt_cons_iff, List.cons_lt_cons_iff]
      refine or_congr_right (and_congr_right fun hxy => ih fun c d heq => h c d ?_)
      rw [List.cons_append, List.cons_append, hxy, heq]

/-- Different years decide. -/
theorem yearStem_append_lt_iff (hne : y ≠ z) (c d : List Char) :
    yearStem y ++ c < yearStem z ++ d ↔ yearStem y < yearStem z :=
  append_lt_append_of_apart (fun _ _ h => hne (eq_of_yearStem_append h)) c d

/-- The texts of two years are in the order of the years. -/
def YearsKept (y z : Int) : Prop :=
  (yearStem y < yearStem z ↔ y < z) ∧ (yearStem z < yearStem y ↔ z < y)

theorem yearStem_of_four (hy : 0 ≤ y) (hy' : y ≤ 9999) :
    yearStem y = digits 4 y.toNat ++ ['-'] := by
  have hfits : (padded 4 y.toNat).toList = digits 4 y.toNat := toList_padded (by decide) (by omega)
  unfold yearStem yearText
  simp [hy, hy', hfits]

theorem yearStem_lt_of_signed (hy : y < 0 ∨ 9999 < y) (hz : 0 ≤ z) (hz' : z ≤ 9999) :
    yearStem y < yearStem z := by
  have hnot : ¬ (0 ≤ y ∧ y ≤ 9999) := by omega
  rw [yearStem_of_four hz hz', yearStem_eq y]
  unfold yearSign
  rw [if_neg hnot]
  split
  · exact sign_lt_digits (by decide) _ _ (by decide)
  · exact sign_lt_digits (by decide) _ _ (by decide)

/-- Beside a year of four digits, exactly the years up to 9999 are where they belong. -/
theorem yearsKept_iff (hz : 0 ≤ z) (hz' : z ≤ 9999) : YearsKept y z ↔ y ≤ 9999 := by
  unfold YearsKept
  by_cases hsigned : y < 0 ∨ 9999 < y
  · have hlt := yearStem_lt_of_signed hsigned hz hz'
    have hnot : ¬ yearStem z < yearStem y := List.lt_asymm hlt
    simp only [hlt, hnot, true_iff, false_iff]
    omega
  · have hy : 0 ≤ y := by omega
    have hy' : y ≤ 9999 := by omega
    have hordered : ∀ {a b : Int}, 0 ≤ a → a ≤ 9999 → 0 ≤ b → b ≤ 9999 →
        (yearStem a < yearStem b ↔ a < b) := by
      intro a b ha ha' hb hb'
      rw [yearStem_of_four ha ha', yearStem_of_four hb hb', append_lt_append_iff (by simp),
        digits_lt_iff (by omega) (by omega)]
      simp only [List.lt_irrefl, and_false, or_false]
      omega
    exact iff_of_true ⟨hordered hy hy' hz hz', hordered hz hz' hy hy'⟩ hy'

end Quire.Time
