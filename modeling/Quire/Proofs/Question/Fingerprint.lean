import Mathlib.Data.List.Basic
import Quire.Proofs.Text.Cut
import Quire.Question.Fingerprint

/-! What a fingerprint is taken of.

The words of a text are the words of the text that is hashed, so the layout is all that is lost.
Behind the words stand the parameters, without anything between them; yet nothing is lost of them
either: the last letter tells the difficulty, the digits before it are the number, since no kind
of questions ends with a digit, and the last letter of the rest tells the kind. -/
namespace Quire

/-! ### Words -/

namespace Text

theorem pieces_append {w rest : List Char} {c : Char} (hw : ∀ a ∈ w, isBlank a = false)
    (hc : isBlank c = true) : pieces (w ++ c :: rest) = w :: pieces rest := by
  induction w with
  | nil => simp [pieces, hc]
  | cons a w ih =>
    have ha : isBlank a = false := hw a List.mem_cons_self
    rw [List.cons_append, pieces, ih fun b hb => hw b (List.mem_cons_of_mem a hb)]
    simp [ha]

theorem pieces_of_unblank {w : List Char} (hw : ∀ a ∈ w, isBlank a = false) : pieces w = [w] := by
  induction w with
  | nil => rfl
  | cons a w ih =>
    have ha : isBlank a = false := hw a List.mem_cons_self
    rw [pieces, ih fun b hb => hw b (List.mem_cons_of_mem a hb)]
    simp [ha]

theorem unblank_of_mem_pieces {cs p : List Char} (hp : p ∈ pieces cs) :
    ∀ a ∈ p, isBlank a = false := by
  induction cs generalizing p with
  | nil =>
    obtain rfl : p = [] := by simpa [pieces] using hp
    simp
  | cons c rest ih =>
    rw [pieces] at hp
    split at hp
    case isTrue =>
      rcases List.mem_cons.mp hp with rfl | hp
      · simp
      · exact ih hp
    case isFalse hc =>
      have hc' : isBlank c = false := by simpa using hc
      split at hp
      case h_1 q qs hrest =>
        rcases List.mem_cons.mp hp with rfl | hp
        · intro a ha
          rcases List.mem_cons.mp ha with rfl | ha
          · exact hc'
          · exact ih (hrest ▸ List.mem_cons_self) a ha
        · exact ih (hrest ▸ List.mem_cons_of_mem q hp)
      case h_2 =>
        obtain rfl : p = [c] := by simpa using hp
        simpa using hc'

/-- A word is not empty and has no blank. -/
def IsWord (w : String) : Prop := w.toList ≠ [] ∧ ∀ a ∈ w.toList, isBlank a = false

theorem isWord_of_mem_words {s w : String} (h : w ∈ words s) : IsWord w := by
  obtain ⟨p, hp, rfl⟩ := List.mem_map.mp h
  obtain ⟨hmem, hne⟩ := List.mem_filter.mp hp
  rw [IsWord, String.toList_ofList]
  exact ⟨by simpa using hne, unblank_of_mem_pieces hmem⟩

/-- Words with one blank between them are the words of what they make up. -/
theorem words_intercalate {ws : List String} (h : ∀ w ∈ ws, IsWord w) :
    words (" ".intercalate ws) = ws := by
  have hblank : isBlank ' ' = true := by decide
  induction ws with
  | nil => rfl
  | cons w rest ih =>
    obtain ⟨hne, hunblank⟩ := h w List.mem_cons_self
    have hrest := ih fun v hv => h v (List.mem_cons_of_mem w hv)
    cases rest with
    | nil => simp [words, pieces_of_unblank hunblank, hne]
    | cons v rest =>
      unfold words at hrest ⊢
      have hspace : (w ++ " " ++ " ".intercalate (v :: rest)).toList =
          w.toList ++ ' ' :: (" ".intercalate (v :: rest)).toList := by simp
      rw [String.intercalate_cons_cons, hspace, pieces_append hunblank hblank, List.filter_cons,
        if_pos (by simpa using hne), List.map_cons, hrest, String.ofList_toList]

/-- A text is blank if and only if it has no words. -/
theorem isEmptyOrBlank_iff (s : String) : isEmptyOrBlank s = true ↔ words s = [] := by
  have hpieces : ∀ cs : List Char, cs.all isBlank = true ↔ (pieces cs).filter (! ·.isEmpty) = [] := by
    intro cs
    induction cs with
    | nil => simp [pieces]
    | cons c rest ih =>
      rw [List.all_cons, pieces]
      cases hc : isBlank c with
      | true => simpa using ih
      | false =>
        simp only [Bool.false_and, Bool.false_eq_true, false_iff, if_false]
        split
        · simp
        · simp
  unfold isEmptyOrBlank words
  rw [hpieces, List.map_eq_nil_iff]

end Text

/-! ### Fingerprints -/

namespace Fingerprint

theorem normalized_inj {text text' : String} (h : normalized text = normalized text') :
    Text.words text = Text.words text' := by
  have hwords := congrArg Text.words h
  unfold normalized at hwords
  rw [Text.words_intercalate fun _ => Text.isWord_of_mem_words,
    Text.words_intercalate fun _ => Text.isWord_of_mem_words] at hwords
  exact hwords

/-- The last letter of a word of a difficulty. -/
def lastOfDifficulty : Difficulty → Char
  | .easy => 'y'
  | .medium => 'm'
  | .hard => 'd'

/-- The last letter of a word of a kind of questions. -/
def lastOfType : QuestionType → Char
  | .mcq => 'q'
  | .openEnded => 'd'
  | .trueFalse => 'e'
  | .fillInBlank => 'k'

theorem getLast?_difficulty (d : Difficulty) (before : List Char) :
    (before ++ (Label.word d).toList).getLast? = some (lastOfDifficulty d) := by
  cases d <;> simp [Label.word, lastOfDifficulty]

theorem getLast?_type (t : QuestionType) (before : List Char) :
    (before ++ (Label.word t).toList).getLast? = some (lastOfType t) := by
  cases t <;> simp [Label.word, lastOfType]

/-- The name of a type does not end with a digit. -/
theorem not_digit_of_type (t : QuestionType) (before : List Char) :
    ∀ x ∈ (before ++ (Label.word t).toList).getLast?, x.isDigit = false := by
  rw [getLast?_type]
  intro x hx
  rw [← Option.some.inj hx]
  cases t <;> rfl

/-- What ends with digits behind something else has no further digits before them. -/
theorem eq_nil_of_digits {a c : List Char} (hc : ∀ x ∈ c, x.isDigit = true)
    (h : ∀ x ∈ (a ++ c).getLast?, x.isDigit = false) : c = [] := by
  rcases List.eq_nil_or_concat c with rfl | ⟨front, x, rfl⟩
  · rfl
  · have hdigit : x.isDigit = true := hc x (by simp)
    have hnone : x.isDigit = false := h x (by simp)
    rw [hdigit] at hnone
    cases hnone

theorem append_digits_inj {a b ds es : List Char} (hds : ∀ x ∈ ds, x.isDigit = true)
    (hes : ∀ x ∈ es, x.isDigit = true) (ha : ∀ x ∈ a.getLast?, x.isDigit = false)
    (hb : ∀ x ∈ b.getLast?, x.isDigit = false) (h : a ++ ds = b ++ es) : a = b ∧ ds = es := by
  rcases List.append_eq_append_iff.mp h with ⟨c, rfl, rfl⟩ | ⟨c, rfl, rfl⟩
  · obtain rfl := eq_nil_of_digits (fun x hx => hds x (List.mem_append_left es hx)) hb
    simp
  · obtain rfl := eq_nil_of_digits (fun x hx => hes x (List.mem_append_left ds hx)) ha
    simp

theorem toList_count (n : Nat) : (toString n).toList = Nat.toDigits 10 n := Nat.toList_repr

theorem count_inj {n k : Nat} (h : (toString n).toList = (toString k).toList) : n = k := by
  rw [toList_count, toList_count] at h
  rw [← @Nat.ofDigitChars_ten_toDigits n, h, Nat.ofDigitChars_ten_toDigits]

/-- Nothing that a fingerprint is for is lost in the text that is hashed. -/
theorem subject_inj {text text' : String} {p p' : QuestionParams}
    (h : subject text p = subject text' p') : Text.words text = Text.words text' ∧ p = p' := by
  obtain ⟨kind, count, difficulty⟩ := p
  obtain ⟨kind', count', difficulty'⟩ := p'
  have hlist : (normalized text).toList ++ (Label.word kind).toList ++
        (toString count.toNat).toList ++ (Label.word difficulty).toList =
      (normalized text').toList ++ (Label.word kind').toList ++
        (toString count'.toNat).toList ++ (Label.word difficulty').toList := by
    simpa [subject] using congrArg String.toList h
  have hdifficulty : difficulty = difficulty' := by
    have hlast := congrArg List.getLast? hlist
    rw [getLast?_difficulty, getLast?_difficulty] at hlast
    cases difficulty <;> cases difficulty' <;> first | rfl | simp [lastOfDifficulty] at hlast
  subst hdifficulty
  have hcounted := List.append_cancel_right hlist
  obtain ⟨hkinds, hcounts⟩ := append_digits_inj (Text.isDigit_of_mem_toString _)
    (Text.isDigit_of_mem_toString _) (not_digit_of_type kind _) (not_digit_of_type kind' _) hcounted
  have hkind : kind = kind' := by
    have hlast := congrArg List.getLast? hkinds
    rw [getLast?_type, getLast?_type] at hlast
    cases kind <;> cases kind' <;> first | rfl | simp [lastOfType] at hlast
  subst hkind
  have hcount : count = count' := UInt32.toNat_inj.mp (count_inj hcounts)
  have hwords := normalized_inj (String.toList_inj.mp (List.append_cancel_right hkinds))
  exact ⟨hwords, by rw [hcount]⟩

/-- The bytes that are hashed. -/
def message (text : String) (p : QuestionParams) : List UInt8 :=
  (subject text p).toUTF8.data.toList

/-- What is hashed is the same for the same words and the same parameters, and for no others. -/
theorem message_eq_iff {text text' : String} {p p' : QuestionParams} :
    message text p = message text' p' ↔ Text.words text = Text.words text' ∧ p = p' := by
  constructor
  · intro h
    have hbytes : (subject text p).toUTF8 = (subject text' p').toUTF8 :=
      ByteArray.ext (Array.toList_inj.mp h)
    exact subject_inj (String.toByteArray_inj.mp hbytes)
  · rintro ⟨hwords, rfl⟩
    unfold message subject normalized
    rw [hwords]

/-- **A fingerprint distinguishes words and parameters, and nothing else.** What is hashed for two
requests is the same if and only if their texts have the same words and their parameters agree;
and so is the fingerprint, unless the two messages are a collision of the hash. -/
theorem distinguishes (text text' : String) (p p' : QuestionParams) :
    (message text p = message text' p' ↔ Text.words text = Text.words text' ∧ p = p') ∧
      ((Digest.sha256 (message text p) = Digest.sha256 (message text' p') →
          message text p = message text' p') →
        (of text p = of text' p' ↔ Text.words text = Text.words text' ∧ p = p')) := by
  refine ⟨message_eq_iff, fun hfree => ⟨fun h => ?_, fun h => ?_⟩⟩
  · exact message_eq_iff.mp (hfree h)
  · exact congrArg Digest.sha256 (message_eq_iff.mpr h)

/-- A digit at the end of a text is not taken for one of the number of questions. -/
theorem distinguishes_digits :
    (message "Bees 1" ⟨.mcq, 2, .easy⟩ = message "Bees" ⟨.mcq, 12, .easy⟩ ↔
        Text.words "Bees 1" = Text.words "Bees" ∧
          (⟨.mcq, 2, .easy⟩ : QuestionParams) = ⟨.mcq, 12, .easy⟩) ∧
      of "Bees 1" ⟨.mcq, 2, .easy⟩ ≠ of "Bees" ⟨.mcq, 12, .easy⟩ := by
  have hsettled := distinguishes "Bees 1" "Bees" ⟨.mcq, 2, .easy⟩ ⟨.mcq, 12, .easy⟩
  have hdiffer : Digest.sha256 (message "Bees 1" ⟨.mcq, 2, .easy⟩) ≠
      Digest.sha256 (message "Bees" ⟨.mcq, 12, .easy⟩) := by
    decide +kernel
  refine ⟨hsettled.1, fun hsame => ?_⟩
  have hwords := (hsettled.2 fun h => absurd h hdiffer).mp hsame
  exact absurd (congrArg QuestionParams.count hwords.2) (by decide)

end Fingerprint
end Quire
