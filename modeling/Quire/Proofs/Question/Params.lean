import Quire.Proofs.Json.Objects
import Quire.Question.Basic

/-! What is wanted of questions: which numbers of them are allowed, and that a job reads what it was
given. -/
namespace Quire
open Json (Origin Shape Record)

namespace Json.Shape

variable {α : Type} {origin : Origin}

theorem word32_ofNat (n : UInt32) :
    word32 origin (.number (some (.integer n.toNat))) = .ok n :=
  Json.word32_ofNat n

@[simp] theorem discard_ok (a : α) : (discard (Except.ok a) : Except Fault PUnit) = .ok ⟨⟩ := rfl

section
variable {inner : Shape α} {f : α → Json} {as : List α}

theorem items_outlines (h : ∀ a ∈ as, inner origin (f a).toOutline = .ok a) :
    items inner origin (outlines (as.map f)) = .ok as := by
  induction as with
  | nil => rfl
  | cons a rest ih =>
    have hrest := ih fun b hb => h b (List.mem_cons_of_mem a hb)
    rw [List.map_cons, outlines, items, h a List.mem_cons_self, hrest]
    rfl

/-- A list is read if each of its items is. -/
theorem list_outlines (h : ∀ a ∈ as, inner origin (f a).toOutline = .ok a) :
    list inner origin (.array (outlines (as.map f)) true) = .ok as := by
  rw [list, items_outlines h]
  rfl

end

end Json.Shape

theorem QuestionType.read_toJson (t : QuestionType) :
    (Label.shape : Shape QuestionType) .value (.text (some (Label.word t))) = .ok t := by
  cases t <;> rfl

theorem Difficulty.read_toJson (d : Difficulty) :
    (Label.shape : Shape Difficulty) .value (.text (some (Label.word d))) = .ok d := by
  cases d <;> rfl

/-! ### The number of questions -/

theorem QuestionParams.check_ok {q : QuestionParams} (h : 1 ≤ q.count ∧ q.count ≤ 50) :
    q.check = .ok () := by
  obtain ⟨hlow, hhigh⟩ := h
  rw [UInt32.le_iff_toNat_le] at hlow hhigh
  unfold check
  rw [if_neg]
  simp only [Bool.or_eq_true, beq_iff_eq, decide_eq_true_eq, UInt32.lt_iff_toNat_lt, maxCount,
    ← UInt32.toNat_inj, not_or]
  exact ⟨Nat.ne_of_gt hlow, Nat.not_lt.mpr hhigh⟩

theorem QuestionParams.check_error {q : QuestionParams} (h : ¬ (1 ≤ q.count ∧ q.count ≤ 50)) :
    q.check = .error
      (.invalidParams s!"count must be between 1 and 50, got {q.count.toNat}") := by
  rw [UInt32.le_iff_toNat_le, UInt32.le_iff_toNat_le] at h
  unfold check
  rw [if_pos]
  · rfl
  · simp only [Bool.or_eq_true, beq_iff_eq, decide_eq_true_eq, UInt32.lt_iff_toNat_lt, maxCount,
      ← UInt32.toNat_inj]
    have hone : (1 : UInt32).toNat = 1 := rfl
    have hzero : (0 : UInt32).toNat = 0 := rfl
    omega

/-! ### What a job is given -/

namespace GenerationJobParams
variable (p : GenerationJobParams)

/-- The fields stand in the order of their names. -/
theorem outline_toJson : p.toJson.toOutline = .object
    [(some "count", .number (some (.integer p.questions.count.toNat))),
      (some "difficulty", .text (some (Label.word p.questions.difficulty))),
      (some "question_type", .text (some (Label.word p.questions.questionType))),
      (some "version_id", .text (some p.versionId))] true := rfl

theorem isDurable_toJson : p.toJson.isDurable = true := rfl

theorem read_toJson : Json.readValue shape p.toJson = .ok p := by
  unfold Json.readValue
  rw [outline_toJson]
  simp [shape, QuestionParams.record, Record.flattened, Record.sift, Record.fill, Record.required,
    Record.optional, Record.aliased, Record.field, Functor.map, Seq.seq, Record.map, Record.seq,
    Record.ofMembers, Record.gather, bind, Except.bind, pure, Except.pure, Shape.any,
    Json.Outline.toJson, Shape.ended, Record.slotsOf, Shape.string, Shape.word32_ofNat,
    QuestionType.read_toJson, Difficulty.read_toJson]

end GenerationJobParams
end Quire
