import Quire.Proofs.Flow.Runs
import Quire.Proofs.Question.Fingerprint
import Quire.Proofs.Store.Reading
import Quire.Question.Cache
import Quire.Proofs.Question.Params
import Quire.Question.Basic

/-! What the store has of an entry of the cache.

An entry is made up of the artifacts of an owner and a fingerprint, one for each question, in the
order in which they were added. They are read as the questions that were stored, and what is added
for one entry shows in no other. -/
namespace Quire
open Txn

/-! ### Questions

A question is stored without the fields that have no content; when it is read, what is missing has
no content again. -/

section Questions
open Json (Shape Record)

namespace Json

@[simp] theorem Shape.string_text (t : String) (origin : Origin) :
    Shape.string origin (.text (some t)) = .ok t := rfl

theorem Shape.list_texts (texts : List String) :
    Shape.list .string .value (.array (outlines (texts.map .text)) true) = .ok texts :=
  list_outlines fun _ _ => rfl

theorem Shape.option_word32 (n : UInt32) :
    Shape.option .word32 .value (.number (some (.integer n.toNat))) = .ok (some n) := by
  simp [Shape.option, Shape.word32_ofNat, bind, Except.bind, pure, Except.pure]

theorem anyReal_texts (texts : List String) : anyReal (texts.map .text) = false := by
  induction texts with
  | nil => rfl
  | cons t rest ih => rw [List.map_cons, anyReal, ih]; rfl

theorem itemsDepth_texts (texts : List String) : itemsDepth (texts.map .text) = 0 := by
  induction texts with
  | nil => rfl
  | cons t rest ih => rw [List.map_cons, itemsDepth, ih]; rfl

end Json

namespace Question
variable (q : Question)

/-- The fields that have content, in the order of their names. -/
def members : List (String × Json) :=
  [("answer_key", .text q.answerKey)] ++
    (q.correctIndex.map fun i => ("correct_index", Json.ofNat i.toNat)).toList ++
    (if q.options.isEmpty then [] else [("options", .array (q.options.map .text))]) ++
    [("question_text", .text q.text)]

theorem toJson_eq : q.toJson = .object q.members := by
  obtain ⟨text, options, answerKey, correctIndex⟩ := q
  cases options <;> cases correctIndex <;> rfl

theorem read_toJson : Json.readValue shape q.toJson = .ok q := by
  rw [toJson_eq]
  obtain ⟨text, options, answerKey, correctIndex⟩ := q
  by_cases hnone : options = []
  · subst hnone
    cases correctIndex <;>
      simp [members, Json.readValue, Json.toOutline, Json.memberOutlines, Json.ofNat, shape,
        Record.shape, Record.ofMembers, Record.gather, Record.fill, Record.aliased,
        Record.optional, Record.field, Record.map, Record.seq, Functor.map, Seq.seq, Shape.ended,
        Shape.option_word32, bind, Except.bind, pure, Except.pure]
  · cases correctIndex <;>
      simp [hnone, members, Json.readValue, Json.toOutline, Json.memberOutlines, Json.ofNat, shape,
        Record.shape, Record.ofMembers, Record.gather, Record.fill, Record.aliased,
        Record.optional, Record.field, Record.map, Record.seq, Functor.map, Seq.seq, Shape.ended,
        Shape.list_texts, Shape.option_word32, bind, Except.bind, pure, Except.pure]

theorem isDurable_toJson : q.toJson.isDurable = true := by
  rw [toJson_eq]
  obtain ⟨text, options, answerKey, correctIndex⟩ := q
  cases options <;> cases correctIndex <;>
    simp [members, Json.isDurable, Json.hasReal, Json.anyMemberReal, Json.anyReal, Json.depth,
      Json.membersDepth, Json.itemsDepth, Json.ofNat, Json.anyReal_texts, Json.itemsDepth_texts,
      Json.depthLimit]

end Question

end Questions

/-! ### Rows of an entry -/

/-- The artifact holds a question. -/
def ArtifactRow.Holds (a : ArtifactRow) (q : Question) : Prop := a.payload = .ofJson q.toJson

/-- The artifacts of an owner and a fingerprint. -/
def Store.entry (s : Store) (ownerId fingerprint : String) : List ArtifactRow :=
  s.artifacts.filter fun a => a.ownerId == ownerId && a.sourceHash == fingerprint

/-- The store has an artifact of an id. -/
def Store.hasArtifact (s : Store) (id : String) : Bool := s.artifacts.any (·.id == id)

/-- The row of an artifact. -/
def Artifact.row (a : Artifact) : ArtifactRow where
  id := a.id
  ownerId := a.ownerId
  documentId := a.documentId
  sourceHash := a.sourceHash
  kind := a.kind
  payload := .ofJson a.payload
  createdAt := a.createdAt

/-! ### Reading -/

theorem ArtifactRow.Holds.read {a : ArtifactRow} {q : Question} (h : a.Holds q) :
    ∃ artifact, a.read = .ok artifact ∧ QuestionCache.questionOf artifact = .ok q := by
  have hpayload : a.payload.read = .ok q.toJson := by
    rw [h]
    exact StoredJson.read_ofJson q.isDurable_toJson
  refine ⟨⟨a.id, a.ownerId, a.documentId, a.sourceHash, a.kind, q.toJson, a.createdAt⟩, ?_, ?_⟩
  · simp [ArtifactRow.read, hpayload, bind, Except.bind, pure, Except.pure]
  · simp [QuestionCache.questionOf, q.read_toJson]

theorem ArtifactRow.exists_read {rows : List ArtifactRow} {questions : List Question}
    (h : List.Forall₂ Holds rows questions) : ∃ kept, rows.mapM read = .ok kept ∧
      List.Forall₂ (fun a q => QuestionCache.questionOf a = .ok q) kept questions := by
  induction h with
  | nil => exact ⟨[], rfl, .nil⟩
  | cons hhead _ ih =>
    obtain ⟨a, ha, hq⟩ := hhead.read
    obtain ⟨kept, hread, hquestions⟩ := ih
    refine ⟨a :: kept, ?_, .cons hq hquestions⟩
    rw [List.mapM_cons, ha, hread]
    rfl

/-- An entry is read as the questions that it holds. -/
theorem Artifacts.find_run {s : Store} {ownerId fingerprint : String} {questions : List Question}
    (h : List.Forall₂ ArtifactRow.Holds (s.entry ownerId fingerprint) questions) :
    ∃ kept, (find ownerId fingerprint).run s = (.ok kept, s) ∧
      kept.mapM QuestionCache.questionOf = .ok questions ∧ (kept = [] ↔ questions = []) := by
  obtain ⟨kept, hread, hquestions⟩ := ArtifactRow.exists_read h
  refine ⟨kept, ?_, mapM_eq_ok.mpr hquestions, ?_⟩
  · have hfind : find ownerId fingerprint s =
        (ofExcept ((s.entry ownerId fingerprint).mapM ArtifactRow.read) : Txn StoreError _) s := rfl
    unfold run
    rw [hfind, hread]
    rfl
  · rw [← List.length_eq_zero_iff, ← List.length_eq_zero_iff, hquestions.length_eq]

/-! ### Adding -/

theorem Artifacts.insert_run {a : Artifact} {s : Store} (hnew : s.hasArtifact a.id = false) :
    (insert a).run s = (.ok (), { s with artifacts := s.artifacts ++ [a.row] }) := by
  rw [← wp_eq_run]
  unfold insert
  rw [wp_bind, wp_store, wp_bind, wp_require, wp_modify]
  unfold Store.hasArtifact at hnew
  exact ⟨fun _ => rfl, fun hthere => by simp [hnew] at hthere⟩

/-- Artifacts with ids of their own are added behind all others. -/
theorem Artifacts.insertAll_run {artifacts : List Artifact} {s : Store}
    (hown : (artifacts.map (·.id)).Nodup) (hnew : ∀ a ∈ artifacts, s.hasArtifact a.id = false) :
    (insertAll artifacts).run s =
      (.ok (), { s with artifacts := s.artifacts ++ artifacts.map Artifact.row }) := by
  induction artifacts generalizing s with
  | nil =>
    rw [List.map_nil, List.append_nil]
    rfl
  | cons a rest ih =>
    rw [List.map_cons, List.nodup_cons] at hown
    have hrest : ∀ b ∈ rest,
        ({ s with artifacts := s.artifacts ++ [a.row] } : Store).hasArtifact b.id = false := by
      intro b hb
      have hne : a.id ≠ b.id := fun hid => hown.1 (hid ▸ List.mem_map_of_mem hb)
      have hold : s.artifacts.any (·.id == b.id) = false := hnew b (List.mem_cons_of_mem a hb)
      simp [Store.hasArtifact, hold, Artifact.row, hne]
    rw [← wp_eq_run]
    unfold insertAll
    rw [wp_bind]
    refine wp_of_run (insert_run (hnew a List.mem_cons_self)) ?_
    refine wp_of_run (ih hown.2 hrest) ?_
    simp

/-! ### What a call adds -/

namespace QuestionCache
variable {ownerId : String} {documentId : Option String} {fingerprint : String}
  {p : QuestionParams} {now : String}

/-- The artifacts of a call hold its questions. -/
theorem holds_artifactsOf (named : List (String × Question)) :
    List.Forall₂ ArtifactRow.Holds
      ((artifactsOf ownerId documentId fingerprint p now named).map Artifact.row)
      (named.map (·.2)) := by
  induction named with
  | nil => exact .nil
  | cons x rest ih => exact .cons rfl ih

theorem ids_artifactsOf (named : List (String × Question)) :
    (artifactsOf ownerId documentId fingerprint p now named).map (·.id) = named.map (·.1) := by
  simp [artifactsOf]

/-- They are in the entry that they were generated for, and in no other. -/
theorem entry_artifactsOf (named : List (String × Question)) (ownerId' fingerprint' : String) :
    ((artifactsOf ownerId documentId fingerprint p now named).map Artifact.row).filter
        (fun a => a.ownerId == ownerId' && a.sourceHash == fingerprint') =
      if ownerId = ownerId' ∧ fingerprint = fingerprint' then
        (artifactsOf ownerId documentId fingerprint p now named).map Artifact.row
      else [] := by
  induction named with
  | nil => simp [artifactsOf]
  | cons x rest ih =>
    rw [show artifactsOf ownerId documentId fingerprint p now (x :: rest) =
      ⟨x.1, ownerId, documentId, fingerprint, Label.word p.questionType, x.2.toJson, now⟩ ::
        artifactsOf ownerId documentId fingerprint p now rest from rfl, List.map_cons,
      List.filter_cons, ih]
    by_cases hsame : ownerId = ownerId' ∧ fingerprint = fingerprint'
    · simp [hsame, Artifact.row]
    · simp [hsame, Artifact.row]

end QuestionCache

end Quire
