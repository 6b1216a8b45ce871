import Quire.Proofs.Question.Memo

/-! The stages of a call on the cache.

A call looks for what is kept; it has found something and is done, or it waits for its generator,
is given an id for each question and adds all of them at once. `tracking` says what a call may ask
at each stage and to which stage the answer leads, whatever others do to the store in between; and
a call goes through its stages in this way (`QuestionRequest.tracked`). -/
namespace Quire

/-- The fingerprint that the calls of a key share. -/
def QuestionRequest.Key.fingerprint (key : Key) : String :=
  Digest.sha256 (" ".intercalate key.words ++ Label.word key.params.questionType ++
    toString key.params.count.toNat ++ Label.word key.params.difficulty).toUTF8.data.toList

/-- The artifacts of a key. -/
def Store.kept (s : Store) (key : QuestionRequest.Key) : List ArtifactRow :=
  s.entry key.ownerId key.fingerprint

/-- The generator of a call has questions for it. -/
def QuestionRequest.Yields (r : QuestionRequest) (questions : List Question) : Prop :=
  r.generator r.text r.params = .ok questions ∧ questions ≠ []

/-- How far a call has come. -/
inductive Stage
  | begun
  /-- Nothing was kept; these ids were given out to the call since then. -/
  | missed (ids : List String)
  /-- Its questions were added. -/
  | added (questions : List Question)
  /-- These questions were kept. -/
  | found (questions : List Question)

namespace Stage

/-- The stage after a call has found questions, or none. -/
def ofKept : List Question → Stage
  | [] => missed []
  | q :: rest => found (q :: rest)

/-- The ids that a call is going to use. -/
def ids : Stage → List String
  | missed ids => ids
  | _ => []

/-- The questions that a call has added. -/
def brought? : Stage → Option (List Question)
  | added questions => some questions
  | _ => none

/-- What is true of a call at a stage, where some lists were added behind what was there before. -/
def Agrees (before : List Question) (lists : List (List Question)) : Stage → Prop
  | begun => True
  | missed _ => before = []
  | added _ => before = []
  | found questions =>
    questions ≠ [] ∧ ∃ first, first <+: lists ∧ questions = before ++ first.flatten

/-- What a call answers at the end. -/
def answer? (fingerprint : String) : Stage → Option CachedQuestions
  | added questions => some ⟨fingerprint, questions, false⟩
  | found questions => some ⟨fingerprint, questions, true⟩
  | _ => none

theorem ids_ofKept (questions : List Question) : (ofKept questions).ids = [] := by
  cases questions <;> rfl

theorem brought?_ofKept (questions : List Question) : (ofKept questions).brought? = none := by
  cases questions <;> rfl

/-- What is found is all that is there. -/
theorem agrees_ofKept (before : List Question) (lists : List (List Question)) :
    (ofKept (before ++ lists.flatten)).Agrees before lists := by
  cases hkept : before ++ lists.flatten with
  | nil => exact (List.append_eq_nil_iff.mp hkept).1
  | cons q rest => exact ⟨List.cons_ne_nil q rest, lists, List.prefix_rfl, hkept.symm⟩

/-- Lists that are added later do not matter. -/
theorem Agrees.add {before : List Question} {lists : List (List Question)} {stage : Stage}
    (h : stage.Agrees before lists) (questions : List Question) :
    stage.Agrees before (lists ++ [questions]) := by
  cases stage with
  | found found =>
    obtain ⟨hsome, first, hfirst, hfound⟩ := h
    exact ⟨hsome, first, hfirst.trans (List.prefix_append lists [questions]), hfound⟩
  | _ => exact h

end Stage

/-- What a call may ask at a stage, and the stage after the answer. -/
def QuestionRequest.tracking (r : QuestionRequest) (questions : List Question) : Reading Stage where
  asking e K stage :=
    match e, stage with
    | @Effect.transact _ _ _ t, .begun =>
      ∀ s stored, List.Forall₂ ArtifactRow.Holds (s.kept r.key) stored →
      ∃ o, t.run s = (o, s) ∧ K o (.ofKept stored)
    | .generate text p, .missed ids => K (r.generator text p) (.missed ids)
    | .clock, .missed ids => ∀ now, K now (.missed ids)
    | .freshId, .missed ids => ∀ id, K id (.missed (ids ++ [id]))
    | @Effect.transact _ _ _ t, .missed ids =>
      ∀ s, ids.Nodup → (∀ id ∈ ids, s.hasArtifact id = false) →
      ∃ o now named, t.run s = (o, { s with artifacts := s.artifacts ++ r.rows now named }) ∧
        named.map (·.1) = ids ∧ named.map (·.2) = questions ∧ K o (.added questions)
    | _, _ => False
  mono e stage hK h := by
    cases e <;> cases stage <;> first
      | exact h.elim
      | exact hK _ _ h
      | exact fun answer => hK _ _ (h answer)
      | exact fun s stored hstored =>
          let ⟨o, hrun, hleads⟩ := h s stored hstored
          ⟨o, hrun, hK _ _ hleads⟩
      | exact fun s hown hnew =>
          let ⟨o, now, named, hrun, hids, hquestions, hleads⟩ := h s hown hnew
          ⟨o, now, named, hrun, hids, hquestions, hK _ _ hleads⟩

/-- A call answers with what it has found or added. -/
def QuestionRequest.Answered (r : QuestionRequest) (answer : Except GenerationError CachedQuestions)
    (stage : Stage) : Prop :=
  ∃ c, stage.answer? r.key.fingerprint = some c ∧ answer = .ok c

section Tracking
variable {r : QuestionRequest} {questions : List Question}

/-- Ids are given out, one for each of some things. -/
theorem QuestionCache.withIds_tracked {ε α : Type} (things : List α) (ids : List String) :
    Run.Leads (r.tracking questions)
      (fun named stage => named.map (·.2) = things ∧
        stage = .missed (ids ++ named.map (·.1)))
      (fun _ _ => False) (withIds things : Run ε _) (.missed ids) := by
  induction things generalizing ids with
  | nil => exact ⟨rfl, by simp⟩
  | cons a rest ih =>
    unfold withIds
    refine (Run.Leads.bind _ _).mpr ((Run.Leads.perform _).mpr fun id => ?_)
    refine (Run.Leads.bind _ _).mpr ((ih (ids ++ [id])).mono ?_ fun _ _ h => h)
    rintro named stage ⟨rfl, rfl⟩
    exact ⟨rfl, by simp⟩

/-- Questions are added under the ids that were given out for them. -/
theorem QuestionRequest.keep_tracked (r : QuestionRequest) (questions : List Question) :
    Run.Leads (r.tracking questions) (fun c stage => r.Answered (.ok c) stage)
      (fun e stage => r.Answered (.error e) stage) (r.keep questions) (.missed []) := by
  unfold keep
  refine (Run.Leads.bind _ _).mpr ((Run.Leads.perform _).mpr fun now => ?_)
  refine (Run.Leads.bind _ _).mpr ((QuestionCache.withIds_tracked questions []).mono ?_
    fun _ _ h => h.elim)
  rintro named stage ⟨hquestions, rfl⟩
  refine (Run.Leads.bind _ _).mpr ((Run.Leads.transact _).mpr fun s hown hnew => ?_)
  exact ⟨_, now, named, insert_rows hown hnew, rfl, hquestions, _, rfl, rfl⟩

/-- A call that is not refused goes through its stages. -/
theorem QuestionRequest.tracked (hallowed : r.refusal? = none) (hyields : r.Yields questions) :
    Flow.Leads (r.tracking questions) r.Answered r.run.run .begun := by
  refine Run.Leads.iff_run.mp ?_
  rw [run_eq_of_allowed hallowed]
  refine (Run.Leads.bind _ _).mpr ((Run.Leads.transact _).mpr fun s stored hstored => ?_)
  obtain ⟨kept, hfind, hread, hempty⟩ := Artifacts.find_run hstored
  refine ⟨_, hfind, ?_⟩
  cases stored with
  | nil =>
    obtain rfl : kept = [] := hempty.mpr rfl
    show Run.Leads _ _ _ (r.answer []) (Stage.missed [])
    rw [answer_nil]
    refine (Run.Leads.bind _ _).mpr ((Run.Leads.request _).mpr ?_)
    show Either _ _ (r.generator r.text r.params) (Stage.missed [])
    rw [hyields.1]
    exact r.keep_tracked questions
  | cons q rest =>
    show Run.Leads _ _ _ (r.answer kept) (Stage.found (q :: rest))
    rw [r.answer_kept hread fun hkept => List.cons_ne_nil q rest (hempty.mp hkept)]
    exact ⟨_, rfl, rfl⟩

end Tracking
end Quire
