import Mathlib.Data.Set.Function
import Quire.Proofs.Question.Entries

/-! What is asked of the cache of questions.

A request comes with its generator. It is refused, answered with what is kept for it, or answered
with what is generated; what is kept is found under a fingerprint. Requests with different keys
have different fingerprints as long as no two of their messages have the same digest. -/
namespace Quire

/-- A call on the cache, with the generator that it brings. -/
structure QuestionRequest where
  ownerId : String
  documentId : Option String
  text : String
  params : QuestionParams
  generator : String → QuestionParams → Except GenerationError (List Question)

namespace QuestionRequest

/-- What a call is for. -/
structure Key where
  ownerId : String
  words : List String
  params : QuestionParams
  deriving DecidableEq

def key (r : QuestionRequest) : Key := ⟨r.ownerId, Text.words r.text, r.params⟩

def fingerprint (r : QuestionRequest) : String := Fingerprint.of r.text r.params

/-- Why a call is refused: a number that is not allowed, or a text without words. -/
def refusal? (r : QuestionRequest) : Option GenerationError :=
  if ¬ (1 ≤ r.params.count ∧ r.params.count ≤ 50) then
    some (.invalidParams s!"count must be between 1 and 50, got {r.params.count.toNat}")
  else if Text.words r.text = [] then some (.invalidParams "no source text to generate from")
  else none

/-- What is hashed for a call. -/
def message (r : QuestionRequest) : List UInt8 :=
  (Fingerprint.subject r.text r.params).toUTF8.data.toList

/-- The rows that a call adds for questions with their ids. -/
def rows (r : QuestionRequest) (now : Instant) (named : List (String × Question)) :
    List ArtifactRow :=
  (QuestionCache.artifactsOf r.ownerId r.documentId r.fingerprint r.params now.timestamp named).map
    Artifact.row

/-! ### What a call does -/

/-- A call does this. -/
def run (r : QuestionRequest) : Run GenerationError CachedQuestions :=
  QuestionCache.getOrGenerate r.ownerId r.documentId r.text r.params

/-- Questions are kept from now on, and are the answer. -/
def keep (r : QuestionRequest) (questions : List Question) : Run GenerationError CachedQuestions := do
  let now ← Run.clock
  let named ← QuestionCache.withIds questions
  Run.transact (Artifacts.insertAll (QuestionCache.artifactsOf r.ownerId r.documentId
    r.fingerprint r.params now.timestamp named))
  return ⟨r.fingerprint, questions, false⟩

/-- What is kept is the answer; if there is nothing, questions are generated. -/
def answer (r : QuestionRequest) (kept : List Artifact) : Run GenerationError CachedQuestions :=
  if ! kept.isEmpty then do
    return ⟨r.fingerprint, ← Run.ofExcept (kept.mapM QuestionCache.questionOf), true⟩
  else Run.request (.generate r.text r.params) >>= r.keep

theorem run_eq (r : QuestionRequest) :
    r.run = Run.ofExcept (QuestionCache.check r.text r.params) >>= fun _ =>
      Run.transact (Artifacts.find r.ownerId r.fingerprint) >>= r.answer := rfl

theorem check_eq (r : QuestionRequest) :
    QuestionCache.check r.text r.params =
      match r.refusal? with
      | some e => .error e
      | none => .ok () := by
  unfold QuestionCache.check refusal?
  by_cases hcount : 1 ≤ r.params.count ∧ r.params.count ≤ 50
  · rw [QuestionParams.check_ok hcount, if_neg (not_not.mpr hcount)]
    by_cases hwords : Text.words r.text = []
    · rw [if_pos hwords]
      show (if Text.isEmptyOrBlank r.text = true then _ else _) = _
      rw [if_pos ((Text.isEmptyOrBlank_iff _).mpr hwords)]
    · rw [if_neg hwords]
      show (if Text.isEmptyOrBlank r.text = true then _ else _) = _
      rw [if_neg fun hblank => hwords ((Text.isEmptyOrBlank_iff _).mp hblank)]
  · rw [QuestionParams.check_error hcount, if_pos hcount]
    rfl

/-- A call that is not refused looks for what is kept. -/
theorem run_eq_of_allowed {r : QuestionRequest} (hallowed : r.refusal? = none) :
    r.run = Run.transact (Artifacts.find r.ownerId r.fingerprint) >>= r.answer := by
  rw [run_eq, check_eq, hallowed]
  rfl

/-- A call that is refused does nothing else. -/
theorem run_eq_of_refused {r : QuestionRequest} {e : GenerationError} (hrefused : r.refusal? = some e) :
    r.run = throw e := by
  rw [run_eq, check_eq, hrefused]
  rfl

theorem answer_nil (r : QuestionRequest) :
    r.answer [] = Run.request (.generate r.text r.params) >>= r.keep := rfl

theorem answer_kept (r : QuestionRequest) {kept : List Artifact} {questions : List Question}
    (hread : kept.mapM QuestionCache.questionOf = .ok questions) (hsome : kept ≠ []) :
    r.answer kept = pure ⟨r.fingerprint, questions, true⟩ := by
  unfold answer
  rw [if_pos (by simp [hsome]), hread]
  rfl

section Leads
variable {σ : Type} {w : Surroundings σ} {I : Store → Prop} {r : QuestionRequest}
  {Q : CachedQuestions → Moment σ → Prop} {E : GenerationError → Moment σ → Prop} {s : Store} {x : σ}

/-- A call for which something is kept returns it. -/
theorem leads_kept (hallowed : r.refusal? = none) {questions : List Question}
    (hkept : List.Forall₂ ArtifactRow.Holds (s.entry r.ownerId r.fingerprint) questions)
    (hsome : questions ≠ []) (hQ : Q ⟨r.fingerprint, questions, true⟩ (s, x)) :
    Run.Leads (w.keeping I) Q E r.run (s, x) := by
  obtain ⟨kept, hfind, hread, hempty⟩ := Artifacts.find_run hkept
  rw [run_eq_of_allowed hallowed]
  refine (Run.Leads.bind _ _).mpr ((Run.Leads.transact _).mpr ?_)
  refine (Surroundings.asking_transact _).mpr (Txn.wp_of_run hfind ⟨fun hI => hI, ?_⟩)
  show Run.Leads _ _ _ (r.answer kept) (s, x)
  rw [r.answer_kept hread fun hnone => hsome (hempty.mp hnone)]
  exact hQ

/-- A call for which nothing is kept goes on with its generator. -/
theorem leads_none (hallowed : r.refusal? = none) (hnone : s.entry r.ownerId r.fingerprint = [])
    (h : Run.Leads (w.keeping I) Q E (r.answer []) (s, x)) :
    Run.Leads (w.keeping I) Q E r.run (s, x) := by
  have hkept : List.Forall₂ ArtifactRow.Holds (s.entry r.ownerId r.fingerprint) [] := by
    rw [hnone]
    exact .nil
  obtain ⟨kept, hfind, -, hempty⟩ := Artifacts.find_run hkept
  obtain rfl : kept = [] := hempty.mpr rfl
  rw [run_eq_of_allowed hallowed]
  refine (Run.Leads.bind _ _).mpr ((Run.Leads.transact _).mpr ?_)
  exact (Surroundings.asking_transact _).mpr (Txn.wp_of_run hfind ⟨fun hI => hI, h⟩)

end Leads

/-! ### Keys and fingerprints -/

/-- No two messages that are hashed for the calls have the same digest. -/
def CollisionFree (requests : List QuestionRequest) : Prop :=
  Set.InjOn Digest.sha256 {message | ∃ r ∈ requests, r.refusal? = none ∧ message = r.message}

/-- Calls of one key are for one entry. -/
theorem fingerprint_of_key {r r' : QuestionRequest} (hkey : r.key = r'.key) :
    r.ownerId = r'.ownerId ∧ r.fingerprint = r'.fingerprint := by
  obtain ⟨howner, hwords, hparams⟩ := Key.mk.inj hkey
  refine ⟨howner, ?_⟩
  unfold fingerprint Fingerprint.of Fingerprint.subject Fingerprint.normalized
  rw [hwords, hparams]

/-- Calls for one entry are of one key. -/
theorem CollisionFree.key_eq {requests : List QuestionRequest} (hfree : CollisionFree requests)
    {r r' : QuestionRequest} (hr : r ∈ requests) (hr' : r' ∈ requests) (hallowed : r.refusal? = none)
    (hallowed' : r'.refusal? = none) (howner : r.ownerId = r'.ownerId)
    (hsame : r.fingerprint = r'.fingerprint) : r.key = r'.key := by
  have hmessage : r.message = r'.message :=
    hfree ⟨r, hr, hallowed, rfl⟩ ⟨r', hr', hallowed', rfl⟩ hsame
  have hsubject : Fingerprint.subject r.text r.params = Fingerprint.subject r'.text r'.params :=
    String.toByteArray_inj.mp (ByteArray.ext (Array.toList_inj.mp hmessage))
  obtain ⟨hwords, hparams⟩ := Fingerprint.subject_inj hsubject
  unfold key
  rw [howner, hwords, hparams]

end QuestionRequest

/-! ### What a call adds -/

namespace QuestionRequest
variable {r : QuestionRequest} {now : Instant} {named : List (String × Question)}

theorem holds_rows : List.Forall₂ ArtifactRow.Holds (r.rows now named) (named.map (·.2)) :=
  QuestionCache.holds_artifactsOf named

theorem ids_rows : (r.rows now named).map (·.id) = named.map (·.1) := by
  simp [rows, QuestionCache.artifactsOf, Artifact.row]

theorem entry_rows (r' : QuestionRequest) :
    (r.rows now named).filter
        (fun a => a.ownerId == r'.ownerId && a.sourceHash == r'.fingerprint) =
      if r.ownerId = r'.ownerId ∧ r.fingerprint = r'.fingerprint then r.rows now named else [] :=
  QuestionCache.entry_artifactsOf named r'.ownerId r'.fingerprint

/-- Rows with ids that nothing has yet are added behind all others. -/
theorem insert_rows {s : Store} (hown : (named.map (·.1)).Nodup)
    (hnew : ∀ id ∈ named.map (·.1), s.hasArtifact id = false) :
    (Artifacts.insertAll (QuestionCache.artifactsOf r.ownerId r.documentId r.fingerprint r.params
        now.timestamp named)).run s =
      (.ok (), { s with artifacts := s.artifacts ++ r.rows now named }) := by
  have hids : (QuestionCache.artifactsOf r.ownerId r.documentId r.fingerprint r.params
      now.timestamp named).map (·.id) = named.map (·.1) := QuestionCache.ids_artifactsOf named
  refine Artifacts.insertAll_run (hids.symm ▸ hown) fun a ha => hnew a.id ?_
  rw [← hids]
  exact List.mem_map_of_mem ha

end QuestionRequest
end Quire
