import Mathlib.Data.Fintype.EquivFin
import Mathlib.Logic.Function.Basic
import Quire.Proofs.Question.Requests

/-! The cache of questions is a memo table.

Calls that do not overlap are answered as from a table (`Memo`): a call is refused, or answered with
the list that is kept under its key, or answered by the generator that it brings, whose list is kept
from then on. The key is the owner, the words of the text and the parameters; the store only knows
its fingerprint, so the two agree as long as different keys have different fingerprints. -/
namespace Quire
open QuestionRequest (CollisionFree)

/-! ### The table -/

/-- The questions that are kept for each key; none if there was no call for it. -/
abbrev Memo := QuestionRequest.Key → List Question

/-- An answer, what generators were asked on the way, and the table afterwards. -/
structure Memo.Served (α : Type) where
  answer : α
  asked : List (String × QuestionParams)
  table : Memo

namespace Memo

def empty : Memo := fun _ => []

/-- How the table answers a call. -/
def serve (table : Memo) (r : QuestionRequest) : Served (Except GenerationError CachedQuestions) :=
  match r.refusal?, table r.key with
  | some e, _ => ⟨.error e, [], table⟩
  | none, [] =>
    match r.generator r.text r.params with
    | .error e => ⟨.error e, [(r.text, r.params)], table⟩
    | .ok questions =>
      ⟨.ok ⟨r.fingerprint, questions, false⟩, [(r.text, r.params)],
        Function.update table r.key questions⟩
  | none, kept => ⟨.ok ⟨r.fingerprint, kept, true⟩, [], table⟩

/-- How the table answers calls one after the other. -/
def serveAll (table : Memo) :
    List QuestionRequest → Served (List (Except GenerationError CachedQuestions))
  | [] => ⟨[], [], table⟩
  | r :: rest =>
    let first := table.serve r
    let others := first.table.serveAll rest
    ⟨first.answer :: others.answer, first.asked ++ others.asked, others.table⟩

section Serve
variable {table : Memo} {r : QuestionRequest}

theorem serve_refused {e : GenerationError} (h : r.refusal? = some e) :
    table.serve r = ⟨.error e, [], table⟩ := by
  unfold serve
  rw [h]

theorem serve_kept (hallowed : r.refusal? = none) (hsome : table r.key ≠ []) :
    table.serve r = ⟨.ok ⟨r.fingerprint, table r.key, true⟩, [], table⟩ := by
  unfold serve
  rw [hallowed]
  cases hkept : table r.key with
  | nil => exact absurd hkept hsome
  | cons q rest => rfl

theorem serve_failed (hallowed : r.refusal? = none) (hnone : table r.key = []) {e : GenerationError}
    (h : r.generator r.text r.params = .error e) :
    table.serve r = ⟨.error e, [(r.text, r.params)], table⟩ := by
  unfold serve
  rw [hallowed, hnone, h]

theorem serve_generated (hallowed : r.refusal? = none) (hnone : table r.key = [])
    {questions : List Question} (h : r.generator r.text r.params = .ok questions) :
    table.serve r = ⟨.ok ⟨r.fingerprint, questions, false⟩, [(r.text, r.params)],
      Function.update table r.key questions⟩ := by
  unfold serve
  rw [hallowed, hnone, h]

end Serve
end Memo

/-! ### Calls that do not overlap -/

/-- The identifiers that were given out, and what generators were asked. -/
structure Generating where
  ids : List String
  asked : List (String × QuestionParams)

/-- No identifier is given out twice, and questions come from a generator. -/
def Surroundings.generating
    (generator : String → QuestionParams → Except GenerationError (List Question)) :
    Surroundings Generating where
  allows
    | .freshId, x, id, x' => id ∉ x.ids ∧ x' = { x with ids := x.ids ++ [id] }
    | .generate text p, x, answer, x' =>
      answer = generator text p ∧ x' = { x with asked := x.asked ++ [(text, p)] }
    | _, x, _, x' => x' = x

/-- Calls one after the other, with their answers. -/
inductive Serves : List QuestionRequest → Moment Generating →
    List (Except GenerationError CachedQuestions) → Moment Generating → Prop
  | nil (m : Moment Generating) : Serves [] m [] m
  | cons {r : QuestionRequest} {rest : List QuestionRequest} {m m' m'' : Moment Generating}
      {answer : Except GenerationError CachedQuestions}
      {answers : List (Except GenerationError CachedQuestions)} :
      (Surroundings.generating r.generator).Runs r.run.run m answer m' →
      Serves rest m' answers m'' → Serves (r :: rest) m (answer :: answers) m''

theorem Surroundings.generating_live
    (generator : String → QuestionParams → Except GenerationError (List Question)) :
    (generating generator).Live := by
  refine Live.of_allows fun op x => ?_
  obtain ⟨b⟩ := op.nonempty
  cases op with
  | freshId =>
    obtain ⟨id, hid⟩ := Infinite.exists_notMem_finset x.ids.toFinset
    rw [List.mem_toFinset] at hid
    exact ⟨id, { x with ids := x.ids ++ [id] }, hid, rfl⟩
  | generate text p => exact ⟨_, { x with asked := x.asked ++ [(text, p)] }, rfl, rfl⟩
  | _ => exact ⟨b, x, rfl⟩

theorem Serves.exists (requests : List QuestionRequest) (m : Moment Generating) :
    ∃ answers m', Serves requests m answers m' := by
  induction requests generalizing m with
  | nil => exact ⟨[], m, .nil m⟩
  | cons r rest ih =>
    obtain ⟨answer, m', hrun⟩ :=
      Surroundings.Live.runs (Surroundings.generating_live r.generator) r.run.run m
    obtain ⟨answers, m'', hrest⟩ := ih m'
    exact ⟨answer :: answers, m'', .cons hrun hrest⟩

/-! ### The table in the store -/

/-- The store has what the table keeps for the keys of some calls; its artifacts have identifiers
that were given out. -/
structure Memo.Stored (table : Memo) (requests : List QuestionRequest) (m : Moment Generating) :
    Prop where
  entries : ∀ r ∈ requests, r.refusal? = none →
    List.Forall₂ ArtifactRow.Holds (m.1.entry r.ownerId r.fingerprint) (table r.key)
  ids : ∀ a ∈ m.1.artifacts, a.id ∈ m.2.ids

/-- The questions that an answer has brought. -/
def Memo.generated : Except GenerationError CachedQuestions → List Question
  | .ok ⟨_, questions, false⟩ => questions
  | _ => []

/-- A call was answered as from the table. The store is as it was, but for the questions that were
generated: each is an artifact behind all others. -/
structure Memo.Serving (table : Memo) (r : QuestionRequest) (m : Moment Generating)
    (answer : Except GenerationError CachedQuestions) (m' : Moment Generating) : Prop where
  agrees : answer = (table.serve r).answer
  asked : m'.2.asked = m.2.asked ++ (table.serve r).asked
  added : ∃ new, m'.1 = { m.1 with artifacts := m.1.artifacts ++ new } ∧
    List.Forall₂ ArtifactRow.Holds new (generated answer)

section Leads
variable {generator : String → QuestionParams → Except GenerationError (List Question)}

/-- Identifiers that were not given out before are given out, one for each of some things. -/
theorem QuestionCache.withIds_leads {ε α : Type} (things : List α) (s : Store) (x : Generating) :
    Run.Leads ((Surroundings.generating generator).keeping fun _ => True)
      (fun named m' => named.map (·.2) = things ∧ (named.map (·.1)).Nodup ∧
        (∀ id ∈ named.map (·.1), id ∉ x.ids) ∧
        m' = (s, { x with ids := x.ids ++ named.map (·.1) }))
      (fun _ _ => False) (withIds things : Run ε _) (s, x) := by
  induction things generalizing x with
  | nil => exact ⟨rfl, List.nodup_nil, by simp, by simp⟩
  | cons a rest ih =>
    unfold withIds
    refine Surroundings.leads_ask rfl ?_
    rintro id x' ⟨hid, rfl⟩
    refine (Run.Leads.bind _ _).mpr ((ih { x with ids := x.ids ++ [id] }).mono ?_ fun _ _ h => h)
    rintro named m' ⟨hthings, hnodup, hnew, rfl⟩
    refine ⟨by simp [hthings], ?_, ?_, by simp⟩
    · rw [List.map_cons, List.nodup_cons]
      exact ⟨fun hmem => hnew id hmem (by simp), hnodup⟩
    · intro id' hid'
      rcases List.mem_cons.mp hid' with rfl | hmem
      · exact hid
      · exact fun hold => hnew id' hmem (List.mem_append_left _ hold)

variable {table : Memo} {requests : List QuestionRequest} {r : QuestionRequest} {s : Store}
  {x : Generating}

/-- What is generated for a call is kept under its key, and the other entries are as they were. -/
theorem Memo.Stored.add (h : table.Stored requests (s, x)) (hfree : CollisionFree requests)
    (hr : r ∈ requests) (hallowed : r.refusal? = none) (hnone : table r.key = [])
    (named : List (String × Question)) (now : Instant) (asked : List (String × QuestionParams)) :
    Memo.Stored (Function.update table r.key (named.map (·.2))) requests
      ({ s with artifacts := s.artifacts ++ r.rows now named },
        ⟨x.ids ++ named.map (·.1), asked⟩) := by
  constructor
  · intro r' hr' hallowed'
    have hentry := h.entries r' hr' hallowed'
    unfold Store.entry at hentry ⊢
    rw [List.filter_append, QuestionRequest.entry_rows]
    by_cases hkey : r.key = r'.key
    · -- The call is for the same key: there was nothing yet.
      rw [← hkey, hnone, List.forall₂_nil_right_iff] at hentry
      rw [if_pos (QuestionRequest.fingerprint_of_key hkey), hentry, ← hkey,
        Function.update_self, List.nil_append]
      exact QuestionRequest.holds_rows
    · rw [if_neg fun hsame => hkey (hfree.key_eq hr hr' hallowed hallowed' hsame.1 hsame.2),
        List.append_nil, Function.update_of_ne fun hsame => hkey hsame.symm]
      exact hentry
  · intro a ha
    rcases List.mem_append.mp ha with hold | hnew
    · exact List.mem_append_left _ (h.ids a hold)
    · have hid := List.mem_map_of_mem (f := (·.id)) hnew
      rw [QuestionRequest.ids_rows] at hid
      exact List.mem_append_right _ hid

/-- A call for which nothing is kept asks its generator, once. -/
theorem Memo.Stored.generate_leads (h : table.Stored requests (s, x))
    (hfree : CollisionFree requests) (hr : r ∈ requests) (hallowed : r.refusal? = none)
    (hnone : table r.key = []) :
    Run.Leads ((Surroundings.generating r.generator).keeping fun _ => True)
      (fun c m' => table.Serving r (s, x) (.ok c) m' ∧ (table.serve r).table.Stored requests m')
      (fun e m' => table.Serving r (s, x) (.error e) m' ∧ (table.serve r).table.Stored requests m')
      (r.answer []) (s, x) := by
  rw [QuestionRequest.answer_nil]
  refine (Run.Leads.bind _ _).mpr ((Run.Leads.request _).mpr ?_)
  refine (Surroundings.asking_iff rfl).mpr ?_
  rintro outcome _ ⟨rfl, rfl⟩
  cases hgenerated : r.generator r.text r.params with
  | error e =>
    show table.Serving r (s, x) (.error e) _ ∧ _
    have hserve := table.serve_failed hallowed hnone hgenerated
    refine ⟨⟨?_, ?_, [], by simp, .nil⟩, ?_⟩
    · rw [hserve]
    · rw [hserve]
    · rw [hserve]
      exact ⟨h.entries, h.ids⟩
  | ok questions =>
    have hserve := table.serve_generated hallowed hnone hgenerated
    refine Surroundings.leads_ask rfl ?_
    rintro now _ rfl
    refine (Run.Leads.bind _ _).mpr ((QuestionCache.withIds_leads questions s _).mono ?_
      fun _ _ h => h.elim)
    rintro named _ ⟨rfl, hnodup, hnew, rfl⟩
    have hfresh : ∀ id ∈ named.map (·.1), s.hasArtifact id = false := by
      intro id hid
      rw [Store.hasArtifact, List.any_eq_false]
      intro a ha hsame
      exact hnew id hid (beq_iff_eq.mp hsame ▸ h.ids a ha)
    refine (Run.Leads.bind _ _).mpr ((Run.Leads.transact _).mpr ?_)
    refine (Surroundings.asking_transact _).mpr
      (Txn.wp_of_run (QuestionRequest.insert_rows hnodup hfresh) ⟨fun _ => trivial, ?_⟩)
    show table.Serving r (s, x) (.ok ⟨r.fingerprint, named.map (·.2), false⟩) _ ∧ _
    refine ⟨⟨?_, ?_, _, rfl, QuestionRequest.holds_rows⟩, ?_⟩
    · rw [hserve]
    · rw [hserve]
    · rw [hserve]
      exact h.add hfree hr hallowed hnone named now _

theorem Memo.Stored.leads (h : table.Stored requests (s, x)) (hfree : CollisionFree requests)
    (hr : r ∈ requests) :
    Run.Leads ((Surroundings.generating r.generator).keeping fun _ => True)
      (fun c m' => table.Serving r (s, x) (.ok c) m' ∧ (table.serve r).table.Stored requests m')
      (fun e m' => table.Serving r (s, x) (.error e) m' ∧ (table.serve r).table.Stored requests m')
      r.run (s, x) := by
  cases hrefusal : r.refusal? with
  | some e =>
    rw [QuestionRequest.run_eq_of_refused hrefusal, table.serve_refused hrefusal]
    refine (Run.Leads.throw e).mpr ⟨⟨?_, ?_, [], by simp, .nil⟩, h⟩
    · rw [table.serve_refused hrefusal]
    · rw [table.serve_refused hrefusal, List.append_nil]
  | none =>
    have hentry := h.entries r hr hrefusal
    by_cases hnone : table r.key = []
    · rw [hnone, List.forall₂_nil_right_iff] at hentry
      exact QuestionRequest.leads_none hrefusal hentry (h.generate_leads hfree hr hrefusal hnone)
    · rw [table.serve_kept hrefusal hnone]
      refine QuestionRequest.leads_kept hrefusal hentry hnone ⟨⟨?_, ?_, [], by simp, .nil⟩, h⟩
      · rw [table.serve_kept hrefusal hnone]
      · rw [table.serve_kept hrefusal hnone, List.append_nil]

end Leads

/-! ### Calls one after the other -/

section Histories
variable {table : Memo} {requests : List QuestionRequest} {m m' : Moment Generating}

/-- A call is answered as from the table, which is in the store afterwards as well. -/
theorem Memo.Stored.serving (h : table.Stored requests m) (hfree : CollisionFree requests)
    {r : QuestionRequest} (hr : r ∈ requests) {answer : Except GenerationError CachedQuestions}
    (hrun : (Surroundings.generating r.generator).Runs r.run.run m answer m') :
    table.Serving r m answer m' ∧ (table.serve r).table.Stored requests m' := by
  have hleads := Run.Leads.iff_run (Q := fun answer m' =>
    table.Serving r m answer m' ∧ (table.serve r).table.Stored requests m').mp (h.leads hfree hr)
  exact ((Surroundings.leads_iff r.run.run m trivial).mp hleads).2 answer m' hrun

/-- Calls one after the other are answered as from the table, and so would be the next one. -/
theorem Memo.Stored.serves (h : table.Stored requests m) (hfree : CollisionFree requests)
    {calls : List QuestionRequest} (hcalls : calls ⊆ requests)
    {answers : List (Except GenerationError CachedQuestions)} (hrun : Serves calls m answers m') :
    answers = (table.serveAll calls).answer ∧
      m'.2.asked = m.2.asked ++ (table.serveAll calls).asked ∧
      (table.serveAll calls).table.Stored requests m' := by
  induction hrun generalizing table with
  | nil m => exact ⟨rfl, (List.append_nil _).symm, h⟩
  | @cons r rest m m₁ m' answer answers hfirst _ ih =>
    obtain ⟨hserving, hstored⟩ := h.serving hfree (hcalls List.mem_cons_self) hfirst
    obtain ⟨hanswers, hasked, hrest⟩ :=
      ih hstored fun r' hr' => hcalls (List.mem_cons_of_mem r hr')
    refine ⟨?_, ?_, hrest⟩
    · rw [hserving.agrees, hanswers]
      rfl
    · rw [hasked, hserving.asked, List.append_assoc]
      rfl

/-- A store without artifacts has what is kept at the beginning: nothing. -/
theorem Memo.Stored.of_empty (h : m.1.artifacts = []) : Memo.empty.Stored requests m where
  entries r _ _ := by
    unfold Store.entry
    rw [h]
    exact .nil
  ids a ha := by
    rw [h] at ha
    exact absurd ha List.not_mem_nil

end Histories

/-! ### Owners -/

/-- The answers to the calls of an owner. -/
def answersOf {α : Type} (ownerId : String) (requests : List QuestionRequest) (answers : List α) :
    List α :=
  ((requests.zip answers).filter fun x => x.1.ownerId == ownerId).map (·.2)

/-- A call is answered from what is kept for its owner. -/
theorem Memo.serve_congr {table table' : Memo} {r : QuestionRequest}
    (h : ∀ key : QuestionRequest.Key, key.ownerId = r.ownerId → table key = table' key) :
    (table.serve r).answer = (table'.serve r).answer ∧
      ∀ key : QuestionRequest.Key, key.ownerId = r.ownerId →
        (table.serve r).table key = (table'.serve r).table key := by
  have hkey : table r.key = table' r.key := h r.key rfl
  cases hrefusal : r.refusal? with
  | some e =>
    rw [serve_refused hrefusal, serve_refused hrefusal]
    exact ⟨rfl, h⟩
  | none =>
    by_cases hnone : table r.key = []
    · have hnone' : table' r.key = [] := hkey ▸ hnone
      cases hgenerated : r.generator r.text r.params with
      | error e =>
        rw [serve_failed hrefusal hnone hgenerated, serve_failed hrefusal hnone' hgenerated]
        exact ⟨rfl, h⟩
      | ok questions =>
        rw [serve_generated hrefusal hnone hgenerated, serve_generated hrefusal hnone' hgenerated]
        refine ⟨rfl, fun key howner => ?_⟩
        show Function.update table r.key questions key = Function.update table' r.key questions key
        rw [Function.update_apply, Function.update_apply, h key howner]
    · rw [serve_kept hrefusal hnone, serve_kept hrefusal (hkey ▸ hnone), hkey]
      exact ⟨rfl, h⟩

/-- What is kept for an owner changes with the calls of that owner only. -/
theorem Memo.serve_table_of_ne {table : Memo} {r : QuestionRequest} {key : QuestionRequest.Key}
    (h : key.ownerId ≠ r.ownerId) : (table.serve r).table key = table key := by
  unfold serve
  split
  · rfl
  · split
    · rfl
    · exact Function.update_of_ne (fun hkey => h (congrArg (·.ownerId) hkey)) _ _
  · rfl

/-- An owner is answered as if there were no calls of others. -/
theorem Memo.serveAll_owner (ownerId : String) (requests : List QuestionRequest)
    {table table' : Memo}
    (h : ∀ key : QuestionRequest.Key, key.ownerId = ownerId → table key = table' key) :
    answersOf ownerId requests (table.serveAll requests).answer =
      (table'.serveAll (requests.filter (·.ownerId == ownerId))).answer := by
  induction requests generalizing table table' with
  | nil => rfl
  | cons r rest ih =>
    by_cases howner : r.ownerId = ownerId
    · obtain ⟨hanswer, htables⟩ := serve_congr (r := r) (by rw [howner]; exact h)
      rw [howner] at htables
      have hrest := ih htables
      simp only [answersOf] at hrest ⊢
      simp [serveAll, howner, hanswer, hrest]
    · have hkept : ∀ key : QuestionRequest.Key, key.ownerId = ownerId →
          (table.serve r).table key = table' key := by
        intro key hkey
        rw [serve_table_of_ne (fun hsame => howner (hsame.symm.trans hkey)), h key hkey]
      have hrest := ih hkept
      simp only [answersOf] at hrest ⊢
      simp [serveAll, howner, hrest]

/-! ### The cache is the table -/

/-- From a store without artifacts, calls that do not overlap can be made and are answered as from
the table. Every entry holds, in the order in which it was generated, what the table keeps; the
generators were asked what the table asks; the next call, too, is answered as from the table and
changes nothing in the store, but adds the questions that it brings. And an owner is answered as if
nobody else had called. -/
theorem cache_is_memo_table {s : Store} (hs : s.artifacts = []) (x : Generating)
    {requests : List QuestionRequest} (hfree : CollisionFree requests) :
    (∃ answers m, Serves requests (s, x) answers m) ∧
      ∀ answers m, Serves requests (s, x) answers m →
        answers = (Memo.empty.serveAll requests).answer ∧
        m.2.asked = x.asked ++ (Memo.empty.serveAll requests).asked ∧
        (∀ r ∈ requests, r.refusal? = none →
          List.Forall₂ ArtifactRow.Holds (m.1.entry r.ownerId r.fingerprint)
            ((Memo.empty.serveAll requests).table r.key)) ∧
        (∀ r, CollisionFree (requests ++ [r]) → ∀ answer m',
          (Surroundings.generating r.generator).Runs r.run.run m answer m' →
          (Memo.empty.serveAll requests).table.Serving r m answer m') ∧
        ∀ ownerId answers' m',
          Serves (requests.filter (·.ownerId == ownerId)) (s, x) answers' m' →
          answersOf ownerId requests answers = answers' := by
  refine ⟨Serves.exists requests (s, x), fun answers m hrun => ?_⟩
  have hstart : ∀ requests, Memo.empty.Stored requests (s, x) := fun _ => .of_empty hs
  obtain ⟨hanswers, hasked, hstored⟩ := (hstart requests).serves hfree (fun _ hr => hr) hrun
  refine ⟨hanswers, hasked, hstored.entries, ?_, ?_⟩
  · intro r hfree' answer m' hnext
    obtain ⟨-, -, hstored'⟩ :=
      (hstart (requests ++ [r])).serves hfree' (List.subset_append_left requests [r]) hrun
    have hr : r ∈ requests ++ [r] := List.mem_append_right requests List.mem_cons_self
    exact (hstored'.serving hfree' hr hnext).1
  · intro ownerId answers' m' hown
    obtain ⟨hanswers', -, -⟩ := (hstart requests).serves hfree (List.filter_subset_self _) hown
    rw [hanswers, hanswers']
    exact Memo.serveAll_owner ownerId requests fun _ _ => rfl

/-! A call, one of somebody else for the same text, the first one again with other blanks, and one
without a text. -/
namespace Remembered

def question : Question := ⟨"Why?", [], "Because.", none⟩

def call (ownerId text : String) : QuestionRequest :=
  ⟨ownerId, none, text, .standard, fun _ _ => .ok [question]⟩

def calls : List QuestionRequest :=
  [call "ann" "a text", call "bob" "a text", call "ann" " a  text", call "ann" " "]

def answers : List (Except GenerationError CachedQuestions) :=
  [.ok ⟨(call "ann" "a text").fingerprint, [question], false⟩,
    .ok ⟨(call "bob" "a text").fingerprint, [question], false⟩,
    .ok ⟨(call "ann" " a  text").fingerprint, [question], true⟩,
    .error (.invalidParams "no source text to generate from")]

/-- All that is hashed is one message. -/
theorem collisionFree : CollisionFree calls := by
  have hmessage : ∀ r ∈ calls, r.refusal? = none → r.message = (call "ann" "a text").message := by
    decide +kernel
  rintro _ ⟨r, hr, hallowed, rfl⟩ _ ⟨r', hr', hallowed', rfl⟩ -
  rw [hmessage r hr hallowed, hmessage r' hr' hallowed']

theorem served : (Memo.empty.serveAll calls).answer = answers ∧
    (Memo.empty.serveAll calls).asked = [("a text", .standard), ("a text", .standard)] :=
  ⟨rfl, rfl⟩

end Remembered

theorem second_call_is_remembered :
    Store.empty.artifacts = [] ∧ CollisionFree Remembered.calls ∧
      ∃ m, Serves Remembered.calls (Store.empty, ⟨[], []⟩) Remembered.answers m ∧
        m.2.asked = [("a text", .standard), ("a text", .standard)] := by
  obtain ⟨⟨answers, m, hrun⟩, hall⟩ :=
    cache_is_memo_table (s := Store.empty) rfl ⟨[], []⟩ Remembered.collisionFree
  obtain ⟨hanswers, hasked, -⟩ := hall answers m hrun
  rw [Remembered.served.1] at hanswers
  rw [Remembered.served.2] at hasked
  exact ⟨rfl, Remembered.collisionFree, m, hanswers ▸ hrun, hasked⟩

end Quire
