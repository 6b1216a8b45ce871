import Quire.Proofs.Flow.Company
import Quire.Proofs.Job.Lock

/-! What strangers learn of a document, and what they change: nothing.

Whoever asks for an operation on a document that belongs to somebody else, or is not there, is
refused before anything is looked at but the owner. So the answer depends on the owner alone; no
upload, object or provider is asked for anything, and no transaction leaves a trace. -/
namespace Quire
open Txn

/-! ### Refused transactions -/

/-- The document of an id can be read, if it is there. -/
def Store.Shows (s : Store) (d : String) : Prop :=
  ∀ r ∈ s.documents, r.id = d → ∃ document, r.read = .ok document

section
variable {ε α β : Type} {s : Store}

/-- The transaction fails with `e`. -/
def Txn.Refuses (t : Txn ε α) (s : Store) (e : ε) : Prop :=
  t.wp (fun _ _ => False) (· = e) s

/-- What follows a transaction that fails does not matter. -/
theorem Txn.Refuses.bind {t : Txn ε β} {e : ε} (h : t.Refuses s e) (k : β → Txn ε α) :
    (t >>= k).Refuses s e :=
  (wp_bind t k).mpr (wp_mono h (fun _ _ h => h.elim) fun _ h => h)

theorem Txn.Refuses.run {t : Txn ε α} {e : ε} (h : t.Refuses s e) : t.run s = (.error e, s) :=
  wp_eq_run.mp (wp_mono h (fun _ _ h => h.elim) fun _ h => h ▸ rfl)

end

namespace Pipeline
variable {s : Store} {d caller : String}

/-- What somebody is told who is not the owner: whether the document is there. -/
def denial (d : String) : (owner : Option String) → PipelineError
  | none => .notFound .document d
  | some _ => .forbidden

/-- Whether a document is handed out depends on its owner alone. -/
theorem ownDocument_refuses (hshows : s.Shows d) (hstranger : s.ownerOf d ≠ some caller) :
    (ownDocument d caller).Refuses s (denial d (s.ownerOf d)) := by
  unfold Txn.Refuses ownDocument Documents.find Store.ownerOf at *
  rw [wp_bind, wp_widen, wp_bind, wp_store]
  cases hfound : s.documents.find? (·.id == d) with
  | none => exact rfl
  | some r =>
    rw [hfound] at hstranger
    have hid : r.id = d := by simpa using List.find?_some hfound
    obtain ⟨document, hread⟩ := hshows r (List.mem_of_find?_eq_some hfound) hid
    have howner : document.ownerId = r.ownerId := (DocumentRow.shows_of_read hread).ownerId
    have hother : ¬ document.ownerId = caller := fun h => hstranger (by simp [← h, howner])
    simp [hread, hother, denial]

theorem lockDocument_refuses (hshows : s.Shows d) (hstranger : s.ownerOf d ≠ some caller)
    (jobId : String) (now : Instant) (heartbeat : Respite) :
    (lockDocument d caller jobId now heartbeat).Refuses s (denial d (s.ownerOf d)) :=
  (ownDocument_refuses hshows hstranger).bind _

theorem editPage_refuses (hshows : s.Shows d) (hstranger : s.ownerOf d ≠ some caller)
    (pageNo : UInt32) (text : Option String) (now : String) :
    (editPage d caller pageNo text now).Refuses s (denial d (s.ownerOf d)) :=
  (ownDocument_refuses hshows hstranger).bind _

theorem publishDraft_refuses (hshows : s.Shows d) (hstranger : s.ownerOf d ≠ some caller)
    (o : PublishOptions) (ids : PublishIds) (now : Instant) (heartbeat : Respite) :
    (publishDraft d caller o ids now heartbeat).Refuses s (denial d (s.ownerOf d)) :=
  ((ownDocument_refuses hshows hstranger).bind _).bind _

end Pipeline

/-! ### Refused runs -/

/-- A question that is put to nobody outside: to the store, to the clock, or for a new
identifier. -/
def Effect.isInward {β : Type} : Effect β → Bool
  | @Effect.transact _ _ _ _ | .clock | .freshId => true
  | _ => false

/-- Nothing comes of a run but the failure `e`, whatever answers its questions: it comes to an end
if they are answered, asks nobody outside, and the store is the same at every moment. -/
structure Run.Refused {ε α : Type} (r : Run ε α) (s : Store) (e : ε) : Prop where
  fails {σ : Type} (w : Surroundings σ) (x : σ) : ∀ o m, w.Runs r.run (s, x) o m → o = .error e
  ends {σ : Type} (w : Surroundings σ) (x : σ) : w.Live → ∃ m, w.Runs r.run (s, x) (.error e) m
  asks {σ β : Type} (w : Surroundings σ) (x : σ) : ∀ (op : Effect β) next m,
    w.Reaches r.run (s, x) (.ask op next) m → op.isInward = true
  stays {σ : Type} (w : Surroundings σ) (x : σ) : ∀ m, w.Passes r.run (s, x) m → m.1 = s

/-- Nobody outside is asked, and transactions leave the store as it is. -/
def Dialogue.idle (s : Store) : Dialogue :=
  Dialogue.among ⟨fun _ _ t => (t.run s).2 = s, fun e => e.isInward = true, fun _ _ => True⟩ (· = s)

/-- The run asks nothing that changes anything, and fails with `e`. -/
-- Irreducible, so that no application of a rule makes Lean run a flow.
@[irreducible]
def Run.Denies {ε α : Type} (s : Store) (e : ε) (r : Run ε α) : Prop :=
  r.run.Abides (.idle s) (· = .error e)

namespace Run.Denies
variable {ε ε' α β : Type} {s : Store} {e : ε}

theorem iff_leads {r : Run ε α} : r.Denies s e ↔
    Run.Leads (Dialogue.idle s).reading (fun _ _ => False) (fun e' _ => e' = e) r () := by
  unfold Run.Denies
  rw [Flow.Abides.iff_leads, ← Run.Leads.iff_run]
  simp

theorem inquire (op : Effect β) (hop : (Dialogue.idle s).Allows op) {k : β → Run ε α}
    (hk : ∀ b, (k b).Denies s e) : (Run.perform op >>= k).Denies s e :=
  iff_leads.mpr ((Run.Leads.bind _ _).mpr
    ((Run.Leads.perform op).mpr ⟨hop, fun b _ => iff_leads.mp (hk b)⟩))

theorem throw_bind {k : β → Run ε α} : (MonadExcept.throw e >>= k : Run ε α).Denies s e :=
  iff_leads.mpr rfl

theorem bind {r : Run ε β} (h : r.Denies s e) (k : β → Run ε α) : (r >>= k).Denies s e :=
  iff_leads.mpr ((Run.Leads.bind r k).mpr
    ((iff_leads.mp h).mono (fun _ _ h => h.elim) fun _ _ h => h))

theorem transact [Widen StoreError ε'] [Widen ε' ε] {t : Txn ε' α} {e' : ε'} (h : t.Refuses s e')
    (he : Widen.widen e' = e) : Denies s e (Run.transact t : Run ε α) := by
  refine iff_leads.mpr ((Run.Leads.transact t).mpr ⟨congrArg Prod.snd h.run, ?_⟩)
  rintro o ⟨⟨_, rfl, ho⟩, -⟩
  rw [h.run] at ho
  subst ho
  exact he

theorem refused {r : Run ε α} (h : r.Denies s e) : r.Refused s e := by
  have hkeeps {ε α : Type} {t : Txn ε α} (ht : (Dialogue.idle s).issues ε α t) : t.Keeps (· = s) := by
    rintro _ rfl
    exact (wp_iff_run t).mpr ⟨fun _ _ => ht, fun _ _ => trivial⟩
  have hreaches {σ : Type} {w : Surroundings σ} {x : σ} {g : Flow (Except ε α)} {m : Moment σ}
      (hg : w.Reaches r.run (s, x) g m) : g.Abides (.idle s) (· = .error e) ∧ m.1 = s := by
    unfold Run.Denies at h
    exact hg.abides hkeeps (fun op m b n hm hb => ⟨op.gives_of_answers hm hb, trivial⟩) h rfl
  have hfails {σ : Type} {w : Surroundings σ} {x : σ} {o : Except ε α} {m : Moment σ}
      (hrun : w.Runs r.run (s, x) o m) : o = .error e := by
    have hdone := (hreaches hrun.reaches).1
    rwa [Flow.Abides.done] at hdone
  refine ⟨fun w x o m hrun => hfails hrun, fun w x hw => ?_, fun w x op next m hasks => ?_,
    fun w x m hpasses => ?_⟩
  · obtain ⟨o, m, hrun⟩ := hw.runs r.run (s, x)
    obtain rfl := hfails hrun
    exact ⟨m, hrun⟩
  · have hallows := (Flow.Abides.ask.mp (hreaches hasks).1).1
    cases op <;> first | rfl | exact hallows
  · obtain ⟨g, hg⟩ := hpasses.reaches
    exact (hreaches hg).2

end Run.Denies

/-! ### The operations -/

namespace Pipeline
variable {s : Store} {d caller : String}

theorem ingest_refused (p : Pipeline) (hshows : s.Shows d) (hstranger : s.ownerOf d ≠ some caller) :
    (p.ingest d caller).Refused s (denial d (s.ownerOf d)) := by
  rw [ingest_eq]
  refine Run.Denies.refused (.inquire .freshId rfl fun id => ?_)
  refine .inquire .clock rfl fun now => ?_
  exact Run.Denies.bind (.transact (lockDocument_refuses hshows hstranger id now _) rfl) _

theorem saveEdit_refused (hshows : s.Shows d) (hstranger : s.ownerOf d ≠ some caller)
    (pageNo : UInt32) (text : Option String) :
    (saveEdit d caller pageNo text).Refused s (denial d (s.ownerOf d)) := by
  refine Run.Denies.refused (.inquire .clock rfl fun now => ?_)
  exact Run.Denies.bind (.transact (editPage_refuses hshows hstranger pageNo text _) rfl) _

/-- What a stranger is told who wants to publish: what is wrong with the parameters comes first. -/
def publishDenial (o : PublishOptions) (d : String) (owner : Option String) : PipelineError :=
  match o.generates, o.questions.check with
  | true, .error e => Widen.widen e
  | _, _ => denial d owner

theorem publish_refused (l : Ledger) (hshows : s.Shows d) (hstranger : s.ownerOf d ≠ some caller)
    (o : PublishOptions) :
    (publish l d caller o).Refused s (publishDenial o d (s.ownerOf d)) := by
  have hpublish : Run.Denies s (denial d (s.ownerOf d)) (do
      let now ← Run.clock
      let ids : PublishIds := ⟨← Run.freshId, ← Run.freshId⟩
      Run.transact (publishDraft d caller o ids now l.heartbeat) :
        Run PipelineError Published) := by
    refine .inquire .clock rfl fun now => .inquire .freshId rfl fun version =>
      .inquire .freshId rfl fun job => ?_
    exact .transact (publishDraft_refuses hshows hstranger o ⟨version, job⟩ now l.heartbeat) rfl
  refine Run.Denies.refused ?_
  unfold publish publishDenial
  cases hgenerates : o.generates with
  | false => exact hpublish
  | true =>
    cases hcheck : o.questions.check with
    | error e => exact .throw_bind
    | ok _ => exact hpublish

/-- Whoever does not own a document is told the same whatever else is stored, and changes nothing:
if two stores agree on who owns the document, if anybody, then an ingestion, an edit of any page
and a publication by somebody else come to the same failure in both. -/
theorem strangers_learn_nothing (p : Pipeline) (l : Ledger) {s s' : Store} {d caller : String}
    (hshows : s.Shows d) (hshows' : s'.Shows d) (hsame : s.ownerOf d = s'.ownerOf d)
    (hstranger : s.ownerOf d ≠ some caller) :
    (∃ e, (p.ingest d caller).Refused s e ∧ (p.ingest d caller).Refused s' e) ∧
      (∀ pageNo text, ∃ e, (saveEdit d caller pageNo text).Refused s e ∧
        (saveEdit d caller pageNo text).Refused s' e) ∧
      ∀ o, ∃ e, (publish l d caller o).Refused s e ∧ (publish l d caller o).Refused s' e := by
  have hstranger' : s'.ownerOf d ≠ some caller := hsame ▸ hstranger
  refine ⟨?_, fun pageNo text => ?_, fun o => ?_⟩
  · refine ⟨_, p.ingest_refused hshows hstranger, ?_⟩
    rw [hsame]
    exact p.ingest_refused hshows' hstranger'
  · refine ⟨_, saveEdit_refused hshows hstranger pageNo text, ?_⟩
    rw [hsame]
    exact saveEdit_refused hshows' hstranger' pageNo text
  · refine ⟨_, publish_refused l hshows hstranger o, ?_⟩
    rw [hsame]
    exact publish_refused l hshows' hstranger' o

/-- The upload after it was published, with a page and a job that has not ended. -/
def furtherOn : Store :=
  { lockedStore with
    documents := registeredStore.documents.map fun r =>
      { r with status := .published, title := some "T", pageCount := .ofNat 1 }
    pages := [Pages.rowOf 1 "d" (.uncleaned 1 "text" .ocr) "t"] }

/-- Somebody else cannot tell the upload from what has become of it. -/
theorem strangers_learn_nothing_further_on :
    ∃ e, (saveEdit "d" "somebody" 1 none).Refused registeredStore e ∧
      (saveEdit "d" "somebody" 1 none).Refused furtherOn e := by
  have hshows : registeredStore.Shows "d" := fun r hr _ => by
    obtain rfl := List.mem_singleton.mp hr
    exact ⟨_, rfl⟩
  have hshows' : furtherOn.Shows "d" := fun r hr _ => by
    obtain rfl := List.mem_singleton.mp hr
    exact ⟨_, rfl⟩
  exact (strangers_learn_nothing ⟨⟨.minute⟩, .standard, ⟨"gs", "b"⟩, none⟩ ⟨.minute⟩ hshows hshows' rfl
    (by decide)).2.1 1 none

end Pipeline
end Quire
