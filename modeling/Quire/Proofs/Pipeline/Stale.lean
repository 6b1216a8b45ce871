import Quire.Proofs.Flow.Company
import Quire.Proofs.Job.Ended
import Quire.Proofs.Pipeline.Quiet

/-! An ingestion whose job has ended.

While an ingestion takes its time a sweep may fail its job, and another ingestion may take the
lock. Whatever the first one does from then on for its job is refused, together with what the same
transaction does to the document. One transaction is not: the record of a failure goes on to the
document when the change of the job has found nothing to change. So no step of a stale ingestion
touches a document, unless it records a failure while the document is processing again
(`stale_ingestion_spares_documents`, `stale_ingestion_fails_successor`). -/
namespace Quire
open Txn

/-! ### What is done for a job -/

/-- A transaction that settles a job settles it together with its document, or is refused. -/
inductive Pipeline.Settles (jobId : String) : TxnKind
  | harmless {ε α : Type} {t : Txn ε α} : Harmless ε α t → Settles jobId ε α t
  | change (now : String) (c : Jobs.Change) :
      Settles jobId _ _ (guarded jobId (c.statement jobId now))
  | finish (document : Document) (pages : List NewPage) (source now : String) :
      Settles jobId _ _ (finishWith document jobId pages source now)
  | failJob (job : Job) (message : String) (detail : Option String) (now : String) :
      job.id = jobId → Settles jobId _ _ (Pipeline.failJob job message detail now)
  | complete (documentId : String) (c : Collected) (cleanupFailed : Bool) (now : String) :
      Settles jobId _ _ (completeJob jobId documentId c cleanupFailed now)

theorem Jobs.statement_spares_documents (c : Change) (id now : String)
    (documents : List DocumentRow) :
    (c.statement id now).Keeps fun s => s.documents = documents := by
  rw [c.statement_eq]
  exact Keeps.bind Keeps.store fun _ => Keeps.bind (Keeps.ofExcept _) fun _ =>
    Keeps.bind (Keeps.modify fun _ h => h) fun _ => Keeps.pure _

/-- No harmless transaction changes a document. -/
theorem Store.documents_spared (documents : List DocumentRow) :
    Spared fun s => s.documents = documents :=
  .of_tables (fun hdocuments _ h => hdocuments.trans h) fun id now c _ =>
    Jobs.statement_spares_documents c id now documents

namespace Pipeline
variable {jobId : String} {s : Store}

theorem completeJob_refused (h : s.Closed jobId) (hs : s.Sound) (documentId : String)
    (c : Collected) (cleanupFailed : Bool) (now : String) :
    (completeJob jobId documentId c cleanupFailed now).wp (fun _ _ => False) (fun _ => True) s := by
  have hdraft := (Store.Closed.unharmed jobId).draft documentId c.pageCount now s ⟨hs, h⟩
  unfold completeJob
  rw [wp_bind, wp_widen]
  refine wp_mono hdraft (fun moved s₁ h₁ => ?_) fun _ h => h
  rw [wp_bind, wp_require]
  refine ⟨fun _ => ?_, fun _ => trivial⟩
  rw [wp_bind, wp_widen]
  exact h₁.2.guarded_wp h₁.1 (.completed _) fun _ => trivial

theorem failJob_refused {job : Job} (h : s.Closed job.id) (hs : s.Sound) (message : String)
    (detail : Option String) (now : String) :
    (failJob job message detail now).wp (fun _ _ => False) (fun _ => True) s := by
  unfold failJob
  rw [wp_bind, wp_widen]
  exact h.guarded_wp hs (.failed message) fun _ => trivial

theorem finishWith_refused (h : s.Closed jobId) (hs : s.Sound) (document : Document)
    (pages : List NewPage) (source now : String) :
    (finishWith document jobId pages source now).wp (fun _ _ => False) (fun _ => True) s := by
  have hunharmed := Store.Closed.unharmed jobId
  unfold finishWith
  rw [wp_bind, wp_widen]
  refine wp_mono (hunharmed.storePages document.id now pages s ⟨hs, h⟩) (fun _ s₁ h₁ => ?_)
    fun _ h => h
  rw [wp_bind, wp_widen]
  refine wp_mono (hunharmed.draft document.id _ now s₁ h₁) (fun moved s₂ h₂ => ?_) fun _ h => h
  rw [wp_bind, wp_require]
  refine ⟨fun _ => ?_, fun _ => trivial⟩
  rw [wp_widen]
  exact h₂.2.guarded_wp h₂.1 (.completed _) fun _ => trivial

variable {ε α : Type} {t : Txn ε α}

theorem Settles.issued (h : Settles jobId ε α t) : Issued ε α t := by
  cases h with
  | harmless hharmless => exact .harmless hharmless
  | change now c => exact .change jobId now c fun _ => trivial
  | finish document pages source now => exact .finish document jobId pages source now
  | failJob job message detail now _ => exact .failJob job message detail now
  | complete documentId c cleanupFailed now =>
    exact .complete jobId documentId c cleanupFailed now

/-- Once the job has ended, nothing that settles it changes a document. -/
theorem Settles.spares_documents (h : Settles jobId ε α t) (hs : s.Sound) :
    t.wp (fun _ s' => s.Closed jobId → s'.documents = s.documents) (fun _ => True) s := by
  by_cases hclosed : s.Closed jobId
  · have hspared : t.wp (fun _ s' => s'.documents = s.documents) (fun _ => True) s := by
      cases h with
      | harmless hharmless => exact (Store.documents_spared s.documents).keeps hharmless s rfl
      | change now c =>
        exact guarded_keeps (Jobs.statement_spares_documents c jobId now s.documents) jobId s rfl
      | finish document pages source now =>
        exact wp_mono (finishWith_refused hclosed hs document pages source now)
          (fun _ _ h => h.elim) fun _ h => h
      | failJob job message detail now hid =>
        subst hid
        exact wp_mono (failJob_refused hclosed hs message detail now) (fun _ _ h => h.elim)
          fun _ h => h
      | complete documentId c cleanupFailed now =>
        exact wp_mono (completeJob_refused hclosed hs documentId c cleanupFailed now)
          (fun _ _ h => h.elim) fun _ h => h
    exact wp_mono hspared (fun _ _ h _ => h) fun _ h => h
  · exact wp_mono (wp_trivial t s) (fun _ _ _ h => absurd h hclosed) fun _ h => h

theorem Settles.checks (job : Job) : Checks (Settles job.id) job :=
  .of_harmless .harmless (fun message detail now => .failJob job message detail now rfl)
    fun documentId _ => .complete documentId

/-! ### The steps of a stale ingestion -/

/-- A move that leaves every document as it was, or records a failure of the job. -/
def Spares (document : Document) (jobId : String) (s s' : Store) : Prop :=
  s'.documents = s.documents ∨
    ∃ e now, s' = ((recordFailure document jobId e now).run s).2

section Steps
variable {σ : Type} (w : Surroundings σ) (others : Moment σ → Moment σ → Prop)

/-- An ingestion among others. It keeps the rules of the schema, and of its moves only those after
the end of its job matter. -/
def ingestion (document : Document) (jobId : String) : Company σ where
  world := w
  others := others
  own m m' :=
    (m.1.Sound → m'.1.Sound) ∧ (m.1.Closed jobId → Spares document jobId m.1 m'.1)
  looks _ := ⟨id, fun _ => .inl rfl⟩

/-- A run that spares documents once its job has ended, while the rules of the schema are kept. -/
-- Irreducible, so that no application of a rule makes Lean run a flow.
@[irreducible]
def IsSparing (document : Document) (jobId : String) {ε α : Type} (r : Run ε α) : Prop :=
  r.Amid (ingestion w others document jobId) (fun m => m.1.Sound) (fun _ m => m.1.Sound)
    fun _ m => m.1.Sound

variable {w others} {document : Document} {ε ε' β : Type}
  (hothers : ∀ m m', others m m' → m.1.Sound → m'.1.Sound)

namespace IsSparing

theorem iff_amid {r : Run ε α} : IsSparing w others document jobId r ↔
    r.Amid (ingestion w others document jobId) (fun m => m.1.Sound) (fun _ m => m.1.Sound)
      fun _ m => m.1.Sound := by
  unfold IsSparing
  rfl

theorem bind {r : Run ε β} {k : β → Run ε α} (hr : IsSparing w others document jobId r)
    (hk : ∀ b, IsSparing w others document jobId (k b)) :
    IsSparing w others document jobId (r >>= k) :=
  iff_amid.mpr ((iff_amid.mp hr).bind fun b => iff_amid.mp (hk b))

theorem pure (a : α) : IsSparing w others document jobId (Pure.pure a : Run ε α) :=
  iff_amid.mpr (.pure fun _ h => h)

theorem throw (e : ε) : IsSparing w others document jobId (MonadExcept.throw e : Run ε α) :=
  iff_amid.mpr (.throw fun _ h => h)

theorem widen [Widen ε ε'] {r : Run ε α} (hr : IsSparing w others document jobId r) :
    IsSparing w others document jobId (Run.widen r : Run ε' α) :=
  iff_amid.mpr (.widen (iff_amid.mp hr))

theorem outcome {r : Run ε α} (hr : IsSparing w others document jobId r) :
    IsSparing w others document jobId (Run.outcome r : Run ε' _) :=
  iff_amid.mpr (.outcome (iff_amid.mp hr))

theorem ofExcept [Widen ε ε'] (r : Except ε α) :
    IsSparing w others document jobId (Run.ofExcept r : Run ε' α) := iff_amid.mpr (.ofExcept r)

include hothers

/-- What issues only transactions that settle the job. -/
theorem of_issues {r : Run ε α} (hr : r.Issues (Settles jobId)) :
    IsSparing w others document jobId r := by
  refine iff_amid.mpr (.of_issues hr hothers (fun m x hm => ⟨⟨id, fun _ => .inl rfl⟩, hm⟩) ?_)
  intro ε α t ht s x hs
  refine wp_mono (wp_and (ht.spares_documents hs) (Store.Sound.unharmed.keeps ht.issued s hs))
    (fun _ s' h => ?_) fun _ _ => trivial
  exact ⟨⟨fun _ => h.2, fun hclosed => .inl (h.1 hclosed)⟩, h.2⟩

theorem of_harmless {r : Run ε α} (hr : r.Issues Harmless) :
    IsSparing w others document jobId r := of_issues hothers (hr.mono .harmless)

end IsSparing

section
include hothers

theorem change_sparing (c : Instant → Jobs.Change) : IsSparing w others document jobId
    (Ledger.atNow fun now => guarded jobId ((c now).statement jobId now.timestamp)) :=
  .of_issues hothers (Run.Issues.clock.bind fun now =>
    Run.Issues.transact (.change now.timestamp (c now)))

theorem finish_sparing (pages : List NewPage) (source : String) :
    IsSparing w others document jobId (finish document jobId pages source) :=
  .of_issues hothers (Run.Issues.clock.bind fun now =>
    (Run.Issues.transact (.finish document pages source now.timestamp)).bind fun _ =>
      Run.Issues.pure _)

/-- The job that is found is the one that was looked for. -/
theorem find_sparing {k : Job → Run PipelineError α}
    (hk : ∀ job, job.id = jobId → IsSparing w others document jobId (k job)) :
    IsSparing w others document jobId (Run.widen (Ledger.find jobId) >>= k) := by
  refine IsSparing.iff_amid.mpr (.bind (R := fun job m => job.id = jobId ∧ m.1.Sound)
    (.widen (Ledger.find_amid hothers fun m hm => ?_)) fun job => ?_)
  · refine Jobs.find_wp ⟨fun _ h => (nomatch h), fun _ => hm⟩
      (fun r _ hid job hshows => ⟨fun job' h => ?_, fun h => nomatch h⟩) fun _ => hm
    exact ⟨Option.some.inj h ▸ hshows.id.trans hid, hm⟩
  · exact .given fun hid => IsSparing.iff_amid.mp (hk job hid)

variable (p : Pipeline)

theorem giveUp_sparing : IsSparing w others document jobId (p.giveUp jobId) := by
  refine find_sparing hothers fun job hid => ?_
  subst hid
  split
  · exact .ofExcept _
  · exact .of_issues hothers (fail_issues (Settles.checks job) _ none)

theorem waitFor_sparing (left : Nat) :
    IsSparing w others document jobId (p.waitFor jobId left) := by
  induction left with
  | zero => exact p.giveUp_sparing hothers
  | succ left ih =>
    have hagain : IsSparing w others document jobId (p.again jobId left) := by
      have hsleep : Run.Issues (ε := PipelineError) Harmless
          (Run.perform (.sleep p.settings.pollIntervalMillis)) := Run.Issues.perform trivial
      unfold again
      split
      · exact (IsSparing.of_harmless hothers hsleep).bind fun _ => ih
      · exact (IsSparing.pure ()).bind fun _ => ih
    rw [waitFor_succ]
    refine find_sparing hothers fun job hid => ?_
    subst hid
    split
    · exact .ofExcept _
    · have hcheck := p.check_issues (Settles.checks job)
      refine (IsSparing.of_issues hothers hcheck).outcome.bind fun o => ?_
      cases o with
      | ok report =>
        dsimp only
        split
        · exact .pure report
        · exact hagain
      | error e => exact hagain

theorem wait_sparing : IsSparing w others document jobId (p.wait jobId) := by
  refine find_sparing hothers fun job _ => IsSparing.bind (.ofExcept _) fun jobType => ?_
  split
  · exact .throw _
  · exact p.waitFor_sparing hothers _

theorem recognizeNow_sparing (r : Upload.Reference) (mime : String) :
    IsSparing w others document jobId (p.recognizeNow document jobId r mime) := by
  have hprogress := Ledger.updateProgress_harmless jobId 0 1 "ocr"
  have hrecognize (content : ByteArray) : Run.Issues (ε := PipelineError) Harmless
      (Run.request (.recognize content mime)) := Run.Issues.request trivial
  refine IsSparing.bind (.widen (.of_harmless hothers hprogress)) fun _ => ?_
  refine IsSparing.bind (.of_harmless hothers (readUpload_issues r _)) fun content => ?_
  refine IsSparing.bind (.of_harmless hothers (hrecognize content)) fun _ => ?_
  exact finish_sparing hothers _ _

theorem dispatch_sparing (r : Upload.Reference) (mime : String) :
    IsSparing w others document jobId (p.dispatch document jobId r mime) := by
  refine IsSparing.bind (.of_harmless hothers Run.Issues.clock) fun now => ?_
  let s := Staging.plan p.bucket document.ownerId document.id now (copyExtension document) mime
  have hprogress := Ledger.updateProgress_harmless jobId 0 1 "staging"
  have hopen : Run.Issues (ε := PipelineError) Harmless (Run.request (.openUpload r)) :=
    Run.Issues.request trivial
  have hput (body : ByteStream) : Run.Issues (ε := PipelineError) Harmless
      (Run.request (.put s.inputKey body mime)) := Run.Issues.request trivial
  have hnote := Ledger.addEvent_harmless jobId .info (some "ocr_submit")
    "Asynchronous OCR operation started" none
  refine IsSparing.bind (.widen (.of_harmless hothers hprogress)) fun _ => ?_
  refine IsSparing.bind (.of_harmless hothers hopen) fun body => ?_
  refine IsSparing.bind (.of_harmless hothers (hput body)) fun _ => ?_
  refine IsSparing.bind (.of_harmless hothers (submit_issues s)) fun handle => ?_
  refine IsSparing.bind (.widen (change_sparing hothers fun now =>
    .polling handle s.toJson (p.ledger.deadline now))) fun _ => ?_
  refine IsSparing.bind (.widen (.of_harmless hothers hnote)) fun _ => ?_
  split
  · exact .pure _
  · exact (p.wait_sparing hothers).bind fun _ => .pure _

theorem extract_sparing : IsSparing w others document jobId (p.extract document jobId) := by
  have hrecognize : ∀ fileType r,
      IsSparing w others document jobId (p.recognize document jobId fileType r) := by
    intro fileType r
    unfold recognize
    dsimp only
    split
    · exact p.dispatch_sparing hothers r _
    · exact p.recognizeNow_sparing hothers r _
  have hreference : Run.Issues (ε := PipelineError) Harmless
      (Run.request (.reference document.storagePath p.settings.referenceTtl)) :=
    Run.Issues.request trivial
  have hprogress := Ledger.updateProgress_harmless jobId 0 1 "native_extraction"
  refine IsSparing.bind (.ofExcept _) fun fileType => ?_
  refine IsSparing.bind (.of_harmless hothers hreference) fun r => ?_
  split
  · refine IsSparing.bind (.widen (.of_harmless hothers hprogress)) fun _ => ?_
    refine IsSparing.bind (.of_harmless hothers (p.ownText_issues (.note jobId) r)) fun texts => ?_
    cases texts with
    | some texts => exact finish_sparing hothers _ _
    | none => exact hrecognize fileType r
  · exact hrecognize fileType r

/-- A failure is recorded in one transaction, and that is all that is left to do. -/
theorem conclude_sparing (o : Except PipelineError Ingestion) :
    IsSparing w others document jobId (conclude document jobId o) := by
  cases o with
  | ok outcome => exact .pure outcome
  | error e =>
    refine IsSparing.bind (.of_harmless hothers Run.Issues.clock) fun now => ?_
    have hP : (ingestion w others document jobId).Stable fun m => m.1.Sound := hothers
    refine IsSparing.bind (IsSparing.iff_amid.mpr (.attempt hP fun s x hs => ?_)) fun _ => .throw e
    let t := recordFailure document jobId e now.timestamp
    have hkept : t.wp (fun _ => Store.Sound) (fun _ => True) s :=
      Store.Sound.unharmed.keeps (.recordFailure document jobId e now.timestamp) s hs
    have hrun : t.wp (fun _ s' => s' = (t.run s).2) (fun _ => True) s :=
      (wp_iff_run t).mpr ⟨fun _ _ => rfl, fun _ _ => trivial⟩
    refine wp_mono (wp_and hkept hrun) (fun _ s' h => ?_) fun _ _ => hs
    exact ⟨⟨fun _ => h.1, fun _ => .inr ⟨e, now.timestamp, h.2⟩⟩, h.1⟩

theorem goOn_sparing : IsSparing w others document jobId (p.goOn document jobId) := by
  refine IsSparing.bind (.widen (change_sparing hothers fun _ => .running)) fun _ => ?_
  exact (p.extract_sparing hothers).outcome.bind fun o => conclude_sparing hothers o

end
end Steps

/-! ### The record of a failure -/

/-- A failure of a job that has ended is recorded, and its document is processed no more. -/
theorem recordFailure_ends (h : s.Closed jobId) (hs : s.Sound) (document : Document)
    (e : PipelineError) (now : String) :
    Store.EndsProcessing document.id s.documents
      ((recordFailure document jobId e now).run s).2.documents := by
  have hunchanged : changeWhere (Jobs.isOpen jobId)
      ((Jobs.Change.failed e.publicMessage).apply now) s.jobs = s.jobs :=
    changeWhere_none (h.refused hs)
  have hwp : (recordFailure document jobId e now).wp
      (fun _ s' => Store.EndsProcessing document.id s.documents s'.documents)
      (fun _ => False) s := by
    unfold recordFailure
    rw [wp_bind]
    refine (Jobs.statement_wp hs.apart (.failed e.publicMessage) jobId now).mpr ?_
    unfold Jobs.changed
    rw [hunchanged, wp_bind]
    refine Documents.markFailed_wp fun _ s' hends hjobs => ?_
    have hthere : s'.hasJob jobId = true := by
      obtain ⟨r, hr, hid, -⟩ := h
      exact Store.hasJob_iff.mpr ⟨r, hjobs ▸ hr, hid⟩
    simp only [Jobs.insertEvent, wp_bind, wp_store, wp_require, wp_modify]
    exact ⟨fun _ => hends, fun hmissing => absurd (hthere.symm.trans hmissing) (by simp)⟩
  obtain ⟨hok, herror⟩ := (wp_iff_run _).mp hwp
  cases hr : ((recordFailure document jobId e now).run s).1 with
  | ok u => exact hok u hr
  | error fault => exact (herror fault hr).elim

/-- If its processing ends, a document changes exactly if it was processing. -/
theorem endsProcessing_eq_iff {d : String} {before after : List DocumentRow}
    (h : Store.EndsProcessing d before after) :
    after = before ↔ ∀ r ∈ before, r.id = d → r.status ≠ .processing := by
  obtain ⟨f, rfl, hid, hstatus⟩ := h
  constructor
  · intro hsame r hr hrd hprocessing
    have hkept : ∀ r ∈ before, (if Store.inProcess d r then f r else r) = r := by
      have hmap : before.map (fun r => if Store.inProcess d r then f r else r) = before.map id := by
        rw [List.map_id]
        exact hsame
      exact List.map_inj_left.mp hmap
    have hrow : f r = r := by
      have hsame := hkept r hr
      rwa [if_pos (Store.inProcess_iff.mpr ⟨hrd, hprocessing⟩)] at hsame
    have hstill : (f r).status = .processing := by rw [hrow, hprocessing]
    exact hstatus r hstill
  · intro hnone
    refine changeWhere_none fun r hr => ?_
    by_contra hp
    obtain ⟨hrd, hprocessing⟩ := Store.inProcess_iff.mp (Bool.not_eq_false _ ▸ hp)
    exact hnone r hr hrd hprocessing

end Pipeline

/-- An ingestion has taken the lock, and others have their turns between its steps; all that is
known of them is that they keep the rules of the schema. Once its job has ended, no step of the
ingestion changes a document, unless it is the one that records a failure; and that one leaves the
documents as they are if and only if the document is not processing. -/
theorem stale_ingestion_spares_documents {σ : Type} {w : Surroundings σ}
    {others : Moment σ → Moment σ → Prop} (hothers : ∀ m m', others m m' → m.1.Sound → m'.1.Sound)
    {p : Pipeline} {document : Document} {jobId : String} {m a z : Moment σ} (hm : m.1.Sound)
    (hmove : w.Moves others (p.goOn document jobId).run m a z) (hclosed : a.1.Closed jobId) :
    (z.1.documents = a.1.documents ∨
      ∃ e now, z.1 = ((Pipeline.recordFailure document jobId e now).run a.1).2) ∧
    ∀ e now,
      ((Pipeline.recordFailure document jobId e now).run a.1).2.documents = a.1.documents ↔
        ∀ r ∈ a.1.documents, r.id = document.id → r.status ≠ .processing := by
  have hgoOn : Pipeline.IsSparing w others document jobId (p.goOn document jobId) :=
    p.goOn_sparing hothers
  have hsparing := Pipeline.IsSparing.iff_amid.mp hgoOn
  have hsound : a.1.Sound := hsparing.holds hothers (fun _ _ h => h.1) hm hm hmove
  refine ⟨(hsparing.own hm hmove).2 hclosed, fun e now => ?_⟩
  exact Pipeline.endsProcessing_eq_iff (Pipeline.recordFailure_ends hclosed hsound document e now)

namespace Background

/-- The document as it is read when its lock is taken. -/
def document : Document :=
  match ((Documents.find "d").run registeredStore).1 with
  | .ok (some document) => document
  | _ => default

/-- A time after every deadline. -/
def late : Instant := ⟨120, 0⟩

/-- The only job, as it is read. -/
def onlyJob (s : Store) : Job :=
  match ((Jobs.find "j").run s).1 with
  | .ok (some job) => job
  | _ => default

/-- A sweep has failed the only job. -/
def swept (s : Store) : Store := ((Sweep.failJob (onlyJob s) late.timestamp).run s).2

/-- Another ingestion has taken the lock. -/
def relocked : Store :=
  ((Pipeline.lockDocument "d" "o" "k" late pipeline.ledger.heartbeat).run (swept running)).2

theorem becomes_swept {s : Store} {row : JobRow} (hjobs : s.jobs = [row])
    (hstale : Jobs.JobRow.isStale late.timestamp row = true) (hread : row.read = .ok (onlyJob s))
    (hrun : ∃ o, (Sweep.failJob (onlyJob s) late.timestamp).run s = (.ok o, swept s)) :
    s.Becomes (swept s) := by
  have hlist : (Jobs.listStale late.timestamp).run s = (.ok [onlyJob s], s) := by
    have hrows : s.jobs.filter (Jobs.JobRow.isStale late.timestamp) = [row] := by
      rw [hjobs, List.filter_cons_of_pos hstale, List.filter_nil]
    have hjob : [row].mapM JobRow.read = .ok [onlyJob s] := by
      rw [List.mapM_cons, hread]
      rfl
    rw [← Txn.wp_eq_run]
    unfold Jobs.listStale
    rw [Txn.wp_bind, Txn.wp_store]
    dsimp only
    rw [hrows, List.mergeSort_singleton, hjob]
    exact (Txn.wp_ofExcept_ok _).mpr rfl
  obtain ⟨o, hrun⟩ := hrun
  exact .of_call (.sweep late)
    (.inr ⟨_, (s, ()), ⟨hlist, rfl⟩, .inr ⟨.ok o, (swept s, ()), ⟨hrun, rfl⟩, rfl, rfl⟩⟩)

theorem running_becomes_swept : running.Becomes (swept running) :=
  becomes_swept rfl rfl rfl ⟨_, rfl⟩

theorem swept_becomes_relocked : (swept running).Becomes relocked :=
  .of_call (.ingest pipeline "d" "o")
    (.inr ⟨"k", (swept running, ()), ⟨rfl, trivial⟩, .inr ⟨late, (swept running, ()), ⟨rfl, trivial⟩,
      .inr ⟨_, (relocked, ()), ⟨rfl, rfl⟩, .inl ⟨rfl, rfl⟩⟩⟩⟩)

/-- The upload is gone. -/
def lost : PipelineError := .ofStorage (.notFound "u")

/-- The store after that was recorded as the failure of the first ingestion. -/
def recorded (s : Store) : Store :=
  ((Pipeline.recordFailure document "j" lost late.timestamp).run s).2

/-- While the first ingestion asks for its upload, others turn the store into another one. -/
theorem recorded_of_becomes {s : Store} (h : running.Becomes s) :
    Surroundings.free.Moves (fun m m' => m.1.Becomes m'.1) (pipeline.goOn document "j").run
      (locked, ()) (s, ()) (recorded s, ()) :=
  ⟨(locked, ()), .refl _, start, (locked, ()), ⟨rfl, trivial⟩, .inr
    ⟨(locked, ()), .refl _, _, (running, ()), ⟨rfl, rfl⟩, .inr
    ⟨(s, ()), h, .error (.notFound "u"), (s, ()), ⟨rfl, trivial⟩, .inr
    ⟨(s, ()), .refl _, late, (s, ()), ⟨rfl, trivial⟩, .inr
    ⟨(s, ()), .refl _, _, (recorded s, ()), ⟨rfl, rfl⟩, .inl ⟨rfl, rfl⟩⟩⟩⟩⟩⟩

theorem locked_reachable : locked.Reachable :=
  (Store.Becomes.of_call (.ingest pipeline "d" "o")
    (.inr ⟨"j", (registeredStore, ()), ⟨rfl, trivial⟩, .inr
      ⟨start, (registeredStore, ()), ⟨rfl, trivial⟩, .inr
      ⟨_, (locked, ()), ⟨rfl, rfl⟩, .inl ⟨rfl, rfl⟩⟩⟩⟩)).reachable registered_quiet.reachable

end Background

/-- A sweep has failed job and document, and the ingestion goes on to record its own failure: the
document stays as it is. -/
theorem stale_ingestion_spares_failed_document :
    let a := Background.swept Background.running
    Surroundings.free.Moves (fun m m' => m.1.Becomes m'.1)
        (Background.pipeline.goOn Background.document "j").run (Background.locked, ())
        (a, ()) (Background.recorded a, ()) ∧
      a.Closed "j" ∧ (Background.recorded a).documents = a.documents := by
  intro a
  have hmove := Background.recorded_of_becomes Background.running_becomes_swept
  have hclosed : a.Closed "j" := ⟨_, List.mem_singleton_self _, rfl, rfl⟩
  obtain ⟨-, hrecord⟩ := stale_ingestion_spares_documents
    (fun m m' (h : m.1.Becomes m'.1) => h.keeps Store.Sound.unharmed)
    Background.locked_reachable.sound hmove hclosed
  refine ⟨hmove, hclosed, (hrecord Background.lost Background.late.timestamp).mpr ?_⟩
  intro r hr _
  obtain rfl := List.mem_singleton.mp hr
  decide

/-- A sweep has failed the job, and another ingestion has taken the lock of the document: then the
first one records its failure, and the document of the other one has failed. -/
theorem stale_ingestion_fails_successor :
    Background.locked.Reachable ∧
    Surroundings.free.Moves (fun m m' => m.1.Becomes m'.1)
        (Background.pipeline.goOn Background.document "j").run (Background.locked, ())
        (Background.relocked, ()) (Background.recorded Background.relocked, ()) ∧
      Background.relocked.Closed "j" ∧
      (∃ r ∈ Background.relocked.documents, r.id = "d" ∧ r.status = .processing) ∧
      (∃ r ∈ (Background.recorded Background.relocked).documents, r.id = "d" ∧ r.status = .failed) ∧
      ∃ r ∈ (Background.recorded Background.relocked).holders "d", r.id = "k" := by
  have hbecomes := Background.running_becomes_swept.trans Background.swept_becomes_relocked
  refine ⟨Background.locked_reachable, Background.recorded_of_becomes hbecomes,
    ⟨_, List.mem_cons_self, rfl, rfl⟩, ⟨_, List.mem_singleton_self _, rfl, rfl⟩,
    ⟨_, List.mem_singleton_self _, rfl, rfl⟩, ?_⟩
  exact ⟨_, List.mem_singleton_self _, rfl⟩

end Quire
