import Quire.Proofs.Pipeline.Arrivals
import Quire.Proofs.Pipeline.Requests
import Quire.Proofs.Store.Pages

/-! What belongs to others.

Every statement names the document or the job whose rows it writes, so the rows of others stay as
they are. A store stays confined to some documents `D` and some jobs `J` if the statements name no
others. What a job's transactions name as their document is the document of the job; so besides
the rows of others a confined store keeps that the jobs that may be written are on documents that
may be written (`Store.Confined`). -/
namespace Quire
open Txn

/-! ### Rows of others -/

section Rows
variable {α κ : Type} [BEq κ] [LawfulBEq κ] {key : α → κ} {rows : List α} {k : κ}

/-- A change of rows of one key does not show among those of another. -/
theorem filter_changeWhere_of_ne {p : α → Bool} {f : α → α} {k' : κ}
    (hp : ∀ a, p a = true → key a = k) (hf : ∀ a, key (f a) = key a) (hk : k' ≠ k) :
    (changeWhere p f rows).filter (key · == k') = rows.filter (key · == k') := by
  refine filter_changeWhere fun a ha => ?_
  have hother : ¬ key a = k' := fun h => hk (h.symm.trans (hp a ha))
  simp [hf, hother]

/-- Nor does a row that is added. -/
theorem filter_append_of_ne {a : α} {k' : κ} (hk : k' ≠ key a) :
    (rows ++ [a]).filter (key · == k') = rows.filter (key · == k') := by
  simp [Ne.symm hk]

end Rows

namespace Store

/-- The rows of documents outside `D`, those of jobs that are there and outside `J`, and all
artifacts are the same in another store. -/
structure SparesOthers (D J : String → Prop) (s s' : Store) : Prop where
  documents : ∀ d, ¬ D d → s'.documents.filter (·.id == d) = s.documents.filter (·.id == d)
  pages : ∀ d, ¬ D d → s'.pages.filter (·.documentId == d) = s.pages.filter (·.documentId == d)
  versions : ∀ d, ¬ D d →
    s'.versions.filter (·.documentId == d) = s.versions.filter (·.documentId == d)
  jobs : ∀ j, s.hasJob j = true → ¬ J j → s'.jobs.filter (·.id == j) = s.jobs.filter (·.id == j)
  events : ∀ j, s.hasJob j = true → ¬ J j →
    s'.events.filter (·.jobId == j) = s.events.filter (·.jobId == j)
  artifacts : s'.artifacts = s.artifacts

/-- A job may be written: it is in `J`, or was not there at the beginning. -/
def MayWrite (J : String → Prop) (s : Store) (jobId : String) : Prop := s.hasJob jobId = true → J jobId

/-- What `s` has become, if others were spared: and the jobs that may be written are on documents
that may be written. -/
structure Confined (D J : String → Prop) (s s' : Store) : Prop extends SparesOthers D J s s' where
  own : ∀ r ∈ s'.jobs, MayWrite J s r.id → ∀ d, r.documentId = some d → D d

variable {D J : String → Prop} {s s' : Store}

theorem Confined.refl (h : ∀ r ∈ s.jobs, J r.id → ∀ d, r.documentId = some d → D d) :
    s.Confined D J s where
  documents _ _ := rfl
  pages _ _ := rfl
  versions _ _ := rfl
  jobs _ _ _ := rfl
  events _ _ _ := rfl
  artifacts := rfl
  own r hr hwrite := h r hr (hwrite (hasJob_iff.mpr ⟨r, hr, rfl⟩))

/-- A job that is not there now was not there at the beginning, unless it may be written. -/
theorem Confined.mayWrite_of_new (h : s.Confined D J s') {j : String} (hj : s'.hasJob j = false) :
    s.MayWrite J j := by
  intro hthere
  by_contra hother
  obtain ⟨r, hr, hid⟩ := hasJob_iff.mp hthere
  have hmem : r ∈ s'.jobs.filter (·.id == j) := by
    rw [h.jobs j hthere hother]
    exact List.mem_filter.mpr ⟨hr, by simp [hid]⟩
  have hstill : s'.hasJob j = true := hasJob_iff.mpr ⟨r, (List.mem_filter.mp hmem).1, hid⟩
  rw [hj] at hstill
  cases hstill

end Store

/-! ### Confined statements -/

section Statements
variable {D J : String → Prop} {s₀ : Store} {d jobId : String}

/-- A change of a document moves no other. -/
theorem Documents.changeFrom_confined (hd : D d) (allowed : List DocumentStatus)
    {f : DocumentRow → DocumentRow} (hf : ∀ r, (f r).id = r.id) :
    (changeFrom d allowed f).Keeps (s₀.Confined D J) := by
  refine Keeps.bind Keeps.store fun _ => Keeps.bind (Keeps.modify fun s h => ?_) fun _ => Keeps.pure _
  refine { h with documents := fun d' hd' => ?_ }
  have hne : d' ≠ d := fun heq => hd' (heq ▸ hd)
  exact (filter_changeWhere_of_ne (fun r hr => by simp at hr; exact hr.1) hf hne).trans
    (h.documents d' hd')

section Pages
variable (hd : D d)
include hd

theorem Pages.change_confined {p : PageRow → Bool} {f : PageRow → PageRow}
    (hp : ∀ r, p r = true → r.documentId = d) (hf : ∀ r, (f r).documentId = r.documentId)
    {s : Store} {last : Int} (h : s₀.Confined D J s) :
    s₀.Confined D J { s with pages := changeWhere p f s.pages, pageSeq := last } := by
  refine { h with pages := fun d' hd' => ?_ }
  have hne : d' ≠ d := fun heq => hd' (heq ▸ hd)
  exact (filter_changeWhere_of_ne hp hf hne).trans (h.pages d' hd')

theorem Pages.upsert_confined (p : NewPage) (now : String) :
    (upsert d p now).Keeps (s₀.Confined D J) := by
  refine Keeps.bind (Keeps.require _ _) fun _ => Keeps.bind Keeps.store fun s => ?_
  dsimp only
  split
  · refine Keeps.modify fun s h => change_confined hd ?_ ?_ h
    · exact fun r hr => (isPage_iff.mp hr).1
    · exact fun r => rfl
  · refine Keeps.bind (Keeps.require _ _) fun _ => Keeps.modify fun s h => ?_
    refine { h with pages := fun d' hd' => ?_ }
    have hne : d' ≠ d := fun heq => hd' (heq ▸ hd)
    exact (filter_append_of_ne hne).trans (h.pages d' hd')

theorem Pages.setEdit_confined (pageNo : UInt32) (text : Option String) (editor now : String) :
    (setEdit d pageNo text editor now).Keeps (s₀.Confined D J) := by
  refine Keeps.bind Keeps.store fun _ => Keeps.bind (Keeps.modify fun s h => ?_) fun _ => Keeps.pure _
  refine change_confined hd ?_ ?_ h
  · exact fun r hr => (isPage_iff.mp hr).1
  · exact fun r => rfl

theorem Pages.deleteAll_confined : (deleteAll d).Keeps (s₀.Confined D J) := by
  refine Keeps.bind Keeps.store fun _ => Keeps.bind (Keeps.modify fun s h => ?_) fun _ => Keeps.pure _
  refine { h with pages := fun d' hd' => ?_ }
  have hne : d' ≠ d := fun heq => hd' (heq ▸ hd)
  rw [← h.pages d' hd', List.filter_filter]
  refine List.filter_congr fun r _ => ?_
  by_cases hr : r.documentId = d'
  · simp [hr, hne]
  · simp [hr]

end Pages

theorem Versions.insert_confined {v : Version} (hv : D v.documentId) :
    (insert v).Keeps (s₀.Confined D J) := by
  refine Keeps.bind (Keeps.require _ _) fun _ => Keeps.bind Keeps.store fun _ =>
    Keeps.bind (Keeps.require _ _) fun _ => Keeps.bind (Keeps.require _ _) fun _ =>
      Keeps.bind (Keeps.require _ _) fun _ => Keeps.modify fun s h => ?_
  refine { h with versions := fun d' hd' => ?_ }
  have hne : d' ≠ v.documentId := fun heq => hd' (heq ▸ hv)
  exact (filter_append_of_ne hne).trans (h.versions d' hd')

/-! ### Jobs -/

/-- Whether or not the index lets a change pass: what it leaves is the change. -/
theorem Jobs.changeRows_ok {p : JobRow → Bool} {f : JobRow → JobRow} {above rows jobs : List JobRow}
    (h : changeRows p f above rows = .ok jobs) : jobs = above.reverse ++ changeWhere p f rows := by
  induction rows generalizing above with
  | nil => simpa [changeRows] using h.symm
  | cons r rest ih =>
    unfold changeRows at h
    by_cases hr : p r = true
    · rw [if_pos hr] at h
      split at h
      case isTrue => cases h
      case isFalse => simpa [hr] using ih h
    · rw [if_neg hr] at h
      simpa [hr] using ih h

/-- A change of a job leaves all others alone, and no job changes its document. -/
theorem Jobs.statement_confined (hj : s₀.MayWrite J jobId) (now : String) (c : Change) :
    (c.statement jobId now).Keeps (s₀.Confined D J) := by
  intro s h
  rw [c.statement_eq]
  unfold changeOpen
  simp only [wp_bind, wp_store, wp_ofExcept, wp_modify, wp_pure]
  refine ⟨fun jobs hjobs => ?_, fun _ _ => trivial⟩
  obtain rfl := changeRows_ok hjobs
  refine { h with jobs := fun j hthere hother => ?_, own := fun r hr hwrite d hd => ?_ }
  · have hne : j ≠ jobId := fun heq => hother (heq ▸ hj (heq ▸ hthere))
    exact (filter_changeWhere_of_ne (fun r hr => (isOpen_iff.mp hr).1) (c.apply_id now) hne).trans
      (h.jobs j hthere hother)
  · obtain ⟨r', hr', rfl⟩ := mem_changeWhere.mp hr
    refine h.own r' hr' ?_ d ?_
    · split at hwrite
      · simpa using hwrite
      · exact hwrite
    · split at hd
      · simpa using hd
      · exact hd

/-- A job that is added was not there at the beginning. -/
theorem Jobs.insertRow_confined {r : JobRow} (hdoc : ∀ d, r.documentId = some d → D d) {s : Store}
    (h : s₀.Confined D J s) :
    (insertRow r).wp (fun _ s' => s₀.Confined D J s' ∧ s₀.MayWrite J r.id) (fun _ => True) s := by
  simp only [insertRow, wp_bind, wp_store, wp_require, wp_modify]
  refine ⟨fun _ => ⟨fun hnew => ⟨fun _ => ?_, fun _ => trivial⟩, fun _ => trivial⟩, fun _ => trivial⟩
  have hmay : s₀.MayWrite J r.id := h.mayWrite_of_new (by simpa using hnew)
  refine ⟨{ h with jobs := fun j hthere hother => ?_, own := fun r' hr' hwrite d hd => ?_ }, hmay⟩
  · have hne : j ≠ r.id := fun heq => hother (heq ▸ hmay (heq ▸ hthere))
    exact (filter_append_of_ne hne).trans (h.jobs j hthere hother)
  · rcases List.mem_append.mp hr' with hold | hadded
    · exact h.own r' hold hwrite d hd
    · obtain rfl := List.mem_singleton.mp hadded
      exact hdoc d hd

theorem Jobs.insert_confined {job : Job} (hdoc : ∀ d, job.documentId = some d → D d) :
    (insert job).Keeps (s₀.Confined D J) :=
  fun _ h => wp_mono (insertRow_confined hdoc h) (fun _ _ h => h.1) fun _ h => h

/-- The lock of a document is taken by a job that was not there. -/
theorem tryAcquire_confined {n : NewJob} (hdoc : ∀ d, n.documentId = some d → D d) (id : String)
    (now : Instant) (heartbeat : Respite) {s : Store} (h : s₀.Confined D J s) :
    (tryAcquire n id now heartbeat).wp (fun outcome s' => s₀.Confined D J s' ∧
      ∀ job, outcome = .acquired job → s₀.MayWrite J job.id) (fun _ => True) s := by
  unfold tryAcquire
  rw [wp_bind, wp_attempt]
  show (Jobs.insertRow (n.row id now heartbeat)).wp _ _ s
  have hrow : ∀ d, (n.row id now heartbeat).documentId = some d → D d := hdoc
  refine wp_mono (Jobs.insertRow_confined hrow h) (fun _ s' h' => ?_) fun e _ => ?_
  · refine (wp_pure _).mpr ⟨h'.1, ?_⟩
    rintro job ⟨⟩
    exact h'.2
  · dsimp only
    split
    · exact (wp_pure _).mpr ⟨h, fun _ hjob => nomatch hjob⟩
    · trivial

theorem Jobs.insertEvent_confined (hj : s₀.MayWrite J jobId) (kind : EventKind)
    (step : Option String) (message : String) (trace : Option String) (now : String) :
    (insertEvent jobId kind step message trace now).Keeps (s₀.Confined D J) := by
  refine Keeps.bind Keeps.store fun _ => Keeps.bind (Keeps.require _ _) fun _ =>
    Keeps.modify fun s h => ?_
  refine { h with events := fun j hthere hother => ?_ }
  have hne : j ≠ jobId := fun heq => hother (heq ▸ hj (heq ▸ hthere))
  exact (filter_append_of_ne hne).trans (h.events j hthere hother)

end Statements

/-! ### Confined transactions -/

namespace Pipeline
variable {D J : String → Prop} {s₀ : Store} {d jobId : String}

/-- What a check on a job writes is on the job and its document. -/
theorem checks_confined {job : Job} (hj : s₀.MayWrite J job.id)
    (hdoc : ∀ d, job.documentId = some d → D d) :
    Checks (fun _ _ t => t.Keeps (s₀.Confined D J)) job :=
  .of_statements (Jobs.statement_confined hj) (Jobs.insertEvent_confined hj)
    (fun d hd => Pages.upsert_confined (hdoc d hd))
    (fun d hd _ _ => Documents.changeFrom_confined (hdoc d hd) _ fun _ => rfl)
    fun d hd _ => Documents.changeFrom_confined (hdoc d hd) _ fun _ => rfl

/-- What an ingestion writes is on its document and on its job. -/
theorem works_confined {document : Document} (hd : D document.id) (hj : s₀.MayWrite J jobId) :
    Works (fun _ _ t => t.Keeps (s₀.Confined D J)) document jobId :=
  .of_statements (Jobs.statement_confined hj) (Jobs.insertEvent_confined hj)
    (Pages.upsert_confined hd)
    (fun _ _ => Documents.changeFrom_confined hd _ fun _ => rfl)
    fun _ => Documents.changeFrom_confined hd _ fun _ => rfl

/-- The job that has taken the lock may be written. -/
theorem lockDocument_confined (hd : D d) (ownerId jobId : String) (now : Instant) (heartbeat : Respite)
    {s : Store} (h : s₀.Confined D J s) :
    (lockDocument d ownerId jobId now heartbeat).wp (fun locked s' => s₀.Confined D J s' ∧
      D locked.1.id ∧ s₀.MayWrite J locked.2.id) (fun _ => True) s := by
  unfold lockDocument
  rw [wp_bind]
  refine ownDocument_wp (fun document hdocument => ?_) fun _ => trivial
  dsimp only
  rw [wp_bind, wp_widen]
  have hwanted : ∀ d', (NewJob.onDocument ownerId d .documentExtract).documentId = some d' → D d' := by
    rintro _ ⟨⟩
    exact hd
  refine wp_mono (tryAcquire_confined hwanted jobId now heartbeat h) (fun outcome s₁ hacquired => ?_)
    fun _ _ => trivial
  obtain ⟨h₁, hjob⟩ := hacquired
  cases outcome with
  | alreadyLocked => trivial
  | acquired job =>
    have hmay := hjob job rfl
    rw [wp_bind, wp_widen]
    have hmoved : (Documents.transition d [.uploading, .failed] .processing now.timestamp).Keeps
        (s₀.Confined D J) := Documents.changeFrom_confined hd _ fun _ => rfl
    refine wp_mono (hmoved s₁ h₁) (fun moved s₂ h₂ => ?_) fun _ _ => trivial
    simp only [wp_bind, wp_widen, wp_require]
    refine ⟨fun _ => ?_, fun _ => trivial⟩
    refine wp_mono (Pages.deleteAll_confined hd s₂ h₂) (fun cleared s₃ h₃ => ?_) fun _ _ => trivial
    rw [wp_bind, wp_widen]
    refine wp_mono (Jobs.insertEvent_confined hmay _ _ _ _ _ s₃ h₃) (fun _ s₄ h₄ => ?_)
      fun _ _ => trivial
    exact ⟨h₄, hdocument ▸ hd, hmay⟩

theorem editPage_confined (hd : D d) (ownerId : String) (pageNo : UInt32) (text : Option String)
    (now : String) : (editPage d ownerId pageNo text now).Keeps (s₀.Confined D J) :=
  editPage_keeps (fun pageNo text now => Pages.setEdit_confined hd pageNo text ownerId now) pageNo
    text now

theorem publishDraft_confined (hd : D d) (ownerId : String) (o : PublishOptions) (ids : PublishIds)
    (now : Instant) (heartbeat : Respite) :
    (publishDraft d ownerId o ids now heartbeat).Keeps (s₀.Confined D J) := by
  refine publishDraft_keeps (fun v hv => Versions.insert_confined (hv ▸ hd))
    (fun _ _ _ => Documents.changeFrom_confined hd _ fun _ => rfl)
    (fun _ _ _ _ _ _ => Jobs.insert_confined fun _ => nofun) ownerId o ids now heartbeat

end Pipeline

/-! ### Confined operations -/

/-- Whatever becomes of a run, and wherever it is broken off, others are spared. -/
structure Run.Spares {ε α : Type} (r : Run ε α) (D J : String → Prop) (s : Store) : Prop where
  passes {σ : Type} (w : Surroundings σ) (x : σ) :
    ∀ m, w.Passes r.run (s, x) m → s.SparesOthers D J m.1
  ends {σ : Type} (w : Surroundings σ) (x : σ) :
    ∀ o m, w.Runs r.run (s, x) o m → s.SparesOthers D J m.1

/-- The transactions keep a store confined, and meet confined stores. -/
def Dialogue.confined (D J : String → Prop) (s₀ : Store) : Dialogue :=
  (Dialogue.issuing fun _ _ t => t.Keeps (s₀.Confined D J)).among (s₀.Confined D J)

theorem Run.Abides.spares {ε α : Type} {D J : String → Prop} {s : Store} {r : Run ε α}
    (h : r.Abides (.confined D J s) fun _ => True)
    (hs : ∀ r ∈ s.jobs, J r.id → ∀ d, r.documentId = some d → D d) : r.Spares D J s := by
  have hleads {σ : Type} (w : Surroundings σ) (x : σ) :
      (∀ m, w.Passes r.run (s, x) m → s.Confined D J m.1) ∧
        ∀ o m, w.Runs r.run (s, x) o m → s.Confined D J m.1 := by
    refine (Surroundings.leads_iff r.run (s, x) (.refl hs)).mp ?_
    have hanswers {β : Type} (op : Effect β) (m : Moment σ) (b : β) (n : Moment σ)
        (hm : s.Confined D J m.1) (hb : w.answers op m b n) : (Dialogue.confined D J s).gives op b :=
      ⟨op.gives_of_answers hm hb, trivial⟩
    exact (h.run.leads (fun ht => ht) hanswers (fun _ h => h) (s, x) (.refl hs)).mono
      fun _ _ h => h.2
  exact ⟨fun w x m hm => ((hleads w x).1 m hm).toSparesOthers,
    fun w x o m hm => ((hleads w x).2 o m hm).toSparesOthers⟩

namespace Pipeline
variable (p : Pipeline) {D J : String → Prop} {s : Store} {d jobId : String}

/-- A job that may be written can be checked on. -/
theorem checked_confined {job : Job}
    (h : s.MayWrite J job.id ∧ ∀ d, job.documentId = some d → D d) :
    Checked (.confined D J s) job :=
  .of_asks (checks_confined h.1 h.2) fun _ _ => trivial

theorem find_confined (hj : s.MayWrite J jobId) : (Ledger.find jobId).Abides (.confined D J s)
    fun job => s.MayWrite J job.id ∧ ∀ d, job.documentId = some d → D d := by
  refine Ledger.find_abides ((Jobs.find_readOnly jobId).keeps _) fun s' hs' r hr hid job hshows => ?_
  rw [hshows.id, hshows.documentId, hid]
  exact ⟨hj, hs'.own r hr (hid ▸ hj)⟩

theorem wait_confined (hj : s.MayWrite J jobId) :
    (p.wait jobId).Abides (.confined D J s) fun _ => True :=
  p.wait_abides (find_confined hj) fun _ => checked_confined

theorem poll_confined (hj : s.MayWrite J jobId) :
    (p.poll jobId).Abides (.confined D J s) fun _ => True :=
  p.poll_abides (find_confined hj) fun _ => checked_confined

theorem ingest_confined (hd : D d) (ownerId : String) :
    (p.ingest d ownerId).Abides (.confined D J s) fun _ => True := by
  refine p.ingest_abides (Q := fun locked => D locked.1.id ∧ s.MayWrite J locked.2.id)
    (.of_asks (fun _ _ => trivial) _) (fun id now => ?_) (fun _ h => works_confined h.1 h.2)
    fun _ h => p.wait_confined h.2
  have hlock := fun s' (h' : s.Confined D J s') =>
    lockDocument_confined hd ownerId id now p.ledger.heartbeat h'
  exact .transact (fun s' h' => wp_mono (hlock s' h') (fun _ _ h => h.1) fun _ h => h)
    fun s' h' => wp_mono (hlock s' h') (fun _ _ h => h.2) fun _ h => h

theorem saveEdit_confined (hd : D d) (ownerId : String) (pageNo : UInt32) (text : Option String) :
    (saveEdit d ownerId pageNo text).Abides (.confined D J s) fun _ => True :=
  .of_issues (saveEdit_issues (P := fun _ _ t => t.Keeps (s.Confined D J))
    (editPage_confined hd ownerId pageNo text)) (fun ht => ht) fun _ => trivial

theorem publish_confined (l : Ledger) (hd : D d) (ownerId : String) (o : PublishOptions) :
    (publish l d ownerId o).Abides (.confined D J s) fun _ => True :=
  .of_issues (publish_issues l (P := fun _ _ t => t.Keeps (s.Confined D J)) fun ids now =>
    publishDraft_confined hd ownerId o ids now l.heartbeat) (fun ht => ht) fun _ => trivial

end Pipeline

/-- Documents do not affect each other. An ingestion, an edit and a publication leave all rows of
other documents alone, and every job that is there with its events; a check on a job and waiting for
it leave all rows of documents alone that the job is not on, and every other job. None of them adds
or changes an artifact. -/
theorem Pipeline.others_spared (p : Pipeline) (l : Ledger) (s : Store) :
    (∀ d ownerId, (p.ingest d ownerId).Spares (· = d) (fun _ => False) s) ∧
      (∀ jobId, (p.poll jobId).Spares (fun d => s.HasJobOn jobId (some d)) (· = jobId) s) ∧
      (∀ jobId, (p.wait jobId).Spares (fun d => s.HasJobOn jobId (some d)) (· = jobId) s) ∧
      (∀ d ownerId pageNo text,
        (saveEdit d ownerId pageNo text).Spares (· = d) (fun _ => False) s) ∧
      ∀ d ownerId o, (publish l d ownerId o).Spares (· = d) (fun _ => False) s := by
  have hown (jobId : String) : ∀ r ∈ s.jobs, r.id = jobId → ∀ d, r.documentId = some d →
      s.HasJobOn jobId (some d) := fun r hr hid d hd => ⟨r, hr, hid, hd⟩
  have hnone (d : String) : ∀ r ∈ s.jobs, False → ∀ d', r.documentId = some d' → d' = d :=
    fun _ _ h => h.elim
  have hmay (jobId : String) : s.MayWrite (· = jobId) jobId := fun _ => rfl
  refine ⟨fun d ownerId => ?_, fun jobId => ?_, fun jobId => ?_, fun d ownerId pageNo text => ?_,
    fun d ownerId o => ?_⟩
  · exact (p.ingest_confined (D := (· = d)) rfl ownerId).spares (hnone d)
  · exact (p.poll_confined (hmay jobId)).spares (hown jobId)
  · exact (p.wait_confined (hmay jobId)).spares (hown jobId)
  · exact (saveEdit_confined (D := (· = d)) rfl ownerId pageNo text).spares (hnone d)
  · exact (publish_confined l (D := (· = d)) rfl ownerId o).spares (hnone d)

end Quire
