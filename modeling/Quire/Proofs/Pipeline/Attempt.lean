import Quire.Proofs.Job.Finality
import Quire.Proofs.Pipeline.Settling
import Quire.Proofs.Store.Numbering

/-! Attempts to take the text from a document.

An attempt adds one job, and moves nothing but that job and its document. As long as nobody else has
a turn, every transaction of it finds the two as the one before has left them (`Attempt.Stands`);
so none of its changes is refused, and a document whose attempt has failed can be locked again. -/
namespace Quire
open Txn

/-- The lock was not taken, for a reason that the caller can do something about. -/
def PipelineError.isRefusal : PipelineError → Bool
  | .notFound _ _ | .forbidden | .conflict _ | .precondition (.notIngestible _) => true
  | _ => false

/-! ### Documents that can be read -/

theorem DocumentRow.exists_read_iff {r : DocumentRow} : (∃ document, r.read = .ok document) ↔
    (∃ n, r.fileSize.word64 7 "file_size_bytes" = .ok n) ∧
      (∃ n, r.pageCount.word32 9 "page_count" = .ok n) ∧
        ∃ n, r.activeVersion.word32 10 "active_version" = .ok n := by
  constructor
  · rintro ⟨document, hread⟩
    obtain ⟨fileSize, hfileSize, hread⟩ := bind_eq_ok.mp hread
    obtain ⟨pageCount, hpageCount, hread⟩ := bind_eq_ok.mp hread
    obtain ⟨activeVersion, hactiveVersion, -⟩ := bind_eq_ok.mp hread
    exact ⟨⟨_, hfileSize⟩, ⟨_, hpageCount⟩, _, hactiveVersion⟩
  · rintro ⟨⟨fileSize, hfileSize⟩, ⟨pageCount, hpageCount⟩, activeVersion, hactiveVersion⟩
    unfold read
    simp only [hfileSize, hpageCount, hactiveVersion]
    exact ⟨_, rfl⟩

/-- A change of a document that leaves alone whose it is, and after which it can still be read. -/
structure DocumentRow.Plain (f : DocumentRow → DocumentRow) : Prop where
  id : ∀ r, (f r).id = r.id
  ownerId : ∀ r, (f r).ownerId = r.ownerId
  read : ∀ r, (∃ document, r.read = .ok document) → ∃ document, (f r).read = .ok document

theorem DocumentRow.plain_moved (status : DocumentStatus) (now : String) :
    Plain fun r => { r with status := status, updatedAt := now } :=
  ⟨fun _ => rfl, fun _ => rfl, fun r h => exists_read_iff.mpr (exists_read_iff (r := r).mp h)⟩

theorem DocumentRow.plain_draft (pageCount : UInt32) (now : String) :
    Plain fun r =>
      { r with status := .draft, pageCount := .ofNat pageCount.toNat, updatedAt := now } := by
  refine ⟨fun _ => rfl, fun _ => rfl, fun r h => exists_read_iff.mpr ?_⟩
  obtain ⟨hfileSize, -, hactiveVersion⟩ := exists_read_iff.mp h
  exact ⟨hfileSize, ⟨pageCount, Cell.word32_ofNat _ _ _⟩, hactiveVersion⟩

/-! ### Attempts -/

/-- An attempt that has taken the lock: where it has begun, and the job that holds the lock. -/
structure Attempt where
  before : Store
  documentId : String
  ownerId : String
  jobId : String
  new : before.hasJob jobId = false
  /-- Nobody else had the lock. -/
  free : before.holders documentId = []

namespace Attempt

/-- The row of the attempt's job. -/
structure Row (a : Attempt) (r : JobRow) : Prop where
  id : r.id = a.jobId
  documentId : r.documentId = some a.documentId
  kind : r.isExtraction = true
  counted : r.Counted
  legible : r.Legible

/-- The row of the attempt's document. -/
structure Upload (a : Attempt) (r : DocumentRow) : Prop where
  id : r.id = a.documentId
  ownerId : r.ownerId = a.ownerId
  legible : ∃ document, r.read = .ok document

/-- There is one more job than before, with `J`, and its document has `D`. -/
structure Stands (a : Attempt) (J : JobRow → Prop) (D : DocumentRow → Prop) (s : Store) : Prop where
  sound : s.Sound
  job : ∃ r, s.jobs = a.before.jobs ++ [r] ∧ a.Row r ∧ J r
  document : ∃ r ∈ s.documents, a.Upload r ∧ D r

namespace Stands
variable {a : Attempt} {J : JobRow → Prop} {D : DocumentRow → Prop} {s s' : Store}

theorem of_same (h : a.Stands J D s) (hdocuments : s'.documents = s.documents)
    (hjobs : s'.jobs = s.jobs) : a.Stands J D s' :=
  ⟨h.sound.of_same hdocuments hjobs, hjobs ▸ h.job, hdocuments ▸ h.document⟩

theorem row (h : a.Stands J D s) : ∃ r ∈ s.jobs, a.Row r ∧ J r := by
  obtain ⟨r, hjobs, hrow, hr⟩ := h.job
  exact ⟨r, by simp [hjobs], hrow, hr⟩

theorem hasJob (h : a.Stands J D s) : s.hasJob a.jobId = true := by
  obtain ⟨r, hr, hrow, -⟩ := h.row
  exact Store.hasJob_iff.mpr ⟨r, hr, hrow.id⟩

/-- The job is read as what its row shows. -/
theorem find_run (h : a.Stands J D s) : ∃ r job, J r ∧ r.read = .ok job ∧ a.Row r ∧
    (Jobs.find a.jobId).run s = (.ok (some job), s) := by
  obtain ⟨r, hr, hrow, hJ⟩ := h.row
  obtain ⟨job, hread⟩ := hrow.counted.exists_read_iff.mpr hrow.legible
  exact ⟨r, job, hJ, hread, hrow, hrow.id ▸ Jobs.find_run h.sound hr hread⟩

/-! #### Changes of the job -/

/-- A change of the job while it is open leaves the other jobs alone. -/
theorem change (h : a.Stands J D s) (hopen : ∀ r, J r → r.isActive = true) (c : Jobs.Change)
    (now : String) (hlegible : ∀ r, r.Legible → (c.apply now r).Legible)
    (hJ : ∀ r, J r → K (c.apply now r)) : a.Stands K D (Jobs.changed s a.jobId now c) := by
  refine ⟨h.sound.changeJob a.jobId now c, ?_, h.document⟩
  obtain ⟨r, hjobs, hrow, hr⟩ := h.job
  have hothers : ∀ b ∈ a.before.jobs, Jobs.isOpen a.jobId b = false := by
    have hnew : ∀ b ∈ a.before.jobs, b.id ≠ a.jobId := by simpa [Store.hasJob] using a.new
    exact fun b hb => by simp [Jobs.isOpen, hnew b hb]
  have hlast : Jobs.isOpen a.jobId r = true := Jobs.isOpen_iff.mpr ⟨hrow.id, hopen r hr⟩
  refine ⟨c.apply now r, ?_, ⟨?_, ?_, ?_, hrow.counted.apply now c, hlegible r hrow.legible⟩,
    hJ r hr⟩
  · show changeWhere _ _ s.jobs = _
    rw [hjobs]
    unfold changeWhere
    rw [List.map_append]
    refine congrArg₂ (· ++ ·) (changeWhere_none hothers) ?_
    simp [hlast]
  · exact (c.apply_id now r).trans hrow.id
  · exact (c.apply_documentId now r).trans hrow.documentId
  · unfold JobRow.isExtraction
    rw [c.apply_jobType]
    exact hrow.kind

/-- The job is open: a change of it is made. -/
theorem guarded_wp (h : a.Stands J D s) (hopen : ∀ r, J r → r.isActive = true) (c : Jobs.Change)
    (now : String) {Q : Unit → Store → Prop} {E : JobError → Prop}
    (hQ : Q () (Jobs.changed s a.jobId now c)) :
    (guarded a.jobId (c.statement a.jobId now)).wp Q E s := by
  refine Jobs.guarded_wp h.sound.apart c a.jobId now (fun _ => hQ) fun hclosed => ?_
  obtain ⟨r, hr, hrow, hJ⟩ := h.row
  exact absurd (Jobs.isOpen_iff.mpr ⟨hrow.id, hopen r hJ⟩) (by simp [hclosed r hr])

/-- An event of the job is added. -/
theorem note_wp (h : a.Stands J D s) (kind : EventKind) (step : Option String) (message : String)
    (trace : Option String) (now : String) {Q : Unit → Store → Prop} {E : StoreError → Prop}
    (hQ : ∀ s' : Store, s'.documents = s.documents → s'.jobs = s.jobs → s'.pages = s.pages →
      (∃ id, s'.events = s.events ++ [⟨id, a.jobId, kind, step, message, trace, now⟩]) → Q () s') :
    (Jobs.insertEvent a.jobId kind step message trace now).wp Q E s := by
  simp only [Jobs.insertEvent, wp_bind, wp_store, wp_require, wp_modify, h.hasJob]
  exact ⟨fun _ => hQ _ rfl rfl rfl ⟨_, rfl⟩, by simp⟩

/-! #### Changes of the document -/

/-- A change of the document from some statuses: if it is changed, it has been in one of them. -/
theorem turn_wp (h : a.Stands J D s) {f : DocumentRow → DocumentRow} (hf : DocumentRow.Plain f)
    {allowed : List DocumentStatus} (hD : ∀ r, D r → r.status ∈ allowed → T (f r))
    {Q : Nat → Store → Prop} {E : StoreError → Prop}
    (hQ : ∀ n (s' : Store), s'.jobs = s.jobs → s'.pages = s.pages → s'.events = s.events →
      (0 < n → a.Stands J T s') → ((∀ r, D r → r.status ∈ allowed) → 0 < n) → Q n s') :
    (Documents.changeFrom a.documentId allowed f).wp Q E s := by
  simp only [Documents.changeFrom, wp_bind, wp_store, wp_modify, wp_pure]
  obtain ⟨r, hr, hupload, hdocument⟩ := h.document
  refine hQ _ _ rfl rfl rfl (fun hmoved => ?_) fun hall => ?_
  · obtain ⟨b, hb⟩ := List.exists_mem_of_length_pos hmoved
    obtain ⟨hmem, hstarts⟩ := List.mem_filter.mp hb
    obtain ⟨hid, hallowed⟩ : b.id = a.documentId ∧ b.status ∈ allowed := by simpa using hstarts
    obtain rfl : b = r := h.sound.document_unique hmem hr (hid.trans hupload.id.symm)
    refine ⟨h.sound.changeDocuments hf.id, h.job, f b, mem_changeWhere.mpr ⟨b, hr, ?_⟩, ?_,
      hD b hdocument hallowed⟩
    · rw [if_pos hstarts]
    · exact ⟨(hf.id b).trans hupload.id, (hf.ownerId b).trans hupload.ownerId,
        hf.read b hupload.legible⟩
  · refine List.length_pos_of_mem (a := r) (List.mem_filter.mpr ⟨hr, ?_⟩)
    simpa [hupload.id] using hall r hdocument

end Stands

/-! ### Stages -/

/-- The text is being taken: the job is open and has no operation, and the document has no page. -/
structure Extracting (a : Attempt) (s : Store) : Prop where
  stands : a.Stands (fun r => r.isActive = true ∧ r.operationHandle = none)
    (·.status = .processing) s
  bare : s.pagesOf a.documentId = []

/-- The job waits for an operation on a copy of the upload. -/
def Waiting (a : Attempt) (handle : String) (staging : Staging) : Store → Prop :=
  a.Stands (fun r => r.status = .polling ∧ r.operationHandle = some handle ∧
    r.params = .ofJson staging.toJson) (·.status = .processing)

/-- The job is completed and its document is a draft with so many pages. -/
def Completed (a : Attempt) (handle : Option String) (pageCount : Nat) : Store → Prop :=
  a.Stands (fun r => r.status = .completed ∧ r.operationHandle = handle)
    fun r => r.status = .draft ∧ r.pageCount = .ofNat pageCount

/-- Job and document have failed. -/
def Failed (a : Attempt) (message : String) : Store → Prop :=
  a.Stands (fun r => r.status = .failed ∧ r.errorMessage = some message) (·.status = .failed)

/-- The failure is recorded, with its full text, and no page is left. -/
structure Recorded (a : Attempt) (e : PipelineError) (s : Store) : Prop where
  failed : a.Failed e.publicMessage s
  bare : s.pagesOf a.documentId = []
  told : ∃ event ∈ s.events, event.jobId = a.jobId ∧ event.kind = .error ∧
    event.trace = some (Failure.message e)

section Stages
variable {a : Attempt} {s s' : Store}

theorem Extracting.of_same (h : a.Extracting s) (hdocuments : s'.documents = s.documents)
    (hjobs : s'.jobs = s.jobs) (hpages : s'.pages = s.pages) : a.Extracting s' := by
  refine ⟨h.stands.of_same hdocuments hjobs, ?_⟩
  unfold Store.pagesOf
  rw [hpages]
  exact h.bare

/-- The job is set running, or progress is recorded. -/
theorem Extracting.mark_wp (h : a.Extracting s) {c : Jobs.Change}
    (hc : c = .running ∨ ∃ done total percent step, c = .progressed done total percent step)
    (now : String) :
    (guarded a.jobId (c.statement a.jobId now)).wp (fun _ => a.Extracting) (fun _ => False) s := by
  refine h.stands.guarded_wp (fun _ hr => hr.1) c now ⟨h.stands.change (fun _ hr => hr.1) c now ?_ ?_,
    h.bare⟩
  · rcases hc with rfl | ⟨_, _, _, _, rfl⟩
    · exact fun _ hr => ⟨hr.params, hr.result⟩
    · exact fun _ hr => ⟨hr.params, hr.result⟩
  · rcases hc with rfl | ⟨_, _, _, _, rfl⟩
    · exact fun _ hr => ⟨rfl, hr.2⟩
    · exact fun _ hr => hr

theorem Extracting.note_wp (h : a.Extracting s) (kind : EventKind) (step : Option String)
    (message : String) (trace : Option String) (now : String) :
    (Jobs.insertEvent a.jobId kind step message trace now).wp (fun _ => a.Extracting)
      (fun _ => False) s :=
  h.stands.note_wp kind step message trace now fun _ hdocuments hjobs hpages _ =>
    h.of_same hdocuments hjobs hpages

/-- The job is given an operation. -/
theorem Extracting.polling_wp (h : a.Extracting s) (handle now timeoutAt : String)
    (staging : Staging) :
    (guarded a.jobId ((Jobs.Change.polling handle staging.toJson timeoutAt).statement a.jobId
      now)).wp (fun _ => a.Waiting handle staging) (fun _ => False) s := by
  refine h.stands.guarded_wp (fun _ hr => hr.1) _ now (h.stands.change (fun _ hr => hr.1) _ now ?_ ?_)
  · exact fun _ hr => ⟨⟨_, (stored_staging staging).1⟩, hr.result⟩
  · exact fun _ _ => ⟨rfl, rfl, rfl⟩

theorem legible_completed {r : JobRow} (hr : r.Legible) {result : Json}
    (hresult : result.isDurable = true) (now : String) :
    ((Jobs.Change.completed (some result)).apply now r).Legible := by
  refine ⟨hr.params, fun stored hstored => ⟨result, ?_⟩⟩
  obtain rfl : StoredJson.ofJson result = stored := Option.some.inj hstored
  exact StoredJson.read_ofJson hresult

/-- A failed ingestion is recorded, with its full text. -/
theorem Extracting.recordFailure_wp (h : a.Extracting s) {document : Document}
    (hdocument : document.id = a.documentId) (e : PipelineError) (now : String) :
    (Pipeline.recordFailure document a.jobId e now).wp (fun _ => a.Recorded e) (fun _ => False)
      s := by
  have hfailed := h.stands.change (K := fun r => r.status = .failed ∧
    r.errorMessage = some e.publicMessage) (fun _ hr => hr.1) (.failed e.publicMessage) now
    (fun _ hr => ⟨hr.params, hr.result⟩) fun _ _ => ⟨rfl, rfl⟩
  unfold Pipeline.recordFailure
  rw [wp_bind]
  refine (Jobs.statement_wp h.stands.sound.apart (.failed e.publicMessage) a.jobId now).mpr ?_
  rw [wp_bind, hdocument]
  refine hfailed.turn_wp (DocumentRow.plain_moved .failed now) (T := (·.status = .failed))
    (fun _ _ _ => rfl) fun n s₁ hjobs hpages hevents hstands hmoved => ?_
  have hstands := hstands (hmoved fun r hr => by simp [hr])
  refine hstands.note_wp _ _ _ _ _ fun s₂ hdocuments hjobs₂ hpages₂ hevents₂ => ?_
  obtain ⟨id, hevents₂⟩ := hevents₂
  refine ⟨hstands.of_same hdocuments hjobs₂, ?_, ⟨_, hevents₂ ▸ List.mem_append_right _
    (List.mem_singleton_self _), rfl, rfl, rfl⟩⟩
  unfold Store.pagesOf
  rw [hpages₂, hpages]
  exact h.bare

/-- Pages that are numbered in turn are stored, and the document is done, unless there are more than
can be numbered. -/
theorem Extracting.finishWith_wp (h : a.Extracting s) {document : Document}
    (hdocument : document.id = a.documentId) {pages : List NewPage} (hpages : NewPage.InTurn pages)
    (source now : String) :
    (Pipeline.finishWith document a.jobId pages source now).wp
      (fun _ s' => pages.length < UInt32.size ∧ a.Completed none pages.length s' ∧
        s'.Files a.documentId pages)
      (fun e => UInt32.size ≤ pages.length ∧ ∃ fault, e = .internal (.store fault)) s := by
  have hstored : (Pages.upsertAll a.documentId now pages).wp
      (fun _ s' => pages.length < UInt32.size ∧ s'.Files a.documentId pages)
      (fun _ => UInt32.size ≤ pages.length) s := by
    by_cases hlength : pages.length < UInt32.size
    · obtain ⟨r, hr, hupload, -⟩ := h.stands.document
      have hdoc := Store.hasDocument_iff.mpr ⟨r, hr, hupload.id⟩
      refine wp_mono ((Store.Files.nil_iff.mpr h.bare).upsertAll_wp hdoc (hpages.nodup hlength) now)
        (fun _ _ hs => ⟨hlength, hs⟩) fun _ ⟨p, hp, hno⟩ => ?_
      exact absurd (hpages.positive hlength hp) hno
    · exact wp_mono (Pages.upsertAll_positive a.documentId now pages s)
        (fun _ _ hs => absurd (hpages.length_lt hs) hlength) fun _ _ => Nat.le_of_not_lt hlength
  unfold Pipeline.finishWith
  simp only [wp_bind, wp_widen, hdocument]
  refine wp_mono (wp_and hstored ((Pages.upsertAll_aside a.documentId now pages).wp s))
    (fun _ s₁ hs₁ => ?_) fun fault hfault => ⟨hfault.1, fault, rfl⟩
  obtain ⟨⟨hlength, hfiles⟩, hdocuments, hjobs⟩ := hs₁
  have hstands := h.stands.of_same hdocuments hjobs
  simp only [wp_bind, wp_widen]
  refine hstands.turn_wp (DocumentRow.plain_draft (UInt32.ofNat pages.length) now)
    (T := fun r => r.status = .draft ∧ r.pageCount = .ofNat pages.length)
    (fun _ _ _ => ⟨rfl, by rw [UInt32.toNat_ofNat_of_lt' hlength]⟩)
    fun n s₂ _ hpages₂ _ hdraft hmoved => ?_
  have hn : 0 < n := hmoved fun r hr => by simp [hr]
  have hdraft := hdraft hn
  simp only [wp_bind, wp_widen, wp_require]
  refine ⟨fun _ => ?_, fun hnone => absurd hn (by simpa using hnone)⟩
  refine hdraft.guarded_wp (fun _ hr => hr.1) (.completed _) now ⟨hlength, ?_, ?_⟩
  · exact hdraft.change (fun _ hr => hr.1) (.completed _) now
      (fun _ hr => legible_completed hr rfl now) fun _ hr => ⟨rfl, hr.2⟩
  · exact hfiles.of_same hpages₂

/-! ### Waiting -/

variable {handle : String} {staging : Staging}

theorem Waiting.isActive {r : JobRow} (hr : r.status = .polling ∧ r.operationHandle = some handle ∧
    r.params = .ofJson staging.toJson) : r.isActive = true := by
  simp [JobRow.isActive, hr.1, JobStatus.isTerminal]

/-- A sign of life or progress. -/
theorem Waiting.mark_wp (h : a.Waiting handle staging s) {c : Jobs.Change} (hc : c.target? = none)
    (now : String) :
    (guarded a.jobId (c.statement a.jobId now)).wp (fun _ => a.Waiting handle staging)
      (fun _ => False) s := by
  refine Stands.guarded_wp h (fun _ => Waiting.isActive) c now
    (Stands.change h (fun _ => Waiting.isActive) c now ?_ ?_)
  · cases c <;> first | exact fun _ hr => ⟨hr.params, hr.result⟩ | cases hc
  · cases c <;> first | exact fun _ hr => hr | cases hc

theorem Waiting.note_wp (h : a.Waiting handle staging s) (kind : EventKind) (step : Option String)
    (message : String) (trace : Option String) (now : String) :
    (Jobs.insertEvent a.jobId kind step message trace now).wp (fun _ => a.Waiting handle staging)
      (fun _ => False) s :=
  Stands.note_wp h kind step message trace now fun _ hdocuments hjobs _ _ =>
    Stands.of_same h hdocuments hjobs

/-- While results are collected the job waits. -/
theorem Waiting.collects (a : Attempt) (handle : String) (staging : Staging) :
    Collects (fun _ _ t => t.Keeps (a.Waiting handle staging)) a.jobId a.documentId where
  progress now done total percent step _ hs :=
    wp_mono (hs.mark_wp (c := .progressed done total percent step) rfl now) (fun _ _ h => h)
      fun _ h => h.elim
  storePages now pages s hs :=
    wp_mono ((Pages.upsertAll_aside a.documentId now pages).wp s)
      (fun _ _ h => Stands.of_same hs h.1 h.2) fun _ h => h
  listPages := (Pages.list_readOnly a.documentId).keeps _

/-- Job and document are done. -/
theorem Waiting.completeJob_wp (h : a.Waiting handle staging s) (c : Collected)
    (cleanupFailed : Bool) (now : String) :
    (Pipeline.completeJob a.jobId a.documentId c cleanupFailed now).wp
      (fun _ => a.Completed (some handle) c.pageCount.toNat) (fun _ => False) s := by
  unfold Pipeline.completeJob
  simp only [wp_bind, wp_widen]
  refine Stands.turn_wp h (DocumentRow.plain_draft c.pageCount now)
    (T := fun r => r.status = .draft ∧ r.pageCount = .ofNat c.pageCount.toNat)
    (fun _ _ _ => ⟨rfl, rfl⟩) fun n s₁ _ _ _ hdraft hmoved => ?_
  have hn : 0 < n := hmoved fun r hr => by simp [hr]
  have hdraft := hdraft hn
  simp only [wp_bind, wp_widen, wp_require]
  refine ⟨fun _ => ?_, fun hnone => absurd hn (by simpa using hnone)⟩
  have hcompleted : a.Completed (some handle) c.pageCount.toNat
      (Jobs.changed s₁ a.jobId now (.completed (some (Pipeline.summary c cleanupFailed)))) :=
    hdraft.change (fun _ => Waiting.isActive) _ now
      (fun _ hr => legible_completed hr (Pipeline.summary_isDurable c cleanupFailed) now)
      fun _ hr => ⟨rfl, hr.2.1⟩
  refine hdraft.guarded_wp (fun _ => Waiting.isActive) (.completed _) now ?_
  rw [wp_widen]
  exact Stands.note_wp hcompleted _ _ _ _ _ fun _ hdocuments hjobs _ _ =>
    Stands.of_same hcompleted hdocuments hjobs

/-- Job and document fail. -/
theorem Waiting.failJob_wp (h : a.Waiting handle staging s) {job : Job} (hid : job.id = a.jobId)
    (hdocument : job.documentId = some a.documentId) (message : String) (detail : Option String)
    (now : String) :
    (Pipeline.failJob job message detail now).wp (fun _ => a.Failed message) (fun _ => False) s := by
  have hfailed := Stands.change h (K := fun r => r.status = .failed ∧ r.errorMessage = some message)
    (fun _ => Waiting.isActive) (.failed message) now (fun _ hr => ⟨hr.params, hr.result⟩)
    fun _ _ => ⟨rfl, rfl⟩
  unfold Pipeline.failJob
  rw [wp_bind, wp_widen, hid, hdocument]
  refine Stands.guarded_wp h (fun _ => Waiting.isActive) (.failed message) now ?_
  simp only [wp_bind, wp_widen]
  refine hfailed.turn_wp (DocumentRow.plain_moved .failed now) (T := (·.status = .failed))
    (fun _ _ _ => rfl) fun n s₁ _ _ _ hstands hmoved => ?_
  have hfailed : a.Failed message s₁ := hstands (hmoved fun r hr => by simp [hr])
  rw [wp_widen]
  refine Stands.note_wp hfailed _ _ _ _ _ fun s₂ hdocuments hjobs _ _ => ?_
  exact Stands.of_same hfailed hdocuments hjobs

end Stages

/-! ### The lock -/

section Lock
variable {s : Store}

theorem row_queued (a : Attempt) (now : Instant) (heartbeat : Respite) :
    a.Row ((NewJob.onDocument a.ownerId a.documentId .documentExtract).row a.jobId now heartbeat) :=
  ⟨rfl, rfl, rfl, JobRow.counted_rowOf _ _, ⟨⟨.object [], rfl⟩, fun _ h => nomatch h⟩⟩

/-- A document that belongs to the one who asks is read from its row. -/
theorem ownDocument_wp {documentId ownerId : String}
    {Q : Document → Store → Prop} {E : PipelineError → Prop}
    (hQ : ∀ r ∈ s.documents, r.id = documentId → r.ownerId = ownerId →
      ∀ document, r.read = .ok document → Q document s)
    (hmissing : E (.notFound .document documentId)) (hforbidden : E .forbidden)
    (hunread : ∀ fault, E (.internal (.store fault))) :
    (Pipeline.ownDocument documentId ownerId).wp Q E s := by
  unfold Pipeline.ownDocument Documents.find
  simp only [wp_bind, wp_widen, wp_store]
  split
  case h_1 => exact hmissing
  case h_2 r hfound =>
    have hid : r.id = documentId := by simpa using List.find?_some hfound
    simp only [wp_bind, wp_ofExcept, wp_pure, wp_require]
    refine ⟨fun document hread => ⟨fun howner => ?_, fun _ => hforbidden⟩, fun fault _ =>
      hunread fault⟩
    have hshows := DocumentRow.shows_of_read hread
    exact hQ r (List.mem_of_find?_eq_some hfound) hid
      (hshows.ownerId.symm.trans (by simpa using howner)) document hread

/-- Whoever has taken the lock begins an attempt; who has not is told why. -/
theorem lockDocument_wp (hs : s.Sound) (documentId ownerId jobId : String) (now : Instant)
    (heartbeat : Respite) :
    (Pipeline.lockDocument documentId ownerId jobId now heartbeat).wp
      (fun locked s' => ∃ a : Attempt, a.before = s ∧ a.documentId = documentId ∧
        a.ownerId = ownerId ∧ (∃ r ∈ s.documents, r.id = documentId ∧ r.read = .ok locked.1) ∧
          locked.2.id = a.jobId ∧ a.Extracting s')
      (fun e => e.isRefusal = true ∨ ∃ fault, e = .internal (.store fault)) s := by
  unfold Pipeline.lockDocument
  rw [wp_bind]
  refine ownDocument_wp (fun r hr hid howner document hread => ?_) (.inl rfl) (.inl rfl)
    fun fault => .inr ⟨fault, rfl⟩
  dsimp only
  rw [wp_bind, wp_widen]
  refine tryAcquire_wp rfl (.inl rfl) (fun hfree hsound => ?_) hs fun fault => .inr ⟨fault, rfl⟩
  have hnew : s.hasJob jobId = false := by
    have hids := hsound.jobIds
    rw [List.map_append, List.nodup_append'] at hids
    simpa [Store.hasJob, NewJob.row, Jobs.rowOf, NewJob.toJob] using hids.2.2
  let a : Attempt := ⟨s, documentId, ownerId, jobId, hnew, hfree⟩
  have hstands : a.Stands (fun r => r.isActive = true ∧ r.operationHandle = none) (fun _ => True)
      { s with jobs := s.jobs ++ [(NewJob.onDocument ownerId documentId .documentExtract).row jobId now
        heartbeat] } :=
    ⟨hsound, ⟨_, rfl, row_queued a now heartbeat, rfl, rfl⟩, r, hr, ⟨hid, howner, document, hread⟩,
      trivial⟩
  simp only [wp_bind, wp_widen]
  refine hstands.turn_wp (DocumentRow.plain_moved .processing now.timestamp)
    (T := (·.status = .processing)) (fun _ _ _ => rfl) fun n s₁ _ _ _ hmoved _ => ?_
  simp only [wp_bind, wp_widen, wp_require]
  refine ⟨fun hn => ?_, fun _ => .inl ?_⟩
  · have hlocked := hmoved (of_decide_eq_true hn)
    simp only [Pages.deleteAll, wp_bind, wp_widen, wp_store, wp_modify, wp_pure]
    let s₂ : Store := { s₁ with pages := s₁.pages.filter (·.documentId != documentId) }
    have hextracting : a.Extracting s₂ := by
      refine ⟨hlocked.of_same rfl rfl, ?_⟩
      show (s₁.pages.filter (·.documentId != documentId)).filter (·.documentId == documentId) = []
      rw [List.filter_filter, List.filter_eq_nil_iff]
      simp
    refine wp_mono (hextracting.note_wp _ _ _ _ _) (fun _ s₃ hs₃ => ?_) fun _ h => h.elim
    exact ⟨a, rfl, rfl, rfl, ⟨r, hr, hid, hread⟩, rfl, hs₃⟩
  · unfold Pipeline.notIngestible
    cases document.status <;> rfl

/-- Once an attempt has failed, the document can be locked again. -/
theorem Failed.lock {a : Attempt} {message : String} (h : a.Failed message s) {jobId : String}
    (hid : s.hasJob jobId = false) (now : Instant) (heartbeat : Respite) :
    (Pipeline.lockDocument a.documentId a.ownerId jobId now heartbeat).wp (fun _ _ => True)
      (fun _ => False) s := by
  obtain ⟨r, hr, hupload, hfailed⟩ := h.document
  obtain ⟨document, hread⟩ := hupload.legible
  have hthere : s.hasDocument a.documentId = true := Store.hasDocument_iff.mpr ⟨r, hr, hupload.id⟩
  have hfree : s.holders a.documentId = [] := by
    obtain ⟨b, hjobs, -, hb⟩ := h.job
    have hended : b.holds a.documentId = false := by
      refine Bool.eq_false_iff.mpr fun hholds => ?_
      have hactive := (JobRow.holds_iff.mp hholds).2
      simp [JobRow.isActive, hb.1, JobStatus.isTerminal] at hactive
    unfold Store.holders
    rw [hjobs, List.filter_append, List.filter_singleton, hended]
    exact (List.append_nil _).trans a.free
  have hacquired := tryAcquire_run (NewJob.onDocument a.ownerId a.documentId .documentExtract) jobId
    now heartbeat rfl hid
  rw [if_neg (not_not.mpr hfree), if_pos hthere] at hacquired
  unfold Pipeline.lockDocument Pipeline.ownDocument Documents.find
  have hfind : s.documents.find? (·.id == a.documentId) = some r :=
    hupload.id ▸ find?_key h.sound.documentIds hr
  have howner : document.ownerId = a.ownerId :=
    (DocumentRow.shows_of_read hread).ownerId.trans hupload.ownerId
  simp only [wp_bind, wp_widen, wp_store, hfind, hread, wp_ofExcept_ok, wp_pure, wp_require, howner,
    beq_self_eq_true, true_implies, Bool.true_eq_false, false_implies, and_true]
  refine wp_of_run hacquired ?_
  simp only [Documents.transition, Documents.changeFrom, Pages.deleteAll, Jobs.insertEvent, wp_bind,
    wp_widen, wp_store, wp_modify, wp_pure, wp_require]
  refine ⟨fun _ => ⟨fun _ => trivial, fun hmissing => ?_⟩, fun hnone => ?_⟩
  · have hqueued : (s.jobs ++ [(NewJob.onDocument a.ownerId a.documentId .documentExtract).row jobId
        now heartbeat]).any (·.id == jobId) = true := by
      simp [NewJob.row, Jobs.rowOf, NewJob.toJob]
    exact absurd (hqueued.symm.trans hmissing) (by decide)
  · have hmoved : r ∈ s.documents.filter fun r =>
        r.id == a.documentId && [DocumentStatus.uploading, .failed].contains r.status :=
      List.mem_filter.mpr ⟨hr, by simp [hupload.id, hfailed]⟩
    exact absurd (List.length_pos_of_mem hmoved) (of_decide_eq_false hnone)

end Lock
end Attempt
end Quire
