import Quire.Pipeline.Poll
import Quire.Proofs.Store.Soundness

/-! Documents and jobs agree.

A document is processing if and only if there is a job on it that has not ended; whatever is polled
can be checked on. The two tables are changed by different statements, so each transaction has to
change both. What it takes is said once here, for a job that ends together with the processing of
its document, and for the changes that do not concern any document. -/
namespace Quire

/-- The job extracts the text of a document. -/
def JobRow.isExtraction (r : JobRow) : Bool := r.jobType == Label.word JobType.documentExtract

/-- The job has recorded where the files of its operation are. -/
def JobRow.HasStaging (r : JobRow) : Prop :=
  ∃ params staging, r.params.read = .ok params ∧ Json.readValue Staging.shape params = .ok staging

/-- Extractions, and only they, are on documents; and whatever is polled is an extraction that can
be checked on. -/
structure JobRow.Kept (r : JobRow) : Prop where
  document : r.isExtraction = true ↔ r.documentId.isSome = true
  polled : r.status = .polling → r.isExtraction = true
  handle : r.status = .polling → r.operationHandle.isSome = true
  staging : r.status = .polling → r.HasStaging

/-- A job on the document has not ended. -/
def Store.Locked (s : Store) (d : String) : Prop :=
  ∃ r ∈ s.jobs, r.isActive = true ∧ r.documentId = some d

/-- Documents and jobs agree. -/
structure Store.Linked (s : Store) : Prop where
  sound : s.Sound
  rows : ∀ r ∈ s.jobs, r.Kept
  link : ∀ d ∈ s.documents, d.status = .processing ↔ s.Locked d.id

/-- Documents and jobs agree, and every extraction is polled until it ends; but for one, perhaps,
that is under way. -/
structure Store.Calm (busy : Option String) (s : Store) : Prop extends s.Linked where
  polling : ∀ r ∈ s.jobs, r.isActive = true → r.isExtraction = true →
    r.status = .polling ∨ busy = some r.id

/-! ### What lasts -/

/-- There is a job of an id, on a document or on none. -/
def Store.HasJobOn (jobId : String) (d : Option String) (s : Store) : Prop :=
  ∃ r ∈ s.jobs, r.id = jobId ∧ r.documentId = d

/-- The job is on the document, and no other job is, unless it has ended. -/
structure Store.Owns (jobId d : String) (s : Store) : Prop where
  row : s.HasJobOn jobId (some d)
  alone : ∀ r ∈ s.jobs, r.isActive = true → r.documentId = some d → r.id = jobId

/-- A property that lasts as long as no job is added. -/
def Durable (X : Store → Prop) : Prop :=
  ∀ ⦃s s' : Store⦄, (s'.jobs = s.jobs ∨ ∃ id now c, s'.jobs = (Jobs.changed s id now c).jobs) →
    X s → X s'

namespace Durable
variable {X Y : Store → Prop}

theorem always : Durable fun _ => True := fun _ _ _ _ => trivial

theorem and (hX : Durable X) (hY : Durable Y) : Durable fun s => X s ∧ Y s :=
  fun _ _ h hXY => ⟨hX h hXY.1, hY h hXY.2⟩

theorem all {ι : Type} {Y : ι → Store → Prop} (h : ∀ i, Durable (Y i)) :
    Durable fun s => ∀ i, Y i s :=
  fun _ _ hjobs hY i => h i hjobs (hY i)

theorem hasJobOn (jobId : String) (d : Option String) : Durable (Store.HasJobOn jobId d) := by
  rintro s s' hjobs ⟨r, hr, hid, hdoc⟩
  rcases hjobs with hsame | ⟨id, now, c, hchanged⟩
  · exact ⟨r, hsame ▸ hr, hid, hdoc⟩
  · refine ⟨_, by rw [hchanged]; exact mem_changeWhere.mpr ⟨r, hr, rfl⟩, ?_, ?_⟩
    · split
      · rw [c.apply_id, hid]
      · exact hid
    · split
      · rw [c.apply_documentId, hdoc]
      · exact hdoc

theorem owns (jobId d : String) : Durable (Store.Owns jobId d) := by
  intro s s' hjobs h
  refine ⟨hasJobOn jobId (some d) hjobs h.row, fun r' hr' hactive hdoc => ?_⟩
  rcases hjobs with hsame | ⟨id, now, c, hchanged⟩
  · exact h.alone r' (hsame ▸ hr') hactive hdoc
  · obtain ⟨r, hr, rfl⟩ := mem_changeWhere.mp (hchanged ▸ hr')
    by_cases hopen : Jobs.isOpen id r = true
    · rw [if_pos hopen] at hdoc ⊢
      rw [c.apply_documentId] at hdoc
      rw [c.apply_id]
      exact h.alone r hr (Jobs.isOpen_iff.mp hopen).2 hdoc
    · rw [if_neg hopen] at hactive hdoc ⊢
      exact h.alone r hr hactive hdoc

end Durable

/-! ### A job that is changed -/

namespace Jobs.Change

/-- The change ends the job. -/
def ends (c : Change) : Bool := c.target?.any JobStatus.isTerminal

section
variable {c : Change} {now : String} {r : JobRow}

theorem isActive_of_ends (h : c.ends = true) : (c.apply now r).isActive = false := by
  unfold JobRow.isActive
  rw [c.apply_status]
  unfold ends at h
  cases ht : c.target? with
  | none => simp [ht] at h
  | some t => simpa [ht] using h

theorem isActive_of_not_ends (h : c.ends = false) (hr : r.isActive = true) :
    (c.apply now r).isActive = true := by
  unfold JobRow.isActive at hr ⊢
  rw [c.apply_status]
  unfold ends at h
  cases ht : c.target? with
  | none => simpa [ht] using hr
  | some t => simpa [ht] using h

/-- A change keeps a job in order; polling starts only for an extraction, with a record of its
files. -/
theorem kept_apply (h : r.Kept)
    (hstart : c.target? = some .polling →
      r.isExtraction = true ∧ (c.apply now r).HasStaging) : (c.apply now r).Kept := by
  have hextraction : (c.apply now r).isExtraction = r.isExtraction := by
    unfold JobRow.isExtraction
    rw [c.apply_jobType]
  have hdocument : (c.apply now r).isExtraction = true ↔
      (c.apply now r).documentId.isSome = true := by
    rw [hextraction, c.apply_documentId]
    exact h.document
  cases c with
  | running => exact ⟨hdocument, nofun, nofun, nofun⟩
  | polling handle params timeoutAt =>
    obtain ⟨hkind, hstaging⟩ := hstart rfl
    exact ⟨hdocument, fun _ => hkind, fun _ => rfl, fun _ => hstaging⟩
  | completed result => exact ⟨hdocument, nofun, nofun, nofun⟩
  | failed message => exact ⟨hdocument, nofun, nofun, nofun⟩
  | alive timeoutAt => exact ⟨hdocument, h.polled, h.handle, h.staging⟩
  | progressed done total percent step => exact ⟨hdocument, h.polled, h.handle, h.staging⟩

end
end Jobs.Change

namespace Store
open Jobs
variable {s s' : Store} {jobId now : String} {c : Change} {d : String}

/-- A job that is not ended by its change locks its document as before. -/
theorem locked_changed_of_live (h : c.ends = false) :
    (changed s jobId now c).Locked d ↔ s.Locked d := by
  constructor
  · rintro ⟨r', hr', hactive, hdoc⟩
    obtain ⟨r, hr, rfl⟩ := mem_changeWhere.mp hr'
    by_cases hopen : isOpen jobId r = true
    · rw [if_pos hopen, c.apply_documentId] at hdoc
      exact ⟨r, hr, (isOpen_iff.mp hopen).2, hdoc⟩
    · rw [if_neg hopen] at hactive hdoc
      exact ⟨r, hr, hactive, hdoc⟩
  · rintro ⟨r, hr, hactive, hdoc⟩
    refine ⟨_, mem_changeWhere.mpr ⟨r, hr, rfl⟩, ?_⟩
    by_cases hopen : isOpen jobId r = true
    · rw [if_pos hopen, c.apply_documentId]
      exact ⟨Change.isActive_of_not_ends h hactive, hdoc⟩
    · rw [if_neg hopen]
      exact ⟨hactive, hdoc⟩

/-- After the end of a job only the others lock documents. -/
theorem locked_changed_of_ends (h : c.ends = true) : (changed s jobId now c).Locked d ↔
    ∃ r ∈ s.jobs, r.isActive = true ∧ r.documentId = some d ∧ r.id ≠ jobId := by
  constructor
  · rintro ⟨r', hr', hactive, hdoc⟩
    obtain ⟨r, hr, rfl⟩ := mem_changeWhere.mp hr'
    by_cases hopen : isOpen jobId r = true
    · rw [if_pos hopen, Change.isActive_of_ends h] at hactive
      cases hactive
    · rw [if_neg hopen] at hactive hdoc
      exact ⟨r, hr, hactive, hdoc, fun hid => hopen (isOpen_iff.mpr ⟨hid, hactive⟩)⟩
  · rintro ⟨r, hr, hactive, hdoc, hid⟩
    refine ⟨_, mem_changeWhere.mpr ⟨r, hr, rfl⟩, ?_⟩
    rw [if_neg fun hopen => hid (isOpen_iff.mp hopen).1]
    exact ⟨hactive, hdoc⟩

theorem rows_changed (h : s.Linked)
    (hstart : c.target? = some .polling → ∀ r ∈ s.jobs, isOpen jobId r = true →
      r.isExtraction = true ∧ (c.apply now r).HasStaging) :
    ∀ r ∈ (changed s jobId now c).jobs, r.Kept := by
  intro r' hr'
  obtain ⟨r, hr, rfl⟩ := mem_changeWhere.mp hr'
  by_cases hopen : isOpen jobId r = true
  · rw [if_pos hopen]
    exact Change.kept_apply (h.rows r hr) fun hc => hstart hc r hr hopen
  · rw [if_neg hopen]
    exact h.rows r hr

theorem Linked.of_same (h : s.Linked) (hdocuments : s'.documents = s.documents)
    (hjobs : s'.jobs = s.jobs) : s'.Linked := by
  refine ⟨h.sound.of_same hdocuments hjobs, hjobs ▸ h.rows, fun d hd => ?_⟩
  rw [h.link d (hdocuments ▸ hd)]
  unfold Locked
  rw [hjobs]

/-- A change that does not end its job, or one of a job on no document. -/
theorem Linked.change (h : s.Linked)
    (hstart : c.target? = some .polling → ∀ r ∈ s.jobs, isOpen jobId r = true →
      r.isExtraction = true ∧ (c.apply now r).HasStaging)
    (hlink : c.ends = false ∨ s.HasJobOn jobId none) : (changed s jobId now c).Linked := by
  refine ⟨h.sound.changeJob jobId now c, rows_changed h hstart, fun d hd => ?_⟩
  rw [h.link d hd]
  by_cases hends : c.ends = true
  · -- The job that ends is on no document, so the others are all that counted before.
    obtain ⟨r₀, hr₀, hid₀, hdoc₀⟩ := hlink.resolve_left (by simp [hends])
    rw [locked_changed_of_ends hends]
    constructor
    · rintro ⟨r, hr, hactive, hdoc⟩
      refine ⟨r, hr, hactive, hdoc, fun hid => ?_⟩
      rw [h.sound.job_unique hr hr₀ (hid.trans hid₀.symm), hdoc₀] at hdoc
      cases hdoc
    · rintro ⟨r, hr, hactive, hdoc, -⟩
      exact ⟨r, hr, hactive, hdoc⟩
  · rw [locked_changed_of_live (Bool.not_eq_true _ ▸ hends)]

/-- The condition of the statements that end the processing of a document. -/
def inProcess (d : String) (r : DocumentRow) : Bool :=
  r.id == d && [DocumentStatus.processing].contains r.status

theorem inProcess_iff {r : DocumentRow} :
    inProcess d r = true ↔ r.id = d ∧ r.status = .processing := by
  simp [inProcess]

/-- Whoever processes a document does so no more; nothing else happens to the documents. -/
def EndsProcessing (d : String) (before after : List DocumentRow) : Prop :=
  ∃ f, after = changeWhere (inProcess d) f before ∧ (∀ r, (f r).id = r.id) ∧
    ∀ r, (f r).status ≠ .processing

/-- A job ends, and so does the processing of its document. -/
theorem Linked.ends (h : s.Linked) (hc : c.ends = true) (howns : s.Owns jobId d)
    (hjobs : s'.jobs = (changed s jobId now c).jobs)
    (hdocuments : EndsProcessing d s.documents s'.documents) : s'.Linked := by
  obtain ⟨f, hdocuments, hid, hstatus⟩ := hdocuments
  obtain ⟨r₀, hr₀, hid₀, hdoc₀⟩ := howns.row
  have hlocked : ∀ d', s'.Locked d' ↔ s.Locked d' ∧ d' ≠ d := by
    intro d'
    have hsame : s'.Locked d' ↔ (changed s jobId now c).Locked d' := by
      unfold Locked
      rw [hjobs]
    rw [hsame, locked_changed_of_ends hc]
    constructor
    · rintro ⟨r, hr, hactive, hdoc, hother⟩
      exact ⟨⟨r, hr, hactive, hdoc⟩, fun hd => hother (howns.alone r hr hactive (hd ▸ hdoc))⟩
    · rintro ⟨⟨r, hr, hactive, hdoc⟩, hd⟩
      refine ⟨r, hr, hactive, hdoc, fun hrid => hd ?_⟩
      rw [h.sound.job_unique hr hr₀ (hrid.trans hid₀.symm), hdoc₀] at hdoc
      exact (Option.some.inj hdoc).symm
  have hstart : c.target? = some .polling → ∀ r ∈ s.jobs, isOpen jobId r = true →
      r.isExtraction = true ∧ (c.apply now r).HasStaging := by
    intro ht
    simp [Change.ends, ht, JobStatus.isTerminal] at hc
  have hsound : s'.Sound :=
    ((h.sound.changeJob jobId now c).changeDocuments (p := inProcess d) hid).of_same
      hdocuments hjobs
  refine ⟨hsound, fun r hr => rows_changed h hstart r (hjobs ▸ hr), fun r' hr' => ?_⟩
  obtain ⟨r, hr, rfl⟩ := mem_changeWhere.mp (hdocuments ▸ hr')
  by_cases hp : inProcess d r = true
  · have hrd : r.id = d := (inProcess_iff.mp hp).1
    rw [if_pos hp, hid, hlocked, hrd]
    simp [hstatus r]
  · rw [if_neg hp, hlocked, h.link r hr]
    constructor
    · intro hl
      exact ⟨hl, fun hd => hp (inProcess_iff.mpr ⟨hd, (h.link r hr).mpr hl⟩)⟩
    · exact And.left

end Store

/-! ### Statements that end processing -/

section
variable {s : Store} {d now : String} {Q : Nat → Store → Prop} {E : StoreError → Prop}

theorem Documents.markFailed_wp
    (h : ∀ n s', Store.EndsProcessing d s.documents s'.documents → s'.jobs = s.jobs → Q n s') :
    (markFailed d now).wp Q E s := h _ _ ⟨_, rfl, fun _ => rfl, fun _ => nofun⟩ rfl

theorem Documents.markDraft_wp {pageCount : UInt32}
    (h : ∀ n s', Store.EndsProcessing d s.documents s'.documents → s'.jobs = s.jobs → Q n s') :
    (markDraft d pageCount now).wp Q E s := h _ _ ⟨_, rfl, fun _ => rfl, fun _ => nofun⟩ rfl

end
end Quire
