import Quire.Proofs.Job.Finality
import Quire.Proofs.Pipeline.Completion

/-! What the row of a job tells of how it has ended.

A job has neither a result nor an error until it ends, and then it gets one of them. So whoever ends
a job and tells of it tells what is read off its row from then on; only whether there is a draft now
is read off the type of the job. -/
namespace Quire
open Txn

/-! ### Rows of jobs -/

/-- A row as the statements on jobs write it. -/
structure JobRow.Regular (r : JobRow) : Prop where
  counted : r.Counted
  kind : ∃ t : JobType, r.jobType = Label.word t
  /-- A job that has not ended tells nothing yet. -/
  blank : r.isActive = true → r.errorMessage = none ∧ r.result = none

theorem JobRow.Regular.apply {r : JobRow} (h : r.Regular) (hactive : r.isActive = true)
    (now : String) (c : Jobs.Change) : (c.apply now r).Regular := by
  refine ⟨h.counted.apply now c, c.apply_jobType now r ▸ h.kind, fun hopen => ?_⟩
  have hblank := h.blank hactive
  cases c with
  | completed result => cases hopen
  | failed message => cases hopen
  | _ => exact hblank

/-- The rules of the schema are obeyed, and all rows of jobs are regular. -/
def Store.Regular (s : Store) : Prop := s.Sound ∧ ∀ r ∈ s.jobs, r.Regular

theorem Store.Regular.sound {s : Store} (hs : s.Regular) : s.Sound := hs.1

theorem Store.Regular.row {s : Store} (hs : s.Regular) {r : JobRow} (hr : r ∈ s.jobs) : r.Regular :=
  hs.2 r hr

theorem Store.regular_unharmed : Unharmed Store.Regular := by
  refine .of_jobs (fun hjobs h => hjobs ▸ h) (fun id now c _ _ h r hr => ?_)
    fun n id now heartbeat h r hr => ?_
  · obtain ⟨r', hr', rfl⟩ := mem_changeWhere.mp hr
    split
    case isTrue hopen => exact (h r' hr').apply (Jobs.isOpen_iff.mp hopen).2 now c
    case isFalse => exact h r' hr'
  · rcases List.mem_append.mp hr with hr | hr
    · exact h r hr
    · obtain rfl := List.mem_singleton.mp hr
      exact ⟨JobRow.counted_rowOf _ _, ⟨n.jobType, rfl⟩, fun _ => ⟨rfl, rfl⟩⟩

theorem Store.Reachable.regular {s : Store} (hs : s.Reachable) : s.Regular :=
  hs.keeps Store.regular_unharmed ⟨.empty, fun _ h => nomatch h⟩

/-! ### Reports and rows -/

/-- The row tells the same as a report, apart from the draft. -/
structure JobRow.Tells (r : JobRow) (report : JobReport) : Prop where
  id : r.id = report.jobId
  status : r.status = report.status
  error : r.errorMessage = report.error
  pages : ∃ result, r.result.mapM StoredJson.read = .ok result ∧
    JobReport.pageCountOf result = report.pageCount

/-- There is a draft now. -/
def JobRow.hasDraft (r : JobRow) : Bool := r.isExtraction && r.status == .completed

/-- A report as it is read off a row. -/
def JobReport.readOff (report : JobReport) (r : JobRow) : JobReport :=
  { report with draftReady := r.hasDraft }

section
variable {r : JobRow} {job : Job} {report : JobReport}

theorem JobRow.kind_of_word {t : JobType} (h : r.jobType = Label.word t) :
    StoredKind.read r.jobType = .ok t := by
  rw [h]
  cases t <;> rfl

theorem JobRow.isExtraction_of_word {t : JobType} (h : r.jobType = Label.word t) :
    r.isExtraction = (t == .documentExtract) := by
  unfold isExtraction
  rw [h]
  cases t <;> rfl

/-- What is read of a regular row shows what the row has. -/
theorem JobRow.Regular.ofJob_eq (h : r.Regular) (hread : r.read = .ok job) :
    ∃ report, JobReport.ofJob job = .ok report ∧ r.Tells report ∧ report.draftReady = r.hasDraft := by
  obtain ⟨t, hkind⟩ := h.kind
  have htype := kind_of_word hkind
  have hextraction := isExtraction_of_word hkind
  obtain ⟨_, -, hread⟩ := bind_eq_ok.mp hread
  obtain ⟨_, -, hread⟩ := bind_eq_ok.mp hread
  obtain ⟨_, -, hread⟩ := bind_eq_ok.mp hread
  obtain ⟨_, -, hread⟩ := bind_eq_ok.mp hread
  obtain ⟨result, hresult, hread⟩ := bind_eq_ok.mp hread
  obtain rfl := Except.ok.inj hread
  unfold JobReport.ofJob Job.type
  simp only [htype]
  refine ⟨_, rfl, ⟨rfl, rfl, rfl, result, hresult, rfl⟩, ?_⟩
  unfold hasDraft
  rw [hextraction]

/-- A row tells one report only, apart from the draft. -/
theorem JobRow.Tells.readOff_eq (h : r.Tells report) {other : JobReport} (h' : r.Tells other) :
    report.readOff r = other.readOff r := by
  obtain ⟨result, hresult, hpages⟩ := h.pages
  obtain ⟨result', hresult', hpages'⟩ := h'.pages
  obtain rfl : result = result' := Except.ok.inj (hresult.symm.trans hresult')
  unfold JobReport.readOff
  rw [← h.id, ← h.status, ← h.error, ← hpages, h'.id, h'.status, h'.error, hpages']

theorem JobReport.readOff_self (h : report.draftReady = r.hasDraft) : report.readOff r = report := by
  unfold readOff
  rw [← h]

/-- What a row tells is read of it, if its parameters can be read. -/
theorem JobRow.Tells.ofJob_eq (h : r.Tells report) (hr : r.Regular)
    (hparams : ∃ j, r.params.read = .ok j) :
    ∃ job, r.read = .ok job ∧ JobReport.ofJob job = .ok (report.readOff r) := by
  have hlegible : r.Legible := by
    obtain ⟨result, hresult, -⟩ := h.pages
    refine ⟨hparams, fun stored hstored => ?_⟩
    rw [hstored] at hresult
    obtain ⟨j, hj, -⟩ := bind_eq_ok.mp hresult
    exact ⟨j, hj⟩
  obtain ⟨job, hread⟩ := hr.counted.exists_read_iff.mpr hlegible
  obtain ⟨told, htold, htells, hdraft⟩ := hr.ofJob_eq hread
  refine ⟨job, hread, ?_⟩
  rw [h.readOff_eq htells, JobReport.readOff_self hdraft]
  exact htold

end

/-! ### Jobs that are ended -/

/-- The number of pages that is kept with a completed job is read back. -/
theorem JobReport.pageCountOf_summary (c : Collected) (cleanupFailed : Bool) :
    pageCountOf (some (Pipeline.summary c cleanupFailed)) = some c.pageCount := by
  have hget : (Pipeline.summary c cleanupFailed).get? "page_count" =
      some (.ofNat c.pageCount.toNat) := rfl
  have hlt := c.pageCount.toNat_lt
  have hbounds : (0 ≤ (c.pageCount.toNat : Int) &&
      (c.pageCount.toNat : Int) < 0x10000000000000000) = true := by
    simp
    omega
  unfold pageCountOf
  rw [Option.bind_some, hget]
  show (if _ then some (UInt32.ofNat (c.pageCount.toNat : Int).toNat) else none) = _
  rw [if_pos hbounds, Int.toNat_natCast, UInt32.ofNat_toNat]

section Ends
variable {r : JobRow} (h : r.Regular) (hactive : r.isActive = true) (now : String)
include h hactive

theorem JobRow.Regular.tells_failed (message : String) :
    (Jobs.Change.apply now (.failed message) r).Tells (.failed r.id message) := by
  obtain ⟨-, hresult⟩ := h.blank hactive
  refine ⟨rfl, rfl, rfl, none, ?_, rfl⟩
  show r.result.mapM StoredJson.read = _
  rw [hresult]
  rfl

theorem JobRow.Regular.tells_completed (c : Collected) (cleanupFailed : Bool) :
    (Jobs.Change.apply now (.completed (some (Pipeline.summary c cleanupFailed))) r).Tells
      (.completed r.id c.pageCount) := by
  obtain ⟨herror, -⟩ := h.blank hactive
  refine ⟨rfl, rfl, herror, some (Pipeline.summary c cleanupFailed), ?_, ?_⟩
  · show (some (StoredJson.ofJson (Pipeline.summary c cleanupFailed))).mapM StoredJson.read = _
    rw [Option.mapM_some, StoredJson.read_ofJson (Pipeline.summary_isDurable c cleanupFailed)]
    rfl
  · exact JobReport.pageCountOf_summary c cleanupFailed

end Ends

/-- The job that a report is about has ended, and its row tells the same. Only to a completed job that
is no extraction a draft may be ascribed that there is not. -/
structure Store.Told (jobId : String) (report : JobReport) (s : Store) : Prop where
  regular : s.Regular
  id : report.jobId = jobId
  row : ∃ r ∈ s.jobs, r.isActive = false ∧ r.Tells report ∧
    (r.isExtraction = true ∨ r.status = .failed → report.draftReady = r.hasDraft)

namespace Pipeline
variable {s : Store}

/-- A job that is failed was open before, and it is the only one that is changed. -/
theorem failJob_jobs (hs : s.Sound) (job : Job) (message : String) (detail : Option String)
    (now : String) :
    (failJob job message detail now).wp
      (fun _ s' => (∃ r ∈ s.jobs, Jobs.isOpen job.id r = true) ∧
        s'.jobs = (Jobs.changed s job.id now (.failed message)).jobs) (fun _ => True) s := by
  unfold failJob
  rw [wp_bind, wp_widen]
  refine Jobs.guarded_wp hs.apart (.failed message) job.id now (fun hopen => ?_) fun _ _ => trivial
  have hevent {s' : Store} (h : s'.jobs = (Jobs.changed s job.id now (.failed message)).jobs) :
      ((Jobs.insertEvent job.id .error (some "poll") message detail now).widen :
        Txn PipelineError Unit).wp (fun _ s' => (∃ r ∈ s.jobs, Jobs.isOpen job.id r = true) ∧
          s'.jobs = (Jobs.changed s job.id now (.failed message)).jobs) (fun _ => True) s' := by
    rw [wp_widen]
    exact wp_mono ((Jobs.insertEvent_aside _ _ _ _ _ _).wp _)
      (fun _ _ hsame => ⟨hopen, hsame.2.trans h⟩) fun _ h => h
  cases job.documentId with
  | none => exact hevent rfl
  | some documentId =>
    simp only [wp_bind, wp_widen]
    exact Documents.markFailed_wp fun _ s₁ _ hjobs => hevent hjobs

/-- So is one that is completed. -/
theorem completeJob_jobs (hs : s.Sound) (jobId documentId : String) (c : Collected)
    (cleanupFailed : Bool) (now : String) :
    (completeJob jobId documentId c cleanupFailed now).wp
      (fun _ s' => (∃ r ∈ s.jobs, Jobs.isOpen jobId r = true) ∧
        s'.jobs = (Jobs.changed s jobId now (.completed (some (summary c cleanupFailed)))).jobs)
      (fun _ => True) s := by
  unfold completeJob
  simp only [wp_bind, wp_widen]
  refine Documents.markDraft_wp fun _ s₁ _ hjobs => ?_
  simp only [wp_bind, wp_widen, wp_require]
  refine ⟨fun _ => ?_, fun _ => trivial⟩
  refine Jobs.guarded_wp (hjobs ▸ hs.apart) (.completed (some (summary c cleanupFailed))) jobId now
    (fun hopen => ?_) fun _ _ => trivial
  rw [wp_widen]
  exact wp_mono ((Jobs.insertEvent_aside _ _ _ _ _ _).wp _)
    (fun _ _ hsame => ⟨hjobs ▸ hopen, hsame.2.trans (Store.changed_jobs hjobs)⟩) fun _ h => h

/-- The row of a job that is ended. -/
theorem told_of_changed {s' : Store} (hs : s.Regular) (hs' : s'.Regular) {jobId now : String}
    {c : Jobs.Change} (hc : c.ends = true) (hopen : ∃ r ∈ s.jobs, Jobs.isOpen jobId r = true)
    (hjobs : s'.jobs = (Jobs.changed s jobId now c).jobs) {report : JobReport}
    (htells : ∀ r : JobRow, r.id = jobId → r.Regular → r.isActive = true →
      (c.apply now r).Tells report)
    (hdraft : report.draftReady = (report.status == .completed)) : s'.Told jobId report := by
  obtain ⟨r, hr, hopen⟩ := hopen
  obtain ⟨hid, hactive⟩ := Jobs.isOpen_iff.mp hopen
  have htold := htells r hid (hs.row hr) hactive
  refine ⟨hs', ?_, c.apply now r, ?_, Jobs.Change.isActive_of_ends hc, htold, fun hkind => ?_⟩
  · rw [← htold.id, c.apply_id, hid]
  · rw [hjobs]
    exact mem_changeWhere.mpr ⟨r, hr, if_pos hopen⟩
  · rw [hdraft, ← htold.status]
    unfold JobRow.hasDraft
    rcases hkind with hextraction | hfailed
    · rw [hextraction, Bool.true_and]
    · rw [hfailed]
      exact (Bool.and_false _).symm

theorem failJob_told (hs : s.Regular) (job : Job) (message : String) (detail : Option String)
    (now : String) :
    (failJob job message detail now).wp (fun _ s' => s'.Told job.id (.failed job.id message))
      (fun _ => True) s := by
  have hregular := Store.regular_unharmed.failJob job message detail now s hs
  refine wp_mono (wp_and (failJob_jobs hs.sound job message detail now) hregular)
    (fun _ s' h => ?_) fun _ h => h.1
  obtain ⟨⟨hopen, hjobs⟩, hs'⟩ := h
  exact told_of_changed hs hs' rfl hopen hjobs
    (fun r hid hr hactive => hid ▸ hr.tells_failed hactive now message) rfl

theorem completeJob_told (hs : s.Regular) (jobId documentId : String) (c : Collected)
    (cleanupFailed : Bool) (now : String) :
    (completeJob jobId documentId c cleanupFailed now).wp
      (fun _ s' => s'.Told jobId (.completed jobId c.pageCount)) (fun _ => True) s := by
  have hregular := Store.regular_unharmed.complete jobId documentId c cleanupFailed now s hs
  refine wp_mono (wp_and (completeJob_jobs hs.sound jobId documentId c cleanupFailed now) hregular)
    (fun _ s' h => ?_) fun _ h => h.1
  obtain ⟨⟨hopen, hjobs⟩, hs'⟩ := h
  exact told_of_changed hs hs' rfl hopen hjobs
    (fun r hid hr hactive => hid ▸ hr.tells_completed hactive now c cleanupFailed) rfl

end Pipeline

end Quire
