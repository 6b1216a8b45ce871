import Quire.Proofs.Object.Depot
import Quire.Proofs.Pipeline.Checking
import Quire.Proofs.Pipeline.Reports

/-! How a wait ends.

A wait for an extraction makes a bounded number of checks, with a pause between two of them, and the
state of the operation may be anything each time, or not be told at all. With nobody else about, the
job is found waiting before every check, as the one before has left it (`Job.Pending`), until a
check has ended it (`Job.Over`). So every wait reports an end, and the checks and pauses that it
has made until then tell which (`Pipeline.Waited`).

Three things are seen at the end: a document that was never taken up is left as it is, a wait may pause
and not check again, and it fails at once if its job cannot be read. -/
namespace Quire
open Txn

/-! ### Checks and pauses -/

/-- What is noted of a wait. -/
inductive Mark
  | checked (handle : String) (answer : Except OcrError Ocr.OperationStatus)
  | slept (millis : Nat)

namespace Mark

def isCheck : Mark → Bool
  | checked _ _ => true
  | slept _ => false

/-- Anything may be answered, and checks and pauses are noted. -/
def noting : Surroundings (List Mark) where
  allows
    | .status handle, marks, answer, marks' => marks' = marks ++ [.checked handle answer]
    | .sleep millis, marks, _, marks' => marks' = marks ++ [.slept millis]
    | _, marks, _, marks' => marks' = marks

theorem noting_live : noting.Live := by
  refine Surroundings.Live.of_allows fun op marks => ?_
  obtain ⟨b⟩ := op.nonempty
  cases op <;> exact ⟨b, _, rfl⟩

/-- Nothing else is noted. -/
theorem eq_of_noting {β : Type} {e : Effect β} (he : e.isWaiting = false) {marks marks' : List Mark}
    {b : β} (h : noting.allows e marks b marks') : marks' = marks := by
  cases e <;> first | exact h | cases he

/-- Among such surroundings, with nobody else. -/
abbrev alone : Company (List Mark) := .alone noting

end Mark

/-! ### The job while it is waited for -/

/-- The row of the job, whatever has become of it. -/
structure JobRow.Remains (job : Job) (r : JobRow) : Prop where
  id : r.id = job.id
  kind : r.isExtraction = true
  documentId : r.documentId = job.documentId
  operationHandle : r.operationHandle = job.operationHandle
  params : r.params.read = .ok job.params

theorem JobRow.Remains.apply {job : Job} {r : JobRow} (h : r.Remains job) {c : Jobs.Change}
    (hc : c.target? ≠ some .polling) (now : String) : (c.apply now r).Remains job := by
  cases c with
  | polling => exact absurd rfl hc
  | _ => exact ⟨h.id, h.kind, h.documentId, h.operationHandle, h.params⟩

namespace Job
variable (job : Job) (past : Store)

/-- The document that the job is for has a status. -/
def DocumentIs (status : DocumentStatus) (s : Store) : Prop :=
  ∃ d ∈ s.documents, job.documentId = some d.id ∧ d.status = status

/-- The job waits for its operation, and its document has been left alone since. -/
structure Pending (s : Store) : Prop where
  regular : s.Regular
  row : ∃ r ∈ s.jobs, r.Remains job ∧ r.status = .polling
  document : job.DocumentIs .processing past → job.DocumentIs .processing s

/-- The job has ended as a report tells. If it has failed and its document was processing, that has
failed too. -/
structure Over (report : JobReport) (s : Store) : Prop where
  told : s.Told job.id report
  row : ∃ r ∈ s.jobs, r.Remains job
  document : report.status = .failed → job.DocumentIs .processing past → job.DocumentIs .failed s

variable {job past} {report : JobReport} {s : Store}

theorem remains_unharmed (job : Job) :
    UnharmedFor (· ≠ job.id) fun s => s.Sound ∧ ∃ r ∈ s.jobs, r.Remains job := by
  refine .of_jobs (fun hjobs h => hjobs ▸ h) (fun id now c hc _ h => ?_) fun n id now heartbeat h => ?_
  · obtain ⟨r, hr, hrow⟩ := h
    refine ⟨_, mem_changeWhere.mpr ⟨r, hr, rfl⟩, ?_⟩
    split
    case isTrue hopen =>
      refine hrow.apply (fun hpolling => hc hpolling ?_) now
      exact (Jobs.isOpen_iff.mp hopen).1.symm.trans hrow.id
    case isFalse => exact hrow
  · obtain ⟨r, hr, hrow⟩ := h
    exact ⟨r, List.mem_append_left _ hr, hrow⟩

/-- Signs of life, progress and what is stored for it leave the job waiting. -/
theorem pending_spared (job : Job) (past : Store) : Spared (job.Pending past) := by
  refine .of_tables (fun hdocuments hjobs h => ⟨⟨h.regular.sound.of_same hdocuments hjobs, ?_⟩, ?_, ?_⟩)
    fun id now c hc s hs => ?_
  · exact hjobs ▸ h.regular.2
  · exact hjobs ▸ h.row
  · unfold DocumentIs at *
    exact hdocuments ▸ h.document
  · have hregular := Store.regular_unharmed.mark id now c hc s hs.regular
    rw [Jobs.statement_wp hs.regular.sound.apart] at hregular ⊢
    refine ⟨hregular, ?_, hs.document⟩
    obtain ⟨r, hr, hrow, hpolling⟩ := hs.row
    refine ⟨_, mem_changeWhere.mpr ⟨r, hr, rfl⟩, ?_⟩
    split
    · exact ⟨hrow.apply (by simp [hc]) now, (c.apply_status now r).trans (by simp [hc, hpolling])⟩
    · exact ⟨hrow, hpolling⟩

theorem Pending.isOpen (h : job.Pending past s) : ∃ r ∈ s.jobs, Jobs.isOpen job.id r = true := by
  obtain ⟨r, hr, hrow, hpolling⟩ := h.row
  refine ⟨r, hr, Jobs.isOpen_iff.mpr ⟨hrow.id, ?_⟩⟩
  unfold JobRow.isActive
  rw [hpolling]
  rfl

/-- The job is found, and it is what it was when it was found first. -/
structure Again (job found : Job) : Prop where
  id : found.id = job.id
  kind : found.type = .ok .documentExtract
  documentId : found.documentId = job.documentId
  operationHandle : found.operationHandle = job.operationHandle

theorem again_of_read {r : JobRow} (h : r.Remains job) {found : Job} (hread : r.read = .ok found) :
    job.Again found := by
  have hshows := JobRow.shows_of_read hread
  refine ⟨hshows.id.trans h.id, ?_, hshows.documentId.trans h.documentId,
    hshows.operationHandle.trans h.operationHandle⟩
  unfold Job.type
  rw [hshows.jobType, eq_of_beq h.kind]
  rfl

theorem Pending.find (h : job.Pending past s) : ∃ found,
    (Jobs.find job.id).run s = (.ok (some found), s) ∧ found.status = .polling ∧ job.Again found := by
  obtain ⟨r, hr, hrow, hpolling⟩ := h.row
  have hregular := h.regular.row hr
  have hblank := hregular.blank (by simp [JobRow.isActive, hpolling, JobStatus.isTerminal])
  obtain ⟨found, hread⟩ := hregular.counted.exists_read_iff.mpr
    ⟨⟨_, hrow.params⟩, fun stored hstored =>
      absurd (hblank.2.symm.trans hstored) (Option.some_ne_none stored).symm⟩
  exact ⟨found, hrow.id ▸ Jobs.find_run h.regular.sound hr hread,
    (JobRow.shows_of_read hread).status.trans hpolling, again_of_read hrow hread⟩

theorem Over.find (h : job.Over past report s) : ∃ found,
    (Jobs.find job.id).run s = (.ok (some found), s) ∧ found.status ≠ .polling ∧
      JobReport.ofJob found = .ok report := by
  obtain ⟨hregular, hid, r, hr, hended, htells, hdraft⟩ := h.told
  obtain ⟨r', hr', hrow⟩ := h.row
  obtain rfl : r' = r := hregular.sound.job_unique hr' hr (hrow.id.trans (hid.symm.trans htells.id.symm))
  obtain ⟨found, hread, hreport⟩ := htells.ofJob_eq (hregular.row hr) ⟨_, hrow.params⟩
  refine ⟨found, hrow.id ▸ Jobs.find_run hregular.sound hr hread, fun hpolling => ?_, ?_⟩
  · rw [(JobRow.shows_of_read hread).status] at hpolling
    simp [JobRow.isActive, hpolling, JobStatus.isTerminal] at hended
  · rwa [JobReport.readOff_self (hdraft (.inl hrow.kind))] at hreport

theorem Over.isSettled (h : job.Over past report s) : report.isSettled = true := by
  obtain ⟨-, -, r, -, hended, htells, -⟩ := h.told
  unfold JobReport.isSettled
  rw [← htells.status]
  simpa [JobRow.isActive] using hended

/-! ### Failing and completing -/

/-- An event of a job that is there is added, and no job and no document is changed. -/
theorem insertEvent_there {jobId : String} (h : s.hasJob jobId = true) (kind : EventKind)
    (step : Option String) (message : String) (trace : Option String) (now : String) :
    (Jobs.insertEvent jobId kind step message trace now).wp
      (fun _ s' => s'.documents = s.documents) (fun _ => False) s := by
  simp only [Jobs.insertEvent, wp_bind, wp_store, wp_require, wp_modify, h]
  exact ⟨fun _ => trivial, by simp⟩

/-- Nothing refuses to fail a job that waits, and its document fails with it. -/
theorem Pending.failJob_document (h : job.Pending past s) {found : Job} (hfound : job.Again found)
    (message : String) (detail : Option String) (now : String) :
    (Pipeline.failJob found message detail now).wp (fun _ s' =>
      job.DocumentIs .processing s → job.DocumentIs .failed s') (fun _ => False) s := by
  unfold Pipeline.failJob
  rw [wp_bind, wp_widen, hfound.id, hfound.documentId]
  refine Jobs.guarded_wp h.regular.sound.apart (.failed message) job.id now (fun _ => ?_) fun hclosed => ?_
  case refine_2 =>
    obtain ⟨r, hr, hopen⟩ := h.isOpen
    exact absurd hopen (by simp [hclosed r hr])
  obtain ⟨r, hr, hopen⟩ := h.isOpen
  have hthere : (Jobs.changed s job.id now (.failed message)).hasJob job.id = true := by
    refine Store.hasJob_iff.mpr ⟨_, mem_changeWhere.mpr ⟨r, hr, rfl⟩, ?_⟩
    rw [if_pos hopen, Jobs.Change.apply_id]
    exact (Jobs.isOpen_iff.mp hopen).1
  cases hdocument : job.documentId with
  | none =>
    dsimp only
    rw [wp_widen]
    refine wp_mono (insertEvent_there hthere _ _ _ _ _) (fun _ _ _ hprocessing => ?_) fun _ h => h
    obtain ⟨_, -, hsome, -⟩ := hprocessing
    exact absurd (hdocument.symm.trans hsome) nofun
  | some d =>
    simp only [Documents.markFailed, Documents.changeFrom, wp_bind, wp_widen, wp_store, wp_modify,
      wp_pure]
    refine wp_mono (insertEvent_there (by exact hthere) _ _ _ _ _) (fun _ s' hs' hprocessing => ?_)
      fun _ h => h
    obtain ⟨row, hrow, hsome, hstatus⟩ := hprocessing
    obtain rfl : row.id = d := Option.some.inj (hsome.symm.trans hdocument)
    have hmoved : (row.id == row.id && [DocumentStatus.processing].contains row.status) = true := by
      simp [hstatus]
    refine ⟨_, by rw [hs']; exact mem_changeWhere.mpr ⟨row, hrow, rfl⟩, ?_⟩
    rw [if_pos hmoved]
    exact ⟨hsome, rfl⟩

theorem Pending.failJob_wp (h : job.Pending past s) {found : Job} (hfound : job.Again found)
    (message : String) (detail : Option String) (now : String) :
    (Pipeline.failJob found message detail now).wp
      (fun _ => job.Over past (.failed job.id message)) (fun _ => False) s := by
  obtain ⟨r, hr, hrow, -⟩ := h.row
  have htold := Pipeline.failJob_told h.regular found message detail now
  have hremains := (remains_unharmed job).failJob found message detail now s
    ⟨h.regular.sound, r, hr, hrow⟩
  have hdocument := h.failJob_document hfound message detail now
  refine wp_mono (wp_and (wp_and htold hremains) hdocument) (fun _ s' hs' => ?_) fun _ h => h.2
  rw [hfound.id] at hs'
  exact ⟨hs'.1.1, hs'.1.2.2, fun _ hprocessing => hs'.2 (h.document hprocessing)⟩

theorem Pending.completeJob_wp (h : job.Pending past s) (documentId : String) (c : Collected)
    (cleanupFailed : Bool) (now : String) :
    (Pipeline.completeJob job.id documentId c cleanupFailed now).wp
      (fun _ => job.Over past (.completed job.id c.pageCount)) (fun _ => True) s := by
  obtain ⟨r, hr, hrow, -⟩ := h.row
  have htold := Pipeline.completeJob_told h.regular job.id documentId c cleanupFailed now
  have hremains := (remains_unharmed job).complete job.id documentId c cleanupFailed now s
    ⟨h.regular.sound, r, hr, hrow⟩
  exact wp_mono (wp_and htold hremains) (fun _ _ hs' => ⟨hs'.1, hs'.2.2, nofun⟩) fun _ _ => trivial

end Job

/-! ### Waiting -/

namespace Pipeline
variable {job found : Job} {past : Store}

/-- What a check comes to while the job waits, and with nothing noted meanwhile. -/
theorem follows_pending (hfound : job.Again found) (past : Store) (marks : List Mark) :
    Follows Mark.alone Harmless found (fun m => job.Pending past m.1 ∧ m.2 = marks)
      (fun report m => job.Over past report m.1 ∧ m.2 = marks) fun _ => False where
  alive now timeoutAt := .alive found.id now timeoutAt
  note kind step message trace now := .note found.id kind step message trace now
  collects documentId _ := .harmless found.id documentId
  tended hf _ hm := (Run.Amid.leads_of_abides hf (Company.alone_stable _) (fun _ _ => trivial)
    (fun _ _ _ _ he hm hx => ⟨trivial, hm.1, (Mark.eq_of_noting he.1 hx).trans hm.2⟩)
    (fun ht s _ hs => wp_mono ((Job.pending_spared job past).keeps ht s hs.1)
      (fun _ _ hs' => ⟨trivial, hs', hs.2⟩) fun _ h => h) hm).mono fun _ _ h => h.2
  fails message detail now := by
    rw [hfound.id]
    exact .certain_at fun s hs => hs.failJob_wp hfound message detail now
  completes documentId _ collected cleanupFailed now := by
    rw [hfound.id]
    exact (Run.Amid.transact_alone (fun s hs => hs.completeJob_wp documentId collected cleanupFailed
      now) marks).conseq (fun _ hm => hm) (fun _ _ hm => hm) fun _ _ hm => hm.2

/-- Checks that may be made again, each with a pause after it. -/
def rounds (p : Pipeline) (handle : String) (answers : List (Except OcrError Ocr.OperationStatus)) :
    List Mark :=
  answers.flatMap fun answer => [.checked handle answer, .slept p.settings.pollIntervalMillis]

/-- What a wait for a job has done when it reports an end. The operation has not failed before the last
check. -/
inductive Waited (p : Pipeline) (job : Job) : List Mark → JobReport → Prop
  /-- There was nothing to wait for. -/
  | unaddressed : job.operationHandle = none →
      Waited p job [] (.failed job.id "Job has no operation handle")
  /-- The last check has found that the operation has failed. -/
  | failed {handle : String} {answers : List (Except OcrError Ocr.OperationStatus)}
      {answer : Except OcrError Ocr.OperationStatus} {message : String} :
      job.operationHandle = some handle → answers.length < p.attempts →
      Ocr.OperationStatus.Ends (some message) answer →
      (∀ a ∈ answers, Ocr.OperationStatus.Unfailed a) →
      Waited p job (p.rounds handle answers ++ [.checked handle answer]) (.failed job.id message)
  /-- The last check has collected the results. -/
  | completed {handle : String} {answers : List (Except OcrError Ocr.OperationStatus)}
      {answer : Except OcrError Ocr.OperationStatus} {pageCount : UInt32} :
      job.operationHandle = some handle → answers.length < p.attempts →
      Ocr.OperationStatus.Ends none answer →
      (∀ a ∈ answers, Ocr.OperationStatus.Unfailed a) →
      Waited p job (p.rounds handle answers ++ [.checked handle answer]) (.completed job.id pageCount)
  /-- The results could not be collected; if another check is left, there is a pause before the job is
  looked up once more. -/
  | broken {handle : String} {answers : List (Except OcrError Ocr.OperationStatus)}
      {answer : Except OcrError Ocr.OperationStatus} {e : PipelineError} :
      job.operationHandle = some handle → answers.length < p.attempts →
      Ocr.OperationStatus.Ends none answer → e.isRetryable = false →
      (∀ a ∈ answers, Ocr.OperationStatus.Unfailed a) →
      Waited p job (p.rounds handle answers ++ .checked handle answer ::
        if answers.length + 1 < p.attempts then [.slept p.settings.pollIntervalMillis] else [])
        (.failed job.id e.publicMessage)
  /-- All checks have been made. -/
  | exhausted {handle : String} {answers : List (Except OcrError Ocr.OperationStatus)}
      {answer : Except OcrError Ocr.OperationStatus} :
      job.operationHandle = some handle → answers.length + 1 = p.attempts →
      (∀ a ∈ answers ++ [answer], Ocr.OperationStatus.Unfailed a) →
      Waited p job (p.rounds handle answers ++ [.checked handle answer])
        (.failed job.id s!"OCR operation did not finish after {p.attempts} checks")

section
variable (p : Pipeline) {handle : String}

/-- Whoever looks for the job finds it waiting, or ended. -/
theorem lookUp_waits {P : Moment (List Mark) → Prop} {k : Job → Run PipelineError JobReport}
    {Q : JobReport → Moment (List Mark) → Prop}
    (hk : ∀ found, job.Again found → (k found).Amid Mark.alone
      (fun m => job.Pending past m.1 ∧ P m) Q fun _ _ => False)
    (hQ : ∀ report m, job.Over past report m.1 ∧ p.Waited job m.2 report → Q report m) :
    Run.Amid (ε := PipelineError) Mark.alone
      (fun m => (job.Pending past m.1 ∧ P m) ∨ ∃ report, job.Over past report m.1 ∧ p.Waited job m.2 report)
      Q (fun _ _ => False) (do
        let found ← Run.widen (Ledger.find job.id)
        if found.status != .polling then Run.ofExcept (JobReport.ofJob found) else k found) := by
  have hstable (P : Moment (List Mark) → Prop) : Mark.alone.Stable P := Company.alone_stable P
  refine .of_or ?_ (.of_exists fun report => ?_)
  · refine .bind (R := fun found m => (job.Again found ∧ found.status = .polling) ∧
      job.Pending past m.1 ∧ P m) (.widen (Ledger.find_amid (hstable _) fun m hm => ?_))
      fun found => .given fun ⟨hfound, hpolling⟩ => ?_
    · obtain ⟨found, hrun, hpolling, hfound⟩ := hm.1.find
      refine wp_of_run hrun ⟨fun _ h => ?_, nofun⟩
      exact ⟨Option.some.inj h ▸ ⟨hfound, hpolling⟩, hm⟩
    · rw [if_neg (by simp [hpolling])]
      exact hk found hfound
  · refine (ended_tells (hstable _) fun m hm => hm.1.find).conseq (fun _ hm => hm) (fun told m hm => ?_)
      fun _ _ hm => hm
    obtain ⟨rfl, hm⟩ := hm
    exact hQ _ _ hm

/-- What a wait has done while so many checks are left. -/
def Midway (handle : String) : Nat → List Mark → Prop
  | 0, marks => ∃ answers answer, answers.length + 1 = p.attempts ∧
    (∀ a ∈ answers ++ [answer], Ocr.OperationStatus.Unfailed a) ∧
    marks = p.rounds handle answers ++ [.checked handle answer]
  | left + 1, marks => ∃ answers, answers.length + (left + 1) = p.attempts ∧
    (∀ a ∈ answers, Ocr.OperationStatus.Unfailed a) ∧ marks = p.rounds handle answers

/-- The wait is over. -/
def Ended (job : Job) (past : Store) (m : Moment (List Mark)) : Prop :=
  ∃ report, job.Over past report m.1 ∧ p.Waited job m.2 report

/-- A check has been made and so many are left: the job still waits, or it has been failed because its
results cannot be collected. -/
structure Undecided (job : Job) (past : Store) (handle : String)
    (answers : List (Except OcrError Ocr.OperationStatus)) (answer : Except OcrError Ocr.OperationStatus)
    (left : Nat) (m : Moment (List Mark)) : Prop where
  count : answers.length + 1 + left = p.attempts
  unfailed : ∀ a ∈ answers ++ [answer], Ocr.OperationStatus.Unfailed a
  marks : m.2 = p.rounds handle answers ++ [.checked handle answer]
  job : job.Pending past m.1 ∨ ∃ e : PipelineError, Ocr.OperationStatus.Ends none answer ∧
    e.isRetryable = false ∧ job.Over past (.failed job.id e.publicMessage) m.1

/-- The wait comes to an end that is as it tells. -/
abbrev Concludes (job : Job) (past : Store) (P : Moment (List Mark) → Prop)
    (r : Run PipelineError JobReport) : Prop :=
  r.Amid Mark.alone P (fun report m => job.Over past report m.1 ∧ p.Waited job m.2 report)
    fun _ _ => False

variable {p} {answers : List (Except OcrError Ocr.OperationStatus)}
  {answer : Except OcrError Ocr.OperationStatus} {left : Nat}

theorem rounds_concat : p.rounds handle (answers ++ [answer]) = p.rounds handle answers ++
    [.checked handle answer, .slept p.settings.pollIntervalMillis] := by
  simp [rounds]

variable (hhandle : job.operationHandle = some handle)
include hhandle

/-- After a pause the next check is made, or the job has ended. -/
theorem Undecided.paused {m : Moment (List Mark)}
    (hm : p.Undecided job past handle answers answer (left + 1) m) {marks : List Mark}
    (hmarks : marks = m.2 ++ [.slept p.settings.pollIntervalMillis]) :
    (job.Pending past m.1 ∧ p.Midway handle (left + 1) marks) ∨ p.Ended job past (m.1, marks) := by
  have hcount := hm.count
  rw [hm.marks] at hmarks
  rcases hm.job with hpending | ⟨e, hdone, hlasting, hover⟩
  · refine .inl ⟨hpending, answers ++ [answer], by simp; omega, hm.unfailed, ?_⟩
    rw [hmarks, rounds_concat, List.append_assoc]
    rfl
  · refine .inr ⟨_, hover, ?_⟩
    have hwaited := Waited.broken (p := p) hhandle (by omega) hdone hlasting fun a ha =>
      hm.unfailed a (List.mem_append_left _ ha)
    rw [if_pos (by omega)] at hwaited
    show p.Waited job marks _
    rwa [hmarks, List.append_assoc]

/-- So it is without a pause when no check is left. -/
theorem Undecided.last {m : Moment (List Mark)} (hm : p.Undecided job past handle answers answer 0 m) :
    (job.Pending past m.1 ∧ p.Midway handle 0 m.2) ∨ p.Ended job past m := by
  have hcount := hm.count
  rcases hm.job with hpending | ⟨e, hdone, hlasting, hover⟩
  · exact .inl ⟨hpending, answers, answer, hm.count, hm.unfailed, hm.marks⟩
  · refine .inr ⟨_, hover, ?_⟩
    have hwaited := Waited.broken (p := p) hhandle (by omega) hdone hlasting fun a ha =>
      hm.unfailed a (List.mem_append_left _ ha)
    rw [if_neg (by omega)] at hwaited
    rwa [hm.marks]

theorem again_concludes
    (hnext : p.Concludes job past (fun m => (job.Pending past m.1 ∧ p.Midway handle left m.2) ∨
      p.Ended job past m) (p.waitFor job.id left)) :
    p.Concludes job past (p.Undecided job past handle answers answer left) (p.again job.id left) := by
  unfold again
  split
  case isTrue hleft =>
    obtain ⟨left, rfl⟩ := Nat.exists_eq_add_one.mpr hleft
    refine .bind (.ask (Company.alone_stable _) rfl fun m b marks hm hmarks => ⟨trivial, ?_⟩) fun _ => hnext
    exact hm.paused hhandle hmarks
  case isFalse hleft =>
    refine .bind (.pure (a := ()) fun m hm => ?_) fun _ => hnext
    obtain rfl := Nat.eq_zero_of_not_pos hleft
    exact Undecided.last hhandle hm

omit hhandle in
/-- The answer about the operation is noted, and the job waits on. -/
theorem status_noted : Run.Amid (ε := PipelineError) Mark.alone
    (fun m => job.Pending past m.1 ∧ m.2 = p.rounds handle answers)
    (fun answer m => job.Pending past m.1 ∧ m.2 = p.rounds handle answers ++ [.checked handle answer])
    (fun _ _ => False) (Run.perform (.status handle)) :=
  .ask (Company.alone_stable _) rfl fun m answer marks hm hmarks =>
    ⟨trivial, hm.1, (show marks = m.2 ++ _ from hmarks).trans (by rw [hm.2])⟩

/-- A check is the last one, or the wait goes on after it. -/
theorem round_concludes {found : Job} (hfound : job.Again found)
    (hcount : answers.length + (left + 1) = p.attempts)
    (hunfailed : ∀ a ∈ answers, Ocr.OperationStatus.Unfailed a)
    (hnext : p.Concludes job past (fun m => (job.Pending past m.1 ∧ p.Midway handle left m.2) ∨
      p.Ended job past m) (p.waitFor job.id left)) :
    p.Concludes job past (fun m => job.Pending past m.1 ∧ m.2 = p.rounds handle answers) (do
      let outcome : Except PipelineError JobReport ← Run.outcome (p.check found)
      match outcome with
      | .ok report => if report.isSettled then return report else p.again job.id left
      | .error _ => p.again job.id left) := by
  have hcheck := check_follows p (hfound.operationHandle.trans hhandle) p.status_noted fun answer =>
    follows_pending hfound past (p.rounds handle answers ++ [.checked handle answer])
  have hagain (answer : Except OcrError Ocr.OperationStatus) :
      p.Concludes job past (p.Undecided job past handle answers answer left) (p.again job.id left) :=
    again_concludes hhandle hnext
  have hopen {answer : Except OcrError Ocr.OperationStatus} (h : Ocr.OperationStatus.Unfailed answer) :
      ∀ a ∈ answers ++ [answer], Ocr.OperationStatus.Unfailed a := by
    intro a ha
    rcases List.mem_append.mp ha with ha | ha
    · exact hunfailed a ha
    · exact List.mem_singleton.mp ha ▸ h
  refine Run.Amid.bind hcheck.outcome fun o => .of_exists fun answer => ?_
  cases o with
  | error e =>
    refine (hagain answer).pre fun m hm => ?_
    cases hm with
    | undecided hunfailed' hm => exact ⟨by omega, hopen hunfailed', hm.2, .inl hm.1⟩
    | broken hdone hlasting hm =>
      exact ⟨by omega, hopen hdone.unfailed, hm.2, .inr ⟨e, hdone, hlasting, hfound.id ▸ hm.1⟩⟩
    | refused hm => exact hm.elim
  | ok report =>
    dsimp only
    split
    case isTrue hsettled =>
      refine .pure fun m hm => ?_
      cases hm with
      | polling _ hm => cases hsettled
      | failed hends hm =>
        rw [hfound.id] at hm ⊢
        exact ⟨hm.1, hm.2 ▸ .failed hhandle (by omega) hends hunfailed⟩
      | completed hends hm =>
        rw [hfound.id] at hm ⊢
        exact ⟨hm.1, hm.2 ▸ .completed hhandle (by omega) hends hunfailed⟩
    case isFalse hsettled =>
      refine (hagain answer).pre fun m hm => ?_
      cases hm with
      | polling hrunning hm => exact ⟨by omega, hopen fun _ => hrunning _, hm.2, .inl hm.1⟩
      | failed => exact absurd rfl hsettled
      | completed => exact absurd rfl hsettled

/-- A wait that is under way comes to an end. -/
theorem waitFor_concludes (left : Nat) :
    p.Concludes job past (fun m => (job.Pending past m.1 ∧ p.Midway handle left m.2) ∨
      p.Ended job past m) (p.waitFor job.id left) := by
  induction left with
  | zero =>
    refine p.lookUp_waits (fun found hfound => ?_) fun _ _ hm => hm
    refine Run.Amid.pre (P := fun m => ∃ answers answer, (answers.length + 1 = p.attempts ∧
      ∀ a ∈ answers ++ [answer], Ocr.OperationStatus.Unfailed a) ∧ job.Pending past m.1 ∧
        m.2 = p.rounds handle answers ++ [.checked handle answer])
      (.of_exists fun answers => .of_exists fun answer => .given fun ⟨hcount, hunfailed⟩ => ?_)
      fun m ⟨hm, answers, answer, hcount, hunfailed, hmarks⟩ =>
        ⟨answers, answer, ⟨hcount, hunfailed⟩, hm, hmarks⟩
    refine (fail_follows (follows_pending hfound _ _) _ none).conseq (fun _ hm => hm) (fun report m hm => ?_)
      fun _ _ hm => hm
    obtain ⟨rfl, hover, hmarks⟩ := hm
    rw [hfound.id] at hover ⊢
    exact ⟨hover, hmarks ▸ .exhausted hhandle hcount hunfailed⟩
  | succ left ih =>
    rw [waitFor_succ]
    refine p.lookUp_waits (fun found hfound => ?_) fun _ _ hm => hm
    refine Run.Amid.pre (P := fun m => ∃ answers, (answers.length + (left + 1) = p.attempts ∧
      ∀ a ∈ answers, Ocr.OperationStatus.Unfailed a) ∧ job.Pending past m.1 ∧ m.2 = p.rounds handle answers)
      (.of_exists fun answers => .given fun ⟨hcount, hunfailed⟩ =>
        round_concludes hhandle hfound hcount hunfailed ih)
      fun m ⟨hm, answers, hcount, hunfailed, hmarks⟩ => ⟨answers, ⟨hcount, hunfailed⟩, hm, hmarks⟩

omit hhandle

/-- Without an operation the first check is the last one. -/
theorem waitFor_unaddressed (hhandle : job.operationHandle = none) (left : Nat) :
    p.Concludes job past (fun m => job.Pending past m.1 ∧ m.2 = []) (p.waitFor job.id (left + 1)) := by
  rw [waitFor_succ]
  refine Run.Amid.pre (p.lookUp_waits (fun found hfound => ?_) fun _ _ hm => hm) fun _ hm => .inl hm
  have hcheck := check_unaddressed (follows_pending hfound past []) p
    (hfound.operationHandle.trans hhandle)
  refine Run.Amid.bind (R := fun o m => ∃ report, o = .ok report ∧
    report = .failed found.id "Job has no operation handle" ∧ job.Over past report m.1 ∧ m.2 = [])
    (.outcome (hcheck.conseq (fun _ hm => hm) (fun report _ hm => ⟨report, rfl, hm⟩)
      fun _ _ hm => hm.elim)) fun o => ?_
  refine .of_exists fun report => .given fun ho => .given fun hreport => ?_
  subst ho
  dsimp only
  rw [if_pos (hreport ▸ rfl)]
  refine .pure fun m hm => ⟨hm.1, ?_⟩
  rw [hm.2, hreport, hfound.id]
  exact .unaddressed hhandle

/-- Every wait comes to an end. -/
theorem wait_concludes (p : Pipeline)
    (hdiscipline : p.settings.polling.discipline .documentExtract = .inProcess) :
    p.Concludes job past (fun m => job.Pending past m.1 ∧ m.2 = []) (p.wait job.id) := by
  refine .bind (R := fun found m => job.Again found ∧ job.Pending past m.1 ∧ m.2 = [])
    (.widen (Ledger.find_amid (Company.alone_stable _) fun m hm => ?_)) fun found => .given fun hfound => ?_
  · obtain ⟨found, hrun, -, hfound⟩ := hm.1.find
    refine wp_of_run hrun ⟨fun _ h => ?_, nofun⟩
    exact ⟨Option.some.inj h ▸ hfound, hm⟩
  · rw [hfound.kind]
    refine .ofExcept_bind (fun _ _ h => nomatch h) fun jobType hkind => ?_
    obtain rfl := Except.ok.inj hkind
    rw [hdiscipline]
    dsimp only
    obtain ⟨left, hleft⟩ : ∃ left, p.attempts = left + 1 :=
      Nat.exists_eq_add_one.mpr (Nat.le_max_right _ _)
    rw [hleft]
    cases hhandle : job.operationHandle with
    | none => exact waitFor_unaddressed hhandle left
    | some handle =>
      refine (waitFor_concludes hhandle (left + 1)).pre fun m hm => .inl ⟨hm.1, [], ?_, nofun, hm.2⟩
      simp [hleft]

end

/-! ### How many checks are made -/

section
variable {p : Pipeline} {marks : List Mark} {report : JobReport}

theorem rounds_checks (p : Pipeline) (handle : String)
    (answers : List (Except OcrError Ocr.OperationStatus)) :
    (p.rounds handle answers).countP Mark.isCheck = answers.length := by
  unfold rounds
  induction answers with
  | nil => rfl
  | cons answer rest ih =>
    rw [List.flatMap_cons, List.countP_append, ih]
    exact Nat.add_comm _ _

theorem Waited.checks_le (h : p.Waited job marks report) : marks.countP Mark.isCheck ≤ p.attempts := by
  cases h with
  | unaddressed => exact Nat.zero_le _
  | failed _ hcount | completed _ hcount =>
    rw [List.countP_append, rounds_checks]
    exact hcount
  | broken _ hcount =>
    rw [List.countP_append, rounds_checks]
    split
    · exact hcount
    · exact hcount
  | exhausted _ hcount =>
    rw [List.countP_append, rounds_checks]
    exact hcount.le

/-- If the operation never ends, all checks are made, and the job is failed for it. -/
theorem Waited.gives_up (h : p.Waited job marks report) (hhandle : job.operationHandle.isSome = true)
    (hnever : ∀ handle answer message?, .checked handle answer ∈ marks →
      ¬ Ocr.OperationStatus.Ends message? answer) :
    marks.countP Mark.isCheck = p.attempts ∧
      report = .failed job.id s!"OCR operation did not finish after {p.attempts} checks" := by
  cases h with
  | unaddressed hnone => simp [hnone] at hhandle
  | failed _ _ hends | completed _ _ hends | broken _ _ hends =>
    exact absurd hends (hnever _ _ _ (List.mem_append_right _ List.mem_cons_self))
  | exhausted _ hcount =>
    rw [List.countP_append, rounds_checks]
    exact ⟨hcount, rfl⟩

end
end Pipeline

/-! ### The whole -/

/-- A job that is found waiting is the one that is waited for. -/
theorem Job.pending_of_find {s : Store} (hs : s.Regular) {job : Job}
    (hfound : (Jobs.find job.id).run s = (.ok (some job), s)) (hkind : job.type = .ok .documentExtract)
    (hpolling : job.status = .polling) : job.Pending s s := by
  obtain ⟨r, hr, hid, hread⟩ := Jobs.exists_row (congrArg Prod.fst hfound)
  have hshows := JobRow.shows_of_read hread
  obtain ⟨t, hword⟩ := (hs.row hr).kind
  have hextraction : r.isExtraction = true := by
    rw [JobRow.isExtraction_of_word hword]
    unfold Job.type at hkind
    rw [hshows.jobType, JobRow.kind_of_word hword] at hkind
    rw [Except.ok.inj hkind]
    rfl
  exact ⟨hs, ⟨r, hr, ⟨hid, hextraction, hshows.documentId.symm, hshows.operationHandle.symm,
    hshows.params⟩, hshows.status.symm.trans hpolling⟩, fun h => h⟩

/-- **A wait ends within its budget.** An extraction that waits for its operation is waited for with
nobody else about; whatever is answered, the wait comes to an end and reports one, which the job tells
from then on. It makes no more checks than are allowed, with a pause between two of them, and if the
operation does not end, it makes all of them and fails the job. A document that was processing fails
with its job. -/
theorem waits_end_in_time {s : Store} (hs : s.Reachable) (p : Pipeline)
    (hdiscipline : p.settings.polling.discipline .documentExtract = .inProcess) {job : Job}
    (hfound : (Jobs.find job.id).run s = (.ok (some job), s)) (hkind : job.type = .ok .documentExtract)
    (hpolling : job.status = .polling) :
    (∃ o m, Mark.noting.Runs (p.wait job.id).run (s, []) o m) ∧
    ∀ o m, Mark.noting.Runs (p.wait job.id).run (s, []) o m →
      ∃ report, o = .ok report ∧ report.isSettled = true ∧
        (∃ ended, (Jobs.find job.id).run m.1 = (.ok (some ended), m.1) ∧
          JobReport.ofJob ended = .ok report) ∧
        p.Waited job m.2 report ∧
        m.2.countP Mark.isCheck ≤ p.attempts ∧
        (job.operationHandle.isSome = true → (∀ handle answer message?, .checked handle answer ∈ m.2 →
            ¬ Ocr.OperationStatus.Ends message? answer) →
          m.2.countP Mark.isCheck = p.attempts ∧
            report = .failed job.id s!"OCR operation did not finish after {p.attempts} checks") ∧
        (report.status = .failed → job.DocumentIs .processing s → job.DocumentIs .failed m.1) := by
  refine ⟨Mark.noting_live.runs _ _, fun o m hruns => ?_⟩
  have hpending := Job.pending_of_find hs.regular hfound hkind hpolling
  have hends := Company.ends_of_runs (c := Mark.alone) (fun _ => rfl)
    (Run.Amid.iff_leads.mp (p.wait_concludes hdiscipline) (s, []) ⟨hpending, rfl⟩) hruns
  cases o with
  | error e => exact hends.elim
  | ok report =>
    obtain ⟨hover, hwaited⟩ := hends
    obtain ⟨ended, hrun, -, hreport⟩ := hover.find
    exact ⟨report, rfl, hover.isSettled, ⟨ended, hrun, hreport⟩, hwaited, hwaited.checks_le,
      hwaited.gives_up, hover.document⟩

/-! ### What a wait may come to -/

namespace Background

/-- Extractions are waited for here, with so many checks. -/
def patient (attempts : UInt32) : Pipeline :=
  { pipeline with
    settings := { pipeline.settings with
      polling := pipeline.settings.polling.set .documentExtract .inProcess
      maxPollAttempts := attempts } }

/-- The store after a check has found that the operation goes on. -/
def alive : Store := ((pipeline.ledger.alive "j" start).run store).2

/-- The store after the next one has found that it has failed. -/
def wasted : Store := ((Pipeline.failJob job "spoiled" none start.timestamp).run alive).2

/-- The first check finds that the operation goes on, and the second that it has failed. -/
def twice : List Mark :=
  [.checked "h" (.ok ⟨false, none, none⟩), .slept (patient 2).settings.pollIntervalMillis,
    .checked "h" (.ok ⟨true, some "spoiled", none⟩)]

theorem wait_spoiled : Mark.noting.Runs ((patient 2).wait "j").run (store, [])
    (.ok (.failed "j" "spoiled")) (wasted, twice) :=
  ⟨.ok (some job), (store, []), ⟨rfl, rfl⟩, .ok (some job), (store, []), ⟨rfl, rfl⟩,
    .ok ⟨false, none, none⟩, (store, twice.take 1), ⟨rfl, rfl⟩,
    start, (store, twice.take 1), ⟨rfl, rfl⟩, .ok (), (alive, twice.take 1), ⟨rfl, rfl⟩,
    (), (alive, twice.take 2), ⟨rfl, rfl⟩, _, (alive, twice.take 2), ⟨rfl, rfl⟩,
    .ok ⟨true, some "spoiled", none⟩, (alive, twice), ⟨rfl, rfl⟩,
    start, (alive, twice), ⟨rfl, rfl⟩, .ok (), (wasted, twice), ⟨rfl, rfl⟩, .of_done rfl _⟩

end Background

/-- The operation goes on at first, and then it has failed: there are two checks and a pause, and job
and document have failed. -/
theorem waits_end_in_time_spoiled :
    Mark.noting.Runs ((Background.patient 2).wait "j").run (Background.store, [])
      (.ok (.failed "j" "spoiled")) (Background.wasted, Background.twice) ∧
    (Background.patient 2).Waited Background.job Background.twice (.failed "j" "spoiled") ∧
    Background.job.DocumentIs .failed Background.wasted := by
  have hfound : (Jobs.find Background.job.id).run Background.store =
      (.ok (some Background.job), Background.store) := rfl
  obtain ⟨-, hends⟩ := waits_end_in_time Background.store_quiet.reachable (Background.patient 2) rfl
    hfound rfl rfl
  obtain ⟨report, hreport, -, -, hwaited, -, -, hdocument⟩ := hends _ _ Background.wait_spoiled
  obtain rfl := Except.ok.inj hreport
  exact ⟨Background.wait_spoiled, hwaited, hdocument rfl
    ⟨_, List.mem_singleton_self _, rfl, rfl⟩⟩

namespace Background

/-! The job was given an operation before its document was taken up. -/

/-- The store in which the operation is recorded with some parameters. -/
def handed (params : Json) : Store :=
  ((pipeline.ledger.polling "j" "h" params start).run lockedStore).2

theorem handed_reachable (params : Json) : (handed params).Reachable :=
  lockedStore_reachable.run (.markPolling pipeline.ledger "j" "h" params)
    ⟨start, (lockedStore, ()), ⟨rfl, trivial⟩, .ok (), (handed params, ()), ⟨rfl, rfl⟩, rfl, rfl⟩

def untaken : Store := handed staging.toJson

def untakenJob : Job :=
  match ((Jobs.find "j").run untaken).1 with
  | .ok (some job) => job
  | _ => default

def untakenAlive : Store := ((pipeline.ledger.alive "j" start).run untaken).2

/-- The store after the only check that is allowed. -/
def abandoned : Store :=
  ((Pipeline.failJob untakenJob "OCR operation did not finish after 1 checks" none
    start.timestamp).run untakenAlive).2

/-- The check finds that the operation goes on. -/
def once : List Mark := [.checked "h" (.ok ⟨false, none, none⟩)]

theorem wait_abandoned : Mark.noting.Runs ((patient 1).wait "j").run (untaken, [])
    (.ok (.failed "j" "OCR operation did not finish after 1 checks")) (abandoned, once) :=
  ⟨.ok (some untakenJob), (untaken, []), ⟨rfl, rfl⟩, .ok (some untakenJob), (untaken, []), ⟨rfl, rfl⟩,
    .ok ⟨false, none, none⟩, (untaken, once), ⟨rfl, rfl⟩, start, (untaken, once), ⟨rfl, rfl⟩,
    .ok (), (untakenAlive, once), ⟨rfl, rfl⟩, _, (untakenAlive, once), ⟨rfl, rfl⟩,
    start, (untakenAlive, once), ⟨rfl, rfl⟩, .ok (), (abandoned, once), ⟨rfl, rfl⟩, .of_done rfl _⟩

end Background

/-- All checks are made on an extraction whose document was never taken up, and it has failed; the
document has not. -/
theorem waits_end_without_document :
    Background.untaken.Reachable ∧
    (Background.patient 1).settings.polling.discipline .documentExtract = .inProcess ∧
    ∃ job s marks report, (Jobs.find "j").run Background.untaken = (.ok (some job), Background.untaken) ∧
      job.type = .ok .documentExtract ∧ job.status = .polling ∧ job.documentId = some "d" ∧
      Mark.noting.Runs ((Background.patient 1).wait "j").run (Background.untaken, []) (.ok report)
        (s, marks) ∧
      marks.countP Mark.isCheck = (Background.patient 1).attempts ∧
      (∀ handle answer message?, .checked handle answer ∈ marks →
        ¬ Ocr.OperationStatus.Ends message? answer) ∧
      report.status = .failed ∧ s.documents.map (fun d => (d.id, d.status)) = [("d", .uploading)] := by
  refine ⟨Background.handed_reachable _, rfl, Background.untakenJob, Background.abandoned,
    Background.once, _, rfl, rfl, rfl, rfl, Background.wait_abandoned, rfl, ?_, rfl, rfl⟩
  rintro handle answer message? hmem ⟨state, rfl, hdone, -⟩
  obtain ⟨-, hstate⟩ := Mark.checked.inj (List.mem_singleton.mp hmem)
  obtain rfl := Except.ok.inj hstate
  cases hdone

namespace Background

/-! The operation has ended, and its results cannot be listed. -/

def unlisted : PipelineError := .external (.storage .request)

/-- The store after the check that has failed the job for it. -/
def forfeited : Store :=
  ((Pipeline.failJob job unlisted.publicMessage (some (Failure.message unlisted))
    start.timestamp).run store).2

/-- A check, and a pause behind it. -/
def paused : List Mark :=
  [.checked "h" (.ok ⟨true, none, none⟩), .slept (patient 2).settings.pollIntervalMillis]

theorem wait_forfeited : Mark.noting.Runs ((patient 2).wait "j").run (store, [])
    (.ok (.failed "j" unlisted.publicMessage)) (forfeited, paused) :=
  ⟨.ok (some job), (store, []), ⟨rfl, rfl⟩, .ok (some job), (store, []), ⟨rfl, rfl⟩,
    .ok ⟨true, none, none⟩, (store, paused.take 1), ⟨rfl, rfl⟩,
    .error .request, (store, paused.take 1), ⟨rfl, rfl⟩, start, (store, paused.take 1), ⟨rfl, rfl⟩,
    .ok (), (forfeited, paused.take 1), ⟨rfl, rfl⟩, (), (forfeited, paused), ⟨rfl, rfl⟩,
    _, (forfeited, paused), ⟨rfl, rfl⟩, .of_done rfl _⟩

end Background

/-- The results of an operation that has ended cannot be collected: the wait pauses once more, and
makes no other check. -/
theorem waits_end_behind_pause :
    Background.store.Reachable ∧
    (Background.patient 2).settings.polling.discipline .documentExtract = .inProcess ∧
    ∃ job s report, (Jobs.find "j").run Background.store = (.ok (some job), Background.store) ∧
      job.type = .ok .documentExtract ∧ job.status = .polling ∧
      Mark.noting.Runs ((Background.patient 2).wait "j").run (Background.store, []) (.ok report)
        (s, [.checked "h" (.ok ⟨true, none, none⟩),
          .slept (Background.patient 2).settings.pollIntervalMillis]) :=
  ⟨Background.store_quiet.reachable, rfl, Background.job, Background.forfeited, _, rfl, rfl, rfl,
    Background.wait_forfeited⟩

/-- The operation is recorded with parameters that cannot be read: every wait fails, and the job goes
on waiting. -/
theorem waits_fail_unread : ∃ s : Store, s.Reachable ∧
    (∃ r ∈ s.jobs, r.id = "j" ∧ r.isExtraction = true ∧ r.status = .polling) ∧
    ∀ o m, Mark.noting.Runs ((Background.patient 1).wait "j").run (s, []) o m →
      (∃ e, o = .error e) ∧ m = (s, []) := by
  have hunread := nested_unread
  generalize nested 128 = params at hunread
  have hreachable := Background.handed_reachable params
  obtain ⟨r, hr, hid, hkind, hpolling, hparams⟩ : ∃ r ∈ (Background.handed params).jobs, r.id = "j" ∧
      r.isExtraction = true ∧ r.status = .polling ∧ r.params = .ofJson params :=
    ⟨_, List.mem_singleton_self _, rfl, rfl, rfl, rfl⟩
  refine ⟨Background.handed params, hreachable, ⟨r, hr, hid, hkind, hpolling⟩, fun o m hruns => ?_⟩
  obtain ⟨e, hread⟩ : ∃ e, r.read = .error e := by
    cases hread : r.read with
    | error e => exact ⟨e, rfl⟩
    | ok job =>
      rw [← hparams, (JobRow.shows_of_read hread).params] at hunread
      cases hunread
  have hfind := hid ▸ Jobs.find_unread hreachable.sound hr hread
  obtain ⟨rfl, hm⟩ := (Pipeline.unread_runs hfind o m).mp hruns
  exact ⟨⟨_, rfl⟩, hm⟩

end Quire
