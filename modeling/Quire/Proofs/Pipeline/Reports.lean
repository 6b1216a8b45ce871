import Quire.Proofs.Flow.Beside
import Quire.Proofs.Pipeline.Checking
import Quire.Proofs.Pipeline.Outcomes
import Quire.Proofs.Pipeline.Settling

/-! Reports on jobs.

A poll or a wait reports on a job either what is read off its row, or what it has just made of the
job itself. Both are the same: when a call reports that the job has ended, the row tells that, and it
stays as it is from then on. -/
namespace Quire
open Txn

/-- What a row tells of an end lasts. -/
theorem Store.Told.lasted {jobId : String} {report : JobReport} {s s' : Store}
    (h : s.Told jobId report) (hlasted : s.Lasted s') : s'.Told jobId report := by
  obtain ⟨hregular, hid, r, hr, hended, htells, hdraft⟩ := h
  have hsince := hlasted _ (Store.Since.unharmed s) ⟨hregular.sound, .refl s⟩
  exact ⟨hlasted _ Store.regular_unharmed hregular, hid, r, hsince.2.ended r hr hended, hended,
    htells, hdraft⟩

/-! ### Where reports come from -/

/-- A job that is found has been read from a row. -/
theorem Ledger.find_reads {σ : Type} {c : Company σ} {P : Moment σ → Prop} {jobId : String}
    (hstable : c.Stable P) : (find jobId).Amid c P
    (fun job m => P m ∧ ∃ r ∈ m.1.jobs, r.id = jobId ∧ r.read = .ok job) fun _ => P := by
  refine find_amid hstable fun m hm => (wp_iff_run _).mpr ⟨fun found hfound => ⟨?_, fun _ => hm⟩,
    fun _ _ => hm⟩
  rintro job rfl
  exact ⟨hm, Jobs.exists_row hfound⟩

section Amid
variable {σ ε α : Type} {c : Company σ} {K : Store → Prop} {jobId : String}
  (hstable : c.Stable fun m => K m.1) (hown : ∀ m m', c.own m m')
include hstable hown

/-- What issues only transactions that keep a property keeps it. -/
theorem Run.Issues.amid {r : Run ε α} (hr : r.Issues fun _ _ t => t.Keeps K) :
    r.Amid c (fun m => K m.1) (fun _ m => K m.1) fun _ m => K m.1 :=
  .of_issues hr hstable (fun m _ hm => ⟨hown m _, hm⟩) fun ht s _ hs =>
    wp_mono (ht s hs) (fun _ _ hs' => ⟨hown _ _, hs'⟩) fun _ _ => trivial

end Amid

namespace Pipeline
variable {σ : Type} (p : Pipeline)

/-- What a report of an end tells is told by the job that has ended. -/
abbrev Reports (jobId : String) (c : Company σ) (K : Store → Prop) (P : Moment σ → Prop)
    (r : Run PipelineError JobReport) : Prop :=
  r.Amid c P (fun report m => K m.1 ∧ (report.isSettled = true → m.1.Told jobId report))
    fun _ m => K m.1

section
variable {c : Company σ} {K : Store → Prop} {P : Moment σ → Prop} {jobId : String}
  {r : Run PipelineError JobReport}

/-- A report whose failure is only told. -/
theorem Reports.outcome (h : Reports jobId c K P r) :
    (Run.outcome r : Run PipelineError _).Amid c P (fun o m => K m.1 ∧
      ∀ report, o = .ok report → report.isSettled = true → m.1.Told jobId report)
      fun _ m => K m.1 := by
  refine .outcome (h.conseq (fun _ hm => hm) (fun report m hm => ⟨hm.1, ?_⟩) fun e m hm => ⟨hm, nofun⟩)
  rintro _ ⟨⟩
  exact hm.2

/-- A job that was looked up is the one of its id. -/
theorem Reports.found {job : Job} (h : Reports job.id c K (fun m => K m.1) r) :
    Reports jobId c K (fun m => K m.1 ∧ ∃ r ∈ m.1.jobs, r.id = jobId ∧ r.read = .ok job) r := by
  refine .learn (φ := job.id = jobId) (fun m hm => ?_) fun hid => ?_
  · obtain ⟨-, r, -, hid, hread⟩ := hm
    exact (JobRow.shows_of_read hread).id.trans hid
  · exact hid ▸ h.pre fun m hm => hm.1

end

section
variable {c : Company σ} {K : Store → Prop} (hstable : c.Stable fun m => K m.1)
  (hown : ∀ m m', c.own m m') (hregular : ∀ s, K s → s.Regular) {job : Job}
  (hchecks : Checks (fun _ _ t => t.Keeps K) job)
include hstable hown hregular hchecks

/-- A job is told as it is left, whatever a check comes to. -/
theorem follows_told : Follows c (fun _ _ t => t.Keeps K) job (fun m => K m.1)
    (fun report m => K m.1 ∧ m.1.Told job.id report) fun m => K m.1 where
  alive := hchecks.alive
  note := hchecks.note
  collects := hchecks.collects
  tended hf _ hm := (Run.Amid.leads_of_abides hf hstable (fun _ _ => trivial)
    (fun _ _ _ _ _ hm _ => ⟨hown _ _, hm⟩) (fun ht s _ hs =>
      wp_mono (ht s hs) (fun _ _ hs' => ⟨hown _ _, hs'⟩) fun _ _ => trivial) hm).mono fun _ _ h => h.2
  fails message detail now := by
    refine .transact hstable fun s x hs => ?_
    have hkeeps := hchecks.failJob message detail now s hs
    have htold := failJob_told (hregular s hs) job message detail now
    exact wp_mono (wp_and hkeeps htold) (fun _ _ h => ⟨hown _ _, h⟩) fun _ _ => hs
  completes documentId hdocument collected cleanupFailed now := by
    refine .transact hstable fun s x hs => ?_
    have hkeeps := hchecks.complete documentId hdocument collected cleanupFailed now s hs
    have htold := completeJob_told (hregular s hs) job.id documentId collected cleanupFailed now
    exact wp_mono (wp_and hkeeps htold) (fun _ _ h => ⟨hown _ _, h⟩) fun _ _ => hs

theorem fail_reports (message : String) (detail : Option String) :
    Reports job.id c K (fun m => K m.1) (fail job message detail) := by
  refine (fail_follows (follows_told hstable hown hregular hchecks) message detail).conseq
    (fun _ hm => hm) (fun report m hm => ?_) fun _ _ hm => hm
  obtain ⟨rfl, hK, htold⟩ := hm
  exact ⟨hK, fun _ => htold⟩

theorem check_reports : Reports job.id c K (fun m => K m.1) (p.check job) := by
  have hfollows := follows_told hstable hown hregular hchecks
  cases hhandle : job.operationHandle with
  | none =>
    refine (check_unaddressed hfollows p hhandle).conseq (fun _ hm => hm) (fun report m hm => ?_)
      fun _ _ hm => hm
    obtain ⟨rfl, hK, htold⟩ := hm
    exact ⟨hK, fun _ => htold⟩
  | some handle =>
    have hasked : Run.Amid (ε := PipelineError) c (fun m => K m.1) (fun _ m => K m.1)
        (fun _ _ => False) (Run.perform (.status handle)) :=
      .ask hstable rfl fun _ _ _ hm _ => ⟨hown _ _, hm⟩
    refine (check_follows p hhandle hasked fun _ => hfollows).conseq (fun _ hm => hm)
      (fun report m hm => ?_) fun _ m hm => ?_
    · obtain ⟨_, hm⟩ := hm
      cases hm with
      | polling _ hm => exact ⟨hm, nofun⟩
      | failed _ hm => exact ⟨hm.1, fun _ => hm.2⟩
      | completed _ hm => exact ⟨hm.1, fun _ => hm.2⟩
    · obtain ⟨_, hm⟩ := hm
      cases hm with
      | undecided _ hm => exact hm
      | broken _ _ hm => exact hm.1
      | refused hm => exact hm

end

/-! ### Polls and waits -/

section
variable {c : Company σ} {K : Store → Prop} {jobId : String} (hstable : c.Stable fun m => K m.1)
  (hown : ∀ m m', c.own m m') (hregular : ∀ s, K s → s.Regular)
include hregular

/-- A job is told as it is stored. -/
theorem stored_reports (job : Job) :
    Reports jobId c K (fun m => K m.1 ∧ ∃ r ∈ m.1.jobs, r.id = jobId ∧ r.read = .ok job)
      (Run.ofExcept (JobReport.ofJob job)) := by
  refine .learn (φ := ∃ report, JobReport.ofJob job = .ok report) (fun m hm => ?_) fun hjob => ?_
  · obtain ⟨hK, r, hr, -, hread⟩ := hm
    obtain ⟨report, hjob, -⟩ := ((hregular _ hK).row hr).ofJob_eq hread
    exact ⟨report, hjob⟩
  · obtain ⟨report, hjob⟩ := hjob
    rw [hjob]
    refine .pure fun m hm => ⟨hm.1, fun hsettled => ?_⟩
    obtain ⟨hK, r, hr, hid, hread⟩ := hm
    have hrow := (hregular _ hK).row hr
    obtain ⟨told, htold, htells, hdraft⟩ := hrow.ofJob_eq hread
    obtain rfl := Except.ok.inj (hjob.symm.trans htold)
    refine ⟨hregular _ hK, htells.id.symm.trans hid, r, hr, ?_, htells, fun _ => hdraft⟩
    exact JobRow.isActive_eq_false_iff.mpr (htells.status ▸ hsettled)

variable (hchecks : ∀ job, Checks (fun _ _ t => t.Keeps K) job)
include hstable hown hchecks

theorem poll_reports : Reports jobId c K (fun m => K m.1) (p.poll jobId) := by
  refine .bind (.widen (Ledger.find_reads hstable)) fun job => ?_
  split
  · exact stored_reports hregular job
  · refine .ofExcept_bind (fun _ _ _ hm => hm.1) fun jobType _ => ?_
    split
    · exact stored_reports hregular job
    · exact (p.check_reports hstable hown hregular (hchecks job)).found

theorem waitFor_reports (left : Nat) : Reports jobId c K (fun m => K m.1) (p.waitFor jobId left) := by
  induction left with
  | zero =>
    refine .bind (.widen (Ledger.find_reads hstable)) fun job => ?_
    split
    · exact stored_reports hregular job
    · exact (fail_reports hstable hown hregular (hchecks job) _ none).found
  | succ left ih =>
    have hagain : Reports jobId c K (fun m => K m.1) (p.again jobId left) := by
      have hpause : (Run.perform (.sleep p.settings.pollIntervalMillis) : Run PipelineError Unit).Issues
          fun _ _ t => t.Keeps K := .perform trivial
      unfold again
      split
      · exact .bind (hpause.amid hstable hown) fun _ => ih
      · exact .bind (.pure (a := ()) (Q := fun _ m => K m.1) fun _ hm => hm) fun _ => ih
    rw [waitFor_succ]
    refine .bind (.widen (Ledger.find_reads hstable)) fun job => ?_
    split
    · exact stored_reports hregular job
    · refine .bind (p.check_reports hstable hown hregular (hchecks job)).found.outcome fun o => ?_
      cases o with
      | ok report =>
        dsimp only
        split
        · exact .pure fun m hm => ⟨hm.1, hm.2 report rfl⟩
        · exact hagain.pre fun m hm => hm.1
      | error e => exact hagain.pre fun m hm => hm.1

theorem wait_reports : Reports jobId c K (fun m => K m.1) (p.wait jobId) := by
  refine .bind ((Run.Amid.widen (Ledger.find_reads hstable)).conseq (fun _ hm => hm)
    (fun _ _ hm => hm.1) fun _ _ hm => hm) fun job => ?_
  refine .ofExcept_bind (fun _ _ _ hm => hm) fun jobType _ => ?_
  split
  · exact .throw fun _ hm => hm
  · exact p.waitFor_reports hstable hown hregular hchecks p.attempts

end

/-! ### Polls that only look -/

section
variable {p} {s : Store} {r : JobRow} {job : Job} {report : JobReport}

/-- A poll makes no check on the job: it does not wait for an operation, or it is not polled from
outside. -/
def LeavesAlone (p : Pipeline) (r : JobRow) : Prop :=
  r.status ≠ .polling ∨
    ∃ t : JobType, r.jobType = Label.word t ∧ p.settings.polling.discipline t = .inProcess

theorem lookUp_runs {w : Surroundings σ} {x : σ} {jobId : String} {k : Job → Run PipelineError JobReport}
    (hfind : (Jobs.find jobId).run s = (.ok (some job), s)) (o : Except PipelineError JobReport)
    (m : Moment σ) :
    w.Runs (Run.widen (Ledger.find jobId) >>= k).run (s, x) o m ↔ w.Runs (k job).run (s, x) o m :=
  Surroundings.runs_transact hfind o m

theorem unread_runs {w : Surroundings σ} {x : σ} {jobId : String} {k : Job → Run PipelineError JobReport}
    {e : StoreError} (hfind : (Jobs.find jobId).run s = (.error e, s))
    (o : Except PipelineError JobReport) (m : Moment σ) :
    w.Runs (Run.widen (Ledger.find jobId) >>= k).run (s, x) o m ↔
      o = .error (Widen.widen (Widen.widen e : JobError)) ∧ m = (s, x) :=
  Surroundings.runs_transact hfind o m

/-- Such a poll asks for nothing but the job, and tells it as it is stored. -/
theorem poll_looks (hs : s.Regular) (hr : r ∈ s.jobs) (halone : p.LeavesAlone r) :
    ∃ o, (∀ job, r.read = .ok job → ∃ report, JobReport.ofJob job = .ok report ∧ o = .ok report) ∧
      ∀ (σ : Type) (w : Surroundings σ) (x : σ) o' m,
        w.Runs (p.poll r.id).run (s, x) o' m ↔ o' = o ∧ m = (s, x) := by
  unfold poll
  cases hread : r.read with
  | error e =>
    have hfind := Jobs.find_unread hs.sound hr hread
    exact ⟨_, (fun _ h => nomatch h), fun σ w x o' m => unread_runs hfind o' m⟩
  | ok job =>
    have hshows := JobRow.shows_of_read hread
    obtain ⟨report, hreport, -⟩ := (hs.row hr).ofJob_eq hread
    refine ⟨.ok report, ?_, fun σ w x o' m => (lookUp_runs (Jobs.find_run hs.sound hr hread) o' m).trans ?_⟩
    · rintro _ ⟨⟩
      exact ⟨report, hreport, rfl⟩
    · by_cases hpolling : job.status = .polling
      · obtain hother | ⟨t, hkind, hwaited⟩ := halone
        · exact absurd (hshows.status.symm.trans hpolling) hother
        · have htype : job.type = .ok t := by
            unfold Job.type
            rw [hshows.jobType]
            exact JobRow.kind_of_word hkind
          have hpure (k : JobType → Run PipelineError JobReport) :
              (Run.ofExcept (.ok t : Except StoreError JobType) >>= k) = k t := rfl
          rw [if_neg (by simp [hpolling]), htype, hreport, hpure, hwaited]
          exact Iff.rfl
      · rw [if_pos (bne_iff_ne.mpr hpolling), hreport]
        exact Iff.rfl

/-- A job that has ended is told as it is stored, and nothing else is asked for. -/
theorem ended_tells {c : Company σ} {P : Moment σ → Prop} {jobId : String}
    {k : Job → Run PipelineError JobReport} (hstable : c.Stable P)
    (hfind : ∀ m, P m → ∃ job : Job, (Jobs.find jobId).run m.1 = (.ok (some job), m.1) ∧
      job.status ≠ .polling ∧ JobReport.ofJob job = .ok report) :
    Run.Amid (ε := PipelineError) c P (fun told m => told = report ∧ P m) (fun _ _ => False) (do
      let job ← Run.widen (Ledger.find jobId)
      if job.status != .polling then Run.ofExcept (JobReport.ofJob job) else k job) := by
  refine .bind (R := fun job m => (job.status ≠ .polling ∧ JobReport.ofJob job = .ok report) ∧ P m)
    (.widen (Ledger.find_amid hstable fun m hm => ?_)) fun job => .given fun ⟨hended, hreport⟩ => ?_
  · obtain ⟨job, hrun, hjob⟩ := hfind m hm
    refine wp_of_run hrun ⟨fun _ h => ?_, nofun⟩
    exact ⟨Option.some.inj h ▸ hjob, hm⟩
  · rw [if_pos (bne_iff_ne.mpr hended), hreport]
    exact .pure fun _ hm => ⟨rfl, hm⟩

end
end Pipeline

end Quire
