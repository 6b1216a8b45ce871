import Quire.Proofs.Object.Depot
import Quire.Proofs.Pipeline.Overlapping
import Quire.Proofs.Pipeline.Reports

/-! What is told of an end, told again.

Whoever is told that a job has ended may ask again at any time, whatever has been done in between, and
is told the same (`ends_are_told_again`): the row stays as it is, and it tells what was told at first.
For that the row must be legible, which it is unless somebody has just given the job parameters that
are too deep to be read. -/
namespace Quire
open Txn

/-! ### Rows that can be read -/

/-- The job is there, and its parameters can be read. -/
def Store.HasLegible (jobId : String) (s : Store) : Prop :=
  s.Sound ∧ ∃ r ∈ s.jobs, r.id = jobId ∧ ∃ j, r.params.read = .ok j

/-- The parameters of a job are written only when it is given an operation. -/
theorem Store.hasLegible_unharmed (jobId : String) :
    UnharmedFor (· ≠ jobId) (Store.HasLegible jobId) := by
  refine .of_jobs (fun hjobs h => hjobs ▸ h) (fun id now c hc _ h => ?_)
    fun n id now heartbeat h => ?_
  · obtain ⟨r, hr, hid, hparams⟩ := h
    refine ⟨_, mem_changeWhere.mpr ⟨r, hr, rfl⟩, ?_⟩
    split
    case isFalse => exact ⟨hid, hparams⟩
    case isTrue hopen =>
      refine ⟨(c.apply_id now r).trans hid, ?_⟩
      cases c with
      | polling handle params timeoutAt =>
        exact absurd ((Jobs.isOpen_iff.mp hopen).1.symm.trans hid) (hc rfl)
      | _ => exact hparams
  · obtain ⟨r, hr, hjob⟩ := h
    exact ⟨r, List.mem_append_left _ hr, hjob⟩

namespace Pipeline
variable (p : Pipeline) {jobId : String} {report : JobReport} {s s' : Store}

/-- Who has found a job and gives it no operation, leaves it legible if nobody else has a turn. -/
theorem legible_of_runs {k : Job → Run PipelineError JobReport} (hs : s.Sound)
    (hk : ∀ job, (k job).Issues (IssuedFor (· ≠ jobId)))
    (h : Surroundings.free.Runs (Run.widen (Ledger.find jobId) >>= k).run (s, ()) (.ok report) (s', ())) :
    s'.HasLegible jobId := by
  have hstable (K : Store → Prop) : (Company.alone .free).Stable fun m : Moment Unit => K m.1 :=
    Company.alone_stable _
  have hlegible := Store.hasLegible_unharmed jobId
  have hfollowed : (Run.widen (Ledger.find jobId) >>= k).Amid (.alone .free) (fun m => m.1.Sound)
      (fun _ m => m.1.HasLegible jobId) fun (_ : PipelineError) _ => True := by
    refine .bind (.widen ((Ledger.find_reads (hstable Store.Sound)).conseq (fun _ hm => hm)
      (fun _ _ hm => hm) fun _ _ _ => trivial)) fun job => ?_
    have hrest := ((hk job).mono fun ht => hlegible.keeps ht).amid (hstable _) fun _ _ => trivial
    refine hrest.conseq (fun m hm => ?_) (fun _ _ hm => hm) fun _ _ _ => trivial
    obtain ⟨hs, r, hr, hid, hread⟩ := hm
    exact ⟨hs, r, hr, hid, _, (JobRow.shows_of_read hread).params⟩
  exact Company.ends_of_runs (fun _ => rfl) (Run.Amid.iff_leads.mp hfollowed (s, ()) hs) h

/-- A poll or a wait. -/
def Drives (p : Pipeline) (jobId : String) (r : Run PipelineError JobReport) : Prop :=
  r = p.poll jobId ∨ r = p.wait jobId

variable {p} {r : Run PipelineError JobReport}

theorem Drives.legible (hr : p.Drives jobId r) (hs : s.Sound)
    (h : Surroundings.free.Runs r.run (s, ()) (.ok report) (s', ())) : s'.HasLegible jobId := by
  have hchecks (job : Job) : Checks (IssuedFor (· ≠ jobId)) job := .issued job
  obtain rfl | rfl := hr
  · unfold poll at h
    refine legible_of_runs hs (fun job => ?_) h
    split
    · exact .ofExcept _
    · refine .ofExcept_bind fun jobType _ => ?_
      split
      · exact .ofExcept _
      · exact p.check_issues (hchecks job)
  · unfold wait at h
    refine legible_of_runs hs (fun job => .ofExcept_bind fun jobType _ => ?_) h
    split
    · exact .throw _
    · exact (p.waitFor_abides (.of_issues (Ledger.find_issues jobId (find_issued jobId)) id
        fun _ => trivial) (fun job _ => .of_asks (hchecks job) fun _ _ => trivial) _).issues

theorem Drives.reports {σ : Type} {c : Company σ} {K : Store → Prop} (hr : p.Drives jobId r)
    (hstable : c.Stable fun m => K m.1) (hown : ∀ m m', c.own m m')
    (hregular : ∀ s, K s → s.Regular) (hchecks : ∀ job, Checks (fun _ _ t => t.Keeps K) job) :
    Reports jobId c K (fun m => K m.1) r := by
  obtain rfl | rfl := hr
  · exact p.poll_reports hstable hown hregular hchecks
  · exact p.wait_reports hstable hown hregular hchecks

/-- A call that reports an end is right: the row tells it when the call returns. -/
theorem Drives.told {c c' : Scene} (hr : p.Drives jobId r) (hregular : c.store.Regular)
    (hissued : ∀ f ∈ c.flows, f.Issues Issued)
    (h : Relation.ReflTransGen Scene.Beside (c, r.run) (c', .done (.ok report)))
    (hsettled : report.isSettled = true) : c'.store.Told jobId report := by
  have hfollowed := hr.reports (Scene.company_stable Store.regular_unharmed) (fun _ _ => trivial)
    (fun _ hs => hs) fun job => (Checks.issued job).mono Store.regular_unharmed.keeps
  obtain ⟨s, hlasted, -, htold⟩ :=
    Scene.Beside.ends h hissued (Run.Amid.iff_leads.mp hfollowed (c.store, ()) hregular)
  exact (htold hsettled).lasted hlasted

/-- Once a job has ended and can be read, all polls of it tell the same. -/
theorem poll_tells_again {c c' : Scene} (htold : c.store.Told jobId report)
    (hissued : ∀ f ∈ c.flows, f.Issues Issued) {row : JobRow} (hrow : row ∈ c.store.jobs)
    (hid : row.id = jobId) (hparams : ∃ j, row.params.read = .ok j)
    {o : Except PipelineError JobReport}
    (h : Relation.ReflTransGen Scene.Beside (c, (p.poll jobId).run) (c', .done o)) :
    o = .ok (report.readOff row) := by
  obtain ⟨hregular, hjobId, r, hr, hended, htells, -⟩ := htold
  obtain rfl : row = r :=
    hregular.sound.job_unique hrow hr (hid.trans (hjobId.symm.trans htells.id.symm))
  obtain ⟨job, hread, hreport⟩ := htells.ofJob_eq (hregular.row hrow) hparams
  have hpolling : job.status ≠ .polling := by
    intro hpolling
    rw [(JobRow.shows_of_read hread).isActive_eq, hpolling] at hended
    cases hended
  have hfollowed : (p.poll jobId).Amid Scene.company
      (fun m => m.1.Sound ∧ c.store.Since m.1) (fun told m => told = report.readOff row ∧ _)
      fun _ _ => False :=
    ended_tells (Scene.company_stable (Store.Since.unharmed c.store)) fun m hm =>
      ⟨job, hid ▸ Jobs.find_run hm.1 (hm.2.ended row hrow hended) hread, hpolling, hreport⟩
  obtain ⟨s, -, hend⟩ := Scene.Beside.ends h hissued
    (Run.Amid.iff_leads.mp hfollowed (c.store, ()) ⟨hregular.sound, .refl c.store⟩)
  cases o with
  | ok told => exact congrArg Except.ok hend.1
  | error e => exact hend.elim

end Pipeline

/-- **An end is told in the same way ever after.** A poll of a job that does not wait for an operation,
or that is waited for and not polled from outside, asks for nothing but the job, changes nothing and
tells it as it is stored. And if a poll or a wait reports that a job has ended, then the row tells the
same when the call returns; and whatever calls have their turns from then on, every poll of the job
comes to an end and reports the same again, as long as the parameters of the job can be read, and they
can if nobody else has had a turn meanwhile. Only a draft may be promised at first, and not again,
for a completed job that is no extraction. -/
theorem ends_are_told_again {c : Scene} (hc : Relation.ReflTransGen Scene.Step .start c)
    (p : Pipeline) (jobId : String) :
    (∀ r ∈ c.store.jobs, r.id = jobId → p.LeavesAlone r →
      ∃ o, (∀ job, r.read = .ok job → ∃ report, JobReport.ofJob job = .ok report ∧ o = .ok report) ∧
        ∀ (σ : Type) (w : Surroundings σ) (x : σ) o' m,
          w.Runs (p.poll jobId).run (c.store, x) o' m ↔ o' = o ∧ m = (c.store, x)) ∧
    ∀ run, p.Drives jobId run → ∀ c' report,
      Relation.ReflTransGen Scene.Beside (c, run.run) (c', .done (.ok report)) →
      report.isSettled = true →
      ∃ r ∈ c'.store.jobs, r.id = jobId ∧ r.status = report.status ∧
        (Surroundings.free.Runs run.run (c.store, ()) (.ok report) (c'.store, ()) →
          ∃ j, r.params.read = .ok j) ∧
        ((∃ j, r.params.read = .ok j) → ∀ p' : Pipeline,
          (∃ later o, Relation.ReflTransGen Scene.Beside (c', (p'.poll jobId).run) (later, .done o)) ∧
          ∀ later o, Relation.ReflTransGen Scene.Beside (c', (p'.poll jobId).run) (later, .done o) →
            o = .ok (report.readOff r) ∧
            (r.isExtraction = true ∨ report.status = .failed → o = .ok report)) := by
  have hreachable : c.store.Reachable := ⟨c.flows, hc⟩
  have hregular := hreachable.regular
  have hissued := (Scene.Keeping.steps Store.Sound.unharmed hc ⟨.empty, fun _ hf => nomatch hf⟩).issued
  refine ⟨?_, fun run hrun c' report h hsettled => ?_⟩
  · rintro r hr rfl halone
    exact Pipeline.poll_looks hregular hr halone
  · have htold := hrun.told hregular hissued h hsettled
    have hissued' := Scene.Beside.issued h hissued
    obtain ⟨hregular', hid, r, hr, hended, htells, hdraft⟩ := htold
    have hrow : r.id = jobId := htells.id.trans hid
    refine ⟨r, hr, hrow, htells.status, fun halone => ?_, fun hparams p' => ⟨?_, fun later o hlater => ?_⟩⟩
    · obtain ⟨hs', r', hr', hid', hparams⟩ := hrun.legible hregular.sound halone
      exact hregular'.sound.job_unique hr' hr (hid'.trans hrow.symm) ▸ hparams
    · obtain ⟨o, ⟨s, _⟩, hruns⟩ := Surroundings.free_live.runs (p'.poll jobId).run (c'.store, ())
      exact ⟨_, o, Scene.Beside.of_runs c'.flows hruns⟩
    · have htold : c'.store.Told jobId report := ⟨hregular', hid, r, hr, hended, htells, hdraft⟩
      have hsame := Pipeline.poll_tells_again htold hissued' hr hrow hparams hlater
      refine ⟨hsame, fun hkind => ?_⟩
      rw [hsame, JobReport.readOff_self (hdraft (hkind.imp_right fun h => htells.status.trans h))]

/-! ### An operation that has left nothing -/

namespace Background

/-- The store after a poll has found nothing to collect. -/
def barren : Store :=
  ((Pipeline.completeJob "j" "d" ⟨0, 0⟩ false start.timestamp).run store).2

theorem poll_barren :
    Surroundings.free.Runs (pipeline.poll "j").run (store, ()) (.ok (.completed "j" 0)) (barren, ()) :=
  ⟨.ok (some job), (store, ()), ⟨rfl, rfl⟩, .ok ⟨true, none, none⟩, (store, ()), ⟨rfl, trivial⟩,
    .ok [], (store, ()), ⟨rfl, trivial⟩, .ok [], (store, ()), ⟨Pages.list_nil rfl, rfl⟩,
    .ok (), (store, ()), ⟨rfl, trivial⟩, start, (store, ()), ⟨rfl, trivial⟩,
    .ok (), (barren, ()), ⟨rfl, rfl⟩, .of_done rfl _⟩

end Background

/-- An extraction is completed without pages, and so it is told from then on. -/
theorem ends_are_told_again_without_pages :
    ∃ c c' : Scene, Relation.ReflTransGen Scene.Step .start c ∧
      Relation.ReflTransGen Scene.Beside (c, (Background.pipeline.poll "j").run)
        (c', .done (.ok (.completed "j" 0))) ∧
      ∀ (p' : Pipeline) later o,
        Relation.ReflTransGen Scene.Beside (c', (p'.poll "j").run) (later, .done o) →
          o = .ok (.completed "j" 0) := by
  obtain ⟨flows, hc⟩ := Background.store_quiet.reachable
  have hpoll := Scene.Beside.of_runs flows Background.poll_barren
  obtain ⟨-, hends⟩ := ends_are_told_again hc Background.pipeline "j"
  obtain ⟨r, hr, -, -, -, hagain⟩ := hends _ (.inl rfl) _ _ hpoll rfl
  obtain rfl := List.mem_singleton.mp hr
  have hparams : ∃ j, StoredJson.read (.ofJson Background.staging.toJson) = .ok j := ⟨_, rfl⟩
  exact ⟨_, _, hc, hpoll, fun p' later o h => ((hagain hparams p').2 later o h).2 (.inl rfl)⟩

namespace Background

/-! The job is completed by hand while its document is processing, and a job that is no extraction
takes the lock. -/

def released : Store := ((Ledger.completed "j" none start).run locked).2

def taken : Store :=
  ((tryAcquire (.onDocument "o" "d" .generateQuestions) "k" start pipeline.ledger.heartbeat).run
    released).2

/-- The other job was given the operation. -/
def lent : Store := ((pipeline.ledger.polling "k" "h" staging.toJson start).run taken).2

def lentJob : Job :=
  match ((Jobs.find "k").run lent).1 with
  | .ok (some job) => job
  | _ => default

/-- The store after a poll has found nothing to collect for that job. -/
def lentBarren : Store :=
  ((Pipeline.completeJob "k" "d" ⟨0, 0⟩ false start.timestamp).run lent).2

theorem lent_reachable : lent.Reachable := by
  have hreleased : released.Reachable := locked_reachable.run (.markCompleted "j" none)
    ⟨start, (locked, ()), ⟨rfl, trivial⟩, .ok (), (released, ()), ⟨rfl, rfl⟩, rfl, rfl⟩
  have htaken : taken.Reachable :=
    hreleased.run (.acquire pipeline.ledger (.onDocument "o" "d" .generateQuestions))
      ⟨"k", (released, ()), ⟨rfl, trivial⟩, start, (released, ()), ⟨rfl, trivial⟩,
        _, (taken, ()), ⟨rfl, rfl⟩, rfl, rfl⟩
  exact htaken.run (.markPolling pipeline.ledger "k" "h" staging.toJson)
    ⟨start, (taken, ()), ⟨rfl, trivial⟩, .ok (), (lent, ()), ⟨rfl, rfl⟩, rfl, rfl⟩

theorem poll_lent :
    Surroundings.free.Runs (pipeline.poll "k").run (lent, ()) (.ok (.completed "k" 0))
      (lentBarren, ()) :=
  ⟨.ok (some lentJob), (lent, ()), ⟨rfl, rfl⟩, .ok ⟨true, none, none⟩, (lent, ()), ⟨rfl, trivial⟩,
    .ok [], (lent, ()), ⟨rfl, trivial⟩, .ok [], (lent, ()), ⟨Pages.list_nil rfl, rfl⟩,
    .ok (), (lent, ()), ⟨rfl, trivial⟩, start, (lent, ()), ⟨rfl, trivial⟩,
    .ok (), (lentBarren, ()), ⟨rfl, rfl⟩, .of_done rfl _⟩

/-- The row of the job tells the same but for the draft, and so does the next poll. -/
theorem poll_lent_again :
    Surroundings.free.Runs (pipeline.poll "k").run (lentBarren, ())
      (.ok { JobReport.completed "k" 0 with draftReady := false }) (lentBarren, ()) := by
  have htold : lentBarren.Told "k" (.completed "k" 0) :=
    ((wp_iff_run _).mp (Pipeline.completeJob_told lent_reachable.regular "k" "d" ⟨0, 0⟩ false
      start.timestamp)).1 () rfl
  obtain ⟨hregular, -, r, hr, hended, htells, -⟩ := htold
  have hid : r.id = "k" := htells.id
  have hother : r.isExtraction = false ∧ ∃ j, r.params.read = .ok j := by
    rcases List.mem_cons.mp hr with rfl | hr
    · exact absurd hid (by decide)
    · obtain rfl := List.mem_singleton.mp hr
      exact ⟨by decide, _, rfl⟩
  obtain ⟨job, hread, hreport⟩ := htells.ofJob_eq (hregular.row hr) hother.2
  have halone : pipeline.LeavesAlone r := .inl (by rw [htells.status]; nofun)
  obtain ⟨o, ho, hruns⟩ := Pipeline.poll_looks hregular hr halone
  obtain ⟨report, hsame, rfl⟩ := ho job hread
  obtain rfl := Except.ok.inj (hreport.symm.trans hsame)
  have hdraft : r.hasDraft = false := by
    unfold JobRow.hasDraft
    rw [hother.1, Bool.false_and]
  have htells : (JobReport.completed "k" 0).readOff r =
      { JobReport.completed "k" 0 with draftReady := false } := by
    unfold JobReport.readOff
    rw [hdraft]
  have hpoll := (hruns Unit .free () _ _).mpr ⟨rfl, rfl⟩
  rwa [hid, htells] at hpoll

end Background

/-- A job that is no extraction is completed by a poll, which promises a draft; the next poll, with
nothing done in between, promises none. -/
theorem ends_are_told_otherwise :
    Background.lent.Reachable ∧ ∃ s report report',
      Surroundings.free.Runs (Background.pipeline.poll "k").run (Background.lent, ()) (.ok report)
        (s, ()) ∧
      Surroundings.free.Runs (Background.pipeline.poll "k").run (s, ()) (.ok report') (s, ()) ∧
      report.isSettled = true ∧ report.draftReady = true ∧ report'.draftReady = false :=
  ⟨Background.lent_reachable, Background.lentBarren, .completed "k" 0, _, Background.poll_lent,
    Background.poll_lent_again, rfl, rfl, rfl⟩

end Quire
