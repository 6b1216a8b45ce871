import Quire.Proofs.Flow.Oracles
import Quire.Proofs.Pipeline.Operations
import Quire.Proofs.Pipeline.Outcomes
import Quire.Proofs.Pipeline.Overlapping
import Quire.Proofs.Pipeline.Twins

/-! The two ways to drive an extraction to its end.

An extraction is waited for where it was begun, or it is polled from outside until it has ended.
Either way the same checks are made one after the other: a wait goes on where a poll tells its
caller of a failure, it pauses between two checks, and it looks the job up once more at the
beginning. A check that reports an end has ended the job (`check_truthful`), so both stop at the
same check, and leave the same behind (`disciplines_agree`). -/
namespace Quire
open Txn

/-! ### Reports of an end -/

/-- An open job that is ended has ended. -/
theorem Store.Closed.of_end {jobId now : String} {c : Jobs.Change} (hc : c.ends = true) {s : Store}
    (hopen : ∃ r ∈ s.jobs, Jobs.isOpen jobId r = true) :
    (Jobs.changed s jobId now c).Closed jobId := by
  obtain ⟨r, hr, hopen⟩ := hopen
  refine ⟨_, mem_changeWhere.mpr ⟨r, hr, rfl⟩, ?_⟩
  rw [if_pos hopen]
  exact ⟨(c.apply_id now r).trans (Jobs.isOpen_iff.mp hopen).1, Jobs.Change.isActive_of_ends hc⟩

/-- A report that the job has ended is true. -/
abbrev Run.Truthful (jobId : String) (r : Run PipelineError JobReport) : Prop :=
  r.Takes .free (fun _ => True) Store.Sound
    (fun report s => report.isSettled = true → s.Closed jobId) fun _ _ => True

/-- What issues harmless transactions only, keeps the rules of the schema. -/
theorem Run.Issues.sound {ε α : Type} {r : Run ε α} (h : r.Issues Harmless) :
    r.Takes .free (fun _ => True) Store.Sound (fun _ => Store.Sound) fun _ _ => True :=
  (Run.Takes.of_issues h Store.Sound.unharmed.toSpared.keeps fun _ _ => trivial).conseq
    (fun _ hs => hs) (fun _ _ hs => hs) fun _ _ _ => trivial

namespace Pipeline
variable (p : Pipeline) (job : Job)

theorem failJob_closes {s : Store} (hs : s.Sound) (message : String) (detail : Option String)
    (now : String) :
    (failJob job message detail now).wp (fun _ s' => s'.Closed job.id) (fun _ => True) s :=
  wp_mono (failJob_jobs hs job message detail now)
    (fun _ _ h => (Store.Closed.of_end rfl h.1).of_same h.2) fun _ h => h

theorem completeJob_closes {s : Store} (hs : s.Sound) (jobId documentId : String) (c : Collected)
    (cleanupFailed : Bool) (now : String) :
    (completeJob jobId documentId c cleanupFailed now).wp (fun _ s' => s'.Closed jobId)
      (fun _ => True) s :=
  wp_mono (completeJob_jobs hs jobId documentId c cleanupFailed now)
    (fun _ _ h => (Store.Closed.of_end rfl h.1).of_same h.2) fun _ h => h

theorem fail_truthful (message : String) (detail : Option String) :
    (fail job message detail).Truthful job.id := by
  refine (Run.Takes.perform (e := .clock) rfl).bind fun now => ?_
  refine Run.Takes.bind (R := fun _ s => s.Closed job.id) (.transact fun s hs => ?_)
    fun _ => .pure fun _ hclosed _ => hclosed
  exact wp_mono (failJob_closes job hs message detail now.timestamp) (fun _ _ h => ⟨trivial, h⟩)
    fun _ h => h

theorem close_truthful (jobId documentId inputKey : String) (keys : List String) (c : Collected) :
    (close jobId documentId inputKey keys c).Truthful jobId := by
  refine (deleteFiles_issues (.note jobId) _).sound.bind fun cleanupFailed => ?_
  refine (Run.Takes.perform (e := .clock) rfl).bind fun now => ?_
  refine Run.Takes.bind (R := fun _ s => s.Closed jobId) (.transact fun s hs => ?_)
    fun _ => .pure fun _ hclosed _ => hclosed
  exact wp_mono (completeJob_closes hs jobId documentId c cleanupFailed now.timestamp)
    (fun _ _ h => ⟨trivial, h⟩) fun _ h => h

theorem finalize_truthful : (p.finalize job).Truthful job.id := by
  rw [finalize_eq]
  refine .ofExcept_bind (fun _ _ _ _ => trivial) fun staging _ => ?_
  refine .ofExcept_bind (fun _ _ _ _ => trivial) fun documentId _ => ?_
  have hlist : (Run.request (.list staging.outputFolder) : Run PipelineError (List String)).Issues
      Harmless := .request trivial
  refine hlist.sound.bind fun found => ?_
  refine (p.gather_issues (.harmless job.id documentId) _).sound.bind fun c => ?_
  exact close_truthful job.id documentId staging.inputKey _ c

theorem settle_truthful (o : Except PipelineError JobReport) :
    (settle job o).Takes .free (fun _ => True)
      (Either (fun report s => report.isSettled = true → s.Closed job.id) (fun _ _ => True) o)
      (fun report s => report.isSettled = true → s.Closed job.id) fun _ _ => True := by
  cases o with
  | ok report => exact .pure fun _ hs => hs
  | error e =>
    unfold settle
    dsimp only
    split
    · exact (Run.Takes.anything _ trivial).bind fun _ => .throw fun _ _ => trivial
    · exact .throw fun _ _ => trivial

theorem proceed_truthful (state : Ocr.OperationStatus) : (p.proceed job state).Truthful job.id := by
  unfold proceed
  split
  · have halive : (Run.widen (p.ledger.signalAlive job.id) : Run PipelineError Unit).Issues Harmless :=
      (p.ledger.signalAlive_harmless job.id).widen
    exact halive.sound.bind fun _ => .pure fun _ _ h => nomatch h
  · split
    · exact fail_truthful job _ none
    · refine Run.Takes.bind (.outcome ((p.finalize_truthful job).conseq (fun _ hs => hs) ?_ ?_))
        fun o => settle_truthful job o
      · exact fun _ _ h => h
      · exact fun _ _ h => h

/-- A check that reports an end has ended the job. -/
theorem check_truthful : (p.check job).Truthful job.id := by
  unfold check
  split
  · exact fail_truthful job _ none
  · refine (Run.Takes.perform rfl).bind fun answer => ?_
    cases answer with
    | ok state => exact p.proceed_truthful job state
    | error e => exact (Run.Takes.anything _ trivial).bind fun _ => .throw fun _ _ => trivial

end Pipeline

/-! ### Extractions -/

/-- The job is an extraction, in a store that obeys the rules of the schema. -/
def Store.HasExtraction (jobId : String) (s : Store) : Prop :=
  s.Sound ∧ ∃ r ∈ s.jobs, r.id = jobId ∧ r.isExtraction = true

theorem Store.HasExtraction.unharmed (jobId : String) : Unharmed (Store.HasExtraction jobId) := by
  refine .of_jobs (fun hjobs h => hjobs ▸ h) (fun id now c _ _ h => ?_) fun n id now heartbeat h => ?_
  · obtain ⟨r, hr, hid, hkind⟩ := h
    refine ⟨_, mem_changeWhere.mpr ⟨r, hr, rfl⟩, ?_⟩
    split
    · unfold JobRow.isExtraction at hkind ⊢
      rw [c.apply_id, c.apply_jobType]
      exact ⟨hid, hkind⟩
    · exact ⟨hid, hkind⟩
  · obtain ⟨r, hr, hjob⟩ := h
    exact ⟨r, List.mem_append_left _ hr, hjob⟩

/-- A job as it is looked up: it is an extraction, and it is not polled any more once it has ended. -/
structure Store.LooksUp (jobId : String) (s : Store) (job : Job) : Prop where
  id : job.id = jobId
  kind : job.type = .ok .documentExtract
  ended : s.Closed jobId → job.status ≠ .polling

theorem Store.HasExtraction.looksUp {jobId : String} {s : Store} (h : s.HasExtraction jobId) {r : JobRow}
    (hr : r ∈ s.jobs) (hid : r.id = jobId) {job : Job} (hjob : r.Shows job) :
    s.LooksUp jobId job := by
  obtain ⟨hs, r', hr', hid', hkind⟩ := h
  obtain rfl : r = r' := hs.job_unique hr hr' (hid.trans hid'.symm)
  refine ⟨hjob.id.trans hid, ?_, ?_⟩
  · have hword : job.jobType = Label.word JobType.documentExtract :=
      hjob.jobType.trans (beq_iff_eq.mp hkind)
    unfold Job.type
    rw [hword]
    rfl
  · rintro ⟨closed, hclosed, hcid, hended⟩ hpolling
    obtain rfl : closed = r := hs.job_unique hclosed hr (hcid.trans hid.symm)
    rw [hjob.isActive_eq, hpolling] at hended
    cases hended

theorem Ledger.find_takes (jobId : String) :
    (find jobId).Takes .free (fun _ => True) (Store.HasExtraction jobId)
      (fun job s => s.LooksUp jobId job) fun _ _ => True := by
  refine Run.Takes.bind (R := fun found s => ∀ job, found = some job → s.LooksUp jobId job)
    (.transact fun s hs => ?_) fun found => ?_
  · refine Jobs.find_wp ⟨trivial, fun _ h => nomatch h⟩ (fun r hr hid job hjob => ?_)
      fun _ => trivial
    exact ⟨trivial, fun _ h => Option.some.inj h ▸ hs.looksUp hr hid hjob⟩
  · cases found with
    | none => exact .throw fun _ _ => trivial
    | some job => exact .pure fun _ hs => hs job rfl

/-! ### Driving a job -/

/-- Extractions are driven in one of the two ways. -/
def Pipeline.extracting (p : Pipeline) (d : Discipline) : Pipeline :=
  { p with settings := { p.settings with polling := p.settings.polling.set .documentExtract d } }

/-- Times are not looked at. -/
def Veil.clocks : Veil := ⟨true, false⟩

namespace Oracle
variable {σ : Type}

/-- The same oracle with a count of the questions for the state of an operation. A pause passes it
by. -/
def counting (w : Oracle σ) : Oracle (σ × Nat) where
  answer
    | .sleep _, x => ((), x)
    | .status handle, (x, n) =>
      ((w.answer (.status handle) x).1, (w.answer (.status handle) x).2, n + 1)
    | e, (x, n) => ((w.answer e x).1, (w.answer e x).2, n)

/-- Up to `n` polls from outside, one after the other until the job has ended. -/
def polls (w : Oracle σ) (p : Pipeline) (jobId : String) : (n : Nat) → Situation σ → Situation σ
  | 0, m => m
  | n + 1, m =>
    if m.store.Closed jobId then m else w.polls p jobId n (w.run (p.poll jobId).run m).2

end Oracle

namespace Pipeline
variable {σ : Type} (w : Oracle σ) (p : Pipeline) (jobId : String) {m : Situation σ}

/-- What polls and waits begin with. -/
abbrev lookUp : Run PipelineError Job := Run.widen (Ledger.find jobId)

/-- The job that is looked up waits for an operation. -/
def Awaited (m : Situation σ) : Prop :=
  ∃ job, (w.run (lookUp jobId).run m).1 = .ok job ∧ job.status = .polling

variable {jobId}

theorem find_leaves (hm : m.Undisturbed) : w.Leaves (lookUp jobId) m := by
  refine Oracle.Leaves.widen (.bind (.look hm (Jobs.find_readOnly jobId)) fun found _ => ?_)
  cases found with
  | none => rfl
  | some job => rfl

theorem looksUp_of_found (hm : m.Undisturbed) (hs : m.store.HasExtraction jobId) {job : Job}
    (hfound : (w.run (lookUp jobId).run m).1 = .ok job) : m.store.LooksUp jobId job := by
  have hfind : (lookUp jobId).Takes .free (fun _ => True) (Store.HasExtraction jobId)
      (fun job s => s.LooksUp jobId job) fun _ _ => True := .widen (Ledger.find_takes jobId)
  have hends := hfind.ends w hm hs
  rw [hfound, find_leaves w hm] at hends
  exact hends

/-- A job that has ended does not wait for an operation. -/
theorem not_awaited_of_closed (hm : m.Undisturbed) (hs : m.store.HasExtraction jobId)
    (hclosed : m.store.Closed jobId) : ¬ Awaited w jobId m :=
  fun ⟨_, hfound, hpolling⟩ => (looksUp_of_found w hm hs hfound).ended hclosed hpolling

/-! A job that does not wait for an operation is left alone, by polls as by waits. -/

section Idle
variable (hm : m.Undisturbed) (hidle : ¬ Awaited w jobId m)
include hm hidle

theorem leaves_of_idle (k : Job → Run PipelineError JobReport) :
    w.Leaves (do
      let job ← Run.widen (Ledger.find jobId)
      if job.status != .polling then Run.ofExcept (JobReport.ofJob job) else k job) m := by
  refine (find_leaves w hm).bind fun job hfound => ?_
  have hpolling : job.status ≠ .polling := fun h => hidle ⟨job, hfound, h⟩
  rw [if_pos (bne_iff_ne.mpr hpolling)]
  exact .ofExcept _

theorem polls_leave (n : Nat) : w.polls p jobId n m = m := by
  induction n with
  | zero => rfl
  | succ n ih =>
    have hpoll : w.Leaves (p.poll jobId) m := leaves_of_idle w hm hidle _
    unfold Oracle.polls
    rw [show (w.run (p.poll jobId).run m).2 = m from hpoll, ih, ite_self]

theorem waitFor_leaves (left : Nat) : w.Leaves (p.waitFor jobId left) m := by
  cases left with
  | zero => exact leaves_of_idle w hm hidle _
  | succ left => exact leaves_of_idle w hm hidle _

end Idle

/-! A job that waits for an operation is checked on. -/

section Checks
variable {job : Job} (hfound : w.run (lookUp jobId).run m = (.ok job, m))
  (hpolling : job.status = .polling)
include hfound hpolling

theorem poll_checks (hkind : job.type = .ok .documentExtract) :
    w.run ((p.extracting .external).poll jobId).run m = w.run (p.check job).run m := by
  unfold poll
  rw [w.run_bind_ok hfound, if_neg (by simp [hpolling]), hkind]
  rfl

theorem waitFor_checks (left : Nat) : w.run (p.waitFor jobId (left + 1)).run m =
    match w.run (p.check job).run m with
    | (.ok report, m') =>
      if report.isSettled then (.ok report, m') else w.run (p.again jobId left).run m'
    | (.error _, m') => w.run (p.again jobId left).run m' := by
  rw [waitFor_succ, w.run_bind_ok hfound, if_neg (by simp [hpolling]),
    w.run_bind_ok (w.run_outcome (p.check job) m)]
  generalize w.run (p.check job).run m = out
  obtain ⟨o, m'⟩ := out
  cases o with
  | ok report =>
    exact apply_ite (fun r : Run PipelineError JobReport => w.run r.run m')
      (report.isSettled = true) (pure report) (p.again jobId left)
  | error e => rfl

end Checks

/-! ### Side by side -/

section
variable {m' : Situation σ} (hm : m.Alike .clocks m')
include hm

theorem found_alike (jobId : String) :
    Outcomes (fun job job' => job.veiled .clocks = job'.veiled .clocks)
      (w.run (lookUp jobId).run m).1 (w.run (lookUp jobId).run m').1 := by
  have hfind : (lookUp jobId).Alike .clocks
      (fun job job' => job.veiled .clocks = job'.veiled .clocks) (lookUp jobId) :=
    .widen (Ledger.find_alike jobId)
  exact (hfind.ends w hm).1

theorem awaited_iff : Awaited w jobId m ↔ Awaited w jobId m' := by
  have hfound := found_alike w hm jobId
  unfold Awaited
  generalize (w.run (lookUp jobId).run m).1 = o, (w.run (lookUp jobId).run m').1 = o' at hfound
  cases hfound with
  | ok h => simp [status_same h]
  | error h => simp

end

section
variable {m m' : Situation (σ × Nat)}

/-- After the rest of a wait, which has so many checks left. -/
abbrev waited (jobId : String) (left : Nat) (m : Situation (σ × Nat)) : Situation (σ × Nat) :=
  (w.counting.run ((p.extracting .inProcess).waitFor jobId left).run m).2

/-- After so many polls, unless the job has ended before. -/
abbrev polled (jobId : String) (n : Nat) (m : Situation (σ × Nat)) : Situation (σ × Nat) :=
  w.counting.polls (p.extracting .external) jobId n m

/-- A pause passes an oracle by that counts. -/
theorem again_run (left : Nat) (m : Situation (σ × Nat)) :
    w.counting.run (p.again jobId left).run m = w.counting.run (p.waitFor jobId left).run m := by
  unfold again
  split
  · rfl
  · rfl

variable (hm : m.Alike .clocks m') (hquiet : m.Undisturbed)
include hm hquiet

/-- Neither changes anything. -/
theorem idle_alike (hidle : ¬ Awaited w.counting jobId m') (n left : Nat) :
    (waited w p jobId left m).Alike .clocks (polled w p jobId n m') := by
  have hwait : waited w p jobId left m = m := waitFor_leaves w.counting _ hquiet
    (mt (awaited_iff w.counting hm).mp hidle) left
  rw [hwait, polled, polls_leave w.counting _ (hm.undisturbed hquiet) hidle n]
  exact hm

/-- The same job is looked up on either side. -/
theorem awaited_alike (hs' : m'.store.HasExtraction jobId) (hawaited : Awaited w.counting jobId m') :
    ∃ job job', job.veiled .clocks = job'.veiled .clocks ∧ job'.status = .polling ∧
      m'.store.LooksUp jobId job' ∧ w.counting.run (lookUp jobId).run m = (.ok job, m) ∧
      w.counting.run (lookUp jobId).run m' = (.ok job', m') := by
  have hquiet' := hm.undisturbed hquiet
  have hfind := found_alike w.counting hm jobId
  obtain ⟨job', hfound', hpolling⟩ := hawaited
  rw [hfound'] at hfind
  cases hfound : (w.counting.run (lookUp jobId).run m).1 with
  | error e => rw [hfound] at hfind; cases hfind
  | ok job =>
    rw [hfound] at hfind
    obtain ⟨hsame⟩ := hfind
    exact ⟨job, job', hsame, hpolling, looksUp_of_found _ hquiet' hs' hfound',
      Prod.ext hfound (find_leaves _ hquiet), Prod.ext hfound' (find_leaves _ hquiet')⟩

/-- A check is made on either side. It ends the job and the wait, or the wait goes on. -/
theorem checked_alike (hs : m.store.HasExtraction jobId) (hs' : m'.store.HasExtraction jobId)
    (hawaited : Awaited w.counting jobId m') (left : Nat) :
    ∃ m₁ m₁', m₁.Alike .clocks m₁' ∧ m₁.Undisturbed ∧ m₁.store.HasExtraction jobId ∧
      m₁'.store.HasExtraction jobId ∧
      (w.counting.run ((p.extracting .external).poll jobId).run m').2 = m₁' ∧
      (m₁'.store.Closed jobId ∧ waited w p jobId (left + 1) m = m₁ ∨
        waited w p jobId (left + 1) m = waited w p jobId left m₁) := by
  have hquiet' := hm.undisturbed hquiet
  obtain ⟨job, job', hsame, hpolling, hlook, hfound, hfound'⟩ :=
    awaited_alike w hm hquiet hs' hawaited
  have hpoll := poll_checks w.counting p hfound' hpolling hlook.kind
  have hwait := waitFor_checks w.counting (p.extracting .inProcess) hfound
    ((status_same hsame).trans hpolling) left
  rw [show (p.extracting .inProcess).check job = p.check job' from p.check_same hsame] at hwait
  have hkeeps : (p.check job').Takes .free (fun _ => True) (Store.HasExtraction jobId)
      (fun _ => Store.HasExtraction jobId) fun _ => Store.HasExtraction jobId :=
    .of_issues (p.check_issues (.issued job')) (Store.HasExtraction.unharmed jobId).keeps
      fun _ _ => trivial
  obtain ⟨ho, hm₁⟩ := (p.check_alike job').ends w.counting hm
  have hquiet₁ := (w.counting.runs_free (p.check job').run hquiet).2
  have hs₁ := hkeeps.kept w.counting hquiet hs
  have hs₁' := hkeeps.kept w.counting hquiet' hs'
  have htruth := (p.check_truthful job').ends w.counting hquiet' hs'.1
  generalize w.counting.run (p.check job').run m = out at *
  generalize w.counting.run (p.check job').run m' = out' at *
  obtain ⟨o, m₁⟩ := out
  obtain ⟨o', m₁'⟩ := out'
  refine ⟨m₁, m₁', hm₁, hquiet₁, hs₁, hs₁', congrArg Prod.snd hpoll, ?_⟩
  rw [waited, hwait]
  cases ho with
  | @ok report report' hreport =>
    obtain rfl := hreport
    by_cases hsettled : report.isSettled = true
    · exact .inl ⟨hlook.id ▸ htruth hsettled, by simp [hsettled]⟩
    · right
      simp only [hsettled]
      rw [again_run]
      rfl
  | error => exact .inr (congrArg Prod.snd (again_run w _ left m₁))

end

/-- Side by side, check by check, to the end of the job. -/
theorem waited_alike_polled {n left : Nat} (hn : n ≤ left) {m m' : Situation (σ × Nat)}
    (hm : m.Alike .clocks m') (hquiet : m.Undisturbed) (hs : m.store.HasExtraction jobId)
    (hs' : m'.store.HasExtraction jobId) (hended : (polled w p jobId n m').store.Closed jobId) :
    (waited w p jobId left m).Alike .clocks (polled w p jobId n m') := by
  have hquiet' := hm.undisturbed hquiet
  induction n generalizing left m m' with
  | zero =>
    exact idle_alike w p hm hquiet (not_awaited_of_closed _ hquiet' hs' hended) 0 left
  | succ n ih =>
    by_cases hawaited : Awaited w.counting jobId m'
    case neg => exact idle_alike w p hm hquiet hawaited (n + 1) left
    case pos =>
      obtain ⟨left, rfl⟩ := Nat.exists_eq_add_of_le' (Nat.one_le_of_lt hn)
      obtain ⟨m₁, m₁', hm₁, hquiet₁, hs₁, hs₁', hpoll, hwait⟩ :=
        checked_alike w p hm hquiet hs hs' hawaited left
      have hquiet₁' := hm₁.undisturbed hquiet₁
      have hopen : ¬ m'.store.Closed jobId := fun h =>
        not_awaited_of_closed _ hquiet' hs' h hawaited
      have hnext : polled w p jobId (n + 1) m' = polled w p jobId n m₁' := by
        rw [polled, Oracle.polls, if_neg hopen, hpoll]
      rw [hnext] at hended ⊢
      obtain ⟨hclosed, hwaited⟩ | hwaited := hwait
      · have hidle := not_awaited_of_closed w.counting hquiet₁' hs₁' hclosed
        rw [hwaited, polled, polls_leave _ _ hquiet₁' hidle n]
        exact hm₁
      · rw [hwaited]
        exact ih (Nat.le_of_succ_le_succ hn) hm₁ hquiet₁ hs₁ hs₁' hended hquiet₁'

/-- A wait looks the job up once more before it begins. -/
theorem wait_run {m : Situation (σ × Nat)} (hquiet : m.Undisturbed)
    (hs : m.store.HasExtraction jobId) :
    (w.counting.run ((p.extracting .inProcess).wait jobId).run m).2 =
      waited w p jobId p.attempts m := by
  cases hfound : (w.counting.run (lookUp jobId).run m).1 with
  | error e =>
    have hidle : ¬ Awaited w.counting jobId m := fun ⟨_, hjob, _⟩ => nomatch hfound.symm.trans hjob
    have hwait : waited w p jobId p.attempts m = m := waitFor_leaves _ _ hquiet hidle _
    rw [hwait]
    exact (find_leaves _ hquiet).bind fun _ hjob => nomatch hfound.symm.trans hjob
  | ok job =>
    unfold wait
    rw [w.counting.run_bind_ok (Prod.ext hfound (find_leaves _ hquiet)),
      (looksUp_of_found _ hquiet hs hfound).kind]
    rfl

end Pipeline

/-- The beginning of a run: the store, which fails nothing of its own accord, what the services
remember, and the readings of the clock to come. -/
def Situation.start {σ : Type} (s : Store) (x : σ) (clock : Nat → Instant) : Situation σ :=
  ⟨s, x, clock, fun _ => none⟩

/-- **The two disciplines agree.** Whatever the services answer: if an extraction has ended after
polls from outside, and these were at most as many as the checks of a wait, then a wait leaves the
same documents, pages and jobs, and everything else in the store the same but for times and for the
traces of events. The services remember the same afterwards, temporary objects included, and they
were asked as often for the state of the operation. -/
theorem disciplines_agree {σ : Type} (w : Oracle σ) (p : Pipeline) {s : Store} (hs : s.Sound)
    {jobId : String} (hjob : ∃ r ∈ s.jobs, r.id = jobId ∧ r.isExtraction = true) (x : σ)
    (clock clock' : Nat → Instant) {n : Nat} (hn : n ≤ p.attempts) :
    let waited :=
      (w.counting.run ((p.extracting .inProcess).wait jobId).run (.start s (x, 0) clock)).2
    let polled := w.counting.polls (p.extracting .external) jobId n (.start s (x, 0) clock')
    polled.store.Closed jobId →
      waited.store.veiled .clocks = polled.store.veiled .clocks ∧
        waited.memory = polled.memory := by
  intro waited polled hended
  have hstart : (Situation.start s (x, 0) clock).Alike .clocks (.start s (x, 0) clock') :=
    ⟨rfl, rfl, fun _ => .inl rfl, fun _ => rfl⟩
  have hquiet : (Situation.start s (x, 0) clock).Undisturbed := fun _ => rfl
  have halike := Pipeline.waited_alike_polled w p hn hstart hquiet ⟨hs, hjob⟩ ⟨hs, hjob⟩ hended
  rw [← Pipeline.wait_run w p hquiet ⟨hs, hjob⟩] at halike
  exact ⟨halike.store, halike.memory⟩

namespace Scripted

/-- Objects, and the answers to come about the state of an operation. -/
abbrev Services := ObjectStore × List (Except OcrError Ocr.OperationStatus)

/-- Objects are listed, read and deleted, and the answers are given one by one. -/
noncomputable def oracle : Oracle Services where
  answer
    | .status _, (o, answers) => (answers.headD (.ok ⟨false, none, none⟩), o, answers.tail)
    | .list start, (o, answers) => (.ok (o.list start), o, answers)
    | .get key, (o, answers) => (o.get key, o, answers)
    | .delete key, (o, answers) => (.ok (), o.delete key, answers)
    | e, x => (Classical.choice e.nonempty, x)

/-- The operation is running, then nothing is told of it, and then it has left one shard. -/
def services : Services :=
  (Background.single, [.ok ⟨false, none, none⟩, .error (.transient 429 ""), .ok ⟨true, none, none⟩])

end Scripted

/-- A page is collected by the third check, with a wait as with polls. -/
theorem disciplines_agree_on_script :
    let p := Background.pipeline
    let s := Background.store
    let waited := (Scripted.oracle.counting.run ((p.extracting .inProcess).wait "j").run
      (.start s (Scripted.services, 0) fun _ => ⟨0, 0⟩)).2
    let polled := Scripted.oracle.counting.polls (p.extracting .external) "j" 3
      (.start s (Scripted.services, 0) fun n => ⟨n, 0⟩)
    s.Sound ∧ (∃ r ∈ s.jobs, r.id = "j" ∧ r.isExtraction = true) ∧ 3 ≤ p.attempts ∧
      polled.store.Closed "j" ∧ polled.store.documents.map (·.status) = [.draft] ∧
      polled.memory.2 = 3 ∧
      waited.store.veiled .clocks = polled.store.veiled .clocks ∧ waited.memory = polled.memory := by
  intro p s waited polled
  have hsound : s.Sound := Background.store_quiet.calm.sound
  have hjob : ∃ r ∈ s.jobs, r.id = "j" ∧ r.isExtraction = true :=
    ⟨_, List.mem_singleton_self _, rfl, rfl⟩
  have hchecks : 3 ≤ p.attempts := by decide
  have hended : polled.store.Closed "j" := by decide +kernel
  exact ⟨hsound, hjob, hchecks, hended, by decide +kernel, by decide +kernel,
    disciplines_agree Scripted.oracle p hsound hjob Scripted.services _ _ hchecks hended⟩

end Quire
