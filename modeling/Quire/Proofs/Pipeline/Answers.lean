import Quire.Proofs.Object.Depot
import Quire.Proofs.Pipeline.Attempt
import Quire.Proofs.Pipeline.Checking
import Quire.Proofs.Pipeline.Lifecycle

/-! What an ingestion answers, and what it leaves.

Uploads, extraction, recognition and temporary objects may behave as they like, except that an
object is written as a whole or not at all, under a key that is not in use, and that what is deleted
is gone. Then the answer of an ingestion tells what has become of its job, of the document and of
the copy of the upload: whichever of its steps is the last. -/
namespace Quire
open Txn
variable {σ α ε : Type}

/-! ### Failures of others -/

namespace PipelineError

theorem ofStorage_isRefusal (e : StorageError) : (ofStorage e).isRefusal = false := by
  cases e <;> rfl

theorem ofOcr_isRefusal (e : OcrError) : (ofOcr e).isRefusal = false := by cases e <;> rfl

theorem ofProcess_isRefusal (e : ProcessError) : (ofProcess e).isRefusal = false := by
  cases e <;> rfl

end PipelineError

/-! ### Taking the text -/

namespace Attempt
variable (a : Attempt)

/-- The text is being taken, and nothing else has happened outside. -/
def Here (x : σ) (m : Moment σ) : Prop := a.Extracting m.1 ∧ m.2 = x

/-- Something has failed after the lock was taken, and nothing has happened outside. -/
def Stuck (x : Depot) (e : PipelineError) (m : Moment Depot) : Prop :=
  e.isRefusal = false ∧ a.Here x m

/-- What the answer tells of the job, the document and the objects. -/
def Answered : Ingestion → Moment Depot → Prop
  | .completed jobId draftReady, m => jobId = a.jobId ∧ draftReady = true ∧
    ∃ handle n, a.Completed handle n m.1 ∧ (handle = none → m.1.NumberedTo a.documentId n)
  | .polling jobId, m => jobId = a.jobId ∧ ∃ handle staging, m.2.handle = some handle ∧
    a.Waiting handle staging m.1 ∧ m.2.objects.contains staging.inputKey = true
  | .failed jobId error, m => jobId = a.jobId ∧ a.Failed error m.1

end Attempt

/-! #### The ledger -/

section Marking
variable {w : Surroundings σ} (hclock : w.Ignores .clock) {a : Attempt} {x : σ}
  {E : JobError → Moment σ → Prop}
include hclock

/-- The time is asked for, and nothing happens. -/
theorem Run.Amid.clock_alone {P : Moment σ → Prop} {E : ε → Moment σ → Prop} :
    (Run.clock : Run ε Instant).Amid (.alone w) P (fun _ => P) E :=
  .ask_alone rfl hclock

theorem Ledger.markRunning_here :
    (markRunning a.jobId).Amid (.alone w) (a.Here x) (fun _ => a.Here x) E := by
  refine (Run.Amid.clock_alone hclock).bind fun now => .certain_at fun s hs => ?_
  exact hs.mark_wp (.inl rfl) now.timestamp

theorem Ledger.updateProgress_here (done total : UInt32) (step : String) :
    (updateProgress a.jobId done total step).Amid (.alone w) (a.Here x) (fun _ => a.Here x) E := by
  refine (Run.Amid.clock_alone hclock).bind fun now => .certain_at fun s hs => ?_
  exact hs.mark_wp (.inr ⟨done, total, _, step, rfl⟩) now.timestamp

theorem Ledger.addEvent_here (kind : EventKind) (step : Option String) (message : String)
    (trace : Option String) :
    (addEvent a.jobId kind step message trace).Amid (.alone w) (a.Here x) (fun _ => a.Here x)
      E := by
  refine (Run.Amid.clock_alone hclock).bind fun now => .certain_at fun s hs => ?_
  exact hs.note_wp kind step message trace now.timestamp

/-- The job is left to its operation. -/
theorem Ledger.markPolling_here (ledger : Ledger) (handle : String) (staging : Staging) :
    (ledger.markPolling a.jobId handle staging.toJson).Amid (.alone w) (a.Here x)
      (fun _ m => a.Waiting handle staging m.1 ∧ m.2 = x) E := by
  refine (Run.Amid.clock_alone hclock).bind fun now => .certain_at fun s hs => ?_
  exact hs.polling_wp handle now.timestamp (ledger.deadline now) staging

theorem Ledger.addEvent_left {handle : String} {staging : Staging} (kind : EventKind)
    (step : Option String) (message : String) (trace : Option String) :
    (addEvent a.jobId kind step message trace).Amid (.alone w)
      (fun m => a.Waiting handle staging m.1 ∧ m.2 = x)
      (fun _ m => a.Waiting handle staging m.1 ∧ m.2 = x) E :=
  (Run.Amid.clock_alone hclock).bind fun now => .certain_at fun _ hs =>
    hs.note_wp kind step message trace now.timestamp

/-- A failure is recorded. -/
theorem Pipeline.conclude_here {document : Document} (hdocument : document.id = a.documentId)
    (e : PipelineError) {Q : Ingestion → Moment σ → Prop} :
    (conclude document a.jobId (.error e)).Amid (.alone w) (a.Here x) Q
      fun e' m => e' = e ∧ a.Recorded e m.1 ∧ m.2 = x := by
  refine (Run.Amid.clock_alone hclock).bind fun now => ?_
  refine Run.Amid.bind (R := fun _ m => a.Recorded e m.1 ∧ m.2 = x)
    (.attempt (Company.alone_stable _) fun s x' hs => ?_) fun _ => .throw fun _ hm => ⟨rfl, hm⟩
  exact wp_mono (hs.1.recordFailure_wp hdocument e now.timestamp)
    (fun _ _ h => ⟨trivial, h, hs.2⟩) fun _ h => h.elim

/-- Pages that are numbered in turn make the document a draft, unless there are more than can be
numbered. -/
theorem Pipeline.finish_alone {document : Document} (hdocument : document.id = a.documentId)
    {pages : List NewPage} (hpages : NewPage.InTurn pages) (source : String) :
    (finish document a.jobId pages source).Amid (.alone w) (a.Here x)
      (fun answer m => answer = .completed a.jobId true ∧ pages.length < UInt32.size ∧
        a.Completed none pages.length m.1 ∧ m.1.Files a.documentId pages ∧ m.2 = x)
      fun e m => UInt32.size ≤ pages.length ∧ (∃ fault, e = .internal (.store fault)) ∧
        a.Here x m := by
  refine (Run.Amid.clock_alone hclock).bind fun now => ?_
  refine Run.Amid.bind (R := fun _ m => (pages.length < UInt32.size ∧
    a.Completed none pages.length m.1 ∧ m.1.Files a.documentId pages) ∧ m.2 = x) ?_ fun _ =>
      .pure fun m hm => ⟨rfl, hm.1.1, hm.1.2.1, hm.1.2.2, hm.2⟩
  refine (Run.Amid.transact_alone (fun s hs => hs.finishWith_wp hdocument hpages source
    now.timestamp) x).conseq (fun _ h => h) (fun _ _ h => h) fun _ _ h => ?_
  obtain ⟨⟨_, rfl, hlong, hfault⟩, hm⟩ := h
  exact ⟨hlong, hfault, hm⟩

end Marking

section Taking
variable {a : Attempt} {x : Depot}

/-- Among the objects, with nobody else. -/
abbrev Depot.alone : Company Depot := .alone Depot.surroundings

theorem Depot.ignores_clock : surroundings.Ignores .clock := fun _ _ _ h => h

namespace Pipeline

/-- What others answer is the answer, or a failure that is no refusal. -/
theorem request_here [Widen ε PipelineError] {e : Effect (Except ε α)} (he : e.isTransaction = false)
    (hsame : Depot.surroundings.Ignores e)
    (hε : ∀ fault : ε, (Widen.widen fault : PipelineError).isRefusal = false) :
    (Run.request e : Run PipelineError α).Amid Depot.alone (a.Here x) (fun _ => a.Here x)
      (a.Stuck x) := by
  refine (Run.Amid.demand_alone he hsame).conseq (fun _ h => h) (fun _ _ h => h) fun _ m h => ?_
  obtain ⟨⟨fault, rfl⟩, hm⟩ := h
  exact ⟨hε fault, hm⟩

theorem readUpload_here (r : Upload.Reference) (limit : Nat) :
    (readUpload r limit).Amid Depot.alone (a.Here x) (fun _ => a.Here x) (a.Stuck x) := by
  have hread : Run.Amid (ε := PipelineError) Depot.alone (a.Here x) (fun _ => a.Here x) (a.Stuck x)
      (ExceptT.lift (Upload.readAll (Program.perform (.openUpload r)) r limit)) := by
    refine Run.Amid.iff_leads.mpr fun m hm => (Run.Leads.lift _).mpr ?_
    unfold Upload.readAll
    split
    · exact hm
    · refine (Flow.Leads.bind _ _).mpr fun m₁ hm₁ o n ho => ⟨trivial, ?_⟩
      obtain ⟨hstore, hsame⟩ := ho
      have hn : n = m := (Prod.ext hstore hsame).trans hm₁
      cases o with
      | ok stream => exact hn ▸ hm
      | error e => exact hn ▸ hm
  refine hread.bind fun o => ?_
  cases o with
  | ok content => exact .pure fun _ hm => hm
  | error e => exact .throw fun _ hm => ⟨PipelineError.ofStorage_isRefusal e, hm⟩

variable {document : Document} (hdocument : document.id = a.documentId)
include hdocument

theorem finish_here {pages : List NewPage} (hpages : NewPage.InTurn pages) (source : String) :
    (finish document a.jobId pages source).Amid Depot.alone (a.Here x) a.Answered (a.Stuck x) := by
  refine (finish_alone Depot.ignores_clock hdocument hpages source).conseq (fun _ h => h)
    (fun _ _ h => ?_) fun _ _ h => ?_
  · obtain ⟨rfl, hlength, hcompleted, hfiles, -⟩ := h
    exact ⟨rfl, rfl, none, pages.length, hcompleted, fun _ => hpages.numberedTo hlength hfiles⟩
  · obtain ⟨-, ⟨fault, rfl⟩, hm⟩ := h
    exact ⟨rfl, hm⟩

end Pipeline
end Taking

/-! ### Waiting -/

/-- What a job's row says of it. -/
theorem JobRow.errorMessage_of_read {r : JobRow} {job : Job} (h : r.read = .ok job) :
    job.errorMessage = r.errorMessage := by
  obtain ⟨_, -, h⟩ := bind_eq_ok.mp h
  obtain ⟨_, -, h⟩ := bind_eq_ok.mp h
  obtain ⟨_, -, h⟩ := bind_eq_ok.mp h
  obtain ⟨_, -, h⟩ := bind_eq_ok.mp h
  obtain ⟨_, -, h⟩ := bind_eq_ok.mp h
  obtain rfl := Except.ok.inj h
  rfl

namespace Attempt
variable (a : Attempt) (handle : String) (staging : Staging)

/-- The job that is read of an attempt. -/
structure Reads (a : Attempt) (job : Job) : Prop where
  id : job.id = a.jobId
  documentId : job.documentId = some a.documentId
  kind : job.type = .ok .documentExtract

theorem Row.reads {a : Attempt} {r : JobRow} (hr : a.Row r) {job : Job} (hread : r.read = .ok job) :
    a.Reads job := by
  have hshows := JobRow.shows_of_read hread
  refine ⟨hshows.id.trans hr.id, hshows.documentId.trans hr.documentId, ?_⟩
  unfold Job.type
  rw [hshows.jobType, eq_of_beq hr.kind]
  rfl

/-- A report tells how the job stands. -/
inductive Reported (s : Store) : JobReport → Prop
  | polling {report : JobReport} : report.status = .polling → a.Waiting handle staging s →
      Reported s report
  | completed (n : UInt32) : a.Completed (some handle) n.toNat s →
      Reported s (.completed a.jobId n)
  | failed {report : JobReport} (message : String) : report.jobId = a.jobId →
      report.status = .failed → report.error = some message → a.Failed message s →
      Reported s report

/-- The job waits, or it has failed. -/
def Unfinished (s : Store) : Prop := a.Waiting handle staging s ∨ ∃ message, a.Failed message s

/-- The job is found waiting, or failed. -/
def Found (job : Job) (s : Store) : Prop :=
  (job.status = .polling ∧ a.Waiting handle staging s) ∨
    ∃ message, job.status = .failed ∧ job.errorMessage = some message ∧ a.Failed message s

variable {a handle staging} {s : Store} {report : JobReport} {job : Job}

theorem Found.waiting (h : a.Found handle staging job s) (hstatus : job.status = .polling) :
    a.Waiting handle staging s := by
  obtain ⟨-, h⟩ | ⟨message, hfailed, -⟩ := h
  · exact h
  · exact absurd (hstatus.symm.trans hfailed) (by decide)

theorem Found.unfinished (h : a.Found handle staging job s) : a.Unfinished handle staging s :=
  h.imp And.right fun ⟨message, _, _, h⟩ => ⟨message, h⟩

/-- A job that is reported failed has failed. -/
theorem Reported.failed_of (h : a.Reported handle staging s report)
    (hstatus : report.status = .failed) : ∃ message, a.Failed message s := by
  cases h with
  | polling hpolling _ => exact absurd (hpolling.symm.trans hstatus) (by decide)
  | completed n _ => cases hstatus
  | failed message _ _ _ h => exact ⟨message, h⟩

theorem Reported.unfinished (h : a.Reported handle staging s report)
    (hsettled : report.isSettled = false) : a.Unfinished handle staging s := by
  cases h with
  | polling _ h => exact .inl h
  | completed n _ => cases hsettled
  | failed message _ _ _ h => exact .inr ⟨message, h⟩

/-- What is reported of a job that has ended is an answer. -/
theorem Reported.answered {x : Depot} (h : a.Reported handle staging s report)
    (hsettled : report.isSettled = true) : a.Answered (.ofReport report) (s, x) := by
  cases h with
  | polling hpolling _ => simp [JobReport.isSettled, hpolling, JobStatus.isTerminal] at hsettled
  | completed n h => exact ⟨rfl, rfl, some handle, n.toNat, h, fun h => absurd h (Option.some_ne_none _)⟩
  | failed message hid hstatus herror h =>
    unfold Ingestion.ofReport
    rw [hstatus, herror, hid]
    exact ⟨rfl, h⟩

end Attempt

/-- Whatever is asked, unless a file is sent, what is remembered goes on to have a property. -/
def Surroundings.Retains (w : Surroundings σ) (L : σ → Prop) : Prop :=
  ∀ {β : Type} (e : Effect β) x b x', e.isSending = false → L x → w.allows e x b x' → L x'

section Waiting
variable {w : Surroundings σ} {L : σ → Prop} (hL : w.Retains L) {a : Attempt} {handle : String}
  {staging : Staging} {job : Job} (hjob : a.Reads job)

namespace Pipeline
include hL

section
include hjob

/-- The job waits until it is reported otherwise. -/
theorem follows_waiting (handle : String) (staging : Staging) :
    Follows (.alone w) (fun _ _ t => t.Keeps (a.Waiting handle staging)) job
    (fun m => a.Waiting handle staging m.1 ∧ L m.2)
    (fun report m => a.Reported handle staging m.1 report ∧ L m.2) fun _ => False where
  alive now timeoutAt s hs := by
    rw [hjob.id]
    exact wp_mono (hs.mark_wp (c := .alive timeoutAt) rfl now) (fun _ _ h => h) fun _ h => h.elim
  note kind step message trace now s hs := by
    rw [hjob.id]
    exact wp_mono (hs.note_wp kind step message trace now) (fun _ _ h => h) fun _ h => h.elim
  collects documentId hdocument := by
    unfold documentOf at hdocument
    rw [hjob.documentId] at hdocument
    obtain rfl : a.documentId = documentId := Except.ok.inj hdocument
    rw [hjob.id]
    exact Attempt.Waiting.collects a handle staging
  tended hf _ hm := (Run.Amid.leads_of_abides hf (Company.alone_stable _) (fun _ _ => trivial)
    (fun e _ b x he hm hx => ⟨trivial, hm.1, hL e _ b x he.2 hm.2 hx⟩)
    (fun ht s _ hs => wp_mono (ht s hs.1) (fun _ _ hs' => ⟨trivial, hs', hs.2⟩) fun _ _ => trivial)
    hm).mono fun _ _ h => h.2
  fails message detail now := by
    rw [hjob.id]
    exact .certain fun s _ hs => wp_mono
      (hs.1.failJob_wp hjob.id hjob.documentId message detail now)
      (fun _ _ hs' => ⟨.failed message rfl rfl rfl hs', hs.2⟩) fun _ h => h
  completes documentId hdocument collected cleanupFailed now := by
    unfold documentOf at hdocument
    rw [hjob.documentId] at hdocument
    obtain rfl : a.documentId = documentId := Except.ok.inj hdocument
    rw [hjob.id]
    exact .certain fun s _ hs => wp_mono (hs.1.completeJob_wp collected cleanupFailed now)
      (fun _ _ hs' => ⟨.completed collected.pageCount hs', hs.2⟩) fun _ h => h

/-- A check tells how the job stands; if it breaks off, the job waits or has failed. -/
theorem check_waiting (p : Pipeline) :
    (p.check job).Amid (.alone w) (fun m => a.Waiting handle staging m.1 ∧ L m.2)
      (fun report m => a.Reported handle staging m.1 report ∧ L m.2)
      fun _ m => a.Unfinished handle staging m.1 ∧ L m.2 := by
  have hfollows := follows_waiting hL hjob handle staging
  cases hhandle : job.operationHandle with
  | none =>
    refine (check_unaddressed hfollows p hhandle).conseq (fun _ hm => hm) (fun _ _ hm => ?_)
      fun _ _ hm => hm.elim
    obtain ⟨rfl, hm⟩ := hm
    exact hm
  | some operation =>
    have hasked : Run.Amid (ε := PipelineError) (.alone w)
        (fun m => a.Waiting handle staging m.1 ∧ L m.2)
        (fun _ m => a.Waiting handle staging m.1 ∧ L m.2) (fun _ _ => False)
        (Run.perform (.status operation)) :=
      .ask (Company.alone_stable _) rfl fun _ b x hm hx => ⟨trivial, hm.1, hL _ _ b x rfl hm.2 hx⟩
    refine (check_follows p hhandle hasked fun _ => hfollows).conseq (fun _ hm => hm)
      (fun report m hm => ?_) fun e m hm => ?_
    · obtain ⟨answer, hverdict⟩ := hm
      cases hverdict with
      | polling _ hm => exact ⟨.polling rfl hm.1, hm.2⟩
      | failed _ hm => exact hm
      | completed _ hm => exact hm
    · obtain ⟨answer, hverdict⟩ := hm
      cases hverdict with
      | undecided _ hm => exact ⟨.inl hm.1, hm.2⟩
      | broken _ _ hm => exact ⟨.inr (hm.1.failed_of rfl), hm.2⟩
      | refused hm => exact hm.elim

end

omit hL in
/-- A job that is found is the attempt's, and is read as its row shows it. -/
theorem find_unfinished {k : Job → Run PipelineError α} {Q : α → Moment σ → Prop}
    {E : PipelineError → Moment σ → Prop}
    (hk : ∀ job, a.Reads job → (k job).Amid (.alone w)
      (fun m => a.Found handle staging job m.1 ∧ L m.2) Q E) :
    (Run.widen (Ledger.find a.jobId) >>= k).Amid (.alone w)
      (fun m => a.Unfinished handle staging m.1 ∧ L m.2) Q E := by
  refine Run.Amid.bind (R := fun job m => a.Reads job ∧ a.Found handle staging job m.1 ∧ L m.2)
    (.widen (Ledger.find_amid (Company.alone_stable _) fun m hm => ?_)) fun job =>
      .given fun hjob => hk job hjob
  obtain ⟨hm | ⟨message, hm⟩, hx⟩ := hm
  · obtain ⟨r, job, hr, hread, hrow, hfind⟩ := Attempt.Stands.find_run hm
    refine wp_of_run hfind ⟨fun job' hjob' => ?_, fun h => nomatch h⟩
    obtain rfl := Option.some.inj hjob'
    exact ⟨hrow.reads hread, .inl ⟨(JobRow.shows_of_read hread).status.trans hr.1, hm⟩, hx⟩
  · obtain ⟨r, job, hr, hread, hrow, hfind⟩ := Attempt.Stands.find_run hm
    refine wp_of_run hfind ⟨fun job' hjob' => ?_, fun h => nomatch h⟩
    obtain rfl := Option.some.inj hjob'
    exact ⟨hrow.reads hread, .inr ⟨message, (JobRow.shows_of_read hread).status.trans hr.1,
      (JobRow.errorMessage_of_read hread).trans hr.2, hm⟩, hx⟩

omit hL in
/-- A job that has failed is told as it is stored. -/
theorem ofJob_failed (hjob : a.Reads job) {E : PipelineError → Moment σ → Prop}
    (hstatus : job.status ≠ .polling) :
    (Run.ofExcept (JobReport.ofJob job) : Run PipelineError JobReport).Amid (.alone w)
      (fun m => a.Found handle staging job m.1 ∧ L m.2)
      (fun report m => report.isSettled = true ∧ a.Reported handle staging m.1 report ∧ L m.2) E := by
  unfold JobReport.ofJob
  rw [hjob.kind]
  refine .pure fun m hm => ?_
  obtain ⟨⟨hpolling, -⟩ | ⟨message, hfailed, herror, hm⟩, hx⟩ := hm
  · exact absurd hpolling hstatus
  · exact ⟨by simp [JobReport.isSettled, hfailed, JobStatus.isTerminal],
      .failed message hjob.id hfailed herror hm, hx⟩

variable (p : Pipeline) {E : PipelineError → Moment σ → Prop}

theorem giveUp_waiting :
    (p.giveUp a.jobId).Amid (.alone w) (fun m => a.Unfinished handle staging m.1 ∧ L m.2)
      (fun report m => report.isSettled = true ∧ a.Reported handle staging m.1 report ∧ L m.2)
      E := by
  refine find_unfinished fun job hjob => ?_
  split
  case isTrue hstatus => exact ofJob_failed hjob (by simpa using hstatus)
  case isFalse hstatus =>
    have hpolling : job.status = .polling := by simpa using hstatus
    refine (fail_follows (follows_waiting hL hjob _ _) _ none).conseq
      (fun m hm => ⟨hm.1.waiting hpolling, hm.2⟩) (fun report m hm => ?_) fun _ _ hm => hm.elim
    obtain ⟨rfl, hm⟩ := hm
    exact ⟨rfl, hm⟩

/-- However many checks are left, waiting ends with a job that has ended. -/
theorem waitFor_waiting (left : Nat) :
    (p.waitFor a.jobId left).Amid (.alone w) (fun m => a.Unfinished handle staging m.1 ∧ L m.2)
      (fun report m => report.isSettled = true ∧ a.Reported handle staging m.1 report ∧ L m.2)
      E := by
  induction left with
  | zero => exact giveUp_waiting hL p
  | succ left ih =>
    have hagain : (p.again a.jobId left).Amid (.alone w)
        (fun m => a.Unfinished handle staging m.1 ∧ L m.2)
        (fun report m => report.isSettled = true ∧ a.Reported handle staging m.1 report ∧ L m.2)
        E := by
      unfold again
      split
      · exact Run.Amid.bind (R := fun _ m => a.Unfinished handle staging m.1 ∧ L m.2)
          (.ask (Company.alone_stable _) rfl fun _ b x hm hx =>
            ⟨trivial, hm.1, hL _ _ b x rfl hm.2 hx⟩) fun _ => ih
      · exact Run.Amid.bind (R := fun _ m => a.Unfinished handle staging m.1 ∧ L m.2)
          (.pure (a := ()) fun _ hm => hm) fun _ => ih
    rw [waitFor_succ]
    refine find_unfinished fun job hjob => ?_
    split
    case isTrue hstatus => exact ofJob_failed hjob (by simpa using hstatus)
    case isFalse hstatus =>
      have hpolling : job.status = .polling := by simpa using hstatus
      refine Run.Amid.bind (R := Either
        (fun report m => a.Reported handle staging m.1 report ∧ L m.2)
        fun _ m => a.Unfinished handle staging m.1 ∧ L m.2)
        (.outcome ((check_waiting hL hjob p).pre fun m hm => ⟨hm.1.waiting hpolling, hm.2⟩))
        fun o => ?_
      cases o with
      | error e => exact hagain
      | ok report =>
        dsimp only
        split
        case isTrue hsettled => exact .pure fun m hm => ⟨hsettled, hm⟩
        case isFalse hunsettled =>
          exact hagain.pre fun m hm => ⟨hm.1.unfinished (Bool.not_eq_true _ ▸ hunsettled), hm.2⟩

/-- A wait reports an end, and sends no file. -/
theorem wait_waiting (hdiscipline : p.settings.polling.discipline .documentExtract = .inProcess) :
    (p.wait a.jobId).Amid (.alone w) (fun m => a.Waiting handle staging m.1 ∧ L m.2)
      (fun report m => report.isSettled = true ∧ a.Reported handle staging m.1 report ∧ L m.2)
      E := by
  refine (find_unfinished fun job hjob => ?_).pre (fun _ hm => ⟨.inl hm.1, hm.2⟩)
  rw [hjob.kind]
  refine .ofExcept_bind (fun _ _ h => nomatch h) fun jobType hkind => ?_
  obtain rfl := Except.ok.inj hkind
  rw [hdiscipline]
  exact (p.waitFor_waiting hL p.attempts).pre fun m hm => ⟨hm.1.unfinished, hm.2⟩

end Pipeline
end Waiting

/-! ### In the background -/

section Background
variable {a : Attempt} {x : Depot}

namespace Pipeline

/-- An operation that is not started leaves no copy. -/
theorem submit_staged {written : ObjectStore} {s : Staging}
    (hfree : x.objects.contains s.inputKey = false) {body : ByteStream} {contentType : String}
    (hput : x.objects.put s.inputKey body contentType = .ok written) :
    (submit s).Amid Depot.alone
      (fun m => a.Extracting m.1 ∧ m.2 = { x with objects := written })
      (fun handle m => a.Extracting m.1 ∧ m.2 = ⟨written, some handle⟩) (a.Stuck x) := by
  refine Run.Amid.bind (R := fun o m => a.Extracting m.1 ∧ Either
    (fun handle m => m.2 = ⟨written, some handle⟩) (fun _ m => m.2 = { x with objects := written }) o m)
    (.ask (Company.alone_stable _) rfl fun m o x' hm ho => ⟨trivial, hm.1, ?_⟩) fun o => ?_
  · cases o with
    | ok handle =>
      have hx' : x' = { m.2 with handle := some handle } := ho
      show x' = _
      rw [hx', hm.2]
    | error e => exact (show x' = m.2 from ho).trans hm.2
  · cases o with
    | ok handle => exact .pure fun _ hm => hm
    | error e =>
      refine Run.Amid.bind (R := fun _ => a.Here x)
        (.ask (Company.alone_stable _) rfl fun m o x' hm ho => ⟨trivial, hm.1, ?_⟩) fun _ =>
          .throw fun _ hm => ⟨PipelineError.ofOcr_isRefusal e, hm⟩
      have hx' : x' = { m.2 with objects := m.2.objects.delete s.inputKey } := ho.2
      rw [hx', show m.2 = { x with objects := written } from hm.2]
      dsimp only
      rw [ObjectStore.delete_put hfree hput]

variable (p : Pipeline) {document : Document}

theorem dispatch_here (r : Upload.Reference) (mime : String) :
    (p.dispatch document a.jobId r mime).Amid Depot.alone (a.Here x) a.Answered (a.Stuck x) := by
  refine (Run.Amid.clock_alone Depot.ignores_clock).bind fun now => ?_
  dsimp only
  generalize Staging.plan p.bucket document.ownerId document.id now (copyExtension document) mime =
    staging
  refine (Ledger.updateProgress_here Depot.ignores_clock 0 1 "staging").widen.bind fun _ => ?_
  refine (request_here (e := .openUpload r) rfl (fun _ _ _ h => h)
    PipelineError.ofStorage_isRefusal).bind fun body => ?_
  -- The copy is written as a whole, under a key that was not in use, or not at all.
  refine Run.Amid.bind (R := fun _ m => ∃ written, (x.objects.contains staging.inputKey = false ∧
    x.objects.put staging.inputKey body mime = .ok written) ∧
      a.Extracting m.1 ∧ m.2 = { x with objects := written })
    (.demand (Company.alone_stable _) rfl fun m o x' hm ho => ⟨trivial, ?_⟩) fun _ => ?_
  · obtain ⟨hextracting, rfl⟩ := hm
    rcases ho with ⟨e, rfl, rfl⟩ | ⟨rfl, hfree, written, hput, rfl⟩
    · exact ⟨PipelineError.ofStorage_isRefusal e, hextracting, rfl⟩
    · exact ⟨written, ⟨hfree, hput⟩, hextracting, rfl⟩
  refine .of_exists fun written => .given fun ⟨hfree, hput⟩ => ?_
  refine (submit_staged hfree hput).bind fun handle => ?_
  have hcopy : written.contains staging.inputKey = true := ObjectStore.contains_put hput
  -- From here on nothing fails: the answer is that of the operation.
  refine (p.ledger.markPolling_here Depot.ignores_clock handle staging).widen.bind fun _ => ?_
  refine (Ledger.addEvent_left Depot.ignores_clock _ _ _ _).widen.bind fun _ => ?_
  split
  · refine .pure fun m hm => ⟨rfl, handle, staging, ?_, hm.1, ?_⟩
    · rw [hm.2]
    · rw [hm.2]
      exact hcopy
  case h_2 hdiscipline =>
    have hanything : Depot.surroundings.Retains fun _ => True := fun _ _ _ _ _ _ _ => trivial
    exact ((p.wait_waiting hanything hdiscipline).pre fun _ hm => ⟨hm.1, trivial⟩).bind fun report =>
      .pure fun _ hm => hm.2.1.answered hm.1

variable (hdocument : document.id = a.documentId)
include hdocument

theorem recognizeNow_here (r : Upload.Reference) (mime : String) :
    (p.recognizeNow document a.jobId r mime).Amid Depot.alone (a.Here x) a.Answered
      (a.Stuck x) := by
  refine (Ledger.updateProgress_here Depot.ignores_clock 0 1 "ocr").widen.bind fun _ => ?_
  refine (readUpload_here r _).bind fun content => ?_
  refine (request_here (e := .recognize content mime) rfl (fun _ _ _ h => h)
    PipelineError.ofOcr_isRefusal).bind fun text => ?_
  exact finish_here hdocument (NewPage.inTurn_single rfl) "ocr_sync"

theorem recognize_here (fileType : FileType) (r : Upload.Reference) :
    (p.recognize document a.jobId fileType r).Amid Depot.alone (a.Here x) a.Answered
      (a.Stuck x) := by
  unfold recognize
  dsimp only
  split
  · exact p.dispatch_here r _
  · exact p.recognizeNow_here hdocument r _

omit hdocument in
theorem ownText_here (r : Upload.Reference) :
    (p.ownText a.jobId r).Amid Depot.alone (a.Here x) (fun _ => a.Here x) (a.Stuck x) := by
  refine (readUpload_here r _).bind fun content => ?_
  refine (Run.Amid.ask_alone (e := .extract content) rfl fun _ _ _ h => h).bind fun o => ?_
  cases o with
  | error e =>
    exact (Ledger.addEvent_here Depot.ignores_clock _ _ _ _).widen.bind fun _ => .pure fun _ hm => hm
  | ok pages =>
    dsimp only
    split
    · exact .pure fun _ hm => hm
    · exact (Ledger.addEvent_here Depot.ignores_clock _ _ _ _).widen.bind fun _ => .pure fun _ hm => hm

/-- Taking the text ends as the answer tells, or nothing has come of it. -/
theorem extract_here :
    (p.extract document a.jobId).Amid Depot.alone (a.Here x) a.Answered (a.Stuck x) := by
  refine .ofExcept_bind (fun e _ _ hm => ⟨PipelineError.ofProcess_isRefusal e, hm⟩)
    fun fileType _ => ?_
  refine (request_here (e := .reference document.storagePath p.settings.referenceTtl) rfl (fun _ _ _ h => h)
    PipelineError.ofStorage_isRefusal).bind fun r => ?_
  split
  · refine (Ledger.updateProgress_here Depot.ignores_clock 0 1 "native_extraction").widen.bind fun _ => ?_
    refine (p.ownText_here r).bind fun found => ?_
    cases found with
    | some texts => exact finish_here hdocument (ownPages_inTurn texts) "native"
    | none => exact p.recognize_here hdocument fileType r
  · exact p.recognize_here hdocument fileType r

/-- What has come of nothing is recorded. -/
theorem goOn_here :
    (p.goOn document a.jobId).Amid Depot.alone (a.Here x) a.Answered
      fun e m => e.isRefusal = false ∧ a.Recorded e m.1 ∧ m.2 = x := by
  refine (Ledger.markRunning_here Depot.ignores_clock).widen.bind fun _ => ?_
  refine Run.Amid.bind (R := Either a.Answered (a.Stuck x)) (p.extract_here hdocument).outcome
    fun o => ?_
  cases o with
  | ok answer => exact .pure fun _ hm => hm
  | error e =>
    refine .given fun hrefusal => (conclude_here Depot.ignores_clock hdocument e).conseq
      (fun _ hm => hm) (fun _ _ hm => hm) fun _ _ hm => ?_
    obtain ⟨rfl, hm⟩ := hm
    exact ⟨hrefusal, hm⟩

end Pipeline
end Background

/-! ### The whole -/

/-- An attempt that an owner makes on a document. -/
structure Attempt.IsOf (a : Attempt) (s : Store) (documentId ownerId : String) : Prop where
  before : a.before = s
  documentId : a.documentId = documentId
  ownerId : a.ownerId = ownerId

/-- The document that an id names. -/
def Store.Names (s : Store) (documentId : String) (document : Document) : Prop :=
  ∃ r ∈ s.documents, r.id = documentId ∧ r.read = .ok document

/-- The lock is taken and an attempt begins, or nothing happens. -/
theorem Pipeline.ingest_here (p : Pipeline) {documentId ownerId : String} {s : Store}
    (hs : s.Sound) {w : Surroundings σ} (hclock : w.Ignores .clock) (hid : w.Ignores .freshId)
    (x : σ) {Q : Ingestion → Moment σ → Prop} {E : PipelineError → Moment σ → Prop}
    (hrefused : ∀ e, (e.isRefusal = true ∨ ∃ fault, e = .internal (.store fault)) → E e (s, x))
    (hgoOn : ∀ a document, Attempt.IsOf a s documentId ownerId → s.Names documentId document →
      document.id = a.documentId → (p.goOn document a.jobId).Amid (.alone w) (a.Here x) Q E) :
    (p.ingest documentId ownerId).Amid (.alone w) (fun m => m = (s, x)) Q E := by
  rw [ingest_eq]
  refine (Run.Amid.ask_alone (e := .freshId) rfl hid).bind fun id => ?_
  refine (Run.Amid.clock_alone hclock).bind fun now => ?_
  refine Run.Amid.bind (R := fun locked m => ∃ a : Attempt, (a.IsOf s documentId ownerId ∧
    s.Names documentId locked.1 ∧ locked.1.id = a.documentId ∧ locked.2.id = a.jobId) ∧ a.Here x m)
    (.transact (Company.alone_stable _) fun s' x' hm => ?_) fun locked => ?_
  · obtain ⟨rfl, rfl⟩ := Prod.mk.inj hm
    refine wp_mono (Attempt.lockDocument_wp hs documentId ownerId id now p.ledger.heartbeat)
      (fun locked s' h => ⟨trivial, ?_⟩) hrefused
    obtain ⟨a, hbefore, hdoc, howner, ⟨r, hr, hrow, hread⟩, hjob, hextracting⟩ := h
    have hlocked := (DocumentRow.shows_of_read hread).id.trans (hrow.trans hdoc.symm)
    exact ⟨a, ⟨⟨hbefore, hdoc, howner⟩, ⟨r, hr, hrow, hread⟩, hlocked, hjob⟩, hextracting, rfl⟩
  · refine .of_exists fun a => .given fun ⟨hof, hnames, hlocked, hjob⟩ => ?_
    dsimp only
    rw [hjob]
    exact hgoOn a locked.1 hof hnames hlocked

theorem Pipeline.ingest_alone (p : Pipeline) (documentId ownerId : String) {s : Store}
    (hs : s.Sound) (x : Depot) :
    (p.ingest documentId ownerId).Amid Depot.alone (fun m => m = (s, x))
      (fun answer m => ∃ a : Attempt, a.IsOf s documentId ownerId ∧ a.Answered answer m)
      fun e m => (m = (s, x) ∧ (e.isRefusal = true ∨ ∃ fault, e = .internal (.store fault))) ∨
        (e.isRefusal = false ∧ ∃ a : Attempt, a.IsOf s documentId ownerId ∧ a.Recorded e m.1 ∧
          m.2 = x) :=
  p.ingest_here hs Depot.ignores_clock (fun _ _ _ h => h) x (fun _ he => .inl ⟨rfl, he⟩)
    fun a _ hof _ hdocument => (p.goOn_here hdocument).conseq (fun _ h => h)
      (fun _ _ h => ⟨a, hof, h⟩) fun _ _ h => .inr ⟨h.1, a, hof, h.2⟩

/-- Every ingestion that nobody else disturbs comes to an end, and what it answers is what it
leaves. If it is refused, nothing has happened. If it fails later, there is one more job, which has
failed with the message for the caller; the document has failed and has no pages, the full text is
with an event, the objects are as they were, and the document can be locked again. Else the job and
the document are as the answer tells: completed, with pages that are numbered from one unless they
come from an operation; polled, with the handle that was given out, on a copy that is there; or
failed. -/
theorem ingest_leaves_what_it_answers (p : Pipeline) (documentId ownerId : String) {s : Store}
    (hs : s.Sound) (x : Depot) :
    (∃ o m, Depot.surroundings.Runs (p.ingest documentId ownerId).run (s, x) o m) ∧
    ∀ o m, Depot.surroundings.Runs (p.ingest documentId ownerId).run (s, x) o m →
      match o with
      | .error e =>
        (m = (s, x) ∧ (e.isRefusal = true ∨ ∃ fault, e = .internal (.store fault))) ∨
        (e.isRefusal = false ∧ ∃ a : Attempt, a.IsOf s documentId ownerId ∧ a.Recorded e m.1 ∧
          m.2 = x ∧ ∀ jobId now heartbeat, m.1.hasJob jobId = false → ∃ locked s',
            (Pipeline.lockDocument documentId ownerId jobId now heartbeat).run m.1 =
              (.ok locked, s'))
      | .ok answer => ∃ a : Attempt, a.IsOf s documentId ownerId ∧ a.Answered answer m := by
  refine ⟨Depot.live.runs _ _, fun o m hruns => ?_⟩
  have hends := Company.ends_of_runs (c := Depot.alone) (fun _ => rfl)
    (Run.Amid.iff_leads.mp (p.ingest_alone documentId ownerId hs x) _ rfl) hruns
  cases o with
  | ok answer => exact hends
  | error e =>
    refine Or.imp_right (fun ⟨hrefusal, a, hof, hrecorded, hx⟩ => ⟨hrefusal, a, hof, hrecorded, hx,
      fun jobId now heartbeat hnew => ?_⟩) hends
    have hlock := (wp_iff_run _).mp (hrecorded.failed.lock hnew now heartbeat)
    rw [hof.documentId, hof.ownerId] at hlock
    cases hrun : (Pipeline.lockDocument documentId ownerId jobId now heartbeat).run m.1 with
    | mk o s' =>
      cases o with
      | ok locked => exact ⟨locked, s', rfl⟩
      | error e => exact (hlock.2 e (by rw [hrun])).elim

/-- A file of one page is recognized at once: its page is numbered one. -/
theorem ingest_leaves_one_page :
    let x : Depot := ⟨.empty "b", none⟩
    Depot.surroundings.Runs (Attended.pipeline.ingest "d" "o").run (registeredStore, x)
      (.ok (.completed "j" true)) (Attended.draft, x) ∧ Attended.draft.NumberedTo "d" 1 := by
  intro x
  have hruns : Depot.surroundings.Runs (Attended.pipeline.ingest "d" "o").run (registeredStore, x)
      (.ok (.completed "j" true)) (Attended.draft, x) :=
    ⟨"j", (registeredStore, x), ⟨rfl, rfl⟩,
      Background.start, (registeredStore, x), ⟨rfl, rfl⟩,
      _, (Background.locked, x), ⟨rfl, rfl⟩,
      Background.start, (Background.locked, x), ⟨rfl, rfl⟩,
      _, (Background.running, x), ⟨rfl, rfl⟩,
      .ok ⟨"u", 1, Background.start⟩, (Background.running, x), ⟨rfl, rfl⟩,
      Background.start, (Background.running, x), ⟨rfl, rfl⟩,
      _, (Attended.progressed, x), ⟨rfl, rfl⟩, .ok [], (Attended.progressed, x), ⟨rfl, rfl⟩,
      .ok "a", (Attended.progressed, x), ⟨rfl, rfl⟩,
      Background.start, (Attended.progressed, x), ⟨rfl, rfl⟩,
      _, (Attended.draft, x), ⟨rfl, rfl⟩, rfl, rfl⟩
  refine ⟨hruns, ?_⟩
  obtain ⟨a, hof, -, -, handle, n, hcompleted, hnumbered⟩ :=
    (ingest_leaves_what_it_answers Attended.pipeline "d" "o"
      Background.registered_quiet.reachable.sound x).2 _ _ hruns
  have hhandles : Attended.draft.jobs.map (·.operationHandle) = [none] := rfl
  have hcounts : Attended.draft.documents.map (·.pageCount) = [.ofNat 1] := rfl
  obtain ⟨row, hjobs, -, -, hhandle⟩ := hcompleted.job
  obtain ⟨r, hr, -, -, hcount⟩ := hcompleted.document
  have hnone : handle = none := by
    rw [hjobs, hof.before, show registeredStore.jobs = [] from rfl] at hhandles
    exact hhandle.symm.trans (List.singleton_inj.mp hhandles)
  have hone : r.pageCount ∈ [Cell.ofNat 1] := hcounts ▸ List.mem_map_of_mem hr
  rw [List.mem_singleton, hcount] at hone
  obtain rfl : n = 1 := Int.ofNat.inj (Cell.integer.inj hone)
  exact hof.documentId ▸ hnumbered hnone

end Quire
