import Quire.Proofs.Object.Changing
import Quire.Proofs.Object.Depot
import Quire.Proofs.Pipeline.Overlapping
import Quire.Proofs.Pipeline.Reports

/-! What a poll leaves of the files of an operation.

A poll that completes a job asks for every file of its operation to be deleted, whatever becomes of
the others: of those that it asked for, the ones are gone whose deletion succeeded. The job tells
whether any is left, and so does a warning with the last failure. Nothing comes back to such files:
a poll of a job that is completed already only tells it as it is stored. -/
namespace Quire
open Txn

/-! ### What a job's history is given -/

/-- What an event of a job tells, apart from when. -/
structure Notice where
  jobId : String
  kind : EventKind
  step : Option String
  message : String
  trace : Option String
  deriving DecidableEq

def EventRow.notice (e : EventRow) : Notice := ⟨e.jobId, e.kind, e.step, e.message, e.trace⟩

namespace Notice

/-- Some files of an operation are left. -/
def leftover (jobId : String) (e : StorageError) : Notice :=
  ⟨jobId, .warning, some "cleanup",
    "Temporary OCR files were not fully deleted: " ++ Failure.message e, some (Failure.trace e)⟩

def complete (jobId : String) (c : Collected) : Notice :=
  ⟨jobId, .info, some "complete", s!"Extracted {c.pageCount.toNat} pages", none⟩

end Notice

/-- Nothing but some events has been added to the history, in their order. -/
def Store.Notes (s : Store) (notices : List Notice) (s' : Store) : Prop :=
  ∃ added, s'.events = s.events ++ added ∧ added.map EventRow.notice = notices

section Notes
variable {s₀ s : Store} {notices : List Notice} {jobId : String}

theorem Store.Notes.refl (s : Store) : s.Notes [] s := ⟨[], by simp, rfl⟩

theorem Jobs.insertEvent_notes (h : s₀.Notes notices s) (kind : EventKind) (step : Option String)
    (message : String) (trace : Option String) (now : String) :
    (insertEvent jobId kind step message trace now).wp
      (fun _ s' => s₀.Notes (notices ++ [⟨jobId, kind, step, message, trace⟩]) s')
      (fun _ => True) s := by
  obtain ⟨added, hevents, hadded⟩ := h
  unfold insertEvent
  simp only [wp_bind, wp_store, wp_require, wp_modify]
  refine ⟨fun _ => ?_, fun _ => trivial⟩
  let event : EventRow := ⟨lastEventId s + 1, jobId, kind, step, message, trace, now⟩
  refine ⟨added ++ [event], ?_, ?_⟩
  · rw [← List.append_assoc, ← hevents]
  · rw [List.map_append, hadded]
    rfl

/-- A job is completed with one event. -/
theorem Pipeline.completeJob_notes (h : s₀.Notes notices s) (documentId : String) (c : Collected)
    (cleanupFailed : Bool) (now : String) :
    (completeJob jobId documentId c cleanupFailed now).wp
      (fun _ s' => s₀.Notes (notices ++ [.complete jobId c]) s') (fun _ => True) s := by
  have hdraft : (Documents.markDraft documentId c.pageCount now).Keeps (s₀.Notes notices) :=
    Documents.changeFrom_frame (fun _ _ h => h) _ _ _
  have hcompleted : (guarded jobId
      (Jobs.markCompleted jobId (some (summary c cleanupFailed)) now)).Keeps (s₀.Notes notices) :=
    guarded_keeps (Jobs.statement_frame (fun _ _ h => h) jobId now (.completed _)) jobId
  unfold completeJob
  simp only [wp_bind, wp_widen]
  refine wp_mono (hdraft s h) (fun _ s₁ h₁ => ?_) fun _ _ => trivial
  simp only [wp_bind, wp_widen, wp_require]
  refine ⟨fun _ => ?_, fun _ => trivial⟩
  refine wp_mono (hcompleted s₁ h₁) (fun _ s₂ h₂ => (wp_widen _).mpr ?_) fun _ _ => trivial
  exact Jobs.insertEvent_notes h₂ _ _ _ _ _

/-- Collecting what an operation has left adds nothing to the history. -/
theorem Collects.notes (s₀ : Store) (jobId documentId : String) :
    Collects (fun _ _ t => t.Keeps fun s => s.Sound ∧ s₀.Notes [] s) jobId documentId where
  progress now done total percent step := by
    have hsound := Store.Sound.unharmed.toSpared.keeps (.progress jobId now done total percent step)
    have hnotes : (guarded jobId (Jobs.updateProgress jobId done total percent step now)).Keeps
        (s₀.Notes []) :=
      guarded_keeps (Jobs.statement_frame (fun _ _ h => h) jobId now
        (.progressed done total percent step)) jobId
    exact hsound.and hnotes
  storePages now pages := by
    have hnotes : (Pages.upsertAll documentId now pages).Keeps (s₀.Notes []) :=
      Pages.upsertAll_keeps (Pages.upsert_frame (fun _ _ _ h => h) documentId) now pages
    exact (Pages.upsertAll_aside documentId now pages).sound.and hnotes
  listPages := (Pages.list_readOnly documentId).keeps _

end Notes

/-! ### Objects that may stay when they are deleted -/

/-- Objects that are kept for a while, and how each deletion was answered. -/
structure Yard where
  objects : ObjectStore
  deletes : List (String × Except StorageError Unit)

namespace Yard

/-- Nothing has been deleted yet. -/
def untouched (o : ObjectStore) : Yard := ⟨o, []⟩

/-- The keys whose deletion succeeded. -/
def gone (y : Yard) : List String := (y.deletes.filter fun d => d.2.isOk).map Prod.fst

/-- The failures in their order. -/
def failures (y : Yard) : List StorageError :=
  y.deletes.filterMap fun d => match d.2 with
    | .ok _ => none
    | .error e => some e

/-- What is told of failures: the last of them. -/
def warnings (jobId : String) (y : Yard) : List Notice :=
  (y.failures.getLast?.map (Notice.leftover jobId)).toList

/-- A deletion is answered. If it fails, the object stays. -/
def deleted (y : Yard) (key : String) (answer : Except StorageError Unit) : Yard where
  objects := match answer with
    | .ok _ => y.objects.delete key
    | .error _ => y.objects
  deletes := y.deletes ++ [(key, answer)]

/-- Any question about objects may fail, and then nothing has happened to them. If it does not, it
is answered from what is there. Everything else may be answered by anything. -/
def surroundings : Surroundings Yard where
  allows
    | .delete key, y, answer, y' => y' = y.deleted key answer
    | .put key body contentType, y, answer, y' =>
      (∃ e, answer = .error e ∧ y' = y) ∨
        (answer = .ok () ∧ ∃ written, y.objects.put key body contentType = .ok written ∧
          y' = { y with objects := written })
    | .list start, y, answer, y' =>
      (∀ found, answer = .ok found → found.Perm (y.objects.list start)) ∧ y' = y
    | .get key, y, answer, y' =>
      (∀ bytes, answer = .ok bytes → y.objects.get key = .ok bytes) ∧ y' = y
    | _, y, _, y' => y' = y

/-- Deletions were asked for, and what is left of some objects is what they left. -/
structure Tried (o : ObjectStore) (keys : List String) (y : Yard) : Prop where
  asked : y.deletes.map Prod.fst = keys
  left : y.objects = o.without y.gone

theorem Tried.untouched (o : ObjectStore) : (untouched o).Tried o [] :=
  ⟨rfl, (ObjectStore.without_nil o).symm⟩

variable {o : ObjectStore} {keys : List String} {y : Yard}

theorem Tried.deleted (h : y.Tried o keys) (key : String) (answer : Except StorageError Unit) :
    (y.deleted key answer).Tried o (keys ++ [key]) := by
  refine ⟨?_, ?_⟩
  · unfold Yard.deleted
    rw [List.map_append, h.asked]
    rfl
  · cases answer with
    | ok _ =>
      show y.objects.delete key = _
      rw [h.left, ObjectStore.delete_without]
      refine ObjectStore.without_congr o fun k => ?_
      simp [gone, Yard.deleted, Except.isOk, Except.toBool, or_comm]
    | error e =>
      show y.objects = _
      rw [h.left]
      congr 1
      simp [gone, Yard.deleted, Except.isOk, Except.toBool]

/-- The last failure is that of the last deletion that failed. -/
theorem getLast?_failures_deleted (key : String) (answer : Except StorageError Unit) :
    (y.deleted key answer).failures.getLast? = match answer with
      | .ok _ => y.failures.getLast?
      | .error e => some e := by
  cases answer with
  | ok _ => simp [failures, Yard.deleted]
  | error e => simp [failures, Yard.deleted]

/-- There is a failure if and only if a deletion failed. -/
theorem failures_ne_nil_iff : y.failures ≠ [] ↔ ∃ key e, (key, Except.error e) ∈ y.deletes := by
  unfold failures
  rw [Ne, List.filterMap_eq_nil_iff]
  constructor
  · intro h
    push Not at h
    obtain ⟨⟨key, answer⟩, hmem, hfailed⟩ := h
    cases answer with
    | ok _ => exact absurd rfl hfailed
    | error e => exact ⟨key, e, hmem⟩
  · rintro ⟨key, e, hmem⟩ h
    exact absurd (h _ hmem) (Option.some_ne_none e)

end Yard

/-! ### Deleting -/

namespace Pipeline
open Yard (surroundings)
variable {P : Store → Prop} {o : ObjectStore} {s₀ : Store} {jobId documentId : String}

/-- Every object is asked to be deleted, whatever was answered before, and the last failure is
told. -/
theorem deleteObjects_tries {E : PipelineError → Moment Yard → Prop} (last : Option StorageError)
    (asked keys : List String) :
    (deleteObjects last keys).Amid (.alone surroundings)
      (fun m => P m.1 ∧ m.2.Tried o asked ∧ m.2.failures.getLast? = last)
      (fun last m => P m.1 ∧ m.2.Tried o (asked ++ keys) ∧ m.2.failures.getLast? = last) E := by
  induction keys generalizing last asked with
  | nil => exact .pure fun m hm => by rwa [List.append_nil]
  | cons key rest ih =>
    refine Run.Amid.bind (R := fun answer m => P m.1 ∧ m.2.Tried o (asked ++ [key]) ∧
      m.2.failures.getLast? = match answer with
        | .ok _ => last
        | .error e => some e)
      (.ask (Company.alone_stable _) rfl fun m answer y hm hanswer => ⟨trivial, ?_⟩)
      fun answer => ?_
    · obtain ⟨hstore, htried, hlast⟩ := hm
      obtain rfl : y = m.2.deleted key answer := hanswer
      refine ⟨hstore, htried.deleted key answer, ?_⟩
      rw [Yard.getLast?_failures_deleted, hlast]
    · rw [List.append_cons asked key rest]
      cases answer with
      | ok _ => exact ih last (asked ++ [key])
      | error e => exact ih (some e) (asked ++ [key])

/-- Nothing has been noted yet, and no file was touched. -/
abbrev Untidied (s₀ : Store) (o : ObjectStore) (m : Moment Yard) : Prop :=
  (m.1.Sound ∧ s₀.Notes [] m.1) ∧ m.2 = .untouched o

/-- Files that could not be deleted are told once, with the last failure. -/
theorem deleteFiles_tries (keys : List String) :
    (deleteFiles jobId keys).Amid (.alone surroundings) (Untidied s₀ o)
      (fun cleanupFailed m => (m.1.Sound ∧ s₀.Notes (m.2.warnings jobId) m.1) ∧ m.2.Tried o keys ∧
        cleanupFailed = ! m.2.failures.isEmpty) fun _ _ => True := by
  have hdelete := deleteObjects_tries (P := fun s => s.Sound ∧ s₀.Notes [] s) (o := o)
    (E := fun _ _ => True) none [] keys
  refine (hdelete.pre fun m hm => ?_).bind fun last => ?_
  · obtain ⟨hs, hyard⟩ := hm
    rw [hyard]
    exact ⟨hs, .untouched o, rfl⟩
  · cases last with
    | none =>
      refine .pure fun m hm => ?_
      obtain ⟨⟨hsound, hnotes⟩, htried, hlast⟩ := hm
      have hnone : m.2.failures = [] := List.getLast?_eq_none_iff.mp hlast
      refine ⟨⟨hsound, ?_⟩, htried, by rw [hnone]; rfl⟩
      rwa [Yard.warnings, hlast]
    | some e =>
      refine Run.Amid.bind (R := fun _ m => (m.1.Sound ∧ s₀.Notes [.leftover jobId e] m.1) ∧
        m.2.Tried o keys ∧ m.2.failures.getLast? = some e) (.widen ?_) fun _ => .pure fun m hm => ?_
      · refine (Run.Amid.ask_alone (e := .clock) rfl fun _ _ _ h => h).bind fun now => ?_
        refine .transact (Company.alone_stable _) fun s y hs => ?_
        obtain ⟨⟨hsound, hnotes⟩, htried⟩ := hs
        exact wp_mono (wp_and ((Jobs.insertEvent_aside _ _ _ _ _ _).sound s hsound)
          (Jobs.insertEvent_notes hnotes _ _ _ _ _)) (fun _ s' hs' => ⟨trivial, hs', htried⟩)
          fun _ _ => trivial
      · obtain ⟨⟨hsound, hnotes⟩, htried, hlast⟩ := hm
        have hsome : m.2.failures ≠ [] := fun hnone => by rw [hnone] at hlast; cases hlast
        refine ⟨⟨hsound, ?_⟩, htried, by simpa using hsome⟩
        rwa [Yard.warnings, hlast]

/-- While results are collected, no file is touched. -/
theorem gather_spares (p : Pipeline) (keys : List String) :
    (p.gather jobId documentId keys).Amid (.alone surroundings) (Untidied s₀ o)
      (fun _ => Untidied s₀ o) fun _ _ => True := by
  have htends : (Dialogue.unnoticed surroundings fun s => s.Sound ∧ s₀.Notes [] s).Tends :=
    ⟨fun _ _ _ h => h, fun _ _ _ _ _ _ h => h, fun _ _ _ _ _ h => h⟩
  have hgather : (p.gather jobId documentId keys).Abides
      (.unnoticed surroundings fun s => s.Sound ∧ s₀.Notes [] s) fun _ => True :=
    p.gather_abides htends (.notes s₀ jobId documentId) fun _ _ _ _ _ h => h.2
  exact (Run.Amid.of_unnoticed hgather (.untouched o)).conseq (fun _ hm => hm) (fun _ _ hm => hm.2)
    fun _ _ _ => trivial

/-! ### Completing a job -/

/-- What a poll that completes a job has made of the files of the operation, of the job and of the
history. -/
structure Tidied (s₀ : Store) (o : ObjectStore) (jobId : String) (staging : Staging) (c : Collected)
    (m : Moment Yard) : Prop where
  /-- The input and every shard that was found were to be deleted. -/
  files : ∃ found : List String, found.Perm (o.list staging.outputFolder) ∧
    m.2.Tried o (staging.inputKey :: found.filter Ocr.Shard.isShardKey)
  /-- The job tells whether any of them is left. -/
  job : ∃ cleanupFailed, (cleanupFailed = true ↔ ∃ key e, (key, .error e) ∈ m.2.deletes) ∧
    ∃ r ∈ m.1.jobs, r.id = jobId ∧ r.status = .completed ∧
      r.result = some (.value (summary c cleanupFailed))
  /-- So does a warning. -/
  history : s₀.Notes (m.2.warnings jobId ++ [.complete jobId c]) m.1

theorem close_tidies {staging : Staging} {found : List String}
    (hfound : found.Perm (o.list staging.outputFolder)) (c : Collected) :
    (close jobId documentId staging.inputKey (found.filter Ocr.Shard.isShardKey) c).Amid
      (.alone surroundings) (Untidied s₀ o)
      (fun report m => report = .completed jobId c.pageCount ∧ Tidied s₀ o jobId staging c m)
      fun _ _ => True := by
  refine (deleteFiles_tries _).bind fun cleanupFailed => ?_
  refine (Run.Amid.ask_alone (e := .clock) rfl fun _ _ _ h => h).bind fun now => ?_
  refine Run.Amid.bind (R := fun _ => Tidied s₀ o jobId staging c)
    (.transact (Company.alone_stable _) fun s y hs => ?_) fun _ => .pure fun _ hm => ⟨rfl, hm⟩
  obtain ⟨⟨hsound, hnotes⟩, htried, hcleanup⟩ := hs
  have hjobs := completeJob_jobs hsound jobId documentId c cleanupFailed now.timestamp
  have hhistory : (completeJob jobId documentId c cleanupFailed now.timestamp).wp
      (fun _ s' => s₀.Notes (_ ++ [.complete jobId c]) s') (fun _ => True) s :=
    completeJob_notes hnotes documentId c cleanupFailed now.timestamp
  refine wp_mono (wp_and hjobs hhistory) (fun _ s' hs' => ⟨trivial, ?_⟩) fun _ _ => trivial
  obtain ⟨⟨hopen, hjobs⟩, hhistory⟩ := hs'
  refine ⟨⟨found, hfound, htried⟩, ⟨cleanupFailed, ?_, ?_⟩, hhistory⟩
  · rw [hcleanup, ← Yard.failures_ne_nil_iff]
    simp
  · obtain ⟨r, hr, hid, hstatus, -, hresult⟩ :=
      exists_completed (some (summary c cleanupFailed)) now.timestamp hopen
    exact ⟨r, hjobs ▸ hr, hid, hstatus, hresult _ rfl (summary_isDurable c cleanupFailed)⟩

/-- The report tells that the job is completed, and its operation has been tidied up after. -/
def TidiedUp (s₀ : Store) (o : ObjectStore) (job : Job) (report : JobReport) (m : Moment Yard) :
    Prop :=
  ∃ staging c, stagingOf job = .ok staging ∧ report = .completed job.id c.pageCount ∧
    Tidied s₀ o job.id staging c m

section
variable (p : Pipeline) {job : Job}

theorem finalize_tidies : (p.finalize job).Amid (.alone surroundings) (Untidied s₀ o)
    (TidiedUp s₀ o job) fun _ _ => True := by
  rw [finalize_eq]
  refine .ofExcept_bind (fun _ _ _ _ => trivial) fun staging hstaging => ?_
  refine .ofExcept_bind (fun _ _ _ _ => trivial) fun documentId _ => ?_
  refine Run.Amid.bind (R := fun found m => found.Perm (o.list staging.outputFolder) ∧
      Untidied s₀ o m)
    (.demand (Company.alone_stable _) rfl fun m answer y hm hanswer => ⟨trivial, ?_⟩) fun found =>
    .given fun hfound => ?_
  · obtain ⟨hfound, rfl⟩ := hanswer
    cases answer with
    | ok found =>
      refine ⟨?_, hm⟩
      have hfound := hfound found rfl
      rwa [hm.2] at hfound
    | error e => trivial
  · refine (gather_spares p _).bind fun c => ?_
    refine (close_tidies hfound c).conseq (fun _ hm => hm) (fun report m hm => ?_) fun _ _ hm => hm
    exact ⟨staging, c, hstaging, hm⟩

/-- A job that is failed is not told to be completed. -/
theorem fail_tells {P : Moment Yard → Prop} {Q : JobReport → Moment Yard → Prop} (message : String)
    (detail : Option String) :
    (fail job message detail).Amid (.alone surroundings) P
      (fun report m => report.status = .completed → Q report m) fun _ _ => True :=
  (Run.Amid.anything _).bind fun _ => (Run.Amid.anything _).bind fun _ => .pure fun _ _ => nofun

theorem proceed_tidies (state : Ocr.OperationStatus) :
    (p.proceed job state).Amid (.alone surroundings) (Untidied s₀ o)
      (fun report m => report.status = .completed → TidiedUp s₀ o job report m)
      fun _ _ => True := by
  unfold proceed
  split
  · exact (Run.Amid.anything _).bind fun _ => .pure fun _ _ => nofun
  · split
    · exact fail_tells _ none
    · refine Run.Amid.bind (.outcome (Q := fun outcome m => ∀ report, outcome = .ok report →
        TidiedUp s₀ o job report m) ?_) fun outcome => ?_
      · refine p.finalize_tidies.conseq (fun _ hm => hm) (fun report m hm => ?_) fun _ _ _ => nofun
        rintro _ ⟨⟩
        exact hm
      · cases outcome with
        | ok report => exact .pure fun m hm _ => hm report rfl
        | error e =>
          unfold settle
          dsimp only
          split
          · exact (Run.Amid.anything _).bind fun _ => .throw fun _ _ => trivial
          · exact .throw fun _ _ => trivial

theorem check_tidies : (p.check job).Amid (.alone surroundings) (Untidied s₀ o)
    (fun report m => report.status = .completed → TidiedUp s₀ o job report m)
    fun _ _ => True := by
  unfold check
  split
  · exact fail_tells _ none
  case h_2 handle _ =>
    refine (Run.Amid.ask_alone (e := .status handle) rfl fun _ _ _ h => h).bind fun answer => ?_
    cases answer with
    | ok state => exact p.proceed_tidies state
    | error e => exact (Run.Amid.anything _).bind fun _ => .throw fun _ _ => trivial

variable {s : Store} {r : JobRow}

/-- Of a job that is completed already nothing is asked for. -/
theorem stored_tidies {Q : JobReport → Moment Yard → Prop} (hread : r.read = .ok job) :
    (Run.ofExcept (JobReport.ofJob job) : Run PipelineError JobReport).Amid (.alone surroundings)
      (· = (s, .untouched o))
      (fun report m => report.status = .completed →
        (r.status = .completed ∧ m = (s, .untouched o)) ∨ Q report m) fun _ _ => True := by
  cases hreport : JobReport.ofJob job with
  | error e => exact .throw fun _ _ => trivial
  | ok report =>
    refine .pure fun m hm hcompleted => .inl ⟨?_, hm⟩
    obtain ⟨_, -, hreport⟩ := bind_eq_ok.mp hreport
    obtain rfl := Except.ok.inj hreport
    exact (JobRow.shows_of_read hread).status.symm.trans hcompleted

/-- A poll that has found a job reports it as it is stored, or checks on it. -/
theorem found_tidies (hs : s.Sound) (hread : r.read = .ok job) :
    Run.Amid (.alone surroundings) (· = (s, .untouched o))
      (fun report m => report.status = .completed →
        (r.status = .completed ∧ m = (s, .untouched o)) ∨
          (r.status = .polling ∧ TidiedUp s o job report m))
      (fun _ _ => True) (do
        if job.status != .polling then Run.ofExcept (JobReport.ofJob job)
        else match p.settings.polling.discipline (← Run.ofExcept job.type) with
          | .inProcess => Run.ofExcept (JobReport.ofJob job)
          | .external => p.check job) := by
  split
  · exact stored_tidies hread
  case isFalse hpolling =>
    refine .ofExcept_bind (fun _ _ _ _ => trivial) fun jobType _ => ?_
    split
    · exact stored_tidies hread
    · refine p.check_tidies.conseq (fun m hm => ?_)
        (fun _ _ hm hcompleted => .inr ⟨?_, hm hcompleted⟩) fun _ _ hm => hm
      · exact hm ▸ ⟨⟨hs, .refl s⟩, rfl⟩
      · rw [← (JobRow.shows_of_read hread).status]
        simpa using hpolling

end
end Pipeline

/-- Whatever objects there are and whichever of them cannot be deleted: a poll that tells that a job
is completed found it completed, and has touched nothing; or it found it waiting and has completed
it. Then it has asked for the input and for every shard of the operation to be deleted, in whatever
order the shards were found. Of all objects those are gone whose deletion succeeded. The job tells
whether any deletion failed, and if so one warning does, with the last failure. -/
theorem completed_poll_tidies {s : Store} (hs : s.Sound) {p : Pipeline} {jobId : String}
    {o : ObjectStore} {report : JobReport} {m : Moment Yard}
    (hrun : Yard.surroundings.Runs (p.poll jobId).run (s, .untouched o) (.ok report) m)
    (hcompleted : report.status = .completed) :
    ∃ r ∈ s.jobs, r.id = jobId ∧
      ((r.status = .completed ∧ m = (s, .untouched o)) ∨
        (r.status = .polling ∧ ∃ job staging c, r.read = .ok job ∧
          Pipeline.stagingOf job = .ok staging ∧ report = .completed jobId c.pageCount ∧
          Pipeline.Tidied s o jobId staging c m)) := by
  have hpoll : (p.poll jobId).Amid (.alone Yard.surroundings) (· = (s, .untouched o))
      (fun report m => report.status = .completed → ∃ r ∈ s.jobs, r.id = jobId ∧ ∃ job,
        r.read = .ok job ∧ ((r.status = .completed ∧ m = (s, .untouched o)) ∨
          (r.status = .polling ∧ Pipeline.TidiedUp s o job report m))) fun _ _ => True := by
    refine .bind (.widen ((Ledger.find_reads (Company.alone_stable _)).conseq (fun _ hm => hm)
      (fun _ _ hm => hm) fun _ _ _ => trivial)) fun job => ?_
    refine .learn (φ := ∃ r ∈ s.jobs, r.id = jobId ∧ r.read = .ok job) (fun m hm => ?_)
      fun hjob => ?_
    · obtain ⟨rfl, hrow⟩ := hm
      exact hrow
    · obtain ⟨r, hr, hid, hread⟩ := hjob
      exact (Pipeline.found_tidies p hs hread).conseq (fun _ hm => hm.1)
        (fun _ _ hm hcompleted => ⟨r, hr, hid, job, hread, hm hcompleted⟩) fun _ _ hm => hm
  obtain ⟨r, hr, hid, job, hread, hfound⟩ := Company.ends_of_runs (fun _ => rfl)
    (Run.Amid.iff_leads.mp hpoll (s, .untouched o) rfl) hrun hcompleted
  refine ⟨r, hr, hid, hfound.imp_right fun ⟨hpolling, staging, c, hstaging, hreport, htidied⟩ => ?_⟩
  have hjob : job.id = jobId := (JobRow.shows_of_read hread).id.trans hid
  exact ⟨hpolling, job, staging, c, hread, hstaging, hjob ▸ hreport, hjob ▸ htidied⟩

namespace Background

/-- The input that was staged, and the shard that was made of it. -/
def stocked : ObjectStore :=
  ⟨pipeline.bucket,
    [(staging.inputKey, ⟨ByteArray.empty, "image/png"⟩), (shardKey, shard (some 1) "a")]⟩

def busy : StorageError := .api 503 "busy"

/-- The input could not be deleted, and the shard could. -/
def littered : Yard :=
  ⟨stocked.delete shardKey, [(staging.inputKey, .error busy), (shardKey, .ok ())]⟩

/-- The store after that was noted. -/
def warned : Store :=
  ((Jobs.insertEvent "j" .warning (some "cleanup")
    ("Temporary OCR files were not fully deleted" ++ ": " ++ Failure.message busy)
    (some (Failure.trace busy)) start.timestamp).run saved).2

def completedBusy : Store :=
  ((Pipeline.completeJob "j" "d" ⟨1, 0⟩ true start.timestamp).run warned).2

theorem poll_litters : Yard.surroundings.Runs (pipeline.poll "j").run (store, .untouched stocked)
    (.ok (.completed "j" 1)) (completedBusy, littered) := by
  have hlist : Yard.surroundings.allows (.list staging.outputFolder) (.untouched stocked)
      (.ok [shardKey]) (.untouched stocked) := by
    refine ⟨?_, rfl⟩
    rintro _ ⟨⟩
    exact .refl _
  have hget : Yard.surroundings.allows (.get shardKey) (.untouched stocked)
      (.ok (shard (some 1) "a").data) (.untouched stocked) := by
    refine ⟨?_, rfl⟩
    rintro _ ⟨⟩
    rfl
  have hdelete : Yard.surroundings.Runs
      (Pipeline.deleteFiles "j" [staging.inputKey, shardKey]).run (saved, .untouched stocked)
      (.ok true) (warned, littered) :=
    ⟨.error busy, (saved, ⟨stocked, [(staging.inputKey, .error busy)]⟩), ⟨rfl, rfl⟩,
      .ok (), (saved, littered), ⟨rfl, rfl⟩, start, (saved, littered), ⟨rfl, rfl⟩,
      _, (warned, littered), ⟨rfl, rfl⟩, .of_done rfl _⟩
  have hclose : Yard.surroundings.Runs
      (Pipeline.close "j" "d" staging.inputKey [shardKey] ⟨1, 0⟩).run (saved, .untouched stocked)
      (.ok (.completed "j" 1)) (completedBusy, littered) :=
    .bind hdelete ⟨start, (warned, littered), ⟨rfl, rfl⟩, _, (completedBusy, littered),
      ⟨rfl, rfl⟩, .of_done rfl _⟩
  have hrest : Yard.surroundings.Runs afterListing.run (store, .untouched stocked)
      (.ok (.completed "j" 1)) (completedBusy, littered) :=
    .bind (collect_eq hget store (.here (stores_page rfl))).runs hclose
  exact (poll_resumes rfl hlist (.here hrest) (.of_done rfl _)).runs

end Background

/-- The input stays and the shard goes; one warning tells so, and so does the job. -/
theorem completed_poll_tidies_busy :
    Background.store.Sound ∧
    ∃ m, Yard.surroundings.Runs (Background.pipeline.poll "j").run
        (Background.store, .untouched Background.stocked) (.ok (.completed "j" 1)) m ∧
      m.2.gone = [Background.shardKey] ∧
      m.2.objects = Background.stocked.without [Background.shardKey] ∧
      m.2.warnings "j" = [.leftover "j" Background.busy] := by
  have hs : Background.store.Sound := Background.store_quiet.calm.sound
  refine ⟨hs, _, Background.poll_litters, rfl, ?_, rfl⟩
  obtain ⟨r, hr, -, ⟨hdone, -⟩ | ⟨-, _, _, _, -, -, -, htidied⟩⟩ :=
    completed_poll_tidies hs Background.poll_litters rfl
  · obtain rfl := List.mem_singleton.mp hr
    cases hdone
  · obtain ⟨_, -, htried⟩ := htidied.files
    exact htried.left

namespace Background

/-- The job as the next poll finds it. -/
def completedJob : Job :=
  match ((Jobs.find "j").run completedBusy).1 with
  | .ok (some job) => job
  | _ => default

theorem poll_leaves_litter (o : ObjectStore) :
    Yard.surroundings.Runs (pipeline.poll "j").run (completedBusy, .untouched o)
      (.ok (.completed "j" 1)) (completedBusy, .untouched o) := by
  have hreport : JobReport.ofJob completedJob = .ok (.completed "j" 1) := by
    have hpages : JobReport.pageCountOf completedJob.result = some 1 :=
      JobReport.pageCountOf_summary ⟨1, 0⟩ true
    unfold JobReport.ofJob
    rw [hpages]
    rfl
  refine .bind (r := .ok completedJob)
    ⟨.ok (some completedJob), (completedBusy, .untouched o), ⟨rfl, rfl⟩, .of_done rfl _⟩ ?_
  show Yard.surroundings.Runs
    (Run.ofExcept (JobReport.ofJob completedJob) : Run PipelineError JobReport).run _ _ _
  rw [hreport]
  exact .of_done rfl _

end Background

/-- The input of a completed job could not be deleted. The next poll tells that the job is
completed, deletes nothing, and leaves what the job tells of a failed deletion. -/
theorem completed_poll_leaves_litter :
    ∃ m m', Yard.surroundings.Runs (Background.pipeline.poll "j").run
        (Background.store, .untouched Background.stocked) (.ok (.completed "j" 1)) m ∧
      Yard.surroundings.Runs (Background.pipeline.poll "j").run (m.1, .untouched m.2.objects)
        (.ok (.completed "j" 1)) m' ∧
      m'.2.deletes = [] ∧ Background.staging.inputKey ∈ m'.2.objects.keys ∧
      ∃ r ∈ m'.1.jobs, r.id = "j" ∧
        r.result = some (.value (Pipeline.summary ⟨1, 0⟩ true)) :=
  ⟨_, _, Background.poll_litters, Background.poll_leaves_litter _, rfl, List.mem_cons_self, _,
    List.mem_singleton_self _, rfl, rfl⟩

end Quire
