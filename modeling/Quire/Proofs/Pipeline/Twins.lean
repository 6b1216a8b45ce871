import Quire.Pipeline.Ingest
import Quire.Proofs.Flow.Twins
import Quire.Proofs.Pipeline.Cleanup
import Quire.Proofs.Store.Lookalikes

/-! The pipeline and its twin.

Whatever the store fails with, an operation of the pipeline asks what it would ask otherwise: where
it branches on a failure, it branches on what a caller is told of it, and what it writes down of a
failure is that, or goes into a trace. So each operation is alike to itself, part by part. -/
namespace Quire

variable {v : Veil}

/-! ### The ledger -/

namespace Ledger

/-- A change of a job at the time of the clock. -/
theorem change_alike (jobId : String) (c : Instant → Jobs.Change)
    (hc : ∀ t t', v.Same t t' → (c t).veiled v = (c t').veiled v) :
    Run.Alike v Eq (atNow fun now => guarded jobId ((c now).statement jobId now.timestamp))
      (atNow fun now => guarded jobId ((c now).statement jobId now.timestamp)) :=
  Run.Alike.clock.bind fun t t' ht =>
    .transact (Jobs.guarded_alike (hc t t' ht) jobId (ht.time Instant.timestamp))

theorem markRunning_alike (jobId : String) :
    (markRunning jobId).Alike v Eq (markRunning jobId) :=
  change_alike jobId (fun _ => .running) fun _ _ _ => rfl

theorem markPolling_alike (l : Ledger) (jobId handle : String) (params : Json) :
    (l.markPolling jobId handle params).Alike v Eq (l.markPolling jobId handle params) :=
  change_alike jobId (fun now => .polling handle params (l.deadline now)) fun _ _ ht =>
    congrArg (Jobs.Change.polling handle params) (ht.time l.deadline)

theorem markCompleted_alike (jobId : String) (result : Option Json) :
    (markCompleted jobId result).Alike v Eq (markCompleted jobId result) :=
  change_alike jobId (fun _ => .completed result) fun _ _ _ => rfl

theorem markFailed_alike (jobId message : String) :
    (markFailed jobId message).Alike v Eq (markFailed jobId message) :=
  change_alike jobId (fun _ => .failed message) fun _ _ _ => rfl

theorem signalAlive_alike (l : Ledger) (jobId : String) :
    (l.signalAlive jobId).Alike v Eq (l.signalAlive jobId) :=
  change_alike jobId (fun now => .alive (l.deadline now)) fun _ _ ht =>
    congrArg Jobs.Change.alive (ht.time l.deadline)

theorem updateProgress_alike (jobId : String) (done total : UInt32) (step : String) :
    (updateProgress jobId done total step).Alike v Eq (updateProgress jobId done total step) :=
  change_alike jobId (fun _ => .progressed done total (Progress.percent done total) step)
    fun _ _ _ => rfl

theorem find_alike (jobId : String) :
    (find jobId).Alike v (fun job job' => job.veiled v = job'.veiled v) (find jobId) := by
  refine (Run.Alike.transact (Jobs.find_alike jobId)).bind fun found found' h => ?_
  obtain ⟨rfl, rfl⟩ | ⟨job, job', rfl, rfl, hjobs⟩ := map_eq_cases h
  · exact .throw (.refl _)
  · exact .pure hjobs

/-- An event, whatever stands in its trace. -/
theorem addEvent_alike (jobId : String) (kind : EventKind) (step : Option String)
    (message : String) (trace trace' : Option String) :
    (addEvent jobId kind step message trace).Alike v Eq
      (addEvent jobId kind step message trace') :=
  Run.Alike.clock.bind fun _ _ ht =>
    .transact (Jobs.insertEvent_told jobId kind step message trace trace' (ht.time _))

theorem note_alike (jobId : String) (kind : EventKind) (step : Option String) (message : String) :
    (note jobId kind step message).Alike v Eq (note jobId kind step message) :=
  addEvent_alike jobId kind step message none none

theorem report_alike {ε : Type} [Failure ε] (jobId : String) (kind : EventKind)
    (step : Option String) (message : String) (e : ε) :
    (report jobId kind step message e).Alike v Eq (report jobId kind step message e) :=
  addEvent_alike jobId kind step _ _ _

end Ledger

/-! ### Cleaning -/

namespace Cleanup

-- Irreducible, so that no application of a rule makes Lean run a flow.
/-- A counting flow asks alike and comes to the same, to something with `Q`. -/
@[irreducible]
def Even (v : Veil) {α : Type} (Q : α → Unit → Prop) (x : Counted α) (_ : Unit) : Prop :=
  ∀ n, Flow.Alike v (fun out out' => out = out' ∧ Q out.1 ()) (x.run n) (x.run n)

theorem even_iff {α : Type} {Q : α → Unit → Prop} {x : Counted α} {u : Unit} :
    Even v Q x u ↔
      ∀ n, Flow.Alike v (fun out out' => out = out' ∧ Q out.1 ()) (x.run n) (x.run n) := by
  unfold Even
  rfl

/-- To be sure that a counting flow is alike to itself. -/
def even (v : Veil) : Assurance Counted Unit where
  ensures := Even v
  mono h hQ := by
    rw [even_iff] at h ⊢
    exact fun n => (h n).mono fun _ _ ho => ⟨ho.1, hQ _ _ ho.2⟩
  pure hQ := even_iff.mpr fun _ => .pure ⟨rfl, hQ⟩
  bind hx := by
    rw [even_iff] at hx ⊢
    intro n
    rw [StateT.run_bind]
    refine (hx n).bind fun out _ ho => ?_
    obtain ⟨rfl, hout⟩ := ho
    exact even_iff.mp hout out.2

theorem even_lift {α : Type} {f : Flow α} (h : f.Alike v Eq f) :
    (even v).ensures (fun _ _ => True) (StateT.lift f : Counted α) () :=
  even_iff.mpr fun _ => h.bind fun _ _ ha => .pure ⟨congrArg (·, _) ha, trivial⟩

theorem finished_even (jobId : String) (total : Nat) :
    (even v).ensures (fun _ _ => True) (finished jobId total) () := by
  refine even_iff.mpr fun n => ?_
  have hprogress := Run.Alike.iff_run.mp (Ledger.updateProgress_alike (v := v) jobId
    (UInt32.ofNat (n + 1)) (UInt32.ofNat total) "cleaning")
  -- What becomes of the progress may differ, but nobody looks at it.
  have hcount (o o' : Except JobError Unit) : Flow.Alike v (fun out out' => out.2 = out'.2)
      (pure (o, n + 1) : Flow _) (pure (o', n + 1)) := .pure rfl
  refine (hprogress.bind fun o o' _ => hcount o o').bind fun out out' ho => ?_
  exact .pure ⟨congrArg (PUnit.unit, ·) ho, trivial⟩

theorem begin_even (s : Settings) (name : CleanerName) (jobId : String) (total i : Nat)
    (page : Ocr.Page) :
    (even v).ensures (fun _ _ => True) (begin s name jobId total i page) () := by
  unfold begin
  split
  · exact Assurance.bind _ (Assurance.mono _ (finished_even jobId total) fun _ _ _ =>
      Assurance.pure _ trivial)
  · refine Assurance.bind _ (Assurance.mono _ (even_lift (.perform rfl)) fun o _ _ => ?_)
    cases o with
    | none => exact Assurance.pure _ trivial
    | some r =>
      exact Assurance.bind _ (Assurance.mono _ (finished_even jobId total) fun _ _ _ =>
        Assurance.pure _ trivial)

theorem await_even (name : CleanerName) (jobId : String) (pages : List Ocr.Page) (first : Nat)
    (others : List Nat) :
    (even v).ensures (fun _ _ => True) (await name jobId pages first others) () := by
  unfold await
  refine Assurance.bind _ (Assurance.mono _ (even_lift (.perform rfl)) fun _ _ _ => ?_)
  exact Assurance.bind _ (Assurance.mono _ (finished_even jobId pages.length) fun _ _ _ =>
    Assurance.pure _ trivial)

theorem clean_alike (s : Settings) (name : CleanerName) (jobId : String) (pages : List Ocr.Page) :
    Flow.Alike v Eq (clean s name jobId pages) (clean s name jobId pages) := by
  unfold clean
  have hpages : (even v).ensures
      (fun new _ => True ∧ List.Forall₂ (fun _ _ => True) pages.zipIdx new)
      ((Pool.ofNat s.cleaningConcurrency).mapOrElse
        ⟨begin s name jobId pages.length, await name jobId pages⟩
        (fun page _ => unclean page) pages) () := by
    refine Pool.mapOrElse_ensures _ (fun _ _ _ => True) (fun _ => True) (fun _ => True) trivial
      ?_ ?_ (fun _ _ _ h => h) fun _ _ _ h => h
    · dsimp only
      intro i page _ _ _
      refine Assurance.mono _ (begin_even s name jobId pages.length i page) fun o _ _ =>
        ⟨trivial, ?_⟩
      cases o with
      | none => trivial
      | some r => trivial
    · dsimp only
      intro first others _ _ _
      exact Assurance.mono _ (await_even name jobId pages first others) fun _ _ _ =>
        ⟨trivial, fun _ _ => trivial⟩
  refine (even_iff.mp hpages 0).bind fun out out' ho => ?_
  obtain ⟨new, n⟩ := out
  obtain ⟨new', n'⟩ := out'
  exact .pure (congrArg Prod.fst ho.1)

end Cleanup

theorem Pipeline.cleanPages_alike (p : Pipeline) (jobId : String) (pages : List Ocr.Page) :
    Flow.Alike v Eq (p.cleanPages jobId pages) (p.cleanPages jobId pages) := by
  unfold cleanPages
  split
  · split
    · exact Cleanup.clean_alike _ _ jobId pages
    · exact .pure rfl
  · exact .pure rfl

/-! ### Checks -/

namespace Pipeline
variable (p : Pipeline)

/-- What is written of a job's failure, whatever stands in the trace of its event. -/
theorem failJob_alike (job : Job) (message : String) (trace trace' : Option String)
    {now now' : String} (hnow : v.time now = v.time now') :
    (failJob job message trace now).Alike v Eq (failJob job message trace' now') := by
  refine .next (Jobs.guarded_alike (c := .failed message) rfl job.id hnow).widen fun _ => ?_
  have htold := Jobs.insertEvent_told (v := v) job.id .error (some "poll") message trace trace' hnow
  cases job.documentId with
  | none => exact htold.widen
  | some documentId =>
    exact .next (Documents.markFailed_alike hnow documentId).widen fun _ => htold.widen

theorem fail_alike (job : Job) (message : String) (trace trace' : Option String) :
    (fail job message trace).Alike v Eq (fail job message trace') :=
  Run.Alike.clock.bind fun _ _ ht =>
    .next (.transact (failJob_alike job message trace trace' (ht.time _))) fun _ => .pure rfl

theorem readShards_alike (keys : List String) :
    (readShards keys).Alike v Eq (readShards keys) := by
  induction keys with
  | nil => exact .pure rfl
  | cons key rest ih =>
    exact .next (.request rfl) fun _ => .next (.ofExcept _) fun _ => .next ih fun _ => .pure rfl

theorem storeBatches_alike (jobId documentId : String) (batch total stored left : Nat)
    (pages : List NewPage) :
    (storeBatches jobId documentId batch total stored left pages).Alike v Eq
      (storeBatches jobId documentId batch total stored left pages) := by
  induction left generalizing stored pages with
  | zero => exact .pure rfl
  | succ left ih =>
    cases pages with
    | nil => exact .pure rfl
    | cons page rest =>
      exact Run.Alike.clock.bind fun _ _ ht =>
        .next (.transact (Pages.upsertAll_alike documentId _ (ht.time _))) fun _ =>
          .next (.widen (Ledger.updateProgress_alike jobId _ _ _)) fun _ => ih _ _

theorem collect_alike (jobId documentId : String) (keys : List String) :
    (p.collect jobId documentId keys).Alike v Eq (p.collect jobId documentId keys) :=
  .next (readShards_alike keys) fun _ => .next (.lift (p.cleanPages_alike jobId _)) fun _ =>
    .next (storeBatches_alike jobId documentId _ _ _ _ _) fun _ => .pure rfl

theorem alreadyCollected_alike (documentId : String) :
    (alreadyCollected documentId).Alike v Eq (alreadyCollected documentId) := by
  refine (Run.Alike.transact (Pages.list_alike documentId)).bind fun pages pages' h => .pure ?_
  have hlength : pages.length = pages'.length := length_eq h
  have hfailures : (pages.filter (·.cleaningFailed)).length =
      (pages'.filter (·.cleaningFailed)).length :=
    length_eq (map_filter_eq (g := Page.veiled v) (fun _ => rfl) h)
  rw [hlength, hfailures]

theorem deleteObjects_alike (last : Option StorageError) (keys : List String) :
    (deleteObjects last keys).Alike v Eq (deleteObjects last keys) := by
  induction keys generalizing last with
  | nil => exact .pure rfl
  | cons key rest ih =>
    refine .next (.perform rfl) fun o => ?_
    cases o with
    | ok _ => exact ih last
    | error e => exact ih (some e)

theorem deleteFiles_alike (jobId : String) (keys : List String) :
    (deleteFiles jobId keys).Alike v Eq (deleteFiles jobId keys) := by
  refine .next (deleteObjects_alike none keys) fun last => ?_
  cases last with
  | none => exact .pure rfl
  | some e => exact .next (.widen (Ledger.report_alike jobId _ _ _ e)) fun _ => .pure rfl

theorem completeJob_alike (jobId documentId : String) (c : Collected) (cleanupFailed : Bool)
    {now now' : String} (hnow : v.time now = v.time now') :
    (completeJob jobId documentId c cleanupFailed now).Alike v Eq
      (completeJob jobId documentId c cleanupFailed now') :=
  .next (Documents.markDraft_alike hnow documentId c.pageCount).widen fun _ =>
    .next (.require _ _) fun _ =>
      .next (Jobs.guarded_alike (c := .completed (some (summary c cleanupFailed))) rfl jobId
        hnow).widen fun _ =>
        (Jobs.insertEvent_told jobId .info (some "complete") _ none none hnow).widen

theorem gather_alike (jobId documentId : String) (keys : List String) :
    (p.gather jobId documentId keys).Alike v Eq (p.gather jobId documentId keys) := by
  unfold gather
  split
  · exact alreadyCollected_alike documentId
  · exact p.collect_alike jobId documentId keys

theorem close_alike (jobId documentId inputKey : String) (keys : List String) (c : Collected) :
    (close jobId documentId inputKey keys c).Alike v Eq
      (close jobId documentId inputKey keys c) :=
  .next (deleteFiles_alike jobId _) fun cleanupFailed => Run.Alike.clock.bind fun _ _ ht =>
    .next (.transact (completeJob_alike jobId documentId c cleanupFailed (ht.time _))) fun _ =>
      .pure rfl

theorem finalize_alike (job : Job) : (p.finalize job).Alike v Eq (p.finalize job) := by
  rw [finalize_eq]
  exact .next (.ofExcept _) fun staging => .next (.ofExcept _) fun documentId =>
    .next (.request rfl) fun found => .next (p.gather_alike job.id documentId _) fun c =>
      close_alike job.id documentId staging.inputKey _ c

/-- Whether a failure fails the job, and with which message, is the same for failures that are
alike; only the trace tells them apart. -/
theorem settle_alike (job : Job) {o o' : Except PipelineError JobReport} (h : Outcomes Eq o o') :
    (settle job o).Alike v Eq (settle job o') := by
  cases h with
  | ok hr => exact .pure hr
  | @error e e' he =>
    show Run.Alike v Eq
      (if ! e.isRetryable then
        fail job e.publicMessage (some (Failure.message e)) >>= fun _ => throw e else throw e)
      (if ! e'.isRetryable then
        fail job e'.publicMessage (some (Failure.message e')) >>= fun _ => throw e' else throw e')
    rw [he.isRetryable, he.publicMessage]
    split
    · exact .next (fail_alike job _ _ _) fun _ => .throw he
    · exact .throw he

theorem proceed_alike (job : Job) (state : Ocr.OperationStatus) :
    (p.proceed job state).Alike v Eq (p.proceed job state) := by
  unfold proceed
  split
  · exact .next (.widen (p.ledger.signalAlive_alike job.id)) fun _ => .pure rfl
  · split
    · exact fail_alike job _ _ _
    · exact (Run.Alike.outcome (p.finalize_alike job)).bind fun _ _ ho => settle_alike job ho

theorem check_alike (job : Job) : (p.check job).Alike v Eq (p.check job) := by
  unfold check
  split
  · exact fail_alike job _ _ _
  · refine .next (.perform rfl) fun o => ?_
    cases o with
    | ok state => exact p.proceed_alike job state
    | error e =>
      exact .next (.widen (Ledger.report_alike job.id _ _ _ e)) fun _ => .throw (.refl _)

/-! ### Polling and waiting -/

section Jobs
variable {job job' : Job} (h : job.veiled v = job'.veiled v)
include h

theorem check_same : p.check job = p.check job' := (congrArg p.check h :)

theorem ofJob_same : JobReport.ofJob job = JobReport.ofJob job' := (congrArg JobReport.ofJob h :)

theorem status_same : job.status = job'.status := (congrArg Job.status h :)

theorem type_same : job.type = job'.type := (congrArg Job.type h :)

theorem fail_same (message : String) (trace : Option String) :
    fail job message trace = fail job' message trace :=
  (congrArg (fail · message trace) h :)

end Jobs

theorem poll_alike (jobId : String) : (p.poll jobId).Alike v Eq (p.poll jobId) := by
  refine (Run.Alike.widen (Ledger.find_alike jobId)).bind fun job job' h => ?_
  rw [ofJob_same h, status_same h, type_same h, p.check_same h]
  split
  · exact .ofExcept _
  · refine .next (.ofExcept _) fun jobType => ?_
    split
    · exact .ofExcept _
    · exact p.check_alike job'

theorem giveUp_alike (jobId : String) : (p.giveUp jobId).Alike v Eq (p.giveUp jobId) := by
  refine (Run.Alike.widen (Ledger.find_alike jobId)).bind fun job job' h => ?_
  rw [ofJob_same h, status_same h, fail_same h]
  split
  · exact .ofExcept _
  · exact fail_alike job' _ _ _

theorem again_alike (jobId : String) (left : Nat)
    (h : (p.waitFor jobId left).Alike v Eq (p.waitFor jobId left)) :
    (p.again jobId left).Alike v Eq (p.again jobId left) := by
  unfold again
  split
  · exact .next (.perform rfl) fun _ => h
  · exact h

/-- A check that fails is made again, whatever it has failed with. -/
theorem waitFor_alike (jobId : String) (left : Nat) :
    (p.waitFor jobId left).Alike v Eq (p.waitFor jobId left) := by
  induction left with
  | zero => exact p.giveUp_alike jobId
  | succ left ih =>
    rw [waitFor_succ]
    refine (Run.Alike.widen (Ledger.find_alike jobId)).bind fun job job' h => ?_
    rw [ofJob_same h, status_same h, p.check_same h]
    split
    · exact .ofExcept _
    · refine (Run.Alike.outcome (p.check_alike job')).bind fun o o' ho => ?_
      cases ho with
      | @ok report report' hreport =>
        obtain rfl := hreport
        show Run.Alike v Eq (if report.isSettled then pure report else p.again jobId left)
          (if report.isSettled then pure report else p.again jobId left)
        split
        · exact .pure rfl
        · exact p.again_alike jobId left ih
      | error he => exact p.again_alike jobId left ih

theorem wait_alike (jobId : String) : (p.wait jobId).Alike v Eq (p.wait jobId) := by
  refine (Run.Alike.widen (Ledger.find_alike jobId)).bind fun job job' h => ?_
  rw [type_same h]
  refine .next (.ofExcept _) fun jobType => ?_
  split
  · exact .throw (.refl _)
  · exact p.waitFor_alike jobId p.attempts

/-! ### Ingestion

Ingestion names the objects that it makes by the time, so it is alike to itself only where times
are looked at. -/

theorem readUpload_alike (r : Upload.Reference) (limit : Nat) :
    (readUpload r limit).Alike v Eq (readUpload r limit) := by
  unfold readUpload Upload.readAll
  refine .next (.lift ?_) fun _ => .ofExcept _
  split
  · exact .pure rfl
  · refine (Flow.Alike.perform rfl).bind fun o _ ho => ?_
    obtain rfl := ho
    cases o with
    | error e => exact .pure rfl
    | ok stream => exact .pure rfl

theorem ownText_alike (jobId : String) (r : Upload.Reference) :
    (p.ownText jobId r).Alike v Eq (p.ownText jobId r) := by
  refine .next (readUpload_alike r _) fun content => .next (.perform rfl) fun o => ?_
  cases o with
  | error e => exact .next (.widen (Ledger.report_alike jobId _ _ _ e)) fun _ => .pure rfl
  | ok texts =>
    dsimp only
    split
    · exact .pure rfl
    · exact .next (.widen (Ledger.note_alike jobId _ _ _)) fun _ => .pure rfl

theorem submit_alike (s : Staging) : (submit s).Alike v Eq (submit s) := by
  refine .next (.perform rfl) fun o => ?_
  cases o with
  | ok handle => exact .pure rfl
  | error e => exact .next (.perform rfl) fun _ => .throw (.refl _)

theorem finishWith_alike (document : Document) (jobId : String) (pages : List NewPage)
    (source : String) {now now' : String} (hnow : v.time now = v.time now') :
    (finishWith document jobId pages source now).Alike v Eq
      (finishWith document jobId pages source now') :=
  .next (Pages.upsertAll_alike document.id pages hnow).widen fun _ =>
    .next (Documents.markDraft_alike hnow document.id _).widen fun _ =>
      .next (.require _ _) fun _ => (Jobs.guarded_alike (c := .completed _) rfl jobId hnow).widen

theorem finish_alike (document : Document) (jobId : String) (pages : List NewPage)
    (source : String) :
    (finish document jobId pages source).Alike v Eq (finish document jobId pages source) :=
  Run.Alike.clock.bind fun _ _ ht =>
    .next (.transact (finishWith_alike document jobId pages source (ht.time _))) fun _ => .pure rfl

theorem recognizeNow_alike (document : Document) (jobId : String) (r : Upload.Reference)
    (mime : String) :
    (p.recognizeNow document jobId r mime).Alike v Eq (p.recognizeNow document jobId r mime) :=
  .next (.widen (Ledger.updateProgress_alike jobId _ _ _)) fun _ =>
    .next (readUpload_alike r _) fun _ => .next (.request rfl) fun _ =>
      finish_alike document jobId _ _

/-- What is written down of a failure, but for the trace, is what a caller is told. -/
theorem recordFailure_alike (document : Document) (jobId : String) {e e' : PipelineError}
    (he : Failure.Alike e e') {now now' : String} (hnow : v.time now = v.time now') :
    (recordFailure document jobId e now).Alike v Eq (recordFailure document jobId e' now') := by
  unfold recordFailure
  rw [he.publicMessage]
  exact .next (Jobs.statement_alike (c := .failed e'.publicMessage) rfl jobId hnow) fun _ =>
    .next (Documents.markFailed_alike hnow document.id) fun _ =>
      Jobs.insertEvent_told jobId .error (some "ingest") _ _ _ hnow

theorem conclude_alike (document : Document) (jobId : String)
    {o o' : Except PipelineError Ingestion} (h : Outcomes Eq o o') :
    (conclude document jobId o).Alike v Eq (conclude document jobId o') := by
  cases h with
  | ok hi => exact .pure hi
  | error he =>
    exact Run.Alike.clock.bind fun _ _ ht =>
      .bind (.attempt (recordFailure_alike document jobId he (ht.time _))) fun _ _ _ => .throw he

section Times
variable (hv : v.times = false)
include hv

theorem dispatch_alike (document : Document) (jobId : String) (r : Upload.Reference)
    (mime : String) :
    (p.dispatch document jobId r mime).Alike v Eq (p.dispatch document jobId r mime) := by
  refine Run.Alike.clock.bind fun now _ ht => ?_
  obtain rfl := ht.eq hv
  refine .next (.widen (Ledger.updateProgress_alike jobId _ _ _)) fun _ =>
    .next (.request rfl) fun _ => .next (.request rfl) fun _ => .next (submit_alike _) fun _ =>
      .next (.widen (p.ledger.markPolling_alike jobId _ _)) fun _ =>
        .next (.widen (Ledger.note_alike jobId _ _ _)) fun _ => ?_
  split
  · exact .pure rfl
  · exact .next (p.wait_alike jobId) fun _ => .pure rfl

theorem recognize_alike (document : Document) (jobId : String) (fileType : FileType)
    (r : Upload.Reference) :
    (p.recognize document jobId fileType r).Alike v Eq
      (p.recognize document jobId fileType r) := by
  unfold recognize
  dsimp only
  split
  · exact p.dispatch_alike hv document jobId r _
  · exact p.recognizeNow_alike document jobId r _

theorem extract_alike (document : Document) (jobId : String) :
    (p.extract document jobId).Alike v Eq (p.extract document jobId) := by
  refine .next (.ofExcept _) fun fileType => .next (.request rfl) fun r => ?_
  dsimp only
  split
  · refine .next (.widen (Ledger.updateProgress_alike jobId _ _ _)) fun _ =>
      .next (p.ownText_alike jobId r) fun texts => ?_
    cases texts with
    | none => exact p.recognize_alike hv document jobId fileType r
    | some texts => exact finish_alike document jobId _ _
  · exact p.recognize_alike hv document jobId fileType r

theorem ownDocument_alike (documentId ownerId : String) :
    (ownDocument documentId ownerId).Alike v Eq (ownDocument documentId ownerId) := by
  refine .bind (Documents.find_alike documentId).widen fun d d' h => ?_
  obtain ⟨rfl, rfl⟩ | ⟨document, document', rfl, rfl, hsame⟩ := map_eq_cases h
  · exact .fail _
  · rw [Document.veiled_eq hv, Document.veiled_eq hv] at hsame
    obtain rfl := hsame
    exact .next (.require _ _) fun _ => .pure rfl

theorem lockDocument_alike (documentId ownerId jobId : String) (now : Instant) (heartbeat : Respite) :
    (lockDocument documentId ownerId jobId now heartbeat).Alike v Eq
      (lockDocument documentId ownerId jobId now heartbeat) := by
  refine .next (ownDocument_alike hv documentId ownerId) fun document =>
    .next (tryAcquire_alike _ jobId now heartbeat).widen fun lock => ?_
  cases lock with
  | alreadyLocked => exact .fail _
  | acquired job =>
    exact .next (Documents.transition_alike rfl documentId _ _).widen fun _ =>
      .next (.require _ _) fun _ => .next (Pages.deleteAll_alike documentId).widen fun _ =>
        .next (Jobs.insertEvent_told job.id _ _ _ none none rfl).widen fun _ => .pure rfl

theorem ingest_alike (documentId ownerId : String) :
    (p.ingest documentId ownerId).Alike v Eq (p.ingest documentId ownerId) := by
  refine .next .freshId fun id => Run.Alike.clock.bind fun now _ ht => ?_
  obtain rfl := ht.eq hv
  refine .next (.transact (lockDocument_alike hv documentId ownerId id now _)) fun locked => ?_
  obtain ⟨document, job⟩ := locked
  exact .next (.widen (Ledger.markRunning_alike job.id)) fun _ =>
    (Run.Alike.outcome (p.extract_alike hv document job.id)).bind fun _ _ ho =>
      conclude_alike document job.id ho

end Times

end Pipeline
end Quire
