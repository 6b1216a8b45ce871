import Quire.Pipeline.Ingest
import Quire.Proofs.Flow.Dialogue
import Quire.Proofs.Pipeline.Cleanup
import Quire.Proofs.Store.Reading
import Quire.Proofs.Upload.Buffer
import Quire.Question.Runner

/-! What the operations ask.

Every operation is followed once, line by line, for all dialogues that have what it asks: the
transactions of an operation are those of `Collects`, `Checks` and `Works`, and of temporary
objects a check asks for those of its own job only (`Dialogue.Handles`). Whoever wants to know what
an operation does to the store, or which objects it touches, chooses a dialogue. -/
namespace Quire
-- What the core library has by the same name is written with a dot.
open Run.Abides hiding bind pure throw

/-! ### Dialogues -/

namespace Dialogue

/-- What is asked for pages apart from the store and temporary objects. -/
structure Tends (c : Dialogue) : Prop where
  clock : c.asks .clock
  begins : ∀ index text hint, c.asks (.beginCleaning index text hint)
  awaits : ∀ first others, c.asks (.awaitCleaning first others)

/-- What is asked while an operation is waited for, the same apart. -/
structure Watches (c : Dialogue) : Prop extends c.Tends where
  status : ∀ handle, c.asks (.status handle)
  sleep : ∀ millis, c.asks (.sleep millis)

theorem Watches.of_asks {c : Dialogue} (hasks : ∀ (β : Type) (e : Effect β), c.asks e) :
    c.Watches where
  clock := hasks _ _
  begins _ _ _ := hasks _ _
  awaits _ _ := hasks _ _
  status _ := hasks _ _
  sleep _ := hasks _ _

/-- What may be asked about the temporary objects of an operation. -/
structure Handles (c : Dialogue) (staging : Staging) : Prop where
  list : c.asks (.list staging.outputFolder)
  input : c.asks (.delete staging.inputKey)
  found : ∀ keys, c.gives (.list staging.outputFolder) (.ok keys) →
    ∀ key ∈ keys, c.asks (.get key) ∧ c.asks (.delete key)

end Dialogue

/-- A file is recognized at once. -/
def Effect.isRecognition {β : Type} : Effect β → Bool
  | .recognize _ _ => true
  | _ => false

/-- What an ingestion may ask: anything, but only small files are recognized at once. -/
structure Dialogue.Ingests (c : Dialogue) (limit : Nat) : Prop where
  others : ∀ (β : Type) (e : Effect β), e.isRecognition = false → c.asks e
  recognizes : ∀ content mime, content.size ≤ limit → c.asks (.recognize content mime)

theorem Dialogue.Ingests.of_asks {c : Dialogue} (hasks : ∀ (β : Type) (e : Effect β), c.asks e)
    (limit : Nat) : c.Ingests limit :=
  ⟨fun _ e _ => hasks _ e, fun _ _ _ => hasks _ _⟩

/-- A kind that has every transaction with which results of an operation are collected. -/
structure Collects (P : TxnKind) (jobId documentId : String) : Prop where
  progress : ∀ now done total percent step, P _ _
    (guarded jobId (Jobs.Change.statement jobId now (.progressed done total percent step)))
  storePages : ∀ now pages, P _ _ (Pages.upsertAll documentId now pages)
  listPages : P _ _ (Pages.list documentId)

/-- A kind that has every transaction of a check on a job. -/
structure Checks (P : TxnKind) (job : Job) : Prop where
  alive : ∀ now timeoutAt, P _ _
    (guarded job.id (Jobs.Change.statement job.id now (.alive timeoutAt)))
  note : ∀ kind step message trace now, P _ _ (Jobs.insertEvent job.id kind step message trace now)
  failJob : ∀ message detail now, P _ _ (Pipeline.failJob job message detail now)
  collects : ∀ documentId, Pipeline.documentOf job = .ok documentId →
    Collects P job.id documentId
  complete : ∀ documentId, Pipeline.documentOf job = .ok documentId →
    ∀ c cleanupFailed now, P _ _ (Pipeline.completeJob job.id documentId c cleanupFailed now)

/-- A dialogue in which a job can be checked on. -/
structure Checked (c : Dialogue) (job : Job) : Prop where
  watches : c.Watches
  checks : Checks c.issues job
  handles : ∀ staging, Pipeline.stagingOf job = .ok staging → c.Handles staging

/-- A kind that has every transaction of an ingestion that has taken the lock. -/
structure Works (P : TxnKind) (document : Document) (jobId : String) : Prop where
  running : ∀ now, P _ _ (guarded jobId (Jobs.Change.statement jobId now .running))
  progress : ∀ now done total percent step, P _ _
    (guarded jobId (Jobs.Change.statement jobId now (.progressed done total percent step)))
  note : ∀ kind step message trace now, P _ _ (Jobs.insertEvent jobId kind step message trace now)
  polling : ∀ now handle (staging : Staging) timeoutAt, P _ _
    (guarded jobId (Jobs.Change.statement jobId now (.polling handle staging.toJson timeoutAt)))
  finish : ∀ pages source now, P _ _ (Pipeline.finishWith document jobId pages source now)
  recordFailure : ∀ e now, P _ _ (Pipeline.recordFailure document jobId e now)

/-- A kind that has every transaction of a generation job but those about versions and artifacts. -/
structure Generates (P : TxnKind) (jobId : String) : Prop where
  running : ∀ now, P _ _ (guarded jobId (Jobs.Change.statement jobId now .running))
  completed : ∀ now result, P _ _ (guarded jobId (Jobs.Change.statement jobId now (.completed result)))
  failed : ∀ now message, P _ _ (guarded jobId (Jobs.Change.statement jobId now (.failed message)))
  note : ∀ kind step message trace now, P _ _ (Jobs.insertEvent jobId kind step message trace now)

theorem Checked.of_asks {c : Dialogue} {job : Job} (h : Checks c.issues job)
    (hasks : ∀ (β : Type) (e : Effect β), c.asks e) : Checked c job where
  watches := .of_asks hasks
  checks := h
  handles _ _ := ⟨hasks _ _, hasks _ _, fun _ _ _ _ => ⟨hasks _ _, hasks _ _⟩⟩

variable {c : Dialogue} {jobId documentId : String}

/-! ### The ledger -/

namespace Ledger
variable (hclock : c.asks .clock)
include hclock

theorem atNow_abides {α : Type} {t : Instant → Txn JobError α} (ht : ∀ now, c.issues _ _ (t now)) :
    (atNow t).Abides c fun _ => True :=
  .bind (inquire (e := .clock) hclock) fun now _ => issue (ht now)

theorem addEvent_abides (hnote : ∀ kind step message trace now,
      c.issues _ _ (Jobs.insertEvent jobId kind step message trace now)) (kind : EventKind)
    (step : Option String) (message : String) (trace : Option String) :
    (addEvent jobId kind step message trace).Abides c fun _ => True :=
  .bind (inquire (e := .clock) hclock) fun _ _ => issue (hnote _ _ _ _ _)

theorem updateProgress_abides (hprogress : ∀ now done total percent step, c.issues _ _
      (guarded jobId (Jobs.Change.statement jobId now (.progressed done total percent step))))
    (done total : UInt32) (step : String) :
    (updateProgress jobId done total step).Abides c fun _ => True :=
  atNow_abides hclock fun now => hprogress now.timestamp done total _ step

end Ledger

/-- What every job of an id has to show, the job that is found shows. -/
theorem Ledger.find_abides {I : Store → Prop} {Q : Job → Prop}
    (hfind : c.issues _ _ (Jobs.find jobId))
    (hQ : ∀ s, I s → ∀ r ∈ s.jobs, r.id = jobId → ∀ job, r.Shows job → Q job) :
    (find jobId).Abides (c.among I) Q := by
  refine .bind (R := fun found => ∀ job, found = some job → Q job)
    (transact hfind fun s hs => ?_) fun found hfound => ?_
  · refine Jobs.find_wp (fun _ h => nomatch h) (fun r hr hid job hshows => ?_) fun _ => trivial
    rintro _ ⟨⟩
    exact hQ s hs r hr hid job hshows
  · cases found with
    | none => exact .throw _
    | some job => exact .pure (hfound job rfl)

/-! ### Collecting -/

namespace Pipeline
variable (p : Pipeline)

theorem readShards_abides {keys : List String} (hget : ∀ key ∈ keys, c.asks (.get key)) :
    (readShards keys).Abides c fun _ => True := by
  induction keys with
  | nil => exact .pure trivial
  | cons key rest ih =>
    refine .bind (demand (e := .get key) (hget key List.mem_cons_self)) fun content _ => ?_
    refine .bind (ofExcept fun _ _ => trivial) fun pages _ => ?_
    exact .bind (ih fun key h => hget key (List.mem_cons_of_mem _ h)) fun _ _ => .pure trivial

theorem deleteObjects_abides (last : Option StorageError) {keys : List String}
    (hdelete : ∀ key ∈ keys, c.asks (.delete key)) :
    (deleteObjects last keys).Abides c fun _ => True := by
  induction keys generalizing last with
  | nil => exact .pure trivial
  | cons key rest ih =>
    have hrest := fun key h => hdelete key (List.mem_cons_of_mem _ h)
    refine .bind (inquire (e := .delete key) (hdelete key List.mem_cons_self)) fun o _ => ?_
    cases o with
    | ok _ => exact ih last hrest
    | error e => exact ih (some e) hrest

section
variable (htends : c.Tends)
include htends

theorem deleteFiles_abides (hnote : ∀ kind step message trace now,
      c.issues _ _ (Jobs.insertEvent jobId kind step message trace now)) {keys : List String}
    (hdelete : ∀ key ∈ keys, c.asks (.delete key)) :
    (deleteFiles jobId keys).Abides c fun _ => True := by
  refine .bind (deleteObjects_abides none hdelete) fun last _ => ?_
  cases last with
  | none => exact .pure trivial
  | some e =>
    have hreport := Ledger.addEvent_abides htends.clock hnote .warning (some "cleanup")
      ("Temporary OCR files were not fully deleted" ++ ": " ++ Failure.message e)
      (some (Failure.trace e))
    exact .bind hreport.widen fun _ _ => .pure trivial

variable (h : Collects c.issues jobId documentId)
include h

theorem cleanPages_abides (pages : List Ocr.Page) :
    Run.Abides (ε := PipelineError) c (fun _ => True) (ExceptT.lift (p.cleanPages jobId pages)) := by
  have hsteady : Cleanup.Steady c.reading (fun _ _ => True) (fun _ => True) jobId :=
    { begin := fun _ _ _ _ _ _ hK => ⟨htends.begins _ _ _, fun b _ => hK b () (fun _ _ => trivial) trivial⟩
      await := fun _ _ _ _ _ hK => ⟨htends.awaits _ _, fun b _ => hK b () trivial trivial⟩
      progress := fun done total _ _ =>
        iff_leads.mp (Ledger.updateProgress_abides htends.clock h.progress done total "cleaning") }
  exact lift (Flow.Abides.iff_leads.mpr
    ((cleanPages_leads p pages hsteady () trivial).mono fun _ _ _ => trivial))

theorem storeBatches_abides (batch total stored left : Nat) (pages : List NewPage) :
    (storeBatches jobId documentId batch total stored left pages).Abides c fun _ => True := by
  induction left generalizing stored pages with
  | zero => exact .pure trivial
  | succ left ih =>
    cases pages with
    | nil => exact .pure trivial
    | cons page rest =>
      refine .bind (inquire (e := .clock) htends.clock) fun now _ => ?_
      refine .bind (issue (h.storePages now.timestamp _)) fun _ _ => ?_
      refine .bind (Ledger.updateProgress_abides htends.clock h.progress _ _ "saving").widen fun _ _ => ?_
      exact ih _ _

theorem collect_abides {keys : List String} (hget : ∀ key ∈ keys, c.asks (.get key)) :
    (p.collect jobId documentId keys).Abides c fun _ => True :=
  .bind (readShards_abides hget) fun _ _ => .bind (p.cleanPages_abides htends h _) fun cleaned _ =>
    .bind (storeBatches_abides htends h _ _ _ _ cleaned) fun _ _ => .pure trivial

omit htends in
theorem alreadyCollected_abides : (alreadyCollected documentId).Abides c fun _ => True :=
  .bind (issue h.listPages) fun _ _ => .pure trivial

theorem gather_abides {keys : List String} (hget : ∀ key ∈ keys, c.asks (.get key)) :
    (p.gather jobId documentId keys).Abides c fun _ => True := by
  unfold gather
  split
  · exact alreadyCollected_abides h
  · exact p.collect_abides htends h hget

end

/-! ### Checking -/

section
variable {job : Job} (h : Checked c job)
include h

theorem fail_abides (message : String) (detail : Option String) :
    (fail job message detail).Abides c fun _ => True :=
  .bind (inquire (e := .clock) h.watches.clock) fun now _ =>
    .bind (issue (h.checks.failJob message detail now.timestamp)) fun _ _ => .pure trivial

theorem close_abides (hdoc : documentOf job = .ok documentId) {inputKey : String}
    {keys : List String} (hdelete : ∀ key ∈ inputKey :: keys, c.asks (.delete key))
    (collected : Collected) :
    (close job.id documentId inputKey keys collected).Abides c fun _ => True :=
  .bind (deleteFiles_abides h.watches.toTends h.checks.note hdelete) fun cleanupFailed _ =>
    .bind (inquire (e := .clock) h.watches.clock) fun now _ =>
      .bind (issue (h.checks.complete documentId hdoc collected cleanupFailed now.timestamp))
        fun _ _ => .pure trivial

theorem finalize_abides : (p.finalize job).Abides c fun _ => True := by
  rw [finalize_eq]
  refine .bind (ofExcept fun _ h => h) fun staging hstaging => ?_
  refine .bind (ofExcept fun _ h => h) fun documentId hdoc => ?_
  have hhandles := h.handles staging hstaging
  refine .bind (request (e := .list staging.outputFolder) hhandles.list fun _ h => h)
    fun found hfound => ?_
  have hkeys : ∀ key ∈ found.filter Ocr.Shard.isShardKey, c.asks (.get key) ∧ c.asks (.delete key) :=
    fun key hkey => hhandles.found found hfound key (List.mem_of_mem_filter hkey)
  have hcollects := h.checks.collects documentId hdoc
  refine .bind (p.gather_abides h.watches.toTends hcollects fun key hkey => (hkeys key hkey).1)
    fun collected _ => close_abides h hdoc (fun key hkey => ?_) collected
  rcases List.mem_cons.mp hkey with rfl | hkey
  · exact hhandles.input
  · exact (hkeys key hkey).2

theorem settle_abides (o : Except PipelineError JobReport) :
    (settle job o).Abides c fun _ => True := by
  cases o with
  | ok report => exact .pure trivial
  | error e =>
    unfold settle
    dsimp only
    split
    · exact .bind (fail_abides h _ _) fun _ _ => .throw e
    · exact .throw e

theorem proceed_abides (state : Ocr.OperationStatus) :
    (p.proceed job state).Abides c fun _ => True := by
  unfold proceed
  split
  · have halive : (p.ledger.signalAlive job.id).Abides c fun _ => True :=
      Ledger.atNow_abides h.watches.clock fun now => h.checks.alive now.timestamp _
    exact .bind halive.widen fun _ _ => .pure trivial
  · split
    · exact fail_abides h _ none
    · exact .bind (p.finalize_abides h).outcome fun o _ => settle_abides h o

/-- A check on a job asks for what belongs to it only. -/
theorem check_abides : (p.check job).Abides c fun _ => True := by
  unfold check
  split
  · exact fail_abides h _ none
  case h_2 handle _ =>
    refine .bind (inquire (e := .status handle) (h.watches.status handle)) fun o _ => ?_
    cases o with
    | ok state => exact p.proceed_abides h state
    | error e =>
      have hreport := Ledger.addEvent_abides h.watches.clock h.checks.note .warning (some "poll")
        ("Operation status check failed" ++ ": " ++ Failure.message e) (some (Failure.trace e))
      exact .bind hreport.widen fun _ _ => .throw _

end

section
variable {Q : Job → Prop} (hfind : (Ledger.find jobId).Abides c Q) (hQ : ∀ job, Q job → Checked c job)
include hfind hQ

theorem poll_abides : (p.poll jobId).Abides c fun _ => True := by
  refine .bind hfind.widen fun job hjob => ?_
  split
  · exact ofExcept fun _ _ => trivial
  · refine .bind (ofExcept fun _ _ => trivial) fun jobType _ => ?_
    split
    · exact ofExcept fun _ _ => trivial
    · exact p.check_abides (hQ job hjob)

theorem giveUp_abides : (p.giveUp jobId).Abides c fun _ => True := by
  refine .bind hfind.widen fun job hjob => ?_
  split
  · exact ofExcept fun _ _ => trivial
  · exact fail_abides (hQ job hjob) _ none

theorem waitFor_abides (left : Nat) : (p.waitFor jobId left).Abides c fun _ => True := by
  induction left with
  | zero => exact p.giveUp_abides hfind hQ
  | succ left ih =>
    rw [waitFor_succ]
    refine .bind hfind.widen fun job hjob => ?_
    have hagain : (p.again jobId left).Abides c fun _ => True := by
      unfold again
      split
      · exact .bind (inquire (e := .sleep p.settings.pollIntervalMillis) ((hQ job hjob).watches.sleep _))
          fun _ _ => ih
      · exact .bind (.pure (a := ()) (Q := fun _ => True) trivial) fun _ _ => ih
    split
    · exact ofExcept fun _ _ => trivial
    · refine .bind (p.check_abides (hQ job hjob)).outcome fun o _ => ?_
      cases o with
      | ok report =>
        dsimp only
        split
        · exact .pure trivial
        · exact hagain
      | error e => exact hagain

theorem wait_abides : (p.wait jobId).Abides c fun _ => True := by
  refine .bind hfind.widen fun job _ => ?_
  refine .bind (ofExcept fun _ _ => trivial) fun jobType _ => ?_
  split
  · exact .throw _
  · exact p.waitFor_abides hfind hQ _

end

/-! ### Ingestion -/

section
variable {most : Nat} (hasks : c.Ingests most)
include hasks

/-- What is read of an upload is not more than was allowed. -/
theorem readUpload_abides (r : Upload.Reference) (limit : Nat) :
    (readUpload r limit).Abides c fun content => content.size ≤ limit := by
  refine .bind (lift (Q := fun o => ∀ content, o = .ok content → content.size ≤ limit) ?_)
    fun o ho => ofExcept ho
  unfold Upload.readAll
  split
  · exact Flow.Abides.pure nofun
  · refine Flow.Abides.bind (Flow.Abides.inquire (e := .openUpload r) (hasks.others _ _ rfl))
      fun o _ => ?_
    cases o with
    | ok stream =>
      have hempty : ByteArray.empty.size ≤ limit := Nat.zero_le limit
      exact Flow.Abides.pure fun content hcontent => Upload.size_le_of_gather hempty hcontent
    | error e => exact Flow.Abides.pure nofun

theorem submit_abides (s : Staging) : (submit s).Abides c fun _ => True := by
  refine .bind (inquire (e := .submit s.inputUri s.mime s.outputUri) (hasks.others _ _ rfl)) fun o _ => ?_
  cases o with
  | ok handle => exact .pure trivial
  | error e => exact .bind (inquire (e := .delete s.inputKey) (hasks.others _ _ rfl)) fun _ _ => .throw _

theorem note_abides (hnote : ∀ kind step message trace now,
      c.issues _ _ (Jobs.insertEvent jobId kind step message trace now)) (kind : EventKind)
    (step : Option String) (message : String) (trace : Option String) :
    Run.Abides (ε := PipelineError) c (fun _ => True)
      (Run.widen (Ledger.addEvent jobId kind step message trace)) :=
  (Ledger.addEvent_abides (hasks.others _ _ rfl) hnote kind step message trace).widen

theorem ownText_abides (hnote : ∀ kind step message trace now,
      c.issues _ _ (Jobs.insertEvent jobId kind step message trace now)) (r : Upload.Reference) :
    (p.ownText jobId r).Abides c fun _ => True := by
  refine .bind (readUpload_abides hasks r _) fun content _ => ?_
  refine .bind (inquire (e := .extract content) (hasks.others _ _ rfl)) fun o _ => ?_
  cases o with
  | error e => exact .bind (note_abides hasks hnote _ _ _ _) fun _ _ => .pure trivial
  | ok pages =>
    dsimp only
    split
    · exact .pure trivial
    · exact .bind (note_abides hasks hnote _ _ _ _) fun _ _ => .pure trivial

variable {document : Document} (h : Works c.issues document jobId)
include h

theorem finish_abides (pages : List NewPage) (source : String) :
    (finish document jobId pages source).Abides c fun _ => True :=
  .bind (inquire (e := .clock) (hasks.others _ _ rfl)) fun now _ =>
    .bind (issue (h.finish pages source now.timestamp)) fun _ _ => .pure trivial

theorem advance_abides (done total : UInt32) (step : String) :
    Run.Abides (ε := PipelineError) c (fun _ => True)
      (Run.widen (Ledger.updateProgress jobId done total step)) :=
  (Ledger.updateProgress_abides (hasks.others _ _ rfl) h.progress done total step).widen


theorem conclude_abides (o : Except PipelineError Ingestion) :
    (conclude document jobId o).Abides c fun _ => True := by
  cases o with
  | ok outcome => exact .pure trivial
  | error e =>
    refine .bind (inquire (e := .clock) (hasks.others _ _ rfl)) fun now _ => ?_
    have hrecord : Run.Abides (ε := PipelineError) c (fun _ => True)
        (Run.perform (.transact (recordFailure document jobId e now.timestamp))) :=
      inquire (h.recordFailure e now.timestamp)
    exact .bind hrecord fun _ _ => .throw e

end

section
variable (hasks : c.Ingests p.settings.syncSizeLimit) {document : Document}
  (h : Works c.issues document jobId)
include hasks h

theorem recognizeNow_abides (r : Upload.Reference) (mime : String) :
    (p.recognizeNow document jobId r mime).Abides c fun _ => True :=
  .bind (advance_abides hasks h 0 1 "ocr") fun _ _ =>
    .bind (readUpload_abides hasks r _) fun content hsize =>
      .bind (demand (e := .recognize content mime) (hasks.recognizes content mime hsize)) fun _ _ =>
        finish_abides hasks h _ "ocr_sync"

variable (hwait : (p.wait jobId).Abides c fun _ => True)
include hwait

theorem dispatch_abides (r : Upload.Reference) (mime : String) :
    (p.dispatch document jobId r mime).Abides c fun _ => True := by
  refine .bind (inquire (e := .clock) (hasks.others _ _ rfl)) fun now _ => ?_
  refine .bind (advance_abides hasks h 0 1 "staging") fun _ _ => ?_
  refine .bind (demand (e := .openUpload r) (hasks.others _ _ rfl)) fun body _ => ?_
  refine .bind (demand (e := .put _ body mime) (hasks.others _ _ rfl)) fun _ _ => ?_
  refine .bind (submit_abides hasks _) fun handle _ => ?_
  have hpolling (staging : Staging) :
      (p.ledger.markPolling jobId handle staging.toJson).Abides c fun _ => True :=
    Ledger.atNow_abides (hasks.others _ _ rfl) fun now => h.polling now.timestamp handle staging _
  refine .bind (hpolling _).widen fun _ _ => ?_
  refine .bind (note_abides hasks h.note _ _ _ _) fun _ _ => ?_
  split
  · exact .pure trivial
  · exact .bind hwait fun _ _ => .pure trivial

theorem recognize_abides (fileType : FileType) (r : Upload.Reference) :
    (p.recognize document jobId fileType r).Abides c fun _ => True := by
  unfold recognize
  dsimp only
  split
  · exact p.dispatch_abides hasks h hwait r _
  · exact p.recognizeNow_abides hasks h r _

theorem extract_abides : (p.extract document jobId).Abides c fun _ => True := by
  refine .bind (ofExcept fun _ _ => trivial) fun fileType _ => ?_
  refine .bind (demand (e := .reference document.storagePath _) (hasks.others _ _ rfl)) fun r _ => ?_
  dsimp only
  split
  · refine .bind (advance_abides hasks h 0 1 "native_extraction") fun _ _ => ?_
    refine .bind (p.ownText_abides hasks h.note r) fun texts _ => ?_
    cases texts with
    | some texts => exact finish_abides hasks h _ "native"
    | none => exact p.recognize_abides hasks h hwait fileType r
  · exact p.recognize_abides hasks h hwait fileType r

end

/-- What an ingestion does after it has taken the lock. -/
def goOn (p : Pipeline) (document : Document) (jobId : String) : Run PipelineError Ingestion := do
  Run.widen (Ledger.markRunning jobId)
  conclude document jobId (← Run.outcome (p.extract document jobId))

theorem ingest_eq (p : Pipeline) (documentId ownerId : String) :
    p.ingest documentId ownerId = (do
      let id ← Run.freshId
      let now ← Run.clock
      let (document, job) ←
        Run.transact (lockDocument documentId ownerId id now p.ledger.heartbeat)
      p.goOn document job.id) := rfl

section
variable (hasks : c.Ingests p.settings.syncSizeLimit)
include hasks

theorem goOn_abides {document : Document} (h : Works c.issues document jobId)
    (hwait : (p.wait jobId).Abides c fun _ => True) :
    (p.goOn document jobId).Abides c fun _ => True := by
  have hrunning : (Ledger.markRunning jobId).Abides c fun _ => True :=
    Ledger.atNow_abides (hasks.others _ _ rfl) fun now => h.running now.timestamp
  refine .bind hrunning.widen fun _ _ => ?_
  exact .bind (p.extract_abides hasks h hwait).outcome fun o _ => conclude_abides hasks h o

theorem ingest_abides {documentId ownerId : String} {Q : Document × Job → Prop}
    (hlock : ∀ id now, Run.Abides (ε := PipelineError) c Q
      (Run.transact (lockDocument documentId ownerId id now p.ledger.heartbeat)))
    (h : ∀ locked, Q locked → Works c.issues locked.1 locked.2.id)
    (hwait : ∀ locked, Q locked → (p.wait locked.2.id).Abides c fun _ => True) :
    (p.ingest documentId ownerId).Abides c fun _ => True := by
  rw [ingest_eq]
  refine .bind (inquire (e := .freshId) (hasks.others _ _ rfl)) fun id _ => ?_
  refine .bind (inquire (e := .clock) (hasks.others _ _ rfl)) fun now _ => ?_
  exact .bind (hlock id now) fun locked hlocked =>
    p.goOn_abides hasks (h locked hlocked) (hwait locked hlocked)

end
end Pipeline

/-! ### Questions -/

/-- What is generated for a job is on the version that is found for it. -/
theorem GenerationJob.generate_abides {R : GenerationJobParams → Version → Prop} {job : Job}
    (hfind : ∀ p, paramsOf job = .ok p → Run.Abides (ε := PipelineError) c
      (fun found => ∀ v, found = some v → R p v) (Run.transact (Versions.find p.versionId)))
    (hgenerate : ∀ p v, paramsOf job = .ok p → R p v → Run.Abides c (fun _ => True)
      (QuestionCache.getOrGenerate job.ownerId (some v.documentId) v.joinedText p.questions)) :
    (generate job).Abides c fun o => ∃ p v, paramsOf job = .ok p ∧ R p v ∧ o.versionId = v.id := by
  refine .bind (ofExcept fun _ h => h) fun p hp => ?_
  refine .bind (hfind p hp) fun found hfound => ?_
  cases found with
  | none => exact .throw _
  | some v =>
    have hv := hfound v rfl
    exact .bind (hgenerate p v hp hv).widen fun _ _ => .pure ⟨p, v, hp, hv, rfl⟩

theorem QuestionCache.withIds_abides {ε γ : Type} (hids : c.asks .freshId) (things : List γ) :
    (withIds things : Run ε _).Abides c fun _ => True := by
  induction things with
  | nil => exact .pure trivial
  | cons a rest ih =>
    exact .bind (inquire (e := .freshId) hids) fun id _ => .bind ih fun _ _ => .pure trivial

section
variable (hclock : c.asks .clock)
include hclock

theorem QuestionCache.getOrGenerate_abides (hids : c.asks .freshId) {ownerId : String}
    {documentId : Option String} {text : String} {q : QuestionParams}
    (hgenerate : c.asks (.generate text q))
    (hfind : ∀ fingerprint, c.issues _ _ (Artifacts.find ownerId fingerprint))
    (hstore : ∀ fingerprint now named, c.issues _ _ (Artifacts.insertAll
      (artifactsOf ownerId documentId fingerprint q now named))) :
    (getOrGenerate ownerId documentId text q).Abides c fun _ => True := by
  refine .bind (ofExcept fun _ _ => trivial) fun _ _ => ?_
  refine .bind (issue (hfind _)) fun kept _ => ?_
  split
  · exact .bind (ofExcept fun _ _ => trivial) fun _ _ => .pure trivial
  · refine .bind (demand (e := .generate text q) hgenerate) fun questions _ => ?_
    refine .bind (inquire (e := .clock) hclock) fun now _ => ?_
    refine .bind (withIds_abides hids questions) fun named _ => ?_
    exact .bind (issue (hstore _ now.timestamp named)) fun _ _ => .pure trivial

namespace GenerationJob
variable {R : GenerationOutcome → Prop} (h : Generates c.issues jobId)
include h

theorem settle_abides {o : Except PipelineError GenerationOutcome} (ho : ∀ out, o = .ok out → R out) :
    (settle jobId o).Abides c R := by
  cases o with
  | ok out =>
    have hcompleted : (Ledger.markCompleted jobId (some (summary out))).Abides c fun _ => True :=
      Ledger.atNow_abides hclock fun now => h.completed now.timestamp _
    have hnote := Ledger.addEvent_abides hclock h.note .info (some "generate")
      s!"Generated {out.questions.length} questions" none
    exact .bind hcompleted.widen fun _ _ => .bind hnote.widen fun _ _ => .pure (ho out rfl)
  | error e =>
    have hfailed : (Ledger.markFailed jobId e.publicMessage).Abides c fun _ => True :=
      Ledger.atNow_abides hclock fun now => h.failed now.timestamp _
    have hreport := Ledger.addEvent_abides hclock h.note .error (some "generate")
      ("Question generation failed" ++ ": " ++ Failure.message e) (some (Failure.trace e))
    exact .bind hfailed.widen fun _ _ => .bind hreport.widen fun _ _ => .throw e

/-- What a run of a job comes to is what was generated for it. -/
theorem run_abides {Q : Job → Prop} (hfind : (Ledger.find jobId).Abides c Q)
    (hgenerate : ∀ job, Q job → job.type = .ok .generateQuestions → (generate job).Abides c R) :
    (run jobId).Abides c R := by
  refine .bind hfind.widen fun job hjob => ?_
  refine .bind (ofExcept fun _ h => h) fun jobType htype => ?_
  dsimp only
  split
  · exact throw_bind
  case isFalse hkind =>
    have hkind' : jobType = .generateQuestions := by simpa using hkind
    have hlast : Run.Abides c R (do settle jobId (← Run.outcome (generate job))) :=
      .bind (hgenerate job hjob (hkind' ▸ htype)).outcome fun o ho => settle_abides hclock h ho
    split
    · exact throw_bind
    · split
      · have hstart : (Ledger.markRunning jobId).Abides c fun _ => True :=
          Ledger.atNow_abides hclock fun now => h.running now.timestamp
        exact .bind hstart.widen fun _ _ => hlast
      · exact hlast

end GenerationJob
end
end Quire
