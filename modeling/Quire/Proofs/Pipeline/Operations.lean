import Quire.Proofs.Flow.Triples
import Quire.Proofs.Pipeline.Arrivals

/-! What the operations leave behind.

Between operations documents and jobs agree, and every extraction that has not ended is polled.
Each operation starts from that and comes back to it, by a result or by a failure; what lasts, it
leaves alone. An ingestion is the one that has an extraction under way in between. -/
namespace Quire
open Txn Run.Takes

/-- Nothing is under way. -/
def Store.Resting (X : Store → Prop) (s : Store) : Prop := s.Calm none ∧ X s

/-- At rest the run comes back to rest. -/
abbrev Run.Rests {ε α : Type} (X : Store → Prop) (r : Run ε α) : Prop :=
  r.Takes .free Store.Linked (Store.Resting X) (fun _ => Store.Resting X) fun _ => Store.Resting X

variable {X : Store → Prop} {α ε ε' : Type}

theorem Store.Resting.linked {s : Store} (h : s.Resting X) : s.Linked := h.1.toLinked

/-- What keeps stores at rest, comes back to rest. -/
theorem Run.Rests.of_keeps {K : TxnKind} {r : Run ε α} (hr : r.Issues K)
    (hK : ∀ {ε α : Type} {t : Txn ε α}, K ε α t → t.Keeps (Store.Resting X)) : r.Rests X :=
  .of_issues hr hK fun _ h => h.linked

theorem Run.Rests.of_harmless (hX : Durable X) {r : Run ε α} (hr : r.Issues Harmless) :
    r.Rests X := .of_keeps hr hX.spared.keeps

/-- A transaction comes back to rest if it keeps stores at rest. -/
theorem Run.Rests.transact [Widen StoreError ε] [Widen ε ε'] {t : Txn ε α} (ht : t.Keeps (Store.Resting X)) :
    Run.Rests X (Run.transact t : Run ε' α) :=
  Run.Takes.transact fun s hs => wp_mono (ht s hs) (fun _ _ h => ⟨h.linked, h⟩) fun _ _ => hs

theorem Run.Rests.outcome {r : Run ε α} (h : r.Rests X) :
    Run.Rests X (Run.outcome r : Run ε' (Except ε α)) :=
  Run.Takes.outcome h

/-! ### Looking a job up -/

/-- A job as it is read while documents and jobs agree. -/
structure Job.InOrder (job : Job) : Prop where
  kind : job.jobType = Label.word JobType.documentExtract ↔ job.documentId.isSome = true
  handle : job.status = .polling → job.operationHandle.isSome = true
  staging : job.status = .polling → ∃ staging, Pipeline.stagingOf job = .ok staging
  document : job.status = .polling → ∃ d, Pipeline.documentOf job = .ok d

theorem JobRow.Kept.inOrder {r : JobRow} (h : r.Kept) {job : Job} (hjob : r.Shows job) :
    job.InOrder := by
  have hkind : job.jobType = Label.word JobType.documentExtract ↔
      job.documentId.isSome = true := by
    rw [hjob.jobType, hjob.documentId, ← h.document]
    exact beq_iff_eq.symm
  refine ⟨hkind, fun hpolling => ?_, fun hpolling => ?_, fun hpolling => ?_⟩
  · rw [hjob.operationHandle]
    exact h.handle (hjob.status ▸ hpolling)
  · obtain ⟨params, staging, hparams, hstaging⟩ := h.staging (hjob.status ▸ hpolling)
    obtain rfl : params = job.params := Except.ok.inj (hparams.symm.trans hjob.params)
    exact ⟨staging, by simp [Pipeline.stagingOf, hstaging]⟩
  · have hsome := h.document.mp (h.polled (hjob.status ▸ hpolling))
    obtain ⟨d, hd⟩ := Option.isSome_iff_exists.mp (hjob.documentId ▸ hsome)
    exact ⟨d, by simp [Pipeline.documentOf, hd]⟩

/-- A job that has been looked up is in order, and is still there later. -/
theorem Ledger.find_bind {jobId : String} {k : Job → Run PipelineError α}
    (hk : ∀ job, job.id = jobId → job.InOrder →
      (k job).Rests fun s => X s ∧ s.HasJobOn job.id job.documentId) :
    Run.Rests X (Run.widen (find jobId) >>= k) := by
  have hfind : (find jobId).Takes .free Store.Linked (Store.Resting X)
      (fun job s => (s.Resting fun s => X s ∧ s.HasJobOn job.id job.documentId) ∧
        job.id = jobId ∧ job.InOrder) fun _ => Store.Resting X := by
    refine Run.Takes.bind (R := fun found s => s.Resting X ∧ ∀ job, found = some job →
      s.HasJobOn job.id job.documentId ∧ job.id = jobId ∧ job.InOrder) (.transact fun s hs => ?_) ?_
    · refine Jobs.find_wp ?_ (fun r hr hid job hjob => ?_) fun _ => hs
      · exact ⟨hs.linked, hs, fun _ h => nomatch h⟩
      · refine ⟨hs.linked, hs, fun job' h => ?_⟩
        obtain rfl := Option.some.inj h
        have hrow : s.HasJobOn job.id job.documentId := ⟨r, hr, hjob.id.symm, hjob.documentId.symm⟩
        exact ⟨hrow, hjob.id.trans hid, (hs.linked.rows r hr).inOrder hjob⟩
    · intro found
      cases found with
      | none => exact .throw fun s hs => hs.1
      | some job =>
        refine .pure fun s hs => ?_
        obtain ⟨hrow, hid, horder⟩ := hs.2 job rfl
        exact ⟨⟨hs.1.1, hs.1.2, hrow⟩, hid, horder⟩
  refine hfind.widen.bind fun job => ?_
  refine .learn (fun s hs => hs.2) fun ⟨hid, horder⟩ => ?_
  refine (hk job hid horder).conseq (fun s hs => hs.1) ?_ ?_
  · exact fun _ s hs => ⟨hs.1, hs.2.1⟩
  · exact fun _ s hs => ⟨hs.1, hs.2.1⟩

/-! ### Checks -/

namespace Pipeline
variable (p : Pipeline) {job : Job} {jobId : String}

/-- What a check on a job of a document may do, while that job is there. -/
theorem checks_rest (hX : Durable X) {d : String} (hdoc : job.documentId = some d)
    (hjob : ∀ s, X s → s.HasJobOn job.id (some d)) :
    Checks (fun _ _ t => t.Keeps (Store.Resting X)) job := by
  refine .of_harmless hX.spared.keeps (failJob_calm hX hdoc hjob) fun documentId hdocument => ?_
  unfold documentOf at hdocument
  rw [hdoc] at hdocument
  obtain rfl := Except.ok.inj hdocument
  exact completeJob_calm hX hjob

theorem checks_found (hX : Durable X) (horder : job.InOrder) (hpolling : job.status = .polling) :
    Checks (fun _ _ t => t.Keeps (Store.Resting fun s => X s ∧ s.HasJobOn job.id job.documentId))
      job := by
  obtain ⟨d, hd⟩ := horder.document hpolling
  have hdoc : job.documentId = some d := by
    unfold documentOf at hd
    split at hd
    case h_1 h => rw [h, Except.ok.inj hd]
    case h_2 => cases hd
  rw [hdoc]
  exact checks_rest (hX.and (Durable.hasJobOn job.id (some d))) hdoc fun s hs => hs.2

theorem poll_rests (hX : Durable X) : (p.poll jobId).Rests X := by
  refine Ledger.find_bind fun job _ horder => ?_
  split
  case isTrue => exact .ofExcept _
  case isFalse hpolling =>
    refine .ofExcept_bind (fun _ _ _ hs => hs) fun jobType _ => ?_
    split
    · exact .ofExcept _
    · exact Run.Rests.of_keeps (p.check_issues (checks_found hX horder (by simpa using hpolling))) id

theorem giveUp_rests (hX : Durable X) : (p.giveUp jobId).Rests X := by
  refine Ledger.find_bind fun job _ horder => ?_
  split
  case isTrue => exact .ofExcept _
  case isFalse hpolling =>
    exact Run.Rests.of_keeps (fail_issues (checks_found hX horder (by simpa using hpolling)) _ _) id

theorem waitFor_rests (hX : Durable X) (left : Nat) : (p.waitFor jobId left).Rests X := by
  induction left generalizing X with
  | zero => exact p.giveUp_rests hX
  | succ left ih =>
    have hagain : ∀ {X}, Durable X → (p.again jobId left).Rests X := by
      intro X hX
      unfold again
      split
      · exact (perform (e := .sleep p.settings.pollIntervalMillis) rfl).bind fun _ => ih hX
      · exact (Run.Takes.pure (a := ()) fun _ hs => hs).bind fun _ => ih hX
    rw [waitFor_succ]
    refine Ledger.find_bind fun job _ horder => ?_
    split
    case isTrue => exact .ofExcept _
    case isFalse hpolling =>
      have hX' := hX.and (Durable.hasJobOn job.id job.documentId)
      have hcheck := p.check_issues (checks_found hX horder (by simpa using hpolling))
      refine (Run.Rests.of_keeps hcheck id).outcome.bind fun o => ?_
      cases o with
      | ok report =>
        dsimp only
        split
        · exact .pure fun _ hs => hs
        · exact hagain hX'
      | error e => exact hagain hX'

theorem wait_rests (hX : Durable X) : (p.wait jobId).Rests X := by
  refine Ledger.find_bind fun job _ _ => ?_
  refine .ofExcept_bind (fun _ _ _ hs => hs) fun jobType _ => ?_
  split
  · exact .throw fun _ hs => hs
  · exact p.waitFor_rests (hX.and (Durable.hasJobOn job.id job.documentId)) _

end Pipeline

/-! ### Ingestion -/

namespace Pipeline
variable (p : Pipeline) {document : Document} {jobId : String}

section UnderWay
variable {d : String}

/-- What is harmless leaves an extraction under way. -/
theorem extracts_of_harmless {r : Run ε α} (hr : r.Issues Harmless) :
    r.Takes .free Store.Linked (Store.Extracts jobId d) (fun _ => Store.Extracts jobId d)
      fun _ => Store.Extracts jobId d :=
  .of_issues hr (Durable.owns jobId d).spared.keeps fun _ h => h.1.toLinked

theorem progress_takes (done total : UInt32) (step : String) :
    Run.Takes .free Store.Linked (Store.Extracts jobId d) (fun _ => Store.Extracts jobId d)
      (fun _ => Store.Extracts jobId d)
      (Run.widen (Ledger.updateProgress jobId done total step) : Run PipelineError Unit) :=
  extracts_of_harmless (Ledger.updateProgress_harmless jobId done total step).widen

theorem finish_takes (hdocument : document.id = d) (pages : List NewPage) (source : String) :
    (finish document jobId pages source).Takes .free Store.Linked (Store.Extracts jobId d)
      (fun _ => Store.Calm none) fun _ => Store.Extracts jobId d := by
  refine (extracts_of_harmless Run.Issues.clock).bind fun now => ?_
  refine Run.Takes.bind (R := fun _ => Store.Calm none) (.transact fun s hs => ?_) fun _ => ?_
  · exact wp_mono (finishWith_extracts hs hdocument pages source now.timestamp)
      (fun _ _ h => ⟨h.toLinked, h⟩) fun _ _ => hs
  · exact .pure fun _ hs => hs

theorem recognizeNow_takes (hdocument : document.id = d) (r : Upload.Reference) (mime : String) :
    (p.recognizeNow document jobId r mime).Takes .free Store.Linked (Store.Extracts jobId d)
      (fun _ => Store.Calm none) fun _ => Store.Extracts jobId d := by
  refine (progress_takes 0 1 "ocr").bind fun _ => ?_
  refine (extracts_of_harmless (readUpload_issues r _)).bind fun content => ?_
  refine (request (e := .recognize content mime) rfl).bind fun text => ?_
  exact finish_takes hdocument _ "ocr_sync"

theorem markPolling_takes (l : Ledger) (handle : String) (staging : Staging) :
    (l.markPolling jobId handle staging.toJson).Takes .free Store.Linked (Store.Extracts jobId d)
      (fun _ => Store.Resting (Store.Owns jobId d)) fun _ => Store.Extracts jobId d := by
  refine (extracts_of_harmless Run.Issues.clock).bind fun now => .transact fun s hs => ?_
  exact wp_mono (markPolling_extracts hs handle now.timestamp (l.deadline now) staging)
    (fun _ _ h => ⟨h.1.toLinked, h⟩) fun _ _ => hs

/-- At rest, what has been under way may be taken up again. -/
theorem extracts_of_resting {s : Store} (h : s.Resting (Store.Owns jobId d)) :
    s.Extracts jobId d :=
  ⟨⟨h.1.toLinked, fun r hr hactive hkind => .inl ((h.1.polling r hr hactive hkind).resolve_right
    nofun)⟩, h.2⟩

theorem dispatch_takes (r : Upload.Reference) (mime : String) :
    (p.dispatch document jobId r mime).Takes .free Store.Linked (Store.Extracts jobId d)
      (fun _ => Store.Calm none) fun _ => Store.Extracts jobId d := by
  refine (extracts_of_harmless Run.Issues.clock).bind fun now => ?_
  refine (progress_takes 0 1 "staging").bind fun _ => ?_
  refine (request (e := .openUpload r) rfl).bind fun body => ?_
  refine (request (e := .put _ body mime) rfl).bind fun _ => ?_
  refine (extracts_of_harmless (submit_issues _)).bind fun handle => ?_
  refine (markPolling_takes p.ledger handle _).widen.bind fun _ => ?_
  -- From here on the job is polled, and whatever fails finds it as others would.
  refine Run.Takes.conseq (P := Store.Resting (Store.Owns jobId d))
    (Q := fun _ => Store.Resting (Store.Owns jobId d))
    (E := fun _ => Store.Resting (Store.Owns jobId d)) ?_ (fun _ hs => hs) (fun _ _ hs => hs.1)
    fun _ _ => extracts_of_resting
  refine Run.Takes.bind (Run.Rests.of_harmless (Durable.owns jobId d)
    (Ledger.addEvent_harmless jobId _ _ _ _).widen) fun _ => ?_
  split
  · exact .pure fun _ hs => hs
  · exact (p.wait_rests (Durable.owns jobId d)).bind fun _ => .pure fun _ hs => hs

theorem recognize_takes (hdocument : document.id = d) (fileType : FileType)
    (r : Upload.Reference) :
    (p.recognize document jobId fileType r).Takes .free Store.Linked (Store.Extracts jobId d)
      (fun _ => Store.Calm none) fun _ => Store.Extracts jobId d := by
  unfold recognize
  dsimp only
  split
  · exact p.dispatch_takes r _
  · exact p.recognizeNow_takes hdocument r _

theorem extract_takes (hdocument : document.id = d) :
    (p.extract document jobId).Takes .free Store.Linked (Store.Extracts jobId d)
      (fun _ => Store.Calm none) fun _ => Store.Extracts jobId d := by
  refine .ofExcept_bind (fun _ _ _ hs => hs) fun fileType _ => ?_
  refine (request (e := .reference document.storagePath _) rfl).bind fun r => ?_
  dsimp only
  split
  · refine (progress_takes 0 1 "native_extraction").bind fun _ => ?_
    refine (extracts_of_harmless (p.ownText_issues (.note jobId) r)).bind fun texts => ?_
    cases texts with
    | some texts => exact finish_takes hdocument _ "native"
    | none => exact p.recognize_takes hdocument fileType r
  · exact p.recognize_takes hdocument fileType r

/-- A failed ingestion is recorded, so that nothing is under way after it. -/
theorem conclude_takes (hdocument : document.id = d) (o : Except PipelineError Ingestion) :
    (conclude document jobId o).Takes .free Store.Linked
      (fun s => Either (fun _ => Store.Calm none) (fun _ => Store.Extracts jobId d) o s)
      (fun _ => Store.Calm none) fun _ => Store.Calm none := by
  cases o with
  | ok outcome => exact .pure fun _ hs => hs
  | error e =>
    refine (perform (e := .clock) rfl).bind fun now => ?_
    refine Run.Takes.bind (R := fun _ => Store.Calm none) (.attempt fun s hs => ?_) fun _ => ?_
    · exact wp_mono (recordFailure_extracts hs hdocument e now.timestamp)
        (fun _ _ h => ⟨h.toLinked, h⟩) nofun
    · exact .throw fun _ hs => hs

end UnderWay

/-- An ingestion comes back to rest, wherever it ends. -/
theorem ingest_takes (documentId ownerId : String) :
    (p.ingest documentId ownerId).Takes .free Store.Linked (Store.Calm none) (fun _ => Store.Calm none)
      fun _ => Store.Calm none := by
  refine (perform (e := .freshId) rfl).bind fun id => ?_
  refine (perform (e := .clock) rfl).bind fun now => ?_
  refine Run.Takes.bind (R := fun locked s => s.Extracts locked.2.id locked.1.id ∧
    ∃ r ∈ s.jobs, Jobs.isOpen locked.2.id r = true) (.transact fun s hs => ?_) ?_
  · exact wp_mono (lockDocument_wp hs ownerId id now p.ledger.heartbeat)
      (fun _ _ h => ⟨h.1.1.toLinked, h⟩) fun _ _ => hs
  · rintro ⟨document, job⟩
    refine Run.Takes.bind (R := fun _ => Store.Extracts job.id document.id) (.widen ?_) fun _ => ?_
    · refine (perform (e := .clock) rfl).bind fun now => .transact fun s hs => ?_
      exact wp_mono (markRunning_extracts hs.1 hs.2 now.timestamp)
        (fun _ _ h => ⟨h.1.toLinked, h⟩) nofun
    · refine Run.Takes.bind (.outcome ((p.extract_takes rfl).conseq (fun _ hs => hs) ?_ ?_))
        fun o => conclude_takes rfl o
      · exact fun _ _ hs => hs
      · exact fun _ _ hs => hs

/-! ### Documents -/

theorem register_rests (d : NewDocument) : (register d).Rests fun _ => True := by
  have hinsert : ∀ fileType id now,
      (Documents.insert (d.toDocument fileType id now)).Keeps (Store.Resting fun _ => True) :=
    fun fileType id now s hs => wp_mono
      (Documents.insertAs_calm (Label.word DocumentStatus.uploading) _ (by decide) s hs.1)
      (fun _ _ h => ⟨h, trivial⟩) fun _ h => h
  have hlast : ∀ fileType, Run.Rests (fun _ => True) (do
      let now ← Run.clock
      let id ← Run.freshId
      let document := d.toDocument fileType id now.timestamp
      Run.transact (Documents.insert document)
      return document : Run PipelineError Document) := by
    intro fileType
    refine (perform (e := .clock) rfl).bind fun now => (perform (e := .freshId) rfl).bind fun id => ?_
    exact (Run.Rests.transact (hinsert fileType id now.timestamp)).bind fun _ => .pure fun _ hs => hs
  unfold register
  dsimp only
  split
  · exact .throw_bind fun _ hs => hs
  · exact hlast _

theorem saveEdit_rests (documentId ownerId : String) (pageNo : UInt32) (text : Option String) :
    (saveEdit documentId ownerId pageNo text).Rests fun _ => True :=
  .of_harmless Durable.always (saveEdit_harmless documentId ownerId pageNo text)

theorem publish_rests (l : Ledger) (documentId ownerId : String) (o : PublishOptions) :
    (publish l documentId ownerId o).Rests fun _ => True := by
  have hpublish : Run.Rests (fun _ => True) (do
      let now ← Run.clock
      let ids : PublishIds := ⟨← Run.freshId, ← Run.freshId⟩
      Run.transact (publishDraft documentId ownerId o ids now l.heartbeat) :
        Run PipelineError Published) := by
    refine (perform (e := .clock) rfl).bind fun now => (perform (e := .freshId) rfl).bind fun version =>
      (perform (e := .freshId) rfl).bind fun job => Run.Rests.transact fun s hs => ?_
    exact wp_mono (publishDraft_calm documentId ownerId o ⟨version, job⟩ now l.heartbeat s hs.1)
      (fun _ _ h => ⟨h, trivial⟩) fun _ h => h
  unfold publish
  dsimp only
  split
  · exact .ofExcept_bind (fun _ _ _ hs => hs) fun _ _ => hpublish
  · exact hpublish

end Pipeline

/-! ### The sweep -/

namespace Sweep

theorem failEach_rests (hX : Durable X) (stamp : String) (jobs : List Job)
    (hjobs : ∀ job ∈ jobs, ∀ s, X s → s.HasJobOn job.id job.documentId) (r : SweepReport) :
    (failEach stamp r jobs).Rests X := by
  induction jobs generalizing r with
  | nil => exact .pure fun _ hs => hs
  | cons job rest ih =>
    have hfail := failJob_calm hX (hjobs job List.mem_cons_self) stamp
    refine (Run.Rests.transact hfail).bind fun failed => ih (fun j hj => ?_) _
    exact hjobs j (List.mem_cons_of_mem job hj)

theorem run_rests (now : Instant) : (run now).Rests fun _ => True := by
  refine Run.Takes.bind (R := fun jobs => Store.Resting fun s =>
    ∀ job : { job // job ∈ jobs }, s.HasJobOn job.1.id job.1.documentId) (.transact fun s hs => ?_)
    fun jobs => ?_
  · refine Jobs.listStale_wp (fun jobs hjobs => ⟨hs.linked, hs.1, fun ⟨job, hjob⟩ => ?_⟩) fun _ => hs
    obtain ⟨r, hr, hshows⟩ := hjobs job hjob
    exact ⟨r, hr, hshows.id.symm, hshows.documentId.symm⟩
  · have hX := Durable.all fun job : { job // job ∈ jobs } =>
      Durable.hasJobOn job.1.id job.1.documentId
    refine (failEach_rests hX now.timestamp jobs (fun job hjob s hs => hs ⟨job, hjob⟩) _).conseq
      (fun _ hs => hs) ?_ ?_
    · exact fun _ _ hs => ⟨hs.1, trivial⟩
    · exact fun _ _ hs => ⟨hs.1, trivial⟩

end Sweep

/-! ### Questions -/

namespace GenerationJob

theorem documentId_of_type {job : Job} (horder : job.InOrder)
    (htype : job.type = .ok .generateQuestions) : job.documentId = none := by
  have hword : job.jobType = Label.word JobType.generateQuestions :=
    (StoredKind.word_of_read htype).symm
  have hother : ¬ job.documentId.isSome = true := by
    rw [← horder.kind, hword, JobType.word_eq_iff]
    nofun
  simpa using hother

/-- A change of a job that is on no document. -/
theorem change_rests (jobId : String) (c : Instant → Jobs.Change)
    (hc : ∀ now, (c now).target? ≠ some .polling) :
    (Ledger.atNow fun now => guarded jobId ((c now).statement jobId now.timestamp)).Rests
      (Store.HasJobOn jobId none) := by
  refine (perform (e := .clock) rfl).bind fun now => Run.Rests.transact ?_
  exact Jobs.detached_calm (.hasJobOn jobId none) (fun _ hs => hs) now.timestamp (c now) (hc now)

theorem settle_rests (jobId : String) (o : Except PipelineError GenerationOutcome) :
    (settle jobId o).Rests (Store.HasJobOn jobId none) := by
  have hX := Durable.hasJobOn jobId none
  cases o with
  | ok o =>
    have hcompleted := change_rests jobId (fun _ => .completed (some (summary o))) nofun
    refine hcompleted.widen.bind fun _ => ?_
    refine Run.Takes.bind (Run.Rests.of_harmless hX ?_) fun _ => .pure fun _ hs => hs
    exact (Ledger.addEvent_harmless jobId _ _ _ _).widen
  | error e =>
    have hfailed := change_rests jobId (fun _ => .failed e.publicMessage) nofun
    refine hfailed.widen.bind fun _ => ?_
    refine Run.Takes.bind (Run.Rests.of_harmless hX ?_) fun _ => .throw fun _ hs => hs
    exact (Ledger.addEvent_harmless jobId _ _ _ _).widen

theorem run_rests (jobId : String) : (run jobId).Rests fun _ => True := by
  refine Ledger.find_bind fun job hid horder => ?_
  refine .ofExcept_bind (fun _ _ _ hs => hs) fun jobType htype => ?_
  dsimp only
  split
  case isTrue => exact .throw_bind fun _ hs => hs
  case isFalse hkind =>
    have hkind' : jobType = .generateQuestions := by simpa using hkind
    have hdoc := documentId_of_type horder (hkind' ▸ htype)
    rw [hdoc, hid]
    have hlast : Run.Rests (Store.HasJobOn jobId none) (do
        settle jobId (← Run.outcome (generate job)) : Run PipelineError GenerationOutcome) :=
      (Run.Rests.of_harmless (.hasJobOn jobId none) (generate_harmless job)).outcome.bind fun o =>
        settle_rests jobId o
    have hstart := change_rests jobId (fun _ => .running) nofun
    refine Run.Takes.conseq (P := Store.Resting (Store.HasJobOn jobId none))
      (Q := fun _ => Store.Resting (Store.HasJobOn jobId none))
      (E := fun _ => Store.Resting (Store.HasJobOn jobId none)) ?_ (fun s hs => ⟨hs.1, hs.2.2⟩)
      (fun _ s hs => ⟨hs.1, trivial, hs.2⟩) fun _ s hs => ⟨hs.1, trivial, hs.2⟩
    split
    · exact .throw_bind fun _ hs => hs
    · split
      · exact hstart.widen.bind fun _ => hlast
      · exact hlast

end GenerationJob
end Quire
