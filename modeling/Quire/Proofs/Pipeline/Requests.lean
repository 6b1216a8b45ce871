import Quire.Proofs.Pipeline.Conduct

/-! What the operations ask of the store.

All operations issue known transactions only, and many parts of them harmless ones; so what the
known transactions keep is kept by the operations, however these take turns. Each operation is
followed for every kind that has its transactions, and the known ones are such a kind. -/
namespace Quire
variable {P : TxnKind} {S : String → Prop}

open Run.Issues

/-! ### The ledger -/

namespace Ledger
variable (l : Ledger) (jobId : String)

theorem atNow_issues {α : Type} {t : Instant → Txn JobError α} (h : ∀ now, P _ _ (t now)) :
    (atNow t).Issues P := clock.bind fun now => transact (h now)

theorem find_issues (h : P _ _ (Jobs.find jobId)) : (find jobId).Issues P := by
  refine (transact h).bind fun found => ?_
  cases found with
  | none => exact throw _
  | some job => exact pure job

theorem find_harmless : (find jobId).Issues Harmless :=
  find_issues jobId (.look (Jobs.find_readOnly jobId))

theorem enqueue_issues (n : NewJob)
    (h : ∀ id now, P _ _ (Jobs.insert (n.toJob id now l.heartbeat))) : (l.enqueue n).Issues P :=
  freshId.bind fun id => clock.bind fun now => (transact (h id now)).bind fun _ => pure _

theorem acquire_issues (n : NewJob) (h : ∀ id now, P _ _ (tryAcquire n id now l.heartbeat)) :
    (l.acquire n).Issues P :=
  freshId.bind fun id => clock.bind fun now => transact (h id now)

theorem signalAlive_harmless : (l.signalAlive jobId).Issues Harmless :=
  clock.bind fun now => transact (.alive jobId now.timestamp (l.deadline now))

theorem updateProgress_harmless (done total : UInt32) (step : String) :
    (updateProgress jobId done total step).Issues Harmless :=
  clock.bind fun now =>
    transact (.progress jobId now.timestamp done total (Progress.percent done total) step)

theorem addEvent_harmless (kind : EventKind) (step : Option String) (message : String)
    (trace : Option String) : (addEvent jobId kind step message trace).Issues Harmless :=
  clock.bind fun now => transact (.note jobId kind step message trace now.timestamp)

end Ledger

namespace Sweep

theorem failEach_issues (h : ∀ job stamp, P _ _ (failJob job stamp)) (stamp : String)
    (r : SweepReport) (jobs : List Job) : (failEach stamp r jobs).Issues P := by
  induction jobs generalizing r with
  | nil => exact pure r
  | cons job rest ih => exact (transact (h job stamp)).bind fun _ => ih _

theorem run_issues (now : Instant) (hlist : P _ _ (Jobs.listStale now.timestamp))
    (h : ∀ job stamp, P _ _ (failJob job stamp)) : (run now).Issues P :=
  (transact hlist).bind fun jobs => failEach_issues h _ _ jobs

end Sweep

/-! ### Polling -/

/-- Where only the transactions count, nothing else does. -/
theorem Dialogue.Tends.issuing : (Dialogue.issuing P).Tends := ⟨trivial, fun _ _ _ => trivial, fun _ _ => trivial⟩

theorem Collects.harmless (jobId documentId : String) : Collects Harmless jobId documentId where
  progress := .progress jobId
  storePages := .storePages documentId
  listPages := .look (Pages.list_readOnly documentId)

theorem Collects.mono {Q : TxnKind} {jobId documentId : String} (h : Collects P jobId documentId)
    (hPQ : ∀ {ε α : Type} {t : Txn ε α}, P ε α t → Q ε α t) : Collects Q jobId documentId where
  progress _ _ _ _ _ := hPQ (h.progress _ _ _ _ _)
  storePages _ _ := hPQ (h.storePages _ _)
  listPages := hPQ h.listPages

theorem Checks.mono {Q : TxnKind} {job : Job} (h : Checks P job)
    (hPQ : ∀ {ε α : Type} {t : Txn ε α}, P ε α t → Q ε α t) : Checks Q job where
  alive _ _ := hPQ (h.alive _ _)
  note _ _ _ _ _ := hPQ (h.note _ _ _ _ _)
  failJob _ _ _ := hPQ (h.failJob _ _ _)
  collects documentId hdocument := (h.collects documentId hdocument).mono hPQ
  complete documentId hdocument _ _ _ := hPQ (h.complete documentId hdocument _ _ _)

/-- Most of a check is harmless. -/
theorem Checks.of_harmless {job : Job}
    (harmless : ∀ {ε α : Type} {t : Txn ε α}, Harmless ε α t → P ε α t)
    (failJob : ∀ message detail now, P _ _ (Pipeline.failJob job message detail now))
    (complete : ∀ documentId, Pipeline.documentOf job = .ok documentId →
      ∀ c cleanupFailed now, P _ _ (Pipeline.completeJob job.id documentId c cleanupFailed now)) :
    Checks P job where
  alive now timeoutAt := harmless (.alive job.id now timeoutAt)
  note kind step message trace now := harmless (.note job.id kind step message trace now)
  failJob := failJob
  collects documentId _ := (Collects.harmless job.id documentId).mono harmless
  complete := complete

/-- The transactions of a check keep what the statements on its job and its document keep. -/
theorem Checks.of_statements {I : Store → Prop} {job : Job}
    (hchange : ∀ now (c : Jobs.Change), (c.statement job.id now).Keeps I)
    (hnote : ∀ kind step message trace now,
      (Jobs.insertEvent job.id kind step message trace now).Keeps I)
    (hstore : ∀ d, job.documentId = some d → ∀ p now, (Pages.upsert d p now).Keeps I)
    (hdraft : ∀ d, job.documentId = some d → ∀ pageCount now,
      (Documents.markDraft d pageCount now).Keeps I)
    (hfail : ∀ d, job.documentId = some d → ∀ now, (Documents.markFailed d now).Keeps I) :
    Checks (fun _ _ t => t.Keeps I) job := by
  have hdocument : ∀ d, Pipeline.documentOf job = .ok d → job.documentId = some d := by
    intro d h
    unfold Pipeline.documentOf at h
    split at h
    case h_1 d' hd =>
      obtain rfl := Except.ok.inj h
      exact hd
    case h_2 => cases h
  exact
    { alive := fun now _ => guarded_keeps (hchange now _) job.id
      note := hnote
      failJob := Pipeline.failJob_keeps (fun _ now => hchange now _) hnote rfl hfail
      collects := fun d h =>
        { progress := fun now _ _ _ _ => guarded_keeps (hchange now _) job.id
          storePages := Pages.upsertAll_keeps (hstore d (hdocument d h))
          listPages := (Pages.list_readOnly d).keeps I }
      complete := fun d h => Pipeline.completeJob_keeps (hdraft d (hdocument d h))
        (fun _ now => hchange now _) hnote }

/-- The transactions of an ingestion keep what the statements on its job and its document keep. -/
theorem Works.of_statements {I : Store → Prop} {document : Document} {jobId : String}
    (hchange : ∀ now (c : Jobs.Change), (c.statement jobId now).Keeps I)
    (hnote : ∀ kind step message trace now,
      (Jobs.insertEvent jobId kind step message trace now).Keeps I)
    (hstore : ∀ p now, (Pages.upsert document.id p now).Keeps I)
    (hdraft : ∀ pageCount now, (Documents.markDraft document.id pageCount now).Keeps I)
    (hfail : ∀ now, (Documents.markFailed document.id now).Keeps I) :
    Works (fun _ _ t => t.Keeps I) document jobId where
  running now := guarded_keeps (hchange now _) jobId
  progress now _ _ _ _ := guarded_keeps (hchange now _) jobId
  note := hnote
  polling now _ _ _ := guarded_keeps (hchange now _) jobId
  finish := Pipeline.finishWith_keeps hstore hdraft fun _ now => hchange now _
  recordFailure := Pipeline.recordFailure_keeps (fun _ now => hchange now _) hnote hfail

theorem Checks.issued (job : Job) : Checks (IssuedFor S) job :=
  .of_harmless .harmless (.failJob job) fun documentId _ => .complete job.id documentId

theorem Works.issued (document : Document) {jobId : String} (hS : S jobId) :
    Works (IssuedFor S) document jobId where
  running now := .change jobId now .running nofun
  progress now _ _ _ _ := .harmless (.progress jobId now _ _ _ _)
  note _ _ _ _ _ := .harmless (.note jobId _ _ _ _ _)
  polling now _ _ _ := .change jobId now _ fun _ => hS
  finish := .finish document jobId
  recordFailure := .recordFailure document jobId

namespace Pipeline
variable (p : Pipeline) {jobId documentId : String}

theorem deleteFiles_issues (hnote : ∀ kind step message trace now,
      P _ _ (Jobs.insertEvent jobId kind step message trace now)) (keys : List String) :
    (deleteFiles jobId keys).Issues P :=
  (deleteFiles_abides Dialogue.Tends.issuing hnote fun _ _ => trivial).issues

theorem gather_issues (h : Collects P jobId documentId) (keys : List String) :
    (p.gather jobId documentId keys).Issues P :=
  (p.gather_abides Dialogue.Tends.issuing h fun _ _ => trivial).issues

section
variable {job : Job} (h : Checks P job)
include h

theorem fail_issues (message : String) (detail : Option String) :
    (fail job message detail).Issues P :=
  (fail_abides (.of_asks h fun _ _ => trivial) message detail).issues

/-- A check issues transactions of the kind only. -/
theorem check_issues : (p.check job).Issues P :=
  (p.check_abides (.of_asks h fun _ _ => trivial)).issues

end

section
variable (hfind : P _ _ (Jobs.find jobId)) (h : ∀ job, Checks P job)
include hfind h

theorem poll_issues : (p.poll jobId).Issues P :=
  (p.poll_abides (.of_issues (Ledger.find_issues jobId hfind) id fun _ => trivial) fun job _ =>
    .of_asks (h job) fun _ _ => trivial).issues

theorem wait_abides_issuing : (p.wait jobId).Abides (.issuing P) fun _ => True :=
  p.wait_abides (.of_issues (Ledger.find_issues jobId hfind) id fun _ => trivial) fun job _ =>
    .of_asks (h job) fun _ _ => trivial

theorem wait_issues : (p.wait jobId).Issues P := (p.wait_abides_issuing hfind h).issues

end

theorem readUpload_issues (r : Upload.Reference) (limit : Nat) : (readUpload r limit).Issues P :=
  (readUpload_abides (.of_asks (fun _ _ => trivial) 0) r limit).issues

theorem submit_issues (s : Staging) : (submit s).Issues P :=
  (submit_abides (.of_asks (fun _ _ => trivial) 0) s).issues

theorem ownText_issues (hnote : ∀ kind step message trace now,
      P _ _ (Jobs.insertEvent jobId kind step message trace now)) (r : Upload.Reference) :
    (p.ownText jobId r).Issues P :=
  (p.ownText_abides (.of_asks (fun _ _ => trivial) 0) hnote r).issues

theorem goOn_issues {document : Document} (hworks : Works P document jobId)
    (hfind : P _ _ (Jobs.find jobId)) (h : ∀ job, Checks P job) :
    (p.goOn document jobId).Issues P :=
  (p.goOn_abides (.of_asks (fun _ _ => trivial) _) hworks (p.wait_abides_issuing hfind h)).issues

theorem ingest_issues (documentId ownerId : String)
    (hlock : ∀ id now, P _ _ (lockDocument documentId ownerId id now p.ledger.heartbeat))
    (hworks : ∀ document jobId, Works P document jobId) (hfind : ∀ jobId, P _ _ (Jobs.find jobId))
    (h : ∀ job, Checks P job) : (p.ingest documentId ownerId).Issues P :=
  (p.ingest_abides (.of_asks (fun _ _ => trivial) _) (fun id now => Run.Abides.issue (hlock id now))
    (fun locked _ => hworks locked.1 locked.2.id)
    fun locked _ => p.wait_abides_issuing (hfind locked.2.id) h).issues

/-- The known transactions have all that is asked. -/
theorem find_issued (jobId : String) : IssuedFor S _ _ (Jobs.find jobId) :=
  .harmless (.look (Jobs.find_readOnly jobId))

theorem goOn_issued (document : Document) (jobId : String) (hS : S jobId) :
    (p.goOn document jobId).Issues (IssuedFor S) :=
  p.goOn_issues (.issued document hS) (find_issued jobId) .issued

/-! ### Documents -/

theorem register_issues (d : NewDocument)
    (h : ∀ fileType id now, P _ _ (Documents.insert (d.toDocument fileType id now))) :
    (register d).Issues P := by
  unfold register
  dsimp only
  split
  · exact (Run.Issues.throw _).bind fun _ => clock.bind fun now => freshId.bind fun id =>
      (transact (h _ id now.timestamp)).bind fun _ => pure _
  · exact clock.bind fun now => freshId.bind fun id =>
      (transact (h _ id now.timestamp)).bind fun _ => pure _

theorem saveEdit_issues {documentId ownerId : String} {pageNo : UInt32} {text : Option String}
    (h : ∀ now, P _ _ (editPage documentId ownerId pageNo text now)) :
    (saveEdit documentId ownerId pageNo text).Issues P :=
  clock.bind fun now => (transact (h now.timestamp)).bind fun _ => pure _

theorem saveEdit_harmless (documentId ownerId : String) (pageNo : UInt32) (text : Option String) :
    (saveEdit documentId ownerId pageNo text).Issues Harmless :=
  saveEdit_issues (.edit documentId ownerId pageNo text)

theorem publish_issues (l : Ledger) {documentId ownerId : String} {o : PublishOptions}
    (h : ∀ ids now, P _ _ (publishDraft documentId ownerId o ids now l.heartbeat)) :
    (publish l documentId ownerId o).Issues P := by
  unfold publish
  dsimp only
  split
  · exact (Run.Issues.ofExcept _).bind fun _ => clock.bind fun now =>
      freshId.bind fun version => freshId.bind fun job => transact (h ⟨version, job⟩ now)
  · exact clock.bind fun now => freshId.bind fun version => freshId.bind fun job =>
      transact (h ⟨version, job⟩ now)

end Pipeline

/-! ### Questions -/

theorem QuestionCache.getOrGenerate_harmless (ownerId : String) (documentId : Option String)
    (text : String) (p : QuestionParams) :
    (getOrGenerate ownerId documentId text p).Issues Harmless :=
  (getOrGenerate_abides trivial trivial trivial
    (fun _ => Harmless.look (Artifacts.find_readOnly ownerId _))
    fun _ _ _ => Harmless.storeArtifacts _).issues

namespace GenerationJob

theorem generate_harmless (job : Job) : (generate job).Issues Harmless :=
  (generate_abides (c := .issuing Harmless) (R := fun _ _ => True)
    (fun p _ => (Run.Abides.issue (Harmless.look (Versions.find_readOnly p.versionId))).mono
      fun _ _ _ _ => trivial)
    fun _ v _ _ => .of_issues (QuestionCache.getOrGenerate_harmless job.ownerId _ v.joinedText _)
      (fun ht => ht) fun _ => trivial).issues

theorem run_issued (jobId : String) : (run jobId).Issues (IssuedFor S) := by
  have hgenerates : Generates (IssuedFor S) jobId :=
    { running := fun now => .change jobId now .running nofun
      completed := fun now result => .change jobId now (.completed result) nofun
      failed := fun now message => .change jobId now (.failed message) nofun
      note := fun _ _ _ _ _ => .harmless (.note jobId _ _ _ _ _) }
  have hfind : (Ledger.find jobId).Abides (.issuing (IssuedFor S)) fun _ => True :=
    .of_issues (Ledger.find_harmless jobId).issued (fun ht => ht) fun _ => trivial
  refine (run_abides (R := fun _ => True) trivial hgenerates hfind fun job _ _ => ?_).issues
  exact .of_issues (generate_harmless job).issued (fun ht => ht) fun _ => trivial

end GenerationJob
end Quire
