import Quire.Pipeline.Ingest
import Quire.Pipeline.Publish
import Quire.Pipeline.Register
import Quire.Job.Sweep
import Quire.Question.Runner
import Quire.Proofs.Store.Soundness

/-! The transactions that the operations issue.

There are eighteen kinds of them, and all are made of a few statements on single tables. A
property that no statement destroys is therefore kept by every transaction, whoever issues it and
whatever came before. Seven kinds are harmless: they move no job and no document from one status
to another. -/
namespace Quire
open Txn

/-- A transaction after which every job and every document has the status that it had. -/
inductive Harmless : (ε α : Type) → Txn ε α → Prop
  /-- A look at the store. -/
  | look {ε α : Type} {t : Txn ε α} : t.ReadOnly → Harmless ε α t
  | alive (id now timeoutAt : String) :
      Harmless _ _ (guarded id (Jobs.Change.statement id now (.alive timeoutAt)))
  | progress (id now : String) (done total : UInt32) (percent : Float) (step : String) :
      Harmless _ _ (guarded id (Jobs.Change.statement id now (.progressed done total percent step)))
  | note (jobId : String) (kind : EventKind) (step : Option String) (message : String)
      (trace : Option String) (now : String) :
      Harmless _ _ (Jobs.insertEvent jobId kind step message trace now)
  | storePages (documentId now : String) (pages : List NewPage) :
      Harmless _ _ (Pages.upsertAll documentId now pages)
  | edit (documentId ownerId : String) (pageNo : UInt32) (text : Option String) (now : String) :
      Harmless _ _ (Pipeline.editPage documentId ownerId pageNo text now)
  | storeArtifacts (artifacts : List Artifact) : Harmless _ _ (Artifacts.insertAll artifacts)

/-- A transaction that an operation issues, if only jobs in `S` are given an operation to poll. -/
inductive IssuedFor (S : String → Prop) : (ε α : Type) → Txn ε α → Prop
  | harmless {ε α : Type} {t : Txn ε α} : Harmless ε α t → IssuedFor S ε α t
  | register (d : NewDocument) (fileType : FileType) (id now : String) :
      IssuedFor S _ _ (Documents.insert (d.toDocument fileType id now))
  | enqueue (n : NewJob) (id : String) (now : Instant) (heartbeat : Respite) :
      IssuedFor S _ _ (Jobs.insert (n.toJob id now heartbeat))
  | acquire (n : NewJob) (id : String) (now : Instant) (heartbeat : Respite) :
      IssuedFor S _ _ (tryAcquire n id now heartbeat)
  | change (id now : String) (c : Jobs.Change) : (c.target? = some .polling → S id) →
      IssuedFor S _ _ (guarded id (c.statement id now))
  | lock (documentId ownerId jobId : String) (now : Instant) (heartbeat : Respite) :
      IssuedFor S _ _ (Pipeline.lockDocument documentId ownerId jobId now heartbeat)
  | finish (document : Document) (jobId : String) (pages : List NewPage) (source now : String) :
      IssuedFor S _ _ (Pipeline.finishWith document jobId pages source now)
  | recordFailure (document : Document) (jobId : String) (e : PipelineError) (now : String) :
      IssuedFor S _ _ (Pipeline.recordFailure document jobId e now)
  | failJob (job : Job) (message : String) (detail : Option String) (now : String) :
      IssuedFor S _ _ (Pipeline.failJob job message detail now)
  | complete (jobId documentId : String) (c : Collected) (cleanupFailed : Bool) (now : String) :
      IssuedFor S _ _ (Pipeline.completeJob jobId documentId c cleanupFailed now)
  | sweep (job : Job) (stamp : String) : IssuedFor S _ _ (Sweep.failJob job stamp)
  | publish (documentId ownerId : String) (o : PublishOptions) (ids : PublishIds) (now : Instant)
      (heartbeat : Respite) :
      IssuedFor S _ _ (Pipeline.publishDraft documentId ownerId o ids now heartbeat)

/-- A transaction that an operation issues. -/
abbrev Issued : (ε α : Type) → Txn ε α → Prop := IssuedFor fun _ => True

/-- A property of stores that no statement of a harmless transaction destroys. -/
structure Spared (I : Store → Prop) : Prop where
  mark : ∀ id now (c : Jobs.Change), c.target? = none → (c.statement id now).Keeps I
  note : ∀ jobId kind step message trace now,
    (Jobs.insertEvent jobId kind step message trace now).Keeps I
  storePage : ∀ documentId p now, (Pages.upsert documentId p now).Keeps I
  editPage : ∀ documentId pageNo text editor now,
    (Pages.setEdit documentId pageNo text editor now).Keeps I
  addArtifact : ∀ a, (Artifacts.insert a).Keeps I

/-- A property of stores that no statement destroys, if only jobs in `S` are given an operation to
poll. -/
structure UnharmedFor (S : String → Prop) (I : Store → Prop) : Prop extends Spared I where
  register : ∀ d fileType id now, (Documents.insert (NewDocument.toDocument d fileType id now)).Keeps I
  process : ∀ id now,
    (Documents.transition id [.uploading, .failed] .processing now).Keeps I
  draft : ∀ id pageCount now, (Documents.markDraft id pageCount now).Keeps I
  fail : ∀ id now, (Documents.markFailed id now).Keeps I
  publish : ∀ id version title now, (Documents.markPublished id version title now).Keeps I
  enqueue : ∀ n id now heartbeat, (Jobs.insert (NewJob.toJob n id now heartbeat)).Keeps I
  change : ∀ id now (c : Jobs.Change), (c.target? = some .polling → S id) →
    (c.statement id now).Keeps I
  clearPages : ∀ documentId, (Pages.deleteAll documentId).Keeps I
  addVersion : ∀ v, (Versions.insert v).Keeps I

/-- A property of stores that no statement destroys. -/
abbrev Unharmed (I : Store → Prop) : Prop := UnharmedFor (fun _ => True) I

/-! ### Looking -/

theorem ensureChanged_readOnly (jobId : String) (changed : Nat) :
    (ensureChanged jobId changed).ReadOnly := by
  intro s
  unfold ensureChanged
  split
  · exact Keeps.pure ()
  · refine ((Jobs.find_readOnly jobId s).widen).bind fun found => ?_
    cases found with
    | none => exact Keeps.fail _
    | some job => exact Keeps.fail _

namespace Pipeline

theorem ownDocument_readOnly (documentId ownerId : String) :
    (ownDocument documentId ownerId).ReadOnly := by
  refine fun s => ((Documents.find_readOnly documentId s).widen).bind fun found => ?_
  cases found with
  | none => exact Keeps.fail _
  | some document => exact (Keeps.require _ _).bind fun _ => Keeps.pure _

theorem draftToPublish_readOnly (documentId ownerId : String) :
    (draftToPublish documentId ownerId).ReadOnly := by
  refine fun s => (ownDocument_readOnly documentId ownerId s).bind fun document => ?_
  split
  · exact Keeps.pure _
  · exact Keeps.fail _
  · exact Keeps.fail _

theorem snapshot_readOnly (documentId : String) : (snapshot documentId).ReadOnly :=
  fun s => (Pages.list_readOnly documentId s).bind fun _ => Keeps.pure _

end Pipeline

/-! ### Transactions from statements -/

theorem guarded_keeps {I : Store → Prop} {t : Txn StoreError Nat} (ht : t.Keeps I) (id : String) :
    (guarded id t).Keeps I :=
  ht.widen.bind fun n => (ensureChanged_readOnly id n).keeps I

/-- Publishing adds a version, moves the document and queues a job. -/
theorem Pipeline.publishDraft_keeps {I : Store → Prop} {documentId : String}
    (hversion : ∀ v, v.documentId = documentId → (Versions.insert v).Keeps I)
    (hpublish : ∀ version title now,
      (Documents.markPublished documentId version title now).Keeps I)
    (hqueue : ∀ ownerId versionId questions id now heartbeat,
      (Jobs.insert ((generationJob ownerId versionId questions).toJob id now heartbeat)).Keeps I)
    (ownerId : String) (o : PublishOptions) (ids : PublishIds) (now : Instant)
    (heartbeat : Respite) : (publishDraft documentId ownerId o ids now heartbeat).Keeps I := by
  refine ((draftToPublish_readOnly documentId ownerId).keeps I).bind fun document => ?_
  refine (((snapshot_readOnly documentId).keeps I).widen).bind fun pages => ?_
  refine (((Versions.next_readOnly documentId _).keeps I).widen).bind fun number => ?_
  refine ((hversion _ rfl).widen).bind fun _ => ?_
  refine ((hpublish number o.title now.timestamp).widen).bind fun changed => ?_
  refine (Keeps.require _ _).bind fun _ => ?_
  cases o.generates with
  | false => exact (Keeps.pure _).bind fun _ => Keeps.pure _
  | true =>
    have hjob : (queueGeneration ids ownerId o.questions now heartbeat).Keeps I :=
      (hqueue ownerId ids.version o.questions ids.job now heartbeat).bind fun _ => Keeps.pure _
    exact ((hjob.widen).map some).bind fun _ => Keeps.pure _

section Transactions
variable {I : Store → Prop}

theorem Pages.upsertAll_keeps {documentId : String}
    (hstore : ∀ p now, (Pages.upsert documentId p now).Keeps I) (now : String)
    (pages : List NewPage) : (Pages.upsertAll documentId now pages).Keeps I := by
  induction pages with
  | nil => exact Keeps.pure ()
  | cons p rest ih => exact (hstore p now).bind fun _ => ih

theorem Artifacts.insertAll_keeps {artifacts : List Artifact}
    (hadd : ∀ a ∈ artifacts, (Artifacts.insert a).Keeps I) : (insertAll artifacts).Keeps I := by
  induction artifacts with
  | nil => exact Keeps.pure ()
  | cons a rest ih =>
    exact (hadd a List.mem_cons_self).bind fun _ => ih fun b hb => hadd b (List.mem_cons_of_mem a hb)

/-- Taking a lock is adding a job. -/
theorem tryAcquire_keeps {n : NewJob} {id : String} {now : Instant} {heartbeat : Respite}
    (hinsert : (Jobs.insert (n.toJob id now heartbeat)).Keeps I) :
    (tryAcquire n id now heartbeat).Keeps I := by
  refine hinsert.attempt.bind fun outcome => ?_
  cases outcome with
  | ok _ => exact Keeps.pure _
  | error e =>
    dsimp only
    split
    · exact Keeps.pure _
    · exact Keeps.fail _

namespace Pipeline

theorem editPage_keeps {documentId ownerId : String}
    (hedit : ∀ pageNo text now, (Pages.setEdit documentId pageNo text ownerId now).Keeps I)
    (pageNo : UInt32) (text : Option String) (now : String) :
    (editPage documentId ownerId pageNo text now).Keeps I :=
  ((ownDocument_readOnly documentId ownerId).keeps I).bind fun _ =>
    (Keeps.require _ _).bind fun _ =>
      ((hedit pageNo text now).widen).bind fun _ => Keeps.require _ _

theorem finishWith_keeps {document : Document} {jobId : String}
    (hstore : ∀ p now, (Pages.upsert document.id p now).Keeps I)
    (hdraft : ∀ pageCount now, (Documents.markDraft document.id pageCount now).Keeps I)
    (hcompleted : ∀ result now, (Jobs.Change.statement jobId now (.completed result)).Keeps I)
    (pages : List NewPage) (source now : String) :
    (finishWith document jobId pages source now).Keeps I := by
  refine ((Pages.upsertAll_keeps hstore now pages).widen).bind fun _ => ?_
  refine ((hdraft _ now).widen).bind fun moved => ?_
  refine (Keeps.require _ _).bind fun _ => ?_
  exact (guarded_keeps (hcompleted _ now) jobId).widen

section Failing
variable {jobId : String}
  (hfailed : ∀ message now, (Jobs.Change.statement jobId now (.failed message)).Keeps I)
  (hnote : ∀ kind step message trace now,
    (Jobs.insertEvent jobId kind step message trace now).Keeps I)
include hfailed hnote

theorem recordFailure_keeps {document : Document}
    (hdocument : ∀ now, (Documents.markFailed document.id now).Keeps I) (e : PipelineError)
    (now : String) : (recordFailure document jobId e now).Keeps I :=
  (hfailed _ now).bind fun _ => (hdocument now).bind fun _ => hnote _ _ _ _ _

theorem failJob_keeps {job : Job} (hid : job.id = jobId)
    (hdocument : ∀ d, job.documentId = some d → ∀ now, (Documents.markFailed d now).Keeps I)
    (message : String) (detail : Option String) (now : String) :
    (failJob job message detail now).Keeps I := by
  subst hid
  refine (guarded_keeps (hfailed message now) job.id).widen.bind fun _ => ?_
  cases hd : job.documentId with
  | none => exact (Keeps.pure ()).bind fun _ => (hnote _ _ _ _ _).widen
  | some d => exact ((hdocument d hd now).widen).bind fun _ => (hnote _ _ _ _ _).widen

end Failing

theorem completeJob_keeps {jobId documentId : String}
    (hdraft : ∀ pageCount now, (Documents.markDraft documentId pageCount now).Keeps I)
    (hcompleted : ∀ result now, (Jobs.Change.statement jobId now (.completed result)).Keeps I)
    (hnote : ∀ kind step message trace now,
      (Jobs.insertEvent jobId kind step message trace now).Keeps I)
    (c : Collected) (cleanupFailed : Bool) (now : String) :
    (completeJob jobId documentId c cleanupFailed now).Keeps I := by
  refine ((hdraft c.pageCount now).widen).bind fun moved => ?_
  refine (Keeps.require _ _).bind fun _ => ?_
  refine (guarded_keeps (hcompleted _ now) jobId).widen.bind fun _ => ?_
  exact (hnote _ _ _ _ _).widen

theorem lockDocument_keeps {documentId ownerId jobId : String} {now : Instant} {heartbeat : Respite}
    (hqueue : (Jobs.insert ((NewJob.onDocument ownerId documentId .documentExtract).toJob jobId now
      heartbeat)).Keeps I)
    (hprocess : ∀ now, (Documents.transition documentId [.uploading, .failed] .processing now).Keeps I)
    (hclear : (Pages.deleteAll documentId).Keeps I)
    (hnote : ∀ jobId kind step message trace now,
      (Jobs.insertEvent jobId kind step message trace now).Keeps I) :
    (lockDocument documentId ownerId jobId now heartbeat).Keeps I := by
  refine ((ownDocument_readOnly documentId ownerId).keeps I).bind fun document => ?_
  refine ((tryAcquire_keeps hqueue).widen).bind fun outcome => ?_
  cases outcome with
  | alreadyLocked => exact Keeps.fail _
  | acquired job =>
    refine ((hprocess now.timestamp).widen).bind fun moved => ?_
    refine (Keeps.require _ _).bind fun _ => ?_
    refine (hclear.widen).bind fun cleared => ?_
    exact ((hnote _ _ _ _ _ _).widen).bind fun _ => Keeps.pure _

end Pipeline

theorem Sweep.failJob_keeps {job : Job}
    (hfailed : ∀ message now, (Jobs.Change.statement job.id now (.failed message)).Keeps I)
    (hnote : ∀ kind step message trace now,
      (Jobs.insertEvent job.id kind step message trace now).Keeps I)
    (hdocument : ∀ d now, (Documents.markFailed d now).Keeps I) (stamp : String) :
    (failJob job stamp).Keeps I := by
  refine ((hfailed _ stamp).widen).bind fun changed => ?_
  split
  · exact Keeps.pure _
  · refine ((hnote _ _ _ _ _).widen).bind fun _ => ?_
    cases job.documentId with
    | none => exact Keeps.pure _
    | some d => exact ((hdocument d stamp).widen).bind fun _ => Keeps.pure _

end Transactions

namespace Spared
variable {I : Store → Prop}

theorem storePages (h : Spared I) (documentId now : String) (pages : List NewPage) :
    (Pages.upsertAll documentId now pages).Keeps I :=
  Pages.upsertAll_keeps (h.storePage documentId) now pages

theorem storeArtifacts (h : Spared I) (artifacts : List Artifact) :
    (Artifacts.insertAll artifacts).Keeps I :=
  Artifacts.insertAll_keeps fun a _ => h.addArtifact a

theorem edit (h : Spared I) (documentId ownerId : String) (pageNo : UInt32)
    (text : Option String) (now : String) :
    (Pipeline.editPage documentId ownerId pageNo text now).Keeps I :=
  Pipeline.editPage_keeps (fun pageNo text now => h.editPage documentId pageNo text ownerId now)
    pageNo text now

/-- What no statement of them destroys is kept by all harmless transactions. -/
theorem keeps (h : Spared I) {ε α : Type} {t : Txn ε α} (ht : Harmless ε α t) : t.Keeps I := by
  cases ht with
  | look hlook => exact hlook.keeps I
  | alive id now timeoutAt => exact guarded_keeps (h.mark id now _ rfl) id
  | progress id now done total percent step => exact guarded_keeps (h.mark id now _ rfl) id
  | note jobId kind step message trace now => exact h.note jobId kind step message trace now
  | storePages documentId now pages => exact h.storePages documentId now pages
  | edit documentId ownerId pageNo text now => exact h.edit documentId ownerId pageNo text now
  | storeArtifacts artifacts => exact h.storeArtifacts artifacts

/-- A property of documents and jobs is spared if signs of life and progress spare it. -/
theorem of_tables
    (hsame : ∀ {s s' : Store}, s'.documents = s.documents → s'.jobs = s.jobs → I s → I s')
    (hmark : ∀ id now (c : Jobs.Change), c.target? = none → (c.statement id now).Keeps I) :
    Spared I := by
  have haside : ∀ {ε α : Type} {t : Txn ε α}, t.Aside → t.Keeps I := fun ht s hs =>
    wp_mono (ht.wp s) (fun _ _ h => hsame h.1 h.2 hs) fun _ h => h
  exact
    { mark := hmark
      note := fun _ _ _ _ _ _ => haside (Jobs.insertEvent_aside _ _ _ _ _ _)
      storePage := fun _ _ _ => haside (Pages.upsert_aside _ _ _)
      editPage := fun _ _ _ _ _ => haside (Pages.setEdit_aside _ _ _ _ _)
      addArtifact := fun _ => haside (Artifacts.insert_aside _) }

end Spared

namespace UnharmedFor
variable {S : String → Prop} {I : Store → Prop}

/-- The fewer jobs are given an operation, the less is destroyed. -/
theorem mono {S' : String → Prop} (h : UnharmedFor S I) (hS : ∀ id, S' id → S id) :
    UnharmedFor S' I :=
  { h with change := fun id now c hc => h.change id now c fun hpolling => hS id (hc hpolling) }

theorem completes (h : UnharmedFor S I) (id now : String) (result : Option Json) :
    (Jobs.Change.statement id now (.completed result)).Keeps I :=
  h.change id now _ (by simp [Jobs.Change.target?])

theorem fails (h : UnharmedFor S I) (id now message : String) :
    (Jobs.Change.statement id now (.failed message)).Keeps I :=
  h.change id now _ (by simp [Jobs.Change.target?])

theorem acquire (h : UnharmedFor S I) (n : NewJob) (id : String) (now : Instant)
    (heartbeat : Respite) : (tryAcquire n id now heartbeat).Keeps I :=
  tryAcquire_keeps (h.enqueue n id now heartbeat)

theorem lock (h : UnharmedFor S I) (documentId ownerId jobId : String) (now : Instant)
    (heartbeat : Respite) : (Pipeline.lockDocument documentId ownerId jobId now heartbeat).Keeps I :=
  Pipeline.lockDocument_keeps (h.enqueue _ jobId now heartbeat) (h.process documentId)
    (h.clearPages documentId) h.note

theorem finish (h : UnharmedFor S I) (document : Document) (jobId : String) (pages : List NewPage)
    (source now : String) : (Pipeline.finishWith document jobId pages source now).Keeps I :=
  Pipeline.finishWith_keeps (h.storePage document.id) (h.draft document.id)
    (fun result now => h.completes jobId now result) pages source now

theorem recordFailure (h : UnharmedFor S I) (document : Document) (jobId : String)
    (e : PipelineError) (now : String) : (Pipeline.recordFailure document jobId e now).Keeps I :=
  Pipeline.recordFailure_keeps (fun message now => h.fails jobId now message) (h.note jobId)
    (h.fail document.id) e now

theorem failJob (h : UnharmedFor S I) (job : Job) (message : String) (detail : Option String)
    (now : String) : (Pipeline.failJob job message detail now).Keeps I :=
  Pipeline.failJob_keeps (fun message now => h.fails job.id now message) (h.note job.id) rfl
    (fun d _ => h.fail d) message detail now

theorem complete (h : UnharmedFor S I) (jobId documentId : String) (c : Collected)
    (cleanupFailed : Bool) (now : String) :
    (Pipeline.completeJob jobId documentId c cleanupFailed now).Keeps I :=
  Pipeline.completeJob_keeps (h.draft documentId) (fun result now => h.completes jobId now result)
    (h.note jobId) c cleanupFailed now

theorem sweep (h : UnharmedFor S I) (job : Job) (stamp : String) :
    (Sweep.failJob job stamp).Keeps I :=
  Sweep.failJob_keeps (fun message now => h.fails job.id now message) (h.note job.id) h.fail stamp

theorem publishDraft (h : UnharmedFor S I) (documentId ownerId : String) (o : PublishOptions)
    (ids : PublishIds) (now : Instant) (heartbeat : Respite) :
    (Pipeline.publishDraft documentId ownerId o ids now heartbeat).Keeps I :=
  Pipeline.publishDraft_keeps (fun v _ => h.addVersion v) (h.publish documentId)
    (fun _ _ _ => h.enqueue _) ownerId o ids now heartbeat

/-- What no statement destroys is kept by every transaction that is issued. -/
theorem keeps (h : UnharmedFor S I) {ε α : Type} {t : Txn ε α} (ht : IssuedFor S ε α t) :
    t.Keeps I := by
  cases ht with
  | harmless hharmless => exact h.toSpared.keeps hharmless
  | register d fileType id now => exact h.register d fileType id now
  | enqueue n id now heartbeat => exact h.enqueue n id now heartbeat
  | acquire n id now heartbeat => exact h.acquire n id now heartbeat
  | change id now c hS => exact guarded_keeps (h.change id now c hS) id
  | lock documentId ownerId jobId now heartbeat =>
    exact h.lock documentId ownerId jobId now heartbeat
  | finish document jobId pages source now => exact h.finish document jobId pages source now
  | recordFailure document jobId e now => exact h.recordFailure document jobId e now
  | failJob job message detail now => exact h.failJob job message detail now
  | complete jobId documentId c cleanupFailed now =>
    exact h.complete jobId documentId c cleanupFailed now
  | sweep job stamp => exact h.sweep job stamp
  | publish documentId ownerId o ids now heartbeat =>
    exact h.publishDraft documentId ownerId o ids now heartbeat

end UnharmedFor

/-- No statement destroys the rules of the schema. -/
theorem Store.Sound.unharmed : Unharmed Store.Sound where
  toSpared := .of_tables (fun hdocuments hjobs h => h.of_same hdocuments hjobs)
    fun id now c _ => Jobs.statement_sound c id now
  register _ _ _ _ := Documents.insertAs_sound _ _
  process id _ := Documents.changeFrom_sound id _ fun _ => rfl
  draft id _ _ := Documents.changeFrom_sound id _ fun _ => rfl
  fail id _ := Documents.changeFrom_sound id _ fun _ => rfl
  publish id _ _ _ := Documents.changeFrom_sound id _ fun _ => rfl
  enqueue _ _ _ _ := Jobs.insertRow_sound _
  change id now c _ := Jobs.statement_sound c id now
  clearPages documentId := (Pages.deleteAll_aside documentId).sound
  addVersion v := (Versions.insert_aside v).sound

end Quire
