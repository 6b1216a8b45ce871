import Quire.Proofs.Flow.Frames
import Quire.Proofs.Store.Versions

/-! What a transaction makes of documents and versions.

Four statements change a document, and all of them are one: a change of the row of an id, made if
the row has one of the statuses that the change starts from. No transaction makes more than one of
these statements, and only a publication adds a version. So there are four things that a
transaction can do (`Store.Turn`), which is shown once for each kind of transaction; everything that
lasts of documents and versions follows from that. -/
namespace Quire
open Txn

/-! ### Changes of documents -/

namespace Documents

/-- What a statement makes of a document. -/
inductive Change
  | processing
  | draft (pageCount : UInt32)
  | failed
  | published (version : UInt32) (title : Option String)

namespace Change

/-- The statuses from which a change starts. -/
def sources : Change → List DocumentStatus
  | .processing => [.uploading, .failed]
  | .draft _ | .failed => [.processing]
  | .published _ _ => [.draft]

/-- The status that a change leads to. -/
def target : Change → DocumentStatus
  | .processing => .processing
  | .draft _ => .draft
  | .failed => .failed
  | .published _ _ => .published

/-- The row after a change. -/
def apply (now : String) : Change → DocumentRow → DocumentRow
  | .processing, r => { r with status := .processing, updatedAt := now }
  | .draft pageCount, r =>
    { r with status := .draft, pageCount := .ofNat pageCount.toNat, updatedAt := now }
  | .failed, r => { r with status := .failed, updatedAt := now }
  | .published version title, r =>
    { r with
      status := .published
      activeVersion := .ofNat version.toNat
      title := title <|> r.title
      publishedAt := some now
      updatedAt := now }

/-- The statement that makes a change. -/
def statement (id now : String) : Change → Txn StoreError Nat
  | .processing => transition id [.uploading, .failed] .processing now
  | .draft pageCount => markDraft id pageCount now
  | .failed => markFailed id now
  | .published version title => markPublished id version title now

theorem statement_eq (c : Change) (id now : String) :
    c.statement id now = changeFrom id c.sources (c.apply now) := by
  cases c <;> rfl

@[simp] theorem apply_id (c : Change) (now : String) (r : DocumentRow) :
    (c.apply now r).id = r.id := by
  cases c <;> rfl

@[simp] theorem apply_status (c : Change) (now : String) (r : DocumentRow) :
    (c.apply now r).status = c.target := by
  cases c <;> rfl

/-- The condition of a change. -/
def starts (c : Change) (id : String) (r : DocumentRow) : Bool :=
  r.id == id && c.sources.contains r.status

theorem starts_iff {c : Change} {id : String} {r : DocumentRow} :
    c.starts id r = true ↔ r.id = id ∧ r.status ∈ c.sources := by
  simp [starts]

end Change

/-- The documents after a change. -/
def changed (id now : String) (c : Change) (documents : List DocumentRow) : List DocumentRow :=
  changeWhere (c.starts id) (c.apply now) documents

end Documents

/-! ### One transaction -/

/-- A document from which nothing has been taken yet. -/
structure DocumentRow.Fresh (r : DocumentRow) : Prop where
  status : r.status = .uploading
  pageCount : r.pageCount = .ofNat 0
  activeVersion : r.activeVersion = .ofNat 0
  publishedAt : r.publishedAt = none

/-- What one transaction makes of the documents and the versions. -/
inductive Store.Turn (s s' : Store) : Prop
  | rests : s'.documents = s.documents → s'.versions = s.versions → s.Turn s'
  | registers (r : DocumentRow) : r.Fresh → s.hasDocument r.id = false →
      s'.documents = s.documents ++ [r] → s'.versions = s.versions → s.Turn s'
  | moves (id now : String) (c : Documents.Change) : c.target ≠ .published →
      s'.documents = Documents.changed id now c s.documents → s'.versions = s.versions → s.Turn s'
  | publishes (v : Version) (now : String) (title : Option String) : 1 ≤ v.version →
      (∃ r ∈ s.documents, r.id = v.documentId ∧ r.status = .draft) →
      (∀ w ∈ s.versions, w.documentId = v.documentId → w.version < v.version) →
      s'.documents =
        Documents.changed v.documentId now (.published v.version title) s.documents →
      s'.versions = s.versions ++ [v] → s.Turn s'

/-- A transaction that changes neither documents nor versions. -/
def Txn.Aloof {ε α : Type} (t : Txn ε α) : Prop :=
  ∀ documents versions, t.Keeps fun s => s.documents = documents ∧ s.versions = versions

/-- A transaction that does no more than one turn. -/
def Txn.Turns {ε α : Type} (t : Txn ε α) : Prop :=
  ∀ s, t.wp (fun _ s' => s.Turn s') (fun _ => True) s

namespace Store.Turn
variable {s s' s'' : Store}

theorem trans_of_same (h : s.Turn s') (hdocuments : s''.documents = s'.documents)
    (hversions : s''.versions = s'.versions) : s.Turn s'' := by
  cases h with
  | rests hd hv => exact .rests (hdocuments.trans hd) (hversions.trans hv)
  | registers r hfresh hnew hd hv =>
    exact .registers r hfresh hnew (hdocuments.trans hd) (hversions.trans hv)
  | moves id now c hc hd hv => exact .moves id now c hc (hdocuments.trans hd) (hversions.trans hv)
  | publishes v now title hv hdraft hhigher hd hvs =>
    exact .publishes v now title hv hdraft hhigher (hdocuments.trans hd) (hversions.trans hvs)

theorem of_same (h : s'.Turn s'') (hdocuments : s'.documents = s.documents)
    (hversions : s'.versions = s.versions) : s.Turn s'' := by
  have hthere : ∀ id, s'.hasDocument id = s.hasDocument id := by
    intro id
    simp only [hasDocument, hdocuments]
  cases h with
  | rests hd hv => exact .rests (hd.trans hdocuments) (hv.trans hversions)
  | registers r hfresh hnew hd hv =>
    exact .registers r hfresh (hthere r.id ▸ hnew) (hdocuments ▸ hd) (hv.trans hversions)
  | moves id now c hc hd hv => exact .moves id now c hc (hdocuments ▸ hd) (hv.trans hversions)
  | publishes v now title hv hdraft hhigher hd hvs =>
    exact .publishes v now title hv (hdocuments ▸ hdraft) (hversions ▸ hhigher) (hdocuments ▸ hd)
      (hversions ▸ hvs)

end Store.Turn

/-! ### Parts of a transaction -/

namespace Txn
variable {ε ε' α β : Type}

theorem Aloof.wp {t : Txn ε α} (h : t.Aloof) (s : Store) :
    t.wp (fun _ s' => s'.documents = s.documents ∧ s'.versions = s.versions) (fun _ => True) s :=
  h s.documents s.versions s ⟨rfl, rfl⟩

namespace Aloof

theorem pure (a : α) : (Pure.pure a : Txn ε α).Aloof := fun _ _ => Keeps.pure a

theorem fail (e : ε) : (Txn.fail e : Txn ε α).Aloof := fun _ _ => Keeps.fail e

theorem require (holds : Bool) (e : ε) : (Txn.require holds e).Aloof :=
  fun _ _ => Keeps.require holds e

theorem bind {t : Txn ε β} {f : β → Txn ε α} (ht : t.Aloof) (hf : ∀ b, (f b).Aloof) :
    (t >>= f).Aloof :=
  fun documents versions => (ht documents versions).bind fun b => hf b documents versions

theorem widen [Widen ε ε'] {t : Txn ε α} (ht : t.Aloof) : (t.widen : Txn ε' α).Aloof :=
  fun documents versions => (ht documents versions).widen

theorem attempt {t : Txn ε α} (ht : t.Aloof) : (t.attempt : Txn ε' (Except ε α)).Aloof :=
  fun documents versions => (ht documents versions).attempt

theorem of_readOnly {t : Txn ε α} (ht : t.ReadOnly) : t.Aloof := fun _ _ => ht.keeps _

/-- What changes neither makes no turn. -/
theorem turns {t : Txn ε α} (ht : t.Aloof) : t.Turns :=
  fun s => wp_mono (ht.wp s) (fun _ _ h => .rests h.1 h.2) fun _ h => h

/-- Once the documents are left alone, whatever a guard says, so they are with it. -/
theorem guarded {t : Txn StoreError Nat} (ht : t.Aloof) (id : String) : (guarded id t).Aloof :=
  fun documents versions => guarded_keeps (ht documents versions) id

end Aloof

namespace Turns

/-- A turn may come after what makes none. -/
theorem after {t : Txn ε β} {f : β → Txn ε α} (ht : t.Aloof) (hf : ∀ b, (f b).Turns) :
    (t >>= f).Turns := by
  intro s
  rw [wp_bind]
  refine wp_mono (ht.wp s) (fun b s' hsame => ?_) fun _ h => h
  exact wp_mono (hf b s') (fun _ _ hturn => hturn.of_same hsame.1 hsame.2) fun _ h => h

/-- What makes no turn may come after one. -/
theorem bind {t : Txn ε β} {f : β → Txn ε α} (ht : t.Turns) (hf : ∀ b, (f b).Aloof) :
    (t >>= f).Turns := by
  intro s
  rw [wp_bind]
  refine wp_mono (ht s) (fun b s' hturn => ?_) fun _ h => h
  refine wp_mono ((hf b).wp s') (fun _ _ hsame => ?_) fun _ h => h
  exact hturn.trans_of_same hsame.1 hsame.2

theorem widen [Widen ε ε'] {t : Txn ε α} (ht : t.Turns) : (t.widen : Txn ε' α).Turns :=
  fun s => (wp_widen t).mpr (ht s)

end Turns
end Txn

/-! ### Statements -/

section Statements

theorem Jobs.statement_aloof (c : Change) (id now : String) : (c.statement id now).Aloof :=
  fun _ _ => statement_frame (fun _ _ h => h) id now c

theorem Jobs.insertRow_aloof (r : JobRow) : (insertRow r).Aloof :=
  fun _ _ => insertRow_frame (fun _ _ h => h) r

theorem Jobs.insertEvent_aloof (jobId : String) (kind : EventKind) (step : Option String)
    (message : String) (trace : Option String) (now : String) :
    (insertEvent jobId kind step message trace now).Aloof :=
  fun _ _ => insertEvent_frame (fun _ _ _ h => h) jobId kind step message trace now

theorem Pages.deleteAll_aloof (documentId : String) : (deleteAll documentId).Aloof :=
  fun _ _ => deleteAll_frame (fun _ _ _ h => h) documentId

/-- No statement of a harmless transaction is on documents or versions. -/
theorem Spared.of_aloof (documents : List DocumentRow) (versions : List Version) :
    Spared fun s => s.documents = documents ∧ s.versions = versions where
  mark id now c _ := Jobs.statement_aloof c id now documents versions
  note _ _ _ _ _ _ := Jobs.insertEvent_aloof _ _ _ _ _ _ documents versions
  storePage := Pages.upsert_frame fun _ _ _ h => h
  editPage := Pages.setEdit_frame fun _ _ _ h => h
  addArtifact := Artifacts.insert_frame fun _ _ h => h

theorem Harmless.aloof {ε α : Type} {t : Txn ε α} (ht : Harmless ε α t) : t.Aloof :=
  fun documents versions => (Spared.of_aloof documents versions).keeps ht

theorem Pages.upsertAll_aloof (documentId now : String) (pages : List NewPage) :
    (upsertAll documentId now pages).Aloof := (Harmless.storePages documentId now pages).aloof

theorem Documents.statement_wp {s : Store} {Q : Nat → Store → Prop} {E : StoreError → Prop}
    (c : Change) (id now : String) :
    (c.statement id now).wp Q E s ↔
      Q (s.documents.filter (c.starts id)).length
        { s with documents := changed id now c s.documents } := by
  rw [c.statement_eq]
  rfl

theorem Documents.statement_turns (c : Change) (id now : String) (hc : c.target ≠ .published) :
    (c.statement id now).Turns := by
  intro s
  rw [statement_wp]
  exact .moves id now c hc rfl rfl

theorem Documents.insert_turns (d : NewDocument) (fileType : FileType) (id now : String) :
    (insert (d.toDocument fileType id now)).Turns := by
  intro s
  have hword : Label.ofWord? (Label.word DocumentStatus.uploading) = some DocumentStatus.uploading := by decide
  simp only [insert, insertAs, NewDocument.toDocument, hword, wp_bind, wp_ofExcept, wp_store,
    wp_require, wp_modify]
  refine ⟨fun size _ => ⟨fun hnew => ?_, fun _ => trivial⟩, fun _ _ => trivial⟩
  exact .registers _ ⟨rfl, rfl, rfl, rfl⟩ (by simpa using hnew) rfl rfl

end Statements

/-! ### Transactions -/

theorem tryAcquire_aloof (n : NewJob) (id : String) (now : Instant) (heartbeat : Respite) :
    (tryAcquire n id now heartbeat).Aloof := by
  refine .bind (.attempt (Jobs.insertRow_aloof _)) fun outcome => ?_
  cases outcome with
  | ok _ => exact .pure _
  | error e =>
    dsimp only
    split
    · exact .pure _
    · exact .fail _

namespace Pipeline

theorem lockDocument_turns (documentId ownerId jobId : String) (now : Instant) (heartbeat : Respite) :
    (lockDocument documentId ownerId jobId now heartbeat).Turns := by
  refine .after (.of_readOnly (ownDocument_readOnly documentId ownerId)) fun document => ?_
  refine .after (.widen (tryAcquire_aloof _ jobId now heartbeat)) fun outcome => ?_
  cases outcome with
  | alreadyLocked => exact (Aloof.fail _).turns
  | acquired job =>
    have hmoves := Documents.statement_turns .processing documentId now.timestamp (by decide)
    refine hmoves.widen.bind fun moved => .bind (.require _ _) fun _ => ?_
    refine .bind (.widen (Pages.deleteAll_aloof documentId)) fun cleared => ?_
    exact .bind (.widen (Jobs.insertEvent_aloof _ _ _ _ _ _)) fun _ => .pure _

theorem finishWith_turns (document : Document) (jobId : String) (pages : List NewPage)
    (source now : String) : (finishWith document jobId pages source now).Turns := by
  have hmoves := Documents.statement_turns (.draft (UInt32.ofNat pages.length)) document.id now
    (by simp [Documents.Change.target])
  refine .after (.widen (Pages.upsertAll_aloof document.id now pages)) fun _ => ?_
  refine hmoves.widen.bind fun moved => .bind (.require _ _) fun _ => ?_
  exact .widen (.guarded (Jobs.statement_aloof (.completed _) jobId now) jobId)

theorem recordFailure_turns (document : Document) (jobId : String) (e : PipelineError)
    (now : String) : (recordFailure document jobId e now).Turns := by
  have hmoves := Documents.statement_turns .failed document.id now (by decide)
  refine .after (Jobs.statement_aloof (.failed e.publicMessage) jobId now) fun _ => ?_
  exact hmoves.bind fun _ => Jobs.insertEvent_aloof _ _ _ _ _ _

theorem failJob_turns (job : Job) (message : String) (detail : Option String) (now : String) :
    (failJob job message detail now).Turns := by
  have hjob := Jobs.statement_aloof (.failed message) job.id now
  refine .after (.widen (hjob.guarded job.id)) fun _ => ?_
  cases job.documentId with
  | none => exact Aloof.turns (.widen (Jobs.insertEvent_aloof _ _ _ _ _ _))
  | some documentId =>
    have hmoves := Documents.statement_turns .failed documentId now (by decide)
    exact hmoves.widen.bind fun _ => .widen (Jobs.insertEvent_aloof _ _ _ _ _ _)

theorem completeJob_turns (jobId documentId : String) (c : Collected) (cleanupFailed : Bool)
    (now : String) : (completeJob jobId documentId c cleanupFailed now).Turns := by
  have hmoves := Documents.statement_turns (.draft c.pageCount) documentId now
    (by simp [Documents.Change.target])
  refine hmoves.widen.bind fun moved => .bind (.require _ _) fun _ => ?_
  have hjob := Jobs.statement_aloof (.completed (some (summary c cleanupFailed))) jobId now
  refine .bind (.widen (hjob.guarded jobId)) fun _ => ?_
  exact .widen (Jobs.insertEvent_aloof _ _ _ _ _ _)

theorem queueGeneration_aloof (ids : PublishIds) (ownerId : String) (questions : QuestionParams)
    (now : Instant) (heartbeat : Respite) :
    (queueGeneration ids ownerId questions now heartbeat).Aloof :=
  .bind (Jobs.insertRow_aloof _) fun _ => .pure _

/-- A draft is published under the number of a version that is added. -/
theorem publishDraft_turns (documentId ownerId : String) (o : PublishOptions) (ids : PublishIds)
    (now : Instant) (heartbeat : Respite) :
    (publishDraft documentId ownerId o ids now heartbeat).Turns := by
  refine .after (.of_readOnly (draftToPublish_readOnly documentId ownerId)) fun document => ?_
  refine .after (.widen (.of_readOnly (snapshot_readOnly documentId))) fun pages => ?_
  intro s
  rw [wp_bind, wp_widen]
  refine wp_mono (Versions.next_wp documentId document.activeVersion s) ?_ fun _ h => h
  rintro number s' ⟨rfl, hpositive, hhigher⟩
  rw [wp_bind, wp_widen]
  refine wp_mono (Versions.insert_added _ s') ?_ fun _ h => h
  rintro - s'' ⟨-, rfl⟩
  rw [wp_bind, wp_widen]
  refine (Documents.statement_wp (.published number o.title) documentId now.timestamp).mpr ?_
  rw [wp_bind, wp_require]
  refine ⟨fun hmoved => ?_, fun _ => trivial⟩
  have hdraft : ∃ r ∈ s'.documents, r.id = documentId ∧ r.status = .draft := by
    obtain ⟨r, hr⟩ := List.exists_mem_of_length_pos (of_decide_eq_true hmoved)
    obtain ⟨hmem, hstarts⟩ := List.mem_filter.mp hr
    obtain ⟨hid, hstatus⟩ := Documents.Change.starts_iff.mp hstarts
    exact ⟨r, hmem, hid, List.mem_singleton.mp hstatus⟩
  have hturn : s'.Turn
      { s' with
        versions := s'.versions ++
          [⟨ids.version, documentId, number, pages, ownerId, now.timestamp, o.notes⟩]
        documents := Documents.changed documentId now.timestamp (.published number o.title)
          s'.documents } :=
    .publishes _ _ _ hpositive hdraft hhigher rfl rfl
  -- What is queued in the end is on neither table.
  have hqueue := queueGeneration_aloof ids ownerId o.questions now heartbeat
  cases o.generates with
  | false => exact hturn
  | true =>
    simp only [if_true, wp_bind, wp_map, wp_widen]
    refine wp_mono (hqueue.wp _) (fun _ s'' hsame => ?_) fun _ h => h
    exact hturn.trans_of_same hsame.1 hsame.2

end Pipeline

theorem Sweep.failJob_turns (job : Job) (stamp : String) : (failJob job stamp).Turns := by
  have hjob := Jobs.statement_aloof (.failed (message job)) job.id stamp
  refine .after (.widen hjob) fun changed => ?_
  split
  · exact (Aloof.pure _).turns
  · refine .after (.widen (Jobs.insertEvent_aloof _ _ _ _ _ _)) fun _ => ?_
    cases job.documentId with
    | none => exact (Aloof.pure _).turns
    | some documentId =>
      have hmoves := Documents.statement_turns .failed documentId stamp (by decide)
      exact hmoves.widen.bind fun _ => .pure _

/-- No transaction that is issued does more than one turn. -/
theorem Issued.turns {ε α : Type} {t : Txn ε α} (ht : Issued ε α t) : t.Turns := by
  cases ht with
  | harmless hharmless => exact hharmless.aloof.turns
  | register d fileType id now => exact Documents.insert_turns d fileType id now
  | enqueue n id now heartbeat => exact (Jobs.insertRow_aloof _).turns
  | acquire n id now heartbeat => exact (tryAcquire_aloof n id now heartbeat).turns
  | change id now c => exact ((Jobs.statement_aloof c id now).guarded id).turns
  | lock documentId ownerId jobId now heartbeat =>
    exact Pipeline.lockDocument_turns documentId ownerId jobId now heartbeat
  | finish document jobId pages source now =>
    exact Pipeline.finishWith_turns document jobId pages source now
  | recordFailure document jobId e now => exact Pipeline.recordFailure_turns document jobId e now
  | failJob job message detail now => exact Pipeline.failJob_turns job message detail now
  | complete jobId documentId c cleanupFailed now =>
    exact Pipeline.completeJob_turns jobId documentId c cleanupFailed now
  | sweep job stamp => exact Sweep.failJob_turns job stamp
  | publish documentId ownerId o ids now heartbeat =>
    exact Pipeline.publishDraft_turns documentId ownerId o ids now heartbeat

end Quire
