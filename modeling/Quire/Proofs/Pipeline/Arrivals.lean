import Quire.Proofs.Flow.Statements
import Quire.Proofs.Job.Lock
import Quire.Proofs.Pipeline.Upkeep
import Quire.Proofs.Store.Reading

/-! How documents and jobs come to agree.

A document that is registered is on no job yet, and a job that is queued is on no document. The
one transaction that adds a job on a document, taking its lock, sets the document processing at
the same time. -/
namespace Quire
open Txn

namespace Store
variable {s s' : Store} {busy : Option String}

/-- A document that is not there is not locked. -/
theorem Sound.not_locked (h : s.Sound) {d : String} (hd : s.hasDocument d = false) :
    ¬ s.Locked d := by
  rintro ⟨r, hr, -, hdoc⟩
  rw [h.refers r hr d hdoc] at hd
  cases hd

theorem Calm.addDocument (h : s.Calm busy) {r : DocumentRow} (hnew : s.hasDocument r.id = false)
    (hstatus : r.status ≠ .processing) :
    ({ s with documents := s.documents ++ [r] } : Store).Calm busy := by
  refine ⟨⟨h.sound.addDocument r hnew, h.rows, fun d hd => ?_⟩, h.polling⟩
  rcases List.mem_append.mp hd with hd | hd
  · exact h.link d hd
  · obtain rfl := List.mem_singleton.mp hd
    exact iff_of_false hstatus (h.sound.not_locked hnew)

/-- Documents that are not processing become other documents that are not. -/
theorem Calm.changeDocuments (h : s.Calm busy) {p : DocumentRow → Bool}
    {f : DocumentRow → DocumentRow} (hid : ∀ r, (f r).id = r.id)
    (hp : ∀ r, p r = true → r.status ≠ .processing) (hf : ∀ r, (f r).status ≠ .processing) :
    ({ s with documents := changeWhere p f s.documents } : Store).Calm busy := by
  refine ⟨⟨h.sound.changeDocuments hid, h.rows, fun r' hr' => ?_⟩, h.polling⟩
  obtain ⟨r, hr, rfl⟩ := mem_changeWhere.mp hr'
  by_cases hpr : p r = true
  · rw [if_pos hpr, hid]
    exact iff_of_false (hf r) fun hlocked => hp r hpr ((h.link r hr).mpr hlocked)
  · rw [if_neg hpr]
    exact h.link r hr

/-- A job on no document. -/
theorem Calm.addDetached (h : s.Calm busy) {r : JobRow} (hclash : s.jobs.any r.clashes = false)
    (hid : s.hasJob r.id = false) (hkept : r.Kept) (hdoc : r.documentId = none) :
    ({ s with jobs := s.jobs ++ [r] } : Store).Calm busy := by
  have hlocked : ∀ d, ({ s with jobs := s.jobs ++ [r] } : Store).Locked d ↔ s.Locked d := by
    intro d
    constructor
    · rintro ⟨r', hr', hactive, hd⟩
      rcases List.mem_append.mp hr' with hr' | hr'
      · exact ⟨r', hr', hactive, hd⟩
      · obtain rfl := List.mem_singleton.mp hr'
        rw [hdoc] at hd
        cases hd
    · rintro ⟨r', hr', hactive, hd⟩
      exact ⟨r', List.mem_append_left _ hr', hactive, hd⟩
  have hrefers : Jobs.refersWell s r.documentId = true := by rw [hdoc]; rfl
  refine ⟨⟨h.sound.addJob r hclash hid hrefers, fun r' hr' => ?_, fun d hd => ?_⟩, ?_⟩
  · rcases List.mem_append.mp hr' with hr' | hr'
    · exact h.rows r' hr'
    · exact List.mem_singleton.mp hr' ▸ hkept
  · exact (h.link d hd).trans (hlocked d.id).symm
  · intro r' hr' hactive hkind
    rcases List.mem_append.mp hr' with hr' | hr'
    · exact h.polling r' hr' hactive hkind
    · obtain rfl := List.mem_singleton.mp hr'
      have := hkept.document.mp hkind
      rw [hdoc] at this
      cases this

/-- A document from which text may be taken. -/
def isReady (d : String) (r : DocumentRow) : Bool :=
  r.id == d && [DocumentStatus.uploading, .failed].contains r.status

theorem isReady_iff {d : String} {r : DocumentRow} :
    isReady d r = true ↔ r.id = d ∧ (r.status = .uploading ∨ r.status = .failed) := by
  simp [isReady]

/-- Taking the lock: an extraction is added, and its document is processing from now on. -/
theorem Calm.lock (h : s.Calm none) {d : String} {r : JobRow} {f : DocumentRow → DocumentRow}
    (hsound : ({ s with jobs := s.jobs ++ [r] } : Store).Sound) (hkept : r.Kept)
    (hactive : r.isActive = true) (hdoc : r.documentId = some d) (hfree : s.holders d = [])
    (hready : ∃ x ∈ s.documents, isReady d x = true) (hid : ∀ x, (f x).id = x.id)
    (hf : ∀ x, (f x).status = .processing)
    (hdocuments : s'.documents = changeWhere (isReady d) f s.documents)
    (hjobs : s'.jobs = s.jobs ++ [r]) : s'.Extracts r.id d := by
  have hmem : r ∈ s'.jobs := hjobs ▸ List.mem_append_right _ (List.mem_singleton_self r)
  have hcases : ∀ r' ∈ s'.jobs, r' ∈ s.jobs ∨ r' = r := fun r' hr' =>
    (List.mem_append.mp (hjobs ▸ hr')).imp_right List.mem_singleton.mp
  have hnone : ∀ r' ∈ s.jobs, r'.isActive = true → r'.documentId ≠ some d := by
    intro r' hr' hactive' hd
    have hheld : r' ∈ s.holders d := mem_holders.mpr ⟨hr', hd, hactive'⟩
    rw [hfree] at hheld
    cases hheld
  have hlocked : ∀ d', d' ≠ d → (s'.Locked d' ↔ s.Locked d') := by
    intro d' hd'
    constructor
    · rintro ⟨r', hr', hactive', hdoc'⟩
      rcases hcases r' hr' with hr' | rfl
      · exact ⟨r', hr', hactive', hdoc'⟩
      · exact absurd (Option.some.inj (hdoc'.symm.trans hdoc)) hd'
    · rintro ⟨r', hr', hactive', hdoc'⟩
      exact ⟨r', hjobs ▸ List.mem_append_left _ hr', hactive', hdoc'⟩
  have hlink : ∀ x' ∈ s'.documents, x'.status = .processing ↔ s'.Locked x'.id := by
    intro x' hx'
    obtain ⟨x, hx, rfl⟩ := mem_changeWhere.mp (hdocuments ▸ hx')
    by_cases hxd : x.id = d
    · -- The document is the one that is ready, so it has been set processing.
      obtain ⟨y, hy, hyready⟩ := hready
      have hyid : y.id = d := (isReady_iff.mp hyready).1
      obtain rfl : x = y := h.sound.document_unique hx hy (hxd.trans hyid.symm)
      rw [if_pos hyready, hid]
      exact iff_of_true (hf x) ⟨r, hmem, hactive, hxd ▸ hdoc⟩
    · rw [if_neg fun hready => hxd (isReady_iff.mp hready).1, hlocked _ hxd]
      exact h.link x hx
  have hsound' : s'.Sound := (hsound.changeDocuments (p := isReady d) hid).of_same hdocuments hjobs
  refine ⟨⟨⟨hsound', fun r' hr' => ?_, hlink⟩, fun r' hr' hactive' hkind => ?_⟩,
    ⟨⟨r, hmem, rfl, hdoc⟩, fun r' hr' hactive' hdoc' => ?_⟩⟩
  · rcases hcases r' hr' with hr' | rfl
    · exact h.rows r' hr'
    · exact hkept
  · rcases hcases r' hr' with hr' | rfl
    · exact .inl ((h.polling r' hr' hactive' hkind).resolve_right nofun)
    · exact .inr rfl
  · rcases hcases r' hr' with hr' | rfl
    · exact absurd hdoc' (hnone r' hr' hactive')
    · rfl

end Store

/-! ### Transactions -/

theorem JobType.word_eq_iff (t : JobType) :
    Label.word t = Label.word JobType.documentExtract ↔ t = .documentExtract := by
  cases t <;> decide

/-- A new job is in order if it is on a document exactly when it is an extraction. -/
theorem NewJob.row_kept {n : NewJob} (h : n.jobType = .documentExtract ↔ n.documentId.isSome = true)
    (id : String) (now : Instant) (heartbeat : Respite) : (n.row id now heartbeat).Kept := by
  refine ⟨?_, nofun, nofun, nofun⟩
  unfold JobRow.isExtraction
  rw [beq_iff_eq]
  exact (JobType.word_eq_iff n.jobType).trans h

section Single
variable {busy : Option String}

theorem Documents.insertAs_calm (word : String) (d : Document)
    (hword : Label.ofWord? word ≠ some DocumentStatus.processing) :
    (insertAs word d).Keeps (Store.Calm busy) := by
  refine Keeps.bind (Keeps.ofExcept _) fun size => ?_
  dsimp only
  split
  case h_1 => exact Keeps.fail _
  case h_2 status hstatus =>
    intro s hs
    simp only [wp_bind, wp_store, wp_require, wp_modify]
    refine ⟨fun hnew => ?_, fun _ => trivial⟩
    exact hs.addDocument (by simpa using hnew) fun h => hword (h ▸ hstatus)

/-- A job on no document is queued. -/
theorem Jobs.insert_calm {n : NewJob} (hdoc : n.documentId = none)
    (hkind : n.jobType ≠ .documentExtract) (id : String) (now : Instant) (heartbeat : Respite) :
    (insert (n.toJob id now heartbeat)).Keeps (Store.Calm busy) := by
  intro s hs
  have hkept := NewJob.row_kept (iff_of_false hkind (by simp [hdoc])) id now heartbeat
  unfold insert
  rw [insertRow_wp]
  split
  case isTrue => trivial
  case isFalse hclash =>
    split
    case isTrue => trivial
    case isFalse hid =>
      split
      case isTrue =>
        exact hs.addDetached (Bool.not_eq_true _ ▸ hclash) (Bool.not_eq_true _ ▸ hid) hkept hdoc
      case isFalse => trivial

theorem Documents.markPublished_calm (id : String) (version : UInt32) (title : Option String)
    (now : String) : (markPublished id version title now).Keeps (Store.Calm busy) := by
  intro s hs
  refine hs.changeDocuments (fun _ => rfl) (fun r hr hstatus => ?_) fun _ => nofun
  simp [hstatus] at hr

/-- Publishing moves a document that is not processing, and queues a job on none. -/
theorem Pipeline.publishDraft_calm (documentId ownerId : String) (o : PublishOptions)
    (ids : PublishIds) (now : Instant) (heartbeat : Respite) :
    (publishDraft documentId ownerId o ids now heartbeat).Keeps (Store.Calm busy) := by
  have haside : ∀ v, (Versions.insert v).Keeps (Store.Calm busy) := fun v s hs =>
    wp_mono ((Versions.insert_aside v).wp s) (fun _ _ h => hs.of_same h.1 h.2) fun _ h => h
  refine publishDraft_keeps (fun v _ => haside v) (Documents.markPublished_calm documentId) ?_
    ownerId o ids now heartbeat
  exact fun ownerId versionId questions => Jobs.insert_calm rfl nofun

end Single

section Lock
variable {s : Store} {d : String}

theorem tryAcquire_wp {n : NewJob} {id : String} {now : Instant} {heartbeat : Respite}
    {Q : LockOutcome → Store → Prop} {E : StoreError → Prop} (hdoc : n.documentId = some d)
    (hlocked : Q .alreadyLocked s)
    (hacquired : s.holders d = [] →
      ({ s with jobs := s.jobs ++ [n.row id now heartbeat] } : Store).Sound →
      Q (.acquired (n.toJob id now heartbeat)) { s with jobs := s.jobs ++ [n.row id now heartbeat] })
    (hs : s.Sound) (herror : ∀ e, E e) : (tryAcquire n id now heartbeat).wp Q E s := by
  have hclash := Store.any_clashes_iff (s := s) (r := n.row id now heartbeat) hdoc rfl
  have hfailed : ∀ e : StoreError, (if e.isUniqueViolation then (pure .alreadyLocked : Txn _ _)
      else fail e).wp Q E s := by
    intro e
    split
    · exact hlocked
    · exact herror e
  unfold tryAcquire
  rw [wp_bind, wp_attempt]
  refine (Jobs.insertRow_wp (n.row id now heartbeat)).mpr ?_
  split
  case isTrue => exact hfailed _
  case isFalse hfree =>
    split
    case isTrue => exact hfailed _
    case isFalse hid =>
      split
      case isTrue hrefers =>
        have hfree' : s.holders d = [] := not_not.mp fun h => hfree (hclash.mpr h)
        exact hacquired hfree' (hs.addJob _ (Bool.not_eq_true _ ▸ hfree) (Bool.not_eq_true _ ▸ hid)
          hrefers)
      case isFalse => exact hfailed _

theorem Pipeline.ownDocument_wp {documentId ownerId : String}
    {Q : Document → Store → Prop} {E : PipelineError → Prop}
    (h : ∀ document, document.id = documentId → Q document s) (herror : ∀ e, E e) :
    (ownDocument documentId ownerId).wp Q E s := by
  unfold ownDocument
  rw [wp_bind, wp_widen]
  refine Documents.find_wp (herror _) (fun document hid => ?_) fun e => herror _
  simp only [wp_bind, wp_require, wp_pure]
  exact ⟨fun _ => h document hid, fun _ => herror _⟩

/-- A document whose lock is taken is extracted from then on, by an open job. -/
theorem Pipeline.lockDocument_wp (hs : s.Calm none) (ownerId jobId : String) (now : Instant)
    (heartbeat : Respite) :
    (lockDocument d ownerId jobId now heartbeat).wp
      (fun locked s' => s'.Extracts locked.2.id locked.1.id ∧
        ∃ r ∈ s'.jobs, Jobs.isOpen locked.2.id r = true) (fun _ => True) s := by
  unfold lockDocument
  rw [wp_bind]
  refine ownDocument_wp (fun document hdocument => ?_) fun _ => trivial
  dsimp only
  rw [wp_bind, wp_widen]
  refine tryAcquire_wp rfl trivial (fun hfree hsound => ?_) hs.sound fun _ => trivial
  simp only [Documents.transition, Documents.changeFrom, wp_bind, wp_widen, wp_store, wp_modify,
    wp_pure, wp_require]
  refine ⟨fun hmoved => ?_, fun _ => trivial⟩
  refine wp_mono ((Pages.deleteAll_aside d).wp _) (fun cleared s₁ h₁ => ?_) fun _ _ => trivial
  rw [wp_bind, wp_widen]
  refine wp_mono ((Jobs.insertEvent_aside _ _ _ _ _ _).wp _) (fun _ s₂ h₂ => ?_)
    fun _ _ => trivial
  have hready : ∃ x ∈ s.documents, Store.isReady d x = true := by
    obtain ⟨x, hx⟩ := List.exists_mem_of_length_pos (of_decide_eq_true hmoved)
    exact ⟨x, List.mem_filter.mp hx⟩
  let wanted := NewJob.onDocument ownerId d .documentExtract
  have hjobs : s₂.jobs = s.jobs ++ [wanted.row jobId now heartbeat] := h₂.2.trans h₁.2
  have hkept : (wanted.row jobId now heartbeat).Kept :=
    NewJob.row_kept (iff_of_true rfl rfl) jobId now heartbeat
  have hmem : wanted.row jobId now heartbeat ∈ s₂.jobs := by simp [hjobs]
  refine ⟨?_, _, hmem, ?_⟩
  · rw [hdocument]
    refine hs.lock hsound hkept rfl rfl hfree hready ?_ ?_ (h₂.1.trans h₁.1) hjobs
    · exact fun _ => rfl
    · exact fun _ => rfl
  · exact Jobs.isOpen_iff.mpr ⟨rfl, rfl⟩

end Lock

end Quire
