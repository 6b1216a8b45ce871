import Mathlib.Data.List.Pairwise
import Quire.Proofs.Job.Change
import Quire.Store.Artifacts
import Quire.Store.Pages
import Quire.Store.Versions

/-! The rules of the schema that every committed store obeys.

The identifiers of documents and of jobs are unique, no two jobs clash, and a job with a document
refers to one that is there. Each statement keeps these rules: an insertion checks them, and a
change touches nothing that they look at. Statements that only look change nothing; those on pages,
versions, artifacts and events change no document and no job. -/
namespace Quire
open Txn

/-! ### Looking -/

section
variable {ε : Type}

theorem Documents.find_readOnly (id : String) : (Documents.find id).ReadOnly := by
  refine fun s => Keeps.bind Keeps.store fun _ => ?_
  split
  · exact Keeps.pure _
  · exact Keeps.bind (Keeps.ofExcept _) fun _ => Keeps.pure _

theorem Jobs.find_readOnly (id : String) : (Jobs.find id).ReadOnly := by
  refine fun s => Keeps.bind Keeps.store fun _ => ?_
  split
  · exact Keeps.pure _
  · exact Keeps.bind (Keeps.ofExcept _) fun _ => Keeps.pure _

theorem Jobs.findActive_readOnly (documentId : String) : (Jobs.findActive documentId).ReadOnly := by
  refine fun s => Keeps.bind Keeps.store fun _ => ?_
  split
  · exact Keeps.pure _
  · exact Keeps.bind (Keeps.ofExcept _) fun _ => Keeps.pure _

theorem Jobs.events_readOnly (jobId : String) :
    (Jobs.events jobId : Txn StoreError (List EventRow)).ReadOnly :=
  fun _ => Keeps.bind Keeps.store fun _ => Keeps.pure _

theorem Jobs.listStale_readOnly (now : String) : (Jobs.listStale now).ReadOnly :=
  fun _ => Keeps.bind Keeps.store fun _ => Keeps.ofExcept _

theorem Pages.list_readOnly (documentId : String) : (Pages.list documentId).ReadOnly :=
  fun _ => Keeps.bind Keeps.store fun _ => Keeps.ofExcept _

theorem Versions.next_readOnly (documentId : String) (active : UInt32) :
    (Versions.next documentId active).ReadOnly := by
  refine fun s => Keeps.bind Keeps.store fun _ => ?_
  dsimp only
  split
  · exact Keeps.pure _
  · exact Keeps.fail _

theorem Versions.find_readOnly (id : String) : (Versions.find id).ReadOnly := by
  refine fun s => Keeps.bind Keeps.store fun _ => ?_
  split
  · exact Keeps.pure _
  · exact Keeps.bind (Keeps.ofExcept _) fun _ => Keeps.pure _

theorem Artifacts.find_readOnly (ownerId sourceHash : String) :
    (Artifacts.find ownerId sourceHash).ReadOnly :=
  fun _ => Keeps.bind Keeps.store fun _ => Keeps.ofExcept _

end

/-! ### Pages, versions, artifacts and events -/

theorem Pages.upsert_aside (documentId : String) (p : NewPage) (now : String) :
    (Pages.upsert documentId p now).Aside := by
  refine fun documents jobs => Keeps.bind (Keeps.require _ _) fun _ => ?_
  refine Keeps.bind Keeps.store fun s => ?_
  dsimp only
  split
  · exact Keeps.modify fun _ h => h
  · exact Keeps.bind (Keeps.require _ _) fun _ => Keeps.modify fun _ h => h

theorem Pages.upsertAll_aside (documentId now : String) (pages : List NewPage) :
    (Pages.upsertAll documentId now pages).Aside := by
  intro documents jobs
  induction pages with
  | nil => exact Keeps.pure ()
  | cons p rest ih => exact (Pages.upsert_aside documentId p now documents jobs).bind fun _ => ih

theorem Pages.deleteAll_aside (documentId : String) : (Pages.deleteAll documentId).Aside :=
  fun _ _ => Keeps.bind Keeps.store fun _ =>
    Keeps.bind (Keeps.modify fun _ h => h) fun _ => Keeps.pure _

theorem Pages.setEdit_aside (documentId : String) (pageNo : UInt32) (text : Option String)
    (editor now : String) : (Pages.setEdit documentId pageNo text editor now).Aside :=
  fun _ _ => Keeps.bind Keeps.store fun _ =>
    Keeps.bind (Keeps.modify fun _ h => h) fun _ => Keeps.pure _

theorem Versions.insert_aside (v : Version) : (Versions.insert v).Aside :=
  fun _ _ => Keeps.bind (Keeps.require _ _) fun _ => Keeps.bind Keeps.store fun _ =>
    Keeps.bind (Keeps.require _ _) fun _ => Keeps.bind (Keeps.require _ _) fun _ =>
      Keeps.bind (Keeps.require _ _) fun _ => Keeps.modify fun _ h => h

theorem Artifacts.insert_aside (a : Artifact) : (Artifacts.insert a).Aside :=
  fun _ _ => Keeps.bind Keeps.store fun _ => Keeps.bind (Keeps.require _ _) fun _ =>
    Keeps.modify fun _ h => h

theorem Jobs.insertEvent_aside (jobId : String) (kind : EventKind) (step : Option String)
    (message : String) (trace : Option String) (now : String) :
    (Jobs.insertEvent jobId kind step message trace now).Aside :=
  fun _ _ => Keeps.bind Keeps.store fun _ => Keeps.bind (Keeps.require _ _) fun _ =>
    Keeps.modify fun _ h => h

/-! ### The rules -/

structure Store.Sound (s : Store) : Prop where
  documentIds : (s.documents.map (·.id)).Nodup
  jobIds : (s.jobs.map (·.id)).Nodup
  /-- No document has two jobs that have not ended. -/
  apart : s.jobs.Pairwise JobRow.Apart
  /-- The document of a job is there. -/
  refers : ∀ r ∈ s.jobs, ∀ d, r.documentId = some d → s.hasDocument d = true

namespace Store.Sound
variable {s s' : Store}

theorem empty : Store.empty.Sound := ⟨.nil, .nil, .nil, fun _ h => nomatch h⟩

theorem of_same (h : s.Sound) (hdocuments : s'.documents = s.documents)
    (hjobs : s'.jobs = s.jobs) : s'.Sound := by
  refine ⟨hdocuments ▸ h.documentIds, hjobs ▸ h.jobIds, hjobs ▸ h.apart, fun r hr d hd => ?_⟩
  rw [hasDocument_eq, hdocuments, ← hasDocument_eq]
  exact h.refers r (hjobs ▸ hr) d hd

/-- Two active jobs of one document are one job. -/
theorem active_unique (h : s.Sound) {a b : JobRow} (ha : a ∈ s.jobs) (hb : b ∈ s.jobs)
    (hactive : a.isActive = true) (hactive' : b.isActive = true) {d : String}
    (hd : a.documentId = some d) (hd' : b.documentId = some d) : a = b := by
  by_contra hne
  have hapart : a.clashes b = false := h.apart.forall ha hb hne
  have hclash : a.clashes b = true :=
    JobRow.clashes_iff.mpr ⟨hactive, hactive', by simp [hd], hd.trans hd'.symm⟩
  exact absurd hclash (by simp [hapart])

/-- The row of a job is the only one of its id. -/
theorem job_unique (h : s.Sound) {a b : JobRow} (ha : a ∈ s.jobs) (hb : b ∈ s.jobs)
    (hid : a.id = b.id) : a = b := List.inj_on_of_nodup_map h.jobIds ha hb hid

theorem document_unique (h : s.Sound) {a b : DocumentRow} (ha : a ∈ s.documents)
    (hb : b ∈ s.documents) (hid : a.id = b.id) : a = b :=
  List.inj_on_of_nodup_map h.documentIds ha hb hid

/-- Documents are changed without changing who they are. -/
theorem changeDocuments (h : s.Sound) {p : DocumentRow → Bool} {f : DocumentRow → DocumentRow}
    (hf : ∀ r, (f r).id = r.id) :
    ({ s with documents := changeWhere p f s.documents } : Store).Sound := by
  have hids : (changeWhere p f s.documents).map (·.id) = s.documents.map (·.id) :=
    map_changeWhere fun r _ _ => hf r
  refine ⟨hids ▸ h.documentIds, h.jobIds, h.apart, fun r hr d hd => ?_⟩
  rw [hasDocument_eq]
  exact hids ▸ hasDocument_eq d ▸ h.refers r hr d hd

theorem addDocument (h : s.Sound) (r : DocumentRow) (hr : s.hasDocument r.id = false) :
    ({ s with documents := s.documents ++ [r] } : Store).Sound := by
  have hnew : ∀ r' ∈ s.documents, r'.id ≠ r.id := by simpa [hasDocument] using hr
  refine ⟨?_, h.jobIds, h.apart, fun j hj d hd => ?_⟩
  · rw [List.map_append, List.nodup_append']
    refine ⟨h.documentIds, List.nodup_singleton _, ?_⟩
    simpa [List.disjoint_singleton] using hnew
  · obtain ⟨r', hr', hid⟩ := hasDocument_iff.mp (h.refers j hj d hd)
    exact hasDocument_iff.mpr ⟨r', List.mem_append_left _ hr', hid⟩

theorem addJob (h : s.Sound) (r : JobRow) (hclash : s.jobs.any r.clashes = false)
    (hid : s.hasJob r.id = false) (hrefers : Jobs.refersWell s r.documentId = true) :
    ({ s with jobs := s.jobs ++ [r] } : Store).Sound := by
  have hnew : ∀ r' ∈ s.jobs, r'.id ≠ r.id := by simpa [hasJob] using hid
  refine ⟨h.documentIds, ?_, ?_, fun j hj d hd => ?_⟩
  · rw [List.map_append, List.nodup_append']
    refine ⟨h.jobIds, List.nodup_singleton _, ?_⟩
    simpa [List.disjoint_singleton] using hnew
  · refine List.pairwise_append.mpr ⟨h.apart, List.pairwise_singleton _ _, fun a ha b hb => ?_⟩
    rw [List.mem_singleton] at hb
    have hfree : r.clashes a = false := by simpa using List.any_eq_false.mp hclash a ha
    exact hb ▸ JobRow.Apart.symm hfree
  · rcases List.mem_append.mp hj with hj | hj
    · exact h.refers j hj d hd
    · rw [List.mem_singleton] at hj
      rw [← hj, hd] at hrefers
      exact hrefers

theorem changeJob (h : s.Sound) (id now : String) (c : Jobs.Change) :
    (Jobs.changed s id now c).Sound := by
  refine ⟨h.documentIds, ?_, Jobs.pairwise_changeWhere (c.gentle id now) h.apart, ?_⟩
  · have hids : (Jobs.changed s id now c).jobs.map (·.id) = s.jobs.map (·.id) :=
      map_changeWhere fun r _ _ => c.apply_id now r
    exact hids ▸ h.jobIds
  · intro r hr d hd
    obtain ⟨r', hr', rfl⟩ := mem_changeWhere.mp hr
    refine h.refers r' hr' d ?_
    split at hd
    · exact c.apply_documentId now r' ▸ hd
    · exact hd

end Store.Sound

/-! ### What the statements keep -/

theorem Txn.Aside.sound {ε α : Type} {t : Txn ε α} (h : t.Aside) : t.Keeps Store.Sound :=
  fun s hs => wp_mono (h.wp s) (fun _ _ hsame => hs.of_same hsame.1 hsame.2) fun _ h => h

namespace Documents

theorem insertAs_sound (word : String) (d : Document) : (insertAs word d).Keeps Store.Sound := by
  refine Keeps.bind (Keeps.ofExcept _) fun size => ?_
  dsimp only
  split
  · exact Keeps.fail _
  · intro s hs
    simp only [wp_bind, wp_store, wp_require, wp_modify]
    refine ⟨fun hnew => ?_, fun _ => trivial⟩
    exact hs.addDocument _ (by simpa using hnew)

theorem changeFrom_sound (id : String) (allowed : List DocumentStatus)
    {f : DocumentRow → DocumentRow} (hf : ∀ r, (f r).id = r.id) :
    (changeFrom id allowed f).Keeps Store.Sound := by
  intro s hs
  simp only [changeFrom, wp_bind, wp_store, wp_modify, wp_pure]
  exact hs.changeDocuments hf

end Documents

namespace Jobs

/-- Adding a row: what the rules refuse, and the store with the row. -/
theorem insertRow_wp {s : Store} {Q : Unit → Store → Prop} {E : StoreError → Prop} (r : JobRow) :
    (insertRow r).wp Q E s ↔
      if s.jobs.any r.clashes then E (.violation oneActive)
      else if s.hasJob r.id then E (.violation (.primaryKey "jobs" "id"))
      else if refersWell s r.documentId then Q () { s with jobs := s.jobs ++ [r] }
      else E (.violation .foreignKey) := by
  simp only [insertRow, wp_bind, wp_store, wp_require, wp_modify]
  cases s.jobs.any r.clashes <;> cases s.hasJob r.id <;> cases refersWell s r.documentId <;> simp

/-- A row that no rule refuses is added. -/
theorem insertRow_run {s : Store} {r : JobRow} (hclash : s.jobs.any r.clashes = false)
    (hid : s.hasJob r.id = false) (hrefers : refersWell s r.documentId = true) :
    (insertRow r).run s = (.ok (), { s with jobs := s.jobs ++ [r] }) := by
  rw [← wp_eq_run, insertRow_wp, hclash, hid, hrefers]
  simp

theorem insertRow_sound (r : JobRow) : (insertRow r).Keeps Store.Sound := by
  intro s hs
  rw [insertRow_wp]
  split
  case isTrue => trivial
  case isFalse hclash =>
    split
    case isTrue => trivial
    case isFalse hid =>
      split
      case isTrue hrefers =>
        exact hs.addJob r (Bool.not_eq_true _ ▸ hclash) (Bool.not_eq_true _ ▸ hid) hrefers
      case isFalse => trivial

theorem statement_sound (c : Change) (id now : String) :
    (c.statement id now).Keeps Store.Sound :=
  fun _ hs => (statement_wp hs.apart c id now).mpr (hs.changeJob id now c)

end Jobs
end Quire
