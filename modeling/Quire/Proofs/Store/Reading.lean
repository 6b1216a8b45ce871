import Mathlib.Data.List.Forall2
import Quire.Proofs.Store.Transaction
import Quire.Store.Jobs

/-! What is read from rows.

A job that is read shows what its row has; a row that cannot be read is a failure, and nothing
else is told of it. -/
namespace Quire
open Txn

section Reading
variable {α β ε : Type}

theorem bind_eq_ok {x : Except ε α} {k : α → Except ε β} {b : β} :
    (x >>= k) = .ok b ↔ ∃ a, x = .ok a ∧ k a = .ok b := by
  cases x with
  | ok a =>
    constructor
    · exact fun h => ⟨a, rfl, h⟩
    · rintro ⟨_, ha, h⟩
      cases ha
      exact h
  | error e =>
    constructor
    · exact nofun
    · exact fun ⟨_, h, _⟩ => nomatch h

/-- Rows are read one by one, in their order. -/
theorem mapM_eq_ok {f : α → Except ε β} {rows : List α} {read : List β} :
    rows.mapM f = .ok read ↔ List.Forall₂ (fun a b => f a = .ok b) rows read := by
  induction rows generalizing read with
  | nil =>
    rw [List.mapM_nil, List.forall₂_nil_left_iff]
    exact ⟨fun h => (Except.ok.inj h).symm, fun h => h ▸ rfl⟩
  | cons a rows ih =>
    rw [List.mapM_cons, List.forall₂_cons_left_iff, bind_eq_ok]
    constructor
    · rintro ⟨b, hb, h⟩
      obtain ⟨others, hothers, h⟩ := bind_eq_ok.mp h
      exact ⟨b, others, hb, ih.mp hothers, (Except.ok.inj h).symm⟩
    · rintro ⟨b, others, hb, hothers, rfl⟩
      exact ⟨b, hb, bind_eq_ok.mpr ⟨others, ih.mpr hothers, rfl⟩⟩

/-- Rows that can be read can be read one after the other. -/
theorem exists_mapM_eq_ok {f : α → Except ε β} {rows : List α}
    (h : ∀ a ∈ rows, ∃ b, f a = .ok b) : ∃ read, rows.mapM f = .ok read := by
  induction rows with
  | nil => exact ⟨[], rfl⟩
  | cons a rest ih =>
    obtain ⟨b, hb⟩ := h a List.mem_cons_self
    obtain ⟨others, hothers⟩ := ih fun a' ha' => h a' (List.mem_cons_of_mem _ ha')
    exact ⟨b :: others, mapM_eq_ok.mpr (.cons hb (mapM_eq_ok.mp hothers))⟩

theorem exists_of_mem_forall₂ {R : α → β → Prop} {as : List α} {bs : List β}
    (h : List.Forall₂ R as bs) {b : β} (hb : b ∈ bs) : ∃ a ∈ as, R a b := by
  induction h with
  | nil => cases hb
  | cons ha _ ih =>
    rcases List.mem_cons.mp hb with rfl | hb
    · exact ⟨_, List.mem_cons_self, ha⟩
    · obtain ⟨a, hmem, ha⟩ := ih hb
      exact ⟨a, List.mem_cons_of_mem _ hmem, ha⟩

theorem forall₂_trans {γ : Type} {R : α → β → Prop} {S : β → γ → Prop} {T : α → γ → Prop}
    (hT : ∀ {a b c}, R a b → S b c → T a c) {as : List α} {bs : List β} {cs : List γ}
    (hR : List.Forall₂ R as bs) (hS : List.Forall₂ S bs cs) : List.Forall₂ T as cs := by
  induction hR generalizing cs with
  | nil => exact List.forall₂_nil_left_iff.mp hS ▸ .nil
  | cons ha _ ih =>
    obtain ⟨c, rest, hc, hrest, rfl⟩ := List.forall₂_cons_left_iff.mp hS
    exact .cons (hT ha hc) (ih hrest)

end Reading

namespace Cell

theorem eq_of_bounded {c : Cell} {low high n : Int} {column : Nat} {name : String}
    (h : c.bounded low high column name = .ok n) : c = .integer n ∧ low ≤ n ∧ n ≤ high := by
  cases c with
  | integer k =>
    unfold bounded at h
    dsimp only at h
    split at h
    case isTrue hbounds =>
      obtain rfl := Except.ok.inj h
      exact ⟨rfl, by simpa using hbounds⟩
    case isFalse => cases h
  | real x => cases h
  | text s => cases h

/-- A cell that is read as a number has that number. -/
theorem eq_ofNat_of_word32 {c : Cell} {n : UInt32} {column : Nat} {name : String}
    (h : c.word32 column name = .ok n) : c = .ofNat n.toNat := by
  obtain ⟨k, hk, hword⟩ := bind_eq_ok.mp h
  obtain ⟨rfl, hlow, hhigh⟩ := eq_of_bounded hk
  obtain rfl := Except.ok.inj hword
  have hlt : k.toNat < 0x100000000 := by omega
  rw [UInt32.toNat_ofNat_of_lt' hlt]
  exact congrArg integer (Int.toNat_of_nonneg hlow).symm

end Cell

theorem StoredKind.word_of_read {κ : Type} [StoredKind κ] {word : String} {a : κ}
    (h : read word = .ok a) : Label.word a = word := by
  unfold read at h
  split at h
  case h_1 a' hfound =>
    obtain rfl := Except.ok.inj h
    simpa using List.find?_some hfound
  case h_2 => cases h

/-- The job that is read from a row. -/
structure JobRow.Shows (r : JobRow) (job : Job) : Prop where
  id : job.id = r.id
  ownerId : job.ownerId = r.ownerId
  documentId : job.documentId = r.documentId
  jobType : job.jobType = r.jobType
  status : job.status = r.status
  operationHandle : job.operationHandle = r.operationHandle
  params : r.params.read = .ok job.params

theorem JobRow.shows_of_read {r : JobRow} {job : Job} (h : r.read = .ok job) : r.Shows job := by
  obtain ⟨doneSteps, -, h⟩ := bind_eq_ok.mp h
  obtain ⟨totalSteps, -, h⟩ := bind_eq_ok.mp h
  obtain ⟨percent, -, h⟩ := bind_eq_ok.mp h
  obtain ⟨params, hparams, h⟩ := bind_eq_ok.mp h
  obtain ⟨result, -, h⟩ := bind_eq_ok.mp h
  obtain rfl := Except.ok.inj h
  exact ⟨rfl, rfl, rfl, rfl, rfl, rfl, hparams⟩

/-- The row of a job is active as long as the job has not ended. -/
theorem JobRow.Shows.isActive_eq {r : JobRow} {job : Job} (h : r.Shows job) :
    r.isActive = ! job.status.isTerminal := by
  unfold JobRow.isActive
  rw [h.status]

/-- The document that is read from a row. -/
structure DocumentRow.Shows (r : DocumentRow) (document : Document) : Prop where
  id : document.id = r.id
  ownerId : document.ownerId = r.ownerId
  status : document.status = r.status

theorem DocumentRow.shows_of_read {r : DocumentRow} {document : Document}
    (h : r.read = .ok document) : r.Shows document := by
  obtain ⟨fileSize, -, h⟩ := bind_eq_ok.mp h
  obtain ⟨pageCount, -, h⟩ := bind_eq_ok.mp h
  obtain ⟨activeVersion, -, h⟩ := bind_eq_ok.mp h
  obtain rfl := Except.ok.inj h
  exact ⟨rfl, rfl, rfl⟩

/-- What is stored as a value is read back. -/
theorem StoredJson.read_ofJson {j : Json} (h : j.isDurable = true) :
    (StoredJson.ofJson j).read = .ok j := by
  rw [ofJson, if_pos h]
  rfl

section
variable {s : Store} {E : StoreError → Prop}

theorem Jobs.find_wp {id : String} {Q : Option Job → Store → Prop} (hnone : Q none s)
    (hsome : ∀ r ∈ s.jobs, r.id = id → ∀ job, r.Shows job → Q (some job) s)
    (herror : ∀ e, E e) : (find id).wp Q E s := by
  unfold find
  rw [wp_bind, wp_store]
  split
  case h_1 => exact hnone
  case h_2 r hfound =>
    have hid : r.id = id := by simpa using List.find?_some hfound
    rw [wp_bind, wp_ofExcept]
    refine ⟨fun job hread => ?_, fun e _ => herror e⟩
    exact hsome r (List.mem_of_find?_eq_some hfound) hid job (JobRow.shows_of_read hread)

theorem Jobs.listStale_wp {now : String} {Q : List Job → Store → Prop}
    (h : ∀ jobs, (∀ job ∈ jobs, ∃ r ∈ s.jobs, r.Shows job) → Q jobs s) (herror : ∀ e, E e) :
    (listStale now).wp Q E s := by
  unfold listStale
  rw [wp_bind, wp_store, wp_ofExcept]
  refine ⟨fun jobs hread => h jobs fun job hjob => ?_, fun e _ => herror e⟩
  obtain ⟨r, hr, hjob⟩ := exists_of_mem_forall₂ (mapM_eq_ok.mp hread) hjob
  have hmem := List.mem_mergeSort.mp hr
  exact ⟨r, (List.mem_filter.mp hmem).1, JobRow.shows_of_read hjob⟩

theorem Documents.find_wp {id : String} {Q : Option Document → Store → Prop} (hnone : Q none s)
    (hsome : ∀ document, document.id = id → Q (some document) s) (herror : ∀ e, E e) :
    (find id).wp Q E s := by
  unfold find
  rw [wp_bind, wp_store]
  split
  case h_1 => exact hnone
  case h_2 r hfound =>
    have hid : r.id = id := by simpa using List.find?_some hfound
    rw [wp_bind, wp_ofExcept]
    exact ⟨fun document hread => hsome document ((DocumentRow.shows_of_read hread).id.trans hid),
      fun e _ => herror e⟩

end
end Quire
