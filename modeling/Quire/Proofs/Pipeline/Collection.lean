import Mathlib.Data.List.Perm.Basic
import Quire.Proofs.Flow.Triples
import Quire.Proofs.Pipeline.Cleanup
import Quire.Proofs.Store.Listing

/-! Collecting the results of an operation.

The objects that an operation has left can be listed, in any order, and read; everything else is
answered in any way. While their pages are collected the job stays open, its document stays
processing, and the rows of the document are those of the pages that have been stored so far. -/
namespace Quire
open Txn

/-! ### Objects -/

namespace ObjectStore
variable (o : ObjectStore)

/-- Surroundings with these objects and a cleaner. Unless something may fail, what is asked of the
objects is answered, and the operation is done without a failure. -/
def surroundings (can : Cleanup.Answers) (mayFail : Prop) : Surroundings Unit where
  allows
    | .list start, _, answer, _ =>
      (∃ found, answer = .ok found ∧ found.Perm (o.list start)) ∨
        mayFail ∧ ∃ e, answer = .error e
    | .get key, _, answer, _ => answer = o.get key ∨ mayFail ∧ ∃ e, answer = .error e
    | .status _, _, answer, _ =>
      (∃ state, answer = .ok state ∧ state.done = true ∧ state.error = none) ∨ mayFail
    | .beginCleaning i _ _, _, answer, _ => ∀ r, answer = some r → can i r
    | .awaitCleaning first others, _, answer, _ => can ((first :: others).get answer.1) answer.2
    | _, _, _, _ => True

/-- The keys of the shards in a folder. -/
def shardKeys (folder : String) : List String := (o.list folder).filter Ocr.Shard.isShardKey

/-- An object is a shard with some pages. -/
def Reads (key : String) (pages : List Ocr.Page) : Prop :=
  ∃ bytes, o.get key = .ok bytes ∧ Ocr.Shard.parse bytes = .ok pages

/-- The shards of a folder, in the order of their keys. -/
def Shards (folder : String) (shards : List (List Ocr.Page)) : Prop :=
  List.Forall₂ o.Reads (o.shardKeys folder) shards

variable {o}

theorem Reads.unique {key : String} {pages pages' : List Ocr.Page} (h : o.Reads key pages)
    (h' : o.Reads key pages') : pages = pages' := by
  obtain ⟨bytes, hget, hparse⟩ := h
  obtain ⟨bytes', hget', hparse'⟩ := h'
  obtain rfl := Except.ok.inj (hget.symm.trans hget')
  exact Except.ok.inj (hparse.symm.trans hparse')

/-- In whichever order shards are read, their pages are the same. -/
theorem Shards.perm {folder : String} {shards parts : List (List Ocr.Page)}
    (h : o.Shards folder shards) {keys : List String} (hkeys : keys.Perm (o.shardKeys folder))
    (hparts : List.Forall₂ o.Reads keys parts) : parts.flatten.Perm shards.flatten := by
  obtain ⟨parts', hparts', hperm⟩ := List.perm_comp_forall₂ hkeys h
  have hunique : Relator.RightUnique o.Reads := fun _ _ _ => Reads.unique
  exact List.right_unique_forall₂' hunique hparts hparts' ▸ hperm.flatten

/-- Shards that are found can be read. -/
theorem Shards.exists_of_mem {folder key : String} {shards : List (List Ocr.Page)}
    (h : o.Shards folder shards) (hkey : key ∈ o.shardKeys folder) : ∃ pages, o.Reads key pages := by
  obtain ⟨pages, -, hpages⟩ := exists_of_mem_forall₂ h.flip hkey
  exact ⟨pages, hpages⟩

end ObjectStore

/-! ### Sorting -/

namespace Ocr.Shard

theorem merge_perm (shards : List (List Page)) : (merge shards).Perm shards.flatten :=
  List.mergeSort_perm _ _

theorem merge_sorted (shards : List (List Page)) :
    (merge shards).Pairwise fun a b => a.number ≤ b.number :=
  pairwise_mergeSort_word Page.number shards.flatten

/-- Pages in ascending order are the only way to merge them, however they are divided. -/
theorem merge_of_ascending {all : List Page} {shards : List (List Page)}
    (hall : all.Pairwise fun a b => a.number < b.number) (hperm : shards.flatten.Perm all) :
    merge shards = all := by
  have hnodup : (all.map (·.number)).Nodup :=
    List.pairwise_map.mpr (hall.imp fun hab => UInt32.ne_of_lt hab)
  have hmerged := (merge_perm shards).trans hperm
  refine hmerged.eq_of_pairwise (fun a b ha hb hab hba => ?_) (merge_sorted shards)
    (hall.imp UInt32.le_of_lt)
  exact List.inj_on_of_nodup_map hnodup (hmerged.mem_iff.mp ha) hb (UInt32.le_antisymm hab hba)

theorem merge_ascending {shards : List (List Page)}
    (hnodup : (shards.flatten.map (·.number)).Nodup) :
    ((merge shards).map (·.number)).Pairwise (· < ·) := by
  have hnodup' := ((merge_perm shards).map (·.number)).nodup_iff.mpr hnodup
  rw [List.Nodup, List.pairwise_map] at hnodup'
  rw [List.pairwise_map]
  exact ((merge_sorted shards).and hnodup').imp fun hab => UInt32.lt_of_le_of_ne hab.1 hab.2

/-- Pages of different numbers have one order only. -/
theorem merge_eq {shards parts : List (List Page)} (h : parts.flatten.Perm shards.flatten)
    (hnodup : (shards.flatten.map (·.number)).Nodup) : merge parts = merge shards :=
  merge_of_ascending (List.pairwise_map.mp (merge_ascending hnodup))
    (h.trans (merge_perm shards).symm)

end Ocr.Shard

/-! ### Reading and storing -/

/-- While results are collected: the job is open, its document is processing, and the document has
the pages that have been stored so far. -/
structure Store.Collecting (jobId d : String) (numbers : List UInt32) (done : List NewPage)
    (s : Store) : Prop where
  sound : s.Sound
  job : ∃ r ∈ s.jobs, Jobs.isOpen jobId r = true
  document : ∃ r ∈ s.documents, r.id = d ∧ r.status = .processing
  stored : s.HasStored d numbers done

section Collecting
variable {jobId d : String} {numbers : List UInt32} {done : List NewPage} {s s' : Store}

theorem Store.Collecting.hasDocument (h : s.Collecting jobId d numbers done) :
    s.hasDocument d = true := by
  obtain ⟨r, hr, hid, -⟩ := h.document
  exact hasDocument_iff.mpr ⟨r, hr, hid⟩

/-- A sign of life or progress is recorded, and nothing else changes. -/
theorem mark_collecting (h : s.Collecting jobId d numbers done) {c : Jobs.Change}
    (hc : c.target? = none) (now : String) :
    (guarded jobId (c.statement jobId now)).wp
      (fun _ => Store.Collecting jobId d numbers done) (fun _ => False) s := by
  refine Jobs.guarded_wp h.sound.apart c jobId now (fun _ => ?_) fun hclosed => ?_
  · refine ⟨h.sound.changeJob jobId now c, ?_, h.document, h.stored.of_same rfl⟩
    obtain ⟨r, hr, hopen⟩ := h.job
    refine ⟨_, mem_changeWhere.mpr ⟨r, hr, rfl⟩, ?_⟩
    rw [if_pos hopen]
    obtain ⟨hid, hactive⟩ := Jobs.isOpen_iff.mp hopen
    exact Jobs.isOpen_iff.mpr
      ⟨(c.apply_id now r).trans hid, (c.apply_isActive now r hc).trans hactive⟩
  · obtain ⟨r, hr, hopen⟩ := h.job
    exact absurd hopen (by simp [hclosed r hr])

theorem event_collecting (h : s.Collecting jobId d numbers done) (kind : EventKind)
    (step : Option String) (message : String) (trace : Option String) (now : String) :
    (Jobs.insertEvent jobId kind step message trace now).wp
      (fun _ => Store.Collecting jobId d numbers done) (fun _ => False) s := by
  obtain ⟨r, hr, hopen⟩ := h.job
  have hthere : s.hasJob jobId = true := Store.hasJob_iff.mpr ⟨r, hr, (Jobs.isOpen_iff.mp hopen).1⟩
  simp only [Jobs.insertEvent, wp_bind, wp_store, wp_require, wp_modify, hthere]
  refine ⟨fun _ => ?_, by simp⟩
  exact ⟨h.sound.of_same rfl rfl, ⟨r, hr, hopen⟩, h.document, h.stored.of_same rfl⟩

theorem store_collecting (h : s.Collecting jobId d numbers done) {pages : List NewPage}
    (hknown : ∀ p ∈ pages, p.pageNo ∈ numbers) (now : String) :
    (Pages.upsertAll d now pages).wp
      (fun _ => Store.Collecting jobId d numbers (done ++ pages))
      (fun _ => ∃ p ∈ pages, ¬ 1 ≤ p.pageNo) s := by
  refine wp_mono (wp_and (h.stored.upsertAll_wp now h.hasDocument hknown)
    ((Pages.upsertAll_aside d now pages).wp s)) (fun _ s' hs' => ?_) fun _ he => he.1
  obtain ⟨hstored, hdocuments, hjobs⟩ := hs'
  exact ⟨h.sound.of_same hdocuments hjobs, hjobs ▸ h.job, hdocuments ▸ h.document, hstored⟩

variable {σ : Type} {w : Surroundings σ}

theorem Ledger.updateProgress_collecting {E : JobError → Store → Prop}
    (finished total : UInt32) (step : String) :
    (updateProgress jobId finished total step).Takes w (fun _ => True)
      (Store.Collecting jobId d numbers done) (fun _ => Store.Collecting jobId d numbers done) E := by
  refine (Run.Takes.perform (e := .clock) rfl).bind fun now => .transact fun s hs => ?_
  exact wp_mono (mark_collecting (c := .progressed finished total _ step) hs rfl now.timestamp)
    (fun _ _ h => ⟨trivial, h⟩) fun _ h => h.elim

theorem Ledger.addEvent_collecting {E : JobError → Store → Prop} (kind : EventKind)
    (step : Option String) (message : String) (trace : Option String) :
    (addEvent jobId kind step message trace).Takes w (fun _ => True)
      (Store.Collecting jobId d numbers done) (fun _ => Store.Collecting jobId d numbers done) E := by
  refine (Run.Takes.perform (e := .clock) rfl).bind fun now => .transact fun s hs => ?_
  exact wp_mono (event_collecting hs kind step message trace now.timestamp)
    (fun _ _ h => ⟨trivial, h⟩) fun _ h => h.elim

namespace Pipeline

theorem cleanPages_collecting {o : ObjectStore} {can : Cleanup.Answers} {mayFail : Prop}
    (p : Pipeline) (pages : List Ocr.Page) {E : PipelineError → Store → Prop} :
    Run.Takes (o.surroundings can mayFail) (fun _ => True) (Store.Collecting jobId d numbers done)
      (fun new s => s.Collecting jobId d numbers done ∧ p.PreparesAll can pages new) E
      (ExceptT.lift (p.cleanPages jobId pages)) := by
  have hsteady : Cleanup.Steady ((o.surroundings can mayFail).keeping fun _ => True) can
      (fun m => m.1.Collecting jobId d numbers done) jobId :=
    { begin := fun _ _ _ _ m hm hK =>
        (Surroundings.asking_iff rfl).mpr fun b _ hcan => hK b _ hcan hm
      await := fun _ _ _ m hm hK =>
        (Surroundings.asking_iff rfl).mpr fun b _ hcan => hK b _ hcan hm
      progress := fun finished total m hm => by
        exact Run.Takes.iff_leads.mp
          (Ledger.updateProgress_collecting finished total "cleaning") m.1 m.2 hm }
  refine Run.Takes.iff_leads.mpr fun s x hs => (Run.Leads.lift _).mpr ?_
  exact p.cleanPages_leads pages hsteady (s, x) hs

/-- Batch by batch all pages are stored; one is refused only for its number. -/
theorem storeBatches_collecting {batch : Nat} (hbatch : 1 ≤ batch) (total stored left : Nat)
    {pages : List NewPage} (hleft : pages.length ≤ left)
    (hknown : ∀ p ∈ pages, p.pageNo ∈ numbers) :
    (storeBatches jobId d batch total stored left pages).Takes w (fun _ => True)
      (Store.Collecting jobId d numbers done)
      (fun _ => Store.Collecting jobId d numbers (done ++ pages))
      fun _ _ => ∃ p ∈ pages, ¬ 1 ≤ p.pageNo := by
  induction left generalizing done stored pages with
  | zero =>
    obtain rfl := List.length_eq_zero_iff.mp (Nat.le_zero.mp hleft)
    exact .pure fun s hs => by simpa using hs
  | succ left ih =>
    cases pages with
    | nil => exact .pure fun s hs => by simpa using hs
    | cons page rest =>
      let here := (page :: rest).take batch
      let later := (page :: rest).drop batch
      have hsplit : here ++ later = page :: rest := List.take_append_drop batch _
      have hhere : ∀ p ∈ here, p ∈ page :: rest := fun p hp => List.mem_of_mem_take hp
      have hlater : ∀ p ∈ later, p ∈ page :: rest := fun p hp => List.mem_of_mem_drop hp
      refine (Run.Takes.perform (e := .clock) rfl).bind fun now => ?_
      refine Run.Takes.bind (R := fun _ => Store.Collecting jobId d numbers (done ++ here))
        (.transact fun s hs => ?_) fun _ => ?_
      · refine wp_mono (store_collecting hs (fun p hp => hknown p (hhere p hp)) now.timestamp)
          (fun _ _ h => ⟨trivial, h⟩) fun _ h => ?_
        obtain ⟨p, hp, hno⟩ := h
        exact ⟨p, hhere p hp, hno⟩
      · refine Run.Takes.bind (.widen (Ledger.updateProgress_collecting _ _ _)) fun _ => ?_
        have hlength : later.length ≤ left := by
          have : later.length = rest.length + 1 - batch := List.length_drop
          simp only [List.length_cons] at hleft
          omega
        refine (ih _ hlength fun p hp => hknown p (hlater p hp)).conseq (fun _ h => h) ?_ ?_
        · intro _ s hs
          rwa [List.append_assoc, hsplit] at hs
        · exact fun _ _ ⟨p, hp, hno⟩ => ⟨p, hlater p hp, hno⟩

end Pipeline
end Collecting

end Quire
