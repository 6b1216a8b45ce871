import Mathlib.Algebra.Group.Nat.Defs
import Mathlib.Data.Nat.Basic
import Quire.Proofs.Flow.Frames
import Quire.Proofs.Json.Assembly
import Quire.Proofs.Question.Params
import Quire.Proofs.Store.Rows
import Quire.Proofs.Store.Transaction
import Quire.Store.Versions

/-! Versions: their numbers, and that they stay as they were written.

The number of a new version is higher than the number of every version of the document, whether
that was published or was left behind, and higher than the one that is published. So as long as
there are higher numbers, no rule of the schema stands in the way of the new version.

The snapshot of a version is kept as a text, and whatever characters the pages have, the text is
read as the snapshot that it was made of (`Version.read_eq`). No version is overwritten or removed
(`Versions.alter_run`), and none gets the id of another one, so a version lasts whatever is
done (`Store.HasVersion.unharmed`). -/
namespace Quire.Versions
open Txn

variable {s : Store} {d : String} {versions : List Version}

theorem le_highest {v : Version} (hv : v ∈ versions) (hd : v.documentId = d) :
    v.version.toNat ≤ highest d versions := by
  refine le_foldl_of_mem (fun n v => ?_) hv fun n => ?_
  · split
    · exact Nat.le_max_left n _
    · exact Nat.le_refl n
  · rw [if_pos (by simp [hd])]
    exact Nat.le_max_right n _

theorem highest_lt {bound : Nat} (hbound : 0 < bound)
    (h : ∀ v ∈ versions, v.version.toNat < bound) : highest d versions < bound := by
  refine List.foldlRecOn (motive := (· < bound)) versions _ hbound fun n hn v hv => ?_
  split
  · exact Nat.max_lt.mpr ⟨hn, h v hv⟩
  · exact hn

/-- While there are higher numbers, one is found that is higher than all that are in use. -/
theorem next_run {active : UInt32} (hroom : ∀ v ∈ s.versions, v.version.toNat < 2 ^ 32 - 1)
    (hactive : active.toNat < 2 ^ 32 - 1) :
    ∃ number, (next d active).run s = (.ok number, s) ∧ active < number ∧
      ∀ v ∈ s.versions, v.documentId = d → v.version < number := by
  have hhighest := highest_lt (d := d) (by omega) hroom
  have hnext : max (highest d s.versions) active.toNat + 1 < 0x100000000 := by omega
  have hnumber := UInt32.toNat_ofNat_of_lt' hnext
  refine ⟨UInt32.ofNat (max (highest d s.versions) active.toNat + 1), ?_, ?_, fun v hv hd => ?_⟩
  · rw [← wp_eq_run]
    unfold next
    rw [wp_bind, wp_store]
    dsimp only
    rw [if_pos hnext]
    rfl
  · rw [UInt32.lt_iff_toNat_lt, hnumber]
    omega
  · have hle := le_highest hv hd
    rw [UInt32.lt_iff_toNat_lt, hnumber]
    omega

/-- A version of a higher number and with an id of its own is added. -/
theorem insert_run {v : Version} (hpositive : 0 < v.version)
    (hhigher : ∀ w ∈ s.versions, w.documentId = v.documentId → w.version < v.version)
    (hid : ∀ w ∈ s.versions, w.id ≠ v.id) (hdocument : s.hasDocument v.documentId = true) :
    (insert v).run s = (.ok (), { s with versions := s.versions ++ [v] }) := by
  have hnumber : s.versions.any (isVersion v.documentId v.version) = false := by
    rw [List.any_eq_false]
    intro w hw hsame
    obtain ⟨hdoc, hno⟩ : w.documentId = v.documentId ∧ w.version = v.version := by
      simpa [isVersion] using hsame
    exact UInt32.lt_irrefl _ (hno ▸ hhigher w hw hdoc)
  have hnew : s.versions.any (·.id == v.id) = false := by simpa using hid
  have hone : decide (1 ≤ v.version) = true := by
    rw [UInt32.lt_iff_toNat_lt] at hpositive
    rw [decide_eq_true_iff, UInt32.le_iff_toNat_le]
    exact hpositive
  rw [← wp_eq_run]
  unfold insert
  simp [hone, hnumber, hnew, hdocument]

theorem insert_added (v : Version) (s : Store) :
    (insert v).wp
      (fun _ s' => (∀ w ∈ s.versions, w.id ≠ v.id) ∧ s' = { s with versions := s.versions ++ [v] })
      (fun _ => True) s := by
  simp only [insert, wp_bind, wp_require, wp_store, wp_modify]
  refine ⟨fun _ => ⟨fun _ => ⟨fun hnew => ⟨fun _ => ⟨?_, trivial⟩, fun _ => trivial⟩,
    fun _ => trivial⟩, fun _ => trivial⟩, fun _ => trivial⟩
  simpa using hnew

/-- The number of a new version is higher than those of all versions of the document. -/
theorem next_wp (documentId : String) (active : UInt32) (s : Store) :
    (next documentId active).wp
      (fun number s' => s' = s ∧ 1 ≤ number ∧
        ∀ v ∈ s.versions, v.documentId = documentId → v.version < number)
      (fun _ => True) s := by
  unfold next
  rw [wp_bind, wp_store]
  dsimp only
  split
  case isFalse => trivial
  case isTrue hroom =>
    have hnumber := UInt32.toNat_ofNat_of_lt' hroom
    refine ⟨rfl, ?_, fun v hv hd => ?_⟩
    · rw [UInt32.le_iff_toNat_le, hnumber]
      show 1 ≤ _
      omega
    · have hle := le_highest hv hd
      rw [UInt32.lt_iff_toNat_lt, hnumber]
      omega

end Quire.Versions

/-! ### The column of a snapshot -/

namespace Quire
open Txn
open Json (Shape Record)

namespace Snapshot

theorem shape_pageJson (p : SnapshotPage) : shape .text (pageJson p).toOutline = .ok p := by
  obtain ⟨no, text⟩ := p
  simp [shape, pageJson, Json.toOutline, Json.memberOutlines, Json.ofNat, Record.shape,
    Record.ofMembers, Record.gather, Record.fill, Record.required, Record.field, Functor.map,
    Seq.seq, Record.map, Record.seq, Shape.ended, Shape.string, Shape.word32_ofNat, bind,
    Except.bind, pure, Except.pure]

theorem fits_pageJson (p : SnapshotPage) : (pageJson p).Fits := by
  have hno := p.pageNo.toNat_lt
  simp only [pageJson, Json.Fits, Json.MembersFit, Json.ofNat, Json.Number.Fits, Json.maxWord,
    and_true]
  omega

theorem fits_pages (pages : List SnapshotPage) : Json.ItemsFit (pages.map pageJson) := by
  induction pages with
  | nil => trivial
  | cons p rest ih => exact ⟨fits_pageJson p, ih⟩

theorem itemsDepth_pages (pages : List SnapshotPage) :
    Json.itemsDepth (pages.map pageJson) ≤ 1 := by
  induction pages with
  | nil => exact Nat.zero_le 1
  | cons p rest ih => exact Nat.max_le.mpr ⟨Nat.le_refl 1, ih⟩

/-- What the column holds is read as the snapshot that was written there. -/
theorem read_text (pages : List SnapshotPage) : read (text pages) = .ok pages := by
  have hdepth : (Json.array (pages.map pageJson)).depth ≤ Json.depthLimit := by
    have := itemsDepth_pages pages
    rw [Json.depth, Json.depthLimit]
    omega
  have hread : Json.readText (.list shape) (text pages) = .ok pages := by
    have hfits : (Json.array (pages.map pageJson)).Fits := fits_pages pages
    rw [text, Json.readText_compact _ hfits hdepth]
    exact Shape.list_outlines fun p _ => shape_pageJson p
  rw [read, hread]

end Snapshot

theorem Version.read_eq (v : Version) : v.read = .ok v := by
  rw [read, column, Snapshot.read_text]
  rfl

namespace Versions
variable {s : Store}

theorem find_run (id : String) (s : Store) :
    (find id).run s = (.ok (s.versions.find? (·.id == id)), s) := by
  rw [← wp_eq_run]
  unfold find
  rw [wp_bind, wp_store]
  split
  case h_1 hnone =>
    rw [hnone]
    rfl
  case h_2 v hsome =>
    rw [hsome, Version.read_eq]
    rfl

/-! ### What would change a version -/

section
variable (p : Version → Bool) (f : Version → Option Version)

/-- Row by row: the first version that would be overwritten or removed stops everything. -/
theorem mapM_protect (versions : List Version) :
    (versions.mapM fun v => if p v then do protect v; return f v else .ok (some v)) =
      if versions.any p then .error (.violation .immutable) else .ok (versions.map some) := by
  induction versions with
  | nil => rfl
  | cons v rest ih =>
    rw [List.mapM_cons, ih, List.any_cons]
    cases p v with
    | true => rfl
    | false => cases rest.any p <;> rfl

/-- What would overwrite or remove a version does not succeed, and nothing is changed; what finds
no version does nothing. -/
theorem alter_run (s : Store) :
    (alter p f).run s =
      (if s.versions.any p then .error (.violation .immutable) else .ok 0, s) := by
  rw [← wp_eq_run]
  unfold alter
  rw [wp_bind, wp_store, wp_bind, mapM_protect]
  cases hany : s.versions.any p with
  | true => rfl
  | false =>
    have hnone : s.versions.filter p = [] := by simpa using hany
    have hsame : (s.versions.map some).filterMap id = s.versions := by simp
    rw [if_neg (by simp), wp_ofExcept_ok, wp_bind, wp_modify, hnone, hsame]
    rfl

end

end Versions

/-! ### What lasts -/

/-- The version is there, and no other one has its id. -/
def Store.HasVersion (v : Version) (s : Store) : Prop := s.versions.filter (·.id == v.id) = [v]

namespace Store.HasVersion
variable {s : Store} {v : Version}

theorem find? (h : s.HasVersion v) : s.versions.find? (·.id == v.id) = some v := by
  rw [← List.head?_filter, h]
  rfl

/-- A version that is added with an id of its own is there. -/
theorem added (hnew : ∀ w ∈ s.versions, w.id ≠ v.id) :
    ({ s with versions := s.versions ++ [v] } : Store).HasVersion v := by
  have hnone : s.versions.filter (·.id == v.id) = [] :=
    List.filter_eq_nil_iff.mpr fun w hw => by simpa using hnew w hw
  simp [HasVersion, hnone]

/-- A version is destroyed by no statement. -/
theorem unharmed (v : Version) : Unharmed fun s => s.HasVersion v := by
  refine .of_versions (fun hversions h => ?_) fun w s h => ?_
  · unfold HasVersion
    rw [hversions]
    exact h
  · refine wp_mono (Versions.insert_added w s) ?_ fun _ h => h
    rintro - s' ⟨hnew, rfl⟩
    -- The one that is there has another id, or the new one would have been refused.
    have hv : v ∈ s.versions := List.mem_of_find?_eq_some h.find?
    have hother : (w.id == v.id) = false := beq_eq_false_iff_ne.mpr fun hid => hnew v hv hid.symm
    unfold HasVersion
    rw [List.filter_append, h, List.filter_singleton, hother]
    rfl

end Store.HasVersion
end Quire
