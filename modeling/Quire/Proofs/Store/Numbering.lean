import Quire.Pipeline.Ingest
import Quire.Proofs.Store.Listing

/-! Pages that are numbered from one.

Pages with numbers of their own that are stored where a document has no page of these numbers stand
behind its other pages, in their order. No page has the number zero: so pages that are numbered in
turn can be stored only as long as their numbers fit a word. -/
namespace Quire
open Txn

/-- The pages of a document are these, in this order. -/
def Store.Files (s : Store) (d : String) (pages : List NewPage) : Prop :=
  List.Forall₂ (fun r p => r.pageNo = .ofNat p.pageNo.toNat ∧ r.Holds p) (s.pagesOf d) pages

namespace Store.Files
variable {s s' : Store} {d : String} {pages : List NewPage}

theorem of_same (h : s.Files d pages) (hpages : s'.pages = s.pages) : s'.Files d pages := by
  unfold Files pagesOf at h ⊢
  rw [hpages]
  exact h

theorem nil_iff : s.Files d [] ↔ s.pagesOf d = [] := List.forall₂_nil_right_iff

theorem numbers (h : s.Files d pages) :
    (s.pagesOf d).map (·.pageNo) = pages.map fun p => .ofNat p.pageNo.toNat := by
  rw [← List.forall₂_eq_eq_eq, List.forall₂_map_left_iff, List.forall₂_map_right_iff]
  exact h.imp fun _ _ hrow => hrow.1

/-- A page of the document has one of the numbers. -/
theorem mem_of_isPage (h : s.Files d pages) {r : PageRow} (hr : r ∈ s.pages) {n : UInt32}
    (hpage : Pages.isPage d n r = true) : n ∈ pages.map (·.pageNo) := by
  obtain ⟨hdoc, hno⟩ := Pages.isPage_iff.mp hpage
  have hmem : r.pageNo ∈ (s.pagesOf d).map (·.pageNo) :=
    List.mem_map_of_mem (List.mem_filter.mpr ⟨hr, by simp [hdoc]⟩)
  rw [h.numbers] at hmem
  obtain ⟨p, hp, hpno⟩ := List.mem_map.mp hmem
  rw [Cell.ofNat_toNat_inj (hno.symm.trans hpno.symm)]
  exact List.mem_map_of_mem hp

/-- A page of a new number is added behind the others. -/
theorem upsert_wp (h : s.Files d pages) (hdoc : s.hasDocument d = true) {p : NewPage}
    (hnew : p.pageNo ∉ pages.map (·.pageNo)) (now : String) :
    (Pages.upsert d p now).wp
      (fun _ s' => s'.Files d (pages ++ [p]) ∧ s'.hasDocument d = true)
      (fun _ => ¬ 1 ≤ p.pageNo) s := by
  rw [Pages.upsert_wp]
  split
  case isFalse hno => exact hno
  case isTrue =>
    split
    case isTrue hany =>
      obtain ⟨r, hr, hpage⟩ := List.any_eq_true.mp hany
      exact absurd (h.mem_of_isPage hr hpage) hnew
    case isFalse =>
      refine ⟨?_, hdoc⟩
      have hrow : (Pages.rowOf (Pages.lastId s + 1) d p now).documentId = d := rfl
      unfold Files pagesOf at h ⊢
      rw [List.filter_append, List.filter_singleton, hrow, beq_self_eq_true]
      exact List.rel_append h (.cons ⟨rfl, rfl⟩ .nil)

/-- Pages of new numbers are added behind the others, in their order; one is refused only for its
number. -/
theorem upsertAll_wp (h : s.Files d pages) (hdoc : s.hasDocument d = true) {more : List NewPage}
    (hnodup : ((pages ++ more).map (·.pageNo)).Nodup) (now : String) :
    (Pages.upsertAll d now more).wp (fun _ s' => s'.Files d (pages ++ more))
      (fun _ => ∃ p ∈ more, ¬ 1 ≤ p.pageNo) s := by
  induction more generalizing s pages with
  | nil => simpa [Pages.upsertAll] using h
  | cons p rest ih =>
    rw [List.append_cons] at hnodup ⊢
    have hnew : p.pageNo ∉ pages.map (·.pageNo) := by
      rw [List.map_append, List.map_append] at hnodup
      exact fun hmem => (List.nodup_append.mp (List.nodup_append.mp hnodup).1).2.2 _ hmem _
        (List.mem_singleton_self _) rfl
    unfold Pages.upsertAll
    rw [wp_bind]
    refine wp_mono (h.upsert_wp hdoc hnew now) (fun _ s' hs' => ?_) fun _ hno =>
      ⟨p, List.mem_cons_self, hno⟩
    exact wp_mono (ih hs'.1 hs'.2 hnodup) (fun _ _ h => h) fun _ hno =>
      hno.imp fun _ => And.imp_left (List.mem_cons_of_mem p)

end Store.Files

/-- Pages that stand in the order of their numbers are read as they were stored. -/
theorem Pages.list_files {s : Store} {d : String} {pages : List NewPage} (h : s.Files d pages)
    (hasc : (pages.map (·.pageNo)).Pairwise (· < ·)) :
    ∃ listed, (list d).run s = (.ok listed, s) ∧ List.Forall₂ Page.Shows listed pages := by
  have hsorted : ((s.pagesOf d).mergeSort fun a b => a.pageNo.le b.pageNo) = s.pagesOf d := by
    refine List.mergeSort_of_pairwise ?_
    have hnumbers : ((s.pagesOf d).map (·.pageNo)).Pairwise fun a b => a.le b = true := by
      rw [h.numbers, List.pairwise_map]
      refine (List.pairwise_map.mp hasc).imp fun hlt => ?_
      rw [Cell.le_ofNat, decide_eq_true_eq]
      exact UInt32.le_of_lt hlt
    exact List.pairwise_map.mp hnumbers
  have hlegible : s.Legible d := by
    intro r hr
    obtain ⟨p, -, hno, hholds⟩ := exists_of_mem_forall₂ (List.Forall₂.flip h) hr
    obtain ⟨page, hread, -⟩ := PageRow.read_of_holds hno hholds
    exact ⟨page, hread⟩
  obtain ⟨listed, hrun⟩ := hlegible.list_run
  have hreads := reads_of_list (congrArg Prod.fst hrun)
  rw [hsorted] at hreads
  refine ⟨listed, hrun, forall₂_trans (fun hread hrow => ?_) hreads.flip h⟩
  obtain ⟨page, hread', hshows⟩ := PageRow.read_of_holds hrow.1 hrow.2
  exact Except.ok.inj (hread'.symm.trans hread) ▸ hshows

/-- What is stored has no page of the number zero. -/
theorem Pages.upsertAll_positive (d now : String) (pages : List NewPage) (s : Store) :
    (upsertAll d now pages).wp (fun _ _ => ∀ p ∈ pages, 1 ≤ p.pageNo) (fun _ => True) s := by
  induction pages generalizing s with
  | nil => exact fun _ h => nomatch h
  | cons p rest ih =>
    have hrest : 1 ≤ p.pageNo → ∀ s', (upsertAll d now rest).wp
        (fun _ _ => ∀ q ∈ p :: rest, 1 ≤ q.pageNo) (fun _ => True) s' := fun hone s' =>
      wp_mono (ih s') (fun _ _ h => List.forall_mem_cons.mpr ⟨hone, h⟩) fun _ h => h
    unfold upsertAll
    rw [wp_bind, upsert_wp]
    split
    case isFalse => trivial
    case isTrue hone =>
      split
      case isTrue => exact hrest hone _
      case isFalse =>
        split
        case isTrue => exact hrest hone _
        case isFalse => trivial

/-! ### Numbers in turn -/

/-- Pages that are numbered in turn, as far as the numbers go. -/
def NewPage.InTurn (pages : List NewPage) : Prop :=
  pages.map (·.pageNo) = (List.range pages.length).map fun i => UInt32.ofNat (i + 1)

/-- The pages of a document are numbered from one, in this order. -/
def Store.NumberedTo (s : Store) (d : String) (n : Nat) : Prop :=
  (s.pagesOf d).map (·.pageNo) = (List.range n).map fun i => .ofNat (i + 1)

/-- A page for each of some texts. -/
def NewPage.ofTexts (source : PageSource) (texts : List String) : List NewPage :=
  texts.zipIdx.map fun (text, i) => .uncleaned (UInt32.ofNat (i + 1)) text source

theorem NewPage.ofTexts_inTurn (source : PageSource) (texts : List String) :
    InTurn (ofTexts source texts) := by
  have hzip : texts.zipIdx.map (fun x => UInt32.ofNat (x.2 + 1)) =
      (texts.zipIdx.map Prod.snd).map fun i => UInt32.ofNat (i + 1) := by
    rw [List.map_map]
    rfl
  unfold NewPage.InTurn ofTexts
  rw [List.map_map, show (fun x : NewPage => x.pageNo) ∘ _ =
    fun x : String × Nat => UInt32.ofNat (x.2 + 1) from rfl, hzip, List.zipIdx_map_snd,
    List.length_map, List.length_zipIdx, List.range_eq_range']

theorem NewPage.ofTexts_length (source : PageSource) (texts : List String) :
    (ofTexts source texts).length = texts.length := by
  unfold ofTexts
  rw [List.length_map, List.length_zipIdx]

theorem Pipeline.ownPages_inTurn (texts : List String) : NewPage.InTurn (ownPages texts) :=
  NewPage.ofTexts_inTurn .native texts

theorem NewPage.inTurn_single {p : NewPage} (h : p.pageNo = 1) : InTurn [p] := by
  unfold InTurn
  rw [List.map_singleton, h]
  rfl

namespace NewPage.InTurn
variable {pages : List NewPage}

/-- If no page has the number zero, the numbers have not begun again. -/
theorem length_lt (h : InTurn pages) (hpositive : ∀ p ∈ pages, 1 ≤ p.pageNo) :
    pages.length < UInt32.size := by
  by_contra hlong
  have hzero : (0 : UInt32) ∈ pages.map (·.pageNo) := by
    rw [h]
    exact List.mem_map.mpr ⟨UInt32.size - 1, List.mem_range.mpr (by
      unfold UInt32.size at hlong ⊢
      omega), rfl⟩
  obtain ⟨p, hp, hno⟩ := List.mem_map.mp hzero
  exact absurd (hno ▸ hpositive p hp) (by decide)

theorem toNat_ofNat (hlength : pages.length < UInt32.size) {i : Nat} (hi : i < pages.length) :
    (UInt32.ofNat (i + 1)).toNat = i + 1 :=
  UInt32.toNat_ofNat_of_lt' (Nat.lt_of_le_of_lt hi hlength)

theorem positive (h : InTurn pages) (hlength : pages.length < UInt32.size) {p : NewPage}
    (hp : p ∈ pages) : 1 ≤ p.pageNo := by
  have hmem : p.pageNo ∈ pages.map (·.pageNo) := List.mem_map_of_mem hp
  rw [h] at hmem
  obtain ⟨i, hi, hno⟩ := List.mem_map.mp hmem
  rw [UInt32.le_iff_toNat_le, ← hno, toNat_ofNat hlength (List.mem_range.mp hi)]
  exact Nat.le_add_left 1 i

theorem ascending (h : InTurn pages) (hlength : pages.length < UInt32.size) :
    (pages.map (·.pageNo)).Pairwise (· < ·) := by
  rw [h, List.pairwise_map]
  refine List.pairwise_lt_range.imp_of_mem fun hi hj hlt => ?_
  rw [UInt32.lt_iff_toNat_lt, toNat_ofNat hlength (List.mem_range.mp hi),
    toNat_ofNat hlength (List.mem_range.mp hj)]
  exact Nat.succ_lt_succ hlt

theorem nodup (h : InTurn pages) (hlength : pages.length < UInt32.size) :
    (pages.map (·.pageNo)).Nodup :=
  (h.ascending hlength).imp fun hlt => UInt32.ne_of_lt hlt

theorem numberedTo (h : InTurn pages) (hlength : pages.length < UInt32.size) {s : Store}
    {d : String} (hs : s.Files d pages) : s.NumberedTo d pages.length := by
  have hcells : pages.map (fun p => Cell.ofNat p.pageNo.toNat) =
      (pages.map (·.pageNo)).map fun n => .ofNat n.toNat := by
    rw [List.map_map]
    rfl
  unfold Store.NumberedTo
  rw [hs.numbers, hcells, h, List.map_map]
  exact List.map_congr_left fun i hi => by
    rw [Function.comp_apply, toNat_ofNat hlength (List.mem_range.mp hi)]

end NewPage.InTurn
end Quire
