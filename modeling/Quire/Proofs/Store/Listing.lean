import Quire.Proofs.Store.Pages
import Quire.Proofs.Store.Reading
import Mathlib.Algebra.Group.Nat.Defs
import Mathlib.Data.List.Dedup
import Mathlib.Data.List.Sort

/-! The pages of a document, read back.

What is read is one page for each number that was stored, in ascending order, with the content of
the last page of that number. If no number was stored twice those are the pages that were stored;
otherwise there are fewer. -/
namespace Quire
open Txn

/-- A page as it is read after it was stored. -/
structure Page.Shows (page : Page) (p : NewPage) : Prop where
  pageNo : page.pageNo = p.pageNo
  rawText : page.rawText = some p.rawText
  cleanText : page.cleanText = some p.cleanText
  source : page.source = p.source
  wordCount : page.wordCount = UInt32.ofNat (Text.wordCount p.rawText)
  cleaningModel : page.cleaningModel = p.cleaningModel
  cleaningVersion : page.cleaningVersion = p.cleaningVersion
  cleaningFailed : page.cleaningFailed = p.cleaningFailed
  changesSummary : page.changesSummary = p.changesSummary

/-- What is read of a document whose pages were stored: each number once, in ascending order, with
the last page of that number. -/
structure Pages.Lists (stored : List NewPage) (pages : List Page) : Prop where
  ascending : (pages.map (·.pageNo)).Pairwise (· < ·)
  numbers : ∀ n, n ∈ pages.map (·.pageNo) ↔ n ∈ stored.map (·.pageNo)
  shows : ∀ page ∈ pages, ∀ p, lastOf page.pageNo stored = some p → page.Shows p

theorem PageRow.read_of_holds {r : PageRow} {p : NewPage} (hno : r.pageNo = .ofNat p.pageNo.toNat)
    (h : r.Holds p) : ∃ page, r.read = .ok page ∧ page.Shows p := by
  have hread : (Pages.withContent p r).read = .ok
      { documentId := r.documentId, pageNo := p.pageNo, rawText := some p.rawText,
        cleanText := some p.cleanText, editedText := r.editedText, source := p.source,
        wordCount := UInt32.ofNat (Text.wordCount p.rawText), cleaningModel := p.cleaningModel,
        cleaningVersion := p.cleaningVersion, cleaningFailed := p.cleaningFailed,
        changesSummary := p.changesSummary, editedBy := r.editedBy, editedAt := r.editedAt,
        createdAt := r.createdAt } := by
    unfold PageRow.read Pages.withContent
    simp only [hno, Cell.word32_ofNat, Cell.flag_ofFlag]
    rfl
  rw [h] at hread
  exact ⟨_, hread, rfl, rfl, rfl, rfl, rfl, rfl, rfl, rfl, rfl⟩

/-- Words that are different, none of them zero, can be counted in a word. -/
theorem length_lt_of_nodup {words : List UInt32} (hnodup : words.Nodup)
    (hno : ∀ n ∈ words, 1 ≤ n) : words.length < 2 ^ 32 := by
  have hnodup' : (words.map UInt32.toNat).Nodup := hnodup.map fun _ _ => UInt32.toNat_inj.mp
  have hsubset : words.map UInt32.toNat ⊆ List.range' 1 (2 ^ 32 - 1) := by
    intro n hn
    obtain ⟨word, hword, rfl⟩ := List.mem_map.mp hn
    have hone := UInt32.le_iff_toNat_le.mp (hno word hword)
    have hlt := word.toNat_lt
    rw [List.mem_range'_1]
    exact ⟨hone, by omega⟩
  have hle := (List.subperm_of_subset hnodup' hsubset).length_le
  rw [List.length_map, List.length_range'] at hle
  omega

/-! ### Rows that can be read -/

/-- What is read of a row has the number of it. -/
theorem PageRow.pageNo_of_read {r : PageRow} {page : Page} (h : r.read = .ok page) :
    r.pageNo = .ofNat page.pageNo.toNat := by
  obtain ⟨pageNo, hno, h⟩ := bind_eq_ok.mp h
  obtain ⟨wordCount, -, h⟩ := bind_eq_ok.mp h
  obtain ⟨cleaningFailed, -, h⟩ := bind_eq_ok.mp h
  obtain rfl := Except.ok.inj h
  exact Cell.eq_ofNat_of_word32 hno

/-- The text that counts is the one of the row. -/
theorem PageRow.finalText_of_read {r : PageRow} {page : Page} (h : r.read = .ok page) :
    page.finalText = (r.editedText <|> r.cleanText <|> r.rawText).getD "" := by
  obtain ⟨pageNo, -, h⟩ := bind_eq_ok.mp h
  obtain ⟨wordCount, -, h⟩ := bind_eq_ok.mp h
  obtain ⟨cleaningFailed, -, h⟩ := bind_eq_ok.mp h
  obtain rfl := Except.ok.inj h
  rfl

/-- The rows of a document can be read. -/
def Store.Legible (s : Store) (d : String) : Prop := ∀ r ∈ s.pagesOf d, ∃ page, r.read = .ok page

namespace Store.Legible
variable {s : Store} {d : String}

theorem number_eq (h : s.Legible d) {r : PageRow} (hr : r ∈ s.pagesOf d) :
    r.pageNo = .ofNat r.pageNo.number.toNat := by
  obtain ⟨page, hread⟩ := h r hr
  rw [PageRow.pageNo_of_read hread, Cell.number_ofNat]

theorem numbers_nodup (h : s.Legible d) (hkeyed : s.Keyed) :
    ((s.pagesOf d).map (·.pageNo.number)).Nodup := by
  have hrows : (s.pagesOf d).Sublist s.pages := List.filter_sublist
  have hkeys := hkeyed.sublist (hrows.map _)
  rw [List.Nodup, List.pairwise_map] at hkeys ⊢
  refine hkeys.imp_of_mem fun {a b} ha hb hne heq => hne ?_
  have hdoc : a.documentId = b.documentId := by
    rw [beq_iff_eq.mp (List.mem_filter.mp ha).2, beq_iff_eq.mp (List.mem_filter.mp hb).2]
  have hno : a.pageNo = b.pageNo := by rw [h.number_eq ha, h.number_eq hb, heq]
  rw [hdoc, hno]

/-- The rows are sorted by their numbers. -/
theorem sorted_numbers (h : s.Legible d) (hkeyed : s.Keyed) :
    (((s.pagesOf d).mergeSort fun a b => a.pageNo.le b.pageNo).map (·.pageNo.number)).Pairwise
      (· < ·) := by
  have hsorted : (((s.pagesOf d).mergeSort fun a b => a.pageNo.le b.pageNo).map (·.pageNo.number)) =
      ((s.pagesOf d).map (·.pageNo.number)).mergeSort (fun n k => decide (n ≤ k)) := by
    refine List.map_mergeSort fun a ha b hb => ?_
    rw [h.number_eq ha, h.number_eq hb, Cell.le_ofNat, Cell.number_ofNat, Cell.number_ofNat]
  rw [hsorted]
  have hnodup := (List.mergeSort_perm _ fun n k => decide (n ≤ k)).nodup_iff.mpr
    (h.numbers_nodup hkeyed)
  have hle := pairwise_mergeSort_word id ((s.pagesOf d).map (·.pageNo.number))
  exact (hle.and hnodup).imp fun hab => UInt32.lt_of_le_of_ne hab.1 hab.2

theorem list_run (h : s.Legible d) : ∃ pages, (Pages.list d).run s = (.ok pages, s) := by
  have hperm := List.mergeSort_perm (s.pagesOf d) fun a b => a.pageNo.le b.pageNo
  obtain ⟨pages, hread⟩ := exists_mapM_eq_ok fun r hr => h r (hperm.mem_iff.mp hr)
  refine ⟨pages, ?_⟩
  rw [← wp_eq_run]
  unfold Pages.list
  rw [wp_bind, wp_store]
  show (ofExcept (((s.pagesOf d).mergeSort fun a b => a.pageNo.le b.pageNo).mapM
    PageRow.read)).wp _ _ s
  rw [hread]
  exact (wp_ofExcept_ok pages).mpr rfl

end Store.Legible

namespace Pages
variable {s : Store} {d : String} {pages : List Page} (h : ((list d).run s).1 = .ok pages)
include h

/-- What is listed was read of the rows, in the order of their numbers. -/
theorem reads_of_list : List.Forall₂ (fun r page => r.read = .ok page)
    ((s.pagesOf d).mergeSort fun a b => a.pageNo.le b.pageNo) pages := by
  have hwp : (list d).wp (fun pages _ => List.Forall₂ (fun r page => r.read = .ok page)
      ((s.pagesOf d).mergeSort fun a b => a.pageNo.le b.pageNo) pages) (fun _ => True) s := by
    unfold list
    rw [wp_bind, wp_store, wp_ofExcept]
    exact ⟨fun pages hread => mapM_eq_ok.mp hread, fun _ _ => trivial⟩
  exact ((wp_iff_run _).mp hwp).1 pages h

theorem mem_iff_of_list {page : Page} :
    page ∈ pages ↔ ∃ r ∈ s.pagesOf d, r.read = .ok page := by
  have hreads := reads_of_list h
  constructor
  · intro hpage
    obtain ⟨r, hr, hread⟩ := exists_of_mem_forall₂ hreads hpage
    exact ⟨r, List.mem_mergeSort.mp hr, hread⟩
  · rintro ⟨r, hr, hread⟩
    obtain ⟨other, hother, hread'⟩ := exists_of_mem_forall₂ hreads.flip (List.mem_mergeSort.mpr hr)
    exact Except.ok.inj (hread'.symm.trans hread) ▸ hother

theorem legible_of_list : s.Legible d := by
  intro r hr
  obtain ⟨page, -, hread⟩ :=
    exists_of_mem_forall₂ (reads_of_list h).flip (List.mem_mergeSort.mpr hr)
  exact ⟨page, hread⟩

theorem numbers_of_list : pages.map (·.pageNo) =
    ((s.pagesOf d).mergeSort fun a b => a.pageNo.le b.pageNo).map (·.pageNo.number) := by
  rw [← List.forall₂_eq_eq_eq, List.forall₂_map_left_iff, List.forall₂_map_right_iff]
  refine (reads_of_list h).flip.imp fun page r hread => ?_
  rw [PageRow.pageNo_of_read hread, Cell.number_ofNat]

theorem ascending_of_list (hkeyed : s.Keyed) : (pages.map (·.pageNo)).Pairwise (· < ·) := by
  rw [numbers_of_list h]
  exact (legible_of_list h).sorted_numbers hkeyed

end Pages

theorem Pages.list_nil {s : Store} {d : String} (h : s.pagesOf d = []) :
    (list d).run s = (.ok [], s) := by
  have hlegible : s.Legible d := fun r hr => nomatch h ▸ hr
  obtain ⟨pages, hrun⟩ := hlegible.list_run
  have hreads := reads_of_list (congrArg Prod.fst hrun)
  rw [h, List.mergeSort_nil] at hreads
  rw [hrun, List.forall₂_nil_left_iff.mp hreads]

/-! ### Pages of other numbers -/

/-- The rows of a document that are not pages of some numbers. -/
def Store.others (s : Store) (d : String) (numbers : List UInt32) : List PageRow :=
  s.pages.filter fun r => r.documentId == d && r.pageNo.number ∉ numbers

section Others
variable {s s' : Store} {d : String} {numbers : List UInt32} {before pages : List Page}

theorem Store.others_eq (s : Store) (d : String) (numbers : List UInt32) :
    s.others d numbers = (s.pagesOf d).filter (·.pageNo.number ∉ numbers) := by
  unfold others pagesOf
  rw [List.filter_filter]
  exact List.filter_congr fun r _ => Bool.and_comm _ _

theorem Store.mem_others {r : PageRow} :
    r ∈ s.others d numbers ↔ r ∈ s.pagesOf d ∧ r.pageNo.number ∉ numbers := by
  rw [others_eq, List.mem_filter, decide_eq_true_iff]

theorem Pages.others_length (h : ((list d).run s).1 = .ok pages) :
    (pages.filter (·.pageNo ∉ numbers)).length = (s.others d numbers).length := by
  have hsame := List.rel_filter (p := (·.pageNo.number ∉ numbers)) (q := (·.pageNo ∉ numbers))
    (fun r page hread => ?_) (reads_of_list h)
  · rw [Store.others_eq, ← hsame.length_eq]
    exact ((List.mergeSort_perm _ _).filter _).length_eq
  · show decide (r.pageNo.number ∉ numbers) = true ↔ decide (page.pageNo ∉ numbers) = true
    rw [PageRow.pageNo_of_read hread, Cell.number_ofNat]

/-- If the rows of other numbers are the same, what is listed of them is. -/
theorem Pages.others_of_list (hs : s.Keyed) (hs' : s'.Keyed) (h : ((list d).run s).1 = .ok before)
    (h' : ((list d).run s').1 = .ok pages) (hothers : s'.others d numbers = s.others d numbers) :
    pages.filter (·.pageNo ∉ numbers) = before.filter (·.pageNo ∉ numbers) := by
  have hascending {s : Store} {listed : List Page} (hs : s.Keyed)
      (h : ((list d).run s).1 = .ok listed) :
      (listed.filter (·.pageNo ∉ numbers)).Pairwise fun a b => a.pageNo < b.pageNo :=
    (List.pairwise_map.mp (ascending_of_list h hs)).filter _
  have hmem {s : Store} {listed : List Page} (h : ((list d).run s).1 = .ok listed) (page : Page) :
      page ∈ listed.filter (·.pageNo ∉ numbers) ↔
        ∃ r ∈ s.others d numbers, r.read = .ok page := by
    rw [List.mem_filter, mem_iff_of_list h, decide_eq_true_iff]
    constructor
    · rintro ⟨⟨r, hr, hread⟩, hno⟩
      refine ⟨r, Store.mem_others.mpr ⟨hr, ?_⟩, hread⟩
      rwa [PageRow.pageNo_of_read hread, Cell.number_ofNat]
    · rintro ⟨r, hr, hread⟩
      obtain ⟨hr, hno⟩ := Store.mem_others.mp hr
      rw [PageRow.pageNo_of_read hread, Cell.number_ofNat] at hno
      exact ⟨⟨r, hr, hread⟩, hno⟩
  have hirrefl : Std.Irrefl fun a b : Page => a.pageNo < b.pageNo := ⟨fun a => UInt32.lt_irrefl _⟩
  refine (hascending hs' h').eq_of_mem_iff (hascending hs h) fun page => ?_
  rw [hmem h', hmem h, hothers]

end Others

/-! ### Pages that were stored -/

namespace Store.HasStored
variable {s : Store} {d : String} {stored : List NewPage}

/-- The row of a number that was stored. -/
theorem read_stored {numbers : List UInt32} (h : s.HasStored d numbers stored) {r : PageRow}
    (hr : r ∈ s.pagesOf d) {n : UInt32} (hno : r.pageNo = .ofNat n.toNat)
    (hn : n ∈ stored.map (·.pageNo)) : ∃ page, r.read = .ok page ∧
      ∀ p, lastOf page.pageNo stored = some p → page.Shows p := by
  obtain ⟨hmem, hdoc⟩ := List.mem_filter.mp hr
  rw [beq_iff_eq] at hdoc
  obtain ⟨p, -, rfl, hlast⟩ := lastOf_isSome hn
  have hholds := h.holds r hmem p.pageNo p (Pages.isPage_iff.mpr ⟨hdoc, hno⟩) hlast
  obtain ⟨page, hread, hshows⟩ := PageRow.read_of_holds hno hholds
  refine ⟨page, hread, fun q hq => ?_⟩
  rw [hshows.pageNo, hlast] at hq
  exact Option.some.inj hq ▸ hshows

theorem read_row (h : s.HasStored d (stored.map (·.pageNo)) stored) {r : PageRow}
    (hr : r ∈ s.pagesOf d) : ∃ page, r.read = .ok page ∧
      ∀ p, lastOf page.pageNo stored = some p → page.Shows p := by
  obtain ⟨hmem, hdoc⟩ := List.mem_filter.mp hr
  obtain ⟨n, hn, hno⟩ := h.within r hmem (beq_iff_eq.mp hdoc)
  exact h.read_stored hr hno hn

theorem legible (h : s.HasStored d (stored.map (·.pageNo)) stored) : s.Legible d := fun _ hr =>
  (h.read_row hr).imp fun _ hread => hread.1

/-- There is a row for each number that was stored. -/
theorem rows_perm (h : s.HasStored d (stored.map (·.pageNo)) stored) :
    ((s.pagesOf d).map (·.pageNo.number)).Perm (stored.map (·.pageNo)).dedup := by
  refine (List.perm_ext_iff_of_nodup (h.legible.numbers_nodup h.keyed) (List.nodup_dedup _)).mpr
    fun n => ?_
  rw [List.mem_dedup]
  constructor
  · intro hn
    obtain ⟨r, hr, rfl⟩ := List.mem_map.mp hn
    obtain ⟨hmem, hdoc⟩ := List.mem_filter.mp hr
    obtain ⟨k, hk, hno⟩ := h.within r hmem (beq_iff_eq.mp hdoc)
    rwa [hno, Cell.number_ofNat]
  · intro hn
    obtain ⟨p, hp, rfl⟩ := List.mem_map.mp hn
    obtain ⟨r, hr, hpage⟩ := h.there p hp
    obtain ⟨hdoc, hno⟩ := Pages.isPage_iff.mp hpage
    refine List.mem_map.mpr ⟨r, List.mem_filter.mpr ⟨hr, by simp [hdoc]⟩, ?_⟩
    rw [hno, Cell.number_ofNat]

/-- There are as many rows as pages that were stored if and only if no number was stored twice. -/
theorem rows_length_eq_iff (h : s.HasStored d (stored.map (·.pageNo)) stored) :
    (s.pagesOf d).length = stored.length ↔ (stored.map (·.pageNo)).Nodup := by
  have hrows : (s.pagesOf d).length = (stored.map (·.pageNo)).dedup.length := by
    rw [← h.rows_perm.length_eq, List.length_map]
  rw [hrows, ← List.dedup_eq_self]
  constructor
  · intro hlength
    refine (List.dedup_sublist _).eq_of_length ?_
    rw [hlength, List.length_map]
  · intro hsame
    rw [hsame, List.length_map]

/-- Fewer than `2 ^ 32` pages have different numbers, since zero is none. -/
theorem length_lt (h : s.HasStored d (stored.map (·.pageNo)) stored)
    (hnodup : (stored.map (·.pageNo)).Nodup) : stored.length < 2 ^ 32 := by
  rw [← List.length_map (f := (·.pageNo))]
  refine length_lt_of_nodup hnodup fun n hn => ?_
  obtain ⟨p, hp, rfl⟩ := List.mem_map.mp hn
  exact h.positive p hp

/-- Every row has the text of a page of its number that was stored. -/
theorem exists_stored (h : s.HasStored d (stored.map (·.pageNo)) stored) {r : PageRow}
    (hr : r ∈ s.pagesOf d) :
    ∃ p ∈ stored, r.pageNo = .ofNat p.pageNo.toNat ∧ r.rawText = some p.rawText := by
  obtain ⟨hmem, hdoc⟩ := List.mem_filter.mp hr
  rw [beq_iff_eq] at hdoc
  obtain ⟨n, hn, hno⟩ := h.within r hmem hdoc
  obtain ⟨p, hp, rfl, hlast⟩ := lastOf_isSome hn
  have hholds := h.holds r hmem p.pageNo p (Pages.isPage_iff.mpr ⟨hdoc, hno⟩) hlast
  refine ⟨p, hp, hno, ?_⟩
  rw [← hholds]
  rfl

/-- If no number was stored twice, the text of every page is in a row. -/
theorem exists_row (h : s.HasStored d (stored.map (·.pageNo)) stored)
    (hnodup : (stored.map (·.pageNo)).Nodup) {p : NewPage} (hp : p ∈ stored) :
    ∃ r ∈ s.pagesOf d, r.rawText = some p.rawText := by
  obtain ⟨r, hr, hpage⟩ := h.there p hp
  have hholds := h.holds r hr p.pageNo p hpage (lastOf_of_nodup hnodup hp)
  refine ⟨r, List.mem_filter.mpr ⟨hr, by simp [(Pages.isPage_iff.mp hpage).1]⟩, ?_⟩
  rw [← hholds]
  rfl

end Store.HasStored

/-- Pages that were stored are read back, each number once and in ascending order. -/
theorem Pages.list_run {s : Store} {d : String} {stored : List NewPage}
    (h : s.HasStored d (stored.map (·.pageNo)) stored) :
    ∃ pages, (list d).run s = (.ok pages, s) ∧ Lists stored pages := by
  have hperm := List.mergeSort_perm (s.pagesOf d) fun a b => a.pageNo.le b.pageNo
  obtain ⟨pages, hrun⟩ := h.legible.list_run
  have hlist : ((list d).run s).1 = .ok pages := congrArg Prod.fst hrun
  refine ⟨pages, hrun, ascending_of_list hlist h.keyed, fun n => ?_, fun page hpage => ?_⟩
  · rw [numbers_of_list hlist, ((hperm.map _).trans h.rows_perm).mem_iff, List.mem_dedup]
  · obtain ⟨r, hr, hread⟩ := (mem_iff_of_list hlist).mp hpage
    obtain ⟨read, hread', hshows⟩ := h.read_row hr
    exact Except.ok.inj (hread'.symm.trans hread) ▸ hshows

/-- Pages that were stored in ascending order are read as they were stored. -/
theorem Pages.Lists.forall₂ {stored : List NewPage} {pages : List Page} (h : Lists stored pages)
    (hasc : (stored.map (·.pageNo)).Pairwise (· < ·)) : List.Forall₂ Page.Shows pages stored := by
  have hsame : pages.map (·.pageNo) = stored.map (·.pageNo) :=
    h.ascending.eq_of_mem_iff hasc (fun n => h.numbers n)
  have hnodup : (stored.map (·.pageNo)).Nodup := hasc.imp fun hlt => UInt32.ne_of_lt hlt
  rw [← List.forall₂_eq_eq_eq, List.forall₂_map_left_iff, List.forall₂_map_right_iff] at hsame
  have hshown := (List.forall₂_and_left pages stored).mpr ⟨h.shows, hsame⟩
  have hlast := (List.forall₂_and_left stored pages).mpr
    ⟨fun p hp => lastOf_of_nodup hnodup hp, hshown.flip⟩
  refine hlast.flip.imp fun page p hpage => ?_
  obtain ⟨hp, hshows, hno⟩ := hpage
  exact hshows p (hno ▸ hp)

end Quire
