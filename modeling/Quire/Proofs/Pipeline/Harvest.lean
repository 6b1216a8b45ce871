import Quire.Proofs.Object.Changing
import Quire.Proofs.Pipeline.Results

/-! What an operation has left, and what is stored of it.

The shards have pages with numbers of their own. A page that is stored replaces the one of its
number that the document may have, and leaves the others alone; so once all of them are stored, they
are read back among pages that were there before (`Harvest.Stored.gain`). -/
namespace Quire
open Txn

/-- What is read of a document that had some pages before, after others were found: those that were
found, each with its own text, and the rest as it was. -/
structure Pages.Gain (found : List Ocr.Page) (before pages : List Page) : Prop where
  ascending : (pages.map (·.pageNo)).Pairwise (· < ·)
  kept : List.Forall₂ Page.Keeps (pages.filter (·.pageNo ∈ found.map (·.number))) found
  rest : pages.filter (·.pageNo ∉ found.map (·.number)) =
    before.filter (·.pageNo ∉ found.map (·.number))

theorem Pages.Gain.length_eq {found : List Ocr.Page} {before pages : List Page}
    (h : Gain found before pages) : pages.length =
      found.length + (before.filter (·.pageNo ∉ found.map (·.number))).length := by
  rw [List.length_eq_length_filter_add (·.pageNo ∈ found.map (·.number)), h.kept.length_eq,
    ← h.rest]
  simp only [decide_not]

/-- If the document had no other pages, those that were found are all. -/
theorem Pages.Gain.all {found : List Ocr.Page} {before pages : List Page}
    (h : Gain found before pages) (hbefore : ∀ page ∈ before, page.pageNo ∈ found.map (·.number)) :
    List.Forall₂ Page.Keeps pages found := by
  have hnone : before.filter (·.pageNo ∉ found.map (·.number)) = [] :=
    List.filter_eq_nil_iff.mpr (by simpa using hbefore)
  have hrest := List.filter_eq_nil_iff.mp (h.rest.trans hnone)
  have hall : pages.filter (·.pageNo ∈ found.map (·.number)) = pages :=
    List.filter_eq_self.mpr (by simpa using hrest)
  exact hall ▸ h.kept

/-- What an operation that is done has left for a job and its document: shards whose pages have
numbers of their own, from one on. The document may have pages already. -/
structure Harvest where
  jobId : String
  documentId : String
  staging : Staging
  store : Store
  objects : ObjectStore
  shards : List (List Ocr.Page)
  before : List Page
  reads : objects.Shards staging.outputFolder shards
  distinct : (shards.flatten.map (·.number)).Nodup
  positive : ∀ page ∈ shards.flatten, 1 ≤ page.number
  keyed : store.Keyed
  listed : ((Pages.list documentId).run store).1 = .ok before

namespace Harvest
variable (h : Harvest)

/-- The pages of the shards, by number. -/
def found : List Ocr.Page := Ocr.Shard.merge h.shards

def numbers : List UInt32 := h.found.map (·.number)

def keys : List String := h.objects.shardKeys h.staging.outputFolder

/-- The rows of the document that no page of the shards is stored in. -/
def others : List PageRow := h.store.others h.documentId h.numbers

/-- How many pages the shards have. -/
def count : UInt32 := UInt32.ofNat h.found.length

/-- How many pages the document has in the end. -/
def total : UInt32 := UInt32.ofNat (h.found.length + h.others.length)

theorem mem_found {page : Ocr.Page} : page ∈ h.found ↔ page ∈ h.shards.flatten :=
  (Ocr.Shard.merge_perm h.shards).mem_iff

theorem keys_eq_nil : h.keys = [] ↔ h.shards = [] := by
  have hreads : List.Forall₂ h.objects.Reads h.keys h.shards := h.reads
  rw [← List.length_eq_zero_iff, hreads.length_eq, List.length_eq_zero_iff]

/-- All pages of the shards can be counted. -/
theorem count_toNat : h.count.toNat = h.found.length := by
  have hlt := length_lt_of_nodup h.distinct fun n hn => by
    obtain ⟨page, hpage, rfl⟩ := List.mem_map.mp hn
    exact h.positive page hpage
  rw [List.length_map, ← Ocr.Shard.merge_length] at hlt
  exact UInt32.toNat_ofNat_of_lt' hlt

/-! ### Pages -/

/-- A page to be stored is one of the pages of the shards. -/
def Offers (new : NewPage) : Prop := ∃ page ∈ h.found, Cleanup.Renders page new

/-- Only pages of the shards are stored, and those of some numbers are; other rows are as they
were. -/
structure Stored (done : List UInt32) (s : Store) : Prop where
  pages : ∃ stored, (∀ new ∈ stored, h.Offers new) ∧ (∀ n ∈ done, n ∈ stored.map (·.pageNo)) ∧
    s.HasStored h.documentId (h.numbers ++ h.others.map (·.pageNo.number)) stored
  others : s.others h.documentId h.numbers = h.others

variable {h} {done : List UInt32} {s s' : Store}

theorem Offers.known {new : NewPage} (hnew : h.Offers new) : new.pageNo ∈ h.numbers := by
  obtain ⟨page, hpage, hrenders⟩ := hnew
  exact hrenders.pageNo ▸ List.mem_map_of_mem hpage

theorem Offers.positive {new : NewPage} (hnew : h.Offers new) : 1 ≤ new.pageNo := by
  obtain ⟨page, hpage, hrenders⟩ := hnew
  exact hrenders.pageNo ▸ h.positive page (h.mem_found.mp hpage)

theorem Stored.mono {fewer : List UInt32} (hs : h.Stored done s) (hfewer : ∀ n ∈ fewer, n ∈ done) :
    h.Stored fewer s := by
  obtain ⟨stored, hoffers, hthere, hstored⟩ := hs.pages
  exact ⟨⟨stored, hoffers, fun n hn => hthere n (hfewer n hn), hstored⟩, hs.others⟩

theorem Stored.of_same (hs : h.Stored done s) (hpages : s'.pages = s.pages) :
    h.Stored done s' := by
  obtain ⟨stored, hoffers, hthere, hstored⟩ := hs.pages
  refine ⟨⟨stored, hoffers, hthere, hstored.of_same hpages⟩, ?_⟩
  rw [← hs.others]
  unfold Store.others
  rw [hpages]

/-- Before anything is stored. -/
theorem stored_nil (h : Harvest) : h.Stored [] h.store := by
  have hlegible := Pages.legible_of_list h.listed
  refine ⟨⟨[], fun _ hnew => (nomatch hnew), fun _ hn => (nomatch hn), h.keyed,
    fun _ hnew => (nomatch hnew), fun r hr hdoc => ?_, fun _ hnew => (nomatch hnew),
    fun _ _ _ _ _ hlast => (nomatch hlast)⟩, rfl⟩
  have hrow : r ∈ h.store.pagesOf h.documentId := List.mem_filter.mpr ⟨hr, by simp [hdoc]⟩
  refine ⟨r.pageNo.number, List.mem_append.mpr ?_, hlegible.number_eq hrow⟩
  by_cases hno : r.pageNo.number ∈ h.numbers
  · exact .inl hno
  · exact .inr (List.mem_map_of_mem (Store.mem_others.mpr ⟨hrow, hno⟩))

/-- Further pages of the shards are stored, and that cannot fail. -/
theorem Stored.upsertAll (hs : h.Stored done s) (hdoc : s.hasDocument h.documentId = true)
    {pages : List NewPage} (hpages : ∀ new ∈ pages, h.Offers new) (now : String) :
    (Pages.upsertAll h.documentId now pages).wp
      (fun _ s' => h.Stored (done ++ pages.map (·.pageNo)) s') (fun _ => False) s := by
  obtain ⟨stored, hoffers, hthere, hstored⟩ := hs.pages
  -- Storing a page can only fail for its number, and the numbers of the shards begin with one.
  have hadded := hstored.upsertAll_wp now hdoc fun new hnew =>
    List.mem_append_left _ (hpages new hnew).known
  have hleft : (Pages.upsertAll h.documentId now pages).wp
      (fun _ s' => s'.others h.documentId h.numbers = h.others) (fun _ => True) s :=
    Pages.upsertAll_leaves (fun new hnew r hr => by
      rw [(Pages.isPage_iff.mp hr).2, Cell.number_ofNat]
      simp [(hpages new hnew).known]) h.others s hs.others
  refine wp_mono (wp_and hadded hleft) (fun _ s' hs' => ⟨⟨stored ++ pages, fun new hnew => ?_,
    fun n hn => ?_, hs'.1⟩, hs'.2⟩) ?_
  · exact (List.mem_append.mp hnew).elim (hoffers new) (hpages new)
  · rw [List.map_append, List.mem_append]
    exact (List.mem_append.mp hn).imp_left (hthere n)
  · rintro _ ⟨⟨new, hnew, hno⟩, -⟩
    exact hno (hpages new hnew).positive

/-- A row of the document has another number, or a page of the shards is read of it once that was
stored. -/
theorem Stored.read_row (hs : h.Stored h.numbers s) {r : PageRow}
    (hr : r ∈ s.pagesOf h.documentId) : r ∈ h.others ∨ ∃ page found, r.read = .ok page ∧
      found ∈ h.found ∧ page.Keeps found := by
  obtain ⟨stored, hoffers, hthere, hstored⟩ := hs.pages
  by_cases hn : r.pageNo.number ∈ h.numbers
  case neg => exact .inl (hs.others ▸ Store.mem_others.mpr ⟨hr, hn⟩)
  obtain ⟨hmem, hdoc⟩ := List.mem_filter.mp hr
  obtain ⟨n, -, hno⟩ := hstored.within r hmem (beq_iff_eq.mp hdoc)
  rw [hno, Cell.number_ofNat] at hn
  obtain ⟨page, hread, hshows⟩ := hstored.read_stored hr hno (hthere n hn)
  obtain ⟨new, hnew, rfl, hlast⟩ := lastOf_isSome (hthere n hn)
  obtain ⟨found, hfound, hrenders⟩ := hoffers new hnew
  have hsame : page.pageNo = new.pageNo :=
    Cell.ofNat_toNat_inj ((PageRow.pageNo_of_read hread).symm.trans hno)
  exact .inr ⟨page, found, hread, hfound, (hshows new (hsame ▸ hlast)).keeps hrenders⟩

section Reading
variable {pages : List Page} (hs : h.Stored h.numbers s)
include hs

theorem Stored.legible : s.Legible h.documentId := fun r hr => by
  rcases hs.read_row hr with hother | ⟨page, -, hread, -⟩
  · exact Pages.legible_of_list h.listed r (Store.mem_others.mp hother).1
  · exact ⟨page, hread⟩

variable (hlist : ((Pages.list h.documentId).run s).1 = .ok pages)
include hlist

/-- What is read under a number of the shards is a page of them. -/
theorem Stored.exists_found {page : Page} (hpage : page ∈ pages) (hno : page.pageNo ∈ h.numbers) :
    ∃ found ∈ h.found, page.Keeps found := by
  obtain ⟨r, hr, hread⟩ := (Pages.mem_iff_of_list hlist).mp hpage
  rcases hs.read_row hr with hother | ⟨page', found, hread', hfound, hkeeps⟩
  · rw [← Cell.number_ofNat page.pageNo, ← PageRow.pageNo_of_read hread] at hno
    exact absurd hno (Store.mem_others.mp hother).2
  · exact ⟨found, hfound, Except.ok.inj (hread'.symm.trans hread) ▸ hkeeps⟩

/-- Something is read under each number of the shards. -/
theorem Stored.exists_page {n : UInt32} (hn : n ∈ h.numbers) : ∃ page ∈ pages, page.pageNo = n := by
  obtain ⟨stored, -, hthere, hstored⟩ := hs.pages
  obtain ⟨new, hnew, rfl⟩ := List.mem_map.mp (hthere n hn)
  obtain ⟨r, hr, hrow⟩ := hstored.there new hnew
  obtain ⟨hdoc, hno⟩ := Pages.isPage_iff.mp hrow
  have hown : r ∈ s.pagesOf h.documentId := List.mem_filter.mpr ⟨hr, by simp [hdoc]⟩
  obtain ⟨page, hread⟩ := hs.legible r hown
  exact ⟨page, (Pages.mem_iff_of_list hlist).mpr ⟨r, hown, hread⟩,
    Cell.ofNat_toNat_inj ((PageRow.pageNo_of_read hread).symm.trans hno)⟩

theorem Stored.ascending : (pages.map (·.pageNo)).Pairwise (· < ·) := by
  obtain ⟨stored, -, -, hstored⟩ := hs.pages
  exact Pages.ascending_of_list hlist hstored.keyed

theorem Stored.numbers_eq :
    (pages.filter (·.pageNo ∈ h.numbers)).map (·.pageNo) = h.numbers := by
  have hfound : h.numbers.Pairwise (· < ·) := Ocr.Shard.merge_ascending h.distinct
  refine ((hs.ascending hlist).sublist (List.filter_sublist.map _)).eq_of_mem_iff hfound
    fun n => ⟨fun hn => ?_, fun hn => ?_⟩
  · obtain ⟨page, hpage, rfl⟩ := List.mem_map.mp hn
    exact of_decide_eq_true (List.mem_filter.mp hpage).2
  · obtain ⟨page, hpage, rfl⟩ := hs.exists_page hlist hn
    exact List.mem_map_of_mem (List.mem_filter.mpr ⟨hpage, decide_eq_true hn⟩)

theorem Stored.kept : List.Forall₂ Page.Keeps (pages.filter (·.pageNo ∈ h.numbers)) h.found := by
  have hsame : (pages.filter (·.pageNo ∈ h.numbers)).map (·.pageNo) = h.found.map (·.number) :=
    hs.numbers_eq hlist
  rw [← List.forall₂_eq_eq_eq, List.forall₂_map_left_iff, List.forall₂_map_right_iff] at hsame
  have hread := (List.forall₂_and_left _ h.found).mpr ⟨fun page hpage => hpage, hsame⟩
  have hfound := (List.forall₂_and_left h.found _).mpr ⟨fun page hpage => hpage, hread.flip⟩
  refine hfound.flip.imp fun page found hpair => ?_
  obtain ⟨hmem, hpage, hno⟩ := hpair
  obtain ⟨hpage, hnumber⟩ := List.mem_filter.mp hpage
  obtain ⟨origin, horigin, hkeeps⟩ := hs.exists_found hlist hpage (of_decide_eq_true hnumber)
  obtain rfl : origin = found := List.inj_on_of_nodup_map h.distinct (h.mem_found.mp horigin)
    (h.mem_found.mp hmem) (hkeeps.pageNo.symm.trans hno)
  exact hkeeps

end Reading

/-- Once all of them are stored, the pages of the shards are read back among the others. -/
theorem Stored.gain (hs : h.Stored h.numbers s) :
    ∃ pages, (Pages.list h.documentId).run s = (.ok pages, s) ∧
      Pages.Gain h.found h.before pages := by
  obtain ⟨stored, -, -, hstored⟩ := hs.pages
  obtain ⟨pages, hrun⟩ := hs.legible.list_run
  have hlist : ((Pages.list h.documentId).run s).1 = .ok pages := congrArg Prod.fst hrun
  exact ⟨pages, hrun, hs.ascending hlist, hs.kept hlist,
    Pages.others_of_list h.keyed hstored.keyed h.listed hlist hs.others⟩

theorem total_eq {pages : List Page} (hgain : Pages.Gain h.found h.before pages) :
    UInt32.ofNat pages.length = h.total := by
  unfold total others
  rw [hgain.length_eq, ← Pages.others_length h.listed]
  rfl

end Harvest
end Quire
