import Quire.Proofs.Flow.Frames
import Quire.Proofs.Flow.Interleaving
import Quire.Proofs.Store.Rows
import Quire.Proofs.Store.Transaction
import Quire.Store.Pages

/-! The pages of a document, after some have been stored.

A page is stored under its number, over whatever is there already: of several pages with one
number the last one stays. That describes all rows of a document (`HasStored`), page by page as
they are stored. -/
namespace Quire
open Txn

/-- No two rows are one page of one document. -/
def Store.Keyed (s : Store) : Prop := (s.pages.map fun r => (r.documentId, r.pageNo)).Nodup

/-- The rows of the pages of a document. -/
def Store.pagesOf (s : Store) (d : String) : List PageRow := s.pages.filter (·.documentId == d)

/-- The row has the content of a page. -/
def PageRow.Holds (r : PageRow) (p : NewPage) : Prop := Pages.withContent p r = r

/-- The last page of a number. -/
def lastOf (n : UInt32) (pages : List NewPage) : Option NewPage :=
  pages.reverse.find? fun p => p.pageNo == n

theorem lastOf_append (n : UInt32) (pages : List NewPage) (p : NewPage) :
    lastOf n (pages ++ [p]) = if p.pageNo = n then some p else lastOf n pages := by
  unfold lastOf
  rw [List.reverse_append, List.reverse_singleton, List.singleton_append, List.find?_cons]
  by_cases hp : p.pageNo = n
  · simp [hp]
  · rw [beq_false_of_ne hp, if_neg hp]

theorem lastOf_cons (n : UInt32) (p : NewPage) (rest : List NewPage) :
    lastOf n (p :: rest) = (lastOf n rest).or (if p.pageNo = n then some p else none) := by
  unfold lastOf
  rw [List.reverse_cons, List.find?_append, List.find?_singleton]
  simp only [beq_iff_eq]

theorem lastOf_isSome {n : UInt32} {pages : List NewPage} (h : n ∈ pages.map (·.pageNo)) :
    ∃ p ∈ pages, p.pageNo = n ∧ lastOf n pages = some p := by
  cases hfound : lastOf n pages with
  | none =>
    obtain ⟨p, hp, hn⟩ := List.mem_map.mp h
    exact absurd (List.find?_eq_none.mp hfound p (List.mem_reverse.mpr hp)) (by simp [hn])
  | some p =>
    exact ⟨p, List.mem_reverse.mp (List.mem_of_find?_eq_some hfound),
      by simpa using List.find?_some hfound, rfl⟩

theorem lastOf_of_nodup {pages : List NewPage} (h : (pages.map (·.pageNo)).Nodup) {p : NewPage}
    (hp : p ∈ pages) : lastOf p.pageNo pages = some p := by
  obtain ⟨q, hq, hno, hlast⟩ := lastOf_isSome (List.mem_map_of_mem (f := (·.pageNo)) hp)
  rw [hlast, List.inj_on_of_nodup_map h hq hp hno]

/-! ### Cells of numbers -/

namespace Cell

theorem beq_ofNat {c : Cell} {n : Nat} : (c == .ofNat n) = true ↔ c = .ofNat n := by
  cases c with
  | integer k =>
    show (k == (n : Int)) = true ↔ _
    simp [ofNat]
  | real x => exact ⟨nofun, nofun⟩
  | text s => exact ⟨nofun, nofun⟩

theorem ofNat_toNat_inj {n k : UInt32} (h : ofNat n.toNat = ofNat k.toNat) : n = k := by
  have hnat : (n.toNat : Int) = k.toNat := integer.inj h
  exact UInt32.toNat_inj.mp (Int.ofNat_inj.mp hnat)

@[simp] theorem word32_ofNat (n : UInt32) (column : Nat) (name : String) :
    (ofNat n.toNat).word32 column name = .ok n := by
  have hbounds : (0 : Int) ≤ n.toNat ∧ (n.toNat : Int) ≤ 0xFFFFFFFF := by
    have := n.toNat_lt
    omega
  have hread : (ofNat n.toNat).bounded 0 0xFFFFFFFF column name = .ok n.toNat :=
    if_pos (by simpa using hbounds)
  unfold word32
  rw [hread]
  show Except.ok (UInt32.ofNat (n.toNat : Int).toNat) = _
  rw [Int.toNat_natCast, UInt32.ofNat_toNat]

theorem le_ofNat (n k : UInt32) : (ofNat n.toNat).le (ofNat k.toNat) = decide (n ≤ k) := by
  unfold ofNat le
  rw [decide_eq_decide, UInt32.le_iff_toNat_le]
  exact Int.ofNat_le

@[simp] theorem flag_ofFlag (b : Bool) (column : Nat) (name : String) :
    (ofFlag b).flag column name = .ok b := by
  cases b <;> rfl

/-- The number in a cell. -/
def number : Cell → UInt32
  | .integer n => UInt32.ofNat n.toNat
  | _ => 0

@[simp] theorem number_ofNat (n : UInt32) : (ofNat n.toNat).number = n := by
  simp [ofNat, number]

end Cell

namespace Pages
variable {d : String} {n k : UInt32} {p : NewPage} {r : PageRow}

theorem isPage_iff : isPage d n r = true ↔ r.documentId = d ∧ r.pageNo = .ofNat n.toNat := by
  unfold isPage
  rw [Bool.and_eq_true, beq_iff_eq, Cell.beq_ofNat]

theorem isPage_unique (hn : isPage d n r = true) (hk : isPage d k r = true) : n = k :=
  Cell.ofNat_toNat_inj ((isPage_iff.mp hn).2.symm.trans (isPage_iff.mp hk).2)

/-- Storing a page: what the rules refuse, and the rows with the page. -/
theorem upsert_wp {s : Store} {now : String} {Q : Unit → Store → Prop} {E : StoreError → Prop} :
    (upsert d p now).wp Q E s ↔
      if 1 ≤ p.pageNo then
        if s.pages.any (isPage d p.pageNo) then
          Q () { s with
            pages := changeWhere (isPage d p.pageNo) (withContent p) s.pages
            pageSeq := lastId s + 1 }
        else if s.hasDocument d then
          Q () { s with
            pages := s.pages ++ [rowOf (lastId s + 1) d p now], pageSeq := lastId s + 1 }
        else E (.violation .foreignKey)
      else E (.violation (.check "page_no >= 1")) := by
  unfold upsert
  rw [wp_bind, wp_require]
  by_cases hno : 1 ≤ p.pageNo
  · rw [if_pos hno, wp_bind, wp_store]
    simp only [hno, decide_true, forall_const, Bool.true_eq_false, false_implies, and_true]
    by_cases hthere : s.pages.any (isPage d p.pageNo) = true
    · rw [if_pos hthere, if_pos hthere]
      rfl
    · rw [if_neg hthere, if_neg hthere, wp_bind, wp_require]
      cases s.hasDocument d <;> simp
  · simp [hno]

end Pages

/-! ### Keys -/

namespace Store.Keyed
variable {s s' : Store}

theorem of_same (h : s.Keyed) (hpages : s'.pages = s.pages) : s'.Keyed := by
  unfold Keyed
  rw [hpages]
  exact h

/-- A change of pages that leaves their keys alone. -/
theorem change (h : s.Keyed) {p : PageRow → Bool} {f : PageRow → PageRow}
    (hpages : s'.pages = changeWhere p f s.pages)
    (hf : ∀ r, ((f r).documentId, (f r).pageNo) = (r.documentId, r.pageNo)) : s'.Keyed := by
  have hkeys : s'.pages.map (fun r => (r.documentId, r.pageNo)) =
      s.pages.map (fun r => (r.documentId, r.pageNo)) := by
    rw [hpages]
    exact map_changeWhere fun r _ _ => hf r
  unfold Keyed
  rw [hkeys]
  exact h

/-- A page is added where none of its number is. -/
theorem add (h : s.Keyed) {d : String} {n : UInt32} {r : PageRow}
    (hany : s.pages.any (Pages.isPage d n) = false) (hr : Pages.isPage d n r = true)
    (hpages : s'.pages = s.pages ++ [r]) : s'.Keyed := by
  unfold Keyed
  rw [hpages, List.map_append, List.nodup_append']
  refine ⟨h, List.nodup_singleton _, ?_⟩
  rw [List.map_singleton, List.disjoint_singleton]
  intro hkey
  obtain ⟨r', hr', hkey⟩ := List.mem_map.mp hkey
  obtain ⟨hdoc, hno⟩ := Pages.isPage_iff.mp hr
  have hpage : Pages.isPage d n r' = true :=
    Pages.isPage_iff.mpr ⟨(Prod.mk.inj hkey).1.trans hdoc, (Prod.mk.inj hkey).2.trans hno⟩
  exact absurd hpage (List.any_eq_false.mp hany r' hr')

end Store.Keyed

/-! ### Storing -/

/-- What the rows of a document are after some pages have been stored: one row for each number,
with the last page of that number. All of them, stored or not, are pages of known numbers. -/
structure Store.HasStored (d : String) (numbers : List UInt32) (done : List NewPage) (s : Store) :
    Prop where
  keyed : s.Keyed
  positive : ∀ p ∈ done, 1 ≤ p.pageNo
  within : ∀ r ∈ s.pages, r.documentId = d → ∃ n ∈ numbers, r.pageNo = .ofNat n.toNat
  there : ∀ p ∈ done, ∃ r ∈ s.pages, Pages.isPage d p.pageNo r = true
  holds : ∀ r ∈ s.pages, ∀ n p, Pages.isPage d n r = true → lastOf n done = some p → r.Holds p

namespace Store.HasStored
open Pages
variable {s s' : Store} {d : String} {numbers : List UInt32} {done : List NewPage} {p : NewPage}

theorem of_same (h : s.HasStored d numbers done) (hpages : s'.pages = s.pages) :
    s'.HasStored d numbers done := by
  obtain ⟨hkeyed, hpositive, hwithin, hthere, hholds⟩ := h
  rw [← hpages] at hwithin hthere hholds
  exact ⟨hkeyed.of_same hpages, hpositive, hwithin, hthere, hholds⟩

theorem mono {numbers' : List UInt32} (h : s.HasStored d numbers done)
    (hnumbers : ∀ n ∈ numbers, n ∈ numbers') : s.HasStored d numbers' done := by
  refine ⟨h.keyed, h.positive, fun r hr hdoc => ?_, h.there, h.holds⟩
  obtain ⟨n, hn, hno⟩ := h.within r hr hdoc
  exact ⟨n, hnumbers n hn, hno⟩

theorem positive_append (h : s.HasStored d numbers done) (hone : 1 ≤ p.pageNo) :
    ∀ q ∈ done ++ [p], 1 ≤ q.pageNo := by
  intro q hq
  rcases List.mem_append.mp hq with hq | hq
  · exact h.positive q hq
  · exact List.mem_singleton.mp hq ▸ hone

theorem replace (h : s.HasStored d numbers done) (hone : 1 ≤ p.pageNo)
    (hany : s.pages.any (isPage d p.pageNo) = true)
    (hpages : s'.pages = changeWhere (isPage d p.pageNo) (withContent p) s.pages) :
    s'.HasStored d numbers (done ++ [p]) := by
  have hsame : ∀ r n, isPage d n (if isPage d p.pageNo r then withContent p r else r) =
      isPage d n r := by
    intro r n
    split <;> rfl
  refine ⟨h.keyed.change hpages (fun _ => rfl), h.positive_append hone, fun r' hr' hdoc => ?_,
    fun q hq => ?_, fun r' hr' n q hpage hlast => ?_⟩
  · obtain ⟨r, hr, rfl⟩ := mem_changeWhere.mp (hpages ▸ hr')
    split at hdoc
    · rw [if_pos ‹_›]
      exact h.within r hr hdoc
    · rw [if_neg ‹_›]
      exact h.within r hr hdoc
  · rw [hpages]
    rcases List.mem_append.mp hq with hq | hq
    · obtain ⟨r, hr, hpage⟩ := h.there q hq
      exact ⟨_, mem_changeWhere.mpr ⟨r, hr, rfl⟩, (hsame r q.pageNo).trans hpage⟩
    · obtain ⟨r, hr, hpage⟩ := List.any_eq_true.mp hany
      rw [List.mem_singleton.mp hq]
      exact ⟨_, mem_changeWhere.mpr ⟨r, hr, rfl⟩, (hsame r p.pageNo).trans hpage⟩
  · obtain ⟨r, hr, rfl⟩ := mem_changeWhere.mp (hpages ▸ hr')
    rw [hsame] at hpage
    rw [lastOf_append] at hlast
    by_cases hp : isPage d p.pageNo r = true
    · -- The row has just been given its content.
      rw [if_pos (isPage_unique hp hpage)] at hlast
      rw [if_pos hp, ← Option.some.inj hlast]
      rfl
    · rw [if_neg hp]
      have hn : p.pageNo ≠ n := fun hn => hp (hn ▸ hpage)
      rw [if_neg hn] at hlast
      exact h.holds r hr n q hpage hlast

theorem add (h : s.HasStored d numbers done) (hone : 1 ≤ p.pageNo)
    (hany : s.pages.any (isPage d p.pageNo) = false)
    (hp : p.pageNo ∈ numbers) (id : Int) (now : String)
    (hpages : s'.pages = s.pages ++ [rowOf id d p now]) :
    s'.HasStored d numbers (done ++ [p]) := by
  have hnew : ∀ r ∈ s.pages, isPage d p.pageNo r = false := by
    simpa using hany
  have hcases : ∀ r ∈ s'.pages, r ∈ s.pages ∨ r = rowOf id d p now := fun r hr =>
    (List.mem_append.mp (hpages ▸ hr)).imp_right List.mem_singleton.mp
  have hrow : isPage d p.pageNo (rowOf id d p now) = true := isPage_iff.mpr ⟨rfl, rfl⟩
  have hmem : rowOf id d p now ∈ s'.pages := by simp [hpages]
  refine ⟨h.keyed.add hany hrow hpages, h.positive_append hone, fun r hr hdoc => ?_,
    fun q hq => ?_, fun r hr n q hpage hlast => ?_⟩
  · rcases hcases r hr with hr | rfl
    · exact h.within r hr hdoc
    · exact ⟨p.pageNo, hp, rfl⟩
  · rcases List.mem_append.mp hq with hq | hq
    · obtain ⟨r, hr, hpage⟩ := h.there q hq
      exact ⟨r, hpages ▸ List.mem_append_left _ hr, hpage⟩
    · exact ⟨_, hmem, List.mem_singleton.mp hq ▸ hrow⟩
  · rw [lastOf_append] at hlast
    rcases hcases r hr with hr | rfl
    · have hn : p.pageNo ≠ n := by
        rintro rfl
        rw [hnew r hr] at hpage
        cases hpage
      rw [if_neg hn] at hlast
      exact h.holds r hr n q hpage hlast
    · rw [if_pos (isPage_unique hrow hpage)] at hlast
      rw [← Option.some.inj hlast]
      rfl

/-- Storing pages one after the other; one is refused only for its number. -/
theorem upsertAll_wp (now : String) {pages : List NewPage} (h : s.HasStored d numbers done)
    (hdoc : s.hasDocument d = true) (hknown : ∀ p ∈ pages, p.pageNo ∈ numbers) :
    (upsertAll d now pages).wp (fun _ s' => s'.HasStored d numbers (done ++ pages))
      (fun _ => ∃ p ∈ pages, ¬ 1 ≤ p.pageNo) s := by
  induction pages generalizing s done with
  | nil => simpa [upsertAll] using h
  | cons p rest ih =>
    have hrest : ∀ q ∈ rest, q.pageNo ∈ numbers := fun q hq =>
      hknown q (List.mem_cons_of_mem p hq)
    have hnext : ∀ {s'}, s'.HasStored d numbers (done ++ [p]) → s'.hasDocument d = true →
        (upsertAll d now rest).wp (fun _ s' => s'.HasStored d numbers (done ++ p :: rest))
          (fun _ => ∃ q ∈ p :: rest, ¬ 1 ≤ q.pageNo) s' := by
      intro s' hs' hdoc'
      refine wp_mono (ih hs' hdoc' hrest) (fun _ s'' h'' => ?_) ?_
      · rwa [List.append_assoc] at h''
      · exact fun _ ⟨q, hq, hno⟩ => ⟨q, List.mem_cons_of_mem p hq, hno⟩
    unfold upsertAll
    rw [wp_bind, upsert_wp]
    split
    case isTrue hone =>
      split
      case isTrue hany => exact hnext (h.replace hone hany rfl) hdoc
      case isFalse hany =>
        have hp := hknown p List.mem_cons_self
        exact hnext (h.add hone (Bool.not_eq_true _ ▸ hany) hp (lastId s + 1) now rfl) hdoc
    case isFalse hno => exact ⟨p, List.mem_cons_self, hno⟩

end Store.HasStored

/-- Storing pages does not show where the rows of their numbers are left out. -/
theorem Pages.upsertAll_leaves {d now : String} {pages : List NewPage} {q : PageRow → Bool}
    (hq : ∀ p ∈ pages, ∀ r, isPage d p.pageNo r = true → q r = false) (rows : List PageRow) :
    (upsertAll d now pages).Keeps fun s => s.pages.filter q = rows := by
  induction pages with
  | nil => exact Keeps.pure ()
  | cons p rest ih =>
    have hp : ∀ r, isPage d p.pageNo r = true → q r = false := hq p List.mem_cons_self
    refine Keeps.bind (fun s hs => ?_) fun _ => ih fun k hk => hq k (List.mem_cons_of_mem p hk)
    have hreplaced : (changeWhere (isPage d p.pageNo) (withContent p) s.pages).filter q = rows :=
      hs ▸ filter_changeWhere fun r hr => ⟨hp r hr, hp _ hr⟩
    have hadded : (s.pages ++ [rowOf (lastId s + 1) d p now]).filter q = rows := by
      have hrow : isPage d p.pageNo (rowOf (lastId s + 1) d p now) = true :=
        isPage_iff.mpr ⟨rfl, rfl⟩
      rw [List.filter_append, hs, List.filter_singleton, hp _ hrow]
      exact List.append_nil rows
    rw [upsert_wp]
    split
    case isFalse => trivial
    case isTrue =>
      split
      case isTrue => exact hreplaced
      case isFalse =>
        split
        case isTrue => exact hadded
        case isFalse => trivial

/-! ### Different numbers

A page is added only where none of its number is, and every other statement leaves the numbers of
pages alone. So whatever calls take turns, the pages of a document are told apart by their
numbers. -/

theorem Pages.upsert_keyed (documentId : String) (p : NewPage) (now : String) :
    (upsert documentId p now).Keeps Store.Keyed := by
  intro s hs
  rw [upsert_wp]
  split
  case isFalse => trivial
  case isTrue =>
    split
    case isTrue => exact hs.change rfl fun _ => rfl
    case isFalse hany =>
      split
      case isTrue =>
        exact hs.add (Bool.not_eq_true _ ▸ hany) (isPage_iff.mpr ⟨rfl, rfl⟩) rfl
      case isFalse => trivial

theorem Pages.setEdit_keyed (documentId : String) (pageNo : UInt32) (text : Option String)
    (editor now : String) : (setEdit documentId pageNo text editor now).Keeps Store.Keyed :=
  Keeps.bind Keeps.store fun _ =>
    Keeps.bind (Keeps.modify fun _ hs => hs.change rfl fun _ => rfl) fun _ => Keeps.pure _

theorem Pages.deleteAll_keyed (documentId : String) :
    (deleteAll documentId).Keeps Store.Keyed := by
  refine Keeps.bind Keeps.store fun _ => Keeps.bind (Keeps.modify fun s hs => ?_) fun _ =>
    Keeps.pure _
  exact List.Nodup.sublist (List.filter_sublist.map _) hs

theorem Store.Keyed.unharmed : Unharmed Store.Keyed := by
  refine .of_pages (fun hpages h => ?_) Pages.upsert_keyed Pages.setEdit_keyed Pages.deleteAll_keyed
  unfold Keyed
  rw [hpages]
  exact h

/-- The pages of every reachable store are told apart by their documents and numbers. -/
theorem Store.Reachable.keyed {s : Store} (hs : s.Reachable) : s.Keyed :=
  hs.keeps Store.Keyed.unharmed List.nodup_nil

end Quire
