import Quire.Proofs.Flow.Outages
import Quire.Proofs.Pipeline.Cleanup

/-! What becomes of a page that cannot be cleaned.

Here what is asked of the cleaner and what it answers is noted. A page that is not to be cleaned is
never sent to it, every other page is sent once and answered once; and the answer for a page
decides alone what is stored for it, whatever the cleaner answers for other pages, in whichever
order, and whatever becomes of the progress that is recorded meanwhile. -/
namespace Quire
open scoped List

/-! ### Dealings with the cleaner -/

/-- What the cleaner has been asked, and what it has answered, with the indexes of the pages. -/
structure Dealings where
  sent : List (Nat × String × Cleaning.LanguageHint)
  answers : List (Nat × Except CleaningError Cleaning.CleanedText)

namespace Dealings

/-- Nothing has been asked yet. -/
def fresh : Dealings := ⟨[], []⟩

/-- The cleaner has been sent a page, and may have answered at once. -/
def begun (d : Dealings) (i : Nat) (text : String) (hint : Cleaning.LanguageHint)
    (answer : Option (Except CleaningError Cleaning.CleanedText)) : Dealings :=
  ⟨d.sent ++ [(i, text, hint)], d.answers ++ (answer.map (i, ·)).toList⟩

/-- The cleaner has answered for one of the pages that it has been sent. -/
def ended (d : Dealings) (i : Nat) (answer : Except CleaningError Cleaning.CleanedText) :
    Dealings :=
  { d with answers := d.answers ++ [(i, answer)] }

/-- To answer at once is to be sent the page and to answer. -/
theorem begun_some (d : Dealings) (i : Nat) (text : String) (hint : Cleaning.LanguageHint)
    (answer : Except CleaningError Cleaning.CleanedText) :
    d.begun i text hint (some answer) = (d.begun i text hint none).ended i answer := by
  simp [begun, ended]

/-- Anything may be answered, in any order, and the dealings with the cleaner are noted. -/
def noting : Surroundings Dealings where
  allows
    | .beginCleaning i text hint, d, answer, d' => d' = d.begun i text hint answer
    | .awaitCleaning first others, d, out, d' => d' = d.ended ((first :: others).get out.1) out.2
    | _, d, _, d' => d' = d

theorem noting_live : noting.Live := by
  refine Surroundings.Live.of_allows fun op d => ?_
  obtain ⟨b⟩ := op.nonempty
  cases op <;> exact ⟨b, _, rfl⟩

/-- Recording progress is none of the cleaner's business, whatever becomes of it. -/
theorem updateProgress_leads {K : TxnKind} {I : Dealings → Prop} {m : Moment Dealings}
    (hm : I m.2) (jobId : String) (done total : UInt32) (step : String) :
    Run.Leads (noting.despite K) (fun _ m' => I m'.2) (fun _ m' => I m'.2)
      (Ledger.updateProgress jobId done total step) m := by
  unfold Ledger.updateProgress Ledger.atNow Run.clock
  rw [Run.Leads.bind, Run.Leads.perform, Surroundings.despite_iff rfl]
  rintro now d rfl
  rw [Run.Leads.transact, Surroundings.despite_transact]
  exact ⟨Txn.wp_mono (Txn.wp_trivial _ _) (fun _ _ _ => hm) fun _ _ => hm, fun _ _ => hm⟩

end Dealings

/-! ### Pages -/

namespace Pipeline
variable (p : Pipeline)

/-- A page that is not to be cleaned: there is no cleaner, or none is wanted, or the page is too
short. -/
def Skips (page : Ocr.Page) : Prop :=
  p.cleaner = none ∨ p.settings.cleaningEnabled = false ∨
    (Text.trim page.text).length ≤ p.settings.cleaningMinLength

instance : DecidablePred p.Skips := fun page =>
  inferInstanceAs (Decidable (p.cleaner = none ∨ p.settings.cleaningEnabled = false ∨
    (Text.trim page.text).length ≤ p.settings.cleaningMinLength))

/-- What the cleaner is asked for pages with their indexes. -/
def requests (pages : List (Ocr.Page × Nat)) : List (Nat × String × Cleaning.LanguageHint) :=
  (pages.filter fun x => ! p.Skips x.1).map fun x => (x.2, x.1.text, p.settings.languageHint)

/-- What is stored for the page of an index, when these are the answers of the cleaner. -/
inductive Stores (answers : List (Nat × Except CleaningError Cleaning.CleanedText)) (i : Nat)
    (page : Ocr.Page) : NewPage → Prop
  /-- The raw text of a page that is not to be cleaned. -/
  | skipped : p.Skips page → Stores answers i page
      { pageNo := page.number, rawText := page.text, cleanText := page.text, source := .ocr
        cleaningModel := none, cleaningVersion := none, cleaningFailed := false
        changesSummary := none }
  /-- The raw text of a page that the cleaner has failed at, with a mark. -/
  | failed (e : CleaningError) : ¬ p.Skips page → (i, .error e) ∈ answers → Stores answers i page
      { pageNo := page.number, rawText := page.text, cleanText := page.text, source := .ocr
        cleaningModel := none, cleaningVersion := none, cleaningFailed := true
        changesSummary := none }
  /-- What the cleaner has made of a page, and which cleaner it was. -/
  | cleaned (name : CleanerName) (c : Cleaning.CleanedText) : ¬ p.Skips page →
      p.cleaner = some name → (i, .ok c) ∈ answers → Stores answers i page
      { pageNo := page.number, rawText := page.text, cleanText := c.text, source := .ocr
        cleaningModel := some name.model, cleaningVersion := some name.version
        cleaningFailed := false, changesSummary := c.summary }

theorem Stores.mono {p : Pipeline}
    {answers answers' : List (Nat × Except CleaningError Cleaning.CleanedText)} {i : Nat}
    {page : Ocr.Page} {new : NewPage} (h : p.Stores answers i page new)
    (hmore : answers ⊆ answers') : p.Stores answers' i page new := by
  cases h with
  | skipped hskipped => exact .skipped hskipped
  | failed e hsent hanswer => exact .failed e hsent (hmore hanswer)
  | cleaned name c hsent hname hanswer => exact .cleaned name c hsent hname (hmore hanswer)

/-- What is stored for a page that was sent is decided by its answer. -/
theorem Stores.answered {p : Pipeline} {name : CleanerName} (hname : p.cleaner = some name)
    {answers : List (Nat × Except CleaningError Cleaning.CleanedText)} {i : Nat} {page : Ocr.Page}
    (hsent : ¬ p.Skips page) {r : Except CleaningError Cleaning.CleanedText}
    (hr : (i, r) ∈ answers) :
    p.Stores answers i page (Cleanup.settled page (r.map (Cleanup.cleaned name page))) := by
  rw [Cleanup.settled_map]
  cases r with
  | ok c => exact .cleaned name c hsent hname hr
  | error e => exact .failed e hsent hr

end Pipeline

/-! ### Batches -/

namespace Cleanup
open Batch
variable (p : Pipeline) (pages : List Ocr.Page)

/-- The page of an index is one to be cleaned. -/
def sends (i : Nat) : Bool := pages[i]?.any fun page => ! p.Skips page

/-- The dealings with the cleaner when `k` pages have been taken and these are the results: every
page among them that is to be cleaned has been sent, and it is in flight or has been answered. -/
structure Noted (k : Nat) (results : List (Nat × Except CleaningError NewPage)) (d : Dealings) :
    Prop where
  sent : d.sent = p.requests (pages.zipIdx.take k)
  answers : d.answers.map Prod.fst = (results.map Prod.fst).filter (sends p pages)
  stored : ∀ i r, (i, r) ∈ results → ∀ page, pages[i]? = some page →
    p.Stores d.answers i page (settled page r)
  pending : ∀ i < k, i ∉ results.map Prod.fst → sends p pages i = true

variable {p pages} {k : Nat} {results : List (Nat × Except CleaningError NewPage)} {d : Dealings}
  {page : Ocr.Page} {name : CleanerName}

theorem sends_eq {i : Nat} (hpage : pages[i]? = some page) :
    sends p pages i = ! decide (p.Skips page) := by
  simp [sends, hpage]

theorem requests_succ (hpage : pages[k]? = some page) :
    p.requests (pages.zipIdx.take (k + 1)) = p.requests (pages.zipIdx.take k) ++
      if p.Skips page then [] else [(k, page.text, p.settings.languageHint)] := by
  have hlast : pages.zipIdx[k]? = some (page, k) := by simp [hpage]
  unfold Pipeline.requests
  rw [List.take_add_one, hlast, List.filter_append, List.map_append]
  by_cases hskipped : p.Skips page
  · simp [hskipped]
  · simp [hskipped]

namespace Noted

theorem start : Noted p pages 0 [] .fresh where
  sent := by simp [Dealings.fresh, Pipeline.requests]
  answers := rfl
  stored _ _ hmem := nomatch hmem
  pending i hi := absurd hi (Nat.not_lt_zero i)

/-- The next page is not to be cleaned. -/
theorem skipped (h : Noted p pages k results d) (hpage : pages[k]? = some page)
    (hskipped : p.Skips page) : Noted p pages (k + 1) (results ++ [(k, .ok page.asFound)]) d where
  sent := by rw [h.sent, requests_succ hpage, if_pos hskipped, List.append_nil]
  answers := by
    have hunsent : sends p pages k = false := by simp [sends_eq hpage, hskipped]
    simp [h.answers, hunsent]
  stored i r hmem page' hpage' := by
    rcases List.mem_append.mp hmem with hold | hnew
    · exact h.stored i r hold page' hpage'
    · obtain ⟨rfl, rfl⟩ : i = k ∧ r = .ok page.asFound := by simpa using hnew
      obtain rfl : page = page' := Option.some.inj (hpage.symm.trans hpage')
      exact .skipped hskipped
  pending i hi hopen := by
    simp only [List.map_append, List.map_cons, List.map_nil, List.mem_append,
      List.mem_singleton, not_or] at hopen
    exact h.pending i (by omega) hopen.1

/-- The next page is sent, and the answer is not there yet. -/
theorem begun (h : Noted p pages k results d) (hpage : pages[k]? = some page)
    (hsent : ¬ p.Skips page) :
    Noted p pages (k + 1) results (d.begun k page.text p.settings.languageHint none) where
  sent := by
    rw [requests_succ hpage, if_neg hsent, ← h.sent]
    rfl
  answers := by simpa [Dealings.begun] using h.answers
  stored i r hmem page' hpage' :=
    (h.stored i r hmem page' hpage').mono (by simp [Dealings.begun])
  pending i hi hopen := by
    rcases Nat.lt_succ_iff_lt_or_eq.mp hi with hlt | rfl
    · exact h.pending i hlt hopen
    · simp [sends_eq hpage, hsent]

/-- A page in flight has been answered. -/
theorem ended (h : Noted p pages k results d) (hname : p.cleaner = some name) {i : Nat}
    (hi : i < k) (hopen : i ∉ results.map Prod.fst) (hpage : pages[i]? = some page)
    (r : Except CleaningError Cleaning.CleanedText) :
    Noted p pages k (results ++ [(i, r.map (cleaned name page))]) (d.ended i r) := by
  have hsends := h.pending i hi hopen
  have hsent : ¬ p.Skips page := by simpa [sends_eq hpage] using hsends
  refine ⟨h.sent, ?_, fun j r' hmem page' hpage' => ?_, fun j hj hjopen => ?_⟩
  · simp [Dealings.ended, h.answers, hsends]
  · rcases List.mem_append.mp hmem with hold | hnew
    · exact (h.stored j r' hold page' hpage').mono (List.subset_append_left _ _)
    · obtain ⟨rfl, rfl⟩ : j = i ∧ r' = r.map (cleaned name page) := by simpa using hnew
      obtain rfl : page = page' := Option.some.inj (hpage.symm.trans hpage')
      exact .answered hname hsent (List.mem_append_right _ List.mem_cons_self)
  · simp only [List.map_append, List.mem_append, not_or] at hjopen
    exact h.pending j hj hjopen.1

end Noted

/-- That one page more is finished leaves the dealings as they are. -/
theorem finished_noted {K : TxnKind} {I : Dealings → Prop} {m : Moment Dealings} (hm : I m.2)
    (jobId : String) (total : Nat) :
    (assurance (Dealings.noting.despite K)).ensures (fun _ m' => I m'.2) (finished jobId total) m :=
  finished_ensures (fun done total _ hm => Dealings.updateProgress_leads hm jobId done total _)
    total hm

/-- What is noted while pages are cleaned. -/
theorem kept_noted (pages : List Ocr.Page) (jobId : String) {K : TxnKind} {workers : Nat}
    (hname : p.cleaner = some name) (hwanted : p.settings.cleaningEnabled = true) :
    Kept (assurance (Dealings.noting.despite K)) .degrade
      ⟨begin p.settings name jobId pages.length, await name jobId pages⟩ pages workers
      fun k results m => Noted p pages k results m.2 where
  begin k page results busy m hpage hplaced _ _ hJ := by
    dsimp only
    unfold begin
    split
    case isTrue hshort =>
      have hskipped : p.Skips page := .inr (.inr (of_decide_eq_true hshort))
      refine Assurance.bind _ (Assurance.mono _ (finished_noted (hJ.skipped hpage hskipped) _ _)
        fun _ m' hm' => ?_)
      exact Assurance.pure _ hm'
    case isFalse hlong =>
      have hsent : ¬ p.Skips page := by
        rintro (hnone | hunwanted | hshort)
        · rw [hname] at hnone
          cases hnone
        · rw [hwanted] at hunwanted
          cases hunwanted
        · exact hlong (decide_eq_true hshort)
      refine Assurance.bind _ (ensures_lift ((Flow.Leads.perform _).mpr ?_))
      refine (Surroundings.despite_iff rfl).mpr ?_
      rintro o _ rfl
      cases o with
      | none => exact Assurance.pure _ (by simpa using hJ.begun hpage hsent)
      | some r =>
        have hopen : k ∉ results.map Prod.fst := hplaced.next
        have hended := (hJ.begun hpage hsent).ended hname (Nat.lt_succ_self k) hopen hpage r
        rw [← Dealings.begun_some] at hended
        refine Assurance.bind _ (Assurance.mono _ (finished_noted hended _ _) fun _ m' hm' => ?_)
        exact Assurance.pure _ hm'
  await k results first others m hk hplaced _ _ hJ := by
    dsimp only
    unfold await
    refine Assurance.bind _ (ensures_lift ((Flow.Leads.perform _).mpr ?_))
    refine (Surroundings.despite_iff rfl).mpr ?_
    rintro ⟨place, r⟩ _ rfl
    obtain ⟨hi, hopen⟩ := hplaced.inFlight (List.get_mem (first :: others) place)
    have hpage : pages[(first :: others).get place]? =
        some (pageAt pages ((first :: others).get place)) := by
      unfold pageAt
      rw [List.getElem?_eq_getElem (Nat.lt_of_lt_of_le hi hk), Option.getD_some]
    have hended := hJ.ended hname hi hopen hpage r
    refine Assurance.bind _ (Assurance.mono _ (finished_noted hended _ _) fun _ m' hm' => ?_)
    exact Assurance.pure _ hm'

theorem requests_indexes : (p.requests pages.zipIdx).map Prod.fst =
    (List.range pages.length).filter (sends p pages) := by
  have hsends : ∀ x ∈ pages.zipIdx, (! decide (p.Skips x.1)) = (sends p pages ∘ Prod.snd) x :=
    fun x hx => (sends_eq (List.mem_zipIdx_iff_getElem?.mp hx)).symm
  have hindexes : pages.zipIdx.map Prod.snd = List.range pages.length := by
    rw [List.zipIdx_map_snd, List.range_eq_range']
  unfold Pipeline.requests
  rw [List.map_map, List.filter_congr hsends, ← hindexes, List.filter_map]
  rfl

/-- What has become of the pages, and what the dealings with the cleaner have been. -/
structure Settled (p : Pipeline) (pages : List Ocr.Page) (new : List NewPage) (d : Dealings) :
    Prop where
  stored : List.Forall₂ (fun x => p.Stores d.answers x.2 x.1) pages.zipIdx new
  sent : d.sent = p.requests pages.zipIdx
  answered : d.answers.map Prod.fst ~ d.sent.map Prod.fst

/-- Where no page is to be cleaned, the cleaner has nothing to do. -/
theorem settled_skipped (hskipped : ∀ page, p.Skips page) :
    Settled p pages (pages.map (·.asFound)) .fresh where
  stored := by
    have hplain : pages.map (·.asFound) = pages.zipIdx.map fun x => x.1.asFound := by
      conv_lhs => rw [← List.zipIdx_map_fst 0 pages, List.map_map]
      rfl
    rw [hplain, List.forall₂_map_right_iff, List.forall₂_same]
    exact fun x _ => .skipped (hskipped x.1)
  sent := by simp [Dealings.fresh, Pipeline.requests, hskipped]
  answered := List.Perm.refl _

/-- When every page has a result, every page that was to be cleaned has been answered. -/
theorem Noted.settled (h : Noted p pages pages.length results d)
    (hcomplete : results.map Prod.fst ~ List.range pages.length) {new : List NewPage}
    (hnew : List.Forall₂ (fun x value => pages[x.2]? = some x.1 ∧ ∃ r, (x.2, r) ∈ results ∧
      value = settled x.1 r) pages.zipIdx new) : Settled p pages new d where
  stored := by
    refine hnew.imp fun x value hvalue => ?_
    obtain ⟨hpage, r, hr, rfl⟩ := hvalue
    exact h.stored x.2 r hr x.1 hpage
  sent := by
    rw [h.sent, List.take_of_length_le (by simp)]
  answered := by
    rw [h.answers, h.sent, List.take_of_length_le (by simp), requests_indexes]
    exact hcomplete.filter _

/-- What a cleaner makes of the pages, whatever it answers. -/
theorem clean_settles (jobId : String) {K : TxnKind} (hname : p.cleaner = some name)
    (hwanted : p.settings.cleaningEnabled = true) (s : Store) :
    Flow.Leads (Dealings.noting.despite K) (fun new m' => Settled p pages new m'.2)
      (clean p.settings name jobId pages) (s, .fresh) := by
  unfold clean
  rw [Flow.Leads.bind]
  have hpages := (Pool.ofNat p.settings.cleaningConcurrency).mapOrElse_kept
    (kept_noted pages jobId (K := K) hname hwanted) (fun page _ => unclean page)
    (u := (s, Dealings.fresh)) .start
  refine (counting_iff.mp hpages 0).mono fun out m' ho => ?_
  obtain ⟨results, hcomplete, hnoted, hnew⟩ := ho
  refine hnoted.settled hcomplete (hnew.imp fun x value hvalue => ?_)
  obtain ⟨hpage, r, hr, rfl⟩ := hvalue
  exact ⟨hpage, r, hr, by cases r <;> rfl⟩

end Cleanup

open Cleanup in
theorem Pipeline.cleanPages_settles (p : Pipeline) (jobId : String) (pages : List Ocr.Page)
    {K : TxnKind} (s : Store) :
    Flow.Leads (Dealings.noting.despite K) (fun new m' => Settled p pages new m'.2)
      (p.cleanPages jobId pages) (s, .fresh) := by
  unfold cleanPages
  split
  case h_1 name hname =>
    split
    case isTrue hwanted => exact clean_settles jobId hname hwanted s
    case isFalse hunwanted => exact settled_skipped fun _ => .inr (.inl (by simpa using hunwanted))
  case h_2 hnone => exact settled_skipped fun _ => .inl hnone

/-- **Cleaning degrades in place.** Whatever the cleaner answers for the pages that it is sent, at
once or later and in whichever order, and even if the store fails what is recorded meanwhile: there
is one page for each page that was recognized, in their order and with its number and raw text. A
page that is not to be cleaned keeps its raw text and is not sent; every other page is sent once,
answered once, and stored with its answer, or with its raw text and a mark if that is a failure. -/
theorem Pipeline.cleanPages_degrades (p : Pipeline) (jobId : String) (pages : List Ocr.Page)
    (s : Store) :
    (∃ new m', Dealings.noting.RunsDespite anyTransaction (p.cleanPages jobId pages)
        (s, .fresh) new m') ∧
      ∀ new m', Dealings.noting.RunsDespite anyTransaction (p.cleanPages jobId pages)
          (s, .fresh) new m' →
        List.Forall₂ (fun x => p.Stores m'.2.answers x.2 x.1) pages.zipIdx new ∧
          m'.2.sent = p.requests pages.zipIdx ∧
          m'.2.answers.map Prod.fst ~ m'.2.sent.map Prod.fst := by
  constructor
  · obtain ⟨new, m', hruns⟩ := Dealings.noting_live.runs (p.cleanPages jobId pages) (s, .fresh)
    exact ⟨new, m', hruns.despite⟩
  · intro new m' hruns
    have hsettles := p.cleanPages_settles jobId pages (K := anyTransaction) s
    have hsettled := Surroundings.leads_despite_iff.mp hsettles new m' hruns
    exact ⟨hsettled.stored, hsettled.sent, hsettled.answered⟩

end Quire
