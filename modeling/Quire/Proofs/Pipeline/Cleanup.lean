import Quire.Pipeline.Cleanup
import Quire.Proofs.Flow.Logic
import Quire.Proofs.Pool

/-! What cleaning makes of recognized pages.

Whatever the cleaner answers, and in whichever order, there is one page for each recognized page,
in their order, with the number and the raw text that were recognized and with what the cleaner has
answered for it. While pages are cleaned nothing but progress is recorded: what that leaves alone
still holds when cleaning ends. -/
namespace Quire

/-! ### Pages -/

/-- What a cleaner can answer for the page of an index. -/
abbrev Cleanup.Answers := Nat → Except CleaningError Cleaning.CleanedText → Prop

/-- A page with what the cleaner has answered for it. -/
def Cleanup.answered (name : CleanerName) (page : Ocr.Page) :
    Except CleaningError Cleaning.CleanedText → NewPage
  | .ok c => cleaned name page c
  | .error _ => unclean page

/-- A page as it will be stored has the number and the text that were recognized. -/
structure Cleanup.Renders (page : Ocr.Page) (new : NewPage) : Prop where
  pageNo : new.pageNo = page.number
  rawText : new.rawText = page.text
  source : new.source = .ocr

namespace Pipeline
variable (p : Pipeline)

/-- The cleaner that a page is sent to. -/
def cleanerOf (page : Ocr.Page) : Option CleanerName :=
  if p.settings.cleaningEnabled && ! Cleaning.isTooShort page.text p.settings.cleaningMinLength then
    p.cleaner
  else none

/-- A page as it will be stored if this is the answer of its cleaner. -/
def prepared (page : Ocr.Page) (answer : Except CleaningError Cleaning.CleanedText) : NewPage :=
  match p.cleanerOf page with
  | some name => Cleanup.answered name page answer
  | none => page.asFound

/-- A page of an index may be stored so. -/
def Prepares (can : Cleanup.Answers) (i : Nat) (page : Ocr.Page) (new : NewPage) : Prop :=
  ∃ answer, ((p.cleanerOf page).isSome → can i answer) ∧ new = p.prepared page answer

/-- Pages may be stored so. -/
def PreparesAll (can : Cleanup.Answers) (pages : List Ocr.Page) (new : List NewPage) : Prop :=
  List.Forall₂ (fun x => p.Prepares can x.2 x.1) pages.zipIdx new

section
variable {p} {can : Cleanup.Answers} {i : Nat} {page : Ocr.Page} {new : NewPage}
  {name : CleanerName}

theorem cleanerOf_eq (page : Ocr.Page) (hname : p.cleaner = some name)
    (hwanted : p.settings.cleaningEnabled = true) : p.cleanerOf page =
      if Cleaning.isTooShort page.text p.settings.cleaningMinLength then none else some name := by
  unfold cleanerOf
  rw [hname, hwanted]
  cases Cleaning.isTooShort page.text p.settings.cleaningMinLength with
  | true => rfl
  | false => rfl

theorem prepares_unsent (h : p.cleanerOf page = none) : p.Prepares can i page page.asFound := by
  refine ⟨.ok default, fun hsent => ?_, ?_⟩
  · simp [h] at hsent
  · unfold prepared
    rw [h]

theorem prepares_answered (h : p.cleanerOf page = some name)
    {r : Except CleaningError Cleaning.CleanedText} (hr : can i r) :
    p.Prepares can i page (Cleanup.answered name page r) := by
  refine ⟨r, fun _ => hr, ?_⟩
  unfold prepared
  rw [h]

theorem preparesAll_unsent {pages : List Ocr.Page} (h : ∀ page, p.cleanerOf page = none) :
    p.PreparesAll can pages (pages.map (·.asFound)) := by
  have hplain : pages.map (·.asFound) = pages.zipIdx.map fun x => x.1.asFound := by
    rw [← List.zipIdx_map_fst 0 pages, List.map_map]
    simp
  unfold PreparesAll
  rw [hplain, List.forall₂_map_right_iff, List.forall₂_same]
  exact fun x _ => prepares_unsent (h x.1)

/-- What is stored has the number and the text that were recognized. -/
theorem Prepares.renders (h : p.Prepares can i page new) : Cleanup.Renders page new := by
  obtain ⟨answer, -, rfl⟩ := h
  unfold prepared
  cases p.cleanerOf page with
  | none => exact ⟨rfl, rfl, rfl⟩
  | some name =>
    cases answer with
    | ok c => exact ⟨rfl, rfl, rfl⟩
    | error e => exact ⟨rfl, rfl, rfl⟩

/-- One page is stored for each page that was recognized. -/
theorem PreparesAll.renders {pages : List Ocr.Page} {new : List NewPage}
    (h : p.PreparesAll can pages new) : List.Forall₂ Cleanup.Renders pages new := by
  have hpages : pages.zipIdx.map Prod.fst = pages := List.zipIdx_map_fst 0 pages
  rw [← hpages, List.forall₂_map_left_iff]
  exact h.imp fun x new hnew => hnew.renders

/-- What is stored has the numbers that were recognized. -/
theorem PreparesAll.numbers {pages : List Ocr.Page} {new : List NewPage}
    (h : p.PreparesAll can pages new) : new.map (·.pageNo) = pages.map (·.number) := by
  rw [← List.forall₂_eq_eq_eq, List.forall₂_map_left_iff, List.forall₂_map_right_iff]
  exact h.renders.flip.imp fun new page hnew => hnew.pageNo

theorem Prepares.eq (h : p.Prepares can i page new)
    {answer : Except CleaningError Cleaning.CleanedText} (hone : ∀ r, can i r → r = answer) :
    new = p.prepared page answer := by
  obtain ⟨r, hcan, rfl⟩ := h
  unfold prepared
  cases hsent : p.cleanerOf page with
  | none => rfl
  | some name => rw [hone r (hcan (by simp [hsent]))]

/-- If there is one answer for each index, there is one way to store the pages. -/
theorem PreparesAll.eq {answers : Nat → Except CleaningError Cleaning.CleanedText}
    (hone : ∀ i r, can i r → r = answers i) {pages : List Ocr.Page} {new : List NewPage}
    (h : p.PreparesAll can pages new) :
    new = pages.zipIdx.map fun x => p.prepared x.1 (answers x.2) := by
  rw [← List.forall₂_eq_eq_eq, List.forall₂_map_right_iff]
  exact List.Forall₂.flip (h.imp fun x new hnew => hnew.eq (hone x.2))

end
end Pipeline

namespace Cleanup
variable {μ : Type} {R : Reading μ} {can : Answers} {Inv : μ → Prop} {jobId : String}

/-- A property that no question of the cleaning destroys, where the cleaner answers what it can. -/
structure Steady (R : Reading μ) (can : Answers) (Inv : μ → Prop) (jobId : String) : Prop where
  begin : ∀ i text hint K m, Inv m → (∀ b n, (∀ r, b = some r → can i r) → Inv n → K b n) →
    R.asking (.beginCleaning i text hint) K m
  await : ∀ first others K m, Inv m →
    (∀ b n, can ((first :: others).get b.1) b.2 → Inv n → K b n) →
    R.asking (.awaitCleaning first others) K m
  progress : ∀ done total m, Inv m →
    Run.Leads R (fun _ => Inv) (fun _ => Inv) (Ledger.updateProgress jobId done total "cleaning") m

/-- Whatever it has counted before, a counting flow comes to `Q`. -/
-- Irreducible, so that no application of it makes Lean run the cleaning.
@[irreducible]
def Counting {α : Type} (R : Reading μ) (Q : α → μ → Prop) (x : Counted α) (m : μ) : Prop :=
  ∀ n, Flow.Leads R (fun out m' => Q out.1 m') (x.run n) m

theorem counting_iff {α : Type} {Q : α → μ → Prop} {x : Counted α} {m : μ} :
    Counting R Q x m ↔ ∀ n, Flow.Leads R (fun out m' => Q out.1 m') (x.run n) m := by
  unfold Counting
  rfl

/-- To be sure of what a counting flow comes to. -/
def assurance (R : Reading μ) : Assurance Counted μ where
  ensures := Counting R
  mono h hQ := by
    rw [counting_iff] at h ⊢
    exact fun n => (h n).mono fun out m' ho => hQ out.1 m' ho
  pure hQ := counting_iff.mpr fun _ => hQ
  bind hx := by
    rw [counting_iff] at hx ⊢
    intro n
    rw [StateT.run_bind, Flow.Leads.bind]
    exact (hx n).mono fun out m' ho => counting_iff.mp ho out.2

section
variable {α : Type} {Q : α → μ → Prop} {m : μ}

theorem ensures_lift {f : Flow α} (h : Flow.Leads R Q f m) :
    (assurance R).ensures Q (StateT.lift f : Counted α) m := by
  refine counting_iff.mpr fun n => ?_
  show Flow.Leads R _ (f >>= fun a => Pure.pure (a, n)) m
  rw [Flow.Leads.bind]
  exact h

theorem finished_ensures (hprogress : ∀ done total m, Inv m →
      Run.Leads R (fun _ => Inv) (fun _ => Inv)
        (Ledger.updateProgress jobId done total "cleaning") m)
    (total : Nat) (hm : Inv m) :
    (assurance R).ensures (fun _ => Inv) (finished jobId total) m := by
  refine Assurance.bind _ (counting_iff.mpr fun _ => ?_)
  refine Assurance.bind _ (counting_iff.mpr fun _ => ?_)
  refine Assurance.bind _ (ensures_lift ?_)
  refine Flow.Leads.mono (hprogress _ _ m hm) fun o m' ho => Assurance.pure _ ?_
  cases o with
  | ok _ => exact ho
  | error _ => exact ho

end

/-! ### Batches -/

section
variable (p : Pipeline) (can : Answers)

/-- The page that a result comes to. -/
def settled (page : Ocr.Page) : Except CleaningError NewPage → NewPage
  | .ok new => new
  | .error _ => unclean page

theorem settled_map (name : CleanerName) (page : Ocr.Page)
    (r : Except CleaningError Cleaning.CleanedText) :
    settled page (r.map (cleaned name page)) = answered name page r := by
  cases r with
  | ok _ => rfl
  | error _ => rfl

/-- A result that comes to a page that may be stored. -/
def Fits (i : Nat) (page : Ocr.Page) (r : Except CleaningError NewPage) : Prop :=
  p.Prepares can i page (settled page r)

/-- The page of an index is sent to the cleaner. -/
def Sent (pages : List Ocr.Page) (name : CleanerName) (i : Nat) : Prop :=
  ∀ page, pages[i]? = some page → p.cleanerOf page = some name

variable {p can} {name : CleanerName} (pages : List Ocr.Page)

theorem fits_answer {i : Nat} {page : Ocr.Page} (hsent : p.cleanerOf page = some name)
    {r : Except CleaningError Cleaning.CleanedText} (hr : can i r) :
    Fits p can i page (r.map (cleaned name page)) := by
  unfold Fits
  rw [settled_map]
  exact Pipeline.prepares_answered hsent hr

theorem begin_ensures (hs : Steady R can Inv jobId) (hname : p.cleaner = some name)
    (hwanted : p.settings.cleaningEnabled = true) (i : Nat) (page : Ocr.Page) (m : μ)
    (hpage : pages[i]? = some page) (hm : Inv m) :
    (assurance R).ensures
      (fun o m' => Inv m' ∧ Batch.Started (Fits p can) (Sent p pages name) i page o)
      (begin p.settings name jobId pages.length i page) m := by
  have hcleaner := Pipeline.cleanerOf_eq page hname hwanted
  unfold begin
  split
  case isTrue hshort =>
    rw [if_pos hshort] at hcleaner
    refine Assurance.bind _ (Assurance.mono _ (finished_ensures hs.progress _ hm) fun _ m' hm' => ?_)
    exact Assurance.pure _ ⟨hm', Pipeline.prepares_unsent hcleaner⟩
  case isFalse hlong =>
    rw [if_neg hlong] at hcleaner
    refine Assurance.bind _ (ensures_lift (hs.begin _ _ _ _ m hm fun o m' hcan hm' => ?_))
    cases o with
    | none =>
      refine Assurance.pure _ ⟨hm', fun page' hpage' => ?_⟩
      obtain rfl : page = page' := Option.some.inj (hpage.symm.trans hpage')
      exact hcleaner
    | some r =>
      refine Assurance.bind _ (Assurance.mono _ (finished_ensures hs.progress _ hm') fun _ m'' hm'' => ?_)
      exact Assurance.pure _ ⟨hm'', fits_answer hcleaner (hcan r rfl)⟩

theorem await_ensures (hs : Steady R can Inv jobId) (first : Nat) (others : List Nat) (m : μ)
    (hsent : ∀ i ∈ first :: others, Sent p pages name i) (hm : Inv m) :
    (assurance R).ensures
      (fun out m' => Inv m' ∧ ∀ page, pages[(first :: others).get out.1]? = some page →
        Fits p can ((first :: others).get out.1) page out.2)
      (await name jobId pages first others) m := by
  unfold await
  refine Assurance.bind _ (ensures_lift (hs.await _ _ _ m hm fun out m' hcan hm' => ?_))
  obtain ⟨place, r⟩ := out
  refine Assurance.bind _ (Assurance.mono _ (finished_ensures hs.progress _ hm') fun _ m'' hm'' => ?_)
  refine Assurance.pure _ ⟨hm'', fun page hpage => ?_⟩
  have hat : pageAt pages ((first :: others).get place) = page := by
    unfold pageAt
    rw [hpage]
    rfl
  rw [hat]
  have hwaits := hsent _ (List.get_mem (first :: others) place)
  exact fits_answer (hwaits page hpage) hcan

/-- What stands for each page is the page with what the cleaner has answered for it. -/
theorem clean_leads (hs : Steady R can Inv jobId) (hname : p.cleaner = some name)
    (hwanted : p.settings.cleaningEnabled = true) (m : μ) (hm : Inv m) :
    Flow.Leads R (fun new m' => Inv m' ∧ p.PreparesAll can pages new)
      (clean p.settings name jobId pages) m := by
  unfold clean
  rw [Flow.Leads.bind]
  have hpages : (assurance R).ensures (fun new m' => Inv m' ∧ p.PreparesAll can pages new)
      ((Pool.ofNat p.settings.cleaningConcurrency).mapOrElse
        ⟨begin p.settings name jobId pages.length, await name jobId pages⟩
        (fun page _ => unclean page) pages) m := by
    refine Pool.mapOrElse_ensures _ (Fits p can) (Sent p pages name) Inv hm ?_ ?_
      (fun _ _ _ hfits => hfits) fun _ _ _ hfits => hfits
    · dsimp only
      exact begin_ensures pages hs hname hwanted
    · dsimp only
      exact await_ensures pages hs
  exact (counting_iff.mp hpages 0).mono fun out m' ho => ho

end
end Cleanup

open Cleanup in
/-- What is stored for each recognized page, whether there is a cleaner or not. -/
theorem Pipeline.cleanPages_leads {μ : Type} {R : Reading μ} {can : Answers} {Inv : μ → Prop}
    {jobId : String} (p : Pipeline) (pages : List Ocr.Page) (hs : Steady R can Inv jobId) (m : μ)
    (hm : Inv m) :
    Flow.Leads R (fun new m' => Inv m' ∧ p.PreparesAll can pages new)
      (p.cleanPages jobId pages) m := by
  unfold cleanPages
  split
  case h_1 name hname =>
    split
    case isTrue hwanted => exact clean_leads pages hs hname hwanted m hm
    case isFalse hunwanted =>
      refine ⟨hm, preparesAll_unsent fun page => ?_⟩
      unfold cleanerOf
      simp [hunwanted]
  case h_2 hnone =>
    refine ⟨hm, preparesAll_unsent fun page => ?_⟩
    unfold cleanerOf
    rw [hnone, ite_self]

end Quire
