import Mathlib.Data.List.Permutation
import Quire.Proofs.Pipeline.Completion
import Quire.Proofs.Pipeline.Quiet
import Quire.Proofs.Store.Pages

/-! What a poll of a finished operation leaves.

If the pages of the shards have numbers of their own, they become the pages of the document, and
every count is the number of them: in whichever order they are found, however many of them are
cleaned at a time or stored in a batch. If not, of several pages of one number only one is left,
while all of them are counted. -/
namespace Quire

/-! ### Answers -/

/-- Surroundings that only have some objects answer every question. -/
theorem ObjectStore.surroundings_live (o : ObjectStore) {can : Cleanup.Answers}
    (hcan : ∀ i, ∃ r, can i r) (mayFail : Prop) : (o.surroundings can mayFail).Live := by
  refine Surroundings.Live.of_allows fun op x => ?_
  obtain ⟨b⟩ := op.nonempty
  cases op with
  | list start => exact ⟨.ok (o.list start), x, .inl ⟨_, rfl, .refl _⟩⟩
  | get key => exact ⟨o.get key, x, .inl rfl⟩
  | status handle => exact ⟨.ok ⟨true, none, none⟩, x, .inl ⟨_, rfl, rfl, rfl⟩⟩
  | beginCleaning index text hint => exact ⟨none, x, fun _ h => nomatch h⟩
  | awaitCleaning first others =>
    obtain ⟨r, hr⟩ := hcan first
    exact ⟨(0, r), x, hr⟩
  | _ => exact ⟨b, x, trivial⟩

theorem ObjectStore.exists_run (o : ObjectStore) {can : Cleanup.Answers}
    (hcan : ∀ i, ∃ r, can i r) (mayFail : Prop) {α : Type} (f : Flow α) (s : Store) :
    ∃ r m, (o.surroundings can mayFail).Runs f (s, ()) r m :=
  Surroundings.Live.runs (o.surroundings_live hcan mayFail) f (s, ())

/-- What may fail need not fail. -/
theorem ObjectStore.runs_of_answered {o : ObjectStore} {can : Cleanup.Answers} {α : Type}
    {f : Flow α} {m m' : Moment Unit} {r : α} (h : (o.surroundings can False).Runs f m r m') :
    (o.surroundings can True).Runs f m r m' := by
  refine h.mono fun e x b x' hb => ?_
  cases e with
  | list start => exact hb.imp_right fun h => h.1.elim
  | get key => exact hb.imp_right fun h => h.1.elim
  | status handle => exact hb.imp_right False.elim
  | beginCleaning index text hint => exact hb
  | awaitCleaning first others => exact hb
  | _ => trivial

namespace Store.Awaits
variable {s : Store} {p : Pipeline} {job : Job} {staging : Staging} {d : String} {o : ObjectStore}
  {can : Cleanup.Answers} {shards : List (List Ocr.Page)} {m : Moment Unit}

/-- Where nothing fails, a poll completes the job. -/
theorem completes (h : s.Awaits p job staging d) (hshards : o.Shards staging.outputFolder shards)
    (hstored : ∀ r ∈ s.pagesOf d, ∃ page ∈ shards.flatten, r.pageNo = .ofNat page.number.toNat)
    (hno : ∀ page ∈ shards.flatten, 1 ≤ page.number) {outcome : Except PipelineError JobReport}
    (hrun : (o.surroundings can False).Runs (p.poll job.id).run (s, ()) outcome m) :
    ∃ stored, p.Yields can shards stored ∧
      outcome = .ok (.completed job.id (collectedOf stored).pageCount) ∧
      m.1.Completed job.id d stored := by
  have htold := ((h.poll_takes hshards hstored (.inr hno)).runs rfl trivial ()).2 outcome m hrun
  cases outcome with
  | ok report =>
    obtain ⟨stored, hyields, hreport, hcompleted⟩ := htold.1 (htold.2.resolve_left id)
    exact ⟨stored, hyields, hreport ▸ rfl, hcompleted⟩
  | error e => exact htold.elim

/-- A poll that says so has completed the job. -/
theorem completed (h : s.Awaits p job staging d) (hshards : o.Shards staging.outputFolder shards)
    (hempty : s.pagesOf d = []) {report : JobReport}
    (hrun : (o.surroundings can True).Runs (p.poll job.id).run (s, ()) (.ok report) m)
    (hcompleted : report.status = .completed) :
    ∃ stored, p.Yields can shards stored ∧
      report = .completed job.id (collectedOf stored).pageCount ∧
      m.1.Completed job.id d stored := by
  have hnone : ∀ r ∈ s.pagesOf d, ∃ page ∈ shards.flatten, r.pageNo = .ofNat page.number.toNat := by
    rw [hempty]
    exact fun _ hr => absurd hr List.not_mem_nil
  exact (((h.poll_takes hshards hnone (.inl trivial)).runs rfl trivial ()).2 _ m hrun).1 hcompleted

end Store.Awaits

/-! ### Pages of different numbers -/

/-- The page is one that was recognized, with its number, its text and the words of it. -/
structure Page.Keeps (page : Page) (found : Ocr.Page) : Prop where
  pageNo : page.pageNo = found.number
  rawText : page.rawText = some found.text
  source : page.source = .ocr
  wordCount : page.wordCount = UInt32.ofNat (Text.wordCount found.text)

theorem Page.Shows.keeps {page : Page} {new : NewPage} {found : Ocr.Page} (h : page.Shows new)
    (hnew : Cleanup.Renders found new) : page.Keeps found where
  pageNo := h.pageNo.trans hnew.pageNo
  rawText := by rw [h.rawText, hnew.rawText]
  source := h.source.trans hnew.source
  wordCount := by rw [h.wordCount, hnew.rawText]

theorem Ocr.Shard.merge_length (shards : List (List Page)) :
    (merge shards).length = shards.flatten.length := (merge_perm shards).length_eq

section Stored
variable {p : Pipeline} {can : Cleanup.Answers} {jobId d : String} {shards : List (List Ocr.Page)}
  {stored : List NewPage} {s : Store}

theorem Pipeline.Yields.length_eq (h : p.Yields can shards stored) :
    stored.length = shards.flatten.length := by
  simpa only [List.length_map] using h.numbers.length_eq

/-- Pages of different numbers are stored by number, whichever order they were merged in. -/
theorem Pipeline.Yields.prepares (h : p.Yields can shards stored)
    (hnodup : (shards.flatten.map (·.number)).Nodup) :
    p.PreparesAll can (Ocr.Shard.merge shards) stored := by
  obtain ⟨parts, hperm, hprepares⟩ := h
  rwa [Ocr.Shard.merge_eq hperm hnodup] at hprepares

/-- The pages of different numbers can be counted. -/
theorem Store.Completed.count_toNat (h : s.Completed jobId d stored)
    (hyields : p.Yields can shards stored) (hnodup : (shards.flatten.map (·.number)).Nodup) :
    (UInt32.ofNat shards.flatten.length).toNat = shards.flatten.length := by
  have hlt := h.pages.length_lt (hyields.numbers.nodup_iff.mpr hnodup)
  rw [hyields.length_eq] at hlt
  exact UInt32.toNat_ofNat_of_lt' hlt

/-- As many pages are read as failing as were stored as failing. -/
theorem failures_eq {pages : List Page} (h : List.Forall₂ Page.Shows pages stored) :
    (pages.filter (·.cleaningFailed)).length = (stored.filter (·.cleaningFailed)).length := by
  refine (List.rel_filter (fun page new hshows => ?_) h).length_eq
  show page.cleaningFailed = true ↔ new.cleaningFailed = true
  rw [hshows.cleaningFailed]

/-- Pages of different numbers are read back as they were stored. -/
theorem Store.Completed.reads (h : s.Completed jobId d stored)
    (hyields : p.Yields can shards stored) (hnodup : (shards.flatten.map (·.number)).Nodup) :
    ∃ pages, ((Pages.list d).run s).1 = .ok pages ∧ List.Forall₂ Page.Shows pages stored ∧
      List.Forall₂ Page.Keeps pages (Ocr.Shard.merge shards) := by
  obtain ⟨pages, hrun, hlists⟩ := Pages.list_run h.pages
  have hprepares := hyields.prepares hnodup
  have hshows := hlists.forall₂ (hprepares.numbers ▸ Ocr.Shard.merge_ascending hnodup)
  refine ⟨pages, congrArg Prod.fst hrun, hshows, ?_⟩
  exact forall₂_trans (S := flip Cleanup.Renders) (fun hpage hnew => hpage.keeps hnew) hshows
    (List.Forall₂.flip hprepares.renders)

end Stored

/-- The same pipeline, but for how many pages it cleans at a time and stores in a batch. -/
def Pipeline.sized (p : Pipeline) (concurrency batch : Nat) : Pipeline :=
  { p with settings := { p.settings with
      cleaningConcurrency := concurrency
      pageInsertBatch := batch } }

theorem Store.Awaits.sized {p : Pipeline} {job : Job} {staging : Staging} {d : String} {s : Store}
    (h : s.Awaits p job staging d) (concurrency batch : Nat) :
    s.Awaits (p.sized concurrency batch) job staging d := { h with external := h.external }

/-- An operation that is done without a failure has left shards whose pages have numbers of their
own, from one on, and the document has no stored page of another number. A poll then comes to an
end, and completes the job: the pages of the document are the pages of the shards, by number, each
with its own text and with what the cleaner has answered for it; the document is a draft; and the
number of pages is told by the poll, the document and the job. None of that depends on how many
pages are cleaned at a time or stored in a batch, and the order of the pages by number is the same
for every order of the shards and of the pages in them. -/
theorem poll_makes_draft {s : Store} {p : Pipeline} {job : Job} {staging : Staging} {d : String}
    {o : ObjectStore} {can : Cleanup.Answers} {shards : List (List Ocr.Page)}
    (h : s.Awaits p job staging d) (hcan : ∀ i, ∃ r, can i r)
    (hshards : o.Shards staging.outputFolder shards)
    (hnodup : (shards.flatten.map (·.number)).Nodup)
    (hno : ∀ page ∈ shards.flatten, 1 ≤ page.number)
    (hstored : ∀ r ∈ s.pagesOf d, ∃ page ∈ shards.flatten, r.pageNo = .ofNat page.number.toNat) :
    let found := Ocr.Shard.merge shards
    let count := UInt32.ofNat found.length
    (found.Perm shards.flatten ∧ (found.map (·.number)).Pairwise (· < ·) ∧
      ∀ parts : List (List Ocr.Page), parts.flatten.Perm shards.flatten →
        Ocr.Shard.merge parts = found) ∧
    count.toNat = found.length ∧
    ∀ concurrency batch,
      let poll := ((p.sized concurrency batch).poll job.id).run
      (∃ outcome m, (o.surroundings can False).Runs poll (s, ()) outcome m) ∧
      ∀ outcome m, (o.surroundings can False).Runs poll (s, ()) outcome m →
        outcome = .ok (.completed job.id count) ∧ m.1.Sound ∧
        ∃ pages cleanupFailed, ((Pages.list d).run m.1).1 = .ok pages ∧
          List.Forall₂ Page.Keeps pages found ∧
          (∀ answers : Nat → Except CleaningError Cleaning.CleanedText,
            (∀ i r, can i r → r = answers i) → List.Forall₂ Page.Shows pages
              (found.zipIdx.map fun x => p.prepared x.1 (answers x.2))) ∧
          (∃ r ∈ m.1.documents, r.id = d ∧ r.status = .draft ∧
            r.pageCount = .ofNat found.length) ∧
          ∃ r ∈ m.1.jobs, r.id = job.id ∧ r.status = .completed ∧ r.percent = .real 100 ∧
            r.result = some (.value (Pipeline.summary
              ⟨count, (pages.filter (·.cleaningFailed)).length⟩ cleanupFailed)) := by
  intro found count
  have hlength : found.length = shards.flatten.length := Ocr.Shard.merge_length shards
  have hcount : count.toNat = found.length := by
    obtain ⟨outcome, m, hrun⟩ := o.exists_run hcan False (p.poll job.id).run s
    obtain ⟨stored, hyields, -, hcompleted⟩ := h.completes hshards hstored hno hrun
    show (UInt32.ofNat found.length).toNat = found.length
    rw [hlength]
    exact hcompleted.count_toNat hyields hnodup
  refine ⟨⟨Ocr.Shard.merge_perm shards, Ocr.Shard.merge_ascending hnodup, fun parts hparts =>
    Ocr.Shard.merge_eq hparts hnodup⟩, hcount, fun concurrency batch =>
    ⟨o.exists_run hcan False _ s, fun outcome m hrun => ?_⟩⟩
  obtain ⟨stored, hyields, houtcome, hcompleted⟩ :=
    (h.sized concurrency batch).completes hshards hstored hno hrun
  obtain ⟨pages, hread, hshows, hkeeps⟩ := hcompleted.reads hyields hnodup
  have hsame : (collectedOf stored).pageCount = count := by
    show UInt32.ofNat stored.length = UInt32.ofNat found.length
    rw [hyields.length_eq, hlength]
  have hfailures : (pages.filter (·.cleaningFailed)).length =
      (collectedOf stored).cleaningFailures := failures_eq hshows
  obtain ⟨r, hr, hid, hdraft, hpageCount⟩ := hcompleted.document
  obtain ⟨j, hj, hjid, hstatus, hpercent, cleanupFailed, hresult⟩ := hcompleted.job
  refine ⟨hsame ▸ houtcome, hcompleted.sound, pages, cleanupFailed, hread, hkeeps,
    fun answers hone => ?_, ⟨r, hr, hid, hdraft, ?_⟩, j, hj, hjid, hstatus, hpercent, ?_⟩
  · exact (hyields.prepares hnodup).eq hone ▸ hshows
  · rw [hpageCount, hsame, hcount]
  · rw [hresult, hfailures, ← hsame]

namespace Background

/-- The job as it is read while its operation goes on. -/
def job : Job :=
  match ((Jobs.find "j").run store).1 with
  | .ok (some job) => job
  | _ => default

theorem awaits : store.Awaits pipeline job staging "d" where
  sound := store_quiet.calm.sound
  keyed := List.nodup_nil
  found := rfl
  polling := rfl
  kind := rfl
  external := rfl
  handle := rfl
  staging := rfl
  document := rfl
  processing := ⟨_, List.mem_singleton_self _, rfl, rfl⟩

/-- A shard of one page, which has all of its text. -/
def shard (number : Option Nat) (text : String) : StoredObject :=
  let segment := Json.ofMembers [("endIndex", .ofNat text.utf8ByteSize)]
  let page := Json.ofMembers <|
    (number.map fun n => ("pageNumber", Json.ofNat n)).toList ++
      [("layout", .ofMembers [("textSegment", segment)])]
  let content := Json.ofMembers [("text", .text text), ("pages", .array [page])]
  ⟨content.compact.toUTF8, "application/json"⟩

/-- Two shards that the operation has left. -/
def objects (first second : StoredObject) : ObjectStore where
  bucket := pipeline.bucket
  objects := [(staging.outputFolder ++ "0.json", first), (staging.outputFolder ++ "1.json", second)]

/-- The second page is in the first shard. -/
def numbered : ObjectStore := objects (shard (some 2) "b") (shard (some 1) "a")

theorem numbered_shards : numbered.Shards staging.outputFolder [[⟨2, "b"⟩], [⟨1, "a"⟩]] :=
  .cons ⟨_, rfl, rfl⟩ (.cons ⟨_, rfl, rfl⟩ .nil)

/-- The same pipeline with a cleaner, to which every page is sent. -/
def cleaning : Pipeline :=
  { pipeline with
    settings := { pipeline.settings with cleaningMinLength := 0 }
    cleaner := some ⟨"m", "1"⟩ }

/-- The cleaner cleans one page and fails on the other. -/
def answers : Nat → Except CleaningError Cleaning.CleanedText
  | 0 => .ok ⟨"A", none⟩
  | _ => .error (.malformed "")

end Background

/-- Two shards in the wrong order become a draft of two pages in the right one, the first of them
clean. -/
theorem poll_makes_draft_in_background :
    let can : Cleanup.Answers := fun i r => r = Background.answers i
    ∃ m, (Background.numbered.surroundings can False).Runs
        ((Background.cleaning.sized 1 1).poll Background.job.id).run (Background.store, ())
        (.ok (.completed "j" 2)) m ∧
      ∃ pages, ((Pages.list "d").run m.1).1 = .ok pages ∧
        List.Forall₂ Page.Keeps pages [⟨1, "a"⟩, ⟨2, "b"⟩] ∧
        pages.map (·.cleanText) = [some "A", some "b"] ∧
        pages.map (·.cleaningFailed) = [false, true] := by
  intro can
  have hmerge : Ocr.Shard.merge [[⟨2, "b"⟩], [⟨1, "a"⟩]] = [⟨1, "a"⟩, ⟨2, "b"⟩] := by cbv
  have hawaits : Background.store.Awaits Background.cleaning Background.job Background.staging "d" :=
    { Background.awaits with external := rfl }
  have hcan : ∀ i, ∃ r, can i r := fun i => ⟨Background.answers i, rfl⟩
  obtain ⟨-, -, hpoll⟩ := poll_makes_draft hawaits hcan Background.numbered_shards (by decide)
    (by decide) fun _ hr => absurd hr List.not_mem_nil
  obtain ⟨⟨outcome, m, hrun⟩, hall⟩ := hpoll 1 1
  obtain ⟨rfl, -, pages, -, hread, hkeeps, hshows, -⟩ := hall outcome m hrun
  rw [hmerge] at hrun hkeeps hshows
  have hshown : List.Forall₂ Page.Shows pages
      [⟨1, "a", "A", .ocr, some "m", some "1", false, none⟩,
        ⟨2, "b", "b", .ocr, none, none, true, none⟩] := hshows Background.answers fun _ _ h => h
  obtain - | ⟨hfirst, - | ⟨hsecond, - | -⟩⟩ := hshown
  refine ⟨m, hrun, _, hread, hkeeps, ?_, ?_⟩
  · simp [hfirst.cleanText, hsecond.cleanText]
  · simp [hfirst.cleaningFailed, hsecond.cleaningFailed]

/-! ### Pages of one number -/

/-- Every text that was recognized is in a row of the document. -/
def Store.HasTexts (s : Store) (d : String) (found : List Ocr.Page) : Prop :=
  ∀ page ∈ found, ∃ r ∈ s.pagesOf d, r.rawText = some page.text

section Stored
variable {p : Pipeline} {can : Cleanup.Answers} {jobId d : String} {shards : List (List Ocr.Page)}
  {stored : List NewPage} {s : Store}

theorem Pipeline.Yields.exists_found (h : p.Yields can shards stored) {new : NewPage}
    (hnew : new ∈ stored) : ∃ page ∈ shards.flatten, Cleanup.Renders page new := by
  obtain ⟨parts, hperm, hprepares⟩ := h
  obtain ⟨page, hpage, hrender⟩ := exists_of_mem_forall₂ hprepares.renders hnew
  exact ⟨page, hperm.mem_iff.mp ((Ocr.Shard.merge_perm parts).mem_iff.mp hpage), hrender⟩

theorem Pipeline.Yields.exists_stored (h : p.Yields can shards stored) {page : Ocr.Page}
    (hpage : page ∈ shards.flatten) : ∃ new ∈ stored, Cleanup.Renders page new := by
  obtain ⟨parts, hperm, hprepares⟩ := h
  have hmerged := (Ocr.Shard.merge_perm parts).mem_iff.mpr (hperm.mem_iff.mpr hpage)
  obtain ⟨new, hnew, hrender⟩ := exists_of_mem_forall₂ (R := flip Cleanup.Renders)
    (List.Forall₂.flip hprepares.renders) hmerged
  exact ⟨new, hnew, hrender⟩

namespace Store.Completed

/-- There is one row for each number, with the text of a page of that number. -/
theorem rows (h : s.Completed jobId d stored) (hyields : p.Yields can shards stored) :
    ((s.pagesOf d).map (·.pageNo.number)).Perm (shards.flatten.map (·.number)).dedup ∧
      ∀ r ∈ s.pagesOf d, ∃ page ∈ shards.flatten,
        r.pageNo = .ofNat page.number.toNat ∧ r.rawText = some page.text := by
  refine ⟨h.pages.rows_perm.trans hyields.numbers.dedup, fun r hr => ?_⟩
  obtain ⟨new, hnew, hno, htext⟩ := h.pages.exists_stored hr
  obtain ⟨page, hpage, hrender⟩ := hyields.exists_found hnew
  exact ⟨page, hpage, hrender.pageNo ▸ hno, hrender.rawText ▸ htext⟩

theorem hasTexts (h : s.Completed jobId d stored) (hyields : p.Yields can shards stored)
    (hnodup : (shards.flatten.map (·.number)).Nodup) : s.HasTexts d shards.flatten := by
  intro page hpage
  obtain ⟨new, hnew, hrender⟩ := hyields.exists_stored hpage
  obtain ⟨r, hr, htext⟩ := h.pages.exists_row (hyields.numbers.nodup_iff.mpr hnodup) hnew
  exact ⟨r, hr, hrender.rawText ▸ htext⟩

theorem length_eq_iff (h : s.Completed jobId d stored) (hyields : p.Yields can shards stored) :
    (s.pagesOf d).length = shards.flatten.length ↔ (shards.flatten.map (·.number)).Nodup := by
  rw [← hyields.length_eq, ← hyields.numbers.nodup_iff]
  exact h.pages.rows_length_eq_iff

end Store.Completed
end Stored

/-- A poll that completes the job on a document without pages, from shards with any pages. All
their pages are counted, while there is one row for each of their numbers. If the pages have
numbers of their own, then every text is kept and there are as many rows as pages were counted.
Otherwise there are not, unless there are too many pages to be counted at all. -/
theorem completed_poll_counts {s : Store} {p : Pipeline} {job : Job} {staging : Staging}
    {d : String} {o : ObjectStore} {can : Cleanup.Answers} {shards : List (List Ocr.Page)}
    (h : s.Awaits p job staging d) (hempty : s.pagesOf d = [])
    (hshards : o.Shards staging.outputFolder shards) {report : JobReport} {m : Moment Unit}
    (hrun : (o.surroundings can True).Runs (p.poll job.id).run (s, ()) (.ok report) m)
    (hcompleted : report.status = .completed) :
    let numbers := shards.flatten.map (·.number)
    let count := UInt32.ofNat shards.flatten.length
    let rows := m.1.pagesOf d
    (report.pageCount = some count ∧
      (∃ r ∈ m.1.documents, r.id = d ∧ r.pageCount = .ofNat count.toNat) ∧
      ∃ r ∈ m.1.jobs, r.id = job.id ∧ ∃ failures cleanupFailed,
        r.result = some (.value (Pipeline.summary ⟨count, failures⟩ cleanupFailed))) ∧
    ((rows.map (·.pageNo.number)).Perm numbers.dedup ∧
      ∀ r ∈ rows, ∃ page ∈ shards.flatten,
        r.pageNo = .ofNat page.number.toNat ∧ r.rawText = some page.text) ∧
    (numbers.Nodup → m.1.HasTexts d shards.flatten ∧ count.toNat = rows.length) ∧
    (shards.flatten.length < 2 ^ 32 → (count.toNat = rows.length ↔ numbers.Nodup)) := by
  intro numbers count rows
  obtain ⟨stored, hyields, hreport, hdone⟩ := h.completed hshards hempty hrun hcompleted
  have hcount : (collectedOf stored).pageCount = count := by
    show UInt32.ofNat stored.length = UInt32.ofNat shards.flatten.length
    rw [hyields.length_eq]
  have hlength := hdone.length_eq_iff hyields
  obtain ⟨r, hr, hid, -, hpageCount⟩ := hdone.document
  obtain ⟨j, hj, hjid, -, -, cleanupFailed, hresult⟩ := hdone.job
  refine ⟨⟨?_, ⟨r, hr, hid, ?_⟩, j, hj, hjid,
    (collectedOf stored).cleaningFailures, cleanupFailed, ?_⟩, hdone.rows hyields, fun hnodup =>
    ⟨hdone.hasTexts hyields hnodup, ?_⟩, fun hlt => ?_⟩
  · rw [hreport, hcount]
    rfl
  · rw [hpageCount, hcount]
  · rw [hresult, ← hcount]
  · rw [hdone.count_toNat hyields hnodup, hlength.mpr hnodup]
  · rw [← hlength, show count.toNat = shards.flatten.length from UInt32.toNat_ofNat_of_lt' hlt]
    exact eq_comm

namespace Background

/-- Neither shard numbers its page. -/
def unnumbered : ObjectStore := objects (shard none "a") (shard none "b")

theorem unnumbered_shards : unnumbered.Shards staging.outputFolder [[⟨1, "a"⟩], [⟨1, "b"⟩]] :=
  .cons ⟨_, rfl, rfl⟩ (.cons ⟨_, rfl, rfl⟩ .nil)

def anyAnswer : Cleanup.Answers := fun _ _ => True

theorem exists_anyAnswer (i : Nat) : ∃ r, anyAnswer i r := ⟨.ok default, trivial⟩

/-- A poll completes the job. -/
theorem exists_completed_run : ∃ m stored,
    (unnumbered.surroundings anyAnswer True).Runs (pipeline.poll job.id).run (store, ())
      (.ok (.completed job.id (collectedOf stored).pageCount)) m ∧
    pipeline.Yields anyAnswer [[⟨1, "a"⟩], [⟨1, "b"⟩]] stored ∧
    m.1.Completed job.id "d" stored := by
  obtain ⟨outcome, m, hrun⟩ :=
    unnumbered.exists_run exists_anyAnswer False (pipeline.poll job.id).run store
  obtain ⟨stored, hyields, rfl, hcompleted⟩ :=
    awaits.completes unnumbered_shards (fun _ hr => absurd hr List.not_mem_nil) (by decide) hrun
  exact ⟨m, stored, ObjectStore.runs_of_answered hrun, hyields, hcompleted⟩

end Background

/-- Two pages are counted and one row is left. -/
theorem completed_poll_counts_unnumbered :
    ∃ report m, (Background.unnumbered.surroundings Background.anyAnswer True).Runs
        (Background.pipeline.poll Background.job.id).run (Background.store, ()) (.ok report) m ∧
      report.pageCount = some 2 ∧ ((m.1.pagesOf "d").map (·.pageNo.number)).Perm [1] := by
  obtain ⟨m, stored, hrun, -, -⟩ := Background.exists_completed_run
  obtain ⟨⟨hcount, -⟩, ⟨hrows, -⟩, -⟩ := completed_poll_counts Background.awaits rfl
    Background.unnumbered_shards hrun rfl
  exact ⟨_, m, hrun, hcount, hrows⟩

/-- Two shards, neither of which numbers its page, on a document without pages: the job is completed
with two pages, the document has one row, and one of the texts is lost. -/
theorem completed_poll_loses_text :
    Background.store.Quiet ∧
    Background.store.Awaits Background.pipeline Background.job Background.staging "d" ∧
    Background.store.pagesOf "d" = [] ∧
    Background.unnumbered.Shards Background.staging.outputFolder [[⟨1, "a"⟩], [⟨1, "b"⟩]] ∧
    ∃ report m, (Background.unnumbered.surroundings Background.anyAnswer True).Runs
        (Background.pipeline.poll Background.job.id).run (Background.store, ()) (.ok report) m ∧
      report.status = .completed ∧ report.pageCount = some 2 ∧ (m.1.pagesOf "d").length = 1 ∧
      ¬ m.1.HasTexts "d" [⟨1, "a"⟩, ⟨1, "b"⟩] := by
  refine ⟨Background.store_quiet, Background.awaits, rfl, Background.unnumbered_shards, ?_⟩
  obtain ⟨m, stored, hrun, hyields, hcompleted⟩ := Background.exists_completed_run
  have hrows : (m.1.pagesOf "d").length = 1 := by
    simpa using (hcompleted.rows hyields).1.length_eq
  have hcount : UInt32.ofNat stored.length = 2 := by
    rw [hyields.length_eq]
    rfl
  refine ⟨_, m, hrun, rfl, congrArg some hcount, hrows, fun htexts => ?_⟩
  obtain ⟨r, hone⟩ := List.length_eq_one_iff.mp hrows
  obtain ⟨a, ha, hfirst⟩ := htexts ⟨1, "a"⟩ (by simp)
  obtain ⟨b, hb, hsecond⟩ := htexts ⟨1, "b"⟩ (by simp)
  rw [hone, List.mem_singleton] at ha hb
  rw [ha, ← hb, hsecond] at hfirst
  exact absurd hfirst (by decide)

end Quire
