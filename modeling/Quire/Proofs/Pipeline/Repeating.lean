import Quire.Proofs.Pipeline.Overlapping

/-! Polls that break off and are made again.

A poll may break off anywhere: after a batch of pages, after a sign of progress, after any of the
files has been deleted. Made again it leaves the pages that it would have left, and document and
job are done (`interrupted_poll_repeats`). What they tell is the number of pages that it would have
been if the poll had deleted no shard yet, or all of them and the document has no other pages. If it
had deleted some, only the pages of those that are left are counted
(`repeated_poll_counts_remaining`). -/
namespace Quire

/-- What an extraction leaves: the pages that were found, each with its own text, among those that
the document had before, on a draft; and draft and job, which is completed, tell a number of
pages. -/
structure Store.Extracted (jobId d : String) (found : List Ocr.Page) (before : List Page)
    (count : UInt32) (s : Store) : Prop where
  pages : ∃ pages, ((Pages.list d).run s).1 = .ok pages ∧ Pages.Gain found before pages
  told : ∃ failures, s.Tells jobId d ⟨count, failures⟩

namespace Harvest
variable {h : Harvest} {may : UInt32 → Prop} {s : Store} {m m' : Moment ObjectStore}

theorem Settled.extracted (hs : h.Settled may s) :
    ∃ count, may count ∧ s.Extracted h.jobId h.documentId h.found h.before count := by
  obtain ⟨pages, hrun, hgain⟩ := hs.stored.gain
  obtain ⟨c, hmay, htells⟩ := hs.told
  exact ⟨c.pageCount, hmay, ⟨pages, congrArg Prod.fst hrun, hgain⟩, c.cleaningFailures, htells⟩

/-- If there is no shard, the pages are counted that the document has already. -/
theorem first_eq (h : Harvest) : h.first =
    UInt32.ofNat (if h.shards = [] then h.before.length else h.found.length) := by
  unfold first
  by_cases hnone : h.shards = []
  · have hfound : h.found = [] := by
      rw [← List.length_eq_zero_iff, found, Ocr.Shard.merge_length, hnone]
      rfl
    have hall : h.before.filter (·.pageNo ∉ h.numbers) = h.before :=
      List.filter_eq_self.mpr fun page _ => by simp [numbers, hfound]
    rw [if_pos (h.keys_eq_nil.mpr hnone), if_pos hnone, total, hfound, ← hall,
      Pages.others_length h.listed]
    rw [others]
    simp
  · rw [if_neg fun hkeys => hnone (h.keys_eq_nil.mp hkeys), if_neg hnone]
    rfl

/-- If the document has no pages of other numbers, its pages are those of the shards. -/
theorem first_eq_total (h : Harvest) (hown : ∀ page ∈ h.before, page.pageNo ∈ h.numbers) :
    h.first = h.total := by
  have hothers : h.others.length = 0 := by
    rw [others, ← Pages.others_length h.listed, List.length_eq_zero_iff, List.filter_eq_nil_iff]
    simpa using hown
  have htotal : h.total = h.count := by rw [total, hothers, count, Nat.add_zero]
  unfold first
  rw [htotal, ite_self]

/-- What may be told by a job that waits does not matter yet. -/
theorem Fits.retell {may' : UInt32 → Prop} {done : List UInt32} (hm : h.Fits may done m)
    (hmay : h.Settled may m.1 → h.Settled may' m.1) : h.Fits may' done m :=
  ⟨hm.objects, hm.stored, hm.job.imp_right hmay⟩

section Alone
variable {can : Cleanup.Answers} {p : Pipeline} (hm : h.Fits may [] m)
  (hcountable : h.Countable may m)
  (hexternal : p.settings.polling.discipline .documentExtract = .external)
include hm hcountable hexternal

variable (can) in
theorem poll_alone : (p.poll h.jobId).Amid (h.sharing may can True fun m m' => m' = m) (· = m)
    (fun _ n => h.Settled may n.1) fun _ n => h.Settled may n.1 := by
  have hothers : h.Beside may True fun m m' => m' = m :=
    ⟨fun _ m' hsame => hsame ▸ .refl m', fun _ _ _ hsame => hsame⟩
  refine poll_amid hothers (fun _ _ hsame hm => hsame.trans hm) ?_ ?_ p hexternal
  · rintro _ rfl
    exact hm
  · rintro _ rfl
    exact hcountable

/-- A poll that is not disturbed settles the job. -/
theorem settled_of_runs {outcome : Except PipelineError JobReport}
    (hrun : (ObjectStore.changing can True).Runs (p.poll h.jobId).run m outcome m') :
    h.Settled may m'.1 := by
  have hends := Company.ends_of_runs (fun _ => rfl)
    (Run.Amid.iff_leads.mp (poll_alone can hm hcountable hexternal) m rfl) hrun
  cases outcome with
  | ok report => exact hends
  | error e => exact hends

/-- Wherever it breaks off, it leaves what all checks leave. -/
theorem fits_of_passes
    (hpasses : (ObjectStore.changing can True).Passes (p.poll h.jobId).run m m') :
    h.Fits may [] m' := by
  have hmoves := Company.own_of_passes (fun _ => rfl)
    (Run.Amid.iff_leads.mp (poll_alone can hm hcountable hexternal) m rfl) hpasses
  clear hpasses
  induction hmoves with
  | refl => exact hm
  | tail _ hmove ih => exact hmove.fits [] ih

end Alone

/-- Once the job is settled, a poll leaves everything as it is. -/
theorem Settled.of_runs {can : Cleanup.Answers} {p : Pipeline}
    {outcome : Except PipelineError JobReport} (hs : h.Settled may m.1)
    (hrun : (ObjectStore.changing can True).Runs (p.poll h.jobId).run m outcome m') :
    h.Settled may m'.1 := by
  have hidle : (p.poll h.jobId).Amid
      (Pipeline.idling (ObjectStore.changing can True) fun m m' => m' = m)
      (fun m => m.1.Sound ∧ m.1.Closed h.jobId) (fun _ _ => True) fun _ _ => True :=
    p.ended_poll_idle fun _ _ hsame hm => hsame ▸ hm
  have hmoves := Company.own_of_passes (fun _ => rfl)
    (Run.Amid.iff_leads.mp hidle m ⟨hs.sound, hs.closed⟩) hrun.reaches.passes
  clear hrun
  induction hmoves with
  | refl => exact hs
  | tail _ hmove ih => exact (show _ = _ from hmove) ▸ ih

/-- All shards are left; or none is, and the document has no pages of other numbers. -/
def Whole (h : Harvest) (m : Moment ObjectStore) : Prop :=
  m.2.shardKeys h.staging.outputFolder = h.keys ∨
    (m.2.shardKeys h.staging.outputFolder = [] ∧ ∀ page ∈ h.before, page.pageNo ∈ h.numbers)

/-- Then checks count what the first one counts. -/
theorem countable_of_whole (h : Harvest) (m : Moment ObjectStore) :
    h.Countable (fun told => h.Whole m → told = h.first) m := by
  have hall (hleft : m.2.shardKeys h.staging.outputFolder = h.keys) :
      h.Countable (· = h.first) m := h.countable_of_all rfl hleft
  refine ⟨fun keys parts hsome hkeys hparts hwhole => ?_, fun hnone hwhole => ?_⟩
  · rcases hwhole with hleft | ⟨hnone, -⟩
    · exact (hall hleft).some keys parts hsome hkeys hparts
    · exact absurd (hnone ▸ hkeys).eq_nil hsome
  · rcases hwhole with hleft | ⟨-, hown⟩
    · exact (hall hleft).none hnone
    · exact (h.first_eq_total hown).symm

/-- What a poll leaves that is made after another one has broken off. It has nothing left to do if
the job is settled; if it waits, what is counted depends on the shards that are left. -/
theorem extracted_again {can : Cleanup.Answers} {p : Pipeline}
    {outcome : Except PipelineError JobReport} (hm : h.Fits (· = h.first) [] m)
    (hexternal : p.settings.polling.discipline .documentExtract = .external)
    (hrun : (ObjectStore.changing can True).Runs (p.poll h.jobId).run m outcome m') :
    ∃ told, m'.1.Extracted h.jobId h.documentId h.found h.before told ∧
      (h.Whole m ∨ m.1.Closed h.jobId → told = h.first) := by
  rcases hm.job with hwaiting | hsettled
  · have hfits : h.Fits (fun told => h.Whole m → told = h.first) [] m :=
      ⟨hm.objects, hm.stored, .inl hwaiting⟩
    obtain ⟨told, htold, hextracted⟩ :=
      (settled_of_runs hfits (h.countable_of_whole m) hexternal hrun).extracted
    exact ⟨told, hextracted, fun hwhole => htold (hwhole.resolve_right hwaiting.not_closed)⟩
  · obtain ⟨told, htold, hextracted⟩ := (hsettled.of_runs hrun).extracted
    exact ⟨told, hextracted, fun _ => htold⟩

end Harvest

/-- An operation that is done without a failure has left shards whose pages have numbers of their
own, from one on. A poll breaks off at any moment. Made again it comes to an end, and then the pages
of the document, its status and that of the job are what a poll leaves that does not break off. So
is the number of pages that document and job tell, if at that moment all shards were left; or none
was left, and the document has no pages of other numbers; or the job had been completed. -/
theorem interrupted_poll_repeats {s : Store} {p : Pipeline} {job : Job} {staging : Staging}
    {d : String} {o : ObjectStore} {can : Cleanup.Answers} {shards : List (List Ocr.Page)}
    {before : List Page} (hs : s.Awaits p job staging d) (hcan : ∀ i, ∃ r, can i r)
    (hshards : o.Shards staging.outputFolder shards)
    (hnodup : (shards.flatten.map (·.number)).Nodup)
    (hno : ∀ page ∈ shards.flatten, 1 ≤ page.number)
    (hbefore : ((Pages.list d).run s).1 = .ok before) {m : Moment ObjectStore}
    (hpasses : (ObjectStore.changing can True).Passes (p.poll job.id).run (s, o) m) :
    let poll := (p.poll job.id).run
    let found := Ocr.Shard.merge shards
    let count := UInt32.ofNat (if shards = [] then before.length else found.length)
    let left := m.2.shardKeys staging.outputFolder
    (shards ≠ [] → count.toNat = found.length) ∧
    (∀ outcome m', (ObjectStore.changing can True).Runs poll (s, o) outcome m' →
      m'.1.Extracted job.id d found before count) ∧
    (∃ outcome m', (ObjectStore.changing can True).Runs poll m outcome m') ∧
    ∀ outcome m', (ObjectStore.changing can True).Runs poll m outcome m' →
      ∃ told, m'.1.Extracted job.id d found before told ∧
        (left = o.shardKeys staging.outputFolder ∨
          (left = [] ∧ ∀ page ∈ before, page.pageNo ∈ found.map (·.number)) ∨
          m.1.Closed job.id → told = count) := by
  intro poll found count left
  let h : Harvest := ⟨job.id, d, staging, s, o, shards, before, hshards, hnodup, hno, hs.keyed,
    hbefore⟩
  have hfirst : h.first = count := h.first_eq
  have hbegin : h.Fits (· = h.first) [] (s, o) := h.fits_of_awaits hs rfl
  have hall : h.Countable (· = h.first) (s, o) := h.countable_of_all rfl rfl
  have hcut : h.Fits (· = h.first) [] m := h.fits_of_passes hbegin hall hs.external hpasses
  refine ⟨fun hsome => ?_, fun outcome m' hrun => ?_,
    Surroundings.Live.runs (ObjectStore.changing_live hcan) poll m, fun outcome m' hrun => ?_⟩
  · show (UInt32.ofNat (if shards = [] then before.length else found.length)).toNat = _
    rw [if_neg hsome]
    exact h.count_toNat
  · obtain ⟨told, htold, hextracted⟩ := (h.settled_of_runs hbegin hall hs.external hrun).extracted
    exact (htold.trans hfirst) ▸ hextracted
  · obtain ⟨told, hextracted, htold⟩ := h.extracted_again hcut hs.external hrun
    refine ⟨told, hextracted, fun hwhole => hfirst ▸ htold ?_⟩
    rwa [← or_assoc] at hwhole

/-- A poll breaks off when it has deleted the only shard. Made again it counts the page that is
stored. -/
theorem interrupted_poll_repeats_single :
    let poll := (Background.pipeline.poll "j").run
    let w := ObjectStore.changing Background.anyAnswer True
    w.Passes poll (Background.store, Background.single) (Background.saved, Background.emptied) ∧
      ∃ outcome m', w.Runs poll (Background.saved, Background.emptied) outcome m' ∧
        m'.1.Extracted "j" "d" [⟨1, "a"⟩] [] 1 := by
  intro poll w
  have hmerge : Ocr.Shard.merge [[⟨1, "a"⟩]] = [⟨1, "a"⟩] := List.mergeSort_singleton _
  have hpasses : w.Passes poll (Background.store, Background.single)
      (Background.saved, Background.emptied) := Background.poll_spoiled.passes
  obtain ⟨-, -, ⟨outcome, m', hrun⟩, hagain⟩ := interrupted_poll_repeats Background.awaits
    Background.exists_anyAnswer Background.single_shards (by decide) (by decide)
    Background.store_lists hpasses
  obtain ⟨told, hextracted, htold⟩ := hagain outcome m' hrun
  rw [htold (.inr (.inl ⟨rfl, fun _ hpage => nomatch hpage⟩)), hmerge] at hextracted
  exact ⟨hpasses, outcome, m', hrun, hextracted⟩

namespace Background

/-- The shards of the second page and of the first one. -/
def numberedShards : List (List Ocr.Page) := [[⟨2, "b"⟩], [⟨1, "a"⟩]]

def numberedHarvest : Harvest :=
  ⟨"j", "d", staging, store, numbered, numberedShards, [], numbered_shards, by decide, by decide,
    awaits.keyed, store_lists⟩

/-- The store after both pages were stored and that was recorded. -/
def savedBoth : Store :=
  ((guarded "j" (Jobs.updateProgress "j" 2 2 (Progress.percent 2 2) "saving" start.timestamp)).run
    ((Pages.upsertAll "d" start.timestamp
      [Ocr.Page.asFound ⟨1, "a"⟩, Ocr.Page.asFound ⟨2, "b"⟩]).run store).2).2

/-- The objects after the shard of the second page was deleted. -/
def remaining : ObjectStore := (numbered.delete staging.inputKey).delete shardKey

/-- The key of the shard of the first page. -/
def otherKey : String := staging.outputFolder ++ "1.json"

theorem remaining_keys : remaining.shardKeys staging.outputFolder = [otherKey] := rfl

theorem numbered_merge : Ocr.Shard.merge numberedShards = [⟨1, "a"⟩, ⟨2, "b"⟩] := by cbv

theorem reads_numbered : (ObjectStore.changing anyAnswer True).Runs
    (Pipeline.readShards [shardKey, otherKey]).run (store, numbered) (.ok numberedShards)
    (store, numbered) := by
  refine .bind (r := .ok (shard (some 2) "b").data) ⟨.ok (shard (some 2) "b").data,
    (store, numbered), ⟨rfl, ⟨rfl, .inl trivial⟩, rfl⟩, .of_done rfl _⟩ ?_
  refine .bind (r := .ok [⟨2, "b"⟩]) (.of_done rfl _) ?_
  refine .bind (r := .ok [[⟨1, "a"⟩]]) ?_ (.of_done rfl _)
  refine .bind (r := .ok (shard (some 1) "a").data) ⟨.ok (shard (some 1) "a").data,
    (store, numbered), ⟨rfl, ⟨rfl, .inl trivial⟩, rfl⟩, .of_done rfl _⟩ ?_
  exact .of_done rfl _

theorem gathers_both : (ObjectStore.changing anyAnswer True).Runs
    (pipeline.gather "j" "d" [shardKey, otherKey]).run (store, numbered) (.ok ⟨2, 0⟩)
    (savedBoth, numbered) := by
  refine .bind reads_numbered ?_
  show (ObjectStore.changing anyAnswer True).Runs ((do
    let cleaned ← ExceptT.lift (pipeline.cleanPages "j" (Ocr.Shard.merge numberedShards))
    pipeline.storePages "j" "d" cleaned
    return ⟨UInt32.ofNat cleaned.length, (cleaned.filter (·.cleaningFailed)).length⟩ :
      Run PipelineError Collected)).run _ _ _
  rw [numbered_merge]
  exact ⟨start, (store, numbered), ⟨rfl, rfl⟩, _, (_, numbered), ⟨rfl, rfl⟩,
    start, (_, numbered), ⟨rfl, rfl⟩, _, (savedBoth, numbered), ⟨rfl, rfl⟩, .of_done rfl _⟩

/-- A poll stores both pages and deletes one of the shards; there it breaks off. -/
theorem poll_breaks_off : (ObjectStore.changing anyAnswer True).Passes (pipeline.poll "j").run
    (store, numbered) (savedBoth, remaining) := by
  have hdeletes : (ObjectStore.changing anyAnswer True).Passes
      (Pipeline.close "j" "d" staging.inputKey [shardKey, otherKey] ⟨2, 0⟩).run
      (savedBoth, numbered) (savedBoth, remaining) :=
    .inr ⟨.ok (), (savedBoth, numbered.delete staging.inputKey), ⟨rfl, rfl, rfl⟩,
      .inr ⟨.ok (), (savedBoth, remaining), ⟨rfl, rfl, rfl⟩, .refl _ _⟩⟩
  have hfinalize : (ObjectStore.changing anyAnswer True).Passes (pipeline.finalize job).run
      (store, numbered) (savedBoth, remaining) := by
    rw [Pipeline.finalize_eq]
    refine .next (r := .ok staging) (.of_done rfl _) ?_
    refine .next (r := .ok "d") (.of_done rfl _) ?_
    refine .next (r := .ok [shardKey, otherKey]) ⟨.ok [shardKey, otherKey], (store, numbered),
      ⟨rfl, ⟨_, rfl, .refl _⟩, rfl⟩, .of_done rfl _⟩ ?_
    exact .next gathers_both hdeletes
  refine .next (r := .ok job) ⟨.ok (some job), (store, numbered), ⟨rfl, rfl⟩, .of_done rfl _⟩ ?_
  show (ObjectStore.changing anyAnswer True).Passes (pipeline.check job).run _ _
  refine .next (r := .ok (.ok ⟨true, none, none⟩)) ⟨.ok ⟨true, none, none⟩, (store, numbered),
    ⟨rfl, ⟨_, rfl, rfl, rfl⟩, rfl⟩, .of_done rfl _⟩ ?_
  exact .first _ (.first _ hfinalize)

end Background

/-- Two shards; a poll breaks off when it has stored both pages and deleted one of the shards. Made
again it counts one page, and made without a break it counts two. -/
theorem repeated_poll_counts_remaining :
    let poll := (Background.pipeline.poll "j").run
    let w := ObjectStore.changing Background.anyAnswer True
    let found : List Ocr.Page := [⟨1, "a"⟩, ⟨2, "b"⟩]
    Background.store.Quiet ∧
    Background.store.Awaits Background.pipeline Background.job Background.staging "d" ∧
    Background.numbered.Shards Background.staging.outputFolder Background.numberedShards ∧
    (∃ outcome m', w.Runs poll (Background.store, Background.numbered) outcome m' ∧
      m'.1.Extracted "j" "d" found [] 2) ∧
    ∃ m, w.Passes poll (Background.store, Background.numbered) m ∧
      ∃ outcome m', w.Runs poll m outcome m' ∧ m'.1.Extracted "j" "d" found [] 1 := by
  intro poll w found
  let h := Background.numberedHarvest
  have hfound : h.found = found := Background.numbered_merge
  have hfirst : h.first = 2 := by
    rw [h.first_eq, hfound]
    rfl
  have hbegin : h.Fits (· = 2) [] (Background.store, Background.numbered) :=
    h.fits_of_awaits Background.awaits rfl
  have hall : h.Countable (· = 2) (Background.store, Background.numbered) :=
    h.countable_of_all hfirst rfl
  have hcut : h.Fits (· = 2) [] (Background.savedBoth, Background.remaining) :=
    h.fits_of_passes hbegin hall rfl Background.poll_breaks_off
  have hopen : ¬ h.Settled (· = 2) Background.savedBoth := by
    intro hsettled
    obtain ⟨r, hr, -, hended⟩ := hsettled.closed
    obtain rfl := List.mem_singleton.mp hr
    cases hended
  have hone : h.Fits (· = 1) [] (Background.savedBoth, Background.remaining) :=
    hcut.retell fun hsettled => absurd hsettled hopen
  have hremaining : h.Countable (· = 1) (Background.savedBoth, Background.remaining) := by
    have hleft : Background.remaining.shardKeys h.staging.outputFolder = [Background.otherKey] :=
      Background.remaining_keys
    refine ⟨fun keys parts _ hkeys hparts => ?_, fun hnone => ?_⟩
    case refine_2 => exact absurd (hleft.symm.trans hnone) (List.cons_ne_nil _ _)
    rw [hleft] at hkeys
    obtain rfl := List.perm_singleton.mp hkeys
    obtain ⟨pages, rest, hpages, hrest, rfl⟩ := List.forall₂_cons_left_iff.mp hparts
    obtain rfl := List.forall₂_nil_left_iff.mp hrest
    obtain rfl : pages = [⟨1, "a"⟩] := hpages.unique ⟨_, rfl, rfl⟩
    rfl
  have hlive : w.Live := ObjectStore.changing_live Background.exists_anyAnswer
  obtain ⟨outcome, m', hrun⟩ := hlive.runs poll (Background.store, Background.numbered)
  obtain ⟨outcome₁, m₁, hrun₁⟩ := hlive.runs poll (Background.savedBoth, Background.remaining)
  obtain ⟨_, rfl, hextracted⟩ := (h.settled_of_runs hbegin hall rfl hrun).extracted
  obtain ⟨_, rfl, hextracted₁⟩ := (h.settled_of_runs hone hremaining rfl hrun₁).extracted
  rw [hfound] at hextracted hextracted₁
  exact ⟨Background.store_quiet, Background.awaits, Background.numbered_shards,
    ⟨outcome, m', hrun, hextracted⟩, _, Background.poll_breaks_off, outcome₁, m₁, hrun₁,
    hextracted₁⟩

end Quire
