import Quire.Proofs.Pipeline.Sharing
import Quire.Proofs.Pipeline.Writing

/-! Polls of one job at the same time.

Polls may be made on one job at the same time. If each of them finds every shard that it has
listed, the operation is not spoiled: once a poll has come to its end the job is completed, and the
document has all pages (`overlapping_polls_complete`). Nothing sees to it that the shards are found:
a poll may list a shard that another one deletes before it is read, and what is missing then fails
job and document (`overlapping_polls_fail_job`). -/
namespace Quire

/-- Polls of one job take turns, question by question, on an operation that is done without a
failure; its shards have pages with numbers of their own, from one on. No object is asked for after
it has been deleted. Once any of the polls has come to its end, the job is completed, and the
document is a draft with all pages of the shards; others that it had are as they were. -/
theorem overlapping_polls_complete {s : Store} {polls : List Pipeline} {job : Job}
    {staging : Staging} {d : String} {o : ObjectStore} {can : Cleanup.Answers}
    {shards : List (List Ocr.Page)} {before : List Page}
    (hs : ∀ p ∈ polls, s.Awaits p job staging d) (hshards : o.Shards staging.outputFolder shards)
    (hnodup : (shards.flatten.map (·.number)).Nodup)
    (hno : ∀ page ∈ shards.flatten, 1 ≤ page.number)
    (hbefore : ((Pages.list d).run s).1 = .ok before) {crowd : Crowd ObjectStore}
    (hturns : Relation.ReflTransGen (Crowd.Turn (ObjectStore.changing can False))
      ⟨(s, o), polls.map fun p => (p.poll job.id).ignored⟩ crowd)
    (hdone : Program.done () ∈ crowd.flows) :
    let s' := crowd.moment.1
    s'.Sound ∧ (∃ r ∈ s'.jobs, r.id = job.id ∧ r.status = .completed) ∧
    (∃ r ∈ s'.documents, r.id = d ∧ r.status = .draft) ∧
    ∃ pages, ((Pages.list d).run s').1 = .ok pages ∧
      Pages.Gain (Ocr.Shard.merge shards) before pages := by
  intro s'
  have hsome : 0 < polls.length := by
    rw [← List.length_map fun p : Pipeline => (p.poll job.id).ignored,
      ← Crowd.turns_length hturns]
    exact List.length_pos_of_mem hdone
  obtain ⟨p, hp⟩ := List.exists_mem_of_length_pos hsome
  let h : Harvest := ⟨job.id, d, staging, s, o, shards, before, hshards, hnodup, hno,
    (hs p hp).keyed, hbefore⟩
  -- Polls that overlap may count different shards, so nothing is said of what they tell.
  let may : UInt32 → Prop := fun _ => True
  have hothers : h.Beside may False (h.Evolves may) := ⟨fun _ _ hm => hm, False.elim⟩
  have hled : Crowd.Led (h.sharing may can False (h.Evolves may)) (fun m => h.Settled may m.1)
      ⟨(s, o), polls.map fun p => (p.poll job.id).ignored⟩ := by
    intro f hf
    obtain ⟨p, hp, rfl⟩ := List.mem_map.mp hf
    have hfits : h.Fits may [] (s, o) := h.fits_of_awaits (hs p hp) rfl
    refine ⟨(s, o), .refl _, ?_⟩
    exact (Harvest.poll_amid hothers (hothers.fits []) (fun _ hm => hm)
      (fun _ _ => ⟨fun _ _ _ _ _ => trivial, fun _ => trivial⟩) p (hs p hp).external).ignored hfits
  have hsettled : h.Settled may s' := (hled.turns (fun _ _ hm => hm) Harvest.Evolves.refl
    (fun _ _ _ => Harvest.Evolves.trans) hturns).done hothers.settled hdone
  obtain ⟨pages, hrun, hgain⟩ := hsettled.stored.gain
  obtain ⟨c, -, htells⟩ := hsettled.told
  obtain ⟨r, hr, hid, hstatus, -⟩ := htells.job
  obtain ⟨r', hr', hid', hdraft, -⟩ := htells.document
  exact ⟨hsettled.sound, ⟨r, hr, hid, hstatus⟩, ⟨r', hr', hid', hdraft⟩, pages,
    congrArg Prod.fst hrun, hgain⟩

namespace Background

/-- The operation has left one shard. -/
def single : ObjectStore := ⟨pipeline.bucket, [(shardKey, shard (some 1) "a")]⟩

theorem single_shards : single.Shards staging.outputFolder [[⟨1, "a"⟩]] :=
  .cons ⟨_, rfl, rfl⟩ .nil

/-- The document has no pages yet. -/
theorem store_lists : ((Pages.list "d").run store).1 = .ok [] :=
  congrArg Prod.fst (Pages.list_nil rfl)

/-- The objects after a poll has deleted all of them. -/
def emptied : ObjectStore := (single.delete staging.inputKey).delete shardKey

/-- The store after the page was stored and that was recorded. -/
def saved : Store :=
  ((guarded "j" (Jobs.updateProgress "j" 1 1 (Progress.percent 1 1) "saving"
    start.timestamp)).run (written store)).2

/-- The store after a poll was made without others. -/
def completed : Store :=
  ((Pipeline.completeJob "j" "d" ⟨1, 0⟩ false start.timestamp).run saved).2

/-- What follows after the shard was read. -/
def afterReading : Run PipelineError Collected := do
  let cleaned ← ExceptT.lift (pipeline.cleanPages "j" [⟨1, "a"⟩])
  pipeline.storePages "j" "d" cleaned
  return ⟨UInt32.ofNat cleaned.length, (cleaned.filter (·.cleaningFailed)).length⟩

section
variable {σ : Type} {w : Surroundings σ} {x : σ}

/-- The shard is read, whatever else the surroundings remember. -/
theorem collect_eq (hget : w.allows (.get shardKey) x (.ok (shard (some 1) "a").data) x) (s : Store)
    {m' a z : Moment σ} {r : Except PipelineError Collected}
    (h : w.Resumes afterReading.run (s, x) m' a r z) :
    w.Resumes (pipeline.collect "j" "d" [shardKey]).run (s, x) m' a r z := by
  have hmerge : Ocr.Shard.merge [[⟨1, "a"⟩]] = [⟨1, "a"⟩] := List.mergeSort_singleton _
  have hread : w.Runs (Pipeline.readShards [shardKey]).run (s, x) (.ok [[⟨1, "a"⟩]]) (s, x) :=
    ⟨.ok (shard (some 1) "a").data, (s, x), ⟨rfl, hget⟩, .of_done rfl _⟩
  refine .next hread ?_
  show w.Resumes ((do
    let cleaned ← ExceptT.lift (pipeline.cleanPages "j" (Ocr.Shard.merge [[⟨1, "a"⟩]]))
    pipeline.storePages "j" "d" cleaned
    return ⟨UInt32.ofNat cleaned.length, (cleaned.filter (·.cleaningFailed)).length⟩ :
      Run PipelineError Collected)).run _ _ _ _ _
  rw [hmerge]
  exact h

theorem stores_page (hclock : w.allows .clock x start x) :
    w.Runs afterReading.run (store, x) (.ok ⟨1, 0⟩) (saved, x) :=
  ⟨start, (store, x), ⟨rfl, hclock⟩, _, (written store, x), ⟨rfl, rfl⟩,
    start, (written store, x), ⟨rfl, hclock⟩, _, (saved, x), ⟨rfl, rfl⟩, .of_done rfl _⟩

/-- What follows after the shard was listed. -/
def afterListing : Run PipelineError JobReport := do
  let c ← pipeline.gather "j" "d" [shardKey]
  Pipeline.close "j" "d" staging.inputKey [shardKey] c

/-- A poll goes as far as listing the shard while the others wait. -/
theorem poll_resumes (hstatus : w.allows (.status "h") x (.ok ⟨true, none, none⟩) x)
    (hlist : w.allows (.list staging.outputFolder) x (.ok [shardKey]) x) {m' a z z' : Moment σ}
    {o o' : Except PipelineError JobReport} (h : w.Resumes afterListing.run (store, x) m' a o z)
    (hsettle : w.Runs (Pipeline.settle job o).run z o' z') :
    w.Resumes (pipeline.poll "j").run (store, x) m' a o' z' := by
  have hfinalize : w.Resumes (pipeline.finalize job).run (store, x) m' a o z := by
    rw [Pipeline.finalize_eq]
    refine .next (r := .ok staging) (.of_done rfl _) ?_
    refine .next (r := .ok "d") (.of_done rfl _) ?_
    refine .next (r := .ok [shardKey]) ⟨.ok [shardKey], (store, x), ⟨rfl, hlist⟩, .of_done rfl _⟩ ?_
    exact h
  refine .next (r := .ok job) ⟨.ok (some job), (store, x), ⟨rfl, rfl⟩, .of_done rfl _⟩ ?_
  show w.Resumes (pipeline.check job).run _ _ _ _ _
  refine .next (r := .ok (.ok ⟨true, none, none⟩)) ⟨.ok ⟨true, none, none⟩, (store, x),
    ⟨rfl, hstatus⟩, .of_done rfl _⟩ ?_
  exact .first (.first hfinalize (.of_done rfl _)) hsettle

end

section
variable {mayMiss : Prop}

theorem reads_single : (ObjectStore.changing anyAnswer mayMiss).allows (.get shardKey) single
    (.ok (shard (some 1) "a").data) single := ⟨⟨rfl, .inr ⟨_, rfl⟩⟩, rfl⟩

theorem reports_done : (ObjectStore.changing anyAnswer mayMiss).allows (.status "h") single
    (.ok ⟨true, none, none⟩) single := ⟨⟨_, rfl, rfl, rfl⟩, rfl⟩

theorem lists_single : (ObjectStore.changing anyAnswer mayMiss).allows (.list staging.outputFolder)
    single (.ok [shardKey]) single := ⟨⟨_, rfl, .refl _⟩, rfl⟩

theorem deletes_files (s : Store) : (ObjectStore.changing anyAnswer mayMiss).Runs
    (Pipeline.deleteFiles "j" [staging.inputKey, shardKey]).run (s, single) (.ok false)
    (s, emptied) :=
  ⟨.ok (), (s, single.delete staging.inputKey), ⟨rfl, rfl, rfl⟩, .ok (), (s, emptied),
    ⟨rfl, rfl, rfl⟩, .of_done rfl _⟩

/-- A poll comes to its end while the others wait. -/
theorem poll_completes : (ObjectStore.changing anyAnswer mayMiss).Runs
    (pipeline.poll "j").run (store, single) (.ok (.completed "j" 1)) (completed, emptied) := by
  have hclose : (ObjectStore.changing anyAnswer mayMiss).Runs
      (Pipeline.close "j" "d" staging.inputKey [shardKey] ⟨1, 0⟩).run (saved, single)
      (.ok (.completed "j" 1)) (completed, emptied) :=
    .bind (deletes_files saved) ⟨start, (saved, emptied), ⟨rfl, rfl⟩, _, (completed, emptied),
      ⟨rfl, rfl⟩, .of_done rfl _⟩
  have hrest : (ObjectStore.changing anyAnswer mayMiss).Runs afterListing.run (store, single)
      (.ok (.completed "j" 1)) (completed, emptied) :=
    .bind (collect_eq reads_single store (.here (stores_page rfl))).runs hclose
  exact (poll_resumes reports_done lists_single (.here hrest) (.of_done rfl _)).runs

end

/-- The store after the page was stored once more. -/
def rewritten : Store :=
  ((Pages.upsertAll "d" start.timestamp [Ocr.Page.asFound ⟨1, "a"⟩]).run completed).2

/-- A poll has read the shard when another one completes the job. What it goes on to record is
refused. -/
theorem poll_refused : (ObjectStore.changing anyAnswer False).Resumes (pipeline.poll "j").run
    (store, single) (store, single) (completed, emptied)
    (.error (.conflict (.jobFinished .completed))) (rewritten, emptied) := by
  have hstores : (ObjectStore.changing anyAnswer False).Runs afterReading.run (completed, emptied)
      (.error (.conflict (.jobFinished .completed))) (rewritten, emptied) :=
    ⟨start, (completed, emptied), ⟨rfl, rfl⟩, _, (rewritten, emptied), ⟨rfl, rfl⟩, start,
      (rewritten, emptied), ⟨rfl, rfl⟩, _, (rewritten, emptied), ⟨rfl, rfl⟩, .of_done rfl _⟩
  refine poll_resumes reports_done lists_single
    (.first (collect_eq reads_single store (.here hstores)) (.of_done rfl _)) ?_
  exact ⟨start, (rewritten, emptied), ⟨rfl, rfl⟩, _, (rewritten, emptied), ⟨rfl, rfl⟩,
    .of_done rfl _⟩

/-- The failure of a poll that does not find a shard. -/
def missed : PipelineError := .ofStorage (.notFound shardKey)

/-- The store after it was recorded. -/
def spoiled : Store :=
  ((Pipeline.failJob job missed.publicMessage (some (Failure.message missed))
    start.timestamp).run saved).2

/-- A poll has listed the shard when another one deletes it. -/
theorem poll_misses : (ObjectStore.changing anyAnswer True).Resumes (pipeline.poll "j").run
    (store, single) (store, single) (saved, emptied) (.error missed) (spoiled, emptied) := by
  have hread : (ObjectStore.changing anyAnswer True).Runs afterListing.run (saved, emptied)
      (.error missed) (saved, emptied) :=
    ⟨.error (.notFound shardKey), (saved, emptied), ⟨rfl, ⟨rfl, .inl trivial⟩, rfl⟩, .of_done rfl _⟩
  exact poll_resumes reports_done lists_single (.here hread) ⟨start, (saved, emptied), ⟨rfl, rfl⟩,
    .ok (), (spoiled, emptied), ⟨rfl, rfl⟩, .of_done rfl _⟩

/-- A poll has deleted the shard when another one fails the job. -/
theorem poll_spoiled : (ObjectStore.changing anyAnswer True).Resumes (pipeline.poll "j").run
    (store, single) (saved, emptied) (spoiled, emptied) (.error (.conflict (.jobFinished .failed)))
    (spoiled, emptied) := by
  have hclose : (ObjectStore.changing anyAnswer True).Resumes
      (Pipeline.close "j" "d" staging.inputKey [shardKey] ⟨1, 0⟩).run (saved, single)
      (saved, emptied) (spoiled, emptied)
      (.error (.precondition (.noLongerProcessing "d"))) (spoiled, emptied) :=
    .next (deletes_files saved) (.here ⟨start, (spoiled, emptied), ⟨rfl, rfl⟩, _,
      (spoiled, emptied), ⟨rfl, rfl⟩, .of_done rfl _⟩)
  have hrest : (ObjectStore.changing anyAnswer True).Resumes afterListing.run (store, single)
      (saved, emptied) (spoiled, emptied)
      (.error (.precondition (.noLongerProcessing "d"))) (spoiled, emptied) :=
    .next (collect_eq reads_single store (.here (stores_page rfl))).runs hclose
  exact poll_resumes reports_done lists_single hrest ⟨start, (spoiled, emptied), ⟨rfl, rfl⟩, _,
    (spoiled, emptied), ⟨rfl, rfl⟩, .of_done rfl _⟩

end Background

/-- Two polls have read a shard, and one of them comes to its end before the other one goes on. -/
theorem overlapping_polls_complete_single :
    let polls := [(Background.pipeline.poll "j").ignored, (Background.pipeline.poll "j").ignored]
    Relation.ReflTransGen (Crowd.Turn (ObjectStore.changing Background.anyAnswer False))
        ⟨(Background.store, Background.single), polls⟩
        ⟨(Background.rewritten, Background.emptied), [.done (), .done ()]⟩ ∧
      (∃ r ∈ Background.rewritten.jobs, r.id = "j" ∧ r.status = .completed) ∧
      ∃ pages, ((Pages.list "d").run Background.rewritten).1 = .ok pages ∧
        List.Forall₂ Page.Keeps pages [⟨1, "a"⟩] := by
  intro polls
  have hturns := Crowd.turns_of_resumes Background.poll_refused.ignored
    (Background.poll_completes.resumes (Background.rewritten, Background.emptied)).ignored
  have hmerge : Ocr.Shard.merge [[⟨1, "a"⟩]] = [⟨1, "a"⟩] := List.mergeSort_singleton _
  have hawaits : ∀ p ∈ [Background.pipeline, Background.pipeline],
      Background.store.Awaits p Background.job Background.staging "d" := by
    simpa using Background.awaits
  obtain ⟨-, hjob, -, pages, hread, hgain⟩ := overlapping_polls_complete hawaits
    Background.single_shards (by decide) (by decide) Background.store_lists hturns
    List.mem_cons_self
  rw [hmerge] at hgain
  exact ⟨hturns, hjob, pages, hread, hgain.all fun _ hpage => nomatch hpage⟩

/-- A poll lists the only shard; another one reads it, stores its page and deletes it; then the
first one does not find it. Job and document have failed once both have come to their ends. -/
theorem overlapping_polls_fail_job :
    let polls := [(Background.pipeline.poll "j").ignored, (Background.pipeline.poll "j").ignored]
    Background.store.Quiet ∧
    Background.store.Awaits Background.pipeline Background.job Background.staging "d" ∧
    Background.single.Shards Background.staging.outputFolder [[⟨1, "a"⟩]] ∧
    ∃ m, Relation.ReflTransGen (Crowd.Turn (ObjectStore.changing Background.anyAnswer True))
        ⟨(Background.store, Background.single), polls⟩ ⟨m, [.done (), .done ()]⟩ ∧
      (∃ r ∈ m.1.jobs, r.id = "j" ∧ r.status = .failed) ∧
      ∃ r ∈ m.1.documents, r.id = "d" ∧ r.status = .failed := by
  intro polls
  refine ⟨Background.store_quiet, Background.awaits, Background.single_shards,
    (Background.spoiled, Background.emptied),
    Crowd.turns_of_resumes Background.poll_misses.ignored Background.poll_spoiled.ignored, ?_⟩
  exact ⟨⟨_, List.mem_singleton_self _, rfl, rfl⟩, ⟨_, List.mem_singleton_self _, rfl, rfl⟩⟩

end Quire
