import Quire.Proofs.Pipeline.Collection
import Quire.Proofs.Pipeline.Upkeep

/-! A check on an operation that is done.

From the objects that the operation has left to a draft: the shards are read and merged, their
pages cleaned and stored, the files deleted, and job and document are done. A check that completes
the job has done all of that. -/
namespace Quire
open Txn

/-- What is told of pages that have been stored. -/
def collectedOf (stored : List NewPage) : Collected :=
  ⟨UInt32.ofNat stored.length, (stored.filter (·.cleaningFailed)).length⟩

/-- What was collected is told by a draft and by the job on it, which is completed. -/
structure Store.Tells (jobId d : String) (c : Collected) (s : Store) : Prop where
  sound : s.Sound
  document : ∃ r ∈ s.documents, r.id = d ∧ r.status = .draft ∧
    r.pageCount = .ofNat c.pageCount.toNat
  job : ∃ r ∈ s.jobs, r.id = jobId ∧ r.status = .completed ∧ r.percent = .real 100 ∧
    ∃ cleanupFailed, r.result = some (.value (Pipeline.summary c cleanupFailed))

/-- The pages of a document are stored, it is a draft, and the job on it is completed. -/
structure Store.Completed (jobId d : String) (stored : List NewPage) (s : Store) : Prop where
  sound : s.Sound
  pages : s.HasStored d (stored.map (·.pageNo)) stored
  document : ∃ r ∈ s.documents, r.id = d ∧ r.status = .draft ∧
    r.pageCount = .ofNat (collectedOf stored).pageCount.toNat
  job : ∃ r ∈ s.jobs, r.id = jobId ∧ r.status = .completed ∧ r.percent = .real 100 ∧
    ∃ cleanupFailed, r.result = some (.value (Pipeline.summary (collectedOf stored) cleanupFailed))

/-- The pages to be stored are those of some shards, merged in some order. -/
def Pipeline.Yields (p : Pipeline) (can : Cleanup.Answers) (shards : List (List Ocr.Page))
    (stored : List NewPage) : Prop :=
  ∃ parts : List (List Ocr.Page), parts.flatten.Perm shards.flatten ∧
    p.PreparesAll can (Ocr.Shard.merge parts) stored

theorem Pipeline.Yields.numbers {p : Pipeline} {can : Cleanup.Answers}
    {shards : List (List Ocr.Page)} {stored : List NewPage} (h : p.Yields can shards stored) :
    (stored.map (·.pageNo)).Perm (shards.flatten.map (·.number)) := by
  obtain ⟨parts, hperm, hprepares⟩ := h
  rw [hprepares.numbers]
  exact (((Ocr.Shard.merge_perm parts).trans hperm).map _)

namespace Pipeline
variable {o : ObjectStore} {can : Cleanup.Answers} {mayFail : Prop} {jobId d : String}

theorem readShards_takes {P : Store → Prop} {keys : List String}
    (hkeys : ∀ key ∈ keys, ∃ pages, o.Reads key pages) :
    (readShards keys).Takes (o.surroundings can mayFail) (fun _ => True) P
      (fun parts s => P s ∧ List.Forall₂ o.Reads keys parts) fun _ _ => mayFail := by
  induction keys with
  | nil => exact .pure fun s hs => ⟨hs, .nil⟩
  | cons key rest ih =>
    obtain ⟨pages, bytes, hget, hparse⟩ := hkeys key List.mem_cons_self
    refine Run.Takes.bind (R := fun content s => P s ∧ content = bytes)
      (.demand rfl fun s x answer x' hs hanswer => ?_) fun content => ?_
    · rcases hanswer with rfl | ⟨hfail, e, rfl⟩
      · rw [hget]
        exact ⟨hs, rfl⟩
      · exact hfail
    · refine .learn (fun s hs => hs.2) fun hcontent => ?_
      rw [hcontent]
      refine .ofExcept_bind (fun e s he => ?_) fun found hfound => ?_
      · rw [hparse] at he
        cases he
      · have hrest := ih fun k hk => hkeys k (List.mem_cons_of_mem key hk)
        refine Run.Takes.bind (hrest.conseq (fun s hs => hs.1) (fun _ _ h => h) fun _ _ h => h)
          fun others => .pure fun s hs => ⟨hs.1, .cons ⟨bytes, hget, hfound⟩ hs.2⟩

variable (p : Pipeline) {folder : String} {shards : List (List Ocr.Page)}

/-- The pages of the shards are merged, cleaned and stored. -/
theorem collect_takes {keys : List String} (hshards : o.Shards folder shards)
    (hkeys : keys.Perm (o.shardKeys folder))
    (hno : mayFail ∨ ∀ page ∈ shards.flatten, 1 ≤ page.number) :
    (p.collect jobId d keys).Takes (o.surroundings can mayFail) (fun _ => True)
      (Store.Collecting jobId d (shards.flatten.map (·.number)) [])
      (fun c s => ∃ stored, p.Yields can shards stored ∧ c = collectedOf stored ∧
        s.Collecting jobId d (shards.flatten.map (·.number)) stored)
      fun _ _ => mayFail := by
  let numbers := shards.flatten.map (·.number)
  have hreads : ∀ key ∈ keys, ∃ pages, o.Reads key pages := fun key hkey =>
    hshards.exists_of_mem (hkeys.mem_iff.mp hkey)
  refine (readShards_takes hreads).bind fun parts => ?_
  refine .learn (fun s hs => hs.2) fun hparts => ?_
  have hperm := hshards.perm hkeys hparts
  refine Run.Takes.bind (R := fun stored s => s.Collecting jobId d numbers [] ∧
    p.PreparesAll can (Ocr.Shard.merge parts) stored)
    ((p.cleanPages_collecting (Ocr.Shard.merge parts)).conseq (fun s hs => hs.1)
      (fun _ _ h => h) fun _ _ h => h) fun stored => ?_
  refine .learn (fun s hs => hs.2) fun hprepares => ?_
  have hyields : p.Yields can shards stored := ⟨parts, hperm, hprepares⟩
  have hknown : ∀ q ∈ stored, q.pageNo ∈ numbers := fun q hq =>
    hyields.numbers.mem_iff.mp (List.mem_map_of_mem hq)
  refine Run.Takes.bind (R := fun _ => Store.Collecting jobId d numbers stored) ?_ fun _ =>
    .pure fun s hs => ⟨stored, hyields, rfl, hs⟩
  have hbatch := Nat.le_max_right p.settings.pageInsertBatch 1
  refine (storeBatches_collecting hbatch stored.length 0 stored.length (Nat.le_refl _)
    hknown).conseq (fun s hs => hs.1) (fun _ _ h => h) ?_
  rintro _ s ⟨q, hq, hzero⟩
  obtain ⟨page, hpage, hpageNo⟩ := List.mem_map.mp (hknown q hq)
  exact hno.resolve_right fun hall => hzero (hpageNo ▸ hall page hpage)

/-- Without shards, the pages that are stored are all there are. -/
theorem alreadyCollected_takes {w : Surroundings Unit} {E : PipelineError → Store → Prop} :
    (alreadyCollected d).Takes w (fun _ => True) (Store.Collecting jobId d [] [])
      (fun c s => c = collectedOf [] ∧ s.Collecting jobId d [] []) E := by
  refine Run.Takes.bind (R := fun pages s => pages = [] ∧ s.Collecting jobId d [] [])
    (.transact fun s hs => ?_) fun pages => ?_
  · have hstored : s.HasStored d (([] : List NewPage).map (·.pageNo)) [] := hs.stored
    obtain ⟨pages, hrun, hlists⟩ := Pages.list_run hstored
    have hnone : pages = [] := by
      rw [← List.map_eq_nil_iff, List.eq_nil_iff_forall_not_mem]
      exact fun n hn => List.not_mem_nil ((hlists.numbers n).mp hn)
    exact wp_of_run hrun ⟨trivial, hnone, hs⟩
  · exact .pure fun s hs => ⟨by rw [hs.1]; rfl, hs.2⟩

theorem gather_takes {keys : List String} (hshards : o.Shards folder shards)
    (hkeys : keys.Perm (o.shardKeys folder))
    (hno : mayFail ∨ ∀ page ∈ shards.flatten, 1 ≤ page.number) :
    (p.gather jobId d keys).Takes (o.surroundings can mayFail) (fun _ => True)
      (Store.Collecting jobId d (shards.flatten.map (·.number)) [])
      (fun c s => ∃ stored, p.Yields can shards stored ∧ c = collectedOf stored ∧
        s.Collecting jobId d (shards.flatten.map (·.number)) stored)
      fun _ _ => mayFail := by
  unfold gather
  split
  case isTrue hempty =>
    have hnone : o.shardKeys folder = [] := by
      rw [List.isEmpty_iff.mp hempty] at hkeys
      exact hkeys.symm.eq_nil
    unfold ObjectStore.Shards at hshards
    rw [hnone] at hshards
    obtain rfl := List.forall₂_nil_left_iff.mp hshards
    refine alreadyCollected_takes.conseq (fun _ hs => hs) ?_ fun _ _ h => h
    have hyields : p.Yields can [] [] := ⟨[], .refl _, by simp [Ocr.Shard.merge, PreparesAll]⟩
    exact fun c s hs => ⟨[], hyields, hs.1, hs.2⟩
  case isFalse => exact p.collect_takes hshards hkeys hno

section Closing
variable {numbers : List UInt32} {stored : List NewPage} {w : Surroundings Unit}

theorem deleteObjects_takes {P : Store → Prop} {E : PipelineError → Store → Prop}
    (last : Option StorageError) (keys : List String) :
    (deleteObjects last keys).Takes w (fun _ => True) P (fun _ => P) E := by
  induction keys generalizing last with
  | nil => exact .pure fun _ hs => hs
  | cons key rest ih =>
    refine (Run.Takes.perform (e := .delete key) rfl).bind fun o => ?_
    cases o with
    | ok _ => exact ih last
    | error e => exact ih (some e)

/-- Files that cannot be deleted do not matter. -/
theorem deleteFiles_takes (keys : List String) :
    (deleteFiles jobId keys).Takes w (fun _ => True) (Store.Collecting jobId d numbers stored)
      (fun _ => Store.Collecting jobId d numbers stored) fun _ _ => False := by
  refine (deleteObjects_takes none keys).bind fun last => ?_
  cases last with
  | none => exact .pure fun _ hs => hs
  | some e =>
    exact Run.Takes.bind (.widen (Ledger.addEvent_collecting _ _ _ _)) fun _ => .pure fun _ hs => hs

/-- An open job that is completed. -/
theorem exists_completed {s : Store} (result : Option Json) (now : String)
    (hjob : ∃ r ∈ s.jobs, Jobs.isOpen jobId r = true) :
    ∃ r ∈ (Jobs.changed s jobId now (.completed result)).jobs, r.id = jobId ∧
      r.status = .completed ∧ r.percent = .real 100 ∧
      ∀ json, result = some json → json.isDurable = true → r.result = some (.value json) := by
  obtain ⟨r, hr, hopen⟩ := hjob
  refine ⟨_, mem_changeWhere.mpr ⟨r, hr, rfl⟩, ?_⟩
  rw [if_pos hopen]
  refine ⟨(Jobs.isOpen_iff.mp hopen).1, rfl, rfl, ?_⟩
  rintro json rfl hdurable
  show some (StoredJson.ofJson json) = _
  rw [StoredJson.ofJson, if_pos hdurable]

theorem summary_isDurable (c : Collected) (cleanupFailed : Bool) :
    (summary c cleanupFailed).isDurable = true := rfl

/-- Job and document are done in one transaction, which cannot fail. -/
theorem completeJob_tells {s : Store} (hs : s.Sound)
    (hjob : ∃ r ∈ s.jobs, Jobs.isOpen jobId r = true)
    (hdocument : ∃ r ∈ s.documents, r.id = d ∧ r.status = .processing) (c : Collected)
    (cleanupFailed : Bool) (now : String) :
    (completeJob jobId d c cleanupFailed now).wp
      (fun _ s' => s'.pages = s.pages ∧ s'.Tells jobId d c) (fun _ => False) s := by
  obtain ⟨r, hr, hid, hprocessing⟩ := hdocument
  have hp : (r.id == d && [DocumentStatus.processing].contains r.status) = true :=
    Store.inProcess_iff.mpr ⟨hid, hprocessing⟩
  have hmoved : r ∈ s.documents.filter fun r => r.id == d && [.processing].contains r.status :=
    List.mem_filter.mpr ⟨hr, hp⟩
  unfold completeJob
  simp only [Documents.markDraft, Documents.changeFrom, wp_bind, wp_widen, wp_store, wp_modify,
    wp_pure, wp_require]
  refine ⟨fun _ => ?_, fun hnone => absurd (List.length_pos_of_mem hmoved) (by simpa using hnone)⟩
  refine Jobs.guarded_wp (s := { s with documents := changeWhere _ _ s.documents }) hs.apart
    (.completed (some (summary c cleanupFailed))) jobId now (fun _ => ?_) ?_
  · obtain ⟨j, hj, hjid, hstatus, hpercent, hresult⟩ :=
      exists_completed (some (summary c cleanupFailed)) now hjob
    have hthere := Store.hasJob_iff.mpr ⟨j, hj, hjid⟩
    rw [wp_widen]
    simp only [Jobs.insertEvent, wp_bind, wp_store, wp_require, wp_modify]
    refine ⟨fun _ => ⟨rfl, ?_, ?_, ?_⟩, fun hmissing => ?_⟩
    · refine ((hs.changeDocuments ?_).changeJob jobId now _).of_same rfl rfl
      exact fun _ => rfl
    · refine ⟨_, mem_changeWhere.mpr ⟨r, hr, rfl⟩, ?_⟩
      rw [if_pos hp]
      exact ⟨hid, rfl, rfl⟩
    · exact ⟨j, hj, hjid, hstatus, hpercent, cleanupFailed, hresult _ rfl (summary_isDurable _ _)⟩
    · exact absurd (hthere.symm.trans hmissing) (by simp)
  · intro hclosed
    obtain ⟨j, hj, hopen⟩ := hjob
    exact absurd hopen (by simp [hclosed j hj])

theorem completeJob_completed {s : Store} (hs : s.Collecting jobId d numbers stored)
    (hnumbers : (stored.map (·.pageNo)).Perm numbers) (cleanupFailed : Bool) (now : String) :
    (completeJob jobId d (collectedOf stored) cleanupFailed now).wp
      (fun _ => Store.Completed jobId d stored) (fun _ => False) s := by
  have hpages := hs.stored.mono fun n hn => hnumbers.mem_iff.mpr hn
  refine wp_mono (completeJob_tells hs.sound hs.job hs.document (collectedOf stored) cleanupFailed
    now) (fun _ s' hs' => ?_) fun _ h => h
  exact ⟨hs'.2.sound, hpages.of_same hs'.1, hs'.2.document, hs'.2.job⟩

end Closing

/-! ### The check -/

/-- What a check tells: that the job is completed only if it is, with the pages of the shards; and,
unless something may fail, that it is completed. -/
def Told (can : Cleanup.Answers) (mayFail : Prop) (jobId d : String)
    (shards : List (List Ocr.Page)) (report : JobReport) (s : Store) : Prop :=
  (report.status = .completed → ∃ stored, p.Yields can shards stored ∧
    report = .completed jobId (collectedOf stored).pageCount ∧ s.Completed jobId d stored) ∧
  (mayFail ∨ report.status = .completed)

theorem told_other {report : JobReport} {s : Store} (hfail : mayFail)
    (hreport : report.status ≠ .completed) : p.Told can mayFail jobId d shards report s :=
  ⟨fun h => absurd h hreport, .inl hfail⟩

theorem close_takes {w : Surroundings Unit} {stored : List NewPage}
    (hyields : p.Yields can shards stored) (inputKey : String) (keys : List String) :
    (close jobId d inputKey keys (collectedOf stored)).Takes w (fun _ => True)
      (Store.Collecting jobId d (shards.flatten.map (·.number)) stored)
      (p.Told can mayFail jobId d shards) fun _ _ => False := by
  refine (deleteFiles_takes _).bind fun cleanupFailed => ?_
  refine (Run.Takes.perform (e := .clock) rfl).bind fun now => ?_
  refine Run.Takes.bind (R := fun _ => Store.Completed jobId d stored) (.transact fun s hs => ?_)
    fun _ => .pure fun s hs => ⟨fun _ => ⟨stored, hyields, rfl, hs⟩, .inr rfl⟩
  exact wp_mono (completeJob_completed hs hyields.numbers cleanupFailed now.timestamp)
    (fun _ _ h => ⟨trivial, h⟩) fun _ h => h

section Check
variable {job : Job} {staging : Staging} (hstaging : stagingOf job = .ok staging)
  (hdoc : documentOf job = .ok d) (hshards : o.Shards staging.outputFolder shards)
  (hno : mayFail ∨ ∀ page ∈ shards.flatten, 1 ≤ page.number)
include hstaging hdoc hshards hno

theorem finalize_takes :
    (p.finalize job).Takes (o.surroundings can mayFail) (fun _ => True)
      (Store.Collecting job.id d (shards.flatten.map (·.number)) [])
      (p.Told can mayFail job.id d shards) fun _ _ => mayFail := by
  rw [finalize_eq, hstaging, hdoc]
  refine .ofExcept_bind (fun _ _ h => nomatch h) fun staging' hstaging' => ?_
  obtain rfl := Except.ok.inj hstaging'
  refine .ofExcept_bind (fun _ _ h => nomatch h) fun d' hd' => ?_
  obtain rfl := Except.ok.inj hd'
  refine Run.Takes.bind (R := fun found s => found.Perm (o.list staging.outputFolder) ∧
    s.Collecting job.id d (shards.flatten.map (·.number)) [])
    (.demand rfl fun s x answer x' hs hanswer => ?_) fun found => ?_
  · rcases hanswer with ⟨found, rfl, hfound⟩ | ⟨hfail, e, rfl⟩
    · exact ⟨hfound, hs⟩
    · exact hfail
  · refine .learn (fun s hs => hs.1) fun hfound => ?_
    have hkeys := hfound.filter Ocr.Shard.isShardKey
    refine Run.Takes.bind ((p.gather_takes hshards hkeys hno).conseq (fun s hs => hs.2)
      (fun _ _ h => h) fun _ _ h => h) fun c => ?_
    refine .of_exists fun stored => ?_
    refine .learn (fun s hs => And.intro hs.1 hs.2.1) fun ⟨hyields, hc⟩ => ?_
    rw [hc]
    exact (p.close_takes hyields staging.inputKey _).conseq (fun s hs => hs.2.2) (fun _ _ h => h)
      fun _ _ h => h.elim

omit hstaging hdoc hshards hno in
/-- What cannot be collected is told as a failure. -/
theorem settle_takes (outcome : Except PipelineError JobReport) :
    (settle job outcome).Takes (o.surroundings can mayFail) (fun _ => True)
      (fun s => Either (p.Told can mayFail job.id d shards) (fun _ _ => mayFail) outcome s)
      (p.Told can mayFail job.id d shards) fun _ _ => mayFail := by
  cases outcome with
  | ok report => exact .pure fun s hs => hs
  | error e =>
    refine .learn (φ := mayFail) (fun s hs => hs) fun hfail => ?_
    unfold settle
    dsimp only
    split
    · exact (Run.Takes.anything _ hfail).bind fun _ => .throw fun _ _ => hfail
    · exact .throw fun _ _ => hfail

omit hstaging hdoc hshards hno in
/-- A job that is failed is not told as completed. -/
theorem fail_takes (hfail : mayFail) {P : Store → Prop} (message : String)
    (detail : Option String) :
    (fail job message detail).Takes (o.surroundings can mayFail) (fun _ => True) P
      (p.Told can mayFail job.id d shards) fun _ _ => mayFail := by
  refine (Run.Takes.perform (e := .clock) rfl).bind fun now => ?_
  exact (Run.Takes.anything _ hfail).bind fun _ => .pure fun s _ => p.told_other hfail nofun

theorem proceed_takes {state : Ocr.OperationStatus}
    (hstate : mayFail ∨ state.done = true ∧ state.error = none) :
    (p.proceed job state).Takes (o.surroundings can mayFail) (fun _ => True)
      (Store.Collecting job.id d (shards.flatten.map (·.number)) [])
      (p.Told can mayFail job.id d shards) fun _ _ => mayFail := by
  unfold proceed
  split
  case isTrue hdone =>
    have hfail : mayFail := hstate.resolve_right fun h => by simp [h.1] at hdone
    exact (Run.Takes.anything _ hfail).bind fun _ => .pure fun s _ => p.told_other hfail nofun
  case isFalse =>
    split
    case h_1 message herror =>
      have hfail : mayFail := hstate.resolve_right fun h => by simp [h.2] at herror
      exact p.fail_takes hfail message none
    case h_2 =>
      refine Run.Takes.bind (.outcome ((p.finalize_takes hstaging hdoc hshards hno).conseq
        (fun _ hs => hs) ?_ ?_)) fun outcome => p.settle_takes outcome
      · exact fun _ _ h => h
      · exact fun _ _ h => h

theorem check_takes (hhandle : job.operationHandle.isSome = true) :
    (p.check job).Takes (o.surroundings can mayFail) (fun _ => True)
      (Store.Collecting job.id d (shards.flatten.map (·.number)) [])
      (p.Told can mayFail job.id d shards) fun _ _ => mayFail := by
  unfold check
  split
  case h_1 hnone => simp [hnone] at hhandle
  case h_2 handle _ =>
    refine Run.Takes.bind (R := fun answer s =>
      (mayFail ∨ ∃ state, answer = .ok state ∧ state.done = true ∧ state.error = none) ∧
        s.Collecting job.id d (shards.flatten.map (·.number)) [])
      (.ask rfl fun s x answer x' hs hanswer => ⟨hanswer.symm, hs⟩) fun answer => ?_
    refine .learn (fun s hs => hs.1) fun hanswer => ?_
    cases answer with
    | ok state =>
      have hstate : mayFail ∨ state.done = true ∧ state.error = none :=
        hanswer.imp_right fun ⟨_, hsame, h⟩ => Except.ok.inj hsame ▸ h
      exact (p.proceed_takes hstaging hdoc hshards hno hstate).conseq (fun s hs => hs.2)
        (fun _ _ h => h) fun _ _ h => h
    | error e =>
      have hfail : mayFail := hanswer.resolve_right fun ⟨_, hsame, _⟩ => nomatch hsame
      exact (Run.Takes.anything _ hfail).bind fun _ => .throw fun _ _ => hfail

end Check
end Pipeline

/-! ### The poll -/

/-- A job that waits for an operation on a document: it is polled from outside, and has all that a
check needs. The store obeys the rules of the schema, as every reachable store does. -/
structure Store.Awaits (s : Store) (p : Pipeline) (job : Job) (staging : Staging) (d : String) :
    Prop where
  sound : s.Sound
  keyed : s.Keyed
  found : ((Jobs.find job.id).run s).1 = .ok (some job)
  polling : job.status = .polling
  kind : job.type = .ok .documentExtract
  external : p.settings.polling.discipline .documentExtract = .external
  handle : job.operationHandle.isSome = true
  staging : Pipeline.stagingOf job = .ok staging
  document : Pipeline.documentOf job = .ok d
  processing : ∃ r ∈ s.documents, r.id = d ∧ r.status = .processing

namespace Store.Awaits
variable {s : Store} {p : Pipeline} {job : Job} {staging : Staging} {d : String}
  {shards : List (List Ocr.Page)}

/-- Nothing has been stored yet but, perhaps, pages of the numbers that the shards have. -/
theorem collecting (h : s.Awaits p job staging d)
    (hstored : ∀ r ∈ s.pagesOf d, ∃ page ∈ shards.flatten, r.pageNo = .ofNat page.number.toNat) :
    s.Collecting job.id d (shards.flatten.map (·.number)) [] := by
  have hfind : (Jobs.find job.id).wp (fun found _ => ∀ job', found = some job' →
      ∃ r ∈ s.jobs, r.id = job.id ∧ r.Shows job') (fun _ => True) s := by
    refine Jobs.find_wp (fun _ h => nomatch h) (fun r hr hid j hshows j' h => ?_) fun _ => trivial
    exact ⟨r, hr, hid, Option.some.inj h ▸ hshows⟩
  obtain ⟨r, hr, hid, hshows⟩ := ((wp_iff_run _).mp hfind).1 _ h.found job rfl
  refine ⟨h.sound, ⟨r, hr, Jobs.isOpen_iff.mpr ⟨hid, ?_⟩⟩, h.processing,
    ⟨h.keyed, fun _ h => (nomatch h), fun r hr hdoc => ?_, ?_, ?_⟩⟩
  · rw [hshows.isActive_eq, h.polling]
    rfl
  · obtain ⟨page, hpage, hno⟩ := hstored r (List.mem_filter.mpr ⟨hr, by simp [hdoc]⟩)
    exact ⟨page.number, List.mem_map_of_mem hpage, hno⟩
  · exact fun _ h => nomatch h
  · exact fun _ _ _ _ _ h => nomatch h

theorem poll_takes {o : ObjectStore} {can : Cleanup.Answers} {mayFail : Prop}
    (h : s.Awaits p job staging d) (hshards : o.Shards staging.outputFolder shards)
    (hstored : ∀ r ∈ s.pagesOf d, ∃ page ∈ shards.flatten, r.pageNo = .ofNat page.number.toNat)
    (hno : mayFail ∨ ∀ page ∈ shards.flatten, 1 ≤ page.number) :
    (p.poll job.id).Takes (o.surroundings can mayFail) (fun _ => True) (· = s)
      (p.Told can mayFail job.id d shards) fun _ _ => mayFail := by
  have hrun : (Jobs.find job.id).run s = (.ok (some job), s) :=
    Prod.ext h.found ((Jobs.find_readOnly job.id s).run rfl)
  have hfind : (Ledger.find job.id).Takes (o.surroundings can mayFail) (fun _ => True) (· = s)
      (fun job' s' => job' = job ∧ s' = s) fun _ _ => False := by
    refine Run.Takes.bind (R := fun found s' => found = some job ∧ s' = s) (.transact ?_)
      fun found => .learn (fun _ hs => hs.1) fun hfound => ?_
    · rintro _ rfl
      exact wp_of_run hrun ⟨trivial, rfl, rfl⟩
    · rw [hfound]
      exact .pure fun s hs => ⟨rfl, hs.2⟩
  refine Run.Takes.bind (.widen (hfind.conseq (fun _ h => h) (fun _ _ h => h) nofun)) fun job' => ?_
  refine .learn (fun _ hs => hs.1) fun hjob => ?_
  rw [hjob, h.polling, h.kind]
  refine .ofExcept_bind (fun _ _ h => nomatch h) fun jobType htype => ?_
  obtain rfl := Except.ok.inj htype
  rw [h.external]
  refine (p.check_takes h.staging h.document hshards hno h.handle).conseq (fun s' hs => ?_)
    (fun _ _ h => h) fun _ _ h => h
  exact hs.2 ▸ h.collecting hstored

end Store.Awaits
end Quire
