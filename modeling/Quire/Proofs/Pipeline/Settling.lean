import Quire.Proofs.Pipeline.Harvest
import Quire.Proofs.Pipeline.Stale

/-! What becomes of what an operation has left.

Several checks may be made on one operation, one after the other or at the same time, and each of
them may break off anywhere. What they come past in common (`Harvest.Fits`): a shard is gone only
after all pages are stored, and every page that is stored is one of the pages of the shards; the
job waits, or it is completed with all pages. No transaction of a check destroys any of that
(`Harvest.Evolves`). -/
namespace Quire
open Txn

/-! ### Job and document -/

/-- Whoever looks for a job reads the row of its id. -/
theorem Jobs.find_row {s : Store} (hs : s.Sound) {r : JobRow} (hr : r ∈ s.jobs) :
    (find r.id).run s = (r.read.map some, s) := by
  rw [← wp_eq_run]
  unfold find
  rw [wp_bind, wp_store, find?_key hs.jobIds hr]
  cases hread : r.read with
  | error _ | ok _ =>
    dsimp only
    rw [hread]
    rfl

theorem Jobs.find_run {s : Store} (hs : s.Sound) {r : JobRow} (hr : r ∈ s.jobs) {job : Job}
    (hread : r.read = .ok job) : (find r.id).run s = (.ok (some job), s) := by
  rw [find_row hs hr, hread]
  rfl

theorem Jobs.find_unread {s : Store} (hs : s.Sound) {r : JobRow} (hr : r ∈ s.jobs) {e : StoreError}
    (hread : r.read = .error e) : (find r.id).run s = (.error e, s) := by
  rw [find_row hs hr, hread]
  rfl

/-- A job that is found has been read from a row. -/
theorem Jobs.exists_row {s : Store} {id : String} {job : Job}
    (hfound : ((find id).run s).1 = .ok (some job)) :
    ∃ r ∈ s.jobs, r.id = id ∧ r.read = .ok job := by
  have hwp : (find id).wp (fun found _ => ∀ job, found = some job →
      ∃ r ∈ s.jobs, r.id = id ∧ r.read = .ok job) (fun _ => True) s := by
    unfold find
    rw [wp_bind, wp_store]
    split
    case h_1 => exact fun _ h => nomatch h
    case h_2 r hr =>
      rw [wp_bind, wp_ofExcept]
      refine ⟨fun read hread job h => ?_, fun _ _ => trivial⟩
      obtain rfl := Option.some.inj h
      exact ⟨r, List.mem_of_find?_eq_some hr, by simpa using List.find?_some hr, hread⟩
  exact ((wp_iff_run _).mp hwp).1 _ hfound job rfl

namespace Jobs.Change

/-- A job after a change. -/
def onJob (now : String) : Change → Job → Job
  | .running, job => { job with status := .running, updatedAt := now }
  | .polling handle params timeoutAt, job =>
    { job with
      status := .polling
      operationHandle := some handle
      params := params
      heartbeatAt := some now
      timeoutAt := some timeoutAt
      updatedAt := now }
  | .completed result, job =>
    { job with
      status := .completed
      result := result <|> job.result
      percent := 100
      updatedAt := now
      completedAt := some now }
  | .failed message, job =>
    { job with
      status := .failed
      errorMessage := some message
      updatedAt := now
      completedAt := some now }
  | .alive timeoutAt, job =>
    { job with heartbeatAt := some now, timeoutAt := some timeoutAt, updatedAt := now }
  | .progressed done total percent step, job =>
    { job with
      doneSteps := done
      totalSteps := total
      percent := percent
      currentStep := some step
      heartbeatAt := some now
      updatedAt := now }

@[simp] theorem onJob_id (c : Change) (now : String) (job : Job) : (c.onJob now job).id = job.id := by
  cases c <;> rfl

/-- What a change stores is read back as it was. -/
def Durable : Change → Prop
  | .polling _ params _ => params.isDurable = true
  | .completed (some result) => result.isDurable = true
  | _ => True

end Jobs.Change

/-- A row that could be read can be read after a change, and shows the changed job. -/
theorem JobRow.read_apply {r : JobRow} {job : Job} (hread : r.read = .ok job) (c : Jobs.Change)
    (hc : c.Durable) (now : String) : (c.apply now r).read = .ok (c.onJob now job) := by
  obtain ⟨doneSteps, hdone, hread⟩ := bind_eq_ok.mp hread
  obtain ⟨totalSteps, htotal, hread⟩ := bind_eq_ok.mp hread
  obtain ⟨percent, hpercent, hread⟩ := bind_eq_ok.mp hread
  obtain ⟨params, hparams, hread⟩ := bind_eq_ok.mp hread
  obtain ⟨result, hresult, hread⟩ := bind_eq_ok.mp hread
  obtain rfl := Except.ok.inj hread
  unfold read Jobs.Change.apply
  cases c with
  | progressed done total percent step =>
    simp only [Cell.word32_ofNat, hparams, hresult]
    rfl
  | polling handle params timeoutAt =>
    simp only [hdone, htotal, hpercent, StoredJson.read_ofJson hc, hresult]
    rfl
  | completed stored =>
    have hstored : (stored.map StoredJson.ofJson <|> r.result).mapM StoredJson.read =
        .ok (stored <|> result) := by
      cases stored with
      | none => exact hresult
      | some value =>
        show (some (StoredJson.ofJson value)).mapM StoredJson.read = _
        rw [Option.mapM_some, StoredJson.read_ofJson hc]
        rfl
    simp only [hdone, htotal, hparams, hstored]
    rfl
  | _ =>
    simp only [hdone, htotal, hpercent, hparams, hresult]
    rfl

namespace Harvest
variable (h : Harvest)

/-- What a check goes on from when it has found a job. -/
structure Concerns (job : Job) : Prop where
  id : job.id = h.jobId
  polling : job.status = .polling
  kind : job.type = .ok .documentExtract
  handle : job.operationHandle.isSome = true
  staging : Pipeline.stagingOf job = .ok h.staging
  document : Pipeline.documentOf job = .ok h.documentId

/-- The job waits for its operation, and the document is processing. -/
structure Waiting (s : Store) : Prop where
  sound : s.Sound
  job : ∃ r ∈ s.jobs, ∃ job, r.read = .ok job ∧ h.Concerns job
  document : ∃ r ∈ s.documents, r.id = h.documentId ∧ r.status = .processing

/-- The job is completed, the document is a draft with all pages of the shards, and the number of
pages that both tell is one that may be told. -/
structure Settled (may : UInt32 → Prop) (s : Store) : Prop where
  stored : h.Stored h.numbers s
  told : ∃ c, may c.pageCount ∧ s.Tells h.jobId h.documentId c

variable {h} {may : UInt32 → Prop} {s s' : Store}

theorem Waiting.isOpen (hs : h.Waiting s) : ∃ r ∈ s.jobs, Jobs.isOpen h.jobId r = true := by
  obtain ⟨r, hr, job, hread, hjob⟩ := hs.job
  have hshows := JobRow.shows_of_read hread
  refine ⟨r, hr, Jobs.isOpen_iff.mpr ⟨hshows.id.symm.trans hjob.id, ?_⟩⟩
  rw [hshows.isActive_eq, hjob.polling]
  rfl

theorem Settled.sound (hs : h.Settled may s) : s.Sound := by
  obtain ⟨c, -, htells⟩ := hs.told
  exact htells.sound

theorem Settled.closed (hs : h.Settled may s) : s.Closed h.jobId := by
  obtain ⟨c, -, htells⟩ := hs.told
  obtain ⟨r, hr, hid, hstatus, -⟩ := htells.job
  refine ⟨r, hr, hid, ?_⟩
  unfold JobRow.isActive
  rw [hstatus]
  rfl

theorem Waiting.not_closed (hs : h.Waiting s) : ¬ s.Closed h.jobId := by
  intro hclosed
  obtain ⟨r, hr, hopen⟩ := hs.isOpen
  exact absurd hopen (by simp [hclosed.refused hs.sound r hr])

theorem Waiting.not_settled (hs : h.Waiting s) : ¬ h.Settled may s := fun hsettled =>
  hs.not_closed hsettled.closed

theorem Waiting.of_same (hs : h.Waiting s) (hdocuments : s'.documents = s.documents)
    (hjobs : s'.jobs = s.jobs) : h.Waiting s' :=
  ⟨hs.sound.of_same hdocuments hjobs, hjobs ▸ hs.job, hdocuments ▸ hs.document⟩

theorem Settled.of_same (hs : h.Settled may s) (hstored : h.Stored h.numbers s')
    (hdocuments : s'.documents = s.documents) (hjobs : s'.jobs = s.jobs) : h.Settled may s' := by
  obtain ⟨c, hmay, htells⟩ := hs.told
  exact ⟨hstored, c, hmay, htells.sound.of_same hdocuments hjobs, hdocuments ▸ htells.document,
    hjobs ▸ htells.job⟩

/-- Progress is recorded while the job waits. -/
theorem Waiting.progressed (hs : h.Waiting s) (now : String) (done total : UInt32)
    (percent : Float) (step : String) :
    h.Waiting (Jobs.changed s h.jobId now (.progressed done total percent step)) := by
  refine ⟨hs.sound.changeJob h.jobId now _, ?_, hs.document⟩
  obtain ⟨r, hr, job, hread, hjob⟩ := hs.job
  refine ⟨_, mem_changeWhere.mpr ⟨r, hr, rfl⟩, ?_⟩
  split
  · exact ⟨_, JobRow.read_apply hread (.progressed done total percent step) trivial now, ⟨hjob.id, hjob.polling,
      hjob.kind, hjob.handle, hjob.staging, hjob.document⟩⟩
  · exact ⟨job, hread, hjob⟩

/-! ### What checks come past -/

variable (h may)

/-- What all checks leave: an object is gone only after all pages are stored; those of some numbers
are; and the job waits or is settled. -/
structure Fits (done : List UInt32) (m : Moment ObjectStore) : Prop where
  objects : ∃ gone, m.2 = h.objects.without gone ∧
    ((∃ key ∈ h.keys, key ∈ gone) → h.Stored h.numbers m.1)
  stored : h.Stored done m.1
  job : h.Waiting m.1 ∨ h.Settled may m.1

/-- What a check may do: it destroys nothing that is stored or settled. -/
structure Evolves (m m' : Moment ObjectStore) : Prop where
  fits : ∀ done, h.Fits may done m → h.Fits may done m'
  settled : h.Settled may m.1 → h.Settled may m'.1

variable {h may} {done : List UInt32} {m m' m'' : Moment ObjectStore} {x : ObjectStore}

theorem Fits.mono {fewer : List UInt32} (hm : h.Fits may done m)
    (hfewer : ∀ n ∈ fewer, n ∈ done) : h.Fits may fewer m :=
  ⟨hm.objects, hm.stored.mono hfewer, hm.job⟩

theorem Fits.hasDocument (hm : h.Fits may done m) : m.1.hasDocument h.documentId = true := by
  rcases hm.job with hwaiting | hsettled
  · obtain ⟨r, hr, hid, -⟩ := hwaiting.document
    exact Store.hasDocument_iff.mpr ⟨r, hr, hid⟩
  · obtain ⟨c, -, htells⟩ := hsettled.told
    obtain ⟨r, hr, hid, -⟩ := htells.document
    exact Store.hasDocument_iff.mpr ⟨r, hr, hid⟩

theorem Evolves.refl (m : Moment ObjectStore) : h.Evolves may m m := ⟨fun _ hm => hm, fun hm => hm⟩

theorem Evolves.trans (h₁ : h.Evolves may m m') (h₂ : h.Evolves may m' m'') :
    h.Evolves may m m'' :=
  ⟨fun done hm => h₂.fits done (h₁.fits done hm), fun hm => h₂.settled (h₁.settled hm)⟩

/-- The store changes, and the pages that are stored remain. -/
theorem Fits.of_store (hm : h.Fits may done (s, x))
    (hstored : ∀ done, h.Stored done s → h.Stored done s')
    (hjob : h.Waiting s' ∨ h.Settled may s') : h.Fits may done (s', x) := by
  obtain ⟨gone, hx, hgone⟩ := hm.objects
  exact ⟨⟨gone, hx, fun hkey => hstored _ (hgone hkey)⟩, hstored _ hm.stored, hjob⟩

/-- A change of the job that waits, or that is settled thereby. -/
theorem Evolves.of_waiting (hs : h.Waiting s) (hpages : s'.pages = s.pages)
    (hjob : h.Waiting s' ∨ h.Settled may s') : h.Evolves may (s, x) (s', x) :=
  ⟨fun _ hm => hm.of_store (fun _ hs => hs.of_same hpages) hjob,
    fun hsettled => absurd hsettled hs.not_settled⟩

/-- Further pages are stored. -/
theorem Evolves.of_pages (hstored : ∀ done, h.Stored done s → h.Stored done s')
    (hdocuments : s'.documents = s.documents) (hjobs : s'.jobs = s.jobs) :
    h.Evolves may (s, x) (s', x) := by
  have hsettled : h.Settled may s → h.Settled may s' := fun hs =>
    hs.of_same (hstored _ hs.stored) hdocuments hjobs
  exact ⟨fun _ hm => hm.of_store hstored
    (hm.job.imp (fun hs => hs.of_same hdocuments hjobs) hsettled), hsettled⟩

/-- An object is deleted after all pages are stored. -/
theorem Evolves.of_delete (hs : h.Stored h.numbers s) (key : String) :
    h.Evolves may (s, x) (s, x.delete key) := by
  refine ⟨fun _ hm => ?_, fun hsettled => hsettled⟩
  obtain ⟨gone, hx, -⟩ := hm.objects
  refine ⟨⟨key :: gone, ?_, fun _ => hs⟩, hm.stored, hm.job⟩
  show x.delete key = _
  rw [show x = h.objects.without gone from hx, ObjectStore.delete_without]

/-! ### Transactions of a check -/

theorem Fits.progress (hm : h.Fits may done (s, x)) (finished total : UInt32) (percent : Float)
    (step now : String) :
    (guarded h.jobId (Jobs.updateProgress h.jobId finished total percent step now)).wp
      (fun _ s' => h.Evolves may (s, x) (s', x)) (fun _ => h.Settled may s) s := by
  rcases hm.job with hwaiting | hsettled
  · have hprogressed := hwaiting.progressed now finished total percent step
    refine Jobs.guarded_wp hwaiting.sound.apart (.progressed finished total percent step) h.jobId
      now (fun _ => .of_waiting hwaiting rfl (.inl hprogressed)) fun hclosed => ?_
    obtain ⟨r, hr, hopen⟩ := hwaiting.isOpen
    exact absurd hopen (by simp [hclosed r hr])
  · exact hsettled.closed.guarded_wp hsettled.sound (.progressed finished total percent step)
      fun _ => hsettled

theorem Fits.storePages (hm : h.Fits may done (s, x)) {pages : List NewPage}
    (hpages : ∀ new ∈ pages, h.Offers new) (now : String) :
    (Pages.upsertAll h.documentId now pages).wp
      (fun _ s' => h.Evolves may (s, x) (s', x) ∧
        h.Fits may (done ++ pages.map (·.pageNo)) (s', x)) (fun _ => False) s := by
  have hadded (done : List UInt32) (hs : h.Stored done s) :=
    hs.upsertAll hm.hasDocument hpages now
  have hkept : (Pages.upsertAll h.documentId now pages).wp
      (fun _ s' => ∀ done, h.Stored done s → h.Stored (done ++ pages.map (·.pageNo)) s')
      (fun _ => True) s :=
    wp_forall fun done hs => wp_mono (hadded done hs) (fun _ _ h => h) fun _ _ => trivial
  have hrest := (Pages.upsertAll_aside h.documentId now pages).wp s
  refine wp_mono (wp_and (wp_and (hadded done hm.stored) hkept) hrest) (fun _ s' hs' => ?_)
    fun _ h => h.1.1
  obtain ⟨⟨hdone, hkept⟩, hdocuments, hjobs⟩ := hs'
  have hstored (done : List UInt32) (hs : h.Stored done s) : h.Stored done s' :=
    (hkept done hs).mono fun _ hn => List.mem_append_left _ hn
  have hevolves : h.Evolves may (s, x) (s', x) := .of_pages hstored hdocuments hjobs
  have hfits := hevolves.fits done hm
  exact ⟨hevolves, hfits.objects, hdone, hfits.job⟩

/-- Job and document are settled in one transaction; it is refused if they are settled already. -/
theorem Fits.complete (hm : h.Fits may h.numbers (s, x)) {c : Collected} (hc : may c.pageCount)
    (cleanupFailed : Bool) (now : String) :
    (Pipeline.completeJob h.jobId h.documentId c cleanupFailed now).wp
      (fun _ s' => h.Evolves may (s, x) (s', x) ∧ h.Settled may s')
      (fun _ => h.Settled may s) s := by
  rcases hm.job with hwaiting | hsettled
  · refine wp_mono (Pipeline.completeJob_tells hwaiting.sound hwaiting.isOpen hwaiting.document c
      cleanupFailed now) (fun _ s' hs' => ?_) fun _ h => h.elim
    have hdone : h.Settled may s' := ⟨hm.stored.of_same hs'.1, c, hc, hs'.2⟩
    exact ⟨.of_waiting hwaiting hs'.1 (.inr hdone), hdone⟩
  · exact wp_mono (Pipeline.completeJob_refused hsettled.closed hsettled.sound h.documentId c
      cleanupFailed now) (fun _ _ h => h.elim) fun _ _ => hsettled

/-! ### The beginning -/

/-- What the first check counts: the pages of the shards, or those of the document if there is no
shard. -/
def first (h : Harvest) : UInt32 := if h.keys = [] then h.total else h.count

/-- What is counted from now on may be told: the pages of the shards that are there, or those of the
document if none is. -/
structure Countable (h : Harvest) (may : UInt32 → Prop) (m : Moment ObjectStore) : Prop where
  some : ∀ keys parts, keys ≠ [] → keys.Perm (m.2.shardKeys h.staging.outputFolder) →
    List.Forall₂ h.objects.Reads keys parts → may (UInt32.ofNat parts.flatten.length)
  none : m.2.shardKeys h.staging.outputFolder = [] → may h.total

/-- As long as no shard is gone, checks count what the first one counts. -/
theorem countable_of_all (hfirst : may h.first)
    (hall : m.2.shardKeys h.staging.outputFolder = h.keys) : h.Countable may m := by
  unfold first at hfirst
  refine ⟨fun keys parts hsome hkeys hparts => ?_, fun hnone => ?_⟩
  · rw [hall] at hkeys
    rw [if_neg fun hnone => hsome (hnone ▸ hkeys).eq_nil] at hfirst
    rw [(h.reads.perm hkeys hparts).length_eq, ← Ocr.Shard.merge_length]
    exact hfirst
  · rwa [if_pos (hall.symm.trans hnone)] at hfirst

/-- Before the first check the job waits, and nothing is gone. -/
theorem fits_of_awaits {p : Pipeline} {job : Job}
    (hs : h.store.Awaits p job h.staging h.documentId) (hid : job.id = h.jobId) :
    h.Fits may [] (h.store, h.objects) := by
  obtain ⟨r, hr, -, hread⟩ := Jobs.exists_row hs.found
  have hjob : h.Concerns job :=
    ⟨hid, hs.polling, hs.kind, hs.handle, hs.staging, hs.document⟩
  exact ⟨⟨[], (ObjectStore.without_nil _).symm, fun ⟨_, _, hgone⟩ => nomatch hgone⟩,
    h.stored_nil, .inl ⟨hs.sound, ⟨r, hr, job, hread, hjob⟩, hs.processing⟩⟩

end Harvest
end Quire
