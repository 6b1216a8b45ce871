import Quire.Proofs.Pipeline.Settling

/-! A check among others on the same operation.

Step by step a check keeps to what all checks leave, as long as the others do and no shard that it
has listed is gone before it is read. If it ends, the job is settled: by the check itself, or by
another one, which the check is then told as a failure of its own. -/
namespace Quire
open Txn

namespace Harvest
variable (h : Harvest) (may : UInt32 → Prop) {s : Store} {done : List UInt32}
  {m m' : Moment ObjectStore} {x : ObjectStore}

/-! ### The steps of a check -/

/-- A check among others. -/
def sharing (can : Cleanup.Answers) (mayMiss : Prop)
    (others : Moment ObjectStore → Moment ObjectStore → Prop) : Company ObjectStore where
  world := ObjectStore.changing can mayMiss
  others := others
  own := h.Evolves may
  looks := .refl

/-- The others do what a check may do; if a check may ask for what is gone, they do nothing. -/
structure Beside (mayMiss : Prop) (others : Moment ObjectStore → Moment ObjectStore → Prop) :
    Prop where
  evolves : ∀ m m', others m m' → h.Evolves may m m'
  idle : mayMiss → ∀ m m', others m m' → m' = m

/-- Shards that are still to be read are there, if a check may ask for what is gone. -/
def There (mayMiss : Prop) (keys : List String) (m : Moment ObjectStore) : Prop :=
  mayMiss → ∀ key ∈ keys, ∃ bytes, m.2.get key = .ok bytes

variable {h may} {can : Cleanup.Answers} {mayMiss : Prop}
  {others : Moment ObjectStore → Moment ObjectStore → Prop} (hothers : h.Beside may mayMiss others)
include hothers

theorem Beside.there {keys : List String} {P : Moment ObjectStore → Prop}
    (hP : (h.sharing may can mayMiss others).Stable P) :
    (h.sharing may can mayMiss others).Stable fun m => P m ∧ There mayMiss keys m :=
  fun m m' hm hkept => ⟨hP m m' hm hkept.1, fun hmiss => by
    rw [hothers.idle hmiss m m' hm]
    exact hkept.2 hmiss⟩

theorem Beside.fits (done : List UInt32) :
    (h.sharing may can mayMiss others).Stable (h.Fits may done) :=
  fun m m' hm => (hothers.evolves m m' hm).fits done

theorem Beside.settled : (h.sharing may can mayMiss others).Stable fun m => h.Settled may m.1 :=
  fun m m' hm => (hothers.evolves m m' hm).settled

omit hothers in
theorem clock_amid {ε : Type} {P : Moment ObjectStore → Prop} {E : ε → Moment ObjectStore → Prop}
    (hP : (h.sharing may can mayMiss others).Stable P) :
    (Run.clock : Run ε Instant).Amid (h.sharing may can mayMiss others) P (fun _ => P) E := by
  refine .ask hP rfl fun m now x hm hx => ?_
  obtain rfl : x = m.2 := hx
  exact ⟨.refl m, hm⟩

/-- The shards that are read are those of the operation. -/
theorem readShards_amid {keys : List String} (hkeys : ∀ key ∈ keys, key ∈ h.keys) :
    (Pipeline.readShards keys).Amid (h.sharing may can mayMiss others)
      (fun m => h.Fits may done m ∧ There mayMiss keys m)
      (fun parts m => List.Forall₂ h.objects.Reads keys parts ∧ h.Fits may done m)
      fun _ m => h.Settled may m.1 := by
  induction keys with
  | nil => exact .pure fun m hm => ⟨.nil, hm.1⟩
  | cons key rest ih =>
    obtain ⟨pages, bytes, hget, hparse⟩ := h.reads.exists_of_mem (hkeys key List.mem_cons_self)
    refine Run.Amid.bind (R := fun content m => content = bytes ∧ h.Fits may done m ∧
      There mayMiss rest m) (.demand (hothers.there (hothers.fits done)) rfl
      fun m o x hm hanswer => ?_) fun content => ?_
    · -- Whatever others have deleted, what is found is what the shard has always been.
      obtain ⟨⟨ho, hfound⟩, hx⟩ := hanswer
      obtain rfl : x = m.2 := hx
      obtain ⟨found, hfound⟩ : ∃ bytes, m.2.get key = .ok bytes :=
        hfound.elim (fun hmiss => hm.2 hmiss key List.mem_cons_self) id
      obtain ⟨gone, hgone, -⟩ := hm.1.objects
      have hsame : found = bytes :=
        Except.ok.inj ((ObjectStore.get_of_without (hgone ▸ hfound)).symm.trans hget)
      have hrest : There mayMiss rest m := fun hmiss k hk =>
        hm.2 hmiss k (List.mem_cons_of_mem _ hk)
      rw [ho, hfound]
      exact ⟨.refl m, hsame, hm.1, hrest⟩
    · refine .given fun hcontent => ?_
      rw [hcontent, hparse]
      refine .ofExcept_bind (fun _ _ he => nomatch he) fun found hfound => ?_
      obtain rfl := Except.ok.inj hfound
      refine (ih fun k hk => hkeys k (List.mem_cons_of_mem _ hk)).bind fun parts =>
        .pure fun m hm => ?_
      exact ⟨.cons ⟨bytes, hget, hparse⟩ hm.1, hm.2⟩

theorem updateProgress_amid (finished total : UInt32) (step : String) :
    (Ledger.updateProgress h.jobId finished total step).Amid (h.sharing may can mayMiss others)
      (h.Fits may done) (fun _ => h.Fits may done)
      fun _ m => h.Fits may done m ∧ h.Settled may m.1 := by
  refine Run.Amid.bind (R := fun _ => h.Fits may done)
    (clock_amid (hothers.fits done)) fun now => .transact (hothers.fits done) fun s x hm => ?_
  exact wp_mono (hm.progress finished total _ step now.timestamp)
    (fun _ _ hevolves => ⟨hevolves, hevolves.fits done hm⟩) fun _ hsettled => ⟨hm, hsettled⟩

/-- Whatever is made of the progress, all pages are cleaned. -/
theorem cleanPages_amid (p : Pipeline) (pages : List Ocr.Page) :
    Run.Amid (h.sharing may can mayMiss others) (h.Fits may done)
      (fun new m => p.PreparesAll can pages new ∧ h.Fits may done m)
      (fun _ m => h.Settled may m.1)
      (ExceptT.lift (p.cleanPages h.jobId pages) : Run PipelineError (List NewPage)) := by
  have hsteady : Cleanup.Steady (h.sharing may can mayMiss others).reading can (h.Fits may done)
      h.jobId :=
    { begin := fun i text hint K m hm hK m₁ hm₁ b n hb => by
        obtain ⟨s, x⟩ := n
        obtain ⟨hs, hcan, hx⟩ := hb
        obtain rfl : s = m₁.1 := hs
        obtain rfl : x = m₁.2 := hx
        exact ⟨.refl m₁, hK b m₁ hcan (hothers.fits done m m₁ hm₁ hm)⟩
      await := fun first rest K m hm hK m₁ hm₁ b n hb => by
        obtain ⟨s, x⟩ := n
        obtain ⟨hs, hcan, hx⟩ := hb
        obtain rfl : s = m₁.1 := hs
        obtain rfl : x = m₁.2 := hx
        exact ⟨.refl m₁, hK b m₁ hcan (hothers.fits done m m₁ hm₁ hm)⟩
      progress := fun finished total m hm =>
        (Run.Amid.iff_leads.mp (updateProgress_amid hothers finished total "cleaning") m hm).mono
          (fun _ _ h => h) fun _ _ h => h.1 }
  exact Run.Amid.iff_leads.mpr fun m hm =>
    (Run.Leads.lift _).mpr ((p.cleanPages_leads pages hsteady m hm).mono fun _ _ hnew => hnew.symm)

/-- Batch by batch all pages are stored, unless another check settles the job meanwhile. -/
theorem storeBatches_amid {batch : Nat} (hbatch : 1 ≤ batch) (total stored left : Nat)
    {pages : List NewPage} (hleft : pages.length ≤ left) (hpages : ∀ new ∈ pages, h.Offers new) :
    (Pipeline.storeBatches h.jobId h.documentId batch total stored left pages).Amid
      (h.sharing may can mayMiss others) (h.Fits may done)
      (fun _ => h.Fits may (done ++ pages.map (·.pageNo))) fun _ m => h.Settled may m.1 := by
  induction left generalizing done stored pages with
  | zero =>
    obtain rfl := List.length_eq_zero_iff.mp (Nat.le_zero.mp hleft)
    exact .pure fun m hm => by simpa using hm
  | succ left ih =>
    cases pages with
    | nil => exact .pure fun m hm => by simpa using hm
    | cons page rest =>
      let here := (page :: rest).take batch
      let later := (page :: rest).drop batch
      have hsplit : here ++ later = page :: rest := List.take_append_drop batch _
      have hhere : ∀ new ∈ here, h.Offers new :=
        fun new hnew => hpages new (List.mem_of_mem_take hnew)
      have hlater : ∀ new ∈ later, h.Offers new :=
        fun new hnew => hpages new (List.mem_of_mem_drop hnew)
      refine (clock_amid (hothers.fits done)).bind fun now => ?_
      refine Run.Amid.bind (R := fun _ => h.Fits may (done ++ here.map (·.pageNo)))
        (.transact (hothers.fits done) fun s x hm => ?_) fun _ => ?_
      · exact wp_mono (hm.storePages hhere now.timestamp) (fun _ _ h => h) fun _ h => h.elim
      refine Run.Amid.bind (.widen ((updateProgress_amid hothers _ _ _).conseq (fun _ h => h)
        (fun _ _ h => h) fun _ _ h => h.2)) fun _ => ?_
      have hlength : later.length ≤ left := by
        have : later.length = rest.length + 1 - batch := List.length_drop
        simp only [List.length_cons] at hleft
        omega
      refine (ih _ hlength hlater).conseq (fun _ h => h) (fun _ m hm => ?_) fun _ _ h => h
      rwa [List.append_assoc, ← List.map_append, hsplit] at hm

/-! ### Gathering pages -/

omit hothers

/-- The pages of shards that were read are pages of the operation. -/
theorem mem_of_reads {keys : List String} (hkeys : ∀ key ∈ keys, key ∈ h.keys)
    {parts : List (List Ocr.Page)} (hparts : List.Forall₂ h.objects.Reads keys parts) :
    ∀ page ∈ parts.flatten, page ∈ h.found := by
  intro page hpage
  obtain ⟨part, hpart, hpage⟩ := List.mem_flatten.mp hpage
  obtain ⟨key, hkey, hread⟩ := exists_of_mem_forall₂ hparts hpart
  obtain ⟨pages, hmem, hpages⟩ := exists_of_mem_forall₂ h.reads.flip (hkeys key hkey)
  exact h.mem_found.mpr
    (List.mem_flatten.mpr ⟨pages, hmem, ObjectStore.Reads.unique hread hpages ▸ hpage⟩)

variable (h may) in
/-- Keys that were listed: those of all shards, unless all pages have been stored; and what may be
told of them. -/
structure Lists (keys : List String) (done : List UInt32) : Prop where
  known : ∀ key ∈ keys, key ∈ h.keys
  all : keys.Perm h.keys ∨ done = h.numbers
  some : keys ≠ [] → ∀ parts, List.Forall₂ h.objects.Reads keys parts →
    may (UInt32.ofNat parts.flatten.length)
  none : keys = [] → may h.total

variable {keys : List String}

/-- If there are no shards to be read, all pages are stored. -/
theorem Lists.done_of_nil (hkeys : h.Lists may [] done) (hm : h.Fits may done m) :
    h.Fits may h.numbers m := by
  rcases hkeys.all with hperm | rfl
  · have hnone : h.shards = [] := h.keys_eq_nil.mp hperm.symm.eq_nil
    refine hm.mono fun n hn => ?_
    obtain ⟨page, hpage, -⟩ := List.mem_map.mp hn
    have hpage := h.mem_found.mp hpage
    simp [hnone] at hpage
  · exact hm

/-- What is stored of shards that were read. -/
theorem Lists.offers (hkeys : h.Lists may keys done) {parts : List (List Ocr.Page)}
    (hparts : List.Forall₂ h.objects.Reads keys parts) {p : Pipeline} {stored : List NewPage}
    (hstored : p.PreparesAll can (Ocr.Shard.merge parts) stored) :
    (∀ new ∈ stored, h.Offers new) ∧ stored.length = parts.flatten.length ∧
      ∀ n ∈ h.numbers, n ∈ done ++ stored.map (·.pageNo) := by
  have hmerged := Ocr.Shard.merge_perm parts
  refine ⟨fun new hnew => ?_, ?_, fun n hn => List.mem_append.mpr ?_⟩
  · obtain ⟨page, hpage, hrenders⟩ := exists_of_mem_forall₂ hstored.renders hnew
    exact ⟨page, mem_of_reads hkeys.known hparts page (hmerged.mem_iff.mp hpage), hrenders⟩
  · exact hstored.renders.length_eq.symm.trans hmerged.length_eq
  · rcases hkeys.all with hperm | rfl
    · have hflat := h.reads.perm hperm hparts
      rw [hstored.numbers]
      have hfound := (hmerged.trans hflat).trans (Ocr.Shard.merge_perm h.shards).symm
      exact .inr ((hfound.map _).mem_iff.mpr hn)
    · exact .inl hn

include hothers

theorem collect_amid (p : Pipeline) (hkeys : h.Lists may keys done) (hsome : keys ≠ []) :
    (p.collect h.jobId h.documentId keys).Amid (h.sharing may can mayMiss others)
      (fun m => h.Fits may done m ∧ There mayMiss keys m)
      (fun c m => may c.pageCount ∧ h.Fits may h.numbers m) fun _ m => h.Settled may m.1 := by
  refine (readShards_amid hothers hkeys.known).bind fun parts => ?_
  refine .given fun hparts => ?_
  refine (cleanPages_amid hothers p (Ocr.Shard.merge parts)).bind fun stored => ?_
  refine .given fun hstored => ?_
  obtain ⟨hoffers, hlength, hall⟩ := hkeys.offers hparts hstored
  have hbatch := Nat.le_max_right p.settings.pageInsertBatch 1
  refine (storeBatches_amid hothers hbatch stored.length 0 stored.length (Nat.le_refl _)
    hoffers).bind fun _ => .pure fun m hm => ⟨?_, hm.mono hall⟩
  show may (UInt32.ofNat stored.length)
  rw [hlength]
  exact hkeys.some hsome parts hparts

theorem alreadyCollected_amid (htotal : may h.total) :
    (Pipeline.alreadyCollected h.documentId).Amid (h.sharing may can mayMiss others)
      (h.Fits may h.numbers) (fun c m => may c.pageCount ∧ h.Fits may h.numbers m)
      fun _ m => h.Settled may m.1 := by
  refine Run.Amid.bind (R := fun pages m => UInt32.ofNat pages.length = h.total ∧
    h.Fits may h.numbers m) (.transact (hothers.fits h.numbers) fun s x hm => ?_) fun pages =>
    .pure fun m hm => ⟨?_, hm.2⟩
  · obtain ⟨pages, hrun, hgain⟩ := hm.stored.gain
    exact wp_of_run hrun ⟨.refl _, total_eq hgain, hm⟩
  · show may (UInt32.ofNat pages.length)
    rw [hm.1]
    exact htotal

theorem gather_amid (p : Pipeline) (hkeys : h.Lists may keys done) :
    (p.gather h.jobId h.documentId keys).Amid (h.sharing may can mayMiss others)
      (fun m => h.Fits may done m ∧ There mayMiss keys m)
      (fun c m => may c.pageCount ∧ h.Fits may h.numbers m) fun _ m => h.Settled may m.1 := by
  unfold Pipeline.gather
  split
  case isTrue hempty =>
    obtain rfl := List.isEmpty_iff.mp hempty
    exact (alreadyCollected_amid hothers (hkeys.none rfl)).pre
      fun m hm => hkeys.done_of_nil hm.1
  case isFalse hsome => exact collect_amid hothers p hkeys (by simpa using hsome)

/-! ### Settling -/

theorem deleteObjects_amid {E : PipelineError → Moment ObjectStore → Prop} (keys : List String) :
    (Pipeline.deleteObjects none keys).Amid (h.sharing may can mayMiss others)
      (h.Fits may h.numbers) (fun last m => last = none ∧ h.Fits may h.numbers m) E := by
  induction keys with
  | nil => exact .pure fun m hm => ⟨rfl, hm⟩
  | cons key rest ih =>
    refine Run.Amid.bind (R := fun o m => o = .ok () ∧ h.Fits may h.numbers m)
      (.ask (hothers.fits h.numbers) rfl fun m o x hm hanswer => ?_) fun o => ?_
    · obtain ⟨ho, rfl⟩ := hanswer
      have hevolves : h.Evolves may m (m.1, m.2.delete key) := .of_delete hm.stored key
      exact ⟨hevolves, ho, hevolves.fits _ hm⟩
    · refine .given fun ho => ?_
      rw [ho]
      exact ih

/-- The objects go, and the job is settled, unless another check has settled it already. -/
theorem close_amid {c : Collected} (hc : may c.pageCount) (inputKey : String)
    (keys : List String) :
    (Pipeline.close h.jobId h.documentId inputKey keys c).Amid (h.sharing may can mayMiss others)
      (h.Fits may h.numbers) (fun _ m => h.Settled may m.1) fun _ m => h.Settled may m.1 := by
  refine Run.Amid.bind (R := fun _ => h.Fits may h.numbers)
    ((deleteObjects_amid hothers (inputKey :: keys)).bind fun last =>
      .given fun hlast => ?_) fun cleanupFailed => ?_
  · rw [hlast]
    exact .pure fun m hm => hm
  · refine (clock_amid (hothers.fits h.numbers)).bind fun now => ?_
    refine Run.Amid.bind (R := fun _ m => h.Settled may m.1) (.transact (hothers.fits h.numbers)
      fun s x hm => hm.complete hc cleanupFailed now.timestamp) fun _ => .pure fun m hm => hm

/-- A failure of a job that is settled is not recorded. -/
theorem fail_amid {job : Job} (hid : job.id = h.jobId) (message : String)
    (detail : Option String) :
    (Pipeline.fail job message detail).Amid (h.sharing may can mayMiss others)
      (fun m => h.Settled may m.1) (fun _ m => h.Settled may m.1) fun _ m => h.Settled may m.1 := by
  refine (clock_amid hothers.settled).bind fun now => ?_
  refine Run.Amid.bind (R := fun _ m => h.Settled may m.1) (.transact hothers.settled
    fun s x hm => ?_) fun _ => .pure fun m hm => hm
  have hclosed : s.Closed job.id := hid ▸ hm.closed
  exact wp_mono (Pipeline.failJob_refused hclosed hm.sound message detail now.timestamp)
    (fun _ _ h => h.elim) fun _ _ => hm

theorem settle_amid {job : Job} (hid : job.id = h.jobId) (o : Except PipelineError JobReport) :
    (Pipeline.settle job o).Amid (h.sharing may can mayMiss others) (fun m => h.Settled may m.1)
      (fun _ m => h.Settled may m.1) fun _ m => h.Settled may m.1 := by
  cases o with
  | ok report => exact .pure fun m hm => hm
  | error e =>
    unfold Pipeline.settle
    dsimp only
    split
    · exact (fail_amid hothers hid _ _).bind fun _ => .throw fun m hm => hm
    · exact .throw fun m hm => hm

/-! ### A check -/

omit hothers in
/-- What a listing shows. -/
theorem Fits.lists (hm : h.Fits may [] m) (hcountable : h.Countable may m)
    (hkeys : keys.Perm (m.2.shardKeys h.staging.outputFolder)) :
    ∃ done, h.Lists may keys done ∧ h.Fits may done m ∧ There mayMiss keys m := by
  have hthere : There mayMiss keys m := fun _ key hkey =>
    ObjectStore.exists_get (ObjectStore.mem_keys_of_shardKeys (hkeys.mem_iff.mp hkey))
  obtain ⟨gone, hx, hstored⟩ := hm.objects
  have hleft : keys.Perm (h.keys.filter (· ∉ gone)) := by
    rwa [hx, ObjectStore.shardKeys_without] at hkeys
  have hknown : ∀ key ∈ keys, key ∈ h.keys := fun key hkey =>
    (List.mem_filter.mp (hleft.mem_iff.mp hkey)).1
  have hsome : keys ≠ [] → ∀ parts, List.Forall₂ h.objects.Reads keys parts →
      may (UInt32.ofNat parts.flatten.length) := fun hsome parts hparts =>
    hcountable.some keys parts hsome hkeys hparts
  have hnone : keys = [] → may h.total := fun hnone =>
    hcountable.none (hnone ▸ hkeys).symm.eq_nil
  -- If a shard is gone, all pages are stored already, so it does not matter which are left.
  by_cases hgone : ∃ key ∈ h.keys, key ∈ gone
  · exact ⟨h.numbers, ⟨hknown, .inr rfl, hsome, hnone⟩, ⟨hm.objects, hstored hgone, hm.job⟩, hthere⟩
  · have hall : h.keys.filter (· ∉ gone) = h.keys := by
      refine List.filter_eq_self.mpr fun key hkey => ?_
      simpa using fun hmem => hgone ⟨key, hkey, hmem⟩
    exact ⟨[], ⟨hknown, .inl (hall ▸ hleft), hsome, hnone⟩, hm, hthere⟩

variable {P : Moment ObjectStore → Prop}
  (hP : (h.sharing may can mayMiss others).Stable P) (hfits : ∀ m, P m → h.Fits may [] m)
  (hcountable : ∀ m, P m → h.Countable may m)
include hP hfits hcountable

theorem finalize_amid (p : Pipeline) {job : Job} (hjob : h.Concerns job) :
    (p.finalize job).Amid (h.sharing may can mayMiss others) P (fun _ m => h.Settled may m.1)
      fun _ m => h.Settled may m.1 := by
  rw [Pipeline.finalize_eq, hjob.staging, hjob.document, hjob.id]
  refine .ofExcept_bind (fun _ _ he => nomatch he) fun staging hstaging => ?_
  obtain rfl := Except.ok.inj hstaging
  refine .ofExcept_bind (fun _ _ he => nomatch he) fun d hd => ?_
  obtain rfl := Except.ok.inj hd
  refine Run.Amid.bind (R := fun found m => ∃ done,
    h.Lists may (found.filter Ocr.Shard.isShardKey) done ∧ h.Fits may done m ∧
      There mayMiss (found.filter Ocr.Shard.isShardKey) m)
    (.demand hP rfl fun m o x hm hanswer => ?_) fun found => ?_
  · obtain ⟨⟨found, rfl, hfound⟩, hx⟩ := hanswer
    obtain rfl : x = m.2 := hx
    exact ⟨.refl m, (hfits m hm).lists (hcountable m hm) (hfound.filter Ocr.Shard.isShardKey)⟩
  · refine .of_exists fun done => .given fun hkeys => ?_
    exact (gather_amid hothers p hkeys).bind fun c => .given fun hc => close_amid hothers hc _ _

theorem check_amid (p : Pipeline) {job : Job} (hjob : h.Concerns job) :
    (p.check job).Amid (h.sharing may can mayMiss others) P (fun _ m => h.Settled may m.1)
      fun _ m => h.Settled may m.1 := by
  unfold Pipeline.check
  split
  case h_1 hnone =>
    have hhandle := hjob.handle
    simp [hnone] at hhandle
  case h_2 handle _ =>
    refine Run.Amid.bind (R := fun o m => (∃ state : Ocr.OperationStatus, o = .ok state ∧
      state.done = true ∧ state.error = none) ∧ P m)
      (.ask hP rfl fun m o x hm hanswer => ?_) fun o => .given fun ho => ?_
    · obtain ⟨ho, hx⟩ := hanswer
      obtain rfl : x = m.2 := hx
      exact ⟨.refl m, ho, hm⟩
    · obtain ⟨state, rfl, hdone, herror⟩ := ho
      dsimp only
      unfold Pipeline.proceed
      rw [hdone, herror]
      refine Run.Amid.bind (R := fun _ m => h.Settled may m.1) (.outcome (finalize_amid hothers hP
        hfits hcountable p hjob)) fun o => settle_amid hothers hjob.id o

/-- Whatever a poll finds, in the end the job is settled. -/
theorem poll_amid (p : Pipeline)
    (hexternal : p.settings.polling.discipline .documentExtract = .external) :
    (p.poll h.jobId).Amid (h.sharing may can mayMiss others) P (fun _ m => h.Settled may m.1)
      fun _ m => h.Settled may m.1 := by
  refine Run.Amid.bind (R := fun job m => (job.status = .polling → h.Concerns job ∧ P m) ∧
    (job.status ≠ .polling → h.Settled may m.1))
    (.widen (Ledger.find_amid hP fun m hm => ?_)) fun job => ?_
  · rcases (hfits m hm).job with hwaiting | hsettled
    · obtain ⟨r, hr, job, hread, hjob⟩ := hwaiting.job
      have hid : r.id = h.jobId := (JobRow.shows_of_read hread).id.symm.trans hjob.id
      have hrun := Jobs.find_run hwaiting.sound hr hread
      rw [hid] at hrun
      refine wp_of_run hrun ⟨fun job' hfound => ?_, fun h => nomatch h⟩
      obtain rfl := Option.some.inj hfound
      exact ⟨fun _ => ⟨hjob, hm⟩, fun hne => absurd hjob.polling hne⟩
    · refine Jobs.find_wp ⟨fun _ h => (nomatch h), fun _ => hsettled⟩
        (fun r hr hid job hshows => ⟨fun job' hfound => ?_, fun h => nomatch h⟩) fun _ => hsettled
      obtain rfl := Option.some.inj hfound
      refine ⟨fun hpolling => ?_, fun _ => hsettled⟩
      have hopen : Jobs.isOpen h.jobId r = true := by
        refine Jobs.isOpen_iff.mpr ⟨hid, ?_⟩
        rw [hshows.isActive_eq, hpolling]
        rfl
      exact absurd hopen (by simp [hsettled.closed.refused hsettled.sound r hr])
  · -- From here on only the job that was read counts; others may settle it meanwhile.
    by_cases hpolling : job.status = .polling
    · refine .learn (fun m hm => (hm.1 hpolling).1) fun hjob => ?_
      refine Run.Amid.pre (P := P) ?_ fun m hm => (hm.1 hpolling).2
      rw [hpolling, hjob.kind]
      refine .ofExcept_bind (fun _ _ he => nomatch he) fun jobType htype => ?_
      obtain rfl := Except.ok.inj htype
      rw [hexternal]
      exact check_amid hothers hP hfits hcountable p hjob
    · rw [if_pos (by simpa using hpolling)]
      exact (Run.Amid.ofExcept _).pre fun m hm => hm.2 hpolling

end Harvest
end Quire
