import Quire.Proofs.Job.Finality
import Quire.Proofs.Flow.Triples
import Quire.Proofs.Time.Order

/-! Deadlines of jobs.

The sweep looks at nothing but deadlines. A job gets one when it is created, and a new one when it
is given an operation and with every sign of life that is made for its own sake. Progress is kept
as a sign of life too, but it leaves the deadline where it is. So what protects a job from the sweep
is its last renewal, and not its last sign of life. -/
namespace Quire
open Txn

/-! ### Time that goes on -/

/-- A clock that never goes back answers; it is remembered what it has told last. -/
def Effect.Ticks : {β : Type} → Effect β → Instant → β → Instant → Prop
  | _, .clock, last, told, now => told.before last = false ∧ told.nanos < 1000000000 ∧ now = told
  | _, _, last, _, now => now = last

/-- Surroundings with such a clock, which answer everything else in any way. -/
def Surroundings.ticking : Surroundings Instant where
  allows := Effect.Ticks

namespace Ledger

/-! ### The life of a job -/

namespace Demand

/-- It shows that the job is alive. -/
def isSign : Demand → Bool
  | .polling _ _ | .alive | .progressed _ _ _ => true
  | _ => false

/-- It moves the deadline of the job. -/
def renews : Demand → Bool
  | .polling _ _ | .alive => true
  | _ => false

end Demand

/-- What else is done with a ledger. -/
inductive Act
  | enqueue (n : NewJob)
  | acquire (n : NewJob)
  | find (jobId : String)
  | holder (documentId : String)
  | events (jobId : String)
  | addEvent (jobId : String) (kind : EventKind) (step : Option String) (message : String)
      (trace : Option String)
  | sweep (now : Instant)

def Act.flow (l : Ledger) : Act → Flow Unit
  | .enqueue n => (l.enqueue n).ignored
  | .acquire n => (l.acquire n).ignored
  | .find jobId => (Ledger.find jobId).ignored
  | .holder documentId => (Ledger.holder documentId).ignored
  | .events jobId => (Ledger.events jobId).ignored
  | .addEvent jobId kind step message trace =>
    (Ledger.addEvent jobId kind step message trace).ignored
  | .sweep now => (Sweep.run now).ignored

/-- A job is created, and then anything is done with the ledger, one after the other while time
goes on. It is noted when the job has given its last sign of life, and when its deadline was
renewed. -/
inductive Life (l : Ledger) (id : String) : Moment Instant → (sign renewal : Instant) → Prop
  | enqueued {n : NewJob} {s : Store} {t : Instant} {job : Job} {m : Moment Instant} :
      s.Sound → Surroundings.ticking.Runs (l.enqueue n).run (s, t) (.ok job) m → job.id = id →
      Life l id m m.2 m.2
  | acquired {n : NewJob} {s : Store} {t : Instant} {job : Job} {m : Moment Instant} :
      s.Sound → Surroundings.ticking.Runs (l.acquire n).run (s, t) (.ok (.acquired job)) m →
      job.id = id → Life l id m m.2 m.2
  | demanded {m m' : Moment Instant} {sign renewal : Instant} (jobId : String) (d : Demand)
      {o : Except JobError Unit} :
      Life l id m sign renewal → Surroundings.ticking.Runs (d.run l jobId).run m o m' →
      Life l id m' (if jobId == id && o.isOk && d.isSign then m'.2 else sign)
        (if jobId == id && o.isOk && d.renews then m'.2 else renewal)
  | other {m m' : Moment Instant} {sign renewal : Instant} (a : Act) :
      Life l id m sign renewal → Surroundings.ticking.Runs (a.flow l) m () m' →
      Life l id m' sign renewal

end Ledger

/-! ### What the row of a job tells -/

/-- The row tells the last sign of life and the deadline. -/
structure JobRow.Marked (l : Ledger) (sign renewal : Instant) (r : JobRow) : Prop where
  heartbeat : r.heartbeatAt = some sign.timestamp
  deadline : r.timeoutAt = some (renewal.after l.heartbeat).timestamp

/-- The job is there, and as long as it has not ended its row is marked. -/
structure Store.Tracks (l : Ledger) (id : String) (sign renewal : Instant) (s : Store) : Prop where
  sound : s.Sound
  there : s.hasJob id = true
  marks : ∀ r ∈ s.jobs, r.id = id → r.isActive = true → r.Marked l sign renewal

namespace Store.Tracks
variable {l : Ledger} {id : String} {sign renewal : Instant} {s s' : Store}

theorem of_same (h : s.Tracks l id sign renewal) (hdocuments : s'.documents = s.documents)
    (hjobs : s'.jobs = s.jobs) : s'.Tracks l id sign renewal := by
  refine ⟨h.sound.of_same hdocuments hjobs, ?_, hjobs ▸ h.marks⟩
  rw [hasJob, hjobs]
  exact h.there

/-- A change of another job, or one that marks the row anew. -/
theorem change (h : s.Tracks l id sign renewal) {jobId now : String} {c : Jobs.Change}
    {sign' renewal' : Instant} (hother : jobId ≠ id → sign' = sign ∧ renewal' = renewal)
    (hown : jobId = id → ∀ r : JobRow, r.Marked l sign renewal → (c.apply now r).isActive = true →
      (c.apply now r).Marked l sign' renewal') :
    (Jobs.changed s jobId now c).Tracks l id sign' renewal' := by
  refine ⟨h.sound.changeJob jobId now c, ?_, fun r' hr' hid hactive => ?_⟩
  · obtain ⟨r, hr, hid⟩ := hasJob_iff.mp h.there
    refine hasJob_iff.mpr ⟨_, mem_changeWhere.mpr ⟨r, hr, rfl⟩, ?_⟩
    split
    · rw [Jobs.Change.apply_id, hid]
    · exact hid
  · obtain ⟨r, hr, rfl⟩ := mem_changeWhere.mp hr'
    by_cases hopen : Jobs.isOpen jobId r = true
    · rw [if_pos hopen] at hid hactive ⊢
      rw [Jobs.Change.apply_id] at hid
      obtain ⟨hjob, hbefore⟩ := Jobs.isOpen_iff.mp hopen
      exact hown (hjob.symm.trans hid) r (h.marks r hr hid hbefore) hactive
    · rw [if_neg hopen] at hid hactive ⊢
      have hne : jobId ≠ id := fun heq =>
        hopen (Jobs.isOpen_iff.mpr ⟨hid.trans heq.symm, hactive⟩)
      obtain ⟨rfl, rfl⟩ := hother hne
      exact h.marks r hr hid hactive

theorem fail (h : s.Tracks l id sign renewal) (jobId now message : String) :
    (Jobs.changed s jobId now (.failed message)).Tracks l id sign renewal :=
  h.change (fun _ => ⟨rfl, rfl⟩) fun _ _ _ hactive => nomatch hactive

/-- A demand that is met marks the row of its job. -/
theorem demand (h : s.Tracks l id sign renewal) (jobId : String) (d : Ledger.Demand)
    (now : Instant) :
    (Jobs.changed s jobId now.timestamp (d.change l now)).Tracks l id
      (if jobId == id && d.isSign then now else sign)
      (if jobId == id && d.renews then now else renewal) := by
  refine h.change (fun hne => by simp [hne]) fun heq r hr hactive => ?_
  rw [beq_iff_eq.mpr heq]
  cases d with
  | running => exact ⟨hr.heartbeat, hr.deadline⟩
  | polling handle params => exact ⟨rfl, rfl⟩
  | completed result => cases hactive
  | failed message => cases hactive
  | alive => exact ⟨rfl, rfl⟩
  | progressed done total step => exact ⟨rfl, hr.deadline⟩

theorem insert (h : s.Tracks l id sign renewal) (n : NewJob) (jobId : String) (now : Instant)
    (heartbeat : Respite) :
    (Jobs.insert (n.toJob jobId now heartbeat)).wp (fun _ s' => s'.Tracks l id sign renewal)
      (fun _ => True) s := by
  refine (Jobs.insertRow_wp _).mpr ?_
  split
  case isTrue => trivial
  case isFalse hclash =>
    split
    case isTrue => trivial
    case isFalse hnew =>
      split
      case isFalse => trivial
      case isTrue hrefers =>
        refine ⟨h.sound.addJob _ (Bool.not_eq_true _ ▸ hclash) (Bool.not_eq_true _ ▸ hnew) hrefers, ?_, ?_⟩
        · obtain ⟨r, hr, hid⟩ := hasJob_iff.mp h.there
          exact hasJob_iff.mpr ⟨r, List.mem_append_left _ hr, hid⟩
        · intro r hr hid hactive
          rcases List.mem_append.mp hr with hr | hr
          · exact h.marks r hr hid hactive
          · rw [List.mem_singleton] at hr
            rw [← hid, hr] at h
            exact absurd h.there hnew

end Store.Tracks

/-! ### What a ledger does to other jobs -/

section Acts
variable {l : Ledger} {id : String} {sign renewal : Instant}

theorem Txn.Aside.tracks {ε α : Type} {t : Txn ε α} (ht : t.Aside) :
    t.Keeps (Store.Tracks l id sign renewal) :=
  fun s hs => wp_mono (ht.wp s) (fun _ _ h => hs.of_same h.1 h.2) fun _ h => h

theorem tryAcquire_tracks (n : NewJob) (jobId : String) (now : Instant) (heartbeat : Respite) :
    (tryAcquire n jobId now heartbeat).Keeps (Store.Tracks l id sign renewal) := by
  have hinsert : (Jobs.insert (n.toJob jobId now heartbeat)).Keeps
      (Store.Tracks l id sign renewal) := fun s hs => hs.insert n jobId now heartbeat
  refine hinsert.attempt.bind fun outcome => ?_
  cases outcome with
  | ok _ => exact Keeps.pure _
  | error e =>
    dsimp only
    split
    · exact Keeps.pure _
    · exact Keeps.fail _

theorem Documents.markFailed_tracks (documentId now : String) :
    (Documents.markFailed documentId now).Keeps (Store.Tracks l id sign renewal) := by
  intro s hs
  simp only [markFailed, changeFrom, wp_bind, wp_store, wp_modify, wp_pure]
  exact ⟨hs.sound.changeDocuments fun _ => rfl, hs.there, hs.marks⟩

theorem Sweep.failJob_tracks (job : Job) (stamp : String) :
    (Sweep.failJob job stamp).Keeps (Store.Tracks l id sign renewal) := by
  have hfail : (Jobs.markFailed job.id (Sweep.message job) stamp).Keeps
      (Store.Tracks l id sign renewal) := fun s hs =>
    (Jobs.statement_wp hs.sound.apart (.failed (Sweep.message job)) job.id stamp).mpr
      (hs.fail job.id stamp _)
  refine hfail.widen.bind fun changed => ?_
  split
  · exact Keeps.pure _
  · refine ((Jobs.insertEvent_aside _ _ _ _ _ _).tracks.widen).bind fun _ => ?_
    cases job.documentId with
    | none => exact Keeps.pure _
    | some documentId =>
      exact ((Documents.markFailed_tracks documentId stamp).widen).bind fun _ => Keeps.pure _

/-- Nothing but a demand marks a row. -/
theorem Ledger.Act.keeps (a : Ledger.Act) :
    (a.flow l).Issues fun _ _ t => t.Keeps (Store.Tracks l id sign renewal) := by
  have hlook : ∀ {ε α : Type} {t : Txn ε α}, t.ReadOnly → t.Keeps (Store.Tracks l id sign renewal) :=
    fun h => h.keeps _
  cases a with
  | enqueue n =>
    exact (Run.Issues.freshId.bind fun jobId => Run.Issues.clock.bind fun now =>
      (Run.Issues.transact fun s hs => hs.insert n jobId now l.heartbeat).bind fun _ =>
        Run.Issues.pure _).ignored
  | acquire n =>
    exact (Run.Issues.freshId.bind fun jobId => Run.Issues.clock.bind fun now =>
      Run.Issues.transact (tryAcquire_tracks n jobId now l.heartbeat)).ignored
  | find jobId =>
    refine ((Run.Issues.transact (hlook (Jobs.find_readOnly jobId))).bind fun found => ?_).ignored
    cases found with
    | none => exact Run.Issues.throw _
    | some job => exact Run.Issues.pure job
  | holder documentId => exact (Run.Issues.transact (hlook (Jobs.findActive_readOnly _))).ignored
  | events jobId => exact (Run.Issues.transact (hlook (Jobs.events_readOnly jobId))).ignored
  | addEvent jobId kind step message trace =>
    exact (Run.Issues.clock.bind fun now =>
      Run.Issues.transact (Jobs.insertEvent_aside _ _ _ _ _ _).tracks).ignored
  | sweep now =>
    have heach : ∀ (r : SweepReport) (jobs : List Job), (Sweep.failEach now.timestamp r jobs).Issues
        fun _ _ t => t.Keeps (Store.Tracks l id sign renewal) := by
      intro r jobs
      induction jobs generalizing r with
      | nil => exact Run.Issues.pure r
      | cons job rest ih =>
        exact (Run.Issues.transact (Sweep.failJob_tracks job _)).bind fun _ => ih _
    exact ((Run.Issues.transact (hlook (Jobs.listStale_readOnly _))).bind fun jobs =>
      heach _ jobs).ignored

end Acts

/-! ### The sweep and one job -/

namespace Sweep
variable {stamp : String}

/-- A job on the list is failed, unless it has ended. -/
theorem failJob_wp {s : Store} (hs : s.Sound) (job : Job) :
    (failJob job stamp).wp (fun o s' => s'.Sound ∧
      s'.jobs = (Jobs.changed s job.id stamp (.failed (message job))).jobs ∧
      ((∃ r ∈ s.jobs, Jobs.isOpen job.id r = true) → o.isSome = true)) (fun _ => True) s := by
  let s₁ := Jobs.changed s job.id stamp (.failed (message job))
  have hs₁ : s₁.Sound := hs.changeJob _ _ _
  unfold failJob
  rw [wp_bind, wp_widen]
  refine (Jobs.statement_wp hs.apart (.failed (message job)) job.id stamp).mpr ?_
  have hmade : (∃ r ∈ s.jobs, Jobs.isOpen job.id r = true) →
      0 < (s.jobs.filter (Jobs.isOpen job.id)).length := fun ⟨r, hr, hopen⟩ =>
    List.length_pos_of_mem (List.mem_filter.mpr ⟨hr, hopen⟩)
  split
  case isTrue hzero =>
    refine ⟨hs₁, rfl, fun hopen => ?_⟩
    have := hmade hopen
    simp only [beq_iff_eq] at hzero
    omega
  case isFalse =>
    -- The rest writes neither a job nor what the rules look at.
    rw [wp_bind, wp_widen]
    refine wp_mono ((Jobs.insertEvent_aside _ _ _ _ _ _).wp s₁) (fun _ s₂ hsame => ?_) fun _ _ =>
      trivial
    have hs₂ : s₂.Sound := hs₁.of_same hsame.1 hsame.2
    cases job.documentId with
    | none => exact ⟨hs₂, hsame.2, fun _ => rfl⟩
    | some documentId =>
      simp only [Documents.markFailed, Documents.changeFrom, wp_bind, wp_widen, wp_store, wp_modify,
        wp_pure]
      exact ⟨hs₂.changeDocuments fun _ => rfl, hsame.2, fun _ => rfl⟩

variable {r₀ : JobRow}

/-- A row that no job on the list is open with stays, and the report grows by jobs on the list. -/
theorem failEach_keeps {w : Surroundings Unit} (r₀ : JobRow) (report : SweepReport) {jobs : List Job}
    (hclosed : ∀ job ∈ jobs, Jobs.isOpen job.id r₀ = false) :
    (failEach stamp report jobs).Takes w (fun _ => True) (fun s => s.Sound ∧ r₀ ∈ s.jobs)
      (fun out s => r₀ ∈ s.jobs ∧ report.failedJobs ⊆ out.failedJobs ∧
        ∀ id ∈ out.failedJobs, id ∈ report.failedJobs ∨ ∃ job ∈ jobs, job.id = id)
      fun _ s => r₀ ∈ s.jobs := by
  induction jobs generalizing report with
  | nil => exact .pure fun s hs => ⟨hs.2, List.Subset.refl _, fun id hid => .inl hid⟩
  | cons job rest ih =>
    refine .bind (R := fun _ s => s.Sound ∧ r₀ ∈ s.jobs) (.transact fun s hs => ?_) fun o => ?_
    · refine wp_mono (failJob_wp hs.1 job) (fun o s' h => ⟨trivial, h.1, ?_⟩) fun _ _ => hs.2
      rw [h.2.1]
      exact mem_changeWhere.mpr ⟨r₀, hs.2, if_neg (by simp [hclosed job List.mem_cons_self])⟩
    · have hnoted : report.failedJobs ⊆ (noted report job o).failedJobs ∧
          ∀ id ∈ (noted report job o).failedJobs, id ∈ report.failedJobs ∨ job.id = id := by
        cases o with
        | none => exact ⟨List.Subset.refl _, fun id hid => .inl hid⟩
        | some failed =>
          refine ⟨List.subset_append_left _ _, fun id hid => ?_⟩
          exact (List.mem_append.mp hid).imp_right fun hnew => (List.mem_singleton.mp hnew).symm
      refine (ih (noted report job o) fun j hj => hclosed j (List.mem_cons_of_mem _ hj)).conseq
        (fun _ hs => hs) (fun out s h => ⟨h.1, List.Subset.trans hnoted.1 h.2.1, fun id hid => ?_⟩)
        fun _ _ h => h
      rcases h.2.2 id hid with hbefore | ⟨j, hj, hid⟩
      · exact (hnoted.2 id hbefore).imp_right fun heq => ⟨job, List.mem_cons_self, heq⟩
      · exact .inr ⟨j, List.mem_cons_of_mem _ hj, hid⟩

/-- An open job on the list is failed and reported. -/
theorem failEach_fails {w : Surroundings Unit} (report : SweepReport) {jobs : List Job}
    (hlisted : ∃ job ∈ jobs, job.id = r₀.id) (hactive : r₀.isActive = true) :
    (failEach stamp report jobs).Takes w (fun _ => True) (fun s => s.Sound ∧ r₀ ∈ s.jobs)
      (fun out s => r₀.id ∈ out.failedJobs ∧ ∃ r ∈ s.jobs, r.id = r₀.id ∧ r.status = .failed)
      fun _ _ => True := by
  induction jobs generalizing report with
  | nil =>
    obtain ⟨job, hjob, -⟩ := hlisted
    cases hjob
  | cons job rest ih =>
    by_cases hown : job.id = r₀.id
    · -- From here on the row is that of a job that has ended.
      let r₁ := (Jobs.Change.failed (message job)).apply stamp r₀
      have hid : r₁.id = r₀.id := Jobs.Change.apply_id _ _ _
      have hopen : Jobs.isOpen job.id r₀ = true := Jobs.isOpen_iff.mpr ⟨hown.symm, hactive⟩
      refine .bind (R := fun o s => o.isSome = true ∧ s.Sound ∧ r₁ ∈ s.jobs)
        (.transact fun s hs => ?_) fun o => ?_
      · refine wp_mono (failJob_wp hs.1 job) (fun o s' h => ⟨trivial, h.2.2 ⟨r₀, hs.2, hopen⟩, h.1, ?_⟩)
          fun _ _ => trivial
        rw [h.2.1]
        exact mem_changeWhere.mpr ⟨r₀, hs.2, if_pos hopen⟩
      · refine .learn (fun s hs => hs.1) fun hsome => ?_
        obtain ⟨failed, rfl⟩ := Option.isSome_iff_exists.mp hsome
        refine (failEach_keeps r₁ _ fun j _ => ?_).conseq (fun s hs => hs.2)
          (fun out s h => ⟨h.2.1 ?_, r₁, h.1, hid, rfl⟩) fun _ _ _ => trivial
        · exact Bool.eq_false_iff.mpr fun h => by cases (Jobs.isOpen_iff.mp h).2
        · exact List.mem_append_right _ (List.mem_singleton.mpr hown.symm)
    · have hrest : ∃ j ∈ rest, j.id = r₀.id := by
        obtain ⟨j, hj, hid⟩ := hlisted
        rcases List.mem_cons.mp hj with rfl | hj
        · exact absurd hid hown
        · exact ⟨j, hj, hid⟩
      refine .bind (R := fun _ s => s.Sound ∧ r₀ ∈ s.jobs) (.transact fun s hs => ?_) fun o =>
        ih _ hrest
      refine wp_mono (failJob_wp hs.1 job) (fun o s' h => ⟨trivial, h.1, ?_⟩) fun _ _ => trivial
      rw [h.2.1]
      exact mem_changeWhere.mpr ⟨r₀, hs.2, if_neg fun hopen => hown (Jobs.isOpen_iff.mp hopen).1.symm⟩

/-- The open jobs whose deadline lies before a time, as they are listed. -/
theorem listStale_run (s : Store) (now : String) :
    (Jobs.listStale now).run s =
      (((s.jobs.filter (Jobs.JobRow.isStale now)).mergeSort Jobs.staleBefore).mapM JobRow.read, s) := by
  rw [← wp_eq_run]
  unfold Jobs.listStale
  rw [wp_bind, wp_store, wp_ofExcept]
  generalize List.mapM JobRow.read _ = outcome
  exact ⟨fun _ h => by rw [h], fun _ h => by rw [h]⟩

theorem listed_iff {s : Store} (hs : s.Sound) (hr₀ : r₀ ∈ s.jobs) {now : String}
    {jobs : List Job} (h : ((Jobs.listStale now).run s).1 = .ok jobs) :
    (∃ job ∈ jobs, job.id = r₀.id) ↔ Jobs.JobRow.isStale now r₀ = true := by
  rw [listStale_run] at h
  have hread := mapM_eq_ok.mp h
  have hrows : ∀ {r}, r ∈ (s.jobs.filter (Jobs.JobRow.isStale now)).mergeSort Jobs.staleBefore ↔
      r ∈ s.jobs ∧ Jobs.JobRow.isStale now r = true := by
    intro r
    rw [List.mem_mergeSort, List.mem_filter]
  constructor
  · rintro ⟨job, hjob, hid⟩
    obtain ⟨r, hr, hshows⟩ := exists_of_mem_forall₂ hread hjob
    obtain rfl := hs.job_unique (hrows.mp hr).1 hr₀
      ((JobRow.shows_of_read hshows).id.symm.trans hid)
    exact (hrows.mp hr).2
  · intro hstale
    have hflip := List.Forall₂.flip (R := fun job r => JobRow.read r = .ok job) hread
    obtain ⟨job, hjob, hshows⟩ := exists_of_mem_forall₂ hflip (hrows.mpr ⟨hr₀, hstale⟩)
    exact ⟨job, hjob, (JobRow.shows_of_read hshows).id⟩

/-- An open job is swept if its deadline lies before the time of the sweep, and only then. -/
theorem run_takes {s : Store} (hs : s.Sound) (hr₀ : r₀ ∈ s.jobs) (hactive : r₀.isActive = true)
    {deadline : String} (hdeadline : r₀.timeoutAt = some deadline) (now : Instant) :
    (run now).Takes .free (fun _ => True) (· = s)
      (fun report s' => (¬ deadline < now.timestamp → r₀ ∈ s'.jobs ∧ r₀.id ∉ report.failedJobs) ∧
        (deadline < now.timestamp → r₀.id ∈ report.failedJobs ∧
          ∃ r ∈ s'.jobs, r.id = r₀.id ∧ r.status = .failed))
      fun _ s' => ¬ deadline < now.timestamp → r₀ ∈ s'.jobs := by
  have hstale : Jobs.JobRow.isStale now.timestamp r₀ = true ↔ deadline < now.timestamp := by
    simp [Jobs.JobRow.isStale, hactive, hdeadline]
  refine .bind (R := fun jobs s' => s' = s ∧
    ((∃ job ∈ jobs, job.id = r₀.id) ↔ deadline < now.timestamp)) (.transact ?_) fun jobs => ?_
  · rintro s' rfl
    refine (wp_iff_run _).mpr ⟨fun jobs hjobs => ⟨trivial, ?_, ?_⟩, fun e _ _ => hr₀⟩
    · exact (Jobs.listStale_readOnly _ s').run rfl
    · exact (listed_iff hs hr₀ hjobs).trans hstale
  · refine .learn (fun s' h => h.2) fun hlisted => ?_
    by_cases hdue : deadline < now.timestamp
    · refine (failEach_fails _ (hlisted.mpr hdue) hactive).conseq
        (fun s' h => h.1 ▸ ⟨hs, hr₀⟩) (fun report s' h => ⟨fun hnot => absurd hdue hnot, fun _ => h⟩)
        fun _ _ _ hnot => absurd hdue hnot
    · have hclosed : ∀ job ∈ jobs, Jobs.isOpen job.id r₀ = false := fun job hjob =>
        Bool.eq_false_iff.mpr fun hopen =>
          hdue (hlisted.mp ⟨job, hjob, (Jobs.isOpen_iff.mp hopen).1.symm⟩)
      refine (failEach_keeps r₀ _ hclosed).conseq (fun s' h => h.1 ▸ ⟨hs, hr₀⟩)
        (fun report s' h => ⟨fun _ => ⟨h.1, fun hmem => ?_⟩, fun hd => absurd hd hdue⟩)
        fun _ _ h _ => h
      rcases h.2.2 _ hmem with hempty | hjob
      · cases hempty
      · exact hdue (hlisted.mp hjob)

end Sweep
/-! ### The life of a job in the store -/

namespace Ledger
variable {l : Ledger} {id : String}

/-- The clock answers, and it is remembered what it has told. -/
theorem leads_clock {α ε : Type} {m : Moment Instant} {k : Instant → Run ε α}
    {Q : α → Moment Instant → Prop} {E : ε → Moment Instant → Prop}
    (h : ∀ now : Instant, now.nanos < 1000000000 →
      Run.Leads (Surroundings.ticking.keeping fun _ => True) Q E (k now) (m.1, now)) :
    Run.Leads (Surroundings.ticking.keeping fun _ => True) Q E (Run.clock >>= k) m :=
  Surroundings.leads_ask rfl fun now x hticks => by
    obtain ⟨-, hnanos, hx⟩ := hticks
    exact hx ▸ h now hnanos

/-- What a run among ticking surroundings leads to. -/
theorem ticking_runs {α ε : Type} {r : Run ε α} {m m' : Moment Instant} {o : Except ε α}
    {Q : α → Moment Instant → Prop} {E : ε → Moment Instant → Prop}
    (h : Run.Leads (Surroundings.ticking.keeping fun _ => True) Q E r m)
    (hruns : Surroundings.ticking.Runs r.run m o m') : Either Q E o m' :=
  ((Surroundings.leads_iff r.run m trivial).mp h).2 o m' hruns

/-- The row of a job that was just created is marked. -/
theorem tracks_created (l : Ledger) (id : String) {s : Store} (hs : s.Sound) (n : NewJob) (now : Instant) :
    (Jobs.insert (n.toJob id now l.heartbeat)).wp (fun _ s' => s'.Tracks l id now now)
      (fun _ => True) s := by
  refine (Jobs.insertRow_wp _).mpr ?_
  split
  case isTrue => trivial
  case isFalse hclash =>
    split
    case isTrue => trivial
    case isFalse hnew =>
      split
      case isFalse => trivial
      case isTrue hrefers =>
        refine ⟨hs.addJob _ (Bool.not_eq_true _ ▸ hclash) (Bool.not_eq_true _ ▸ hnew) hrefers, ?_, ?_⟩
        · exact Store.hasJob_iff.mpr ⟨_, List.mem_append_right _ (List.mem_singleton_self _), rfl⟩
        · intro r hr hid _
          rcases List.mem_append.mp hr with hr | hr
          · exact absurd (Store.hasJob_iff.mpr ⟨r, hr, hid⟩) hnew
          · rw [List.mem_singleton.mp hr]
            exact ⟨rfl, rfl⟩

/-! One lemma for each beginning of a life, and one for a demand. -/

section
variable {n : NewJob} {s : Store} {t : Instant} {job : Job} {m m' : Moment Instant}

theorem enqueue_tracks (hs : s.Sound)
    (hruns : Surroundings.ticking.Runs (l.enqueue n).run (s, t) (.ok job) m) (hid : job.id = id) :
    m.1.Tracks l id m.2 m.2 ∧ m.2.nanos < 1000000000 := by
  refine ticking_runs (Q := fun job m =>
    job.id = id → m.1.Tracks l id m.2 m.2 ∧ m.2.nanos < 1000000000)
    (E := fun _ _ => True) ?_ hruns hid
  refine Surroundings.leads_ask rfl fun jobId _ _ => leads_clock fun now hnanos => ?_
  refine (Run.Leads.bind _ _).mpr ((Run.Leads.transact _).mpr ?_)
  refine (Surroundings.asking_transact _).mpr ?_
  refine wp_mono (tracks_created l jobId hs n now) (fun _ s' hs' => ?_) fun _ _ => trivial
  exact ⟨fun _ => trivial, fun heq => heq ▸ ⟨hs', hnanos⟩⟩

theorem acquire_tracks (hs : s.Sound)
    (hruns : Surroundings.ticking.Runs (l.acquire n).run (s, t) (.ok (.acquired job)) m)
    (hid : job.id = id) : m.1.Tracks l id m.2 m.2 ∧ m.2.nanos < 1000000000 := by
  refine ticking_runs (Q := fun out m =>
    out = .acquired job → m.1.Tracks l id m.2 m.2 ∧ m.2.nanos < 1000000000)
    (E := fun _ _ => True) ?_ hruns rfl
  refine Surroundings.leads_ask rfl fun jobId _ _ => leads_clock fun now hnanos => ?_
  refine (Run.Leads.transact _).mpr ((Surroundings.asking_transact _).mpr ?_)
  unfold tryAcquire
  rw [wp_bind, wp_attempt]
  refine wp_mono (tracks_created l jobId hs n now) (fun _ s' hs' => ?_) fun e _ => ?_
  · refine ⟨fun _ => trivial, fun heq => ?_⟩
    obtain rfl : n.toJob jobId now l.heartbeat = job := LockOutcome.acquired.inj heq
    exact hid ▸ ⟨hs', hnanos⟩
  · dsimp only
    split
    · exact ⟨fun _ => trivial, nofun⟩
    · trivial

/-- A demand that is met marks the row anew; one that is not changes nothing. -/
theorem demand_tracks {sign renewal : Instant} (h : m.1.Tracks l id sign renewal) {jobId : String}
    {d : Demand} {o : Except JobError Unit}
    (hruns : Surroundings.ticking.Runs (d.run l jobId).run m o m') :
    Either (fun _ m' => m'.1.Tracks l id (if jobId == id && d.isSign then m'.2 else sign)
        (if jobId == id && d.renews then m'.2 else renewal) ∧ m'.2.nanos < 1000000000)
      (fun _ m' => m'.1.Tracks l id sign renewal) o m' := by
  refine ticking_runs ?_ hruns
  rw [Demand.run_eq]
  refine leads_clock fun now hnanos => ?_
  refine (Run.Leads.transact _).mpr ((Surroundings.asking_transact _).mpr ?_)
  refine Jobs.guarded_wp h.sound.apart _ jobId _ (fun _ => ?_) fun _ e => h
  exact ⟨fun _ => trivial, h.demand jobId d now, hnanos⟩

end

/-- At every moment of its life the row of a job tells its last sign of life and its deadline. -/
theorem Life.tracks {m : Moment Instant} {sign renewal : Instant} (h : l.Life id m sign renewal) :
    m.1.Tracks l id sign renewal ∧ renewal.nanos < 1000000000 := by
  induction h with
  | enqueued hs hruns hid => exact enqueue_tracks hs hruns hid
  | acquired hs hruns hid => exact acquire_tracks hs hruns hid
  | @demanded m m' sign renewal jobId d o _ hruns ih =>
    have hboth := demand_tracks ih.1 hruns
    cases o with
    | ok a =>
      obtain ⟨hmarked, hnanos⟩ := hboth
      refine ⟨by simpa [Except.isOk, Except.toBool] using hmarked, ?_⟩
      split
      · exact hnanos
      · exact ih.2
    | error e =>
      have hsame : m'.1.Tracks l id sign renewal := hboth
      exact ⟨by simpa [Except.isOk, Except.toBool] using hsame,
        by simpa [Except.isOk, Except.toBool] using ih.2⟩
  | @other m m' sign renewal a _ hruns ih =>
    have hkept := (a.keeps (l := l)).leads (w := .ticking) (J := fun _ => True) (fun h => h)
      (fun _ _ => trivial) m ih.1
    exact ⟨((Surroundings.leads_iff _ m trivial).mp hkept).2 () m' hruns, ih.2⟩

end Ledger

/-- At every moment in the life of a job, as long as it has not ended, its row tells the last sign
of life, and the deadline is the renewal and the span of the ledger after that. No sweep at a time
up to the deadline fails the job, if the year of the deadline has four digits; and every sweep that
comes to its end later than that, if its own year has, fails it. -/
theorem sweep_spares_renewed {l : Ledger} {id : String} {m : Moment Instant}
    {sign renewal : Instant} (h : l.Life id m sign renewal) :
    let deadline := renewal.after l.heartbeat
    (∃ r ∈ m.1.jobs, r.id = id) ∧
    ∀ r ∈ m.1.jobs, r.id = id → r.isActive = true →
      r.heartbeatAt = some sign.timestamp ∧ r.timeoutAt = some deadline.timestamp ∧
      ∀ (now : Instant) (o : Except JobError SweepReport) (s' : Store), now.Proper → deadline.Dated →
        Surroundings.free.Runs (Sweep.run now).run (m.1, ()) o (s', ()) →
        (deadline.before now = false →
          r ∈ s'.jobs ∧ ∀ report, o = .ok report → id ∉ report.failedJobs) ∧
        (deadline.Precedes now → now.Dated → ∀ report, o = .ok report →
          id ∈ report.failedJobs ∧ ∃ r' ∈ s'.jobs, r'.id = id ∧ r'.status = .failed) := by
  intro deadline
  obtain ⟨htracks, hnanos⟩ := h.tracks
  refine ⟨Store.hasJob_iff.mp htracks.there, fun r hr hid hactive => ?_⟩
  obtain ⟨hheartbeat, hdeadline⟩ := htracks.marks r hr hid hactive
  refine ⟨hheartbeat, hdeadline, fun now o s' hnow hdated hruns => ?_⟩
  have hproper : deadline.Proper := .inl hnanos
  have hends := ((Sweep.run_takes htracks.sound hr hactive hdeadline now).runs rfl trivial ()).2 o
    (s', ()) hruns
  refine ⟨fun hbefore => ?_, fun hpast hnowDated report hreport => ?_⟩
  · have hnot := Instant.timestamp_le hnow hproper hdated hbefore
    cases o with
    | ok report => exact ⟨(hends.1 hnot).1, fun _ heq => by cases heq; exact hid ▸ (hends.1 hnot).2⟩
    | error e => exact ⟨hends hnot, nofun⟩
  · have hdue := (Instant.timestamp_lt_iff hproper hnow hdated hnowDated).mpr hpast
    subst hreport
    exact hid ▸ hends.2 hdue

/-! ### A job that is alive -/

namespace Renewal

/-- A ledger whose deadlines lie a minute after a renewal. -/
def ledger : Ledger := ⟨.minute⟩

/-- A second after the beginning of time. -/
def second (n : Int) : Instant := ⟨n, 0⟩

/-- The life of a job begins when it is queued, whatever the ledger. -/
theorem enqueued_life (l : Ledger) : l.Life "j"
    (((Jobs.insert ((detachedJob (.object [])).toJob "j" (second 0) l.heartbeat)).run Store.empty).2,
      second 0) (second 0) (second 0) :=
  .enqueued (n := detachedJob (.object [])) (t := second 0) .empty
    ⟨"j", (Store.empty, second 0), ⟨rfl, rfl⟩, second 0, (Store.empty, second 0),
      ⟨rfl, rfl, by decide, rfl⟩, .ok (), (_, second 0), ⟨rfl, rfl⟩, rfl, rfl⟩ rfl

/-- A job that was just queued. -/
def queued : Store := queuedStore (.object [])

/-- The job has given a sign of life after fifty seconds. -/
def alive : Store := ((ledger.alive "j" (second 50)).run queued).2

/-- The job has made progress after fifty seconds. -/
def progressed : Store := ((Ledger.progressed "j" 1 2 "saving" (second 50)).run queued).2

theorem queued_life : ledger.Life "j" (queued, second 0) (second 0) (second 0) :=
  enqueued_life ledger

theorem alive_life : ledger.Life "j" (alive, second 50) (second 50) (second 50) :=
  .demanded "j" .alive queued_life
    ⟨second 50, (queued, second 50), ⟨rfl, rfl, by decide, rfl⟩, .ok (), (alive, second 50),
      ⟨rfl, rfl⟩, rfl, rfl⟩

theorem progressed_life : ledger.Life "j" (progressed, second 50) (second 50) (second 0) :=
  .demanded "j" (.progressed 1 2 "saving") queued_life
    ⟨second 50, (queued, second 50), ⟨rfl, rfl, by decide, rfl⟩, .ok (), (progressed, second 50),
      ⟨rfl, rfl⟩, rfl, rfl⟩

/-- The row of the job after its progress. -/
def row : JobRow :=
  (Jobs.Change.progressed 1 2 (Progress.percent 1 2) "saving").apply (second 50).timestamp
    (Jobs.rowOf ((detachedJob (.object [])).toJob "j" (second 0) ledger.heartbeat) .queued)

theorem progressed_jobs : progressed.jobs = [row] := rfl

/-- A sweep a hundred seconds after the beginning lists the job. -/
theorem progressed_listed : ∃ job : Job,
    (Jobs.listStale (second 100).timestamp).run progressed = (.ok [job], progressed) ∧
      job.id = "j" ∧ job.documentId = none := by
  have hstale : Jobs.JobRow.isStale (second 100).timestamp row = true := by decide
  rw [Sweep.listStale_run, progressed_jobs, List.filter_cons_of_pos hstale, List.filter_nil,
    List.mergeSort_singleton]
  exact ⟨_, rfl, rfl, rfl⟩

end Renewal

/-- A job that has given a sign of life after fifty seconds, a minute before its deadline, is not
failed by a sweep after a hundred. -/
theorem sweep_spares_renewed_alive :
    Renewal.ledger.Life "j" (Renewal.alive, Renewal.second 50) (.mk 50 0) (.mk 50 0) ∧
      ∃ r ∈ Renewal.alive.jobs, r.id = "j" ∧ r.isActive = true ∧
        r.timeoutAt = some "1970-01-01T00:01:50.000Z" ∧
        ∀ o s', Surroundings.free.Runs (Sweep.run (Renewal.second 100)).run (Renewal.alive, ()) o
          (s', ()) → r ∈ s'.jobs := by
  obtain ⟨⟨r, hr, hid⟩, hmarked⟩ := sweep_spares_renewed Renewal.alive_life
  have hactive : r.isActive = true := by
    rw [List.mem_singleton.mp (show r ∈ [_] from hr)]
    rfl
  obtain ⟨-, hdeadline, hswept⟩ := hmarked r hr hid hactive
  refine ⟨Renewal.alive_life, r, hr, hid, hactive, hdeadline.trans (by decide), fun o s' hruns => ?_⟩
  exact ((hswept (Renewal.second 100) o s' (.inl (by decide)) (by unfold Instant.Dated; decide)
    hruns).1 (by decide)).1

/-- A job that has made progress after fifty seconds is failed by a sweep after a hundred, although
that is no more than a minute later. -/
theorem sweep_fails_progressed :
    Renewal.ledger.Life "j" (Renewal.progressed, Renewal.second 50) (.mk 50 0) (.mk 0 0) ∧
      (Renewal.progressed.jobs.map fun r => (r.isActive, r.heartbeatAt, r.timeoutAt)) =
        [(true, some "1970-01-01T00:00:50.000Z", some "1970-01-01T00:01:00.000Z")] ∧
      ((Instant.mk 50 0).after Renewal.ledger.heartbeat).before (Renewal.second 100) = false ∧
      ∃ s', Surroundings.free.Runs (Sweep.run (Renewal.second 100)).run (Renewal.progressed, ())
        (.ok ⟨["j"], []⟩) (s', ()) := by
  refine ⟨Renewal.progressed_life, by decide, by decide, ?_⟩
  obtain ⟨⟨id, ownerId, documentId⟩, hlisted, hid, hdoc⟩ := Renewal.progressed_listed
  obtain rfl : id = "j" := hid
  obtain rfl : documentId = none := hdoc
  exact ⟨_, .ok [_], (Renewal.progressed, ()), ⟨hlisted, rfl⟩, .ok (some false), (_, ()),
    ⟨rfl, rfl⟩, rfl, rfl⟩

end Quire
