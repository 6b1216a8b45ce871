import Quire.Proofs.Job.Deadlines
import Quire.Proofs.Job.Lock

/-! What a sweep makes of a store.

The jobs that are overdue are listed first and then failed one by one, each with what has become of
it by then. Nothing of that shows in the end: when some of the listed jobs are done, the store is
that of the beginning with these jobs and their documents failed, and no job that is still to come
has been touched. So a sweep is one change of the store at once, a second one finds nothing, and
sweeping early and again later comes to what sweeping later does. -/
namespace Quire
open Txn

section
variable {stamp : String}

/-! ### Jobs that are overdue -/

/-- The job has not ended, and its deadline lies before a time. -/
def JobRow.Overdue (stamp : String) (r : JobRow) : Prop :=
  (r.status = .queued ∨ r.status = .running ∨ r.status = .polling) ∧
    ∃ deadline, r.timeoutAt = some deadline ∧ deadline < stamp

theorem JobRow.isActive_iff {r : JobRow} :
    r.isActive = true ↔ r.status = .queued ∨ r.status = .running ∨ r.status = .polling := by
  unfold isActive
  cases r.status <;> simp [JobStatus.isTerminal]

theorem JobRow.isStale_iff {r : JobRow} : Jobs.JobRow.isStale stamp r = true ↔ r.Overdue stamp := by
  unfold Jobs.JobRow.isStale Overdue
  rw [Bool.and_eq_true, isActive_iff]
  cases r.timeoutAt <;> simp

instance (r : JobRow) : Decidable (r.Overdue stamp) := decidable_of_iff _ JobRow.isStale_iff

theorem JobRow.Overdue.isActive {r : JobRow} (h : r.Overdue stamp) : r.isActive = true :=
  isActive_iff.mpr h.1

/-- A deadline that lies before a time lies before every later one. -/
theorem JobRow.Overdue.later {r : JobRow} (h : r.Overdue stamp) {later : String}
    (hlater : stamp ≤ later) : r.Overdue later := by
  obtain ⟨hopen, deadline, hdeadline, hdue⟩ := h
  exact ⟨hopen, deadline, hdeadline, Std.lt_of_lt_of_le hdue hlater⟩

/-- What an overdue job is told. -/
def JobRow.timeout (r : JobRow) : String :=
  "Timed out: no heartbeat since " ++ r.heartbeatAt.getD r.createdAt

/-- The row of a job that a sweep has failed. -/
def JobRow.timedOut (stamp : String) (r : JobRow) : JobRow :=
  { r with
    status := .failed
    errorMessage := some r.timeout
    updatedAt := stamp
    completedAt := some stamp }

/-- The document of such a job. -/
def DocumentRow.lost (stamp : String) (d : DocumentRow) : DocumentRow :=
  { d with status := .failed, updatedAt := stamp }

/-- The document is processing, and its job is overdue. -/
def Store.Loses (stamp : String) (s : Store) (d : DocumentRow) : Prop :=
  d.status = .processing ∧ ∃ r ∈ s.jobs, r.Overdue stamp ∧ r.documentId = some d.id

instance (s : Store) (d : DocumentRow) : Decidable (s.Loses stamp d) :=
  inferInstanceAs (Decidable (_ ∧ _))

/-- What a sweep makes of a store, and what it reports. -/
structure Store.SweptTo (stamp : String) (s : Store) (report : SweepReport) (s' : Store) : Prop where
  jobs : s'.jobs = s.jobs.map fun r => if r.Overdue stamp then r.timedOut stamp else r
  documents : s'.documents = s.documents.map fun d => if s.Loses stamp d then d.lost stamp else d
  others : s'.pages = s.pages ∧ s'.versions = s.versions ∧ s'.artifacts = s.artifacts ∧
    s'.pageSeq = s.pageSeq
  /-- Each of the jobs is reported and told once, in the order of the deadlines. -/
  told : ∃ rows : List JobRow, rows.Perm (s.jobs.filter fun r => r.Overdue stamp) ∧
    (rows.Pairwise fun a b => ∀ x y, a.timeoutAt = some x → b.timeoutAt = some y → x ≤ y) ∧
    report.failedJobs = rows.map (·.id) ∧
    s'.events = s.events ++ rows.mapIdx fun i r =>
      ⟨Jobs.lastEventId s + 1 + i, r.id, .error, some "sweep", r.timeout, none, stamp⟩
  once : report.failedJobs.Nodup
  documentsOnce : report.failedDocuments.Nodup
  documentsTold : ∀ id, id ∈ report.failedDocuments ↔ ∃ d ∈ s.documents, d.id = id ∧ s.Loses stamp d

/-! ### Some of the jobs are failed -/

/-- The store after some of its jobs were failed one by one. -/
def Store.failing (stamp : String) (s : Store) (done : List JobRow) : Store :=
  { s with
    jobs := changeWhere (fun r => done.any (·.id == r.id)) (·.timedOut stamp) s.jobs
    documents :=
      changeWhere (fun d => d.status == .processing && done.any (·.documentId == some d.id))
        (·.lost stamp) s.documents
    events := s.events ++ done.mapIdx fun i r =>
      ⟨Jobs.lastEventId s + 1 + i, r.id, .error, some "sweep", r.timeout, none, stamp⟩
    eventSeq := if done.isEmpty then s.eventSeq else Jobs.lastEventId s + done.length }

/-- The document that is lost with a job. -/
def Store.lostWith (s : Store) (r : JobRow) : Option String :=
  r.documentId.filter fun id => s.documents.any fun d => d.id == id && d.status == .processing

/-- What is reported of these jobs. -/
def Store.reportOf (s : Store) (done : List JobRow) : SweepReport :=
  ⟨done.map (·.id), done.filterMap s.lostWith⟩

/-- Different jobs of a store that have not ended. -/
structure Store.Lists (s : Store) (rows : List JobRow) : Prop where
  open_ : ∀ r ∈ rows, r ∈ s.jobs ∧ r.isActive = true
  apart : (rows.map (·.id)).Nodup

end

/-- What is there already is not counted. -/
theorem foldl_of_fixed {α κ : Type} {g : κ → α → κ} {rows : List α} {k : κ}
    (h : ∀ a ∈ rows, g k a = k) : rows.foldl g k = k := by
  induction rows with
  | nil => rfl
  | cons a rest ih =>
    rw [List.foldl_cons, h a List.mem_cons_self]
    exact ih fun b hb => h b (List.mem_cons_of_mem _ hb)

namespace Store.Lists
variable {stamp : String} {s : Store} {done rest : List JobRow} {r : JobRow}

theorem append_left (h : s.Lists (done ++ rest)) : s.Lists done :=
  ⟨fun x hx => h.open_ x (List.mem_append_left _ hx),
    (List.nodup_append.mp (List.map_append ▸ h.apart)).1⟩

/-- The next job is none of those that are done. -/
theorem fresh (h : s.Lists (done ++ [r])) : ∀ x ∈ done, x.id ≠ r.id := by
  have hsplit := h.apart
  rw [List.map_append, List.nodup_append] at hsplit
  exact fun x hx => hsplit.2.2 _ (List.mem_map_of_mem hx) _ (List.mem_singleton_self _)

/-- Nor has one of those its document. -/
theorem document_fresh (hs : s.Sound) (h : s.Lists (done ++ [r])) {d : String}
    (hd : r.documentId = some d) : ∀ x ∈ done, x.documentId ≠ some d := by
  intro x hx hxd
  obtain ⟨hmem, hactive⟩ := h.open_ x (List.mem_append_left _ hx)
  obtain ⟨hmem', hactive'⟩ := h.open_ r (List.mem_append_right _ (List.mem_singleton_self _))
  exact h.fresh x hx (congrArg JobRow.id (hs.active_unique hmem hmem' hactive hactive' hxd hd))

end Store.Lists

namespace Store
variable {stamp : String} {s : Store} {done rest : List JobRow} {r : JobRow}

theorem failing_nil : s.failing stamp [] = s := by
  have hjobs : changeWhere (fun r : JobRow => ([] : List JobRow).any (·.id == r.id))
      (·.timedOut stamp) s.jobs = s.jobs := changeWhere_none fun _ _ => rfl
  have hdocuments : changeWhere (fun d : DocumentRow => d.status == .processing &&
      ([] : List JobRow).any (·.documentId == some d.id)) (·.lost stamp) s.documents =
      s.documents := changeWhere_none fun _ _ => Bool.and_false _
  unfold failing
  rw [hjobs, hdocuments, List.mapIdx_nil, List.append_nil]
  rfl

theorem Sound.failing (hs : s.Sound) (stamp : String) (done : List JobRow) :
    (s.failing stamp done).Sound := by
  have hdocuments : (s.failing stamp done).documents.map (·.id) = s.documents.map (·.id) :=
    map_changeWhere fun _ _ _ => rfl
  have hjobs : (s.failing stamp done).jobs.map (·.id) = s.jobs.map (·.id) :=
    map_changeWhere fun _ _ _ => rfl
  refine ⟨hdocuments ▸ hs.documentIds, hjobs ▸ hs.jobIds, ?_, fun r' hr' d hd => ?_⟩
  · have hone : ∀ {a b : JobRow}, a.Apart b →
        (if done.any (·.id == a.id) then a.timedOut stamp else a).Apart b := by
      intro a b hab
      split
      · exact hab.of_le rfl fun h => nomatch h
      · exact hab
    exact hs.apart.map _ fun a b hab => (hone (hone hab).symm).symm
  · obtain ⟨r, hr, rfl⟩ := mem_changeWhere.mp hr'
    rw [hasDocument_eq, hdocuments, ← hasDocument_eq]
    refine hs.refers r hr d ?_
    split at hd
    · exact hd
    · exact hd

/-- A job that is not among them is as it was. -/
theorem mem_failing_jobs (hr : r ∈ s.jobs) (hfresh : ∀ x ∈ done, x.id ≠ r.id) :
    r ∈ (s.failing stamp done).jobs :=
  mem_changeWhere.mpr ⟨r, hr, if_neg (by simpa using hfresh)⟩

/-- The ids of the events go on from the last one. -/
theorem lastEventId_failing (s : Store) (done : List JobRow) :
    Jobs.lastEventId (s.failing stamp done) = Jobs.lastEventId s + done.length := by
  cases done with
  | nil =>
    rw [failing_nil]
    exact (Int.add_zero _).symm
  | cons r rest =>
    refine foldl_of_fixed fun e he => Int.max_eq_left ?_
    rcases List.mem_append.mp he with he | he
    · exact Int.le_trans (Jobs.le_lastEventId he) (Int.le_add_of_nonneg_right (Int.natCast_nonneg _))
    · obtain ⟨i, hi, rfl⟩ := List.mem_mapIdx.mp he
      show Jobs.lastEventId s + 1 + (i : Int) ≤ Jobs.lastEventId s + ((r :: rest).length : Int)
      omega

/-- The next job is failed as if it were the first one. -/
theorem jobs_failing (stamp : String) (hs : s.Sound) (h : s.Lists (done ++ [r])) :
    (Jobs.changed (s.failing stamp done) r.id stamp (.failed r.timeout)).jobs =
      (s.failing stamp (done ++ [r])).jobs := by
  obtain ⟨hr, hactive⟩ := h.open_ r (List.mem_append_right _ (List.mem_singleton_self _))
  have hrow : ∀ x ∈ s.jobs, Jobs.isOpen r.id x = true ↔ x.id = r.id := fun x hx =>
    ⟨fun hopen => (Jobs.isOpen_iff.mp hopen).1, fun hid =>
      Jobs.isOpen_iff.mpr ⟨hid, hs.job_unique hx hr hid ▸ hactive⟩⟩
  refine changeWhere_twice (fun x hx hopen => ?_) (fun x _ _ => ?_) fun x hx => ?_
  · obtain rfl := hs.job_unique hx hr ((hrow x hx).mp hopen)
    rfl
  · exact Bool.eq_false_iff.mpr fun hopen => nomatch (Jobs.isOpen_iff.mp hopen).2
  · have hnext : (r.id == x.id) = Jobs.isOpen r.id x := by
      rw [Bool.eq_iff_iff, beq_iff_eq, hrow x hx]
      exact eq_comm
    rw [List.any_append, List.any_cons, List.any_nil, Bool.or_false, hnext]

/-- The document of the next job is lost as if it were the first one. -/
theorem documents_failing {d : String} (hd : r.documentId = some d) :
    changeWhere (fun x => x.id == d && [DocumentStatus.processing].contains x.status)
        (fun x => { x with status := .failed, updatedAt := stamp })
        (s.failing stamp done).documents = (s.failing stamp (done ++ [r])).documents := by
  refine changeWhere_twice (fun _ _ _ => rfl) (fun x _ _ => ?_) fun x _ => ?_
  · exact Bool.and_false _
  · have hcontains : [DocumentStatus.processing].contains x.status = (x.status == .processing) :=
      Bool.or_false _
    have hnext : (r.documentId == some x.id) = (x.id == d) := by
      rw [hd, Bool.eq_iff_iff, beq_iff_eq, beq_iff_eq, Option.some_inj]
      exact eq_comm
    rw [hcontains, List.any_append, List.any_cons, List.any_nil, Bool.or_false, hnext,
      Bool.and_or_distrib_left, Bool.and_comm (x.id == d)]

theorem documents_failing_none (hd : r.documentId = none) :
    (s.failing stamp done).documents = (s.failing stamp (done ++ [r])).documents := by
  have hnext : ∀ x : DocumentRow, (done ++ [r]).any (·.documentId == some x.id) =
      done.any (·.documentId == some x.id) := fun x => by
    rw [List.any_append, List.any_cons, List.any_nil, hd]
    exact Bool.or_false _
  unfold failing
  simp only [hnext]

/-- The event of the next job comes after the others. -/
theorem failing_concat (stamp : String) (s : Store) (done : List JobRow) (r : JobRow) :
    { s.failing stamp done with
      jobs := (s.failing stamp (done ++ [r])).jobs
      documents := (s.failing stamp (done ++ [r])).documents
      events := (s.failing stamp done).events ++
        [⟨Jobs.lastEventId (s.failing stamp done) + 1, r.id, .error, some "sweep", r.timeout, none,
          stamp⟩]
      eventSeq := Jobs.lastEventId (s.failing stamp done) + 1 } =
      s.failing stamp (done ++ [r]) := by
  have hid : Jobs.lastEventId s + 1 + (done.length : Int) =
      Jobs.lastEventId (s.failing stamp done) + 1 := by
    rw [lastEventId_failing]
    omega
  have hseq : Jobs.lastEventId s + ((done ++ [r]).length : Int) =
      Jobs.lastEventId (s.failing stamp done) + 1 := by
    rw [← hid, List.length_append, List.length_singleton]
    omega
  have hsome : (done ++ [r]).isEmpty = false := by simp
  rw [failing, failing, hsome, List.mapIdx_concat, hid, hseq, ← List.append_assoc]
  rfl

/-- A document is still processing when its job comes, if it was at the beginning. -/
theorem processing_failing (hs : s.Sound) (h : s.Lists (done ++ [r])) {d : String}
    (hd : r.documentId = some d) :
    (s.failing stamp done).documents.filter (fun x =>
      x.id == d && [DocumentStatus.processing].contains x.status) =
        s.documents.filter fun x => x.id == d && [DocumentStatus.processing].contains x.status := by
  refine filter_changeWhere fun x hx => ?_
  have hother : (x.id == d) = false := by
    refine beq_eq_false_iff_ne.mpr fun hid => ?_
    obtain ⟨y, hy, hyx⟩ := List.any_eq_true.mp (Bool.and_eq_true_iff.mp hx).2
    exact h.document_fresh hs hd y hy (hid ▸ eq_of_beq hyx)
  exact ⟨by rw [hother, Bool.false_and], Bool.and_false _⟩

theorem lostWith_eq_some {d : String} : s.lostWith r = some d ↔
    r.documentId = some d ∧ ∃ x ∈ s.documents, x.id = d ∧ x.status = .processing := by
  unfold lostWith
  simp [Option.filter_eq_some_iff]

theorem isSome_lostWith {d : String} (hd : r.documentId = some d) :
    (s.lostWith r).isSome = decide (0 < (s.documents.filter fun x =>
      x.id == d && [DocumentStatus.processing].contains x.status).length) := by
  have hcontains : ∀ x : DocumentRow, [DocumentStatus.processing].contains x.status =
      (x.status == .processing) := fun x => Bool.or_false _
  rw [lostWith, hd, Option.isSome_filter, Bool.eq_iff_iff, decide_eq_true_iff,
    List.length_filter_pos_iff]
  simp

end Store

namespace Sweep
variable {stamp : String} {s : Store} {done rest : List JobRow} {r : JobRow} {job : Job}

theorem message_of_read (h : r.read = .ok job) : message job = r.timeout := by
  obtain ⟨doneSteps, -, h⟩ := bind_eq_ok.mp h
  obtain ⟨totalSteps, -, h⟩ := bind_eq_ok.mp h
  obtain ⟨percent, -, h⟩ := bind_eq_ok.mp h
  obtain ⟨params, -, h⟩ := bind_eq_ok.mp h
  obtain ⟨result, -, h⟩ := bind_eq_ok.mp h
  obtain rfl := Except.ok.inj h
  rfl

/-- The next job on the list is failed, with its document if that was processing. -/
theorem failJob_failing (hs : s.Sound) (h : s.Lists (done ++ [r])) (hread : r.read = .ok job) :
    (failJob job stamp).wp (fun o s' => o = some (s.lostWith r).isSome ∧
      s' = s.failing stamp (done ++ [r])) (fun _ => False) (s.failing stamp done) := by
  obtain ⟨hr, hactive⟩ := h.open_ r (List.mem_append_right _ (List.mem_singleton_self _))
  have hthere : r ∈ (s.failing stamp done).jobs := Store.mem_failing_jobs hr h.fresh
  have hshows := JobRow.shows_of_read hread
  have hcount : ((s.failing stamp done).jobs.filter (Jobs.isOpen r.id)).length ≠ 0 :=
    (List.length_pos_of_mem (List.mem_filter.mpr
      ⟨hthere, Jobs.isOpen_iff.mpr ⟨rfl, hactive⟩⟩)).ne'
  have hjobs := Store.jobs_failing stamp hs h
  unfold failJob
  rw [message_of_read hread, hshows.id, hshows.documentId, wp_bind, wp_widen]
  refine (Jobs.statement_wp (hs.failing stamp done).apart (.failed r.timeout) r.id stamp).mpr ?_
  rw [if_neg (by simpa using hcount), wp_bind, wp_widen]
  -- From here on the jobs are those of the store at the end.
  have hthere' : Store.hasJob (Jobs.changed (s.failing stamp done) r.id stamp (.failed r.timeout)) r.id =
      true := by
    refine Store.hasJob_iff.mpr ⟨_, mem_changeWhere.mpr ⟨r, hthere, rfl⟩, ?_⟩
    split
    · exact Jobs.Change.apply_id _ _ _
    · rfl
  unfold Jobs.insertEvent
  rw [wp_bind, wp_store, wp_bind, wp_require, wp_modify]
  refine ⟨fun _ => ?_, fun hnot => by rw [hthere'] at hnot; cases hnot⟩
  have hend := Store.failing_concat stamp s done r
  cases hd : r.documentId with
  | none =>
    have hnone : s.lostWith r = none := by rw [Store.lostWith, hd, Option.filter_none]
    refine ⟨by rw [hnone]; rfl, hend ▸ ?_⟩
    rw [← hjobs, ← Store.documents_failing_none hd]
    rfl
  | some d =>
    dsimp only
    rw [wp_bind, wp_widen]
    unfold Documents.markFailed Documents.changeFrom
    rw [wp_bind, wp_store, wp_bind, wp_modify, wp_pure, wp_pure]
    refine ⟨?_, hend ▸ ?_⟩
    · exact congrArg some ((congrArg (fun rows => decide (0 < rows.length))
        (Store.processing_failing hs h hd)).trans (Store.isSome_lostWith hd).symm)
    · rw [← hjobs, ← Store.documents_failing hd]
      rfl

theorem noted_reportOf (hread : r.read = .ok job) :
    noted (s.reportOf done) job (some (s.lostWith r).isSome) = s.reportOf (done ++ [r]) := by
  have hshows := JobRow.shows_of_read hread
  unfold noted Store.reportOf
  rw [List.map_append, List.filterMap_append, hshows.id, hshows.documentId]
  cases hlost : s.lostWith r with
  | none => simp [hlost]
  | some d =>
    obtain ⟨hd, -⟩ := Option.filter_eq_some_iff.mp hlost
    simp [hlost, hd]

/-- The jobs on the list are failed one after the other. -/
theorem failEach_failing {σ : Type} {w : Surroundings σ} (hs : s.Sound) {jobs : List Job}
    (hread : List.Forall₂ (fun r job => JobRow.read r = .ok job) rest jobs)
    (h : s.Lists (done ++ rest)) :
    (failEach stamp (s.reportOf done) jobs).Takes w (fun _ => True) (· = s.failing stamp done)
      (fun report s' => report = s.reportOf (done ++ rest) ∧ s' = s.failing stamp (done ++ rest))
      fun _ _ => False := by
  induction hread generalizing done with
  | nil => exact .pure fun s' hs' => by rw [List.append_nil]; exact ⟨rfl, hs'⟩
  | @cons r job rest jobs hr hrest ih =>
    have hsplit : done ++ r :: rest = done ++ [r] ++ rest := by rw [List.append_assoc]; rfl
    have hnext : s.Lists (done ++ [r]) := (hsplit ▸ h).append_left
    refine .bind (R := fun o s' => o = some (s.lostWith r).isSome ∧
      s' = s.failing stamp (done ++ [r])) (.transact ?_) fun o => ?_
    · rintro s' rfl
      exact wp_mono (failJob_failing hs hnext hr) (fun o s' h => ⟨trivial, h⟩) fun _ h => h.elim
    · refine .learn (fun s' h => h.1) fun ho => ?_
      subst ho
      rw [noted_reportOf hr, hsplit]
      exact (ih (hsplit ▸ h)).conseq (fun s' hs' => hs'.2) (fun _ _ h => h) fun _ _ h => h

end Sweep

/-! ### All of the jobs are failed -/

namespace Jobs

theorem staleBefore_iff {a b : JobRow} : staleBefore a b = true ↔
    a.timeoutAt.getD "" < b.timeoutAt.getD "" ∨
      a.timeoutAt.getD "" = b.timeoutAt.getD "" ∧ alphabetical a.status ≤ alphabetical b.status := by
  unfold staleBefore
  simp

theorem staleBefore_trans (a b c : JobRow) (hab : staleBefore a b = true)
    (hbc : staleBefore b c = true) : staleBefore a c = true := by
  rw [staleBefore_iff] at *
  rcases hab with hab | ⟨hab, hword⟩
  · rcases hbc with hbc | ⟨hbc, -⟩
    · exact .inl (String.lt_trans hab hbc)
    · exact .inl (hbc ▸ hab)
  · rcases hbc with hbc | ⟨hbc, hword'⟩
    · exact .inl (hab ▸ hbc)
    · exact .inr ⟨hab.trans hbc, Nat.le_trans hword hword'⟩

theorem staleBefore_total (a b : JobRow) : (staleBefore a b || staleBefore b a) = true := by
  rw [Bool.or_eq_true, staleBefore_iff, staleBefore_iff]
  rcases Std.lt_trichotomy (a.timeoutAt.getD "") (b.timeoutAt.getD "") with hlt | heq | hgt
  · exact .inl (.inl hlt)
  · exact (Nat.le_total (alphabetical a.status) (alphabetical b.status)).imp
      (fun h => .inr ⟨heq, h⟩) fun h => .inr ⟨heq.symm, h⟩
  · exact .inr (.inl hgt)

end Jobs

namespace Store
variable {stamp : String} {s : Store}

/-- The jobs that are overdue, in the order in which they are failed. -/
def overdue (stamp : String) (s : Store) : List JobRow :=
  (s.jobs.filter (Jobs.JobRow.isStale stamp)).mergeSort Jobs.staleBefore

theorem mem_overdue {r : JobRow} : r ∈ s.overdue stamp ↔ r ∈ s.jobs ∧ r.Overdue stamp := by
  rw [overdue, List.mem_mergeSort, List.mem_filter, JobRow.isStale_iff]

theorem overdue_perm (stamp : String) (s : Store) :
    (s.overdue stamp).Perm (s.jobs.filter (Jobs.JobRow.isStale stamp)) := List.mergeSort_perm _ _

theorem overdue_sorted (stamp : String) (s : Store) : (s.overdue stamp).Pairwise fun a b =>
    ∀ x y, a.timeoutAt = some x → b.timeoutAt = some y → x ≤ y := by
  refine (List.pairwise_mergeSort Jobs.staleBefore_trans Jobs.staleBefore_total _).imp
    fun {a b} hbefore x y hx hy => ?_
  rw [Jobs.staleBefore_iff, hx, hy] at hbefore
  rcases hbefore with hlt | ⟨heq, -⟩
  · exact Std.le_of_lt hlt
  · exact Std.le_of_eq heq

theorem Sound.lists_overdue (hs : s.Sound) (stamp : String) : s.Lists (s.overdue stamp) where
  open_ _ hr := (mem_overdue.mp hr).imp_right fun h => h.isActive
  apart := (((overdue_perm stamp s).map _).nodup_iff).mpr
    (hs.jobIds.sublist (List.filter_sublist.map _))

/-- What a sweep makes of the jobs and of the documents, row by row. -/
theorem Sound.swept (hs : s.Sound) (stamp : String) :
    s.SweptTo stamp (s.reportOf (s.overdue stamp)) (s.failing stamp (s.overdue stamp)) := by
  have hany : ∀ r ∈ s.jobs, (s.overdue stamp).any (·.id == r.id) = decide (r.Overdue stamp) := by
    intro r hr
    rw [Bool.eq_iff_iff, List.any_eq_true, decide_eq_true_iff]
    constructor
    · rintro ⟨x, hx, hid⟩
      obtain ⟨hmem, hdue⟩ := mem_overdue.mp hx
      exact hs.job_unique hmem hr (eq_of_beq hid) ▸ hdue
    · exact fun hdue => ⟨r, mem_overdue.mpr ⟨hr, hdue⟩, beq_self_eq_true _⟩
  have hloses : ∀ d : DocumentRow, (d.status == .processing &&
      (s.overdue stamp).any (·.documentId == some d.id)) = decide (s.Loses stamp d) := by
    intro d
    rw [Bool.eq_iff_iff, Bool.and_eq_true, beq_iff_eq, List.any_eq_true, decide_eq_true_iff]
    unfold Loses
    simp only [mem_overdue, beq_iff_eq, and_assoc]
  have hlists := hs.lists_overdue stamp
  constructor
  case jobs =>
    refine List.map_congr_left fun r hr => ?_
    simp only [hany r hr, decide_eq_true_eq]
  case documents =>
    refine List.map_congr_left fun d _ => ?_
    simp only [hloses d, decide_eq_true_eq]
  case others => exact ⟨rfl, rfl, rfl, rfl⟩
  case told =>
    refine ⟨s.overdue stamp, ?_, overdue_sorted stamp s, rfl, rfl⟩
    refine (overdue_perm stamp s).trans (.of_eq (List.filter_congr fun r _ => ?_))
    rw [Bool.eq_iff_iff, decide_eq_true_iff, JobRow.isStale_iff]
  case once => exact hlists.apart
  case documentsOnce =>
    refine List.pairwise_filterMap.mpr ((List.pairwise_map.mp hlists.apart).imp_of_mem ?_)
    rintro a b ha hb hne d hd _ hd' rfl
    obtain ⟨hmem, hactive⟩ := hlists.open_ a ha
    obtain ⟨hmem', hactive'⟩ := hlists.open_ b hb
    exact hne (congrArg JobRow.id (hs.active_unique hmem hmem' hactive hactive'
      (lostWith_eq_some.mp hd).1 (lostWith_eq_some.mp hd').1))
  case documentsTold =>
    intro id
    show id ∈ (s.overdue stamp).filterMap s.lostWith ↔ _
    rw [List.mem_filterMap]
    constructor
    · rintro ⟨r, hr, hlost⟩
      obtain ⟨hd, d, hmem, rfl, hprocessing⟩ := lostWith_eq_some.mp hlost
      obtain ⟨hjob, hdue⟩ := mem_overdue.mp hr
      exact ⟨d, hmem, rfl, hprocessing, r, hjob, hdue, hd⟩
    · rintro ⟨d, hmem, rfl, hprocessing, r, hjob, hdue, hd⟩
      exact ⟨r, mem_overdue.mpr ⟨hjob, hdue⟩, lostWith_eq_some.mpr ⟨hd, d, hmem, rfl, hprocessing⟩⟩

end Store

/-! ### Sweeping again -/

/-- The row but for the times at which it was changed. -/
def JobRow.timeless (r : JobRow) : JobRow := { r with updatedAt := "", completedAt := none }

def DocumentRow.timeless (d : DocumentRow) : DocumentRow := { d with updatedAt := "" }

theorem JobRow.not_overdue_timedOut {stamp stamp' : String} (r : JobRow) :
    ¬ (r.timedOut stamp').Overdue stamp := fun h => nomatch h.isActive

namespace Store.SweptTo
variable {stamp later : String} {s s' : Store} {report : SweepReport}

/-- The jobs that are overdue afterwards were so before, and have not been touched. -/
theorem overdue_iff (h : s.SweptTo stamp report s') {r : JobRow} :
    r ∈ s'.jobs ∧ r.Overdue later ↔ r ∈ s.jobs ∧ r.Overdue later ∧ ¬ r.Overdue stamp := by
  rw [h.jobs, List.mem_map]
  constructor
  · rintro ⟨⟨x, hx, rfl⟩, hdue⟩
    by_cases hswept : x.Overdue stamp
    · rw [if_pos hswept] at hdue
      exact absurd hdue x.not_overdue_timedOut
    · rw [if_neg hswept] at hdue ⊢
      exact ⟨hx, hdue, hswept⟩
  · rintro ⟨hr, hdue, hnot⟩
    exact ⟨⟨r, hr, if_neg hnot⟩, hdue⟩

/-- Nothing is overdue after a sweep at the same time. -/
theorem overdue_eq_nil (h : s.SweptTo stamp report s') : s'.overdue stamp = [] := by
  refine List.eq_nil_iff_forall_not_mem.mpr fun r hr => ?_
  obtain ⟨-, hdue, hnot⟩ := h.overdue_iff.mp (mem_overdue.mp hr)
  exact hnot hdue

/-- What is overdue later on is what was overdue before and what is overdue only then. -/
theorem overdue_perm_append (hs : s.Sound) (h : s.SweptTo stamp report s') (hs' : s'.Sound)
    (hlater : stamp ≤ later) :
    (s.overdue stamp ++ s'.overdue later).Perm (s.overdue later) := by
  have hnodup : ∀ {z : Store} {t : String}, z.Sound → (z.overdue t).Nodup := fun hz =>
    .of_map _ (hz.lists_overdue _).apart
  refine (List.perm_ext_iff_of_nodup ?_ (hnodup hs)).mpr fun r => ?_
  · refine List.nodup_append.mpr ⟨hnodup hs, hnodup hs', fun a ha b hb hab => ?_⟩
    exact (h.overdue_iff.mp (mem_overdue.mp hb)).2.2 (hab ▸ (mem_overdue.mp ha).2)
  · rw [List.mem_append, mem_overdue, mem_overdue, mem_overdue, h.overdue_iff]
    constructor
    · rintro (⟨hr, hdue⟩ | ⟨hr, hdue, -⟩)
      · exact ⟨hr, hdue.later hlater⟩
      · exact ⟨hr, hdue⟩
    · rintro ⟨hr, hdue⟩
      by_cases hsooner : r.Overdue stamp
      · exact .inl ⟨hr, hsooner⟩
      · exact .inr ⟨hr, hdue, hsooner⟩

/-- A job that is overdue only later is none of those that were overdue before. -/
theorem lists_concat (hs : s.Sound) (h : s.SweptTo stamp report s') {r : JobRow}
    (hr : r ∈ s'.overdue later) : s.Lists (s.overdue stamp ++ [r]) := by
  obtain ⟨hmem, hdue, hnot⟩ := h.overdue_iff.mp (mem_overdue.mp hr)
  have hlists := hs.lists_overdue stamp
  refine ⟨fun x hx => ?_, ?_⟩
  · rcases List.mem_append.mp hx with hx | hx
    · exact hlists.open_ x hx
    · exact List.mem_singleton.mp hx ▸ ⟨hmem, hdue.isActive⟩
  · rw [List.map_append, List.nodup_append]
    refine ⟨hlists.apart, List.nodup_singleton _, fun a ha b hb hab => ?_⟩
    obtain ⟨x, hx, rfl⟩ := List.mem_map.mp ha
    obtain ⟨hx, hdue'⟩ := mem_overdue.mp hx
    exact hnot (hs.job_unique hx hmem (hab.trans (List.mem_singleton.mp hb)) ▸ hdue')

/-- A document whose job is overdue only later is lost only then. -/
theorem loses_iff (h : s.SweptTo stamp report s') {d : DocumentRow} (hkept : ¬ s.Loses stamp d) :
    s'.Loses later d ↔ s.Loses later d := by
  unfold Loses
  refine and_congr_right fun hprocessing => ⟨?_, ?_⟩
  · rintro ⟨r, hr, hdue, hd⟩
    obtain ⟨hr, hdue, -⟩ := h.overdue_iff.mp ⟨hr, hdue⟩
    exact ⟨r, hr, hdue, hd⟩
  · rintro ⟨r, hr, hdue, hd⟩
    have hnot : ¬ r.Overdue stamp := fun hsooner => hkept ⟨hprocessing, r, hr, hsooner, hd⟩
    obtain ⟨hr', -⟩ := h.overdue_iff.mpr ⟨hr, hdue, hnot⟩
    exact ⟨r, hr', hdue, hd⟩

/-- A sweep and a later one leave what the later one alone leaves, but for the times. -/
theorem timeless_eq {report₁ report₂ : SweepReport} {s₁ s₂ : Store} (h : s.SweptTo stamp report s')
    (hlater : stamp ≤ later) (h₁ : s'.SweptTo later report₁ s₁) (h₂ : s.SweptTo later report₂ s₂) :
    s₁.jobs.map JobRow.timeless = s₂.jobs.map JobRow.timeless ∧
      s₁.documents.map DocumentRow.timeless = s₂.documents.map DocumentRow.timeless := by
  rw [h₁.jobs, h₂.jobs, h.jobs, h₁.documents, h₂.documents, h.documents, List.map_map, List.map_map,
    List.map_map, List.map_map, List.map_map, List.map_map]
  refine ⟨List.map_congr_left fun r _ => ?_, List.map_congr_left fun d _ => ?_⟩
  · dsimp only [Function.comp_apply]
    by_cases hsooner : r.Overdue stamp
    · rw [if_pos hsooner, if_neg r.not_overdue_timedOut, if_pos (hsooner.later hlater)]
      rfl
    · rw [if_neg hsooner]
  · dsimp only [Function.comp_apply]
    by_cases hsooner : s.Loses stamp d
    · have hlost : s.Loses later d := by
        obtain ⟨hprocessing, r, hr, hdue, hd⟩ := hsooner
        exact ⟨hprocessing, r, hr, hdue.later hlater, hd⟩
      rw [if_pos hsooner, if_neg (fun hagain => nomatch hagain.1), if_pos hlost]
      rfl
    · rw [if_neg hsooner]
      simp only [h.loses_iff hsooner]

end Store.SweptTo

/-- A job that is overdue only later loses the same document then. -/
theorem Store.lostWith_failing {stamp : String} {s : Store} {done : List JobRow} {r : JobRow}
    (hs : s.Sound) (h : s.Lists (done ++ [r])) :
    (s.failing stamp done).lostWith r = s.lostWith r := by
  refine Option.ext fun d => ?_
  rw [lostWith_eq_some, lostWith_eq_some]
  refine and_congr_right fun hd => ?_
  have hfound : ∀ rows : List DocumentRow, (∃ x ∈ rows, x.id = d ∧ x.status = .processing) ↔
      rows.filter (fun x => x.id == d && [DocumentStatus.processing].contains x.status) ≠ [] := by
    intro rows
    simp [List.filter_eq_nil_iff]
  rw [hfound, hfound, processing_failing hs h hd]

namespace Sweep
variable {s : Store}

/-- A sweep always comes to the same: what it reports and what it leaves. -/
def Comes (now : Instant) (s : Store) (report : SweepReport) (s' : Store) : Prop :=
  ∀ o m, Surroundings.free.Runs (run now).run (s, ()) o m ↔ o = .ok report ∧ m = (s', ())

/-- A sweep fails all jobs that are overdue, if these can be read. -/
theorem run_comes (hs : s.Sound) (now : Instant)
    (hread : ∀ r ∈ s.jobs, r.Overdue now.timestamp → ∃ job, r.read = .ok job) :
    Comes now s (s.reportOf (s.overdue now.timestamp))
      (s.failing now.timestamp (s.overdue now.timestamp)) := by
  have hreads : ∀ r ∈ s.overdue now.timestamp, ∃ job, r.read = .ok job :=
    fun r hr => (Store.mem_overdue.mp hr).elim (hread r)
  obtain ⟨jobs, hjobs⟩ := exists_mapM_eq_ok hreads
  have htakes : (run now).Takes .free (fun _ => True) (· = s)
      (fun report s' => report = s.reportOf (s.overdue now.timestamp) ∧
        s' = s.failing now.timestamp (s.overdue now.timestamp)) fun _ _ => False := by
    refine .bind (R := fun listed s' => listed = jobs ∧ s' = s) (.transact ?_) fun listed => ?_
    · rintro s' rfl
      have hrun := listStale_run s' now.timestamp
      exact wp_of_run (hrun.trans (congrArg (·, s') hjobs)) ⟨trivial, rfl, rfl⟩
    · refine .learn (fun s' h => h.1) fun hlisted => ?_
      subst hlisted
      have hlists : s.Lists ([] ++ s.overdue now.timestamp) := hs.lists_overdue now.timestamp
      refine (failEach_failing hs (mapM_eq_ok.mp hjobs) hlists).conseq (fun s' h => ?_)
        (fun _ _ h => h) fun _ _ h => h
      rw [Store.failing_nil, h.2]
  have hends : ∀ o m, Surroundings.free.Runs (run now).run (s, ()) o m →
      o = .ok (s.reportOf (s.overdue now.timestamp)) ∧
        m = (s.failing now.timestamp (s.overdue now.timestamp), ()) := by
    intro o m hrun
    have hend := (htakes.runs rfl trivial ()).2 o m hrun
    cases o with
    | ok report => exact ⟨congrArg _ hend.1, Prod.ext hend.2 rfl⟩
    | error e => exact hend.elim
  obtain ⟨o, m, hrun⟩ := Surroundings.free_live.runs (run now).run (s, ())
  intro o' m'
  constructor
  · exact hends o' m'
  · rintro ⟨rfl, rfl⟩
    obtain ⟨rfl, rfl⟩ := hends o m hrun
    exact hrun

end Sweep

/-- Where all jobs can be read, a sweep comes to its end and does exactly this: it fails the jobs
that have not ended and whose deadline lies before its time, and those of their documents that were
processing; each of these jobs gets one event, and is reported once, in the order of the deadlines.
Another sweep at that time changes nothing. A later one reports the jobs and documents that are
still missing from the report of a sweep at that time alone, and leaves the same, but for the times
at which rows were changed. -/
theorem sweep_is_exact {s : Store} (hs : s.Sound) (hread : ∀ r ∈ s.jobs, ∃ job, r.read = .ok job)
    (now : Instant) : ∃ report s', Sweep.Comes now s report s' ∧
      s.SweptTo now.timestamp report s' ∧
      Sweep.Comes now s' ⟨[], []⟩ s' ∧
      ∀ later : Instant, now.timestamp ≤ later.timestamp → ∃ report₁ s₁ report₂ s₂,
        Sweep.Comes later s' report₁ s₁ ∧ Sweep.Comes later s report₂ s₂ ∧
        (report.failedJobs ++ report₁.failedJobs).Perm report₂.failedJobs ∧
        (report.failedDocuments ++ report₁.failedDocuments).Perm report₂.failedDocuments ∧
        s₁.jobs.map JobRow.timeless = s₂.jobs.map JobRow.timeless ∧
        s₁.documents.map DocumentRow.timeless = s₂.documents.map DocumentRow.timeless := by
  have hcomes := Sweep.run_comes hs now fun r hr _ => hread r hr
  have hswept := hs.swept now.timestamp
  have hs' := hs.failing now.timestamp (s.overdue now.timestamp)
  have hread' : ∀ later : String, ∀ r ∈ (s.failing now.timestamp (s.overdue now.timestamp)).jobs,
      r.Overdue later → ∃ job, r.read = .ok job := fun later r hr hdue =>
    hread r (hswept.overdue_iff.mp ⟨hr, hdue⟩).1
  refine ⟨_, _, hcomes, hswept, ?_, fun later hlater => ?_⟩
  · have hagain := Sweep.run_comes hs' now (hread' now.timestamp)
    rwa [hswept.overdue_eq_nil, Store.failing_nil] at hagain
  · have hperm := hswept.overdue_perm_append hs hs' hlater
    have hlost : ∀ r ∈ (s.failing now.timestamp (s.overdue now.timestamp)).overdue later.timestamp,
        (s.failing now.timestamp (s.overdue now.timestamp)).lostWith r = s.lostWith r :=
      fun r hr => Store.lostWith_failing hs (hswept.lists_concat hs hr)
    refine ⟨_, _, _, _, Sweep.run_comes hs' later (hread' later.timestamp),
      Sweep.run_comes hs later fun r hr _ => hread r hr, ?_, ?_,
      hswept.timeless_eq hlater (hs'.swept _) (hs.swept _)⟩
    · exact (List.map_append (f := JobRow.id)).symm ▸ hperm.map JobRow.id
    · show (List.filterMap _ _ ++ List.filterMap _ _).Perm (List.filterMap _ _)
      rw [List.filterMap_congr hlost, ← List.filterMap_append]
      exact hperm.filterMap _

/-- A document is processing, and its job has given no sign of life. -/
def abandonedStore : Store :=
  ((Documents.transition "d" [.uploading] .processing "t").run lockedStore).2

theorem abandonedStore_sound : abandonedStore.Sound :=
  (Documents.changeFrom_sound "d" [.uploading]
    (f := fun r => { r with status := .processing, updatedAt := "t" }) fun _ => rfl).run
    lockedStore_reachable.sound

/-- After two minutes the job and its document are failed. At that time there is nothing left to
fail, nor is there a minute later. -/
theorem sweep_is_exact_abandoned : ∃ report s',
    Sweep.Comes ⟨120, 0⟩ abandonedStore report s' ∧ Sweep.Comes ⟨120, 0⟩ s' ⟨[], []⟩ s' ∧
      report.failedJobs = ["j"] ∧ "d" ∈ report.failedDocuments ∧
      s'.jobs.map (fun r => (r.status, r.errorMessage)) =
        [(.failed, some "Timed out: no heartbeat since 1970-01-01T00:00:00.000Z")] ∧
      s'.documents.map (·.status) = [.failed] ∧
      ∃ report₁ s₁ report₂ s₂, Sweep.Comes ⟨180, 0⟩ s' report₁ s₁ ∧
        Sweep.Comes ⟨180, 0⟩ abandonedStore report₂ s₂ ∧
        (report.failedJobs ++ report₁.failedJobs).Perm report₂.failedJobs := by
  have hread : ∀ r ∈ abandonedStore.jobs, ∃ job, r.read = .ok job := fun r hr => by
    obtain rfl := List.mem_singleton.mp (show r ∈ [_] from hr)
    exact ⟨_, rfl⟩
  obtain ⟨report, s', hcomes, hswept, hagain, hlater⟩ :=
    sweep_is_exact abandonedStore_sound hread ⟨120, 0⟩
  refine ⟨report, s', hcomes, hagain, ?_, ?_, ?_, ?_, ?_⟩
  · obtain ⟨rows, hperm, -, hreport, -⟩ := hswept.told
    have hone : (abandonedStore.jobs.filter fun r =>
        r.Overdue (Instant.mk 120 0).timestamp).map (·.id) = ["j"] := by decide
    exact hreport.trans (List.perm_singleton.mp (hone ▸ hperm.map (·.id)))
  · have hlost : ∃ d ∈ abandonedStore.documents, d.id = "d" ∧
        abandonedStore.Loses (Instant.mk 120 0).timestamp d :=
      ⟨_, List.mem_singleton_self _, rfl, by decide⟩
    exact (hswept.documentsTold "d").mpr hlost
  · rw [hswept.jobs]
    decide
  · rw [hswept.documents]
    decide
  · obtain ⟨report₁, s₁, report₂, s₂, hthen, halone, hperm, -⟩ := hlater ⟨180, 0⟩ (by decide)
    exact ⟨report₁, s₁, report₂, s₂, hthen, halone, hperm⟩

end Quire
