import Mathlib.Data.Int.Order.Basic
import Quire.Proofs.Flow.Frames

/-! What stays of a job.

A job that is completed or failed stays so, whatever is done with the store, and every change of
it is refused. An event gets an id above all that were ever given out, and its place behind all
others. So the events stand in the order of their ids, and what is read as the history of a job only
ever grows at its end. -/
namespace Quire
open Txn

/-! ### Jobs that have ended -/

/-- The job has ended. -/
def Store.Closed (jobId : String) (s : Store) : Prop :=
  ∃ r ∈ s.jobs, r.id = jobId ∧ r.isActive = false

instance (jobId : String) (s : Store) : Decidable (s.Closed jobId) :=
  inferInstanceAs (Decidable (∃ r ∈ s.jobs, r.id = jobId ∧ r.isActive = false))

theorem Store.Closed.of_same {jobId : String} {s s' : Store} (h : s.Closed jobId)
    (hjobs : s'.jobs = s.jobs) : s'.Closed jobId := by
  unfold Closed
  rw [hjobs]
  exact h

/-! ### Ended for good -/

section
variable {jobId : String} {s : Store}

theorem Store.Closed.change (h : s.Closed jobId) (id now : String) (c : Jobs.Change) :
    (Jobs.changed s id now c).Closed jobId := by
  obtain ⟨r, hr, hid, hended⟩ := h
  refine ⟨r, mem_changeWhere.mpr ⟨r, hr, if_neg ?_⟩, hid, hended⟩
  rw [Jobs.isOpen_iff, hended]
  exact fun h => nomatch h.2

theorem Store.Closed.addJob (h : s.Closed jobId) (r : JobRow) :
    ({ s with jobs := s.jobs ++ [r] } : Store).Closed jobId := by
  obtain ⟨r', hr', hended⟩ := h
  exact ⟨r', List.mem_append_left _ hr', hended⟩

end

/-- A job that has ended does not begin again, whatever is done. -/
theorem Store.Closed.unharmed (jobId : String) : Unharmed fun s => s.Sound ∧ s.Closed jobId :=
  .of_jobs (fun hjobs h => h.of_same hjobs) (fun id now c _ _ h => h.change id now c)
    fun _ _ _ _ h => h.addJob _

/-! ### Changes of a job that has ended -/

theorem Store.Closed.refused {jobId : String} {s : Store} (h : s.Closed jobId) (hs : s.Sound) :
    ∀ r ∈ s.jobs, Jobs.isOpen jobId r = false := by
  obtain ⟨r, hr, hid, hended⟩ := h
  intro r' hr'
  by_contra hopen
  obtain ⟨hid', hactive⟩ := Jobs.isOpen_iff.mp (Bool.not_eq_false _ ▸ hopen)
  rw [hs.job_unique hr' hr (hid'.trans hid.symm), hended] at hactive
  cases hactive

/-- A job that has ended is not changed. -/
theorem Store.Closed.guarded_wp {jobId now : String} {s : Store} (h : s.Closed jobId)
    (hs : s.Sound) (c : Jobs.Change) {Q : Unit → Store → Prop} {E : JobError → Prop}
    (hE : ∀ e, E e) : (guarded jobId (c.statement jobId now)).wp Q E s := by
  refine Jobs.guarded_wp hs.apart c jobId now (fun hany => ?_) fun _ => hE
  obtain ⟨r, hr, hopen⟩ := hany
  exact absurd hopen (by simp [h.refused hs r hr])

/-! ### The history of a job -/

/-- The events begin with those of a log, and stand in the order of their ids. -/
structure Store.Recorded (log : List EventRow) (s : Store) : Prop where
  begins : log <+: s.events
  ascending : s.events.Pairwise fun a b => a.id < b.id

namespace Jobs

/-- No event has a higher id. -/
theorem le_lastEventId {s : Store} {e : EventRow} (he : e ∈ s.events) : e.id ≤ lastEventId s :=
  le_foldl_of_mem (fun _ _ => Int.le_max_left _ _) he fun _ => Int.le_max_right _ _

/-- An event comes after all others. -/
theorem insertEvent_recorded (log : List EventRow) (jobId : String) (kind : EventKind)
    (step : Option String) (message : String) (trace : Option String) (now : String) :
    (insertEvent jobId kind step message trace now).Keeps (Store.Recorded log) := by
  intro s hs
  simp only [insertEvent, wp_bind, wp_store, wp_require, wp_modify]
  refine ⟨fun _ => ⟨hs.begins.trans (List.prefix_append _ _), ?_⟩, fun _ => trivial⟩
  refine List.pairwise_append.mpr ⟨hs.ascending, List.pairwise_singleton _ _, fun a ha b hb => ?_⟩
  obtain rfl := List.mem_singleton.mp hb
  exact Int.lt_add_one_of_le (le_lastEventId ha)

end Jobs

/-- What has been recorded stays so, whatever is done. -/
theorem Store.Recorded.unharmed (log : List EventRow) : Unharmed (Store.Recorded log) := by
  refine .of_events (fun hevents _ h => ?_) (Jobs.insertEvent_recorded log)
  exact ⟨hevents ▸ h.begins, hevents ▸ h.ascending⟩

namespace Store.Recorded
variable {log : List EventRow} {s : Store}

/-- The history of a job is read in the order in which it was written. -/
theorem events_run (h : s.Recorded log) (jobId : String) :
    (Jobs.events jobId : Txn StoreError (List EventRow)).run s =
      (.ok (s.events.filter (·.jobId == jobId)), s) := by
  have hsorted : (s.events.filter (·.jobId == jobId)).Pairwise
      fun a b => decide (a.id ≤ b.id) = true :=
    (h.ascending.filter _).imp fun hlt => decide_eq_true (Int.le_of_lt hlt)
  rw [← wp_eq_run]
  unfold Jobs.events
  rw [wp_bind, wp_store, wp_pure, List.mergeSort_of_pairwise hsorted]

/-- What is read of a history later begins with what was read before. -/
theorem prefix_filter (h : s.Recorded log) (jobId : String) :
    log.filter (·.jobId == jobId) <+: s.events.filter (·.jobId == jobId) :=
  h.begins.filter _

end Store.Recorded

end Quire
