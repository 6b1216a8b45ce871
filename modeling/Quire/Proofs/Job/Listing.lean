import Quire.Config.Load
import Quire.Proofs.Job.Sweeping

/-! Which jobs are listed as stale.

The listing compares texts: the deadline of a job and the present time. These are in the order of
time just where the texts of their years are, so at a time whose year has four digits the listing is
right about every deadline up to the end of 9999. A later deadline counts as past. -/
namespace Quire

instance (t u : Instant) : Decidable (t.Precedes u) := inferInstanceAs (Decidable (_ ∨ _))

/-- The job is open, and its deadline lies before the present. -/
def JobRow.due (deadline : JobRow → Option Instant) (now : Instant) (r : JobRow) : Bool :=
  r.isActive && (deadline r).any fun t => t.Precedes now

/-- The deadlines of the jobs are timestamps of instants up to the end of 9999. -/
def Store.DeadlinesAre (s : Store) (deadline : JobRow → Option Instant) : Prop :=
  ∀ r ∈ s.jobs, r.timeoutAt = (deadline r).map Instant.timestamp ∧
    ∀ t, deadline r = some t → t.Proper ∧ t.date.year ≤ 9999

/-- The texts tell which jobs are due. -/
theorem Store.DeadlinesAre.isStale_eq {s : Store} {deadline : JobRow → Option Instant}
    (h : s.DeadlinesAre deadline) {now : Instant} (hnow : now.Proper) (hdated : now.Dated)
    {r : JobRow} (hr : r ∈ s.jobs) : Jobs.JobRow.isStale now.timestamp r = r.due deadline now := by
  obtain ⟨htimeout, hinstant⟩ := h r hr
  unfold Jobs.JobRow.isStale JobRow.due
  rw [htimeout]
  cases hdeadline : deadline r with
  | none => rfl
  | some t =>
    obtain ⟨ht, hyear⟩ := hinstant t hdeadline
    have hbefore := (Instant.kept_of_le ht hnow hdated hyear).1
    simp [hbefore]

/-- From every moment of a year of four digits on, a deadline is an instant of the calendar. -/
theorem Respite.inCalendar (r : Respite) {now : Instant} (h : now.Dated) :
    (now.after r).InCalendar := by
  have hnow := h.seconds
  have hwithin := r.within
  unfold Instant.InCalendar Instant.after
  dsimp only
  omega

/-- Timestamps are in the order of time to the millisecond just where the texts of their years are
in the order of the years, and beside a year of four digits that is where the other one is no later
than 9999. So at a time of such a year, where all deadlines are timestamps of instants up to the end
of 9999, the listing reads the open jobs whose deadline lies before that time, each of them once,
and no others; and whatever a sign of life moves it by, the deadline that it sets at such a time is
an instant of the calendar. -/
theorem stale_by_time {now : Instant} (hnow : now.Proper) :
    (∀ t : Instant, t.Proper → (t.Kept now ↔ Time.YearsKept t.date.year now.date.year) ∧
      (now.Dated → (t.Kept now ↔ t.date.year ≤ 9999))) ∧
    (∀ (s : Store) (deadline : JobRow → Option Instant), s.DeadlinesAre deadline → now.Dated →
      ∃ rows : List JobRow, rows.Perm (s.jobs.filter (JobRow.due deadline now)) ∧
        (Jobs.listStale now.timestamp).run s = (rows.mapM JobRow.read, s)) ∧
    ∀ l : Ledger, now.Dated → (now.after l.heartbeat).InCalendar := by
  refine ⟨fun t ht => ?_, fun s deadline hdeadlines hdated => ?_, fun l => l.heartbeat.inCalendar⟩
  · have hkept := Instant.kept_iff ht hnow
    exact ⟨hkept, fun hdated => hkept.trans (Time.yearsKept_iff hdated.1 hdated.2)⟩
  · refine ⟨s.overdue now.timestamp, ?_, Sweep.listStale_run s now.timestamp⟩
    have hdue : s.jobs.filter (Jobs.JobRow.isStale now.timestamp) =
        s.jobs.filter (JobRow.due deadline now) :=
      List.filter_congr fun r hr => hdeadlines.isStale_eq hnow hdated hr
    exact hdue ▸ s.overdue_perm now.timestamp

namespace Renewal

/-- The row of the job that was just queued. -/
def queuedRow : JobRow :=
  Jobs.rowOf ((detachedJob (.object [])).toJob "j" (second 0) ledger.heartbeat) .queued

/-- The deadline of a job that was queued at the beginning of time. -/
def minute (_ : JobRow) : Option Instant := some ((second 0).after ledger.heartbeat)

theorem queued_deadlines : queued.DeadlinesAre minute := by
  intro r hr
  obtain rfl := List.mem_singleton.mp (show r ∈ [queuedRow] from hr)
  refine ⟨by decide, fun t ht => ?_⟩
  obtain rfl := Option.some.inj ht
  exact ⟨.inl (by decide), by decide⟩

end Renewal

/-- A job with a deadline after a minute is listed after a hundred seconds, and not after fifty. -/
theorem stale_by_time_minute : Renewal.queued.DeadlinesAre Renewal.minute ∧
    (Renewal.second 50).Kept (Renewal.second 100) ∧
    (Jobs.listStale (Renewal.second 100).timestamp).run Renewal.queued =
      ([Renewal.queuedRow].mapM JobRow.read, Renewal.queued) ∧
    (Jobs.listStale (Renewal.second 50).timestamp).run Renewal.queued =
      (.ok [], Renewal.queued) := by
  have hproper : ∀ n, (Renewal.second n).Proper := fun n => .inl (show 0 < 1000000000 by decide)
  have hdated : (Renewal.second 50).Dated ∧ (Renewal.second 100).Dated := by
    unfold Instant.Dated
    decide
  obtain ⟨horder, hlater, -⟩ := stale_by_time (hproper 100)
  refine ⟨Renewal.queued_deadlines, ?_, ?_, ?_⟩
  · exact ((horder _ (hproper 50)).2 hdated.2).mpr (by decide)
  · obtain ⟨rows, hperm, hrun⟩ := hlater Renewal.queued Renewal.minute Renewal.queued_deadlines
      hdated.2
    obtain rfl : rows = [Renewal.queuedRow] := List.perm_singleton.mp hperm
    exact hrun
  · obtain ⟨rows, hperm, hrun⟩ := (stale_by_time (hproper 50)).2.1 Renewal.queued Renewal.minute
      Renewal.queued_deadlines hdated.1
    obtain rfl : rows = [] := List.perm_nil.mp hperm
    exact hrun

namespace Renewal

/-- A ledger whose deadlines lie thousands of years after a renewal. -/
def distant : Ledger := ⟨⟨⟨400000000000⟩, by decide⟩⟩

/-- The row of a job that was just queued there. -/
def distantRow : JobRow :=
  Jobs.rowOf ((detachedJob (.object [])).toJob "j" (second 0) distant.heartbeat) .queued

def distantStore : Store :=
  ((Jobs.insert ((detachedJob (.object [])).toJob "j" (second 0) distant.heartbeat)).run
    Store.empty).2

theorem distant_life : distant.Life "j" (distantStore, second 0) (second 0) (second 0) :=
  enqueued_life distant

end Renewal

/-- A configuration may put deadlines beyond the end of 9999, and no check refuses it. The timestamp
of such a deadline begins with a sign, so it is less than that of the present, and a job that was
queued a hundred seconds ago is listed as stale. -/
theorem distant_deadline_stale :
    (∀ c : Config, Config.check { c with jobs := ⟨400000000000⟩ } = c.check) ∧
      (Config.Jobs.mk 400000000000).heartbeat? = some Renewal.distant.heartbeat ∧
      Renewal.distant.Life "j" (Renewal.distantStore, Renewal.second 0) (.mk 0 0) (.mk 0 0) ∧
      Renewal.distantStore.jobs.map (fun r => (r.isActive, r.timeoutAt)) =
        [(true, some "+14645-06-30T15:06:40.000Z")] ∧
      (Renewal.second 100).Precedes ((Renewal.second 0).after Renewal.distant.heartbeat) ∧
      ((Renewal.second 0).after Renewal.distant.heartbeat).timestamp <
        (Renewal.second 100).timestamp ∧
      ∃ job : Job, (Jobs.listStale (Renewal.second 100).timestamp).run Renewal.distantStore =
        (.ok [job], Renewal.distantStore) ∧ job.id = "j" := by
  refine ⟨fun _ => rfl, by decide, Renewal.distant_life, by decide, by decide, by decide, ?_⟩
  have hrows : Renewal.distantStore.jobs = [Renewal.distantRow] := rfl
  have hstale : Jobs.JobRow.isStale (Renewal.second 100).timestamp Renewal.distantRow = true := by
    decide
  rw [Sweep.listStale_run, hrows, List.filter_cons_of_pos hstale, List.filter_nil,
    List.mergeSort_singleton]
  exact ⟨_, rfl, rfl⟩

end Quire
