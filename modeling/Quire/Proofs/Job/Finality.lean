import Quire.Proofs.Job.Ended
import Quire.Proofs.Flow.Interleaving
import Quire.Proofs.Store.Pages
import Quire.Proofs.Store.Reading

/-! What becomes of a job in the long run.

No job goes away; one that has ended stays as it is, and its history can only grow. Whoever wants
to change it is told how it has ended. For that the job is read, and a row can be read if its
parameters and its result can: all that is stored of numbers is. -/
namespace Quire
open Txn

/-! ### Jobs later on -/

/-- What the jobs of a store have become: none has gone away, and those that had ended are the
same. -/
structure Store.Since (past s : Store) : Prop where
  there : ∀ r ∈ past.jobs, ∃ r' ∈ s.jobs, r'.id = r.id
  ended : ∀ r ∈ past.jobs, r.isActive = false → r ∈ s.jobs

namespace Store.Since
variable {past s s' : Store}

theorem refl (s : Store) : s.Since s := ⟨fun r hr => ⟨r, hr, rfl⟩, fun _ hr _ => hr⟩

theorem of_same (h : past.Since s) (hjobs : s'.jobs = s.jobs) : past.Since s' :=
  ⟨hjobs ▸ h.there, hjobs ▸ h.ended⟩

theorem addJob (h : past.Since s) (r : JobRow) :
    past.Since { s with jobs := s.jobs ++ [r] } where
  there r' hr' := by
    obtain ⟨r'', hmem, hid⟩ := h.there r' hr'
    exact ⟨r'', List.mem_append_left _ hmem, hid⟩
  ended r' hr' hended := List.mem_append_left _ (h.ended r' hr' hended)

/-- Only a job that is open is changed, and it stays the job that it is. -/
theorem change (h : past.Since s) (id now : String) (c : Jobs.Change) :
    past.Since (Jobs.changed s id now c) where
  there r hr := by
    obtain ⟨r', hr', hid⟩ := h.there r hr
    refine ⟨_, mem_changeWhere.mpr ⟨r', hr', rfl⟩, ?_⟩
    split
    · exact (c.apply_id now r').trans hid
    · exact hid
  ended r hr hended := by
    refine mem_changeWhere.mpr ⟨r, h.ended r hr hended, if_neg ?_⟩
    rw [Jobs.isOpen_iff, hended]
    exact fun h => nomatch h.2

theorem unharmed (past : Store) : Unharmed fun s => s.Sound ∧ past.Since s :=
  .of_jobs (fun hjobs h => h.of_same hjobs) (fun id now c _ _ h => h.change id now c)
    fun _ _ _ _ h => h.addJob _

/-- A job has exactly one row later on, which is the row that it had if it had ended. -/
theorem rows (h : past.Since s) (hs : s.Sound) {r : JobRow} (hr : r ∈ past.jobs) :
    ∃ r', s.jobs.filter (·.id == r.id) = [r'] ∧ (r.isActive = false → r' = r) := by
  obtain ⟨r', hr', hid⟩ := h.there r hr
  refine ⟨r', ?_, fun hended => hs.job_unique hr' (h.ended r hr hended) hid⟩
  rw [← hid]
  exact filter_key hs.jobIds hr'

end Store.Since

/-! ### Rows that can be read -/

/-- The numbers of a row, as they are written. -/
structure JobRow.Counted (r : JobRow) : Prop where
  doneSteps : ∃ n : UInt32, r.doneSteps = .ofNat n.toNat
  totalSteps : ∃ n : UInt32, r.totalSteps = .ofNat n.toNat
  percent : ∃ x : Float, r.percent = .real x

theorem JobRow.Counted.apply {r : JobRow} (h : r.Counted) (now : String) (c : Jobs.Change) :
    (c.apply now r).Counted := by
  cases c with
  | running => exact ⟨h.doneSteps, h.totalSteps, h.percent⟩
  | polling handle params timeoutAt => exact ⟨h.doneSteps, h.totalSteps, h.percent⟩
  | completed result => exact ⟨h.doneSteps, h.totalSteps, 100, rfl⟩
  | failed message => exact ⟨h.doneSteps, h.totalSteps, h.percent⟩
  | alive timeoutAt => exact ⟨h.doneSteps, h.totalSteps, h.percent⟩
  | progressed done total percent step => exact ⟨⟨done, rfl⟩, ⟨total, rfl⟩, percent, rfl⟩

theorem JobRow.counted_rowOf (job : Job) (status : JobStatus) :
    (Jobs.rowOf job status).Counted :=
  ⟨⟨job.doneSteps, rfl⟩, ⟨job.totalSteps, rfl⟩, job.percent, rfl⟩

theorem Store.counted_unharmed : Unharmed fun s => s.Sound ∧ ∀ r ∈ s.jobs, r.Counted := by
  refine .of_jobs (fun hjobs h => hjobs ▸ h) (fun id now c _ _ h r hr => ?_)
    fun n id now heartbeat h r hr => ?_
  · obtain ⟨r', hr', rfl⟩ := mem_changeWhere.mp hr
    split
    · exact (h r' hr').apply now c
    · exact h r' hr'
  · rcases List.mem_append.mp hr with hr | hr
    · exact h r hr
    · obtain rfl := List.mem_singleton.mp hr
      exact JobRow.counted_rowOf _ _

/-- The parameters and the result of a row can be read. -/
structure JobRow.Legible (r : JobRow) : Prop where
  params : ∃ j, r.params.read = .ok j
  result : ∀ stored, r.result = some stored → ∃ j, stored.read = .ok j

/-- A row can be read exactly if its parameters and its result can. -/
theorem JobRow.Counted.exists_read_iff {r : JobRow} (h : r.Counted) :
    (∃ job, r.read = .ok job) ↔ r.Legible := by
  obtain ⟨⟨doneSteps, hdone⟩, ⟨totalSteps, htotal⟩, percent, hpercent⟩ := h
  constructor
  · rintro ⟨job, hread⟩
    obtain ⟨_, -, hread⟩ := bind_eq_ok.mp hread
    obtain ⟨_, -, hread⟩ := bind_eq_ok.mp hread
    obtain ⟨_, -, hread⟩ := bind_eq_ok.mp hread
    obtain ⟨params, hparams, hread⟩ := bind_eq_ok.mp hread
    obtain ⟨result, hresult, -⟩ := bind_eq_ok.mp hread
    refine ⟨⟨params, hparams⟩, fun stored hstored => ?_⟩
    rw [hstored] at hresult
    obtain ⟨j, hj, -⟩ := bind_eq_ok.mp hresult
    exact ⟨j, hj⟩
  · rintro ⟨⟨params, hparams⟩, hlegible⟩
    have hresult : ∃ result, r.result.mapM StoredJson.read = .ok result := by
      cases hstored : r.result with
      | none => exact ⟨none, rfl⟩
      | some stored =>
        obtain ⟨j, hj⟩ := hlegible stored hstored
        exact ⟨some j, by rw [Option.mapM_some, hj]; rfl⟩
    obtain ⟨result, hresult⟩ := hresult
    unfold JobRow.read
    simp only [hdone, htotal, hpercent, hparams, hresult, Cell.word32_ofNat, Cell.float]
    exact ⟨_, rfl⟩

/-! ### Changes that come too late -/

/-- What is asked of a ledger for a job. -/
inductive Ledger.Demand
  | running
  | polling (handle : String) (params : Json)
  | completed (result : Option Json)
  | failed (message : String)
  | alive
  | progressed (done total : UInt32) (step : String)

namespace Ledger.Demand

/-- The call of the ledger. -/
def run (l : Ledger) (jobId : String) : Demand → Run JobError Unit
  | .running => markRunning jobId
  | .polling handle params => l.markPolling jobId handle params
  | .completed result => markCompleted jobId result
  | .failed message => markFailed jobId message
  | .alive => l.signalAlive jobId
  | .progressed done total step => updateProgress jobId done total step

/-- The change that it means at a time. -/
def change (l : Ledger) (now : Instant) : Demand → Jobs.Change
  | .running => .running
  | .polling handle params => .polling handle params (l.deadline now)
  | .completed result => .completed result
  | .failed message => .failed message
  | .alive => .alive (l.deadline now)
  | .progressed done total step => .progressed done total (Progress.percent done total) step

theorem run_eq (l : Ledger) (jobId : String) (d : Demand) :
    d.run l jobId =
      atNow fun now => guarded jobId ((d.change l now).statement jobId now.timestamp) := by
  cases d <;> rfl

end Ledger.Demand

/-- A transaction at the time of the clock comes to what it comes to at some time. -/
theorem Ledger.atNow_runs_iff {t : Instant → Txn JobError Unit} {s s' : Store}
    {o : Except JobError Unit} :
    Surroundings.free.Runs (atNow t).run (s, ()) o (s', ()) ↔ ∃ now, (t now).run s = (o, s') := by
  constructor
  · rintro ⟨now, m, ⟨hm, -⟩, o', ⟨s'', u⟩, ⟨hrun, -⟩, hrest⟩
    rw [hm] at hrun
    cases o' with
    | ok a =>
      obtain ⟨rfl, hs⟩ := hrest
      obtain rfl : s' = s'' := congrArg Prod.fst hs
      exact ⟨now, hrun⟩
    | error e =>
      obtain ⟨rfl, hs⟩ := hrest
      obtain rfl : s' = s'' := congrArg Prod.fst hs
      exact ⟨now, hrun⟩
  · rintro ⟨now, hrun⟩
    refine ⟨now, (s, ()), ⟨rfl, trivial⟩, o, (s', ()), ⟨hrun, rfl⟩, ?_⟩
    cases o with
    | ok a => exact ⟨rfl, rfl⟩
    | error e => exact ⟨rfl, rfl⟩

/-- How a job has ended, as far as it can be told: its row is read for that. -/
def JobRow.refusal (r : JobRow) : JobError :=
  match r.read with
  | .ok job => .terminal r.id job.status
  | .error e => .store e

theorem JobRow.refusal_eq_iff (r : JobRow) :
    r.refusal = .terminal r.id r.status ↔ ∃ job, r.read = .ok job := by
  unfold refusal
  cases hread : r.read with
  | ok job => simp [(shows_of_read hread).status]
  | error e => simp

section Late
variable {s : Store} (hs : s.Sound) (c : Jobs.Change) {id : String} (now : String)
include hs

/-- A change of an open job is made. -/
theorem guarded_made (hopen : ∃ r ∈ s.jobs, Jobs.isOpen id r = true) :
    (guarded id (c.statement id now)).run s = (.ok (), Jobs.changed s id now c) := by
  rw [← wp_eq_run]
  refine Jobs.guarded_wp hs.apart c id now (fun _ => rfl) fun hclosed => ?_
  obtain ⟨r, hr, hopen⟩ := hopen
  simp [hclosed r hr] at hopen

/-- A change that finds no open job looks for the job. -/
theorem guarded_refused (hclosed : ∀ r ∈ s.jobs, Jobs.isOpen id r = false) :
    (guarded id (c.statement id now)).run s = (ensureChanged id 0).run s := by
  have hsame : Jobs.changed s id now c = s := by
    unfold Jobs.changed
    rw [changeWhere_none hclosed]
  have hnone : s.jobs.filter (Jobs.isOpen id) = [] := by
    rw [List.filter_eq_nil_iff]
    simpa using hclosed
  rw [← wp_eq_run]
  unfold guarded
  rw [wp_bind, wp_widen, Jobs.statement_wp hs.apart, hsame, hnone]
  exact wp_eq_run.mpr rfl

theorem guarded_missing (hnone : s.hasJob id = false) :
    (guarded id (c.statement id now)).run s = (.error (.notFound id), s) := by
  have hothers : ∀ r ∈ s.jobs, (r.id == id) = false := by simpa [Store.hasJob] using hnone
  have hfind : s.jobs.find? (·.id == id) = none := by
    rw [List.find?_eq_none]
    simpa using hothers
  rw [guarded_refused hs c now fun r hr => by simp [Jobs.isOpen, hothers r hr], ← wp_eq_run]
  unfold ensureChanged Jobs.find
  rw [if_neg (Nat.lt_irrefl 0), wp_bind, wp_widen, wp_bind, wp_store, hfind]
  rfl

/-- A change of a job that has ended changes nothing. -/
theorem guarded_ended {r : JobRow} (hr : r ∈ s.jobs) (hended : r.isActive = false) :
    (guarded r.id (c.statement r.id now)).run s = (.error r.refusal, s) := by
  have hclosed : s.Closed r.id := ⟨r, hr, rfl, hended⟩
  rw [guarded_refused hs c now (hclosed.refused hs), ← wp_eq_run]
  unfold ensureChanged Jobs.find JobRow.refusal
  rw [if_neg (Nat.lt_irrefl 0), wp_bind, wp_widen, wp_bind, wp_store, find?_key hs.jobIds hr]
  dsimp only
  cases r.read with
  | ok job => rfl
  | error e => rfl

end Late

/-- A demand that comes to the same whenever it is made. -/
theorem Ledger.Demand.runs_iff {s : Store} {l : Ledger} {d : Demand} {jobId : String}
    {out : Except JobError Unit}
    (hout : ∀ now, (guarded jobId ((d.change l now).statement jobId now.timestamp)).run s =
      (out, s)) (o : Except JobError Unit) (s' : Store) :
    Surroundings.free.Runs (d.run l jobId).run (s, ()) o (s', ()) ↔ o = out ∧ s' = s := by
  rw [run_eq, atNow_runs_iff]
  constructor
  · rintro ⟨now, hrun⟩
    rw [hout] at hrun
    exact ⟨(congrArg Prod.fst hrun).symm, (congrArg Prod.snd hrun).symm⟩
  · rintro ⟨rfl, rfl⟩
    exact ⟨default, hout _⟩

/-- A job that is there is not missed. -/
theorem Ledger.Demand.not_missed {s s' : Store} (hs : s.Sound) {l : Ledger} {d : Demand}
    {r : JobRow} (hr : r ∈ s.jobs) {o : Except JobError Unit}
    (h : Surroundings.free.Runs (d.run l r.id).run (s, ()) o (s', ())) :
    o ≠ .error (.notFound r.id) := by
  rw [run_eq, atNow_runs_iff] at h
  obtain ⟨now, hrun⟩ := h
  by_cases hactive : r.isActive = true
  · rw [guarded_made hs _ _ ⟨r, hr, Jobs.isOpen_iff.mpr ⟨rfl, hactive⟩⟩] at hrun
    obtain ⟨rfl, -⟩ := Prod.mk.inj hrun
    exact nofun
  · rw [guarded_ended hs _ _ hr (Bool.not_eq_true _ ▸ hactive)] at hrun
    obtain ⟨rfl, -⟩ := Prod.mk.inj hrun
    unfold JobRow.refusal
    cases r.read with
    | ok job => exact nofun
    | error e => exact nofun

theorem JobRow.isActive_eq_false_iff {r : JobRow} :
    r.isActive = false ↔ r.status.isTerminal = true := by
  simp [isActive]

/-- Whatever calls take turns, no job goes away, one that has ended stays as it is, and the history
of a job is continued. A demand on a job that has ended changes nothing; if the row can be read, it
is told how the job has ended. That there is no such job is told exactly if there is none. -/
theorem ended_jobs_stay {c c' : Scene} (hc : Relation.ReflTransGen Scene.Step Scene.start c)
    (hsteps : Relation.ReflTransGen Scene.Step c c') :
    (∀ r ∈ c.store.jobs, ∃ r', c'.store.jobs.filter (·.id == r.id) = [r'] ∧
      (r.status.isTerminal = true → r' = r)) ∧
    (∀ jobId, ∃ before after : List EventRow,
      (Jobs.events jobId : Txn StoreError _).run c.store = (.ok before, c.store) ∧
      (Jobs.events jobId : Txn StoreError _).run c'.store = (.ok after, c'.store) ∧
      before <+: after) ∧
    ∀ (l : Ledger) (d : Ledger.Demand) (jobId : String),
      let outcome (o : Except JobError Unit) (s' : Store) : Prop :=
        Surroundings.free.Runs (d.run l jobId).run (c.store, ()) o (s', ())
      (c.store.hasJob jobId = false →
        ∀ o s', outcome o s' ↔ o = .error (.notFound jobId) ∧ s' = c.store) ∧
      ∀ r ∈ c.store.jobs, r.id = jobId →
        (∀ o s', outcome o s' → o ≠ .error (.notFound jobId)) ∧
        (r.status.isTerminal = true → ∃ e,
          (∀ o s', outcome o s' ↔ o = .error e ∧ s' = c.store) ∧
          (e = .terminal jobId r.status ↔ r.Legible)) := by
  have hreachable : c.store.Reachable := ⟨c.flows, hc⟩
  have hs := hreachable.sound
  have hcounted := (hreachable.keeps Store.counted_unharmed ⟨.empty, fun _ h => nomatch h⟩).2
  have hsince := Scene.lasts (Store.Since.unharmed c.store) hc hsteps ⟨hs, .refl c.store⟩
  have hbefore := hreachable.keeps (Store.Recorded.unharmed []) ⟨List.nil_prefix, .nil⟩
  have hafter := Scene.lasts (Store.Recorded.unharmed c.store.events) hc hsteps
    ⟨List.prefix_rfl, hbefore.ascending⟩
  refine ⟨fun r hr => ?_, fun jobId => ?_, fun l d jobId => ⟨fun hnone => ?_, ?_⟩⟩
  · obtain ⟨r', hrow, hended⟩ := hsince.2.rows hsince.1 hr
    exact ⟨r', hrow, fun hterminal => hended (JobRow.isActive_eq_false_iff.mpr hterminal)⟩
  · exact ⟨_, _, hbefore.events_run jobId, hafter.events_run jobId, hafter.prefix_filter jobId⟩
  · exact Ledger.Demand.runs_iff fun now => guarded_missing hs _ _ hnone
  · rintro r hr rfl
    refine ⟨fun o s' h => Ledger.Demand.not_missed hs hr h, fun hterminal => ⟨r.refusal, ?_, ?_⟩⟩
    · have hended := JobRow.isActive_eq_false_iff.mpr hterminal
      exact Ledger.Demand.runs_iff fun now => guarded_ended hs _ _ hr hended
    · exact r.refusal_eq_iff.trans (hcounted r hr).exists_read_iff

/-- A job that concerns no document. -/
def detachedJob (params : Json) : NewJob := ⟨"o", none, .generateQuestions, params⟩

def queuedStore (params : Json) : Store :=
  ((Jobs.insert ((detachedJob params).toJob "j" ⟨0, 0⟩ .minute)).run Store.empty).2

/-- The store after the job was queued and completed. -/
def endedStore (params : Json) : Store :=
  ((Ledger.completed "j" none ⟨0, 0⟩).run (queuedStore params)).2

theorem endedStore_reachable (params : Json) : (endedStore params).Reachable := by
  have hqueued : (queuedStore params).Reachable :=
    Store.Reachable.empty.run (.enqueue ⟨.minute⟩ (detachedJob params))
      ⟨"j", (Store.empty, ()), ⟨rfl, trivial⟩, ⟨0, 0⟩, (Store.empty, ()), ⟨rfl, trivial⟩,
        .ok (), (queuedStore params, ()), ⟨rfl, rfl⟩, rfl, rfl⟩
  exact hqueued.run (.markCompleted "j" none)
    ⟨⟨0, 0⟩, (queuedStore params, ()), ⟨rfl, trivial⟩, .ok (), (endedStore params, ()),
      ⟨rfl, rfl⟩, rfl, rfl⟩

/-- The job that was completed. -/
def endedRow (params : Json) : JobRow :=
  (Jobs.Change.completed none).apply (Instant.mk 0 0).timestamp
    (Jobs.rowOf ((detachedJob params).toJob "j" ⟨0, 0⟩ .minute) .queued)

theorem endedRow_mem (params : Json) : endedRow params ∈ (endedStore params).jobs :=
  List.mem_singleton_self _

/-- The job is refused every demand, in the way that its row tells. -/
theorem endedStore_refuses (params : Json) (o : Except JobError Unit) (s' : Store) :
    Surroundings.free.Runs (Ledger.markRunning "j").run (endedStore params, ()) o (s', ()) ↔
      o = .error (endedRow params).refusal ∧ s' = endedStore params :=
  Ledger.Demand.runs_iff (l := ⟨.minute⟩) (d := .running)
    (fun now => guarded_ended (endedStore_reachable params).sound _ now.timestamp
      (endedRow_mem params) rfl) o s'

/-- A job without parameters is completed and an event is added: the job is the same, and it is
not set running again. -/
theorem ended_jobs_stay_completed :
    ∃ c c' : Scene, c.store = endedStore (.object []) ∧ c'.store.events.length = 1 ∧
      c'.store.jobs.filter (·.id == "j") = [endedRow (.object [])] ∧
      ∀ o s', Surroundings.free.Runs (Ledger.markRunning "j").run (c.store, ()) o (s', ()) ↔
        o = .error (.terminal "j" .completed) ∧ s' = c.store := by
  obtain ⟨flows, hc⟩ := endedStore_reachable (.object [])
  let note := Call.addEvent "j" .info none "done" none
  let noted := ((Jobs.insertEvent "j" .info none "done" none (Instant.mk 0 0).timestamp).run
    (endedStore (.object []))).2
  have hrun : Surroundings.free.Runs note.flow (endedStore (.object []), ()) () (noted, ()) :=
    ⟨⟨0, 0⟩, (endedStore (.object []), ()), ⟨rfl, trivial⟩, .ok (), (noted, ()), ⟨rfl, rfl⟩, rfl, rfl⟩
  have hcall := Store.Reachable.steps_of_runs flows [] hrun
  have hstay := ended_jobs_stay hc (.head (.call _ flows note) hcall)
  have hmem := endedRow_mem (.object [])
  obtain ⟨r', hrow, hsame⟩ := hstay.1 _ hmem
  obtain ⟨e, htold, hlegible⟩ := (((hstay.2.2 ⟨.minute⟩ .running "j").2 _ hmem rfl).2 rfl)
  obtain rfl : r' = endedRow (.object []) := hsame rfl
  have hparams : (endedRow (.object [])).params = .ofJson (.object []) := rfl
  obtain rfl := hlegible.mpr ⟨⟨.object [], hparams ▸ StoredJson.read_ofJson rfl⟩, nofun⟩
  exact ⟨_, _, rfl, rfl, hrow, htold⟩

/-- A value with containers one within the other. -/
def nested : Nat → Json
  | 0 => .null
  | n + 1 => .array [nested n]

theorem toList_nested (n : Nat) : (nested n).compact.toList =
    List.replicate n '[' ++ ['n', 'u', 'l', 'l'] ++ List.replicate n ']' := by
  induction n with
  | zero => decide
  | succ n ih =>
    rw [List.replicate_succ, List.replicate_succ']
    simp [nested, Json.compact, Json.compactItems, ih]

/-- What is kept as its text is read by reading the text. -/
theorem StoredJson.unread_ofJson {j : Json} (hdurable : j.isDurable = false)
    (hparse : (Json.parse j.compact).isOk = false) : (StoredJson.ofJson j).read.isOk = false := by
  rw [ofJson, if_neg (by simp [hdurable])]
  unfold read
  cases hread : Json.parse j.compact with
  | ok j => rw [hread] at hparse; cases hparse
  | error fault => simp only [hread]; rfl

/-- What is deeper than what is read is stored nevertheless. -/
theorem nested_unread : (StoredJson.ofJson (nested 128)).read.isOk = false := by
  refine StoredJson.unread_ofJson (by decide +kernel) ?_
  show ((Json.documentOf ((nested 128).compact.toList.map some)).read Json.Shape.any).isOk = false
  rw [toList_nested]
  decide +kernel

/-- A row whose parameters cannot be read tells nothing. -/
theorem JobRow.refusal_of_unread {r : JobRow} (h : r.params.read.isOk = false) :
    ∃ e, r.refusal = .store e := by
  unfold refusal
  cases hread : r.read with
  | error e => exact ⟨e, rfl⟩
  | ok job =>
    rw [(shows_of_read hread).params] at h
    cases h

/-- Parameters are stored however deep they are, but not read: then a completed job does not tell
that it is completed. -/
theorem ended_job_unread :
    (endedStore (nested 128)).Reachable ∧
      (∃ r ∈ (endedStore (nested 128)).jobs, r.id = "j" ∧ r.status = .completed) ∧
      ∀ o s', Surroundings.free.Runs (Ledger.markRunning "j").run (endedStore (nested 128), ()) o
        (s', ()) → ∃ e, o = .error (.store e) := by
  have hunread := nested_unread
  generalize nested 128 = params at hunread ⊢
  obtain ⟨e, he⟩ := JobRow.refusal_of_unread (r := endedRow params) hunread
  refine ⟨endedStore_reachable params, ⟨_, endedRow_mem params, rfl, rfl⟩, fun o s' h => ⟨e, ?_⟩⟩
  rw [((endedStore_refuses params o s').mp h).1, he]

end Quire
