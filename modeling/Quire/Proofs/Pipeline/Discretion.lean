import Quire.Pipeline.Publish
import Quire.Proofs.Job.Lock
import Quire.Proofs.Pipeline.Twins
import Quire.Question.Runner

/-! What callers learn when the store fails.

Two runs may differ in nothing but the errors with which the store fails some of their
transactions. Then their callers are told the same, and so is everybody who reads the store: an
error of the store goes into the trace of an event and nowhere else. The one exception is the event
about a failed generation, whose message ends with the text of the failure itself. -/
namespace Quire

/-! ### Generation and its twin

A generation job asks what it would ask otherwise, whatever the store fails with, and tells its
caller the same; but the message of the event about its failure has the failure's own text behind
it, so this event is alike only where its message is hidden. -/

section Twins
variable {v : Veil}

namespace QuestionCache

theorem withIds_alike {ε α : Type} [Widen StoreError ε] (items : List α) :
    Run.Alike v Eq (withIds items : Run ε _) (withIds items) := by
  induction items with
  | nil => exact .pure rfl
  | cons a rest ih => exact .next .freshId fun _ => .next ih fun _ => .pure rfl

theorem getOrGenerate_alike (hv : v.times = false) (ownerId : String) (documentId : Option String)
    (text : String) (p : QuestionParams) :
    (getOrGenerate ownerId documentId text p).Alike v Eq
      (getOrGenerate ownerId documentId text p) := by
  refine .next (.ofExcept _) fun _ => .next (.transact (Artifacts.find_alike _ _)) fun kept => ?_
  split
  · exact .next (.ofExcept _) fun _ => .pure rfl
  · refine .next (.request rfl) fun questions => Run.Alike.clock.bind fun now _ ht => ?_
    obtain rfl := ht.eq hv
    exact .next (withIds_alike questions) fun _ =>
      .next (.transact (Artifacts.insertAll_alike _)) fun _ => .pure rfl

end QuestionCache

namespace GenerationJob

theorem generate_alike (hv : v.times = false) (job : Job) :
    (generate job).Alike v Eq (generate job) := by
  refine .next (.ofExcept _) fun p => .next (.transact (Versions.find_alike _)) fun found => ?_
  cases found with
  | none => exact .throw (.refl _)
  | some version =>
    exact .next (.widen (QuestionCache.getOrGenerate_alike hv _ _ _ _)) fun _ => .pure rfl

/-- The event about a failed generation, told with another failure. -/
theorem report_alike (hv : v.reports = true) (jobId message : String) (e e' : PipelineError) :
    (Ledger.report jobId .error (some "generate") message e).Alike v Eq
      (Ledger.report jobId .error (some "generate") message e') :=
  Run.Alike.clock.bind fun _ _ ht => .transact <| Jobs.insertEvent_alike _ _ _ fun id => by
    simp [EventRow.veiled, EventRow.isFailedGeneration, hv, ht.time Instant.timestamp]

theorem settle_alike (hv : v.reports = true) (jobId : String)
    {o o' : Except PipelineError GenerationOutcome} (h : Outcomes Eq o o') :
    (settle jobId o).Alike v Eq (settle jobId o') := by
  cases h with
  | @ok outcome outcome' ho =>
    obtain rfl := ho
    exact .next (.widen (Ledger.markCompleted_alike jobId _)) fun _ =>
      .next (.widen (Ledger.note_alike jobId _ _ _)) fun _ => .pure rfl
  | @error e e' he =>
    unfold settle
    dsimp only
    rw [he.publicMessage]
    exact .next (.widen (Ledger.markFailed_alike jobId _)) fun _ =>
      .next (.widen (report_alike hv jobId _ e e')) fun _ => .throw he

theorem run_alike (htimes : v.times = false) (hreports : v.reports = true) (jobId : String) :
    (run jobId).Alike v Eq (run jobId) := by
  refine (Run.Alike.widen (Ledger.find_alike jobId)).bind fun job job' h => ?_
  rw [Job.veiled_eq htimes, Job.veiled_eq htimes] at h
  obtain rfl := h
  refine .next (.ofExcept _) fun jobType => ?_
  have hsettle : Run.Alike v Eq (do settle jobId (← Run.outcome (generate job)))
      (do settle jobId (← Run.outcome (generate job))) :=
    (Run.Alike.outcome (generate_alike htimes job)).bind fun _ _ ho => settle_alike hreports jobId ho
  dsimp only
  split
  · exact .throw_bind
  · split
    · exact .throw_bind
    · split
      · exact .next (.widen (Ledger.markRunning_alike jobId)) fun _ => hsettle
      · exact hsettle

end GenerationJob

end Twins

/-! ### What is told -/

/-- An event without its trace. -/
def EventRow.untraced (e : EventRow) : EventRow := { e with trace := none }

/-- An event without its trace and, if it tells of a failed generation, without its message. -/
def EventRow.unreported (e : EventRow) : EventRow :=
  { e with message := if e.isFailedGeneration then "" else e.message, trace := none }

/-- Stores that differ in nothing but what `shown` leaves out of events. -/
def Store.SameBut (shown : EventRow → EventRow) (s s' : Store) : Prop :=
  { s with events := s.events.map shown } = { s' with events := s'.events.map shown }

/-- Situations that differ in nothing but that, and in the errors with which the store is going to
fail transactions; it fails the same ones. -/
structure Situation.SameBut {σ : Type} (shown : EventRow → EventRow) (m m' : Situation σ) : Prop where
  store : m.store.SameBut shown m'.store
  memory : m.memory = m'.memory
  clock : m.clock = m'.clock
  outages : ∀ n, (m.outages n).isSome = (m'.outages n).isSome

/-- What the caller of an operation is told. -/
def told {α : Type} (o : Except PipelineError α) : Except String α :=
  o.mapError PipelineError.publicMessage

/-- Whichever errors the store fails with, the caller is told the same, and nothing is different
afterwards but what `shown` leaves out of events. -/
def Run.Discreet {α : Type} (shown : EventRow → EventRow) (r : Run PipelineError α) : Prop :=
  ∀ {σ : Type} (w : Oracle σ) (m m' : Situation σ), m.SameBut shown m' →
    told (w.run r.run m).1 = told (w.run r.run m').1 ∧
      (w.run r.run m).2.SameBut shown (w.run r.run m').2

/-! ### Veils that hide no times -/

section Veils
variable {v : Veil} (hv : v.times = false)
include hv

theorem Store.veiled_eq (s : Store) :
    s.veiled v = { s with events := s.events.map (EventRow.veiled v) } := by
  have hdocuments : DocumentRow.veiled v = id := funext fun r => by
    simp [DocumentRow.veiled, Veil.time_eq hv]
  have hpages : PageRow.veiled v = id := funext fun r => by simp [PageRow.veiled, Veil.time_eq hv]
  have hjobs : JobRow.veiled v = id := funext fun r => by simp [JobRow.veiled, Veil.time_eq hv]
  simp [Store.veiled, hdocuments, hpages, hjobs]

theorem Situation.sameBut_iff {σ : Type} {m m' : Situation σ} :
    m.SameBut (EventRow.veiled v) m' ↔ m.Alike v m' := by
  have hclock : m.clock = m'.clock ↔ ∀ n, v.Same (m.clock n) (m'.clock n) := by
    rw [funext_iff]
    exact forall_congr' fun n => ⟨.inr, (·.eq hv)⟩
  constructor
  · intro h
    refine ⟨?_, h.memory, hclock.mp h.clock, h.outages⟩
    rw [Store.veiled_eq hv, Store.veiled_eq hv]
    exact h.store
  · intro h
    refine ⟨?_, h.memory, hclock.mpr h.clock, h.outages⟩
    have hstore := h.store
    rw [Store.veiled_eq hv, Store.veiled_eq hv] at hstore
    exact hstore

/-- Of failures that are alike, callers are told the same. -/
theorem Run.Alike.discreet {α : Type} {r : Run PipelineError α} (h : r.Alike v Eq r) :
    r.Discreet (EventRow.veiled v) := by
  intro σ w m m' hm
  obtain ⟨ho, hm'⟩ := h.ends w ((Situation.sameBut_iff hv).mp hm)
  refine ⟨?_, (Situation.sameBut_iff hv).mpr hm'⟩
  generalize (w.run r.run m).1 = o, (w.run r.run m').1 = o' at ho
  cases ho with
  | ok ha => exact congrArg Except.ok ha
  | error he => exact congrArg Except.error he.publicMessage

end Veils

theorem EventRow.untraced_eq : EventRow.untraced = EventRow.veiled ⟨false, false⟩ := rfl

theorem EventRow.unreported_eq : EventRow.unreported = EventRow.veiled ⟨false, true⟩ := rfl

/-- **Errors of the store stay inside.** Whichever of its transactions the store fails, and
whatever with: an ingestion, a poll and a wait tell their caller the same, and leave the same
documents, pages and jobs with their messages, the same events with theirs, and everything else the
same but the traces of events. So does the run of a generation job, but for the message of the
event about its failure. -/
theorem store_errors_stay_inside (p : Pipeline) :
    (∀ documentId ownerId, (p.ingest documentId ownerId).Discreet EventRow.untraced) ∧
      (∀ jobId, (p.poll jobId).Discreet EventRow.untraced) ∧
      (∀ jobId, (p.wait jobId).Discreet EventRow.untraced) ∧
      ∀ jobId, (GenerationJob.run jobId).Discreet EventRow.unreported := by
  rw [EventRow.untraced_eq, EventRow.unreported_eq]
  refine ⟨fun documentId ownerId => ?_, fun jobId => ?_, fun jobId => ?_, fun jobId => ?_⟩
  · exact (p.ingest_alike rfl documentId ownerId).discreet rfl
  · exact (p.poll_alike jobId).discreet rfl
  · exact (p.wait_alike jobId).discreet rfl
  · exact (GenerationJob.run_alike rfl rfl jobId).discreet rfl

/-! ### A generation that fails in the store -/

namespace Undisclosed

/-- Nobody but the store and the clock is asked. -/
noncomputable def oracle : Oracle Unit := ⟨fun e _ => (Classical.choice e.nonempty, ())⟩

/-- A queued generation job. -/
def queued : Store :=
  { Store.empty with jobs := [(Pipeline.generationJob "o" "v" .standard).row "j" ⟨0, 0⟩ .minute] }

/-- The store fails the reading of the version, the third transaction of the run. -/
def failing (f : StoreError) : Situation Unit :=
  ⟨queued, (), fun _ => ⟨0, 0⟩, fun n => if n = 2 then some f else none⟩

theorem failing_sameBut (f f' : StoreError) :
    (failing f).SameBut EventRow.untraced (failing f') where
  store := rfl
  memory := rfl
  clock := rfl
  outages n := by
    show (if n = 2 then some f else none).isSome = (if n = 2 then some f' else none).isSome
    split
    · rfl
    · rfl

/-- The event about the failure spells the error out. -/
theorem message_run (f : StoreError) :
    (oracle.run (GenerationJob.run "j").run (failing f)).2.store.events.map (·.message) =
      ["Question generation failed: Internal error: " ++ Failure.message f] := by
  rfl

end Undisclosed

open Undisclosed in
/-- The message of the event about a failed generation tells an error of the store. -/
theorem generation_events_tell : ¬ (GenerationJob.run "j").Discreet EventRow.untraced := by
  intro h
  obtain ⟨-, hsame⟩ := h oracle _ _ (failing_sameBut .lockPoisoned .versionsExhausted)
  have hmessages := congrArg (fun s : Store => s.events.map (·.message)) hsame.store
  have huntraced : ∀ events : List EventRow,
      (events.map EventRow.untraced).map (·.message) = events.map (·.message) := fun events => by
    simp [EventRow.untraced]
  dsimp only at hmessages
  rw [huntraced, huntraced, message_run, message_run] at hmessages
  exact absurd hmessages (by decide)

end Quire
