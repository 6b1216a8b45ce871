import Quire.Proofs.Flow.Outages
import Quire.Proofs.Pipeline.Discretion
import Quire.Proofs.Pipeline.Requests
import Quire.Proofs.Pipeline.Settling

/-! How the run of a generation job ends.

With nobody else about, the job that a run has found is open until the run itself ends it
(`GenerationJob.Open`). What happens in between has nothing to do with jobs, so whatever becomes of
it, and whichever of its transactions the store fails, the job is ended with the outcome that the
run has (`GenerationJob.Settles`). A job that is not to be run is left alone. -/
namespace Quire
open Txn
variable {σ ε α β : Type}

/-! ### Transactions that have nothing to do with jobs -/

/-- Whatever documents, jobs and events there are, the transaction comes to the same and leaves them
as they are. -/
def Txn.Detached (t : Txn ε α) : Prop :=
  ∀ (s : Store) (documents : List DocumentRow) (jobs : List JobRow) (events : List EventRow),
    t { s with documents := documents, jobs := jobs, events := events } = (t s).map fun out =>
      (out.1, { out.2 with documents := documents, jobs := jobs, events := events })

/-- Transactions that have nothing to do with documents, jobs and events. -/
def detached : TxnKind := fun _ _ t => t.Detached

namespace Txn.Detached

theorem pure (a : α) : (Pure.pure a : Txn ε α).Detached := fun _ _ _ _ => rfl

theorem ofExcept (r : Except ε α) : (Txn.ofExcept r).Detached := by
  intro s documents jobs events
  cases r with
  | ok a => rfl
  | error e => rfl

theorem require (holds : Bool) (e : ε) : (Txn.require holds e).Detached := by
  intro s documents jobs events
  cases holds with
  | true => rfl
  | false => rfl

theorem modify {f : Store → Store}
    (hf : ∀ s documents jobs events,
      f { s with documents := documents, jobs := jobs, events := events } =
        { f s with documents := documents, jobs := jobs, events := events }) :
    (Txn.modify f : Txn ε Unit).Detached :=
  fun s documents jobs events => congrArg (fun s' => Except.ok ((), s')) (hf s documents jobs events)

theorem bind {t : Txn ε β} {f : β → Txn ε α} (ht : t.Detached) (hf : ∀ b, (f b).Detached) :
    (t >>= f).Detached := by
  intro s documents jobs events
  have hbind : ∀ s, (t >>= f) s = (t s).bind fun out => f out.1 out.2 := fun s => by
    dsimp only [Bind.bind]
    cases t s <;> rfl
  rw [hbind, hbind, ht s documents jobs events]
  cases t s with
  | ok out => exact hf out.1 out.2 documents jobs events
  | error e => rfl

/-- What goes on from other tables. -/
theorem look {f : Store → Txn ε α}
    (hsame : ∀ s documents jobs events,
      f { s with documents := documents, jobs := jobs, events := events } = f s)
    (hf : ∀ s, (f s).Detached) : (Txn.store >>= f).Detached := by
  intro s documents jobs events
  show f { s with documents := documents, jobs := jobs, events := events } _ = (f s s).map _
  rw [hsame]
  exact hf s s documents jobs events

/-- What is said of documents, jobs and events still holds afterwards. -/
theorem keeps {t : Txn ε α} (ht : t.Detached) {I : Store → Prop}
    (hI : ∀ s s', s'.documents = s.documents → s'.jobs = s.jobs → s'.events = s.events → I s → I s') :
    t.Keeps I := by
  intro s hs
  have hsame := ht s s.documents s.jobs s.events
  unfold wp
  cases hts : t s with
  | ok out =>
    rw [hts] at hsame
    have hstore : out.2 =
        { out.2 with documents := s.documents, jobs := s.jobs, events := s.events } :=
      congrArg Prod.snd (Except.ok.inj hsame)
    have hdocuments := congrArg Store.documents hstore
    have hjobs := congrArg Store.jobs hstore
    have hevents := congrArg Store.events hstore
    exact hI s out.2 hdocuments hjobs hevents hs
  | error e => trivial

/-- Not so a transaction that succeeds with some jobs and fails with others. -/
theorem not_of_wp {t : Txn ε α} {s : Store} (jobs jobs' : List JobRow)
    (hok : t.wp (fun _ _ => True) (fun _ => False) { s with jobs := jobs })
    (herror : t.wp (fun _ _ => False) (fun _ => True) { s with jobs := jobs' }) :
    ¬ t.Detached := by
  intro ht
  unfold wp at hok herror
  rw [ht s s.documents jobs s.events] at hok
  rw [ht s s.documents jobs' s.events] at herror
  cases hts : t s with
  | ok out =>
    rw [hts] at herror
    exact herror
  | error e =>
    rw [hts] at hok
    exact hok

end Txn.Detached

open Txn (Detached)

theorem Versions.find_detached (id : String) : (Versions.find id).Detached := by
  refine Detached.look (fun _ _ _ _ => rfl) fun s => ?_
  cases s.versions.find? (·.id == id) with
  | none => exact Detached.pure _
  | some v => exact (Detached.ofExcept _).bind fun _ => Detached.pure _

theorem Artifacts.find_detached (ownerId sourceHash : String) :
    (Artifacts.find ownerId sourceHash).Detached :=
  Detached.look (fun _ _ _ _ => rfl) fun _ => Detached.ofExcept _

theorem Artifacts.insertAll_detached (artifacts : List Artifact) :
    (Artifacts.insertAll artifacts).Detached := by
  induction artifacts with
  | nil => exact Detached.pure ()
  | cons a rest ih =>
    have hinsert : (Artifacts.insert a).Detached := Detached.look (fun _ _ _ _ => rfl) fun _ =>
      (Detached.require _ _).bind fun _ => Detached.modify fun _ _ _ _ => rfl
    exact hinsert.bind fun _ => ih

/-- Generating for a job has nothing to do with jobs, and comes to an outcome for that job. -/
theorem GenerationJob.generate_detached (job : Job) :
    (generate job).Abides (.issuing detached) fun o => o.jobId = job.id := by
  refine .bind (R := fun _ => True) (.ofExcept fun _ _ => trivial) fun p _ => ?_
  refine .bind (.issue (Versions.find_detached p.versionId)) fun found _ => ?_
  cases found with
  | none => exact .throw _
  | some v =>
    have hquestions : (QuestionCache.getOrGenerate job.ownerId (some v.documentId) v.joinedText
        p.questions).Abides (.issuing detached) fun _ => True :=
      QuestionCache.getOrGenerate_abides trivial trivial trivial
        (fun _ => Artifacts.find_detached _ _) fun _ _ _ => Artifacts.insertAll_detached _
    exact .bind hquestions.widen fun _ _ => .pure rfl

/-! The transactions of the ledger have to do with jobs. -/

/-- The row of an open job of an id. -/
def JobRow.openOf (id : String) : JobRow := { (default : JobRow) with id := id, status := .queued }

theorem Jobs.find_not_detached (id : String) : ¬ (Jobs.find id).Detached := by
  -- A row that cannot be read is a failure, and no row is none.
  refine Detached.not_of_wp (s := .empty) [] [{ JobRow.openOf id with doneSteps := .text "" }]
    trivial ?_
  have hfound : [{ JobRow.openOf id with doneSteps := .text "" }].find? (·.id == id) =
      some { JobRow.openOf id with doneSteps := .text "" } := by
    simp [JobRow.openOf]
  unfold Jobs.find
  rw [wp_bind, wp_store, hfound]
  exact trivial

theorem guarded_not_detached (c : Jobs.Change) (id now : String) :
    ¬ (guarded id (c.statement id now)).Detached := by
  refine Detached.not_of_wp (s := .empty) [JobRow.openOf id] [] ?_ ?_
  · have hopen : Jobs.isOpen id (JobRow.openOf id) = true := Jobs.isOpen_iff.mpr ⟨rfl, rfl⟩
    refine Jobs.guarded_wp (List.pairwise_singleton _ _) c id now (fun _ => trivial) fun hnone => ?_
    exact absurd hopen (by simp [hnone _ List.mem_cons_self])
  · exact Jobs.guarded_wp .nil c id now (fun ⟨_, hr, _⟩ => nomatch hr) fun _ _ => trivial

theorem Jobs.insertEvent_not_detached (id : String) (kind : EventKind) (step : Option String)
    (message : String) (trace : Option String) (now : String) :
    ¬ (Jobs.insertEvent id kind step message trace now).Detached := by
  refine Detached.not_of_wp (s := .empty) [JobRow.openOf id] [] ?_ ?_
  · simp [Jobs.insertEvent, Store.hasJob, JobRow.openOf]
  · simp [Jobs.insertEvent, Store.hasJob]

/-! ### The ledger, which the store does not fail -/

section
variable {w : Surroundings σ} {s : Store} {x : σ} {jobId : String}

/-- The ledger finds the job that the store has, or it fails. -/
theorem Ledger.find_despite {Q : Job → Moment σ → Prop} {E : JobError → Moment σ → Prop}
    (hfound : ∀ job, (Jobs.find jobId).run s = (.ok (some job), s) → Q job (s, x))
    (hnone : (∀ job, (Jobs.find jobId).run s ≠ (.ok (some job), s)) → ∀ e, E e (s, x)) :
    Run.Leads (w.despite detached) Q E (Ledger.find jobId) (s, x) := by
  have hsame : ((Jobs.find jobId).run s).2 = s := (Jobs.find_readOnly jobId s).run rfl
  have hrun : ∀ {o}, ((Jobs.find jobId).run s).1 = o → (Jobs.find jobId).run s = (o, s) :=
    fun ho => Prod.ext ho hsame
  unfold Ledger.find
  rw [Run.Leads.bind, Run.Leads.transact, Surroundings.despite_transact, Txn.wp_iff_run]
  refine ⟨⟨fun found ho => ?_, fun e ho => ?_⟩, fun h => absurd h (Jobs.find_not_detached jobId)⟩
  · rw [hsame]
    cases found with
    | none => exact hnone (fun job h => by rw [hrun ho] at h; cases h) _
    | some job => exact hfound job (hrun ho)
  · exact hnone (fun job h => by rw [hrun ho] at h; cases h) _

/-- An open job is changed. -/
theorem Ledger.change_despite (hs : s.Sound) (hopen : ∃ r ∈ s.jobs, Jobs.isOpen jobId r = true)
    (c : Jobs.Change) {Q : Moment σ → Prop} {E : JobError → Moment σ → Prop}
    (hQ : ∀ now x', Q (Jobs.changed s jobId now c, x')) :
    Run.Leads (w.despite detached) (fun _ => Q) E
      (atNow fun now => guarded jobId (c.statement jobId now.timestamp)) (s, x) := by
  unfold atNow Run.clock
  rw [Run.Leads.bind, Run.Leads.perform, Surroundings.despite_iff rfl]
  intro now x' _
  rw [Run.Leads.transact, Surroundings.despite_transact]
  refine ⟨Jobs.guarded_wp hs.apart c jobId _ (fun _ => hQ _ x') fun hnone => ?_,
    fun h => absurd h (guarded_not_detached c jobId _)⟩
  obtain ⟨r, hr, hropen⟩ := hopen
  exact absurd hropen (by simp [hnone r hr])

/-- An event about a job that is there is added. -/
theorem Ledger.addEvent_despite (hjob : s.hasJob jobId = true) (kind : EventKind)
    (step : Option String) (message : String) (trace : Option String) {Q : Moment σ → Prop}
    {E : JobError → Moment σ → Prop}
    (hQ : ∀ id now x', Q ({ s with
      events := s.events ++ [⟨id, jobId, kind, step, message, trace, now⟩], eventSeq := id }, x')) :
    Run.Leads (w.despite detached) (fun _ => Q) E (addEvent jobId kind step message trace)
      (s, x) := by
  unfold addEvent Run.clock
  rw [Run.Leads.bind, Run.Leads.perform, Surroundings.despite_iff rfl]
  intro now x' _
  rw [Run.Leads.transact, Surroundings.despite_transact]
  refine ⟨?_, fun h => absurd h (Jobs.insertEvent_not_detached jobId kind step message trace _)⟩
  simp only [Jobs.insertEvent, wp_bind, wp_store, wp_require, wp_modify, hjob]
  exact ⟨fun _ => hQ _ _ x', by simp⟩

end

/-! ### The job of a run -/

namespace GenerationJob

/-- The job is there as it was found and has not ended, and these are the events. -/
structure Open (events : List EventRow) (job : Job) (s : Store) : Prop where
  sound : s.Sound
  events : s.events = events
  row : ∃ r ∈ s.jobs, r.isActive = true ∧ ∃ found, r.read = .ok found ∧ found.id = job.id ∧
    found.result = job.result ∧ found.errorMessage = job.errorMessage

/-- What a run leaves of its job, and what it adds to the history. -/
structure Settles (before : Store) (job : Job) (o : Except PipelineError GenerationOutcome)
    (s : Store) : Prop where
  /-- The job has ended with the outcome. -/
  ended : ∃ ended, (Jobs.find job.id).run s = (.ok (some ended), s) ∧
    match o with
    | .ok out => out.jobId = job.id ∧ ended.status = .completed ∧
        ended.errorMessage = job.errorMessage ∧
        ended.result = some (.ofMembers
          [("question_count", .ofNat out.questions.length), ("cache_hit", .bool out.cacheHit),
            ("version_id", .text out.versionId)])
    | .error e => ended.status = .failed ∧ ended.errorMessage = some e.publicMessage ∧
        ended.result = job.result
  /-- One event tells of it. -/
  event : ∃ event, s.events = before.events ++ [event] ∧ event.jobId = job.id ∧
    event.step = some "generate" ∧
    match o with
    | .ok _ => event.kind = .info
    | .error _ => event.kind = .error

variable {w : Surroundings σ} {events : List EventRow} {job : Job} {s : Store} {x : σ}

theorem Open.of_same {s' : Store} (h : Open events job s) (hdocuments : s'.documents = s.documents)
    (hjobs : s'.jobs = s.jobs) (hevents : s'.events = s.events) : Open events job s' where
  sound := h.sound.of_same hdocuments hjobs
  events := hevents.trans h.events
  row := hjobs ▸ h.row

theorem Open.isOpen (h : Open events job s) : ∃ r ∈ s.jobs, Jobs.isOpen job.id r = true := by
  obtain ⟨r, hr, hactive, found, hread, hid, -⟩ := h.row
  exact ⟨r, hr, Jobs.isOpen_iff.mpr ⟨(JobRow.shows_of_read hread).id.symm.trans hid, hactive⟩⟩

/-- A change of the job, and what is read of the job then. -/
theorem Open.changed (h : Open events job s) {c : Jobs.Change} (hc : c.Durable) (now : String) :
    ∃ found, found.id = job.id ∧ found.result = job.result ∧
      found.errorMessage = job.errorMessage ∧
      ∃ r ∈ (Jobs.changed s job.id now c).jobs, r.read = .ok (c.onJob now found) := by
  obtain ⟨r, hr, hactive, found, hread, hid, hresult, hmessage⟩ := h.row
  have hopen : Jobs.isOpen job.id r = true :=
    Jobs.isOpen_iff.mpr ⟨(JobRow.shows_of_read hread).id.symm.trans hid, hactive⟩
  refine ⟨found, hid, hresult, hmessage, c.apply now r, ?_, JobRow.read_apply hread c hc now⟩
  exact mem_changeWhere.mpr ⟨r, hr, if_pos hopen⟩

/-- The job has been taken up. -/
theorem Open.running (h : Open events job s) (now : String) :
    Open events job (Jobs.changed s job.id now .running) := by
  obtain ⟨found, hid, hresult, hmessage, r, hr, hread⟩ := h.changed (c := .running) trivial now
  exact ⟨h.sound.changeJob _ _ _, h.events, r, hr, (JobRow.shows_of_read hread).isActive_eq, _,
    hread, hid, hresult, hmessage⟩

/-- The job is changed and an event is added: from there on the changed job is found. -/
theorem Open.conclude_despite (h : Open events job s) {c : Jobs.Change} (hc : c.Durable)
    (kind : EventKind) (message : String) (trace : Option String)
    {k : Run PipelineError GenerationOutcome} {Q : GenerationOutcome → Moment σ → Prop}
    {E : PipelineError → Moment σ → Prop}
    (hk : ∀ found now event s' x', found.result = job.result →
      found.errorMessage = job.errorMessage →
      (Jobs.find job.id).run s' = (.ok (some (c.onJob now found)), s') →
      s'.events = events ++ [event] → event.jobId = job.id → event.step = some "generate" →
      event.kind = kind → Run.Leads (w.despite detached) Q E k (s', x')) :
    Run.Leads (w.despite detached) Q E
      (do
        Run.widen (Ledger.atNow fun now => guarded job.id (c.statement job.id now.timestamp))
        Run.widen (Ledger.addEvent job.id kind (some "generate") message trace)
        k) (s, x) := by
  rw [Run.Leads.bind, Run.Leads.widen]
  refine Ledger.change_despite h.sound h.isOpen c fun now x' => ?_
  obtain ⟨found, hid, hresult, hmessage, r, hr, hread⟩ := h.changed hc now
  have hr_id : r.id = job.id := by
    rw [← (JobRow.shows_of_read hread).id, Jobs.Change.onJob_id, hid]
  have hsound := h.sound.changeJob job.id now c
  have hjob : (Jobs.changed s job.id now c).hasJob job.id = true :=
    List.any_eq_true.mpr ⟨r, hr, by simpa using hr_id⟩
  rw [Run.Leads.bind, Run.Leads.widen]
  refine Ledger.addEvent_despite hjob kind _ message trace fun id at_ x'' => ?_
  refine hk found now ⟨id, job.id, kind, some "generate", message, trace, at_⟩ _ x'' hresult hmessage
    ?_ (congrArg (· ++ _) h.events) rfl rfl rfl
  have hnoted : Store.Sound { Jobs.changed s job.id now c with
      events := (Jobs.changed s job.id now c).events ++
        [⟨id, job.id, kind, some "generate", message, trace, at_⟩]
      eventSeq := id } :=
    hsound.of_same rfl rfl
  rw [← hr_id] at hnoted hr ⊢
  exact Jobs.find_run hnoted hr hread

theorem summary_durable (o : GenerationOutcome) : (summary o).isDurable = true := rfl

/-- A job that is open is ended with any outcome, and that is noted. -/
theorem Open.settle_despite {before : Store} (h : Open before.events job s)
    {o : Except PipelineError GenerationOutcome} (ho : ∀ out, o = .ok out → out.jobId = job.id) :
    Run.Leads (w.despite detached) (fun out m => Settles before job (.ok out) m.1)
      (fun e m => Settles before job (.error e) m.1) (settle job.id o) (s, x) := by
  cases o with
  | ok out =>
    refine h.conclude_despite (c := .completed (some (summary out))) (summary_durable out) .info _
      none fun found now event s' x' hresult hmessage hfind hevents hid hstep hkind => ?_
    exact (Run.Leads.pure out).mpr
      ⟨⟨_, hfind, ho out rfl, rfl, hmessage, rfl⟩, event, hevents, hid, hstep, hkind⟩
  | error e =>
    refine h.conclude_despite (c := .failed e.publicMessage) trivial .error _ _
      fun found now event s' x' hresult hmessage hfind hevents hid hstep hkind => ?_
    exact (Run.Leads.throw e).mpr ⟨⟨_, hfind, rfl, rfl, hresult⟩, event, hevents, hid, hstep, hkind⟩

/-- A run settles the job that it has found. -/
theorem run_settles_despite (hs : s.Sound) {jobId : String}
    (hfound : (Jobs.find jobId).run s = (.ok (some job), s))
    (hkind : job.type = .ok .generateQuestions) (hopen : job.status.isTerminal = false) :
    Run.Leads (w.despite detached) (fun out m => Settles s job (.ok out) m.1)
      (fun e m => Settles s job (.error e) m.1) (run jobId) (s, x) := by
  obtain ⟨r, hr, hid, hread⟩ := Jobs.exists_row (congrArg Prod.fst hfound)
  have hshows := JobRow.shows_of_read hread
  obtain rfl : job.id = jobId := hshows.id.trans hid
  have hactive : r.isActive = true := by
    rw [hshows.isActive_eq, hopen]
    rfl
  have hstart : Open s.events job s := ⟨hs, rfl, r, hr, hactive, job, hread, rfl, rfl, rfl⟩
  -- From any store in which the job is open, the rest of the run settles it.
  have hrest : ∀ s' x', Open s.events job s' → Run.Leads (w.despite detached)
      (fun out m => Settles s job (.ok out) m.1) (fun e m => Settles s job (.error e) m.1)
      (do settle job.id (← Run.outcome (generate job))) (s', x') := by
    intro s' x' h
    have hkeeps : ∀ {ε α : Type} {t : Txn ε α}, detached ε α t → t.Keeps (Open s.events job) :=
      fun ht => Detached.keeps ht fun _ _ hdocuments hjobs hevents h =>
        h.of_same hdocuments hjobs hevents
    rw [Run.Leads.bind, Run.Leads.outcome]
    refine ((generate_detached job).leads_despite hkeeps (s', x') h).mono (fun out m hm => ?_)
      fun e m hm => ?_
    · exact hm.2.settle_despite fun out' hout => Except.ok.inj hout ▸ hm.1
    · exact hm.settle_despite nofun
  unfold run
  rw [Run.Leads.bind, Run.Leads.widen]
  refine Ledger.find_despite (fun found hfound' => ?_) fun hnone => absurd hfound (hnone job)
  obtain rfl : job = found := by
    have := hfound.symm.trans hfound'
    simpa using this
  rw [hkind, Run.Leads.bind]
  refine (Run.Leads.pure _).mpr ?_
  dsimp only
  split
  case isTrue hother => exact absurd hother (by decide)
  case isFalse =>
    split
    case isTrue hended => rw [hopen] at hended; cases hended
    case isFalse =>
      split
      · rw [Run.Leads.bind, Run.Leads.widen]
        exact Ledger.change_despite hs hstart.isOpen .running fun now x' =>
          hrest _ x' (hstart.running now)
      · exact hrest s x hstart

/-- A run leaves alone what is not to be run: no job at all, a job of another type, or one that has
ended. -/
theorem run_refused_despite {jobId : String}
    (hnot : ∀ job, (Jobs.find jobId).run s = (.ok (some job), s) →
      job.type = .ok .generateQuestions → job.status.isTerminal = true) :
    Run.Leads (w.despite detached) (fun _ _ => False) (fun _ m => m = (s, x)) (run jobId) (s, x) := by
  unfold run
  rw [Run.Leads.bind, Run.Leads.widen]
  refine Ledger.find_despite (fun job hfound => ?_) fun _ _ => rfl
  rw [Run.Leads.bind]
  cases hkind : job.type with
  | error e => exact (Run.Leads.throw _).mpr rfl
  | ok kind =>
    refine (Run.Leads.pure _).mpr ?_
    dsimp only
    split
    case isTrue => exact (Run.Leads.bind _ _).mpr ((Run.Leads.throw _).mpr rfl)
    case isFalse hsame =>
      have hkind' : kind = .generateQuestions := by simpa using hsame
      rw [if_pos (hnot job hfound (hkind' ▸ hkind))]
      exact (Run.Leads.bind _ _).mpr ((Run.Leads.throw _).mpr rfl)

/-! ### Runs one after the other -/

/-- What is asked of generators is noted, and anything may be answered. -/
def prompting : Surroundings (List (String × QuestionParams)) where
  allows
    | .generate text p, asked, _, asked' => asked' = asked ++ [(text, p)]
    | _, asked, _, asked' => asked' = asked

theorem prompting_live : prompting.Live := by
  refine Surroundings.Live.of_allows fun op asked => ?_
  obtain ⟨b⟩ := op.nonempty
  cases op <;> exact ⟨b, _, rfl⟩

/-- A run by itself, while the store may fail what has nothing to do with jobs. -/
def Ends (w : Surroundings σ) (jobId : String) (m : Moment σ)
    (o : Except PipelineError GenerationOutcome) (m' : Moment σ) : Prop :=
  w.RunsDespite detached (run jobId).run m o m'

/-- Runs one after the other, with the jobs that they are for and their outcomes. -/
inductive EndInTurn (w : Surroundings σ) : Moment σ →
    List (String × Except PipelineError GenerationOutcome) → Moment σ → Prop
  | nil (m : Moment σ) : EndInTurn w m [] m
  | cons {m m' m'' : Moment σ} {jobId : String} {o : Except PipelineError GenerationOutcome}
      {rest : List (String × Except PipelineError GenerationOutcome)} :
      Ends w jobId m o m' → EndInTurn w m' rest m'' → EndInTurn w m ((jobId, o) :: rest) m''

/-- The jobs of the runs that had a result. -/
def completed (runs : List (String × Except PipelineError GenerationOutcome)) : List String :=
  (runs.filter fun r => r.2.isOk).map Prod.fst

section Ends
variable {m m' : Moment σ} {jobId : String} {o : Except PipelineError GenerationOutcome}

theorem Ends.settles (h : Ends w jobId (s, x) o m') (hs : s.Sound)
    (hfound : (Jobs.find jobId).run s = (.ok (some job), s))
    (hkind : job.type = .ok .generateQuestions) (hopen : job.status.isTerminal = false) :
    Settles s job o m'.1 := by
  have hends := Surroundings.leads_despite_iff.mp (run_settles_despite hs hfound hkind hopen) o m' h
  cases o with
  | ok out => exact hends
  | error e => exact hends

theorem Ends.refused (h : Ends w jobId (s, x) o m')
    (hnot : ∀ job, (Jobs.find jobId).run s = (.ok (some job), s) →
      job.type = .ok .generateQuestions → job.status.isTerminal = true) :
    (∃ e, o = .error e) ∧ m' = (s, x) := by
  have hends := Surroundings.leads_despite_iff.mp (run_refused_despite hnot) o m' h
  cases o with
  | ok out => exact hends.elim
  | error e => exact ⟨⟨e, rfl⟩, hends⟩

/-- What no statement destroys, a run leaves. -/
theorem Ends.keeps (h : Ends w jobId m o m') {I : Store → Prop} (hI : Unharmed I) (hm : I m.1) :
    I m'.1 := by
  have hissued : (run jobId).Abides (.issuing Issued) fun _ => True :=
    .of_issues (run_issued jobId) id fun _ => trivial
  have hleads := hissued.leads_despite (w := w) (K := detached) hI.keeps m hm
  have hends := Surroundings.leads_despite_iff.mp hleads o m' h
  cases o with
  | ok out => exact hends.2
  | error e => exact hends

/-- A job that a run has completed was open before and has ended then. -/
theorem Ends.completes {out : GenerationOutcome} (h : Ends w jobId m (.ok out) m')
    (hs : m.1.Sound) : ¬ m.1.Closed jobId ∧ m'.1.Closed jobId := by
  obtain ⟨s, x⟩ := m
  by_cases hrun : ∃ job, (Jobs.find jobId).run s = (.ok (some job), s) ∧
      job.type = .ok .generateQuestions ∧ job.status.isTerminal = false
  · obtain ⟨job, hfound, hkind, hopen⟩ := hrun
    obtain ⟨r, hr, hid, hread⟩ := Jobs.exists_row (congrArg Prod.fst hfound)
    have hshows := JobRow.shows_of_read hread
    obtain ⟨ended, hended, -, hstatus, -⟩ := (h.settles hs hfound hkind hopen).ended
    obtain ⟨r', hr', hid', hread'⟩ := Jobs.exists_row (congrArg Prod.fst hended)
    constructor
    · intro hclosed
      have hrefused := hclosed.refused hs r hr
      have hactive : r.isActive = true := by
        rw [hshows.isActive_eq, hopen]
        rfl
      rw [Jobs.isOpen_iff.mpr ⟨hid, hactive⟩] at hrefused
      cases hrefused
    · refine ⟨r', hr', hid'.trans (hshows.id.trans hid), ?_⟩
      rw [(JobRow.shows_of_read hread').isActive_eq, hstatus]
      rfl
  · have hnot : ∀ job, (Jobs.find jobId).run s = (.ok (some job), s) →
        job.type = .ok .generateQuestions → job.status.isTerminal = true := by
      intro job hfound hkind
      by_contra hopen
      exact hrun ⟨job, hfound, hkind, Bool.not_eq_true _ ▸ hopen⟩
    obtain ⟨⟨e, he⟩, -⟩ := h.refused hnot
    cases he

/-- No job is completed that had ended before, and none twice. -/
theorem EndInTurn.completes_once {runs : List (String × Except PipelineError GenerationOutcome)}
    (h : EndInTurn w m runs m') (hs : m.1.Sound) :
    (∀ id ∈ completed runs, ¬ m.1.Closed id) ∧ (completed runs).Nodup := by
  induction h with
  | nil m => exact ⟨fun _ hid => absurd hid List.not_mem_nil, List.nodup_nil⟩
  | @cons m m' m'' jobId o rest hfirst hrest ih =>
    obtain ⟨hlater, hnodup⟩ := ih (hfirst.keeps Store.Sound.unharmed hs)
    -- What had ended before the first run has ended after it.
    have hbefore : ∀ id ∈ completed rest, ¬ m.1.Closed id := fun id hid hclosed =>
      hlater id hid (hfirst.keeps (Store.Closed.unharmed id) ⟨hs, hclosed⟩).2
    cases o with
    | error e => exact ⟨hbefore, hnodup⟩
    | ok out =>
      obtain ⟨hopen, hclosed⟩ := hfirst.completes hs
      refine ⟨fun id hid => ?_, List.nodup_cons.mpr ⟨fun hagain => hlater jobId hagain hclosed, hnodup⟩⟩
      rcases List.mem_cons.mp hid with rfl | hid
      · exact hopen
      · exact hbefore id hid

end Ends

/-- **The run of a generation job settles it.** Whatever the generator answers, and whichever
transactions the store fails that have nothing to do with jobs: a run comes to an end, and a job that
had not ended is completed with the outcome that the run returns, or failed with the public message
of the error, and one event tells of it. Where there is no such job, the run returns an error, asks
no generator and changes nothing. So no runs, one after the other, complete a job twice. -/
theorem run_settles_job {s : Store} (hs : s.Sound) (asked : List (String × QuestionParams))
    (jobId : String) :
    (∃ o m', Ends prompting jobId (s, asked) o m') ∧
      (∀ job, (Jobs.find jobId).run s = (.ok (some job), s) → job.type = .ok .generateQuestions →
        job.status.isTerminal = false →
          ∀ o m', Ends prompting jobId (s, asked) o m' → Settles s job o m'.1) ∧
      ((∀ job, (Jobs.find jobId).run s = (.ok (some job), s) →
          job.type = .ok .generateQuestions → job.status.isTerminal = true) →
        ∀ o m', Ends prompting jobId (s, asked) o m' → (∃ e, o = .error e) ∧ m' = (s, asked)) ∧
      ∀ runs m', EndInTurn prompting (s, asked) runs m' → (completed runs).Nodup := by
  refine ⟨?_, fun job hfound hkind hopen o m' h => h.settles hs hfound hkind hopen,
    fun hnot o m' h => h.refused hnot, fun runs m' h => (h.completes_once hs).2⟩
  obtain ⟨o, m', hruns⟩ := prompting_live.runs (run jobId).run (s, asked)
  exact ⟨o, m', hruns.despite⟩

open Undisclosed in
/-- A queued job is there to be settled. -/
theorem run_settles_job_queued : queued.Sound ∧
    ∃ job, (Jobs.find "j").run queued = (.ok (some job), queued) ∧
      job.type = .ok .generateQuestions ∧ job.status.isTerminal = false ∧
        ∀ o m', Ends prompting "j" (queued, []) o m' → Settles queued job o m'.1 := by
  have hsound : queued.Sound := by
    refine ⟨.nil, List.nodup_singleton _, List.pairwise_singleton _ _, fun r hr d hd => ?_⟩
    obtain rfl := List.mem_singleton.mp hr
    cases hd
  exact ⟨hsound, _, rfl, rfl, rfl, (run_settles_job hsound [] "j").2.1 _ rfl rfl rfl⟩

end GenerationJob
end Quire
