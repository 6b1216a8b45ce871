import Mathlib.Logic.Relation
import Quire.Proofs.Flow.Runs
import Quire.Proofs.Pipeline.Requests

/-! Operations that take turns.

Any number of calls are under way at once. In one step a further call begins, or one of those under
way has a question answered: a transaction by the store that all of them share, anything else in
any way. A store is reachable if such steps lead to it from an empty one. Calls may be left
where they are, so broken off operations are among these histories. -/
namespace Quire

/-- A call of an operation of the library. -/
inductive Call
  | register (d : NewDocument)
  | acquire (l : Ledger) (n : NewJob)
  | enqueue (l : Ledger) (n : NewJob)
  | markRunning (jobId : String)
  | markPolling (l : Ledger) (jobId handle : String) (params : Json)
  | markCompleted (jobId : String) (result : Option Json)
  | markFailed (jobId message : String)
  | signalAlive (l : Ledger) (jobId : String)
  | updateProgress (jobId : String) (done total : UInt32) (step : String)
  | addEvent (jobId : String) (kind : EventKind) (step : Option String) (message : String)
      (trace : Option String)
  | ingest (p : Pipeline) (documentId ownerId : String)
  | poll (p : Pipeline) (jobId : String)
  | wait (p : Pipeline) (jobId : String)
  | sweep (now : Instant)
  | saveEdit (documentId ownerId : String) (pageNo : UInt32) (text : Option String)
  | publish (l : Ledger) (documentId ownerId : String) (o : PublishOptions)
  | generate (jobId : String)

/-- A run whose result nobody looks at. -/
def Run.ignored {ε α : Type} (r : Run ε α) : Flow Unit := do
  let _ ← r.run

theorem Run.Issues.ignored {ε α : Type} {P : TxnKind} {r : Run ε α} (hr : r.Issues P) : r.ignored.Issues P :=
  (Run.Issues.iff_run.mp hr).bind fun _ => Flow.Issues.pure ()

theorem Run.Abides.ignored {ε α : Type} {d : Dialogue} {Q : α → Prop} {r : Run ε α}
    (hr : r.Abides d Q) : r.ignored.Abides d fun _ => True :=
  hr.run.bind fun _ _ => .pure trivial

namespace Call

/-- What a call does. -/
def flow : Call → Flow Unit
  | .register d => (Pipeline.register d).ignored
  | .acquire l n => (l.acquire n).ignored
  | .enqueue l n => (l.enqueue n).ignored
  | .markRunning jobId => (Ledger.markRunning jobId).ignored
  | .markPolling l jobId handle params => (l.markPolling jobId handle params).ignored
  | .markCompleted jobId result => (Ledger.markCompleted jobId result).ignored
  | .markFailed jobId message => (Ledger.markFailed jobId message).ignored
  | .signalAlive l jobId => (l.signalAlive jobId).ignored
  | .updateProgress jobId done total step => (Ledger.updateProgress jobId done total step).ignored
  | .addEvent jobId kind step message trace =>
    (Ledger.addEvent jobId kind step message trace).ignored
  | .ingest p documentId ownerId => (p.ingest documentId ownerId).ignored
  | .poll p jobId => (p.poll jobId).ignored
  | .wait p jobId => (p.wait jobId).ignored
  | .sweep now => (Sweep.run now).ignored
  | .saveEdit documentId ownerId pageNo text =>
    (Pipeline.saveEdit documentId ownerId pageNo text).ignored
  | .publish l documentId ownerId o => (Pipeline.publish l documentId ownerId o).ignored
  | .generate jobId => (GenerationJob.run jobId).ignored

/-- Jobs that a call may give an operation to poll. -/
def MayAssign : Call → String → Prop
  | .markPolling _ jobId _ _, id => id = jobId
  | .ingest _ _ _, _ => True
  | _, _ => False

/-- A kind that has every transaction of calls but those that add artifacts, if only jobs in `S` are
given an operation to poll. -/
structure Serves (P : TxnKind) (S : String → Prop) : Prop where
  register : ∀ d fileType id now,
    P _ _ (Documents.insert (NewDocument.toDocument d fileType id now))
  enqueue : ∀ n id now heartbeat, P _ _ (Jobs.insert (NewJob.toJob n id now heartbeat))
  acquire : ∀ n id now heartbeat, P _ _ (tryAcquire n id now heartbeat)
  change : ∀ id now (c : Jobs.Change), (c.target? = some .polling → S id) →
    P _ _ (guarded id (c.statement id now))
  note : ∀ jobId kind step message trace now,
    P _ _ (Jobs.insertEvent jobId kind step message trace now)
  lock : ∀ documentId ownerId jobId now heartbeat,
    P _ _ (Pipeline.lockDocument documentId ownerId jobId now heartbeat)
  works : ∀ document jobId, S jobId → Works P document jobId
  find : ∀ jobId, P _ _ (Jobs.find jobId)
  checks : ∀ job, Checks P job
  listStale : ∀ now, P _ _ (Jobs.listStale now)
  sweep : ∀ job stamp, P _ _ (Sweep.failJob job stamp)
  edit : ∀ documentId ownerId pageNo text now,
    P _ _ (Pipeline.editPage documentId ownerId pageNo text now)
  publish : ∀ documentId ownerId o ids now heartbeat,
    P _ _ (Pipeline.publishDraft documentId ownerId o ids now heartbeat)

/-- A call issues transactions of a kind that has them; those of a generation are looked at apart. -/
theorem flow_issues {P : TxnKind} {S : String → Prop} (h : Serves P S) (c : Call)
    (hS : ∀ id, c.MayAssign id → S id)
    (hgenerate : ∀ jobId, c = .generate jobId → (GenerationJob.run jobId).Issues P) :
    c.flow.Issues P := by
  have hchange (id : String) (change : Instant → Jobs.Change)
      (hpolling : ∀ now, (change now).target? = some .polling → S id) :
      (Ledger.atNow fun now => guarded id ((change now).statement id now.timestamp)).Issues P :=
    Ledger.atNow_issues fun now => h.change id now.timestamp (change now) (hpolling now)
  cases c with
  | register d => exact (Pipeline.register_issues d (h.register d)).ignored
  | acquire l n => exact (l.acquire_issues n fun id now => h.acquire n id now l.heartbeat).ignored
  | enqueue l n => exact (l.enqueue_issues n fun id now => h.enqueue n id now l.heartbeat).ignored
  | markRunning jobId => exact (hchange jobId (fun _ => .running) fun _ => nofun).ignored
  | markPolling l jobId handle params =>
    exact (hchange jobId (fun now => .polling handle params (l.deadline now))
      fun _ _ => hS jobId rfl).ignored
  | markCompleted jobId result =>
    exact (hchange jobId (fun _ => .completed result) fun _ => nofun).ignored
  | markFailed jobId message => exact (hchange jobId (fun _ => .failed message) fun _ => nofun).ignored
  | signalAlive l jobId =>
    exact (hchange jobId (fun now => .alive (l.deadline now)) fun _ => nofun).ignored
  | updateProgress jobId done total step =>
    exact (hchange jobId (fun _ => .progressed done total (Progress.percent done total) step)
      fun _ => nofun).ignored
  | addEvent jobId kind step message trace =>
    exact (Run.Issues.clock.bind fun now => Run.Issues.transact
      (h.note jobId kind step message trace now.timestamp)).ignored
  | ingest p documentId ownerId =>
    exact (p.ingest_issues documentId ownerId
      (fun id now => h.lock documentId ownerId id now p.ledger.heartbeat)
      (fun document jobId => h.works document jobId (hS jobId trivial)) h.find h.checks).ignored
  | poll p jobId => exact (p.poll_issues (h.find jobId) h.checks).ignored
  | wait p jobId => exact (p.wait_issues (h.find jobId) h.checks).ignored
  | sweep now => exact (Sweep.run_issues now (h.listStale now.timestamp) h.sweep).ignored
  | saveEdit documentId ownerId pageNo text =>
    exact (Pipeline.saveEdit_issues (h.edit documentId ownerId pageNo text)).ignored
  | publish l documentId ownerId o =>
    exact (Pipeline.publish_issues l fun ids now =>
      h.publish documentId ownerId o ids now l.heartbeat).ignored
  | generate jobId => exact (hgenerate jobId rfl).ignored

theorem serves_issuedFor (S : String → Prop) : Serves (IssuedFor S) S where
  register := .register
  enqueue := .enqueue
  acquire := .acquire
  change := .change
  note jobId kind step message trace now := .harmless (.note jobId kind step message trace now)
  lock := .lock
  works document _ hS := .issued document hS
  find := Pipeline.find_issued
  checks := .issued
  listStale now := .harmless (.look (Jobs.listStale_readOnly now))
  sweep := .sweep
  edit documentId ownerId pageNo text now := .harmless (.edit documentId ownerId pageNo text now)
  publish := .publish

theorem flow_issuedFor {S : String → Prop} (c : Call) (hS : ∀ id, c.MayAssign id → S id) :
    c.flow.Issues (IssuedFor S) :=
  c.flow_issues (serves_issuedFor S) hS fun jobId _ => GenerationJob.run_issued jobId

/-- Every call issues only known transactions. -/
theorem flow_issued (c : Call) : c.flow.Issues Issued := c.flow_issuedFor fun _ _ => trivial

end Call

/-- The store, and what is under way. -/
structure Scene where
  store : Store
  flows : List (Flow Unit)

namespace Scene

/-- An empty store, and nothing under way. -/
def start : Scene := ⟨Store.empty, []⟩

/-- A further call begins, or one of those under way has its question answered. -/
inductive Step : Scene → Scene → Prop
  | call (s : Store) (flows : List (Flow Unit)) (c : Call) :
      Step ⟨s, flows⟩ ⟨s, flows ++ [c.flow]⟩
  | answer {β : Type} (s s' : Store) (before after : List (Flow Unit)) (op : Effect β)
      (next : β → Flow Unit) (b : β) :
      Surroundings.free.answers op (s, ()) b (s', ()) →
      Step ⟨s, before ++ .ask op next :: after⟩ ⟨s', before ++ next b :: after⟩

/-- All that is under way issues only known transactions. -/
structure Keeping (I : Store → Prop) (c : Scene) : Prop where
  store : I c.store
  issued : ∀ f ∈ c.flows, f.Issues Issued

end Scene

/-- The store after some steps of calls that take turns. -/
def Store.Reachable (s : Store) : Prop :=
  ∃ flows, Relation.ReflTransGen Scene.Step Scene.start ⟨s, flows⟩

namespace Store.Reachable

theorem empty : Store.empty.Reachable := ⟨[], .refl⟩

/-- A flow that is under way may be finished while all others wait. -/
theorem steps_of_runs {f : Flow Unit} {s s' : Store} {u : Unit} (before after : List (Flow Unit))
    (h : Surroundings.free.Runs f (s, ()) u (s', ())) :
    Relation.ReflTransGen Scene.Step ⟨s, before ++ f :: after⟩ ⟨s', before ++ .done u :: after⟩ := by
  induction f generalizing s with
  | done a =>
    obtain ⟨rfl, hs⟩ := h
    obtain rfl : s' = s := congrArg Prod.fst hs
    exact .refl
  | ask op next ih =>
    obtain ⟨b, ⟨s'', _⟩, hb, hrest⟩ := h
    exact .head (.answer s s'' before after op next b hb) (ih b hrest)

/-- A complete run of a call leads from a reachable store to a reachable one. -/
theorem run {s s' : Store} (hs : s.Reachable) (c : Call)
    (h : Surroundings.free.Runs c.flow (s, ()) () (s', ())) : s'.Reachable := by
  obtain ⟨flows, hsteps⟩ := hs
  exact ⟨_, (hsteps.tail (.call s flows c)).trans (steps_of_runs flows [] h)⟩

end Store.Reachable

/-- An answer to a known question keeps what no statement destroys. -/
theorem Unharmed.answers {I : Store → Prop} (h : Unharmed I) {β : Type} {op : Effect β}
    (hop : op.Within Issued) {s s' : Store} {b : β}
    (hb : Surroundings.free.answers op (s, ()) b (s', ())) (hs : I s) : I s' := by
  by_cases ht : op.isTransaction = true
  · cases op with
    | transact t =>
      have hrun := (h.keeps hop).run hs
      rw [hb.1] at hrun
      exact hrun
    | _ => cases ht
  · have hstays := (Surroundings.answers_iff _ (Bool.not_eq_true _ ▸ ht)).mp hb
    obtain rfl : s' = s := hstays.1
    exact hs

theorem Scene.Keeping.step {I : Store → Prop} (h : Unharmed I) {c c' : Scene}
    (hstep : Step c c') (hc : Keeping I c) : Keeping I c' := by
  cases hstep with
  | call s flows call =>
    refine ⟨hc.store, fun f hf => ?_⟩
    rcases List.mem_append.mp hf with hf | hf
    · exact hc.issued f hf
    · exact List.mem_singleton.mp hf ▸ call.flow_issued
  | answer s s' before after op next b hb =>
    have hasking := Flow.Issues.ask.mp
      (hc.issued _ (List.mem_append_right before List.mem_cons_self))
    refine ⟨h.answers hasking.1 hb hc.store, fun f hf => ?_⟩
    rcases List.mem_append.mp hf with hf | hf
    · exact hc.issued f (List.mem_append_left _ hf)
    · rcases List.mem_cons.mp hf with rfl | hf
      · exact hasking.2 b
      · exact hc.issued f (List.mem_append_right _ (List.mem_cons_of_mem _ hf))

theorem Scene.Keeping.steps {I : Store → Prop} (h : Unharmed I) {c c' : Scene}
    (hsteps : Relation.ReflTransGen Step c c') (hc : Keeping I c) : Keeping I c' := by
  induction hsteps with
  | refl => exact hc
  | tail _ hstep ih => exact ih.step h hstep

/-- What no statement destroys lasts while calls take turns. -/
theorem Scene.lasts {I : Store → Prop} (hI : Unharmed I) {c c' : Scene}
    (hc : Relation.ReflTransGen Step start c) (hsteps : Relation.ReflTransGen Step c c')
    (h : I c.store) : I c'.store := by
  have hstart : Keeping Store.Sound start := ⟨.empty, fun _ hf => nomatch hf⟩
  have hnow : Keeping I c := ⟨h, (hstart.steps Store.Sound.unharmed hc).issued⟩
  exact (hnow.steps hI hsteps).store

/-- What the empty store has and no statement destroys, every reachable store has. -/
theorem Store.Reachable.keeps {I : Store → Prop} (h : Unharmed I) (hempty : I Store.empty)
    {s : Store} (hs : s.Reachable) : I s := by
  obtain ⟨flows, hsteps⟩ := hs
  have hstart : Scene.Keeping I Scene.start := ⟨hempty, fun _ hf => nomatch hf⟩
  exact (hstart.steps h hsteps).store

theorem Store.Reachable.sound {s : Store} (hs : s.Reachable) : s.Sound :=
  hs.keeps Store.Sound.unharmed Store.Sound.empty

end Quire
