import Quire.Proofs.Flow.Company
import Quire.Proofs.Flow.Frames
import Quire.Proofs.Pipeline.Arrivals

/-! Calls, and pages that are written by hand.

Besides the calls of operations there are the two statements that write pages directly. All of them
take turns as the calls do, and what no statement destroys lasts whoever has had a turn.

To give a job an operation to poll changes what the job works on. Somebody may do that by hand; and
an ingestion does it, but only for the job with which it has locked its document. So a job without
a document is left alone by all but those who do it by hand (`Store.Lasts`). -/
namespace Quire
open Txn

/-! ### Deeds -/

/-- A call, or pages written by hand. -/
inductive Deed
  | call (c : Call)
  | storePages (documentId now : String) (pages : List NewPage)
  | setEdit (documentId : String) (pageNo : UInt32) (text : Option String) (editor now : String)

namespace Deed

/-- What somebody does. -/
def flow : Deed → Flow Unit
  | .call c => c.flow
  | .storePages documentId now pages =>
    .ask (.transact (Pages.upsertAll documentId now pages)) fun _ => .done ()
  | .setEdit documentId pageNo text editor now =>
    .ask (.transact (Pages.setEdit documentId pageNo text editor now)) fun _ => .done ()

/-- The job is not given an operation by hand. -/
def Spares (jobId : String) : Deed → Prop
  | .call (.markPolling _ id _ _) => id ≠ jobId
  | _ => True

end Deed

/-- Something further is begun, or what is under way has a question answered; nobody gives the job
of an id an operation by hand. -/
inductive Scene.Stir (jobId : String) : Scene → Scene → Prop
  | deed (s : Store) (flows : List (Flow Unit)) (d : Deed) : d.Spares jobId →
      Stir jobId ⟨s, flows⟩ ⟨s, flows ++ [d.flow]⟩
  | answer {β : Type} (s s' : Store) (before after : List (Flow Unit)) (op : Effect β)
      (next : β → Flow Unit) (b : β) :
      Surroundings.free.answers op (s, ()) b (s', ()) →
      Stir jobId ⟨s, before ++ .ask op next :: after⟩ ⟨s', before ++ next b :: after⟩

/-- A flow that is under way may get further while all others wait. -/
theorem Scene.Stir.of_reaches {jobId : String} {f g : Flow Unit} {s s' : Store}
    (before after : List (Flow Unit)) (h : Surroundings.free.Reaches f (s, ()) g (s', ())) :
    Relation.ReflTransGen (Stir jobId) ⟨s, before ++ f :: after⟩ ⟨s', before ++ g :: after⟩ :=
  h.lift (Stir jobId) (fun f m => ⟨m.1, before ++ f :: after⟩) fun op next m b n hb =>
    .answer m.1 n.1 before after op next b hb

/-! ### What lasts -/

/-- The store has become another one, and nobody has given the job of an id an operation, unless it
has a document. -/
structure Store.Lasts (jobId : String) (s s' : Store) : Prop where
  always : ∀ I, Unharmed I → I s → I s'
  detached : s.Sound → s.HasJobOn jobId none → ∀ I, UnharmedFor (· ≠ jobId) I → I s → I s'

/-- A job does not go away, and keeps its document. -/
theorem Store.hasJobOn_unharmed (jobId : String) (d : Option String) :
    Unharmed fun s => s.Sound ∧ s.HasJobOn jobId d := by
  refine .of_jobs (fun hjobs h => Durable.hasJobOn jobId d (.inl hjobs) h)
    (fun id now c _ _ h => Durable.hasJobOn jobId d (.inr ⟨id, now, c, rfl⟩) h)
    fun n id now heartbeat h => ?_
  obtain ⟨r, hr, hid, hdoc⟩ := h
  exact ⟨r, List.mem_append_left _ hr, hid, hdoc⟩

namespace Store.Lasts
variable {jobId : String} {s s' s'' : Store}

theorem refl (jobId : String) (s : Store) : s.Lasts jobId s := ⟨fun _ _ h => h, fun _ _ _ _ h => h⟩

theorem sound (h : s.Lasts jobId s') (hs : s.Sound) : s'.Sound :=
  h.always _ Store.Sound.unharmed hs

theorem hasJobOn (h : s.Lasts jobId s') (hs : s.Sound) {id : String} {d : Option String}
    (hjob : s.HasJobOn id d) : s'.HasJobOn id d :=
  (h.always _ (hasJobOn_unharmed id d) ⟨hs, hjob⟩).2

theorem trans (h : s.Lasts jobId s') (h' : s'.Lasts jobId s'') : s.Lasts jobId s'' where
  always I hI hs := h'.always I hI (h.always I hI hs)
  detached hs hjob I hI hI' :=
    h'.detached (h.sound hs) (h.hasJobOn hs hjob) I hI (h.detached hs hjob I hI hI')

variable {ε α : Type} {t : Txn ε α}

/-- What a transaction keeps lasts. -/
theorem of_keeps (ht : ∀ I, UnharmedFor (· ≠ jobId) I → t.Keeps I) (s : Store) :
    s.Lasts jobId (t.run s).2 where
  always I hI := (ht I (hI.mono fun _ _ => trivial)).run
  detached _ _ I hI := (ht I hI).run

/-- What is done for a job on a document is not done for one that has none. -/
theorem of_issued {own d : String} (ht : IssuedFor (fun id => id ≠ jobId ∨ id = own) ε α t)
    (hs : s.Sound) (hjob : s.HasJobOn own (some d)) : s.Lasts jobId (t.run s).2 where
  always I hI := ((hI.mono fun _ _ => trivial).keeps ht).run
  detached _ hdetached I hI := by
    refine ((hI.mono ?_).keeps ht).run
    rintro id (hother | rfl)
    · exact hother
    · rintro rfl
      obtain ⟨r, hr, hid, hnone⟩ := hdetached
      obtain ⟨r', hr', hid', hsome⟩ := hjob
      rw [hs.job_unique hr hr' (hid.trans hid'.symm), hsome] at hnone
      cases hnone

end Store.Lasts

/-! ### One among others -/

/-- A flow among others; all that is known of any of them is that what lasts does so. -/
def Deed.company (jobId : String) : Company Unit where
  world := .free
  others m m' := m.1.Lasts jobId m'.1
  own m m' := m.1.Lasts jobId m'.1
  looks m := .refl jobId m.1

/-- A job whose document is locked has that document. -/
theorem Pipeline.lockDocument_hasJobOn {s : Store} (hs : s.Sound)
    (documentId ownerId jobId : String) (now : Instant) (heartbeat : Respite) :
    (lockDocument documentId ownerId jobId now heartbeat).wp
      (fun locked s' => s'.HasJobOn locked.2.id (some documentId)) (fun _ => True) s := by
  unfold lockDocument
  rw [wp_bind]
  refine ownDocument_wp (fun document _ => ?_) fun _ => trivial
  dsimp only
  rw [wp_bind, wp_widen]
  refine tryAcquire_wp rfl trivial (fun _ _ => ?_) hs fun _ => trivial
  simp only [Documents.transition, Documents.changeFrom, wp_bind, wp_widen, wp_store, wp_modify,
    wp_pure, wp_require]
  refine ⟨fun _ => ?_, fun _ => trivial⟩
  refine wp_mono ((Pages.deleteAll_aside documentId).wp _) (fun _ s₁ h₁ => ?_) fun _ _ => trivial
  rw [wp_bind, wp_widen]
  refine wp_mono ((Jobs.insertEvent_aside _ _ _ _ _ _).wp _) (fun _ s₂ h₂ => ?_) fun _ _ => trivial
  refine ⟨(NewJob.onDocument ownerId documentId .documentExtract).row jobId now heartbeat, ?_, rfl,
    rfl⟩
  rw [h₂.2, h₁.2]
  exact List.mem_append_right _ (List.mem_singleton_self _)

namespace Deed
variable {jobId : String}

theorem stable_sound : (company jobId).Stable fun m => m.1.Sound := fun _ _ h hs => h.sound hs

/-- After it has taken the lock an ingestion works for its own job. -/
theorem goOn_amid (p : Pipeline) (document : Document) (own d : String) :
    (p.goOn document own).Amid (company jobId) (fun m => m.1.Sound ∧ m.1.HasJobOn own (some d))
      (fun _ m => m.1.Sound ∧ m.1.HasJobOn own (some d))
      fun _ m => m.1.Sound ∧ m.1.HasJobOn own (some d) := by
  have hissues : (p.goOn document own).Issues (IssuedFor fun id => id ≠ jobId ∨ id = own) :=
    p.goOn_issued document own (.inr rfl)
  refine .of_issues hissues (fun m m' h hm => ⟨h.sound hm.1, h.hasJobOn hm.1 hm.2⟩)
    (fun m x hm => ⟨.refl jobId m.1, hm⟩) fun {ε α t} ht s x hs => ?_
  refine (wp_iff_run t).mpr ⟨fun _ _ => ?_, fun _ _ => trivial⟩
  have hlasts : s.Lasts jobId (t.run s).2 := .of_issued ht hs.1 hs.2
  exact ⟨hlasts, hlasts.sound hs.1, hlasts.hasJobOn hs.1 hs.2⟩

theorem ingest_amid (p : Pipeline) (documentId ownerId : String) :
    (p.ingest documentId ownerId).Amid (company jobId) (fun m => m.1.Sound)
      (fun _ m => m.1.Sound) fun _ m => m.1.Sound := by
  have hlock (id : String) (now : Instant) : Run.Amid (company jobId) (fun m => m.1.Sound)
      (fun locked m => m.1.Sound ∧ m.1.HasJobOn locked.2.id (some documentId))
      (fun _ m => m.1.Sound)
      (Run.transact (Pipeline.lockDocument documentId ownerId id now p.ledger.heartbeat) :
        Run PipelineError _) := by
    refine .transact stable_sound fun s x hs => ?_
    have hjob := Pipeline.lockDocument_hasJobOn hs documentId ownerId id now p.ledger.heartbeat
    have hlasts : s.Lasts jobId _ :=
      .of_keeps (fun I hI => hI.lock documentId ownerId id now p.ledger.heartbeat) s
    obtain ⟨hok, -⟩ := (wp_iff_run _).mp hjob
    exact (wp_iff_run _).mpr
      ⟨fun locked h => ⟨hlasts, hlasts.sound hs, hok locked h⟩, fun _ _ => hs⟩
  have hask {β : Type} (e : Effect β) (he : e.isTransaction = false) :
      Run.Amid (company jobId) (fun m => m.1.Sound) (fun _ m => m.1.Sound) (fun _ m => m.1.Sound)
        (Run.perform e : Run PipelineError β) :=
    .ask stable_sound he fun m b x hm _ => ⟨.refl jobId m.1, hm⟩
  rw [Pipeline.ingest_eq]
  refine .bind (hask .freshId rfl) fun id => .bind (hask .clock rfl) fun now => ?_
  refine .bind (hlock id now) fun locked => ?_
  exact (goOn_amid p locked.1 locked.2.id documentId).conseq (fun _ h => h) (fun _ _ h => h.1)
    fun _ _ h => h.1

/-- Whatever is done, what lasts does so. -/
theorem leads {d : Deed} (hd : d.Spares jobId) {m : Moment Unit} (hm : m.1.Sound) :
    Flow.Leads (company jobId).reading (fun _ m' => m'.1.Sound) d.flow m := by
  have hissued (f : Flow Unit) (hf : f.Issues (IssuedFor (· ≠ jobId))) :
      Flow.Leads (company jobId).reading (fun _ m' => m'.1.Sound) f m := by
    refine Run.Amid.leads_of_issues hf stable_sound (fun m x hm => ⟨.refl jobId m.1, hm⟩) ?_ hm
    intro ε α t ht s x hs
    have hlasts : s.Lasts jobId (t.run s).2 := .of_keeps (fun I hI => hI.keeps ht) s
    exact (wp_iff_run t).mpr ⟨fun _ _ => ⟨hlasts, hlasts.sound hs⟩, fun _ _ => trivial⟩
  cases d with
  | storePages documentId now pages =>
    refine hissued _ (Flow.Issues.ask.mpr ⟨.harmless (.storePages documentId now pages), ?_⟩)
    exact fun _ => Flow.Issues.pure ()
  | setEdit documentId pageNo text editor now =>
    intro m₁ hm₁ b n hb
    refine Run.Amid.answer_transact (c := company jobId) (K := fun _ m' => m'.1.Sound) ?_ hb
    have hlasts : m₁.1.Lasts jobId _ :=
      .of_keeps (fun I hI => hI.editPage documentId pageNo text editor now) m₁.1
    have hsound : m₁.1.Sound := hm₁.sound hm
    exact (wp_iff_run _).mpr ⟨fun _ _ => ⟨hlasts, hlasts.sound hsound⟩, fun _ _ => hsound⟩
  | call c =>
    have hcall (hS : ∀ id, c.MayAssign id → id ≠ jobId) :
        Flow.Leads (company jobId).reading (fun _ m' => m'.1.Sound) c.flow m :=
      hissued c.flow (c.flow_issuedFor hS)
    cases c with
    | ingest p documentId ownerId => exact (ingest_amid p documentId ownerId).ignored hm
    | markPolling l id handle params =>
      refine hcall fun id' hid => ?_
      obtain rfl : id' = id := hid
      exact hd
    | _ => exact hcall fun _ hid => False.elim hid

end Deed

/-! ### All of them together -/

namespace Scene
variable {jobId : String} {c c' : Scene}

/-- The rules of the schema are obeyed, and whatever is under way lets last what lasts. -/
structure Steady (jobId : String) (c : Scene) : Prop where
  sound : c.store.Sound
  led : Crowd.Led (Deed.company jobId) (fun m => m.1.Sound) ⟨(c.store, ()), c.flows⟩

/-- Nothing is under way yet. -/
theorem Steady.quiet {s : Store} (hs : s.Sound) : Steady jobId ⟨s, []⟩ := ⟨hs, by simp [Crowd.Led]⟩

theorem Steady.stir (h : Steady jobId c) (hstir : Stir jobId c c') :
    Steady jobId c' ∧ c.store.Lasts jobId c'.store := by
  cases hstir with
  | deed s flows d hd =>
    refine ⟨⟨h.sound, fun f hf => ?_⟩, .refl jobId s⟩
    rcases List.mem_append.mp hf with hf | hf
    · exact h.led f hf
    · obtain rfl := List.mem_singleton.mp hf
      exact ⟨(s, ()), .refl jobId s, Deed.leads hd h.sound⟩
  | answer s s' before after op next b hb =>
    have hturn : Crowd.Turn (Deed.company jobId).world _ _ :=
      .answer (s, ()) (s', ()) before after op next b hb
    have hlasts : s.Lasts jobId s' := Crowd.Led.own_of_turn hturn h.led
    refine ⟨⟨hlasts.sound h.sound, ?_⟩, hlasts⟩
    exact Crowd.Led.turn (fun _ _ h => h) (fun m => .refl jobId m.1) (fun _ _ _ h h' => h.trans h')
      hturn h.led

theorem Steady.stirs (h : Steady jobId c) (hstirs : Relation.ReflTransGen (Stir jobId) c c') :
    Steady jobId c' ∧ c.store.Lasts jobId c'.store := by
  induction hstirs with
  | refl => exact ⟨h, .refl jobId c.store⟩
  | tail _ hstir ih =>
    obtain ⟨hsteady, hlasts⟩ := ih.1.stir hstir
    exact ⟨hsteady, ih.2.trans hlasts⟩

end Scene
end Quire
