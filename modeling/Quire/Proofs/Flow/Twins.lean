import Quire.Failure.Pipeline
import Quire.Proofs.Flow.Runs
import Quire.Proofs.Store.Veil

/-! Two runs side by side.

A flow and its twin are alike if they ask alike: the same of the services, the clock at the same
places, and of the store transactions that look alike, each going on alike whatever it is answered.
The store may also fail a transaction of its own accord; then it fails that of the twin as well,
perhaps with another error, and what follows has to be alike for any two errors.

So two runs among the same services, with clocks that look alike and a store that fails the same
transactions, end alike (`Flow.Alike.run`). There is one rule for each way to build a run. -/
namespace Quire

/-! ### Failures -/

/-- The same failure, or two failures of the store. -/
def Failure.Alike {ε : Type} [Widen StoreError ε] (e e' : ε) : Prop :=
  e = e' ∨ ∃ f f' : StoreError, e = Widen.widen f ∧ e' = Widen.widen f'

/-- A failure of the store is the same, whether it is widened at once or in two steps. -/
class Widen.Coherent (ε ε' : Type) [Widen StoreError ε] [Widen ε ε'] [Widen StoreError ε'] :
    Prop where
  widen_widen (f : StoreError) : (Widen.widen (Widen.widen f : ε) : ε') = Widen.widen f

instance {ε : Type} [Widen StoreError ε] : Widen.Coherent StoreError ε := ⟨fun _ => rfl⟩
instance {ε : Type} [Widen StoreError ε] : Widen.Coherent ε ε := ⟨fun _ => rfl⟩
instance : Widen.Coherent JobError PipelineError := ⟨fun _ => rfl⟩
instance : Widen.Coherent GenerationError PipelineError := ⟨fun _ => rfl⟩

namespace Failure.Alike
variable {ε ε' : Type} [Widen StoreError ε] [Widen StoreError ε'] {e e' : ε}

theorem refl (e : ε) : Failure.Alike e e := .inl rfl

theorem store (f f' : StoreError) : Failure.Alike (Widen.widen f : ε) (Widen.widen f') :=
  .inr ⟨f, f', rfl, rfl⟩

theorem widen [Widen ε ε'] [Widen.Coherent ε ε'] (h : Failure.Alike e e') :
    Failure.Alike (Widen.widen e : ε') (Widen.widen e') := by
  obtain rfl | ⟨f, f', rfl, rfl⟩ := h
  · exact refl _
  · rw [Widen.Coherent.widen_widen, Widen.Coherent.widen_widen]
    exact store f f'

/-- A caller is told the same of failures that are alike. -/
theorem publicMessage {e e' : PipelineError} (h : Failure.Alike e e') :
    e.publicMessage = e'.publicMessage := by
  obtain rfl | ⟨f, f', rfl, rfl⟩ := h
  · rfl
  · rfl

theorem isRetryable {e e' : PipelineError} (h : Failure.Alike e e') :
    e.isRetryable = e'.isRetryable := by
  obtain rfl | ⟨f, f', rfl, rfl⟩ := h
  · rfl
  · rfl

end Failure.Alike

/-- Results that are related, or failures that are alike. -/
inductive Outcomes {ε α α' : Type} [Widen StoreError ε] (A : α → α' → Prop) :
    Except ε α → Except ε α' → Prop
  | ok {a : α} {a' : α'} (h : A a a') : Outcomes A (.ok a) (.ok a')
  | error {e e' : ε} (h : Failure.Alike e e') : Outcomes A (.error e) (.error e')

/-- What a transaction and its twin tell, and the stores that they leave. -/
theorem Txn.Alike.run {ε α α' : Type} [Widen StoreError ε] {v : Veil} {A : α → α' → Prop}
    {t : Txn ε α} {t' : Txn ε α'} (h : t.Alike v A t') {s s' : Store}
    (hs : s.veiled v = s'.veiled v) :
    Outcomes A (t.run s).1 (t'.run s').1 ∧ (t.run s).2.veiled v = (t'.run s').2.veiled v := by
  have hends := h s s' hs
  unfold Txn.run
  generalize t s = o, t' s' = o' at hends
  cases hends with
  | ok ha hs' => exact ⟨.ok ha, hs'⟩
  | error e => exact ⟨.error (.refl e), hs⟩

/-! ### Flows that ask alike -/

/-- The question is neither for the store nor for the clock. -/
def Effect.isService {β : Type} : Effect β → Bool
  | @Effect.transact _ _ _ _ => false
  | .clock => false
  | _ => true

variable {v : Veil} {ε ε' α α' β β' : Type}

inductive Flow.Alike (v : Veil) {α α' : Type} (A : α → α' → Prop) : Flow α → Flow α' → Prop
  | done {a : α} {a' : α'} (h : A a a') : Flow.Alike v A (.done a) (.done a')
  | ask {β : Type} {e : Effect β} {next : β → Flow α} {next' : β → Flow α'}
      (he : e.isService = true) (h : ∀ b, Flow.Alike v A (next b) (next' b)) :
      Flow.Alike v A (.ask e next) (.ask e next')
  | clock {next : Instant → Flow α} {next' : Instant → Flow α'}
      (h : ∀ t t', v.Same t t' → Flow.Alike v A (next t) (next' t')) :
      Flow.Alike v A (.ask .clock next) (.ask .clock next')
  | transact {ε β β' : Type} [Widen StoreError ε] {B : β → β' → Prop} {t : Txn ε β}
      {t' : Txn ε β'} {next : Except ε β → Flow α} {next' : Except ε β' → Flow α'}
      (ht : t.Alike v B t') (h : ∀ o o', Outcomes B o o' → Flow.Alike v A (next o) (next' o')) :
      Flow.Alike v A (.ask (.transact t) next) (.ask (.transact t') next')

namespace Flow.Alike
variable {A : α → α' → Prop} {B : β → β' → Prop}

theorem pure {a : α} {a' : α'} (h : A a a') :
    Flow.Alike v A (Pure.pure a : Flow α) (Pure.pure a') := .done h

theorem bind {f : Flow β} {f' : Flow β'} {k : β → Flow α} {k' : β' → Flow α'}
    (hf : f.Alike v B f') (hk : ∀ b b', B b b' → (k b).Alike v A (k' b')) :
    Flow.Alike v A (f >>= k) (f' >>= k') := by
  induction hf with
  | done hb => exact hk _ _ hb
  | ask he _ ih => exact .ask he ih
  | clock _ ih => exact .clock ih
  | transact ht _ ih => exact .transact ht ih

theorem mono {A' : α → α' → Prop} {f : Flow α} {f' : Flow α'} (h : f.Alike v A f')
    (hA : ∀ a a', A a a' → A' a a') : f.Alike v A' f' := by
  induction h with
  | done ha => exact .done (hA _ _ ha)
  | ask he _ ih => exact .ask he ih
  | clock _ ih => exact .clock ih
  | transact ht _ ih => exact .transact ht ih

theorem perform {e : Effect α} (he : e.isService = true) :
    Flow.Alike v Eq (Program.perform e) (Program.perform e) := .ask he fun _ => .done rfl

end Flow.Alike

-- Irreducible, so that no application of a rule makes Lean run a flow.
@[irreducible]
def Run.Alike (v : Veil) [Widen StoreError ε] (A : α → α' → Prop) (r : Run ε α) (r' : Run ε α') :
    Prop :=
  Flow.Alike v (Outcomes A) r.run r'.run

namespace Run.Alike
variable [Widen StoreError ε] [Widen StoreError ε'] {A : α → α' → Prop} {B : β → β' → Prop}

theorem iff_run {r : Run ε α} {r' : Run ε α'} :
    r.Alike v A r' ↔ Flow.Alike v (Outcomes A) r.run r'.run := by
  unfold Run.Alike
  rfl

theorem pure {a : α} {a' : α'} (h : A a a') :
    Run.Alike v A (Pure.pure a : Run ε α) (Pure.pure a') := iff_run.mpr (.done (.ok h))

theorem throw {e e' : ε} (h : Failure.Alike e e') :
    Run.Alike v A (MonadExcept.throw e : Run ε α) (MonadExcept.throw e') :=
  iff_run.mpr (.done (.error h))

/-- What would follow a failure does not matter. -/
theorem throw_bind {e : ε} {k : β → Run ε α} {k' : β' → Run ε α'} :
    Run.Alike v A (MonadExcept.throw e >>= k) (MonadExcept.throw e >>= k') :=
  iff_run.mpr (.done (.error (.refl e)))

theorem bind {r : Run ε β} {r' : Run ε β'} {k : β → Run ε α} {k' : β' → Run ε α'}
    (hr : r.Alike v B r') (hk : ∀ b b', B b b' → (k b).Alike v A (k' b')) :
    Run.Alike v A (r >>= k) (r' >>= k') := by
  refine iff_run.mpr ?_
  rw [ExceptT.run_bind, ExceptT.run_bind]
  refine (iff_run.mp hr).bind fun o o' ho => ?_
  cases ho with
  | ok hb => exact iff_run.mp (hk _ _ hb)
  | error he => exact .done (.error he)

/-- After results that are the same. -/
theorem next {r r' : Run ε β} {k : β → Run ε α} {k' : β → Run ε α'} (hr : r.Alike v Eq r')
    (hk : ∀ b, (k b).Alike v A (k' b)) : Run.Alike v A (r >>= k) (r' >>= k') :=
  hr.bind fun b _ h => h ▸ hk b

theorem lift {f : Flow α} {f' : Flow α'} (h : f.Alike v A f') :
    Run.Alike v A (ExceptT.lift f : Run ε α) (ExceptT.lift f') := by
  refine iff_run.mpr ?_
  rw [ExceptT.run_lift, ExceptT.run_lift]
  exact h.bind fun a a' ha => .done (.ok ha)

/-- A question for the services. -/
theorem perform {e : Effect α} (he : e.isService = true) :
    Run.Alike v Eq (Run.perform e : Run ε α) (Run.perform e) := lift (.perform he)

/-- A request to the services. -/
theorem request {δ : Type} [Widen δ ε] {e : Effect (Except δ α)} (he : e.isService = true) :
    Run.Alike v Eq (Run.request e : Run ε α) (Run.request e) := by
  refine iff_run.mpr (.ask he fun o => ?_)
  cases o with
  | ok a => exact .done (.ok rfl)
  | error fault => exact .done (.error (.refl _))

theorem clock : Run.Alike v v.Same (Run.clock : Run ε Instant) Run.clock :=
  lift (.clock fun _ _ h => .done h)

theorem freshId : Run.Alike v Eq (Run.freshId : Run ε String) Run.freshId := perform rfl

theorem transact [Widen ε ε'] [Widen.Coherent ε ε'] {t : Txn ε α} {t' : Txn ε α'}
    (h : t.Alike v A t') : Run.Alike v A (Run.transact t : Run ε' α) (Run.transact t') := by
  refine iff_run.mpr (.transact h fun o o' ho => ?_)
  cases ho with
  | ok ha => exact .done (.ok ha)
  | error he => exact .done (.error he.widen)

/-- A transaction whose failure is only told. -/
theorem attempt {t : Txn ε α} {t' : Txn ε α'} (h : t.Alike v A t') :
    Run.Alike v (Outcomes A) (Run.perform (.transact t) : Run ε' (Except ε α))
      (Run.perform (.transact t')) :=
  lift (.transact h fun _ _ ho => .done ho)

theorem widen [Widen ε ε'] [Widen.Coherent ε ε'] {r : Run ε α} {r' : Run ε α'}
    (h : r.Alike v A r') : Run.Alike v A (Run.widen r : Run ε' α) (Run.widen r') := by
  refine iff_run.mpr ((iff_run.mp h).bind fun o o' ho => ?_)
  cases ho with
  | ok ha => exact .done (.ok ha)
  | error he => exact .done (.error he.widen)

theorem outcome {r : Run ε α} {r' : Run ε α'} (h : r.Alike v A r') :
    Run.Alike v (Outcomes A) (Run.outcome r : Run ε' (Except ε α)) (Run.outcome r') :=
  lift (iff_run.mp h)

/-- A result that is there already, or a failure. -/
theorem ofExcept {δ : Type} [Widen δ ε] (r : Except δ α) :
    Run.Alike v Eq (Run.ofExcept r : Run ε α) (Run.ofExcept r) := by
  cases r with
  | ok a => exact pure rfl
  | error fault => exact throw (.refl _)

end Run.Alike

/-! ### Runs that end alike -/

/-- What answers every question that is neither for the store nor for the clock, out of what it
remembers. -/
structure Oracle (σ : Type) where
  answer : {β : Type} → Effect β → σ → β × σ

/-- The store, what the oracle remembers, and what is to come of the clock and of the store. -/
structure Situation (σ : Type) where
  store : Store
  memory : σ
  /-- The readings of the clock to come. -/
  clock : Nat → Instant
  /-- The transactions to come that the store fails of its own accord, and with what. -/
  outages : Nat → Option StoreError

namespace Situation
variable {σ : Type}

/-- Behind a veil, the same is there and the same is to come; but where the store fails of its own
accord, it may do so with another error. -/
structure Alike (v : Veil) (m m' : Situation σ) : Prop where
  store : m.store.veiled v = m'.store.veiled v
  memory : m.memory = m'.memory
  clock : ∀ n, v.Same (m.clock n) (m'.clock n)
  outages : ∀ n, (m.outages n).isSome = (m'.outages n).isSome

/-- A transaction, unless the store fails it. -/
def transact [Widen StoreError ε] (t : Txn ε α) (m : Situation σ) : Except ε α × Situation σ :=
  match m.outages 0 with
  | some f => (.error (Widen.widen f), { m with outages := fun n => m.outages (n + 1) })
  | none =>
    ((t.run m.store).1,
      { m with store := (t.run m.store).2, outages := fun n => m.outages (n + 1) })

end Situation

namespace Oracle
variable {σ : Type}

/-- The answer to a question, and the situation after it. -/
def reply (w : Oracle σ) : {β : Type} → Effect β → Situation σ → β × Situation σ
  | _, @Effect.transact _ _ _ t, m => m.transact t
  | _, .clock, m => (m.clock 0, { m with clock := fun n => m.clock (n + 1) })
  | _, e, m => ((w.answer e m.memory).1, { m with memory := (w.answer e m.memory).2 })

/-- What a flow comes to, and the situation after it. -/
def run (w : Oracle σ) : Flow α → Situation σ → α × Situation σ
  | .done a, m => (a, m)
  | .ask e next, m => w.run (next (w.reply e m).1) (w.reply e m).2

theorem reply_service (w : Oracle σ) {e : Effect β} (he : e.isService = true) (m : Situation σ) :
    w.reply e m = ((w.answer e m.memory).1, { m with memory := (w.answer e m.memory).2 }) := by
  cases e <;> first | rfl | cases he

end Oracle

variable {σ : Type}

/-- Transactions that look alike are answered alike. -/
theorem Situation.Alike.transact [Widen StoreError ε] {m m' : Situation σ} (hm : m.Alike v m')
    {B : β → β' → Prop} {t : Txn ε β} {t' : Txn ε β'} (h : t.Alike v B t') :
    Outcomes B (m.transact t).1 (m'.transact t').1 ∧
      (m.transact t).2.Alike v (m'.transact t').2 := by
  have hfails := hm.outages 0
  unfold Situation.transact
  cases hf : m.outages 0 with
  | some f =>
    cases hf' : m'.outages 0 with
    | none => simp [hf, hf'] at hfails
    | some f' =>
      exact ⟨.error (.store f f'), hm.store, hm.memory, hm.clock, fun n => hm.outages (n + 1)⟩
  | none =>
    cases hf' : m'.outages 0 with
    | some f' => simp [hf, hf'] at hfails
    | none =>
      obtain ⟨ho, hs⟩ := h.run hm.store
      exact ⟨ho, hs, hm.memory, hm.clock, fun n => hm.outages (n + 1)⟩

/-- **Flows that ask alike end alike** wherever they begin in situations that look alike. -/
theorem Flow.Alike.run {A : α → α' → Prop} {f : Flow α} {f' : Flow α'} (h : f.Alike v A f')
    (w : Oracle σ) {m m' : Situation σ} (hm : m.Alike v m') :
    A (w.run f m).1 (w.run f' m').1 ∧ (w.run f m).2.Alike v (w.run f' m').2 := by
  induction h generalizing m m' with
  | done ha => exact ⟨ha, hm⟩
  | @ask β e next next' he _ ih =>
    have hanswer : w.answer e m.memory = w.answer e m'.memory := by rw [hm.memory]
    simp only [Oracle.run, w.reply_service he, hanswer]
    exact ih _ ⟨hm.store, rfl, hm.clock, hm.outages⟩
  | clock _ ih =>
    exact ih _ _ (hm.clock 0) ⟨hm.store, hm.memory, fun n => hm.clock (n + 1), hm.outages⟩
  | transact ht _ ih =>
    obtain ⟨ho, hm'⟩ := hm.transact ht
    exact ih _ _ ho hm'

theorem Run.Alike.ends [Widen StoreError ε] {A : α → α' → Prop} {r : Run ε α} {r' : Run ε α'}
    (h : r.Alike v A r') (w : Oracle σ) {m m' : Situation σ} (hm : m.Alike v m') :
    Outcomes A (w.run r.run m).1 (w.run r'.run m').1 ∧
      (w.run r.run m).2.Alike v (w.run r'.run m').2 :=
  (iff_run.mp h).run w hm

end Quire
