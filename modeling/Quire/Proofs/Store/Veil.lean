import Quire.Proofs.Store.Transaction
import Quire.Store.Jobs
import Quire.Store.Pages

/-! Stores that look alike.

A `Veil` hides parts of a store: the traces of events always, and times or some messages if they
are not to be looked at. Two stores look alike behind a veil if they are the same once both are
veiled; two transactions do, if they take stores that look alike to stores that look alike, with
results that are related, or both to the same failure. -/
namespace Quire

/-- What is not looked at, besides the traces of events. -/
structure Veil where
  /-- Times are hidden. -/
  times : Bool
  /-- The messages about failed generations are hidden. -/
  reports : Bool

/-- A time behind a veil. -/
def Veil.time (v : Veil) (t : String) : String := if v.times then "" else t

/-- Two moments that look alike. -/
def Veil.Same (v : Veil) (t t' : Instant) : Prop := v.times = true ∨ t = t'

theorem Veil.Same.time {v : Veil} {t t' : Instant} (h : v.Same t t') (f : Instant → String) :
    v.time (f t) = v.time (f t') := by
  obtain h | rfl := h
  · simp [Veil.time, h]
  · rfl

/-- Where times are looked at, only the same moments look alike. -/
theorem Veil.Same.eq {v : Veil} {t t' : Instant} (h : v.Same t t') (hv : v.times = false) :
    t = t' := h.resolve_left (by simp [hv])

theorem Veil.time_eq {v : Veil} (hv : v.times = false) : v.time = id :=
  funext fun t => by simp [Veil.time, hv]

/-! ### Rows behind a veil -/

section Rows
variable (v : Veil)

def DocumentRow.veiled (r : DocumentRow) : DocumentRow :=
  { r with
    publishedAt := r.publishedAt.map v.time
    createdAt := v.time r.createdAt
    updatedAt := v.time r.updatedAt }

def Document.veiled (d : Document) : Document :=
  { d with
    publishedAt := d.publishedAt.map v.time
    createdAt := v.time d.createdAt
    updatedAt := v.time d.updatedAt }

def PageRow.veiled (r : PageRow) : PageRow :=
  { r with editedAt := r.editedAt.map v.time, createdAt := v.time r.createdAt }

def Page.veiled (p : Page) : Page :=
  { p with editedAt := p.editedAt.map v.time, createdAt := v.time p.createdAt }

def JobRow.veiled (r : JobRow) : JobRow :=
  { r with
    heartbeatAt := r.heartbeatAt.map v.time
    timeoutAt := r.timeoutAt.map v.time
    createdAt := v.time r.createdAt
    updatedAt := v.time r.updatedAt
    completedAt := r.completedAt.map v.time }

def Job.veiled (j : Job) : Job :=
  { j with
    heartbeatAt := j.heartbeatAt.map v.time
    timeoutAt := j.timeoutAt.map v.time
    createdAt := v.time j.createdAt
    updatedAt := v.time j.updatedAt
    completedAt := j.completedAt.map v.time }

/-- The event tells of a generation that has failed. -/
def EventRow.isFailedGeneration (e : EventRow) : Bool :=
  e.kind == .error && e.step == some "generate"

def EventRow.veiled (e : EventRow) : EventRow :=
  { e with
    message := if v.reports && e.isFailedGeneration then "" else e.message
    trace := none
    createdAt := v.time e.createdAt }

/-- A store behind a veil. -/
def Store.veiled (s : Store) : Store :=
  { s with
    documents := s.documents.map (DocumentRow.veiled v)
    pages := s.pages.map (PageRow.veiled v)
    jobs := s.jobs.map (JobRow.veiled v)
    events := s.events.map (EventRow.veiled v) }

theorem Document.veiled_eq {v : Veil} (hv : v.times = false) (d : Document) : d.veiled v = d := by
  simp [veiled, Veil.time_eq hv]

theorem Job.veiled_eq {v : Veil} (hv : v.times = false) (j : Job) : j.veiled v = j := by
  simp [veiled, Veil.time_eq hv]

/-! What is read of a veiled row is what is read of the row, veiled. -/

theorem DocumentRow.read_veiled (r : DocumentRow) :
    (r.veiled v).read = Document.veiled v <$> r.read := by
  simp only [DocumentRow.read, map_bind, map_pure]
  rfl

theorem PageRow.read_veiled (r : PageRow) : (r.veiled v).read = Page.veiled v <$> r.read := by
  simp only [PageRow.read, map_bind, map_pure]
  rfl

theorem JobRow.read_veiled (r : JobRow) : (r.veiled v).read = Job.veiled v <$> r.read := by
  simp only [JobRow.read, map_bind, map_pure]
  rfl

end Rows

/-! ### Transactions -/

namespace Txn
variable {ε ε' α α' β β' : Type} {v : Veil}

/-- Two ends of transactions that look alike. -/
inductive Ends (v : Veil) (A : α → α' → Prop) :
    Except ε (α × Store) → Except ε (α' × Store) → Prop
  | ok {a : α} {a' : α'} {s s' : Store} (ha : A a a') (hs : s.veiled v = s'.veiled v) :
    Ends v A (.ok (a, s)) (.ok (a', s'))
  | error (e : ε) : Ends v A (.error e) (.error e)

/-- From stores that look alike, two transactions come to ends that look alike. -/
def Alike (v : Veil) (A : α → α' → Prop) (t : Txn ε α) (t' : Txn ε α') : Prop :=
  ∀ s s', s.veiled v = s'.veiled v → Ends v A (t s) (t' s')

namespace Alike
variable {A : α → α' → Prop} {B : β → β' → Prop}

theorem pure {a : α} {a' : α'} (h : A a a') :
    Alike v A (Pure.pure a : Txn ε α) (Pure.pure a') := fun _ _ hs => .ok h hs

theorem fail (e : ε) : Alike v A (Txn.fail e) (Txn.fail e) := fun _ _ _ => .error e

theorem store :
    Alike v (fun s s' => s.veiled v = s'.veiled v) (Txn.store : Txn ε Store) Txn.store :=
  fun _ _ hs => .ok hs hs

theorem modify {f f' : Store → Store}
    (h : ∀ s s', s.veiled v = s'.veiled v → (f s).veiled v = (f' s').veiled v) :
    Alike v Eq (Txn.modify f : Txn ε Unit) (Txn.modify f') := fun s s' hs => .ok rfl (h s s' hs)

theorem bind {t : Txn ε β} {t' : Txn ε β'} {k : β → Txn ε α} {k' : β' → Txn ε α'}
    (ht : t.Alike v B t') (hk : ∀ b b', B b b' → (k b).Alike v A (k' b')) :
    Alike v A (t >>= k) (t' >>= k') := by
  intro s s' hs
  have hends := ht s s' hs
  simp only [Bind.bind]
  generalize t s = o, t' s' = o' at hends ⊢
  cases hends with
  | ok hb hs' => exact hk _ _ hb _ _ hs'
  | error e => exact .error e

/-- After results that are the same. -/
theorem next {t t' : Txn ε β} {k : β → Txn ε α} {k' : β → Txn ε α'} (ht : t.Alike v Eq t')
    (hk : ∀ b, (k b).Alike v A (k' b)) : Alike v A (t >>= k) (t' >>= k') :=
  ht.bind fun b _ h => h ▸ hk b

theorem require (holds : Bool) (e : ε) :
    Alike v Eq (Txn.require holds e) (Txn.require holds e) := by
  cases holds with
  | true => exact pure rfl
  | false => exact fail e

theorem widen [Widen ε ε'] {t : Txn ε α} {t' : Txn ε α'} (h : t.Alike v A t') :
    Alike v A (t.widen : Txn ε' α) t'.widen := by
  intro s s' hs
  have hends := h s s' hs
  unfold Txn.widen
  generalize t s = o, t' s' = o' at hends ⊢
  cases hends with
  | ok ha hs' => exact .ok ha hs'
  | error e => exact .error _

/-- A transaction that is tried tells a result, or why there is none. -/
theorem attempt {t t' : Txn ε α} (h : t.Alike v Eq t') :
    Alike v Eq (t.attempt : Txn ε' (Except ε α)) t'.attempt := by
  intro s s' hs
  have hends := h s s' hs
  unfold Txn.attempt
  generalize t s = o, t' s' = o' at hends ⊢
  cases hends with
  | ok ha hs' => exact .ok (congrArg _ ha) hs'
  | error e => exact .ok rfl hs

/-- Results that are there already are the same once both are looked at by `f`. -/
theorem ofExcept {f : α → β} {r r' : Except ε α} (h : f <$> r = f <$> r') :
    Alike v (fun a a' => f a = f a') (Txn.ofExcept r) (Txn.ofExcept r') := by
  cases r with
  | ok a =>
    cases r' with
    | ok a' => exact fun _ _ hs => .ok (Except.ok.inj h) hs
    | error e => cases h
  | error e =>
    cases r' with
    | ok a' => cases h
    | error e' =>
      cases h
      exact fun _ _ _ => .error e

/-- A row that was found is read. -/
theorem found {ρ : Type} {f : ρ → ρ} {g : α → α} {read : ρ → Except ε α}
    (hread : ∀ r, read (f r) = g <$> read r) {r r' : ρ} (h : f r = f r') :
    Alike v (fun d d' => d.map g = d'.map g)
      (do return some (← Txn.ofExcept (read r)) : Txn ε (Option α))
      (do return some (← Txn.ofExcept (read r'))) := by
  have hreads : g <$> read r = g <$> read r' := by rw [← hread, ← hread, h]
  exact (ofExcept hreads).bind fun a a' ha => pure (congrArg some ha)

/-- Rows that were found are read one by one. -/
theorem each {ρ : Type} {f : ρ → ρ} {g : α → α} {read : ρ → Except ε α}
    (hread : ∀ r, read (f r) = g <$> read r) {rows rows' : List ρ} (h : rows.map f = rows'.map f) :
    Alike v (fun ds ds' => ds.map g = ds'.map g) (Txn.ofExcept (rows.mapM read))
      (Txn.ofExcept (rows'.mapM read)) := by
  have hreads : ∀ rows : List ρ, List.map g <$> rows.mapM read = (rows.map f).mapM read := by
    intro rows
    induction rows with
    | nil => rfl
    | cons r rows ih =>
      rw [List.mapM_cons, List.map_cons, List.mapM_cons, ← ih, hread]
      cases read r with
      | error e => rfl
      | ok a =>
        cases rows.mapM read with
        | error e => rfl
        | ok as => rfl
  exact ofExcept (by rw [hreads, hreads, h])

end Alike
end Txn
end Quire
