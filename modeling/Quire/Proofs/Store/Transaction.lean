import Quire.Store.Basic

/-! What a transaction needs for what it leaves.

`Txn.wp` turns what is wanted afterwards — of the result and the store, or of the failure — into
what has to hold before. One rule for each way to build a transaction makes it computable, so a
transaction is followed step by step without looking at how it is written. A transaction `Keeps`
a property of the store if it never commits a store without it. -/
namespace Quire.Txn
variable {ε ε' α β : Type}

/-- What has to hold of a store so that the transaction leaves `Q`, or a failure with `E`. -/
def wp (t : Txn ε α) (Q : α → Store → Prop) (E : ε → Prop) (s : Store) : Prop :=
  match t s with
  | .ok (a, s') => Q a s'
  | .error e => E e

section Rules
variable {Q : α → Store → Prop} {E : ε → Prop} {s : Store}

@[simp] theorem wp_pure (a : α) : (pure a : Txn ε α).wp Q E s ↔ Q a s := Iff.rfl

@[simp] theorem wp_bind (t : Txn ε β) (f : β → Txn ε α) :
    (t >>= f).wp Q E s ↔ t.wp (fun b => (f b).wp Q E) E s := by
  have hbind : (t >>= f) s = match t s with | .ok (b, s') => f b s' | .error e => .error e := rfl
  unfold wp
  rw [hbind]
  cases t s <;> rfl

@[simp] theorem wp_map (f : β → α) (t : Txn ε β) :
    (f <$> t).wp Q E s ↔ t.wp (fun b => Q (f b)) E s := wp_bind t (pure ∘ f)

@[simp] theorem wp_fail (e : ε) : (fail e : Txn ε α).wp Q E s ↔ E e := Iff.rfl

@[simp] theorem wp_store {Q : Store → Store → Prop} :
    (store : Txn ε Store).wp Q E s ↔ Q s s := Iff.rfl

@[simp] theorem wp_modify {Q : Unit → Store → Prop} (f : Store → Store) :
    (modify f : Txn ε Unit).wp Q E s ↔ Q () (f s) := Iff.rfl

@[simp] theorem wp_require {Q : Unit → Store → Prop} (holds : Bool) (e : ε) :
    (require holds e).wp Q E s ↔ (holds = true → Q () s) ∧ (holds = false → E e) := by
  cases holds
  · simp [require]
  · simp [require]

theorem wp_ofExcept_ok (a : α) : (ofExcept (.ok a) : Txn ε α).wp Q E s ↔ Q a s := Iff.rfl

theorem wp_ofExcept_error (e : ε) : (ofExcept (.error e) : Txn ε α).wp Q E s ↔ E e := Iff.rfl

@[simp] theorem wp_ofExcept (r : Except ε α) :
    (ofExcept r).wp Q E s ↔ (∀ a, r = .ok a → Q a s) ∧ (∀ e, r = .error e → E e) := by
  cases r with
  | ok a => simp [wp_ofExcept_ok]
  | error e => simp [wp_ofExcept_error]

@[simp] theorem wp_widen [Widen ε ε'] {E : ε' → Prop} (t : Txn ε α) :
    (widen t : Txn ε' α).wp Q E s ↔ t.wp Q (fun e => E (Widen.widen e)) s := by
  unfold wp widen
  cases t s <;> rfl

@[simp] theorem wp_attempt {Q : Except ε α → Store → Prop} {E : ε' → Prop} (t : Txn ε α) :
    (attempt t : Txn ε' (Except ε α)).wp Q E s ↔
      t.wp (fun a => Q (.ok a)) (fun e => Q (.error e) s) s := by
  unfold wp attempt
  cases t s <;> rfl

/-- What holds of every outcome holds of a weaker wish. -/
theorem wp_mono {Q' : α → Store → Prop} {E' : ε → Prop} {t : Txn ε α} (h : t.wp Q E s)
    (hQ : ∀ a s', Q a s' → Q' a s') (hE : ∀ e, E e → E' e) : t.wp Q' E' s := by
  unfold wp at h ⊢
  cases ht : t s with
  | ok r => rw [ht] at h; exact hQ _ _ h
  | error e => rw [ht] at h; exact hE _ h

theorem wp_trivial (t : Txn ε α) (s : Store) : t.wp (fun _ _ => True) (fun _ => True) s := by
  unfold wp
  split
  · trivial
  · trivial

/-- Both wishes at once. -/
theorem wp_and {Q' : α → Store → Prop} {E' : ε → Prop} {t : Txn ε α} (h : t.wp Q E s)
    (h' : t.wp Q' E' s) : t.wp (fun a s' => Q a s' ∧ Q' a s') (fun e => E e ∧ E' e) s := by
  unfold wp at h h' ⊢
  cases ht : t s with
  | ok r => rw [ht] at h h'; exact ⟨h, h'⟩
  | error e => rw [ht] at h h'; exact ⟨h, h'⟩

/-- Any number of wishes at once. -/
theorem wp_forall {ι : Type} {P : ι → Prop} {Q : ι → α → Store → Prop} {t : Txn ε α}
    (h : ∀ i, P i → t.wp (Q i) (fun _ => True) s) :
    t.wp (fun a s' => ∀ i, P i → Q i a s') (fun _ => True) s := by
  unfold wp at h ⊢
  cases ht : t s with
  | ok r => exact fun i hi => by simpa [ht] using h i hi
  | error e => trivial

/-- The same in terms of the outcome: a failure leaves the store as it was. -/
theorem wp_iff_run (t : Txn ε α) : t.wp Q E s ↔
    (∀ a, (t.run s).1 = .ok a → Q a (t.run s).2) ∧
      (∀ e, (t.run s).1 = .error e → E e) := by
  unfold wp run
  cases t s with
  | ok r => simp
  | error e => simp

/-- A transaction followed to the end is its outcome. -/
theorem wp_eq_run {t : Txn ε α} {out : Except ε α × Store} :
    t.wp (fun a s' => (.ok a, s') = out) (fun e => (.error e, s) = out) s ↔ t.run s = out := by
  unfold wp run
  cases t s <;> rfl

theorem wp_of_run {t : Txn ε α} {a : α} {s' : Store} (h : t.run s = (.ok a, s')) (hQ : Q a s') :
    t.wp Q E s := by
  refine (wp_iff_run t).mpr ⟨fun b hb => ?_, fun e he => ?_⟩
  · rw [h] at hb ⊢
    exact Except.ok.inj hb ▸ hQ
  · rw [h] at he
    cases he

theorem run_error {t : Txn ε α} {e : ε} (h : (t.run s).1 = .error e) : (t.run s).2 = s := by
  unfold run at h ⊢
  cases ht : t s with
  | ok r => rw [ht] at h; cases h
  | error e => rfl

end Rules

/-! ### Keeping a property -/

/-- Whatever the transaction commits has the property if the store before had it. -/
def Keeps (I : Store → Prop) (t : Txn ε α) : Prop :=
  ∀ s, I s → t.wp (fun _ => I) (fun _ => True) s

namespace Keeps
variable {I : Store → Prop}

theorem run {t : Txn ε α} (h : t.Keeps I) {s : Store} (hs : I s) : I (t.run s).2 := by
  have := (wp_iff_run t).mp (h s hs)
  cases hr : (t.run s).1 with
  | ok a => exact this.1 a hr
  | error e => rw [run_error hr]; exact hs

theorem pure (a : α) : (Pure.pure a : Txn ε α).Keeps I := fun _ hs => hs

theorem fail (e : ε) : (Txn.fail e : Txn ε α).Keeps I := fun _ _ => trivial

theorem store : (Txn.store : Txn ε Store).Keeps I := fun _ hs => hs

theorem modify {f : Store → Store} (hf : ∀ s, I s → I (f s)) :
    (Txn.modify f : Txn ε Unit).Keeps I := hf

theorem ofExcept (r : Except ε α) : (Txn.ofExcept r).Keeps I :=
  fun _ hs => (wp_ofExcept r).mpr ⟨fun _ _ => hs, fun _ _ => trivial⟩

theorem require (holds : Bool) (e : ε) : (Txn.require holds e).Keeps I :=
  fun _ hs => (wp_require holds e).mpr ⟨fun _ => hs, fun _ => trivial⟩

theorem bind {t : Txn ε β} {f : β → Txn ε α} (ht : t.Keeps I) (hf : ∀ b, (f b).Keeps I) :
    (t >>= f).Keeps I :=
  fun s hs => (wp_bind t f).mpr (wp_mono (ht s hs) (fun b s' hs' => hf b s' hs') fun _ h => h)

theorem map {t : Txn ε β} (f : β → α) (ht : t.Keeps I) : (f <$> t).Keeps I :=
  ht.bind fun _ => pure _

theorem widen [Widen ε ε'] {t : Txn ε α} (ht : t.Keeps I) : (t.widen : Txn ε' α).Keeps I :=
  fun s hs => (wp_widen t).mpr (ht s hs)

theorem attempt {t : Txn ε α} (ht : t.Keeps I) : (t.attempt : Txn ε' (Except ε α)).Keeps I :=
  fun s hs => (wp_attempt t).mpr (wp_mono (ht s hs) (fun _ _ h => h) fun _ _ => hs)

/-- Two properties that are kept are kept together. -/
theorem and {J : Store → Prop} {t : Txn ε α} (hI : t.Keeps I) (hJ : t.Keeps J) :
    t.Keeps fun s => I s ∧ J s :=
  fun s hs => wp_mono (wp_and (hI s hs.1) (hJ s hs.2)) (fun _ _ h => h) fun _ _ => trivial

end Keeps

/-- A transaction that only looks. -/
def ReadOnly (t : Txn ε α) : Prop := ∀ s, t.Keeps (· = s)

theorem ReadOnly.keeps {t : Txn ε α} (h : t.ReadOnly) (I : Store → Prop) : t.Keeps I :=
  fun s hs => wp_mono (h s s rfl) (fun _ _ hs' => hs' ▸ hs) fun _ h => h

/-- A transaction that changes neither a document nor a job. -/
def Aside (t : Txn ε α) : Prop :=
  ∀ documents jobs, t.Keeps fun s => s.documents = documents ∧ s.jobs = jobs

theorem Aside.wp {t : Txn ε α} (h : t.Aside) (s : Store) :
    t.wp (fun _ s' => s'.documents = s.documents ∧ s'.jobs = s.jobs) (fun _ => True) s :=
  h s.documents s.jobs s ⟨rfl, rfl⟩

end Quire.Txn
