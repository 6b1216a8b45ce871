import Quire.Effect

/-! A logic of flows, whatever answers their questions.

A `Reading` says of every question what has to hold when it is asked, for what is wanted of its
answer. `Flow.Leads` carries that along a flow: from what is wanted at the end back to the
beginning; `Run.Leads` does so for a flow that may fail, with a wish for either end. There is one
rule for each way to build a flow, so a flow is followed line by line, and a part of it by what is
known of that part. -/
namespace Quire

/-- What has to hold when a question is asked at `m`, so that `K` holds of its answer. -/
structure Reading (μ : Type) where
  asking : {β : Type} → Effect β → (β → μ → Prop) → μ → Prop
  mono : ∀ {β : Type} {K K' : β → μ → Prop} (e : Effect β) (m : μ),
    (∀ b n, K b n → K' b n) → asking e K m → asking e K' m

variable {μ : Type} {R : Reading μ} {α β ε ε' : Type}

/-- From `m` the flow leads to `Q`. -/
def Flow.Leads (R : Reading μ) (Q : α → μ → Prop) : Flow α → μ → Prop
  | .done a, m => Q a m
  | .ask op next, m => R.asking op (fun b n => Flow.Leads R Q (next b) n) m

namespace Flow.Leads

theorem mono {Q Q' : α → μ → Prop} {f : Flow α} {m : μ} (h : Flow.Leads R Q f m)
    (hQ : ∀ a n, Q a n → Q' a n) : Flow.Leads R Q' f m := by
  induction f generalizing m with
  | done a => exact hQ a m h
  | ask op next ih => exact R.mono op m (fun b n hb => ih b hb) h

@[simp] theorem pure {Q : α → μ → Prop} {m : μ} (a : α) :
    Flow.Leads R Q (Pure.pure a) m ↔ Q a m := Iff.rfl

@[simp] theorem bind {Q : β → μ → Prop} {m : μ} (f : Flow α) (g : α → Flow β) :
    Flow.Leads R Q (f >>= g) m ↔ Flow.Leads R (fun a n => Flow.Leads R Q (g a) n) f m := by
  induction f generalizing m with
  | done a => exact Iff.rfl
  | ask op next ih =>
    constructor
    · exact R.mono op m fun b n => (ih b).mp
    · exact R.mono op m fun b n => (ih b).mpr

@[simp] theorem map {Q : β → μ → Prop} {m : μ} (f : Flow α) (g : α → β) :
    Flow.Leads R Q (g <$> f) m ↔ Flow.Leads R (fun a n => Q (g a) n) f m :=
  bind f (Pure.pure ∘ g)

@[simp] theorem perform {Q : α → μ → Prop} {m : μ} (e : Effect α) :
    Flow.Leads R Q (Program.perform e) m ↔ R.asking e Q m := Iff.rfl

end Flow.Leads

/-- What is wanted of a result, or of a failure. -/
def Either (Q : α → μ → Prop) (E : ε → μ → Prop) : Except ε α → μ → Prop
  | .ok a, m => Q a m
  | .error e, m => E e m

theorem either_mono {Q Q' : α → μ → Prop} {E E' : ε → μ → Prop} {m : μ} {o : Except ε α}
    (h : Either Q E o m) (hQ : ∀ a, Q a m → Q' a m) (hE : ∀ e, E e m → E' e m) :
    Either Q' E' o m := by
  cases o with
  | ok a => exact hQ a h
  | error e => exact hE e h

theorem either_eta (Q : Except ε α → μ → Prop) :
    Either (fun a => Q (.ok a)) (fun e => Q (.error e)) = Q := by
  funext o m
  cases o with
  | ok a => rfl
  | error e => rfl

/-- What follows a result, and what follows a failure. -/
theorem Flow.Leads.cases {Q : β → μ → Prop} {m : μ} (f : Flow (Except ε α))
    (k : Except ε α → Flow β) :
    Flow.Leads R Q (f >>= k) m ↔
      Flow.Leads R (Either (fun a => Flow.Leads R Q (k (.ok a)))
        fun e => Flow.Leads R Q (k (.error e))) f m := by
  rw [Flow.Leads.bind, either_eta fun o => Flow.Leads R Q (k o)]

/-- From `m` the flow leads to a result with `Q`, or to a failure with `E`. -/
def Run.Leads (R : Reading μ) (Q : α → μ → Prop) (E : ε → μ → Prop) (r : Run ε α) (m : μ) : Prop :=
  Flow.Leads R (Either Q E) r.run m

namespace Run.Leads
variable {Q : α → μ → Prop} {E : ε → μ → Prop} {m : μ}

theorem mono {Q' : α → μ → Prop} {E' : ε → μ → Prop} {r : Run ε α} (h : Run.Leads R Q E r m)
    (hQ : ∀ a n, Q a n → Q' a n) (hE : ∀ e n, E e n → E' e n) : Run.Leads R Q' E' r m :=
  Flow.Leads.mono h fun _ n ho => either_mono ho (fun a => hQ a n) fun e => hE e n

@[simp] theorem pure (a : α) : Run.Leads R Q E (Pure.pure a) m ↔ Q a m := Iff.rfl

@[simp] theorem throw (e : ε) :
    Run.Leads R Q E (MonadExcept.throw e : Run ε α) m ↔ E e m := Iff.rfl

@[simp] theorem bind (r : Run ε β) (k : β → Run ε α) :
    Run.Leads R Q E (r >>= k) m ↔
      Run.Leads R (fun b n => Run.Leads R Q E (k b) n) E r m :=
  Flow.Leads.cases r.run (ExceptT.bindCont k)

@[simp] theorem lift (f : Flow α) :
    Run.Leads R Q E (ExceptT.lift f) m ↔ Flow.Leads R Q f m := by
  unfold Run.Leads
  rw [ExceptT.run_lift, Flow.Leads.map]
  rfl

@[simp] theorem perform (e : Effect α) :
    Run.Leads R Q E (Run.perform e) m ↔ R.asking e Q m := lift (Program.perform e)

@[simp] theorem request [Widen ε ε'] {E : ε' → μ → Prop} (e : Effect (Except ε α)) :
    Run.Leads R Q E (Run.request e) m ↔
      R.asking e (Either Q fun fault => E (Widen.widen fault)) m :=
  Flow.Leads.cases (Program.perform e) _

@[simp] theorem transact [Widen StoreError ε] [Widen ε ε'] {E : ε' → μ → Prop} (t : Txn ε α) :
    Run.Leads R Q E (Run.transact t) m ↔
      R.asking (.transact t) (Either Q fun fault => E (Widen.widen fault)) m :=
  request (.transact t)

@[simp] theorem widen [Widen ε ε'] {E : ε' → μ → Prop} (r : Run ε α) :
    Run.Leads R Q E (Run.widen r) m ↔ Run.Leads R Q (fun e => E (Widen.widen e)) r m :=
  Flow.Leads.cases r.run _

/-- What is wanted of the outcome, whichever it is. -/
theorem iff_run {Q : Except ε α → μ → Prop} {r : Run ε α} :
    Run.Leads R (fun a => Q (.ok a)) (fun e => Q (.error e)) r m ↔ Flow.Leads R Q r.run m := by
  rw [Run.Leads, either_eta]

@[simp] theorem outcome {Q : Except ε α → μ → Prop} {E : ε' → μ → Prop} (r : Run ε α) :
    Run.Leads R Q E (Run.outcome r) m ↔
      Run.Leads R (fun a => Q (.ok a)) (fun e => Q (.error e)) r m :=
  (lift r.run).trans iff_run.symm

end Run.Leads
end Quire
