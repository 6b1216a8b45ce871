import Quire.Proofs.Flow.Interleaving

/-! From one store to another, among given surroundings.

A run takes stores with `P` to a result with `Q`, or to a failure with `E`, if that is where each
of its complete runs ends; and `J` is an invariant on the way, which holds between any two
transactions. There is one rule for each way to build a run. A part that issues only transactions
that keep `P` needs no rule of its own (`of_issues`). -/
namespace Quire
variable {σ α β ε ε' : Type}

-- Irreducible, so that no application of a rule makes Lean run a flow.
@[irreducible]
def Run.Takes (w : Surroundings σ) (J P : Store → Prop) (Q : α → Store → Prop)
    (E : ε → Store → Prop) (r : Run ε α) : Prop :=
  ∀ s x, P s → Run.Leads (w.keeping J) (fun a m => Q a m.1) (fun e m => E e m.1) r (s, x)

namespace Run.Takes
variable {w : Surroundings σ} {J P : Store → Prop} {Q : α → Store → Prop} {E : ε → Store → Prop}

theorem iff_leads {r : Run ε α} : r.Takes w J P Q E ↔ ∀ s x, P s →
    Run.Leads (w.keeping J) (fun a m => Q a m.1) (fun e m => E e m.1) r (s, x) := by
  unfold Run.Takes
  rfl

theorem conseq {P' : Store → Prop} {Q' : α → Store → Prop} {E' : ε → Store → Prop} {r : Run ε α}
    (h : r.Takes w J P Q E) (hP : ∀ s, P' s → P s) (hQ : ∀ a s, Q a s → Q' a s)
    (hE : ∀ e s, E e s → E' e s) : r.Takes w J P' Q' E' :=
  iff_leads.mpr fun s x hs =>
    (iff_leads.mp h s x (hP s hs)).mono (fun a n => hQ a n.1) fun e n => hE e n.1

/-- What every store at the beginning shows may be used from there on. -/
theorem learn {φ : Prop} {r : Run ε α} (hφ : ∀ s, P s → φ) (h : φ → r.Takes w J P Q E) :
    r.Takes w J P Q E :=
  iff_leads.mpr fun s x hs => iff_leads.mp (h (hφ s hs)) s x hs

theorem of_exists {ι : Type} {P : ι → Store → Prop} {r : Run ε α}
    (h : ∀ i, r.Takes w J (P i) Q E) : r.Takes w J (fun s => ∃ i, P i s) Q E :=
  iff_leads.mpr fun s x ⟨i, hs⟩ => iff_leads.mp (h i) s x hs

theorem pure {a : α} (h : ∀ s, P s → Q a s) : Takes w J P Q E (Pure.pure a : Run ε α) :=
  iff_leads.mpr fun s _ hs => (Run.Leads.pure a).mpr (h s hs)

theorem throw {e : ε} (h : ∀ s, P s → E e s) :
    Takes w J P Q E (MonadExcept.throw e : Run ε α) :=
  iff_leads.mpr fun s _ hs => (Run.Leads.throw e).mpr (h s hs)

theorem bind {R : β → Store → Prop} {r : Run ε β} {k : β → Run ε α} (hr : r.Takes w J P R E)
    (hk : ∀ b, (k b).Takes w J (R b) Q E) : (r >>= k).Takes w J P Q E := by
  refine iff_leads.mpr fun s x hs => (Run.Leads.bind r k).mpr ?_
  exact (iff_leads.mp hr s x hs).mono (fun b n hb => iff_leads.mp (hk b) n.1 n.2 hb) fun _ _ he => he

/-- What would follow a failure does not matter. -/
theorem throw_bind {e : ε} {k : β → Run ε α} (h : ∀ s, P s → E e s) :
    (MonadExcept.throw e >>= k : Run ε α).Takes w J P Q E :=
  bind (R := fun _ _ => False) (throw h) fun _ => iff_leads.mpr fun _ _ hs => hs.elim

/-- Of a question that is no transaction, the surroundings tell which answers it may get. -/
theorem ask {e : Effect α} (he : e.isTransaction = false)
    (h : ∀ s x b x', P s → w.allows e x b x' → Q b s) :
    Takes w J P Q E (Run.perform e : Run ε α) := by
  refine iff_leads.mpr fun s x hs => (Run.Leads.perform e).mpr ?_
  exact (Surroundings.asking_iff he).mpr fun b x' hb => h s x b x' hs hb

theorem perform {e : Effect α} (he : e.isTransaction = false) :
    Takes w J P (fun _ => P) E (Run.perform e : Run ε α) :=
  ask he fun _ _ _ _ hs _ => hs

/-- Of a request, too. -/
theorem demand [Widen ε ε'] {E : ε' → Store → Prop} {e : Effect (Except ε α)}
    (he : e.isTransaction = false)
    (h : ∀ s x o x', P s → w.allows e x o x' → Either Q (fun fault => E (Widen.widen fault)) o s) :
    Takes w J P Q E (Run.request e : Run ε' α) := by
  refine iff_leads.mpr fun s x hs => (Run.Leads.request e).mpr ?_
  refine (Surroundings.asking_iff he).mpr fun o x' ho => ?_
  have hanswer := h s x o x' hs ho
  cases o with
  | ok a => exact hanswer
  | error fault => exact hanswer

theorem request [Widen ε ε'] {e : Effect (Except ε α)} (he : e.isTransaction = false) :
    Takes w J P (fun _ => P) (fun _ => P) (Run.request e : Run ε' α) := by
  refine demand he fun s _ o _ hs _ => ?_
  cases o with
  | ok a => exact hs
  | error fault => exact hs

/-- A transaction leads on from what it leaves, or from the store as it was. -/
theorem transact [Widen StoreError ε] [Widen ε ε'] {E : ε' → Store → Prop} {t : Txn ε α}
    (h : ∀ s, P s → t.wp (fun a s' => J s' ∧ Q a s') (fun e => E (Widen.widen e) s) s) :
    Takes w J P Q E (Run.transact t : Run ε' α) := by
  refine iff_leads.mpr fun s x hs => (Run.Leads.transact t).mpr ?_
  refine (Surroundings.asking_transact t).mpr ?_
  exact Txn.wp_mono (h s hs) (fun a s' hs' => ⟨fun _ => hs'.1, hs'.2⟩) fun _ he => he

/-- A transaction whose failure is only told. -/
theorem attempt [Widen StoreError ε] {Q : Except ε α → Store → Prop} {E : ε' → Store → Prop} {t : Txn ε α}
    (h : ∀ s, P s → t.wp (fun a s' => J s' ∧ Q (.ok a) s') (fun e => Q (.error e) s) s) :
    Takes w J P Q E (Run.perform (.transact t) : Run ε' (Except ε α)) := by
  refine iff_leads.mpr fun s x hs => (Run.Leads.perform (.transact t)).mpr ?_
  refine (Surroundings.asking_transact t).mpr ?_
  exact Txn.wp_mono (h s hs) (fun a s' hs' => ⟨fun _ => hs'.1, hs'.2⟩) fun _ he => he

theorem widen [Widen ε ε'] {E : ε' → Store → Prop} {r : Run ε α}
    (h : r.Takes w J P Q fun e => E (Widen.widen e)) :
    Takes w J P Q E (Run.widen r : Run ε' α) :=
  iff_leads.mpr fun s x hs => (Run.Leads.widen r).mpr (iff_leads.mp h s x hs)

theorem outcome {Q : Except ε α → Store → Prop} {E : ε' → Store → Prop} {r : Run ε α}
    (h : r.Takes w J P (fun a => Q (.ok a)) fun e => Q (.error e)) :
    Takes w J P Q E (Run.outcome r : Run ε' (Except ε α)) :=
  iff_leads.mpr fun s x hs => (Run.Leads.outcome r).mpr (iff_leads.mp h s x hs)

/-- What follows a result that is there already has to be followed only for that result. -/
theorem ofExcept_bind [Widen ε ε'] {E : ε' → Store → Prop} {r : Except ε β} {k : β → Run ε' α}
    (hE : ∀ e s, r = .error e → P s → E (Widen.widen e) s)
    (hk : ∀ b, r = .ok b → (k b).Takes w J P Q E) :
    (Run.ofExcept r >>= k : Run ε' α).Takes w J P Q E := by
  cases r with
  | ok b => exact hk b rfl
  | error e => exact throw fun s hs => hE e s rfl hs

theorem ofExcept [Widen ε ε'] (r : Except ε α) :
    Takes w J P (fun _ => P) (fun _ => P) (Run.ofExcept r : Run ε' α) := by
  cases r with
  | ok a => exact pure fun _ hs => hs
  | error e => exact throw fun _ hs => hs

/-- Where nothing is expected of a result, nothing has to be known of the run; `φ` is what is known
anyway. -/
theorem anything (r : Run ε α) {φ : Prop} (h : φ) :
    r.Takes w (fun _ => True) P (fun _ _ => True) fun _ _ => φ := by
  have hflow : ∀ (f : Flow (Except ε α)) m, Flow.Leads (w.keeping fun _ => True)
      (Either (fun _ _ => True) fun _ _ => φ) f m := by
    intro f
    induction f with
    | done o =>
      intro m
      cases o with
      | ok a => trivial
      | error e => exact h
    | ask op next ih => exact fun m b n _ => ⟨id, ih b n⟩
  exact iff_leads.mpr fun s x _ => hflow r.run (s, x)

/-- What issues only transactions that keep `P`, keeps `P`. -/
theorem of_issues {K : TxnKind} {r : Run ε α} (hr : r.Issues K)
    (hK : ∀ {ε α : Type} {t : Txn ε α}, K ε α t → t.Keeps P) (hJ : ∀ s, P s → J s) :
    r.Takes w J P (fun _ => P) fun _ => P := by
  refine iff_leads.mpr fun s x hs => ?_
  refine ((Run.Issues.iff_run.mp hr).leads hK hJ (s, x) hs).mono fun o n hn => ?_
  cases o with
  | ok a => exact hn
  | error e => exact hn

/-- Every moment of a run has the invariant, and every complete run ends as it should. -/
theorem runs {r : Run ε α} (h : r.Takes w J P Q E) {s : Store} (hs : P s) (hJ : J s) (x : σ) :
    (∀ m, w.Passes r.run (s, x) m → J m.1) ∧
      ∀ o m, w.Runs r.run (s, x) o m → Either Q E o m.1 := by
  obtain ⟨hpasses, hruns⟩ :=
    (Surroundings.leads_iff r.run (s, x) hJ).mp (iff_leads.mp h s x hs)
  refine ⟨hpasses, fun o m hm => ?_⟩
  have hends := hruns o m hm
  cases o with
  | ok a => exact hends
  | error e => exact hends

/-- The same of a run whose result nobody looks at. -/
theorem ignored {R : Store → Prop} {r : Run ε α} (h : r.Takes w J P (fun _ => R) fun _ => R)
    {s : Store} (hs : P s) (hJ : J s) (x : σ) :
    (∀ m, w.Passes r.ignored (s, x) m → J m.1) ∧
      ∀ u m, w.Runs r.ignored (s, x) u m → R m.1 := by
  refine (Surroundings.leads_iff r.ignored (s, x) hJ).mp ((Flow.Leads.bind _ _).mpr ?_)
  refine Flow.Leads.mono (iff_leads.mp h s x hs) fun o n hn => ?_
  cases o with
  | ok a => exact hn
  | error e => exact hn

end Run.Takes
end Quire
