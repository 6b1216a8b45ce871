import Quire.Proofs.Flow.Dialogue

/-! Runs in which the store fails transactions of its own accord.

Such a transaction has changed nothing, and what asked for it is told so. Which ones may fail is
said by a kind of transactions. A flow comes to `Q` despite that exactly if it leads there in a
reading of its own (`leads_despite_iff`), so it is followed line by line as any other; and what
the transactions of a flow keep is kept whichever of them fail (`Flow.Abides.leads_despite`). -/
namespace Quire
variable {σ α β ε ε' : Type}

/-- Every transaction is of this kind. -/
def anyTransaction : TxnKind := fun _ _ _ => True

namespace Surroundings

/-- The answers that a question may get if the store may fail it of its own accord. -/
def suffers (w : Surroundings σ) (K : TxnKind) : {β : Type} → Effect β → Moment σ → β → Moment σ → Prop
  | _, @Effect.transact ε α _ t, m, b, m' =>
    w.answers (.transact t) m b m' ∨
      K ε α t ∧ m' = m ∧ ∃ fault : StoreError, b = .error (Widen.widen fault)
  | _, e, m, b, m' => w.answers e m b m'

/-- A complete run, with its outcome and the moment after it, despite what the store fails. -/
def RunsDespite (w : Surroundings σ) (K : TxnKind) : Flow α → Moment σ → α → Moment σ → Prop
  | .done a, m, r, m' => r = a ∧ m' = m
  | .ask op next, m, r, m' => ∃ b n, w.suffers K op m b n ∧ w.RunsDespite K (next b) n r m'

/-- Every answer is reckoned with, and every failure of the store. -/
def despite (w : Surroundings σ) (K : TxnKind) : Reading (Moment σ) where
  asking e Q m := ∀ b n, w.suffers K e m b n → Q b n
  mono _ _ hQ h := fun b n hb => hQ b n (h b n hb)

variable {w : Surroundings σ} {K : TxnKind} {m m' : Moment σ}

theorem suffers_iff {e : Effect β} (he : e.isTransaction = false) {b : β} :
    w.suffers K e m b m' ↔ w.answers e m b m' := by
  cases e <;> first | exact Iff.rfl | cases he

theorem suffers_of_answers {e : Effect β} {b : β} (h : w.answers e m b m') :
    w.suffers K e m b m' := by
  cases e <;> first | exact h | exact .inl h

/-- The store need not fail anything. -/
theorem Runs.despite {f : Flow α} {r : α} (h : w.Runs f m r m') : w.RunsDespite K f m r m' := by
  induction f generalizing m with
  | done a => exact h
  | ask op next ih =>
    obtain ⟨b, n, hb, hrest⟩ := h
    exact ⟨b, n, suffers_of_answers hb, ih b hrest⟩

theorem leads_despite_iff {Q : α → Moment σ → Prop} {f : Flow α} :
    Flow.Leads (w.despite K) Q f m ↔ ∀ r m', w.RunsDespite K f m r m' → Q r m' := by
  induction f generalizing m with
  | done a =>
    constructor
    · rintro hQ r m' ⟨rfl, rfl⟩
      exact hQ
    · exact fun hQ => hQ a m ⟨rfl, rfl⟩
  | ask op next ih =>
    constructor
    · rintro h r m' ⟨b, n, hb, hr⟩
      exact (ih b).mp (h b n hb) r m' hr
    · exact fun h b n hb => (ih b).mpr fun r m' hr => h r m' ⟨b, n, hb, hr⟩

/-- The store answers a transaction, or fails it. -/
@[simp] theorem despite_transact [Widen StoreError ε] {Q : Except ε α → Moment σ → Prop}
    (t : Txn ε α) :
    (w.despite K).asking (.transact t) Q m ↔
      t.wp (fun a s' => Q (.ok a) (s', m.2)) (fun e => Q (.error e) m) m.1 ∧
        (K ε α t → ∀ fault : StoreError, Q (.error (Widen.widen fault)) m) := by
  have hanswered : (∀ b n, w.answers (.transact t) m b n → Q b n) ↔
      t.wp (fun a s' => Q (.ok a) (s', m.2)) (fun e => Q (.error e) m) m.1 := by
    have hkeeping := asking_transact (w := w) (I := fun _ => True) (m := m) (K := Q) t
    simpa only [keeping, true_imp_iff, true_and] using hkeeping
  constructor
  · intro h
    exact ⟨hanswered.mp fun b n hb => h b n (.inl hb),
      fun hK fault => h _ m (.inr ⟨hK, rfl, fault, rfl⟩)⟩
  · rintro ⟨hwp, hfails⟩ b n (hb | ⟨hK, rfl, fault, rfl⟩)
    · exact hanswered.mpr hwp b n hb
    · exact hfails hK fault

/-- The surroundings answer everything else, and the store stays. -/
theorem despite_iff {e : Effect β} (he : e.isTransaction = false) {Q : β → Moment σ → Prop} :
    (w.despite K).asking e Q m ↔ ∀ b x, w.allows e m.2 b x → Q b (m.1, x) := by
  constructor
  · intro h b x hb
    exact h b (m.1, x) ((suffers_iff he).mpr ((w.answers_iff he).mpr ⟨rfl, hb⟩))
  · intro h b n hb
    obtain ⟨hs, hallowed⟩ := (w.answers_iff he).mp ((suffers_iff he).mp hb)
    obtain ⟨s', x⟩ := n
    obtain rfl : s' = m.1 := hs
    exact h b x hallowed

end Surroundings

/-- What transactions of a kind keep, a flow that issues no others keeps, whichever of them fail; and
its outcome is one to be expected. -/
theorem Flow.Abides.leads_despite {w : Surroundings σ} {K P : TxnKind} {I : Store → Prop}
    {Q : α → Prop} (hkeeps : ∀ {ε α : Type} {t : Txn ε α}, P ε α t → t.Keeps I) {f : Flow α}
    (hf : f.Abides (.issuing P) Q) (m : Moment σ) (hm : I m.1) :
    Flow.Leads (w.despite K) (fun a m' => Q a ∧ I m'.1) f m := by
  induction f generalizing m with
  | done a => exact ⟨Flow.Abides.done.mp hf, hm⟩
  | ask op next ih =>
    obtain ⟨hop, hnext⟩ := Flow.Abides.ask.mp hf
    cases op with
    | transact t =>
      refine (Surroundings.despite_transact t).mpr ⟨?_, fun _ fault => ih _ (hnext _ trivial) m hm⟩
      exact Txn.wp_mono (hkeeps hop m.1 hm)
        (fun a s' hs' => ih _ (hnext _ trivial) (s', m.2) hs') fun e _ => ih _ (hnext _ trivial) m hm
    | _ =>
      refine (Surroundings.despite_iff rfl).mpr fun b x _ => ?_
      exact ih b (hnext b trivial) (m.1, x) hm

theorem Run.Abides.leads_despite {w : Surroundings σ} {K P : TxnKind} {I : Store → Prop}
    {Q : α → Prop} (hkeeps : ∀ {ε α : Type} {t : Txn ε α}, P ε α t → t.Keeps I) {r : Run ε α}
    (hr : r.Abides (.issuing P) Q) (m : Moment σ) (hm : I m.1) :
    Run.Leads (w.despite K) (fun a m' => Q a ∧ I m'.1) (fun _ m' => I m'.1) r m := by
  refine Flow.Leads.mono (hr.run.leads_despite hkeeps m hm) fun o m' ho => ?_
  cases o with
  | ok a => exact ⟨ho.1 a rfl, ho.2⟩
  | error e => exact ho.2

end Quire
