import Quire.Proofs.Flow.Logic
import Quire.Proofs.Store.Transaction

/-! How a flow runs.

A transaction is answered by the store; every other question is answered by the surroundings,
which may be anything: `Surroundings` says which answers they allow, and how they remember what
was asked. From there a flow has many runs. `Runs` relates a beginning to the outcomes of the
complete ones, `Passes` to every moment of any of them, broken off ones included.

Read in this way, a flow leads to `Q` and keeps a property of the store on its way exactly if
every moment of every run has the property and every complete run ends with `Q` (`leads_iff`). -/
namespace Quire

/-- What answers a flow's questions other than transactions: which answers a question may get
while the surroundings remember something, and what they remember then. -/
structure Surroundings (σ : Type) where
  allows : {β : Type} → Effect β → σ → β → σ → Prop

/-- The store, and what the surroundings remember. -/
abbrev Moment (σ : Type) := Store × σ

/-- Whether a question is put to the store. -/
def Effect.isTransaction {β : Type} : Effect β → Bool
  | @Effect.transact _ _ _ _ => true
  | _ => false

/-- Every question can be answered. -/
theorem Effect.nonempty {β : Type} (e : Effect β) : Nonempty β := by
  cases e with
  | transact t => exact ⟨(t.run Store.empty).1⟩
  | clock => exact ⟨⟨0, 0⟩⟩
  | freshId => exact ⟨""⟩
  | sleep millis => exact ⟨()⟩
  | reference path ttl => exact ⟨.error (.notFound path)⟩
  | openUpload r => exact ⟨.ok []⟩
  | put key body contentType => exact ⟨.ok ()⟩
  | list start => exact ⟨.ok []⟩
  | get key => exact ⟨.error (.notFound key)⟩
  | delete key => exact ⟨.ok ()⟩
  | extract content => exact ⟨.ok []⟩
  | recognize content mime => exact ⟨.ok ""⟩
  | submit inputUri mime outputUri => exact ⟨.ok ""⟩
  | status handle => exact ⟨.ok ⟨true, none, none⟩⟩
  | beginCleaning index text hint => exact ⟨none⟩
  | awaitCleaning first others => exact ⟨(0, .ok default)⟩
  | generate text p => exact ⟨.ok []⟩

namespace Surroundings
variable {σ : Type} {α β ε : Type}

/-- Any answer at all. -/
def free : Surroundings Unit := ⟨fun _ _ _ _ => True⟩

/-- The answers that a question may get, and the moments after them. -/
def answers (w : Surroundings σ) : {β : Type} → Effect β → Moment σ → β → Moment σ → Prop
  | _, @Effect.transact _ _ _ t, m, b, m' => t.run m.1 = (b, m'.1) ∧ m'.2 = m.2
  | _, e, m, b, m' => m'.1 = m.1 ∧ w.allows e m.2 b m'.2

theorem answers_iff (w : Surroundings σ) {e : Effect β} (he : e.isTransaction = false)
    {m m' : Moment σ} {b : β} :
    w.answers e m b m' ↔ m'.1 = m.1 ∧ w.allows e m.2 b m'.2 := by
  cases e <;> first | exact Iff.rfl | cases he

/-- A complete run, with its outcome and the moment after it. -/
def Runs (w : Surroundings σ) : Flow α → Moment σ → α → Moment σ → Prop
  | .done a, m, r, m' => r = a ∧ m' = m
  | .ask op next, m, r, m' => ∃ b n, w.answers op m b n ∧ w.Runs (next b) n r m'

/-- A moment of some run, complete or not. -/
def Passes (w : Surroundings σ) : Flow α → Moment σ → Moment σ → Prop
  | .done _, m, m' => m' = m
  | .ask op next, m, m' => m' = m ∨ ∃ b n, w.answers op m b n ∧ w.Passes (next b) n m'

/-- Every question has an answer. -/
def Live (w : Surroundings σ) : Prop :=
  ∀ {β : Type} (op : Effect β) (m : Moment σ), ∃ b n, w.answers op m b n

/-- Every flow comes to an end among surroundings that always answer. -/
theorem Live.runs {w : Surroundings σ} (hw : w.Live) (f : Flow α) (m : Moment σ) :
    ∃ r m', w.Runs f m r m' := by
  induction f generalizing m with
  | done a => exact ⟨a, m, rfl, rfl⟩
  | ask op next ih =>
    obtain ⟨b, n, hb⟩ := hw op m
    obtain ⟨r, m', hr⟩ := ih b n
    exact ⟨r, m', b, n, hb, hr⟩

/-- The store answers every transaction. So only what is allowed to other questions matters. -/
theorem Live.of_allows {w : Surroundings σ}
    (h : ∀ {β : Type} (op : Effect β) (x : σ), ∃ b x', w.allows op x b x') : w.Live := by
  intro β op m
  by_cases ht : op.isTransaction = true
  · cases op with
    | transact t => exact ⟨(t.run m.1).1, ((t.run m.1).2, m.2), rfl, rfl⟩
    | _ => cases ht
  · obtain ⟨b, x', hb⟩ := h op m.2
    exact ⟨b, (m.1, x'), (answers_iff _ (Bool.not_eq_true _ ▸ ht)).mpr ⟨rfl, hb⟩⟩

theorem free_live : free.Live := by
  refine Live.of_allows fun op x => ?_
  obtain ⟨b⟩ := op.nonempty
  exact ⟨b, x, trivial⟩

/-- A flow that begins with a transaction goes on with what the transaction tells. -/
theorem runs_transact {w : Surroundings σ} {s s' : Store} {x : σ} [Widen StoreError ε] {t : Txn ε β}
    {next : Except ε β → Flow α} {told : Except ε β} (ht : t.run s = (told, s')) (r : α)
    (m : Moment σ) :
    w.Runs (.ask (.transact t) next) (s, x) r m ↔ w.Runs (next told) (s', x) r m := by
  constructor
  · rintro ⟨b, ⟨s₁, x₁⟩, ⟨hrun, hx⟩, hrest⟩
    obtain rfl : x₁ = x := hx
    obtain ⟨rfl, rfl⟩ := Prod.mk.inj (hrun.symm.trans ht)
    exact hrest
  · exact fun h => ⟨told, (s', x), ⟨ht, rfl⟩, h⟩

/-- Surroundings that allow more have more runs. -/
theorem Runs.mono {w w' : Surroundings σ}
    (h : ∀ {β : Type} (e : Effect β) x b x', w.allows e x b x' → w'.allows e x b x') {f : Flow α}
    {m m' : Moment σ} {r : α} (hr : w.Runs f m r m') : w'.Runs f m r m' := by
  induction f generalizing m with
  | done a => exact hr
  | ask op next ih =>
    obtain ⟨b, n, hb, hrest⟩ := hr
    refine ⟨b, n, ?_, ih b hrest⟩
    by_cases ht : op.isTransaction = true
    · cases op with
      | transact t => exact hb
      | _ => cases ht
    · rw [answers_iff _ (Bool.not_eq_true _ ▸ ht)] at hb ⊢
      exact ⟨hb.1, h op m.2 b n.2 hb.2⟩

/-! ### Runs, read as a logic -/

/-- Every answer of the surroundings is reckoned with, and `I` is kept on the way. -/
def keeping (w : Surroundings σ) (I : Store → Prop) : Reading (Moment σ) where
  asking e K m := ∀ b n, w.answers e m b n → (I m.1 → I n.1) ∧ K b n
  mono _ _ hK h := fun b n hb => ⟨(h b n hb).1, hK b n (h b n hb).2⟩

theorem leads_iff {w : Surroundings σ} {I : Store → Prop} {Q : α → Moment σ → Prop}
    (f : Flow α) (m : Moment σ) (hm : I m.1) :
    Flow.Leads (w.keeping I) Q f m ↔
      (∀ m', w.Passes f m m' → I m'.1) ∧ ∀ r m', w.Runs f m r m' → Q r m' := by
  induction f generalizing m with
  | done a =>
    constructor
    · intro hQ
      exact ⟨fun m' h => h ▸ hm, fun r m' h => by obtain ⟨rfl, rfl⟩ := h; exact hQ⟩
    · rintro ⟨-, hQ⟩
      exact hQ a m ⟨rfl, rfl⟩
  | ask op next ih =>
    constructor
    · intro h
      constructor
      · rintro m' (rfl | ⟨b, n, hb, hp⟩)
        · exact hm
        · exact ((ih b n ((h b n hb).1 hm)).mp (h b n hb).2).1 m' hp
      · rintro r m' ⟨b, n, hb, hr⟩
        exact ((ih b n ((h b n hb).1 hm)).mp (h b n hb).2).2 r m' hr
    · rintro ⟨hI, hQ⟩ b n hb
      have hstart : w.Passes (next b) n n := by
        cases next b with
        | done a => rfl
        | ask op' next' => exact .inl rfl
      have hn : I n.1 := hI n (.inr ⟨b, n, hb, hstart⟩)
      refine ⟨fun _ => hn, (ih b n hn).mpr ⟨fun m' hp => ?_, fun r m' hr => ?_⟩⟩
      · exact hI m' (.inr ⟨b, n, hb, hp⟩)
      · exact hQ r m' ⟨b, n, hb, hr⟩

section Questions
variable {w : Surroundings σ} {I : Store → Prop} {m : Moment σ}

/-- The store answers a transaction. -/
@[simp] theorem asking_transact [Widen StoreError ε] {K : Except ε α → Moment σ → Prop} (t : Txn ε α) :
    (w.keeping I).asking (.transact t) K m ↔
      t.wp (fun a s' => (I m.1 → I s') ∧ K (.ok a) (s', m.2)) (fun e => K (.error e) m) m.1 := by
  obtain ⟨s, x⟩ := m
  rw [Txn.wp_iff_run]
  constructor
  · intro h
    have hrun := h (t.run s).1 ((t.run s).2, x) ⟨rfl, rfl⟩
    refine ⟨fun a ha => ?_, fun e he => ?_⟩
    · rw [ha] at hrun; exact hrun
    · rw [he, Txn.run_error he] at hrun; exact hrun.2
  · rintro ⟨hok, herror⟩ b n ⟨hrun, hx⟩
    obtain ⟨s', x'⟩ := n
    obtain rfl : x' = x := hx
    cases b with
    | ok a =>
      have := hok a (by rw [hrun])
      rw [hrun] at this
      exact this
    | error e =>
      have hs : (t.run s).2 = s := Txn.run_error (by rw [hrun])
      rw [hrun] at hs
      obtain rfl : s' = s := hs
      exact ⟨fun hI => hI, herror e (by rw [hrun])⟩

/-- The surroundings answer everything else, and the store stays. -/
theorem asking_iff {e : Effect β} (he : e.isTransaction = false) {K : β → Moment σ → Prop} :
    (w.keeping I).asking e K m ↔ ∀ b x, w.allows e m.2 b x → K b (m.1, x) := by
  constructor
  · intro h b x hb
    exact (h b (m.1, x) ((w.answers_iff he).mpr ⟨rfl, hb⟩)).2
  · intro h b n hb
    obtain ⟨hs, hb⟩ := (w.answers_iff he).mp hb
    obtain ⟨s', x⟩ := n
    obtain rfl : s' = m.1 := hs
    exact ⟨fun hI => hI, h b x hb⟩

/-- A run that begins with a question goes on with any answer that is allowed. -/
theorem leads_ask {e : Effect β} (he : e.isTransaction = false)
    {k : β → Run ε α} {Q : α → Moment σ → Prop} {E : ε → Moment σ → Prop}
    (h : ∀ b x, w.allows e m.2 b x → Run.Leads (w.keeping I) Q E (k b) (m.1, x)) :
    Run.Leads (w.keeping I) Q E (Run.perform e >>= k) m :=
  (Run.Leads.bind _ k).mpr ((Run.Leads.perform e).mpr ((asking_iff he).mpr h))

end Questions
end Surroundings
end Quire
