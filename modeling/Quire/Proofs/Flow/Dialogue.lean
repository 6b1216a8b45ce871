import Quire.Proofs.Flow.Runs
import Quire.Proofs.Flow.Statements

/-! What a flow asks, given what it is told.

A flow issues transactions of a kind if each one that it ever comes to, whatever it is answered on
the way, is of that kind; and what the transactions of a kind keep is kept at every moment of a flow
that issues no others.

A dialogue says which transactions and which other questions are expected of a flow, and which
answers these get. A flow abides by it if it asks nothing else as long as it is told nothing else.
There is one rule for each way to build a run, and what is known of the results is handed on
(`Run.Abides`). That a flow issues transactions of a kind only is the dialogue in which nothing
else counts (`Run.Abides.issues`).

If the transactions that are expected keep a property of the store, it is there at every moment of
every run that abides by the dialogue (`Flow.Abides.leads`). -/
namespace Quire
variable {α β ε ε' : Type}

/-! ### Kinds of transactions -/

/-- A kind of transactions. -/
abbrev TxnKind := (ε α : Type) → Txn ε α → Prop

/-- A question that is no transaction, or one of a kind. -/
def Effect.Within (P : TxnKind) : Effect β → Prop
  | @Effect.transact ε α _ t => P ε α t
  | _ => True

/-- Every transaction is of a kind, and may be answered in any way. -/
def issuing (P : TxnKind) : Reading Unit where
  asking e K _ := e.Within P ∧ ∀ b, K b ()
  mono _ _ hK h := ⟨h.1, fun b => hK b () (h.2 b)⟩

-- Both are irreducible, so that no application of a rule makes Lean run a flow.
@[irreducible]
def Flow.Issues (P : TxnKind) (f : Flow α) : Prop := Flow.Leads (issuing P) (fun _ _ => True) f ()

@[irreducible]
def Run.Issues (P : TxnKind) (r : Run ε α) : Prop := Flow.Issues P r.run

section Issues
variable {P Q : TxnKind}

namespace Flow.Issues

theorem iff_leads {f : Flow α} :
    f.Issues P ↔ Flow.Leads (issuing P) (fun _ _ => True) f () := by
  unfold Flow.Issues
  rfl

theorem pure (a : α) : Flow.Issues P (Pure.pure a) := iff_leads.mpr trivial

theorem ask {op : Effect β} {next : β → Flow α} :
    Flow.Issues P (.ask op next) ↔ op.Within P ∧ ∀ b, (next b).Issues P := by
  simp only [iff_leads]
  rfl

theorem bind {f : Flow α} {g : α → Flow β} (hf : f.Issues P) (hg : ∀ a, (g a).Issues P) :
    (f >>= g).Issues P := by
  rw [iff_leads] at hf ⊢
  rw [Flow.Leads.bind]
  exact hf.mono fun a _ _ => iff_leads.mp (hg a)

theorem perform {e : Effect α} (he : e.Within P) : Flow.Issues P (Program.perform e) :=
  ask.mpr ⟨he, fun a => pure a⟩

theorem mono {f : Flow α} (hPQ : ∀ {ε α : Type} {t : Txn ε α}, P ε α t → Q ε α t)
    (hf : f.Issues P) : f.Issues Q := by
  induction f with
  | done a => exact pure a
  | ask op next ih =>
    obtain ⟨hop, hnext⟩ := ask.mp hf
    refine ask.mpr ⟨?_, fun b => ih b (hnext b)⟩
    cases op with
    | transact t => exact hPQ hop
    | _ => trivial

/-- What transactions of a kind keep, a flow of that kind keeps at every moment. -/
theorem leads {σ : Type} {w : Surroundings σ} {I J : Store → Prop}
    (hkeeps : ∀ {ε α : Type} {t : Txn ε α}, P ε α t → t.Keeps I) (hIJ : ∀ s, I s → J s)
    {f : Flow α} (hf : f.Issues P) (m : Moment σ) (hm : I m.1) :
    Flow.Leads (w.keeping J) (fun _ m' => I m'.1) f m := by
  induction f generalizing m with
  | done a => exact hm
  | ask op next ih =>
    obtain ⟨hop, hnext⟩ := ask.mp hf
    cases op with
    | transact t =>
      refine Surroundings.asking_transact t |>.mpr ?_
      refine Txn.wp_mono (hkeeps hop m.1 hm) (fun a s' hs' => ?_) fun e _ => ih _ (hnext _) m hm
      exact ⟨fun _ => hIJ s' hs', ih _ (hnext _) (s', m.2) hs'⟩
    | _ =>
      refine (Surroundings.asking_iff rfl).mpr fun b x _ => ?_
      exact ih b (hnext b) (m.1, x) hm

end Flow.Issues

namespace Run.Issues

theorem iff_run {r : Run ε α} : r.Issues P ↔ Flow.Issues P r.run := by
  unfold Run.Issues
  rfl

theorem pure (a : α) : Run.Issues P (Pure.pure a : Run ε α) := iff_run.mpr (Flow.Issues.pure _)

theorem throw (e : ε) : Run.Issues P (MonadExcept.throw e : Run ε α) :=
  iff_run.mpr (Flow.Issues.pure _)

theorem bind {r : Run ε β} {k : β → Run ε α} (hr : r.Issues P) (hk : ∀ b, (k b).Issues P) :
    (r >>= k).Issues P := by
  rw [iff_run] at hr ⊢
  rw [ExceptT.run_bind]
  refine hr.bind fun o => ?_
  cases o with
  | ok b => exact iff_run.mp (hk b)
  | error e => exact Flow.Issues.pure _

theorem lift {f : Flow α} (hf : f.Issues P) : Run.Issues P (ExceptT.lift f : Run ε α) := by
  rw [iff_run, ExceptT.run_lift]
  exact hf.bind fun _ => Flow.Issues.pure _

theorem perform {e : Effect α} (he : e.Within P) : Run.Issues P (Run.perform e : Run ε α) :=
  lift (Flow.Issues.perform he)

theorem request [Widen ε ε'] {e : Effect (Except ε α)} (he : e.Within P) :
    Run.Issues P (Run.request e : Run ε' α) := by
  rw [iff_run]
  refine (Flow.Issues.perform he).bind fun o => ?_
  cases o with
  | ok a => exact Flow.Issues.pure _
  | error fault => exact Flow.Issues.pure _

theorem transact [Widen StoreError ε] [Widen ε ε'] {t : Txn ε α} (ht : P ε α t) :
    Run.Issues P (Run.transact t : Run ε' α) := request (e := .transact t) ht

theorem widen [Widen ε ε'] {r : Run ε α} (hr : r.Issues P) :
    Run.Issues P (Run.widen r : Run ε' α) := by
  rw [iff_run] at hr ⊢
  refine hr.bind fun o => ?_
  cases o with
  | ok a => exact Flow.Issues.pure _
  | error fault => exact Flow.Issues.pure _

theorem ofExcept [Widen ε ε'] (r : Except ε α) : Run.Issues P (Run.ofExcept r : Run ε' α) := by
  cases r with
  | ok a => exact pure a
  | error fault => exact throw _

/-- What follows a result that is there already issues only what it does for that result. -/
theorem ofExcept_bind [Widen ε ε'] {r : Except ε β} {k : β → Run ε' α}
    (hk : ∀ b, r = .ok b → (k b).Issues P) : (Run.ofExcept r >>= k : Run ε' α).Issues P := by
  cases r with
  | ok b => exact hk b rfl
  | error fault => exact throw _

theorem clock : Run.Issues P (Run.clock : Run ε Instant) := perform trivial

theorem freshId : Run.Issues P (Run.freshId : Run ε String) := perform trivial

theorem mono {r : Run ε α} (hPQ : ∀ {ε α : Type} {t : Txn ε α}, P ε α t → Q ε α t)
    (hr : r.Issues P) : r.Issues Q := iff_run.mpr ((iff_run.mp hr).mono hPQ)

/-- What issues harmless transactions only, issues known ones only. -/
theorem issued {S : String → Prop} {r : Run ε α} (hr : r.Issues Harmless) :
    r.Issues (IssuedFor S) := hr.mono .harmless

end Run.Issues

end Issues

/-! ### Dialogues -/

/-- An answer that is given while the store has a property. -/
def Effect.Gives (I : Store → Prop) : Effect β → β → Prop
  | @Effect.transact _ _ _ t, b => ∃ s, I s ∧ (t.run s).1 = b
  | _, _ => True

theorem Effect.gives_of_answers {σ : Type} {w : Surroundings σ} {I : Store → Prop} {op : Effect β}
    {m n : Moment σ} {b : β} (hm : I m.1) (h : w.answers op m b n) : op.Gives I b := by
  cases op with
  | transact t => exact ⟨m.1, hm, congrArg Prod.fst h.1⟩
  | _ => trivial

/-- What a flow may ask, and what it may be told. -/
structure Dialogue where
  /-- The transactions that may be issued. -/
  issues : TxnKind
  /-- The other questions that may be asked. -/
  asks : {β : Type} → Effect β → Prop
  /-- The answers that a question may get. -/
  gives : {β : Type} → Effect β → β → Prop

namespace Dialogue
variable (c : Dialogue)

/-- Only the transactions count. -/
def issuing (P : TxnKind) : Dialogue := ⟨P, fun _ => True, fun _ _ => True⟩

/-- The same, where transactions meet stores with a property. -/
def among (I : Store → Prop) : Dialogue := { c with gives := fun e b => e.Gives I b ∧ c.gives e b }

/-- A question that may be asked. -/
def Allows : Effect β → Prop
  | @Effect.transact ε α _ t => c.issues ε α t
  | e => c.asks e

/-- Every question may be asked and gets one of its answers. -/
def reading : Reading Unit where
  asking e K _ := c.Allows e ∧ ∀ b, c.gives e b → K b ()
  mono _ _ hK h := ⟨h.1, fun b hb => hK b () (h.2 b hb)⟩

end Dialogue

-- Both are irreducible, so that no application of a rule makes Lean run a flow.
@[irreducible]
def Flow.Abides (c : Dialogue) (Q : α → Prop) (f : Flow α) : Prop :=
  Flow.Leads c.reading (fun a _ => Q a) f ()

@[irreducible]
def Run.Abides (c : Dialogue) (Q : α → Prop) (r : Run ε α) : Prop :=
  Run.Leads c.reading (fun a _ => Q a) (fun _ _ => True) r ()

variable {c : Dialogue} {Q : α → Prop}

namespace Flow.Abides

theorem iff_leads {f : Flow α} : f.Abides c Q ↔ Flow.Leads c.reading (fun a _ => Q a) f () := by
  unfold Flow.Abides
  rfl

theorem done {a : α} : Flow.Abides c Q (.done a) ↔ Q a := iff_leads

theorem ask {op : Effect β} {next : β → Flow α} :
    Flow.Abides c Q (.ask op next) ↔
      c.Allows op ∧ ∀ b, c.gives op b → (next b).Abides c Q := by
  simp only [iff_leads]
  rfl

theorem mono {Q' : α → Prop} {f : Flow α} (h : f.Abides c Q) (hQ : ∀ a, Q a → Q' a) :
    f.Abides c Q' :=
  iff_leads.mpr ((iff_leads.mp h).mono fun a _ => hQ a)

theorem pure {a : α} (h : Q a) : Flow.Abides c Q (Pure.pure a) := iff_leads.mpr h

theorem bind {R : β → Prop} {f : Flow β} {k : β → Flow α} (hf : f.Abides c R)
    (hk : ∀ b, R b → (k b).Abides c Q) : (f >>= k).Abides c Q :=
  iff_leads.mpr ((Flow.Leads.bind f k).mpr
    ((iff_leads.mp hf).mono fun b _ hb => iff_leads.mp (hk b hb)))

/-- A question whose answer may be anything. -/
theorem inquire {e : Effect α} (he : c.Allows e) :
    Flow.Abides c (fun _ => True) (Program.perform e) :=
  iff_leads.mpr ⟨he, fun _ _ => trivial⟩

/-- The transactions of a dialogue keep what its questions find. -/
theorem answer {σ : Type} {w : Surroundings σ} {I : Store → Prop} {op : Effect β}
    {next : β → Flow α} (hkeeps : ∀ {ε α : Type} {t : Txn ε α}, c.issues ε α t → t.Keeps I)
    (h : Flow.Abides c Q (.ask op next)) {m n : Moment σ} {b : β} (hb : w.answers op m b n)
    (hgives : c.gives op b) (hm : I m.1) : (next b).Abides c Q ∧ I n.1 := by
  obtain ⟨hop, hnext⟩ := ask.mp h
  refine ⟨hnext b hgives, ?_⟩
  cases op with
  | transact t =>
    have hrun := (hkeeps hop).run hm
    rw [hb.1] at hrun
    exact hrun
  | _ => exact hb.1 ▸ hm

/-- What transactions keep is there at every moment, and the outcome is one to be expected. -/
theorem leads {σ : Type} {w : Surroundings σ} {I J : Store → Prop}
    (hkeeps : ∀ {ε α : Type} {t : Txn ε α}, c.issues ε α t → t.Keeps I)
    (hgives : ∀ {β : Type} (e : Effect β) m b n, I m.1 → w.answers e m b n → c.gives e b)
    (hIJ : ∀ s, I s → J s) {f : Flow α} (hf : f.Abides c Q) (m : Moment σ) (hm : I m.1) :
    Flow.Leads (w.keeping J) (fun a m' => Q a ∧ I m'.1) f m := by
  induction f generalizing m with
  | done a => exact ⟨done.mp hf, hm⟩
  | ask op next ih =>
    intro b n hb
    obtain ⟨hnext, hn⟩ := answer hkeeps hf hb (hgives op m b n hm hb) hm
    exact ⟨fun _ => hIJ _ hn, ih b hnext n hn⟩

/-- What issues transactions of a kind only, if any other question may be asked. -/
theorem of_issues {P : TxnKind} {f : Flow α} (hf : f.Issues P)
    (hP : ∀ {ε α : Type} {t : Txn ε α}, P ε α t → c.issues ε α t)
    (hasks : ∀ {β : Type} (e : Effect β), c.asks e) : f.Abides c fun _ => True := by
  induction f with
  | done a => exact done.mpr trivial
  | ask op next ih =>
    obtain ⟨hop, hnext⟩ := Flow.Issues.ask.mp hf
    refine ask.mpr ⟨?_, fun b _ => ih b (hnext b)⟩
    cases op with
    | transact t => exact hP hop
    | _ => exact hasks _

/-- What abides by a dialogue in which only the transactions count. -/
theorem issues {P : TxnKind} {f : Flow α} (hf : f.Abides (.issuing P) Q) : f.Issues P := by
  induction f with
  | done a => exact Flow.Issues.pure a
  | ask op next ih =>
    obtain ⟨hop, hnext⟩ := ask.mp hf
    refine Flow.Issues.ask.mpr ⟨?_, fun b => ih b (hnext b trivial)⟩
    cases op with
    | transact t => exact hop
    | _ => trivial

end Flow.Abides

namespace Run.Abides

theorem iff_leads {r : Run ε α} :
    r.Abides c Q ↔ Run.Leads c.reading (fun a _ => Q a) (fun _ _ => True) r () := by
  unfold Run.Abides
  rfl

/-- The same of its outcome. -/
theorem run {r : Run ε α} (h : r.Abides c Q) :
    Flow.Abides c (fun o => ∀ a, o = .ok a → Q a) r.run := by
  refine Flow.Abides.iff_leads.mpr (Flow.Leads.mono (iff_leads.mp h) fun o _ ho a ha => ?_)
  subst ha
  exact ho

theorem mono {Q' : α → Prop} {r : Run ε α} (h : r.Abides c Q) (hQ : ∀ a, Q a → Q' a) :
    r.Abides c Q' :=
  iff_leads.mpr ((iff_leads.mp h).mono (fun a _ => hQ a) fun _ _ h => h)

/-- The result does not matter. -/
theorem any {r : Run ε α} (h : r.Abides c Q) : r.Abides c fun _ => True := h.mono fun _ _ => trivial

theorem pure {a : α} (h : Q a) : Run.Abides c Q (Pure.pure a : Run ε α) := iff_leads.mpr h

theorem throw (e : ε) : Run.Abides c Q (MonadExcept.throw e : Run ε α) := iff_leads.mpr trivial

theorem bind {R : β → Prop} {r : Run ε β} {k : β → Run ε α} (hr : r.Abides c R)
    (hk : ∀ b, R b → (k b).Abides c Q) : (r >>= k).Abides c Q :=
  iff_leads.mpr ((Run.Leads.bind r k).mpr
    ((iff_leads.mp hr).mono (fun b _ hb => iff_leads.mp (hk b hb)) fun _ _ h => h))

/-- What would come after a failure does not matter. -/
theorem throw_bind {e : ε} {k : β → Run ε α} :
    Run.Abides c Q (MonadExcept.throw e >>= k) :=
  bind (R := fun _ => False) (throw e) fun _ h => h.elim

theorem lift {f : Flow α} (hf : f.Abides c Q) : Run.Abides c Q (ExceptT.lift f : Run ε α) :=
  iff_leads.mpr ((Run.Leads.lift f).mpr (Flow.Abides.iff_leads.mp hf))

theorem perform {e : Effect α} (he : c.Allows e) (hQ : ∀ a, c.gives e a → Q a) :
    Run.Abides c Q (Run.perform e : Run ε α) :=
  iff_leads.mpr ((Run.Leads.perform e).mpr ⟨he, hQ⟩)

/-- A question whose answer may be anything. -/
theorem inquire {e : Effect α} (he : c.Allows e) :
    Run.Abides c (fun _ => True) (Run.perform e : Run ε α) := perform he fun _ _ => trivial

theorem request [Widen ε ε'] {e : Effect (Except ε α)} (he : c.Allows e)
    (hQ : ∀ a, c.gives e (.ok a) → Q a) : Run.Abides c Q (Run.request e : Run ε' α) := by
  refine iff_leads.mpr ((Run.Leads.request e).mpr ⟨he, fun o ho => ?_⟩)
  cases o with
  | ok a => exact hQ a ho
  | error e => trivial

/-- A request whose result may be anything. -/
theorem demand [Widen ε ε'] {e : Effect (Except ε α)} (he : c.Allows e) :
    Run.Abides c (fun _ => True) (Run.request e : Run ε' α) := request he fun _ _ => trivial

/-- A transaction whose result may be anything. -/
theorem issue [Widen StoreError ε] [Widen ε ε'] {t : Txn ε α} (ht : c.issues ε α t) :
    Run.Abides c (fun _ => True) (Run.transact t : Run ε' α) := demand (e := .transact t) ht

/-- A transaction that meets stores with a property. -/
theorem transact {I : Store → Prop} [Widen StoreError ε] [Widen ε ε'] {t : Txn ε α}
    (ht : c.issues ε α t) (hQ : ∀ s, I s → t.wp (fun a _ => Q a) (fun _ => True) s) :
    Run.Abides (c.among I) Q (Run.transact t : Run ε' α) :=
  request (e := .transact t) ht fun a ⟨⟨s, hs, ha⟩, _⟩ => ((Txn.wp_iff_run t).mp (hQ s hs)).1 a ha

theorem widen [Widen ε ε'] {r : Run ε α} (hr : r.Abides c Q) :
    Run.Abides c Q (Run.widen r : Run ε' α) :=
  iff_leads.mpr ((Run.Leads.widen r).mpr (iff_leads.mp hr))

theorem outcome {r : Run ε α} (hr : r.Abides c Q) :
    Run.Abides c (fun o => ∀ a, o = .ok a → Q a) (Run.outcome r : Run ε' (Except ε α)) :=
  lift hr.run

theorem ofExcept [Widen ε ε'] {r : Except ε α} (hr : ∀ a, r = .ok a → Q a) :
    Run.Abides c Q (Run.ofExcept r : Run ε' α) := by
  cases r with
  | ok a => exact pure (hr a rfl)
  | error fault => exact throw _

/-- What issues transactions of a kind only, if any other question may be asked. -/
theorem of_issues {P : TxnKind} {r : Run ε α} (hr : r.Issues P)
    (hP : ∀ {ε α : Type} {t : Txn ε α}, P ε α t → c.issues ε α t)
    (hasks : ∀ {β : Type} (e : Effect β), c.asks e) : r.Abides c fun _ => True := by
  have hrun := Flow.Abides.of_issues (Run.Issues.iff_run.mp hr) hP hasks
  refine iff_leads.mpr (Flow.Leads.mono (Flow.Abides.iff_leads.mp hrun) fun o _ _ => ?_)
  cases o <;> trivial

/-- What abides by a dialogue in which only the transactions count. -/
theorem issues {P : TxnKind} {r : Run ε α} (hr : r.Abides (.issuing P) Q) : r.Issues P :=
  Run.Issues.iff_run.mpr hr.run.issues

end Run.Abides
end Quire
