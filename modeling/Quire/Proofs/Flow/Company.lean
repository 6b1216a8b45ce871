import Quire.Proofs.Flow.Interleaving

/-! Flows in company.

Before each question of a flow others may have their turn, and may leave another moment than the
one they found. What they may do is a relation between moments, and so is what the flow does
itself whenever a question of it is answered. A run that is followed in company (`Run.Amid`) makes
only moves of that second kind, as long as the others make only moves of the first.

If the flows of a crowd make no move that the others must not make, each of them can be followed
by itself: what it leads to holds when all are done, whichever way they took turns
(`Crowd.Led.done`). -/
namespace Quire
variable {σ α β ε ε' : Type}

/-! ### Moves -/

/-- A move of a flow: others have had their turn, and then a question of the flow is answered. -/
def Surroundings.Moves (w : Surroundings σ) (others : Moment σ → Moment σ → Prop) :
    Flow α → Moment σ → Moment σ → Moment σ → Prop
  | .done _, _, _, _ => False
  | .ask op next, m, a, z => ∃ m₁, others m m₁ ∧ ∃ b n, w.answers op m₁ b n ∧
      ((a = m₁ ∧ z = n) ∨ w.Moves others (next b) n a z)

/-- Some questions of a flow are answered, and a flow is left. -/
def Surroundings.Reaches (w : Surroundings σ) :
    Flow α → Moment σ → Flow α → Moment σ → Prop
  | .done a, m, g, m' => g = .done a ∧ m' = m
  | .ask op next, m, g, m' => (g = .ask op next ∧ m' = m) ∨
      ∃ b n, w.answers op m b n ∧ w.Reaches (next b) n g m'

/-- A flow gets as far as `m'`, and after others have had their turn it goes on at `a` to its
end. -/
def Surroundings.Resumes (w : Surroundings σ) (f : Flow α) (m m' a : Moment σ) (r : α)
    (z : Moment σ) : Prop :=
  ∃ g, w.Reaches f m g m' ∧ w.Runs g a r z

namespace Surroundings
variable {w : Surroundings σ} {others : Moment σ → Moment σ → Prop} {m m' m'' a z : Moment σ}

theorem Runs.of_done {f : Flow α} {r : α} (h : f = .done r) (m : Moment σ) : w.Runs f m r m := by
  rw [h]
  exact ⟨rfl, rfl⟩

theorem Runs.bind {f : Flow α} {k : α → Flow β} {r : α} {r' : β} (hf : w.Runs f m r m')
    (hk : w.Runs (k r) m' r' m'') : w.Runs (f >>= k) m r' m'' := by
  induction f generalizing m with
  | done _ =>
    obtain ⟨rfl, rfl⟩ := hf
    exact hk
  | ask op next ih =>
    obtain ⟨b, n, hb, hrest⟩ := hf
    exact ⟨b, n, hb, ih b hrest⟩

theorem Runs.reaches {f : Flow α} {r : α} (h : w.Runs f m r m') : w.Reaches f m (.done r) m' := by
  induction f generalizing m with
  | done _ =>
    obtain ⟨rfl, rfl⟩ := h
    exact ⟨rfl, rfl⟩
  | ask op next ih =>
    obtain ⟨b, n, hb, hrest⟩ := h
    exact .inr ⟨b, n, hb, ih b hrest⟩

theorem Reaches.refl (f : Flow α) (m : Moment σ) : w.Reaches f m f m := by
  cases f with
  | done _ => exact ⟨rfl, rfl⟩
  | ask op next => exact .inl ⟨rfl, rfl⟩

/-- What a flow reaches it also reaches as a part of something larger, which takes a step whenever a
question of the flow is answered. -/
theorem Reaches.lift {γ : Type*} (step : γ → γ → Prop) (place : Flow α → Moment σ → γ)
    (hstep : ∀ {β : Type} (op : Effect β) (next : β → Flow α) (m : Moment σ) (b : β)
      (n : Moment σ), w.answers op m b n → step (place (.ask op next) m) (place (next b) n))
    {f g : Flow α} (h : w.Reaches f m g m') :
    Relation.ReflTransGen step (place f m) (place g m') := by
  induction f generalizing m with
  | done a =>
    obtain ⟨rfl, rfl⟩ := h
    exact .refl
  | ask op next ih =>
    rcases h with ⟨rfl, rfl⟩ | ⟨b, n, hb, hrest⟩
    · exact .refl
    · exact .head (hstep op next m b n hb) (ih b hrest)

theorem Reaches.first {f g : Flow α} (k : α → Flow β) (h : w.Reaches f m g m') :
    w.Reaches (f >>= k) m (g >>= k) m' := by
  induction f generalizing m with
  | done a =>
    obtain ⟨rfl, rfl⟩ := h
    exact .refl _ _
  | ask op next ih =>
    rcases h with ⟨rfl, rfl⟩ | ⟨b, n, hb, hrest⟩
    · exact .refl _ _
    · exact .inr ⟨b, n, hb, ih b hrest⟩

theorem Reaches.next {f : Flow α} {k : α → Flow β} {g : Flow β} {r : α} (hf : w.Runs f m r m')
    (h : w.Reaches (k r) m' g m'') : w.Reaches (f >>= k) m g m'' := by
  induction f generalizing m with
  | done _ =>
    obtain ⟨rfl, rfl⟩ := hf
    exact h
  | ask op next ih =>
    obtain ⟨b, n, hb, hrest⟩ := hf
    exact .inr ⟨b, n, hb, ih b hrest⟩

/-- What a flow reaches is a moment of it. -/
theorem Reaches.passes {f g : Flow α} (h : w.Reaches f m g m') : w.Passes f m m' := by
  induction f generalizing m with
  | done _ => exact h.2
  | ask op next ih =>
    rcases h with ⟨-, rfl⟩ | ⟨b, n, hb, hrest⟩
    · exact .inl rfl
    · exact .inr ⟨b, n, hb, ih b hrest⟩

theorem Passes.refl (f : Flow α) (m : Moment σ) : w.Passes f m m := Reaches.passes (.refl f m)

/-- Every moment of a flow is one at which it reaches what is left of it. -/
theorem Passes.reaches {f : Flow α} (h : w.Passes f m m') : ∃ g, w.Reaches f m g m' := by
  induction f generalizing m with
  | done a => exact ⟨_, rfl, h⟩
  | ask op next ih =>
    rcases h with rfl | ⟨b, n, hb, hrest⟩
    · exact ⟨_, .inl ⟨rfl, rfl⟩⟩
    · obtain ⟨g, hg⟩ := ih b hrest
      exact ⟨g, .inr ⟨b, n, hb, hg⟩⟩

/-- What is left of a flow that abides by a dialogue abides by it, and what its transactions keep
is there. -/
theorem Reaches.abides {c : Dialogue} {Q : α → Prop} {I : Store → Prop}
    (hkeeps : ∀ {ε α : Type} {t : Txn ε α}, c.issues ε α t → t.Keeps I)
    (hgives : ∀ {β : Type} (e : Effect β) m b n, I m.1 → w.answers e m b n → c.gives e b)
    {f g : Flow α} (h : w.Reaches f m g m') (hf : f.Abides c Q) (hm : I m.1) :
    g.Abides c Q ∧ I m'.1 := by
  induction f generalizing m with
  | done a =>
    obtain ⟨rfl, rfl⟩ := h
    exact ⟨hf, hm⟩
  | ask op next ih =>
    rcases h with ⟨rfl, rfl⟩ | ⟨b, n, hb, hrest⟩
    · exact ⟨hf, hm⟩
    · obtain ⟨hnext, hn⟩ := Flow.Abides.answer hkeeps hf hb (hgives op m b n hm hb) hm
      exact ih b hrest hnext hn

theorem Passes.first {f : Flow α} (k : α → Flow β) (h : w.Passes f m m') :
    w.Passes (f >>= k) m m' := by
  induction f generalizing m with
  | done a =>
    obtain rfl : m' = m := h
    exact .refl _ _
  | ask op next ih =>
    rcases h with rfl | ⟨b, n, hb, hrest⟩
    · exact .refl _ _
    · exact .inr ⟨b, n, hb, ih b hrest⟩

theorem Passes.next {f : Flow α} {k : α → Flow β} {r : α} (hf : w.Runs f m r m')
    (h : w.Passes (k r) m' m'') : w.Passes (f >>= k) m m'' := by
  induction f generalizing m with
  | done _ =>
    obtain ⟨rfl, rfl⟩ := hf
    exact h
  | ask op next ih =>
    obtain ⟨b, n, hb, hrest⟩ := hf
    exact .inr ⟨b, n, hb, ih b hrest⟩

theorem Resumes.here {f : Flow α} {r : α} (h : w.Runs f a r z) : w.Resumes f m m a r z :=
  ⟨f, .refl f m, h⟩

/-- A flow that has come to its end may still be waited for. -/
theorem Runs.resumes {f : Flow α} {r : α} (h : w.Runs f m r m') (a : Moment σ) :
    w.Resumes f m m' a r a :=
  ⟨.done r, h.reaches, rfl, rfl⟩

theorem Resumes.passes {f : Flow α} {r : α} (h : w.Resumes f m m' a r z) : w.Passes f m m' := by
  obtain ⟨g, hreaches, -⟩ := h
  exact hreaches.passes

/-- While it waits nothing has happened. -/
theorem Resumes.runs {f : Flow α} {r : α} (h : w.Resumes f m a a r z) : w.Runs f m r z := by
  obtain ⟨g, hreaches, hruns⟩ := h
  induction f generalizing m with
  | done _ =>
    obtain ⟨rfl, rfl⟩ := hreaches
    exact hruns
  | ask op next ih =>
    rcases hreaches with ⟨rfl, rfl⟩ | ⟨b, n, hb, hrest⟩
    · exact hruns
    · exact ⟨b, n, hb, ih b hrest⟩

theorem Resumes.first {f : Flow α} {k : α → Flow β} {r : α} {r' : β} {z' : Moment σ}
    (h : w.Resumes f m m' a r z) (hk : w.Runs (k r) z r' z') :
    w.Resumes (f >>= k) m m' a r' z' := by
  obtain ⟨g, hreaches, hruns⟩ := h
  exact ⟨g >>= k, hreaches.first k, hruns.bind hk⟩

theorem Resumes.next {f : Flow α} {k : α → Flow β} {r : α} {r' : β} (hf : w.Runs f m r m')
    (h : w.Resumes (k r) m' m'' a r' z) : w.Resumes (f >>= k) m m'' a r' z := by
  obtain ⟨g, hreaches, hruns⟩ := h
  exact ⟨g, .next hf hreaches, hruns⟩

/-- The others may have had a turn already. -/
theorem Moves.wait (htrans : ∀ m₁ m₂ m₃, others m₁ m₂ → others m₂ m₃ → others m₁ m₃) {f : Flow α}
    (hothers : others m m') (h : w.Moves others f m' a z) : w.Moves others f m a z := by
  cases f with
  | done _ => exact h
  | ask op next =>
    obtain ⟨m₁, hm₁, hrest⟩ := h
    exact ⟨m₁, htrans m m' m₁ hothers hm₁, hrest⟩

theorem Moves.first {f : Flow α} (k : α → Flow β) (h : w.Moves others f m a z) :
    w.Moves others (f >>= k) m a z := by
  induction f generalizing m with
  | done _ => exact h.elim
  | ask op next ih =>
    obtain ⟨m₁, hm₁, b, n, hb, hnow | hlater⟩ := h
    · exact ⟨m₁, hm₁, b, n, hb, .inl hnow⟩
    · exact ⟨m₁, hm₁, b, n, hb, .inr (ih b hlater)⟩

theorem Moves.next (hwaits : ∀ m, others m m) {f : Flow α} {k : α → Flow β} {r : α}
    (hf : w.Runs f m r m') (h : w.Moves others (k r) m' a z) :
    w.Moves others (f >>= k) m a z := by
  induction f generalizing m with
  | done _ =>
    obtain ⟨rfl, rfl⟩ := hf
    exact h
  | ask op next ih =>
    obtain ⟨b, n, hb, hrest⟩ := hf
    exact ⟨m, hwaits m, b, n, hb, .inr (ih b hrest)⟩

theorem Resumes.ignored {r : Run ε α} {o : Except ε α} (h : w.Resumes r.run m m' a o z) :
    w.Resumes r.ignored m m' a () z := .first h (.of_done rfl _)

theorem Moves.run_first {r : Run ε β} (k : β → Run ε α) (h : w.Moves others r.run m a z) :
    w.Moves others (r >>= k).run m a z := .first _ h

theorem Moves.run_next (hwaits : ∀ m, others m m) {r : Run ε β} {k : β → Run ε α} {b : β}
    (hr : w.Runs r.run m (.ok b) m') (h : w.Moves others (k b).run m' a z) :
    w.Moves others (r >>= k).run m a z := .next hwaits hr h

end Surroundings

/-- Surroundings with others in them: what these may do, and what a flow among them may do. -/
structure Company (σ : Type) where
  world : Surroundings σ
  others : Moment σ → Moment σ → Prop
  own : Moment σ → Moment σ → Prop
  /-- A question may change nothing. -/
  looks : ∀ m, own m m

namespace Company
variable (c : Company σ)

/-- Others have their turn before every question. -/
def reading : Reading (Moment σ) where
  asking e K m := ∀ m₁, c.others m m₁ → ∀ b n, c.world.answers e m₁ b n → c.own m₁ n ∧ K b n
  mono _ _ hK h := fun m₁ hm₁ b n hb => ⟨(h m₁ hm₁ b n hb).1, hK b n (h m₁ hm₁ b n hb).2⟩

/-- What the others leave as it is. -/
def Stable (P : Moment σ → Prop) : Prop := ∀ m m', c.others m m' → P m → P m'

variable {c} {Q : α → Moment σ → Prop}

/-- A flow that is followed in company makes only moves of its own kind. -/
theorem own_of_moves {f : Flow α} {m a z : Moment σ} (h : Flow.Leads c.reading Q f m)
    (hmove : c.world.Moves c.others f m a z) : c.own a z := by
  induction f generalizing m with
  | done _ => exact hmove.elim
  | ask op next ih =>
    obtain ⟨m₁, hothers, b, n, hb, hnow | hlater⟩ := hmove
    · obtain ⟨rfl, rfl⟩ := hnow
      exact (h a hothers b z hb).1
    · exact ih b (h m₁ hothers b n hb).2 hlater

/-- What neither the others nor the flow itself destroys holds at the beginning of every move. -/
theorem holds_of_moves {I : Moment σ → Prop} (hI : c.Stable I)
    (hown : ∀ m n, c.own m n → I m → I n) {f : Flow α} {m a z : Moment σ}
    (h : Flow.Leads c.reading Q f m) (hm : I m) (hmove : c.world.Moves c.others f m a z) : I a := by
  induction f generalizing m with
  | done _ => exact hmove.elim
  | ask op next ih =>
    obtain ⟨m₁, hothers, b, n, hb, hnow | hlater⟩ := hmove
    · obtain ⟨rfl, rfl⟩ := hnow
      exact hI m a hothers hm
    · obtain ⟨hmoved, hnext⟩ := h m₁ hothers b n hb
      exact ih b hnext (hown m₁ n hmoved (hI m m₁ hothers hm)) hlater

section Alone
variable (hwaits : ∀ m, c.others m m)
include hwaits

/-- While the others do nothing, a flow that is followed in company ends where it should. -/
theorem ends_of_runs {f : Flow α} {m m' : Moment σ} {r : α} (h : Flow.Leads c.reading Q f m)
    (hrun : c.world.Runs f m r m') : Q r m' := by
  induction f generalizing m with
  | done a =>
    obtain ⟨rfl, rfl⟩ := hrun
    exact h
  | ask op next ih =>
    obtain ⟨b, n, hb, hrest⟩ := hrun
    exact ih b (h m (hwaits m) b n hb).2 hrest

/-- Every moment that it passes has been reached by moves of its own. -/
theorem own_of_passes {f : Flow α} {m m' : Moment σ} (h : Flow.Leads c.reading Q f m)
    (hpasses : c.world.Passes f m m') : Relation.ReflTransGen c.own m m' := by
  induction f generalizing m with
  | done a =>
    obtain rfl : m' = m := hpasses
    exact .refl
  | ask op next ih =>
    rcases hpasses with rfl | ⟨b, n, hb, hrest⟩
    · exact .refl
    · have hanswer := h m (hwaits m) b n hb
      exact .head hanswer.1 (ih b hanswer.2 hrest)

end Alone
end Company

/-! ### Runs in company -/

-- Irreducible, so that no application of a rule makes Lean run a flow.
@[irreducible]
def Run.Amid (c : Company σ) (P : Moment σ → Prop) (Q : α → Moment σ → Prop)
    (E : ε → Moment σ → Prop) (r : Run ε α) : Prop :=
  ∀ m, P m → Run.Leads c.reading Q E r m

namespace Run.Amid
variable {c : Company σ} {P : Moment σ → Prop} {Q : α → Moment σ → Prop} {E : ε → Moment σ → Prop}

theorem iff_leads {r : Run ε α} :
    r.Amid c P Q E ↔ ∀ m, P m → Run.Leads c.reading Q E r m := by
  unfold Run.Amid
  rfl

theorem conseq {P' : Moment σ → Prop} {Q' : α → Moment σ → Prop} {E' : ε → Moment σ → Prop}
    {r : Run ε α} (h : r.Amid c P Q E) (hP : ∀ m, P' m → P m) (hQ : ∀ a m, Q a m → Q' a m)
    (hE : ∀ e m, E e m → E' e m) : r.Amid c P' Q' E' :=
  iff_leads.mpr fun m hm => (iff_leads.mp h m (hP m hm)).mono hQ hE

/-- The same from fewer moments. -/
theorem pre {P' : Moment σ → Prop} {r : Run ε α} (h : r.Amid c P Q E) (hP : ∀ m, P' m → P m) :
    r.Amid c P' Q E :=
  h.conseq hP (fun _ _ hQ => hQ) fun _ _ hE => hE

/-- What every moment at the beginning shows may be used from there on. -/
theorem learn {φ : Prop} {r : Run ε α} (hφ : ∀ m, P m → φ) (h : φ → r.Amid c P Q E) :
    r.Amid c P Q E :=
  iff_leads.mpr fun m hm => iff_leads.mp (h (hφ m hm)) m hm

/-- What is known apart from the moment may be used from there on. -/
theorem given {φ : Prop} {r : Run ε α} (h : φ → r.Amid c P Q E) :
    r.Amid c (fun m => φ ∧ P m) Q E :=
  learn (fun _ hm => hm.1) fun hφ => (h hφ).pre fun _ hm => hm.2

theorem of_exists {ι : Type} {P : ι → Moment σ → Prop} {r : Run ε α}
    (h : ∀ i, r.Amid c (P i) Q E) : r.Amid c (fun m => ∃ i, P i m) Q E :=
  iff_leads.mpr fun m ⟨i, hm⟩ => iff_leads.mp (h i) m hm

theorem of_or {P' : Moment σ → Prop} {r : Run ε α} (h : r.Amid c P Q E) (h' : r.Amid c P' Q E) :
    r.Amid c (fun m => P m ∨ P' m) Q E :=
  iff_leads.mpr fun m hm => hm.elim (iff_leads.mp h m) (iff_leads.mp h' m)

theorem pure {a : α} (h : ∀ m, P m → Q a m) : Amid c P Q E (Pure.pure a : Run ε α) :=
  iff_leads.mpr fun m hm => (Run.Leads.pure a).mpr (h m hm)

theorem throw {e : ε} (h : ∀ m, P m → E e m) :
    Amid c P Q E (MonadExcept.throw e : Run ε α) :=
  iff_leads.mpr fun m hm => (Run.Leads.throw e).mpr (h m hm)

theorem bind {R : β → Moment σ → Prop} {r : Run ε β} {k : β → Run ε α} (hr : r.Amid c P R E)
    (hk : ∀ b, (k b).Amid c (R b) Q E) : (r >>= k).Amid c P Q E := by
  refine iff_leads.mpr fun m hm => (Run.Leads.bind r k).mpr ?_
  exact (iff_leads.mp hr m hm).mono (fun b n hb => iff_leads.mp (hk b) n hb) fun _ _ he => he

/-- A question that is no transaction: the surroundings answer it, and the store stays. -/
theorem ask (hP : c.Stable P) {e : Effect α} (he : e.isTransaction = false)
    (h : ∀ m b x, P m → c.world.allows e m.2 b x → c.own m (m.1, x) ∧ Q b (m.1, x)) :
    Amid c P Q E (Run.perform e : Run ε α) := by
  refine iff_leads.mpr fun m hm => (Run.Leads.perform e).mpr fun m₁ hm₁ b n hb => ?_
  obtain ⟨hs, hallows⟩ := (c.world.answers_iff he).mp hb
  obtain ⟨s, x⟩ := n
  obtain rfl : s = m₁.1 := hs
  exact h m₁ b x (hP m m₁ hm₁ hm) hallows

/-- Such a question, if its answer may be a failure. -/
theorem demand [Widen ε ε'] {E : ε' → Moment σ → Prop} (hP : c.Stable P)
    {e : Effect (Except ε α)} (he : e.isTransaction = false)
    (h : ∀ m o x, P m → c.world.allows e m.2 o x →
      c.own m (m.1, x) ∧ Either Q (fun fault => E (Widen.widen fault)) o (m.1, x)) :
    Amid c P Q E (Run.request e : Run ε' α) := by
  refine iff_leads.mpr fun m hm => (Run.Leads.request e).mpr fun m₁ hm₁ o n ho => ?_
  obtain ⟨hs, hallows⟩ := (c.world.answers_iff he).mp ho
  obtain ⟨s, x⟩ := n
  obtain rfl : s = m₁.1 := hs
  exact h m₁ o x (hP m m₁ hm₁ hm) hallows

/-- The answer of the store to a transaction. -/
theorem answer_transact [Widen StoreError ε] {K : Except ε α → Moment σ → Prop} {m : Moment σ} {t : Txn ε α}
    (h : t.wp (fun a s' => c.own m (s', m.2) ∧ K (.ok a) (s', m.2)) (fun e => K (.error e) m) m.1)
    {b : Except ε α} {n : Moment σ} (hb : c.world.answers (.transact t) m b n) :
    c.own m n ∧ K b n := by
  obtain ⟨hrun, hx⟩ := hb
  obtain ⟨s, x⟩ := m
  obtain ⟨s', x'⟩ := n
  obtain rfl : x' = x := hx
  obtain ⟨hok, herror⟩ := (Txn.wp_iff_run t).mp h
  have hafter : (t.run s).2 = s' := by rw [hrun]
  cases b with
  | ok a =>
    have hleaves := hok a (by rw [hrun])
    rw [hafter] at hleaves
    exact hleaves
  | error e =>
    have hfails : (t.run s).1 = .error e := by rw [hrun]
    obtain rfl : s = s' := (Txn.run_error hfails).symm.trans hafter
    exact ⟨c.looks _, herror e hfails⟩

/-- A transaction leads on from what it leaves, or from the store as it was. -/
theorem transact [Widen StoreError ε] [Widen ε ε'] {E : ε' → Moment σ → Prop} (hP : c.Stable P) {t : Txn ε α}
    (h : ∀ s x, P (s, x) → t.wp (fun a s' => c.own (s, x) (s', x) ∧ Q a (s', x))
      (fun e => E (Widen.widen e) (s, x)) s) :
    Amid c P Q E (Run.transact t : Run ε' α) := by
  refine iff_leads.mpr fun m hm => (Run.Leads.transact t).mpr fun m₁ hm₁ b n hb => ?_
  exact answer_transact (h m₁.1 m₁.2 (hP m m₁ hm₁ hm)) hb

/-- A transaction whose failure is only told. -/
theorem attempt {Q : Except ε α → Moment σ → Prop} {E : ε' → Moment σ → Prop} (hP : c.Stable P)
    [Widen StoreError ε] {t : Txn ε α}
    (h : ∀ s x, P (s, x) → t.wp (fun a s' => c.own (s, x) (s', x) ∧ Q (.ok a) (s', x))
      (fun e => Q (.error e) (s, x)) s) :
    Amid c P Q E (Run.perform (.transact t) : Run ε' (Except ε α)) := by
  refine iff_leads.mpr fun m hm => (Run.Leads.perform _).mpr fun m₁ hm₁ b n hb => ?_
  exact answer_transact (h m₁.1 m₁.2 (hP m m₁ hm₁ hm)) hb

theorem widen [Widen ε ε'] {E : ε' → Moment σ → Prop} {r : Run ε α}
    (h : r.Amid c P Q fun e => E (Widen.widen e)) :
    Amid c P Q E (Run.widen r : Run ε' α) :=
  iff_leads.mpr fun m hm => (Run.Leads.widen r).mpr (iff_leads.mp h m hm)

theorem outcome {Q : Except ε α → Moment σ → Prop} {E : ε' → Moment σ → Prop} {r : Run ε α}
    (h : r.Amid c P (fun a => Q (.ok a)) fun e => Q (.error e)) :
    Amid c P Q E (Run.outcome r : Run ε' (Except ε α)) :=
  iff_leads.mpr fun m hm => (Run.Leads.outcome r).mpr (iff_leads.mp h m hm)

/-- What follows a result that is there already has to be followed only for that result. -/
theorem ofExcept_bind [Widen ε ε'] {E : ε' → Moment σ → Prop} {r : Except ε β}
    {k : β → Run ε' α} (hE : ∀ e m, r = .error e → P m → E (Widen.widen e) m)
    (hk : ∀ b, r = .ok b → (k b).Amid c P Q E) :
    (Run.ofExcept r >>= k : Run ε' α).Amid c P Q E := by
  cases r with
  | ok b => exact hk b rfl
  | error e => exact throw fun m hm => hE e m rfl hm

theorem ofExcept [Widen ε ε'] (r : Except ε α) :
    Amid c P (fun _ => P) (fun _ => P) (Run.ofExcept r : Run ε' α) := by
  cases r with
  | ok a => exact pure fun _ hm => hm
  | error e => exact throw fun _ hm => hm

/-- What abides by a dialogue whose questions are moves of the flow's own kind that keep `P`. -/
theorem leads_of_abides {d : Dialogue} {R : α → Prop} {f : Flow α} (hf : f.Abides d R)
    (hP : c.Stable P) (hgives : ∀ {β : Type} (e : Effect β) b, d.gives e b)
    (hasks : ∀ {β : Type} (e : Effect β) m b x, d.asks e → P m → c.world.allows e m.2 b x →
      c.own m (m.1, x) ∧ P (m.1, x))
    (hissues : ∀ {ε α : Type} {t : Txn ε α}, d.issues ε α t → ∀ s x, P (s, x) →
      t.wp (fun _ s' => c.own (s, x) (s', x) ∧ P (s', x)) (fun _ => True) s)
    {m : Moment σ} (hm : P m) : Flow.Leads c.reading (fun a m => R a ∧ P m) f m := by
  induction f generalizing m with
  | done a => exact ⟨Flow.Abides.done.mp hf, hm⟩
  | ask op next ih =>
    obtain ⟨hop, hnext⟩ := Flow.Abides.ask.mp hf
    intro m₁ hm₁ b n hb
    have hfound : P m₁ := hP m m₁ hm₁ hm
    have hafter : c.own m₁ n ∧ P n := by
      by_cases ht : op.isTransaction = true
      · cases op with
        | transact t =>
          exact answer_transact (K := fun _ => P) (Txn.wp_mono (hissues hop m₁.1 m₁.2 hfound)
            (fun _ _ h => h) fun _ _ => hfound) hb
        | _ => cases ht
      · obtain ⟨hs, hallows⟩ := (c.world.answers_iff (Bool.not_eq_true _ ▸ ht)).mp hb
        obtain ⟨s, x⟩ := n
        obtain rfl : s = m₁.1 := hs
        cases op with
        | transact t => exact absurd rfl ht
        | _ => exact hasks _ m₁ b x hop hfound hallows
    exact ⟨hafter.1, ih b (hnext b (hgives op b)) hafter.2⟩

theorem of_abides {d : Dialogue} {R : α → Prop} {r : Run ε α} (hr : r.Abides d R)
    (hP : c.Stable P) (hgives : ∀ {β : Type} (e : Effect β) b, d.gives e b)
    (hasks : ∀ {β : Type} (e : Effect β) m b x, d.asks e → P m → c.world.allows e m.2 b x →
      c.own m (m.1, x) ∧ P (m.1, x))
    (hissues : ∀ {ε α : Type} {t : Txn ε α}, d.issues ε α t → ∀ s x, P (s, x) →
      t.wp (fun _ s' => c.own (s, x) (s', x) ∧ P (s', x)) (fun _ => True) s) :
    r.Amid c P (fun a m => R a ∧ P m) fun _ => P := by
  refine iff_leads.mpr fun m hm => ?_
  refine Flow.Leads.mono (leads_of_abides hr.run hP hgives hasks hissues hm) fun o n hn => ?_
  cases o with
  | ok a => exact ⟨hn.1 a rfl, hn.2⟩
  | error e => exact hn.2

/-- What issues only transactions that make moves of the flow's own kind and keep `P`. -/
theorem leads_of_issues {K : TxnKind} {f : Flow α} (hf : f.Issues K) (hP : c.Stable P)
    (hasks : ∀ m x, P m → c.own m (m.1, x) ∧ P (m.1, x))
    (hK : ∀ {ε α : Type} {t : Txn ε α}, K ε α t → ∀ s x, P (s, x) →
      t.wp (fun _ s' => c.own (s, x) (s', x) ∧ P (s', x)) (fun _ => True) s)
    {m : Moment σ} (hm : P m) : Flow.Leads c.reading (fun _ => P) f m :=
  (leads_of_abides (d := .issuing K) (.of_issues hf id fun _ => trivial) hP (fun _ _ => trivial)
    (fun _ m _ x _ hm _ => hasks m x hm) hK hm).mono fun _ _ h => h.2

theorem of_issues {K : TxnKind} {r : Run ε α} (hr : r.Issues K) (hP : c.Stable P)
    (hasks : ∀ m x, P m → c.own m (m.1, x) ∧ P (m.1, x))
    (hK : ∀ {ε α : Type} {t : Txn ε α}, K ε α t → ∀ s x, P (s, x) →
      t.wp (fun _ s' => c.own (s, x) (s', x) ∧ P (s', x)) (fun _ => True) s) :
    r.Amid c P (fun _ => P) fun _ => P := by
  refine iff_leads.mpr fun m hm => ?_
  refine Flow.Leads.mono (leads_of_issues (Run.Issues.iff_run.mp hr) hP hasks hK hm) fun o n hn => ?_
  cases o with
  | ok a => exact hn
  | error e => exact hn

/-- Every move of a run that is followed in company is one of its own kind. -/
theorem own {r : Run ε α} (h : r.Amid c P Q E) {m a z : Moment σ} (hm : P m)
    (hmove : c.world.Moves c.others r.run m a z) : c.own a z :=
  Company.own_of_moves (iff_leads.mp h m hm) hmove

/-- The same of a run whose result nobody looks at. -/
theorem ignored {R : Moment σ → Prop} {r : Run ε α} (h : r.Amid c P (fun _ => R) fun _ => R)
    {m : Moment σ} (hm : P m) : Flow.Leads c.reading (fun _ => R) r.ignored m := by
  refine (Flow.Leads.bind _ _).mpr (Flow.Leads.mono (iff_leads.mp h m hm) fun o n hn => ?_)
  cases o with
  | ok a => exact hn
  | error e => exact hn

theorem holds {r : Run ε α} (h : r.Amid c P Q E) {I : Moment σ → Prop} (hI : c.Stable I)
    (hown : ∀ m n, c.own m n → I m → I n) {m a z : Moment σ} (hm : P m) (hm' : I m)
    (hmove : c.world.Moves c.others r.run m a z) : I a :=
  Company.holds_of_moves hI hown (iff_leads.mp h m hm) hm' hmove

end Run.Amid

/-- A look for a job: it is found, or it is not there, or it cannot be read. -/
theorem Ledger.find_amid {c : Company σ} {P : Moment σ → Prop} {Q : Job → Moment σ → Prop}
    {E : JobError → Moment σ → Prop} {jobId : String} (hP : c.Stable P)
    (h : ∀ m, P m → (Jobs.find jobId).wp
      (fun found _ => (∀ job, found = some job → Q job m) ∧ (found = none → E (.notFound jobId) m))
      (fun e => E (Widen.widen e) m) m.1) :
    (Ledger.find jobId).Amid c P Q E := by
  refine Run.Amid.bind (R := fun found m => (∀ job, found = some job → Q job m) ∧
    (found = none → E (.notFound jobId) m)) (.transact hP fun s x hs => ?_) fun found => ?_
  · refine Txn.wp_mono (Txn.wp_and (h (s, x) hs) (Jobs.find_readOnly jobId s s rfl))
      (fun found s' hfound => ?_) fun e he => he.1
    obtain rfl : s' = s := hfound.2
    exact ⟨c.looks _, hfound.1⟩
  · cases found with
    | none => exact .throw fun m hm => hm.2 rfl
    | some job => exact .pure fun m hm => hm.1 job rfl

/-! ### Crowds -/

/-- Some flows, and the moment that all of them are in. -/
structure Crowd (σ : Type) where
  moment : Moment σ
  flows : List (Flow Unit)

namespace Crowd

/-- One of the flows has its question answered. -/
inductive Turn (w : Surroundings σ) : Crowd σ → Crowd σ → Prop
  | answer {β : Type} (m m' : Moment σ) (before after : List (Flow Unit)) (op : Effect β)
      (next : β → Flow Unit) (b : β) : w.answers op m b m' →
      Turn w ⟨m, before ++ .ask op next :: after⟩ ⟨m', before ++ next b :: after⟩

/-- Each flow is led to `Q` from some moment, after which there were only moves of others. -/
def Led (c : Company σ) (Q : Moment σ → Prop) (crowd : Crowd σ) : Prop :=
  ∀ f ∈ crowd.flows, ∃ m, c.others m crowd.moment ∧ Flow.Leads c.reading (fun _ => Q) f m

section Turns
variable {c : Company σ} {Q : Moment σ → Prop} {crowd crowd' : Crowd σ}
  (hown : ∀ m m', c.own m m' → c.others m m') (hwaits : ∀ m, c.others m m)
  (htrans : ∀ m₁ m₂ m₃, c.others m₁ m₂ → c.others m₂ m₃ → c.others m₁ m₃)
include hown hwaits htrans

/-- The moves of a flow are moves of others for all other flows. -/
theorem Led.turn (hturn : Turn c.world crowd crowd') (h : crowd.Led c Q) : crowd'.Led c Q := by
  cases hturn with
  | answer m m' before after op next b hb =>
    obtain ⟨m₀, hm₀, hleads⟩ := h _ (List.mem_append_right before List.mem_cons_self)
    obtain ⟨hmove, hnext⟩ := hleads m hm₀ b m' hb
    have hwaiting : ∀ f ∈ before ++ .ask op next :: after, ∃ m₁, c.others m₁ m' ∧
        Flow.Leads c.reading (fun _ => Q) f m₁ := by
      intro f hf
      obtain ⟨m₁, hm₁, hf⟩ := h f hf
      exact ⟨m₁, htrans m₁ m m' hm₁ (hown m m' hmove), hf⟩
    intro f hf
    rcases List.mem_append.mp hf with hf | hf
    · exact hwaiting f (List.mem_append_left _ hf)
    · rcases List.mem_cons.mp hf with rfl | hf
      · exact ⟨m', hwaits m', hnext⟩
      · exact hwaiting f (List.mem_append_right _ (List.mem_cons_of_mem _ hf))

theorem Led.turns (hturns : Relation.ReflTransGen (Turn c.world) crowd crowd')
    (h : crowd.Led c Q) : crowd'.Led c Q := by
  induction hturns with
  | refl => exact h
  | tail _ hturn ih => exact Led.turn hown hwaits htrans hturn ih

end Turns

/-- Every turn is a move of the flow whose question is answered. -/
theorem Led.own_of_turn {c : Company σ} {Q : Moment σ → Prop} {crowd crowd' : Crowd σ}
    (hturn : Turn c.world crowd crowd') (h : crowd.Led c Q) : c.own crowd.moment crowd'.moment := by
  cases hturn with
  | answer m m' before after op next b hb =>
    obtain ⟨m₀, hm₀, hleads⟩ := h _ (List.mem_append_right before List.mem_cons_self)
    exact (hleads m hm₀ b m' hb).1

/-- Once a flow is done, what it was led to holds. -/
theorem Led.done {c : Company σ} {Q : Moment σ → Prop} {crowd : Crowd σ} (h : crowd.Led c Q)
    (hQ : c.Stable Q) {u : Unit} (hdone : Program.done u ∈ crowd.flows) : Q crowd.moment := by
  obtain ⟨m, hm, hleads⟩ := h _ hdone
  exact hQ m crowd.moment hm hleads

/-- No flow joins a crowd, and none leaves it. -/
theorem turns_length {w : Surroundings σ} {crowd crowd' : Crowd σ}
    (hturns : Relation.ReflTransGen (Turn w) crowd crowd') :
    crowd'.flows.length = crowd.flows.length := by
  induction hturns with
  | refl => rfl
  | tail _ hturn ih =>
    cases hturn
    rw [← ih]
    simp

/-- A flow of a crowd goes on while all others wait. -/
theorem turns_of_reaches {w : Surroundings σ} {f g : Flow Unit} {m m' : Moment σ}
    (before after : List (Flow Unit)) (h : w.Reaches f m g m') :
    Relation.ReflTransGen (Turn w) ⟨m, before ++ f :: after⟩ ⟨m', before ++ g :: after⟩ :=
  h.lift (Turn w) (fun f m => ⟨m, before ++ f :: after⟩) fun op next m b n hb =>
    .answer m n before after op next b hb

/-- One of two flows waits while the other goes on, and ends while that one waits. -/
theorem turns_of_resumes {w : Surroundings σ} {f g : Flow Unit} {m m₁ m₂ m₃ m₄ : Moment σ}
    (hg : w.Resumes g m m₁ m₂ () m₃) (hf : w.Resumes f m₁ m₂ m₃ () m₄) :
    Relation.ReflTransGen (Turn w) ⟨m, [f, g]⟩ ⟨m₄, [.done (), .done ()]⟩ := by
  obtain ⟨g', hg, hg'⟩ := hg
  obtain ⟨f', hf, hf'⟩ := hf
  have hfirst := turns_of_reaches [f] [] hg
  have hsecond := turns_of_reaches [] [g'] hf
  have hthird := turns_of_reaches [f'] [] hg'.reaches
  exact ((hfirst.trans hsecond).trans hthird).trans (turns_of_reaches [] [.done ()] hf'.reaches)

end Crowd

/-! ### Other calls -/

namespace Scene

/-- A call that is under way goes on while all others wait. -/
theorem steps_of_reaches {f g : Flow Unit} {s s' : Store} (before after : List (Flow Unit))
    (h : Surroundings.free.Reaches f (s, ()) g (s', ())) :
    Relation.ReflTransGen Step ⟨s, before ++ f :: after⟩ ⟨s', before ++ g :: after⟩ :=
  h.lift Step (fun f m => ⟨m.1, before ++ f :: after⟩) fun op next m b n hb =>
    .answer m.1 n.1 before after op next b hb

/-- Calls that are under way already may wait. -/
theorem steps_beside (waiting : List (Flow Unit)) {c c' : Scene}
    (h : Relation.ReflTransGen Step c c') :
    Relation.ReflTransGen Step ⟨c.store, waiting ++ c.flows⟩ ⟨c'.store, waiting ++ c'.flows⟩ := by
  induction h with
  | refl => exact .refl
  | tail _ hstep ih =>
    refine ih.tail ?_
    cases hstep with
    | call s flows call =>
      rw [← List.append_assoc]
      exact .call s _ call
    | answer s s' before after op next b hb =>
      rw [← List.append_assoc, ← List.append_assoc]
      exact .answer s s' _ after op next b hb

end Scene

/-- What other calls may make of a store; some of them may still be under way. -/
def Store.Becomes (s s' : Store) : Prop :=
  ∃ flows, Relation.ReflTransGen Scene.Step ⟨s, []⟩ ⟨s', flows⟩

namespace Store.Becomes

theorem refl (s : Store) : s.Becomes s := ⟨[], .refl⟩

theorem trans {s₁ s₂ s₃ : Store} (h : s₁.Becomes s₂) (h' : s₂.Becomes s₃) : s₁.Becomes s₃ := by
  obtain ⟨flows, hsteps⟩ := h
  obtain ⟨flows', hsteps'⟩ := h'
  have hbeside := Scene.steps_beside flows hsteps'
  rw [List.append_nil] at hbeside
  exact ⟨flows ++ flows', hsteps.trans hbeside⟩

/-- A further call begins, and some of its questions are answered. -/
theorem of_call (c : Call) {g : Flow Unit} {s s' : Store}
    (h : Surroundings.free.Reaches c.flow (s, ()) g (s', ())) : s.Becomes s' :=
  ⟨[g], .head (.call s [] c) (Scene.steps_of_reaches [] [] h)⟩

/-- What no statement destroys, other calls do not destroy. -/
theorem keeps {I : Store → Prop} (hI : Unharmed I) {s s' : Store} (h : s.Becomes s') (hs : I s) :
    I s' := by
  obtain ⟨flows, hsteps⟩ := h
  have hstart : Scene.Keeping I ⟨s, []⟩ := ⟨hs, fun _ hf => nomatch hf⟩
  exact (hstart.steps hI hsteps).store

/-- What becomes of a reachable store is reachable. -/
theorem reachable {s s' : Store} (h : s.Becomes s') (hs : s.Reachable) : s'.Reachable := by
  obtain ⟨flows, hsteps⟩ := hs
  obtain ⟨flows', hsteps'⟩ := h
  have hbeside := Scene.steps_beside flows hsteps'
  rw [List.append_nil] at hbeside
  exact ⟨_, hsteps.trans hbeside⟩

end Store.Becomes
end Quire
