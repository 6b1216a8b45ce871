import Quire.Proofs.Flow.Triples
import Quire.Proofs.Flow.Twins

/-! Runs of which an oracle answers every question.

Where the store fails no transaction of its own accord, such a run is one of the runs among
surroundings that may answer anything, so what holds of all of these holds of it
(`Run.Takes.ends`). A transaction that only looks leaves such a situation as it is. -/
namespace Quire
variable {σ α β ε ε' : Type}

/-- The store fails no transaction of its own accord. -/
def Situation.Undisturbed (m : Situation σ) : Prop := ∀ n, m.outages n = none

/-! ### Where the store fails nothing of its own accord -/

section
variable {m m' : Situation σ}

theorem Situation.Alike.undisturbed {v : Veil} (h : m.Alike v m') (hm : m.Undisturbed) :
    m'.Undisturbed := by
  intro n
  have hsome : (none : Option StoreError).isSome = (m'.outages n).isSome := hm n ▸ h.outages n
  simpa using hsome.symm

theorem Situation.Undisturbed.transact [Widen StoreError ε] (hm : m.Undisturbed) (t : Txn ε α) :
    m.transact t = ((t.run m.store).1, { m with store := (t.run m.store).2 }) := by
  have hshift : (fun n => m.outages (n + 1)) = m.outages :=
    funext fun n => (hm (n + 1)).trans (hm n).symm
  unfold Situation.transact
  rw [hm 0, hshift]

end

/-! ### Runs, part by part -/

namespace Oracle
variable (w : Oracle σ)

theorem run_bind (f : Flow β) (k : β → Flow α) (m : Situation σ) :
    w.run (f >>= k) m = w.run (k (w.run f m).1) (w.run f m).2 := by
  induction f generalizing m with
  | done b => rfl
  | ask e next ih => exact ih _ _

/-- What follows a part that has ended in a result. -/
theorem run_bind_ok {r : Run ε β} {k : β → Run ε α} {m m' : Situation σ} {b : β}
    (h : w.run r.run m = (.ok b, m')) : w.run (r >>= k).run m = w.run (k b).run m' := by
  rw [ExceptT.run_bind, run_bind, h]

theorem run_outcome (r : Run ε α) (m : Situation σ) :
    w.run (Run.outcome r : Run ε' (Except ε α)).run m = (.ok (w.run r.run m).1, (w.run r.run m).2) := by
  show w.run (ExceptT.lift r.run : Run ε' (Except ε α)).run m = _
  rw [ExceptT.run_lift]
  exact w.run_bind r.run _ m

/-- The situation is as it was when the run has ended. -/
def Leaves (r : Run ε α) (m : Situation σ) : Prop := (w.run r.run m).2 = m

namespace Leaves
variable {w} {m : Situation σ}

theorem ofExcept [Widen ε ε'] (r : Except ε α) : w.Leaves (Run.ofExcept r : Run ε' α) m := by
  cases r with
  | ok a => rfl
  | error e => rfl

/-- What follows has to leave everything as it is only after the result that there is. -/
theorem bind {r : Run ε β} {k : β → Run ε α} (hr : w.Leaves r m)
    (hk : ∀ b, (w.run r.run m).1 = .ok b → w.Leaves (k b) m) : w.Leaves (r >>= k) m := by
  unfold Leaves at hr ⊢
  rw [ExceptT.run_bind, run_bind, hr]
  cases ho : (w.run r.run m).1 with
  | ok b => exact hk b ho
  | error e => rfl

theorem widen [Widen ε ε'] {r : Run ε α} (hr : w.Leaves r m) :
    w.Leaves (Run.widen r : Run ε' α) m := by
  unfold Leaves at hr ⊢
  show (w.run (r.run >>= _) m).2 = m
  rw [run_bind, hr]
  cases (w.run r.run m).1 with
  | ok a => rfl
  | error e => rfl

/-- A look at the store, which does not fail of its own accord. -/
theorem look [Widen StoreError ε] [Widen ε ε'] (hm : m.Undisturbed) {t : Txn ε α}
    (ht : t.ReadOnly) : w.Leaves (Run.transact t : Run ε' α) m := by
  have hsame : (m.transact t).2 = m := by
    rw [hm.transact t, show (t.run m.store).2 = m.store from (ht m.store).run rfl]
  show (w.run (Program.perform (.transact t) >>= _) m).2 = m
  rw [run_bind, show w.run (Program.perform (.transact t)) m = m.transact t from rfl, hsame]
  cases (m.transact t).1 with
  | ok a => rfl
  | error e => rfl

end Leaves
end Oracle

/-! ### Runs among others -/

/-- The reply is one of those that may be given where anything may be answered. -/
theorem Oracle.reply_allowed (w : Oracle σ) (e : Effect β) {m : Situation σ}
    (hm : m.Undisturbed) :
    Surroundings.free.answers e (m.store, ()) (w.reply e m).1 ((w.reply e m).2.store, ()) ∧
      (w.reply e m).2.Undisturbed := by
  cases e with
  | transact t =>
    show Surroundings.free.answers _ _ (m.transact t).1 ((m.transact t).2.store, ()) ∧
      (m.transact t).2.Undisturbed
    rw [hm.transact t]
    exact ⟨⟨rfl, rfl⟩, hm⟩
  | _ => exact ⟨⟨rfl, trivial⟩, hm⟩

theorem Oracle.runs_free (w : Oracle σ) (f : Flow α) {m : Situation σ} (hm : m.Undisturbed) :
    Surroundings.free.Runs f (m.store, ()) (w.run f m).1 ((w.run f m).2.store, ()) ∧
      (w.run f m).2.Undisturbed := by
  induction f generalizing m with
  | done a => exact ⟨⟨rfl, rfl⟩, hm⟩
  | ask e next ih =>
    obtain ⟨hreply, hm'⟩ := w.reply_allowed e hm
    obtain ⟨hruns, hends⟩ := ih (w.reply e m).1 hm'
    exact ⟨⟨_, _, hreply, hruns⟩, hends⟩

/-- The end of a run, as it was shown of every run. -/
theorem Run.Takes.ends {P : Store → Prop} {Q : α → Store → Prop} {E : ε → Store → Prop}
    {r : Run ε α} (h : r.Takes .free (fun _ => True) P Q E) (w : Oracle σ) {m : Situation σ}
    (hm : m.Undisturbed) (hs : P m.store) :
    Either Q E (w.run r.run m).1 (w.run r.run m).2.store :=
  (h.runs hs trivial ()).2 _ _ (w.runs_free r.run hm).1

/-- What a run keeps. -/
theorem Run.Takes.kept {P : Store → Prop} {r : Run ε α}
    (h : r.Takes .free (fun _ => True) P (fun _ => P) fun _ => P) (w : Oracle σ) {m : Situation σ}
    (hm : m.Undisturbed) (hs : P m.store) : P (w.run r.run m).2.store := by
  have hends := h.ends w hm hs
  generalize (w.run r.run m).1 = o at hends
  cases o with
  | ok a => exact hends
  | error e => exact hends

end Quire
