import Quire.Proofs.Flow.Company
import Quire.Proofs.Store.Reading

/-! Objects that are kept for a while, with nobody else about.

An object is written as a whole, under a key that is not in use, or not at all, and what is deleted
is gone: so an object that was written and deleted leaves everything as it was. -/
namespace Quire
open Txn
variable {σ α ε ε' : Type}

/-! ### Alone -/

/-- Nobody else has a turn. -/
def Company.alone (w : Surroundings σ) : Company σ where
  world := w
  others m m' := m' = m
  own _ _ := True
  looks _ := trivial

section Alone
variable {w : Surroundings σ}

theorem Company.alone_stable (P : Moment σ → Prop) : (alone w).Stable P := fun _ _ h hm => h ▸ hm

/-- Any run comes to something. -/
theorem Run.Amid.anything {P : Moment σ → Prop} (r : Run ε α) :
    r.Amid (.alone w) P (fun _ _ => True) fun _ _ => True := by
  have hflow {β : Type} (f : Flow β) : ∀ m, Flow.Leads (Company.alone w).reading (fun _ _ => True) f m := by
    induction f with
    | done _ => exact fun _ => trivial
    | ask op next ih => exact fun _ _ _ b n _ => ⟨trivial, ih b n⟩
  exact Run.Amid.iff_leads.mpr fun m _ => (hflow r.run m).mono fun o _ _ => by cases o <;> trivial

/-- A transaction leads on from what it leaves; if it fails, nothing has happened. -/
theorem Run.Amid.transact_alone [Widen StoreError ε] [Widen ε ε'] {t : Txn ε α} {P : Store → Prop}
    {Q : α → Store → Prop} {E : ε → Prop} (h : ∀ s, P s → t.wp Q E s) (x : σ) :
    Amid (.alone w) (fun m => P m.1 ∧ m.2 = x) (fun a m => Q a m.1 ∧ m.2 = x)
      (fun e m => (∃ fault, e = Widen.widen fault ∧ E fault) ∧ P m.1 ∧ m.2 = x)
      (Run.transact t : Run ε' α) := by
  refine .transact (Company.alone_stable _) fun s y hs => ?_
  exact wp_mono (h s hs.1) (fun _ _ hQ => ⟨trivial, hQ, hs.2⟩) fun e he => ⟨⟨e, rfl, he⟩, hs⟩

/-- A transaction that cannot fail. -/
theorem Run.Amid.certain [Widen StoreError ε] [Widen ε ε'] {t : Txn ε α} {P : Moment σ → Prop}
    {Q : α → Moment σ → Prop} {E : ε' → Moment σ → Prop}
    (h : ∀ s x, P (s, x) → t.wp (fun a s' => Q a (s', x)) (fun _ => False) s) :
    Amid (.alone w) P Q E (Run.transact t : Run ε' α) :=
  .transact (Company.alone_stable _) fun s x hs =>
    wp_mono (h s x hs) (fun _ _ h => ⟨trivial, h⟩) fun _ h => h.elim

/-- The same with nothing done to what the surroundings remember. -/
theorem Run.Amid.certain_at [Widen StoreError ε] [Widen ε ε'] {t : Txn ε α} {P : Store → Prop}
    {Q : α → Store → Prop} {E : ε' → Moment σ → Prop} {x : σ}
    (h : ∀ s, P s → t.wp Q (fun _ => False) s) :
    Amid (.alone w) (fun m => P m.1 ∧ m.2 = x) (fun a m => Q a m.1 ∧ m.2 = x) E
      (Run.transact t : Run ε' α) :=
  .certain fun s _ hs => wp_mono (h s hs.1) (fun _ _ h => ⟨h, hs.2⟩) fun _ h => h

/-- A question that the surroundings do not remember. -/
def Surroundings.Ignores (w : Surroundings σ) (e : Effect α) : Prop :=
  ∀ x b x', w.allows e x b x' → x' = x

theorem Run.Amid.ask_alone {e : Effect α} (he : e.isTransaction = false) (hsame : w.Ignores e)
    {P : Moment σ → Prop} {E : ε → Moment σ → Prop} :
    Amid (.alone w) P (fun _ => P) E (Run.perform e : Run ε α) :=
  .ask (Company.alone_stable _) he fun m b x' hm hb => ⟨trivial, by
    rw [hsame _ _ _ hb]
    exact hm⟩

theorem Run.Amid.demand_alone [Widen ε ε'] {e : Effect (Except ε α)} (he : e.isTransaction = false)
    (hsame : w.Ignores e) {P : Moment σ → Prop} :
    Amid (.alone w) P (fun _ => P) (fun e m => (∃ fault : ε, e = Widen.widen fault) ∧ P m)
      (Run.request e : Run ε' α) := by
  refine .demand (Company.alone_stable _) he fun m o x' hm ho => ⟨trivial, ?_⟩
  have hm' : P (m.1, x') := by
    rw [hsame _ _ _ ho]
    exact hm
  cases o with
  | ok a => exact hm'
  | error fault => exact ⟨⟨fault, rfl⟩, hm'⟩

/-- Transactions that keep a property, and questions that the surroundings do not remember. -/
def Dialogue.unnoticed (w : Surroundings σ) (I : Store → Prop) : Dialogue where
  issues _ _ t := t.Keeps I
  asks e := w.Ignores e
  gives _ _ := True

theorem Run.Amid.of_unnoticed {I : Store → Prop} {R : α → Prop} {r : Run ε α}
    (hr : r.Abides (.unnoticed w I) R) (x : σ) :
    r.Amid (.alone w) (fun m => I m.1 ∧ m.2 = x) (fun a m => R a ∧ I m.1 ∧ m.2 = x)
      fun _ m => I m.1 ∧ m.2 = x :=
  .of_abides hr (Company.alone_stable _) (fun _ _ => trivial)
    (fun _ _ _ _ he hm hb => ⟨trivial, hm.1, (he _ _ _ hb).trans hm.2⟩)
    fun ht s _ hs => wp_mono (ht s hs.1) (fun _ _ h => ⟨trivial, h, hs.2⟩) fun _ h => h

end Alone

/-! ### Temporary objects and operations -/

/-- The objects that are kept for a while, and the handle that was given out last. -/
structure Depot where
  objects : ObjectStore
  handle : Option String

namespace Depot

/-- An object is written as a whole under a key that is not in use, or not at all; what is deleted
is gone; everything else may be answered by anything. -/
def surroundings : Surroundings Depot where
  allows
    | .put key body contentType, x, answer, x' =>
      (∃ e, answer = .error e ∧ x' = x) ∨
        (answer = .ok () ∧ x.objects.contains key = false ∧
          ∃ written, x.objects.put key body contentType = .ok written ∧
            x' = { x with objects := written })
    | .delete key, x, answer, x' => answer = .ok () ∧ x' = { x with objects := x.objects.delete key }
    | .submit _ _ _, x, answer, x' =>
      match answer with
      | .ok handle => x' = { x with handle := some handle }
      | .error _ => x' = x
    | _, x, _, x' => x' = x

theorem live : surroundings.Live := by
  refine Surroundings.Live.of_allows fun op x => ?_
  obtain ⟨b⟩ := op.nonempty
  cases op with
  | put key body contentType => exact ⟨.error (.notFound key), x, .inl ⟨_, rfl, rfl⟩⟩
  | delete key => exact ⟨.ok (), { x with objects := x.objects.delete key }, rfl, rfl⟩
  | submit inputUri mime outputUri => exact ⟨.ok "", { x with handle := some "" }, rfl⟩
  | _ => exact ⟨b, x, rfl⟩

end Depot

namespace ObjectStore
variable {o : ObjectStore} {key : String}

theorem find?_eq_none_iff : o.find? key = none ↔ ∀ x ∈ o.objects, x.1 ≠ key := by
  simp [find?]

theorem filter_place {objects : List (String × StoredObject)} (h : ∀ x ∈ objects, x.1 ≠ key)
    (object : StoredObject) : (place key object objects).filter (fun x => x.1 != key) = objects := by
  induction objects with
  | nil => simp [place]
  | cons x rest ih =>
    obtain ⟨hx, hrest⟩ := List.forall_mem_cons.mp h
    have hothers : rest.filter (fun x => x.1 != key) = rest :=
      List.filter_eq_self.mpr fun y hy => by simpa using hrest y hy
    have hne : (x.1 != key) = true := by simpa using hx
    unfold place
    split
    · simp [hne, hothers]
    · split
      · rw [List.filter_cons, if_pos hne, ih hrest]
      · rename_i hlt hgt
        exact absurd (String.le_antisymm hlt hgt) hx

/-- What was written under a key that was not in use is gone when it is deleted. -/
theorem delete_put (hfree : o.contains key = false) {body : ByteStream} {contentType : String}
    {written : ObjectStore} (hput : o.put key body contentType = .ok written) :
    written.delete key = o := by
  have hnone : ∀ x ∈ o.objects, x.1 ≠ key :=
    find?_eq_none_iff.mp (Option.isSome_eq_false_iff.mp hfree |> Option.isNone_iff_eq_none.mp)
  obtain ⟨data, -, hwritten⟩ := bind_eq_ok.mp hput
  obtain rfl := Except.ok.inj hwritten
  unfold insert delete
  simp only
  rw [filter_place hnone]

theorem contains_put {body : ByteStream} {contentType : String} {written : ObjectStore}
    (hput : o.put key body contentType = .ok written) : written.contains key = true := by
  have hmem (object : StoredObject) (objects : List (String × StoredObject)) :
      (key, object) ∈ place key object objects := by
    induction objects with
    | nil => simp [place]
    | cons x rest ih =>
      unfold place
      split
      · exact List.mem_cons_self
      · split
        · exact List.mem_cons_of_mem _ ih
        · exact List.mem_cons_self
  obtain ⟨data, -, hwritten⟩ := bind_eq_ok.mp hput
  obtain rfl := Except.ok.inj hwritten
  unfold contains
  rw [Option.isSome_iff_ne_none]
  exact fun hnone => find?_eq_none_iff.mp hnone _ (hmem ⟨data, contentType⟩ o.objects) rfl

end ObjectStore

end Quire
