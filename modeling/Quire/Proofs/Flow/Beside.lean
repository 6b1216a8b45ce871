import Quire.Proofs.Flow.Company
import Quire.Proofs.Flow.Interleaving

/-! One run among calls.

Calls take turns with each other and with one run whose result counts. A dialogue that all of them
abide by says what is kept at every moment, whichever way they take turns, and what the run may
come to (`Scene.Beside.heeds`). Where the run is followed in the company of anything that keeps what
no statement destroys (`Scene.company`), nothing else has to be known of the calls: the run comes to
the same end whichever of them have their turns in between (`Scene.Beside.ends`). -/
namespace Quire
variable {α : Type}

namespace Scene

/-- A call begins or has its turn, or the run has its question answered. -/
inductive Beside : Scene × Flow α → Scene × Flow α → Prop
  | step {c c' : Scene} (f : Flow α) : Step c c' → Beside (c, f) (c', f)
  | answer {β : Type} (s s' : Store) (flows : List (Flow Unit)) (op : Effect β)
      (next : β → Flow α) (b : β) : Surroundings.free.answers op (s, ()) b (s', ()) →
      Beside (⟨s, flows⟩, .ask op next) (⟨s', flows⟩, next b)

/-- All that is under way abides by a dialogue, and the store has a property. -/
structure Heeds (d : Dialogue) (Q : α → Prop) (K : Store → Prop) (x : Scene × Flow α) : Prop where
  store : K x.1.store
  calls : ∀ f ∈ x.1.flows, f.Abides d fun _ => True
  run : x.2.Abides d Q

/-- Calls may take turns while the run waits. -/
theorem Beside.of_steps (f : Flow α) {c c' : Scene} (h : Relation.ReflTransGen Step c c') :
    Relation.ReflTransGen Beside (c, f) (c', f) := by
  induction h with
  | refl => exact .refl
  | tail _ hstep ih => exact ih.tail (.step f hstep)

/-- The run may come to its end while all calls wait. -/
theorem Beside.of_runs (flows : List (Flow Unit)) {f : Flow α} {a : α} {s s' : Store}
    (h : Surroundings.free.Runs f (s, ()) a (s', ())) :
    Relation.ReflTransGen Beside (⟨s, flows⟩, f) (⟨s', flows⟩, .done a) := by
  induction f generalizing s with
  | done _ =>
    obtain ⟨rfl, hs⟩ := h
    obtain rfl : s' = s := congrArg Prod.fst hs
    exact .refl
  | ask op next ih =>
    obtain ⟨b, ⟨s₁, _⟩, hb, hrest⟩ := h
    exact .head (.answer s s₁ flows op next b hb) (ih b hrest)

variable {d : Dialogue} {Q : α → Prop} {K I : Store → Prop} {x y : Scene × Flow α}

/-- What the transactions of a dialogue keep is kept, as long as the answers are to be expected. -/
theorem Beside.heeds (hcalls : ∀ call : Call, call.flow.Abides d fun _ => True)
    (hkeeps : ∀ {ε α : Type} {t : Txn ε α}, d.issues ε α t → t.Keeps K)
    (hgives : ∀ {β : Type} {e : Effect β} {b : β} {m : Moment Unit},
      Surroundings.free.answers e (x.1.store, ()) b m → d.gives e b)
    (h : Beside x y) (hx : Heeds d Q K x) : Heeds d Q K y := by
  cases h with
  | step f hstep =>
    cases hstep with
    | call s flows call =>
      refine { hx with calls := fun g hg => ?_ }
      rcases List.mem_append.mp hg with hg | hg
      · exact hx.calls g hg
      · obtain rfl := List.mem_singleton.mp hg
        exact hcalls call
    | answer s s' before after op next b hb =>
      have hasking := hx.calls _ (List.mem_append_right before List.mem_cons_self)
      obtain ⟨hnext, hstore⟩ := Flow.Abides.answer hkeeps hasking hb (hgives hb) hx.store
      refine { hx with store := hstore, calls := fun g hg => ?_ }
      rcases List.mem_append.mp hg with hg | hg
      · exact hx.calls g (List.mem_append_left _ hg)
      · rcases List.mem_cons.mp hg with rfl | hg
        · exact hnext
        · exact hx.calls g (List.mem_append_right _ (List.mem_cons_of_mem _ hg))
  | answer s s' flows op next b hb =>
    obtain ⟨hnext, hstore⟩ := Flow.Abides.answer hkeeps hx.run hb (hgives hb) hx.store
    exact { hx with store := hstore, run := hnext }

/-- All that is under way issues only known transactions. -/
abbrev Knows (K : Store → Prop) (x : Scene × Flow α) : Prop :=
  Heeds (.issuing Issued) (fun _ => True) K x

theorem Beside.knows (hK : Unharmed K) (h : Beside x y) (hx : Knows K x) : Knows K y := by
  refine h.heeds (fun call => ?_) (fun ht => hK.keeps ht) (fun _ => trivial) hx
  exact .of_issues call.flow_issued (fun ht => ht) fun _ => trivial

/-- What no statement destroys lasts while calls and a run take turns. -/
theorem Knows.lasts (hK : Unharmed K) (h : Relation.ReflTransGen Beside x y) (hx : Knows K x) :
    Knows K y := by
  induction h with
  | refl => exact hx
  | tail _ hbeside ih => exact hbeside.knows hK ih

/-- What is known to have lasted so far may be replaced by anything else that is there. -/
theorem Knows.with (hx : Knows I x) (hK : K x.1.store) : Knows K x := { hx with store := hK }

end Scene

/-! ### What lasts -/

/-- The store has become another one, and what no statement destroys has lasted. -/
def Store.Lasted (past s : Store) : Prop := ∀ I, Unharmed I → I past → I s

namespace Store.Lasted
variable {past s s' : Store}

theorem refl (s : Store) : s.Lasted s := fun _ _ h => h

theorem trans (h : past.Lasted s) (h' : s.Lasted s') : past.Lasted s' :=
  fun I hI hpast => h' I hI (h I hI hpast)

/-- An answer to a known question. -/
theorem of_answer {β : Type} {op : Effect β} (hop : op.Within Issued) {b : β}
    (hb : Surroundings.free.answers op (s, ()) b (s', ())) : s.Lasted s' :=
  fun _ hI hs => hI.answers hop hb hs

end Store.Lasted

namespace Scene
variable {α : Type} {Q : α → Moment Unit → Prop} {x y : Scene × Flow α}

/-- A run among calls; all that is known of these is that what lasts does so. -/
def company : Company Unit where
  world := .free
  others m m' := m.1.Lasted m'.1
  own _ _ := True
  looks _ := trivial

theorem company_stable {I : Store → Prop} (hI : Unharmed I) : company.Stable fun m => I m.1 :=
  fun _ _ hlasted hm => hlasted I hI hm

/-- The calls are known, and the run is led to `Q` from a store that has lasted. -/
structure Led (Q : α → Moment Unit → Prop) (x : Scene × Flow α) : Prop where
  issued : ∀ f ∈ x.1.flows, f.Issues Issued
  run : ∃ s, s.Lasted x.1.store ∧ Flow.Leads company.reading Q x.2 (s, ())

/-- A step of known calls leaves them known, and what lasts does so. -/
theorem Step.lasted {c c' : Scene} (h : Step c c') (hissued : ∀ f ∈ c.flows, f.Issues Issued) :
    (∀ f ∈ c'.flows, f.Issues Issued) ∧ c.store.Lasted c'.store := by
  cases h with
  | call s flows call =>
    refine ⟨fun f hf => ?_, .refl s⟩
    rcases List.mem_append.mp hf with hf | hf
    · exact hissued f hf
    · exact List.mem_singleton.mp hf ▸ call.flow_issued
  | answer s s' before after op next b hb =>
    obtain ⟨hop, hnext⟩ :=
      Flow.Issues.ask.mp (hissued _ (List.mem_append_right before List.mem_cons_self))
    refine ⟨fun f hf => ?_, .of_answer hop hb⟩
    rcases List.mem_append.mp hf with hf | hf
    · exact hissued f (List.mem_append_left _ hf)
    · rcases List.mem_cons.mp hf with rfl | hf
      · exact hnext b
      · exact hissued f (List.mem_append_right _ (List.mem_cons_of_mem _ hf))

theorem Beside.led (h : Beside x y) (hx : Led Q x) : Led Q y := by
  obtain ⟨hissued, s₀, hlasted, hleads⟩ := hx
  cases h with
  | step f hstep =>
    obtain ⟨hissued', hlasted'⟩ := hstep.lasted hissued
    exact ⟨hissued', s₀, hlasted.trans hlasted', hleads⟩
  | answer s s' flows op next b hb =>
    obtain ⟨-, hnext⟩ := hleads (s, ()) hlasted b (s', ()) hb
    exact ⟨hissued, s', .refl s', hnext⟩

theorem Led.runs (h : Relation.ReflTransGen Beside x y) (hx : Led Q x) : Led Q y := by
  induction h with
  | refl => exact hx
  | tail _ hbeside ih => exact hbeside.led ih

/-- Calls that are known stay so, and those that begin are known. -/
theorem Beside.issued (h : Relation.ReflTransGen Beside x y)
    (hissued : ∀ f ∈ x.1.flows, f.Issues Issued) : ∀ f ∈ y.1.flows, f.Issues Issued := by
  induction h with
  | refl => exact hissued
  | tail _ hbeside ih =>
    cases hbeside with
    | step f hstep => exact (hstep.lasted ih).1
    | answer => exact ih

/-- Whichever calls have their turns, a run comes to where it is led in company. -/
theorem Beside.ends {c c' : Scene} {f : Flow α} {a : α}
    (h : Relation.ReflTransGen Beside (c, f) (c', .done a))
    (hissued : ∀ g ∈ c.flows, g.Issues Issued)
    (hleads : Flow.Leads company.reading Q f (c.store, ())) :
    ∃ s, s.Lasted c'.store ∧ Q a (s, ()) :=
  (Led.runs h ⟨hissued, c.store, .refl c.store, hleads⟩).run

end Scene
end Quire
