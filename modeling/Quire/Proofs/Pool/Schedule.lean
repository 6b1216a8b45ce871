import Quire.Proofs.Pool

/-! Schedules, and what a pool comes to whatever the schedule.

A `Schedule` decides which works end at once and, whenever all workers are suspended, which of the
works in flight ends next; both with a view of all that has happened. So schedules are all orders
in which works can end. What a pool comes to does not depend on them: it is what working off the
items one after the other comes to. If failures stop the batch, those of the items that were taken
are a beginning of the items and one of them has failed, so the first failure among them is the
first failure of all. -/
namespace Quire
open Batch

namespace Pool

/-- What can be seen of a pool at work. -/
inductive Event
  | started (i : Nat)
  | ended (i : Nat) (failed : Bool)
  /-- All workers are suspended. -/
  | waits
  deriving DecidableEq, Repr

/-- Who is next, as far as it is not up to the pool. -/
structure Schedule where
  /-- Whether a work that begins ends at once. -/
  atOnce : List Event → Nat → Bool
  /-- Which of the works in flight ends next. -/
  next : List Event → (first : Nat) → (others : List Nat) → Fin (others.length + 1)

namespace Schedule
variable {ι ε β : Type}

/-- Works by a schedule, with the results that they come to. -/
def service (c : Schedule) (result : List Event → Nat → Except ε β) :
    Service (StateM (List Event)) ι ε β where
  begin i _ := do
    let log ← get
    if c.atOnce log i then
      let r := result log i
      set (log ++ [.started i, .ended i (failed r)])
      return some r
    set (log ++ [.started i])
    return none
  await first others := do
    let log ← get
    let place := c.next log first others
    let i := (first :: others).get place
    let r := result log i
    set (log ++ [.waits, .ended i (failed r)])
    return (place, r)

section
variable (c : Schedule) (result : List Event → Nat → Except ε β) (log : List Event)

theorem service_begin (i : Nat) (item : ι) :
    ((c.service result).begin i item).run log =
      if c.atOnce log i then
        (some (result log i), log ++ [.started i, .ended i (failed (result log i))])
      else (none, log ++ [.started i]) := by
  show ((if c.atOnce log i then _ else _) : StateM (List Event) _) log = _
  split <;> rfl

theorem service_await (first : Nat) (others : List Nat) :
    ((c.service result : Service _ ι ε β).await first others).run log =
      let place := c.next log first others
      let i := (first :: others).get place
      ((place, result log i), log ++ [.waits, .ended i (failed (result log i))]) := rfl

end
end Schedule

/-! ### Working off items one after the other -/

section Sequence
variable {α ε β : Type} {f : α → Except ε β} {xs ys : List α}

/-- What follows a failure does not matter. -/
theorem mapM_append_of_failing (h : ∃ x ∈ xs, ∃ e, f x = .error e) :
    (xs ++ ys).mapM f = xs.mapM f := by
  induction xs with
  | nil => simp at h
  | cons x xs ih =>
    rw [List.cons_append, List.mapM_cons, List.mapM_cons]
    cases hx : f x with
    | error e => rfl
    | ok v =>
      have hrest : ∃ y ∈ xs, ∃ e, f y = .error e := by
        obtain ⟨y, hy, e, he⟩ := h
        rcases List.mem_cons.mp hy with rfl | hy
        · simp [hx] at he
        · exact ⟨y, hy, e, he⟩
      rw [ih hrest]

/-- The first failure is what comes of all. -/
theorem mapM_first_failure {x : α} {e : ε} (hxs : ∀ y ∈ xs, ∃ v, f y = .ok v)
    (hx : f x = .error e) : (xs ++ x :: ys).mapM f = .error e := by
  induction xs with
  | nil =>
    rw [List.nil_append, List.mapM_cons, hx]
    rfl
  | cons y xs ih =>
    obtain ⟨v, hv⟩ := hxs y List.mem_cons_self
    rw [List.cons_append, List.mapM_cons, hv, ih fun z hz => hxs z (List.mem_cons_of_mem _ hz)]
    rfl

end Sequence

/-- What the items come to one after the other: all values, or the first failure. -/
def inTurn {ι ε β : Type} (work : Nat → ι → Except ε β) (items : List ι) : Except ε (List β) :=
  items.zipIdx.mapM fun x => work x.2 x.1

/-- The value that an item gets: its own or, for a failure, one that stands in for it. -/
def valueOr {ε β : Type} (fallback : ε → β) : Except ε β → β
  | .ok v => v
  | .error e => fallback e

section InTurn
variable {ι ε β : Type} {work : Nat → ι → Except ε β} {items : List ι} {k : Nat}

theorem zipIdx_split (items : List ι) (hk : k ≤ items.length) :
    items.zipIdx = (items.take k).zipIdx ++ (items.drop k).zipIdx k := by
  have hboth : (items.take k ++ items.drop k).zipIdx =
      (items.take k).zipIdx ++ (items.drop k).zipIdx (0 + (items.take k).length) :=
    List.zipIdx_append
  rwa [List.take_append_drop, List.length_take_of_le hk, Nat.zero_add] at hboth

/-- If no item fails, all values are what comes of all. -/
theorem inTurn_values {vs : List β}
    (h : (items.zipIdx.map fun x => work x.2 x.1) = vs.map Except.ok) :
    inTurn work items = .ok vs := by
  calc inTurn work items
    _ = (items.zipIdx.map fun x => work x.2 x.1).mapM id := by rw [List.mapM_map]; rfl
    _ = vs.mapM (fun v => (pure v : Except ε β)) := by rw [h, List.mapM_map]; rfl
    _ = .ok vs := by rw [List.mapM_pure, List.map_id']; rfl

/-- The items before a failure decide. -/
theorem inTurn_take (hk : k ≤ items.length)
    (hrest : k = items.length ∨ ∃ i < k, ∃ item e, items[i]? = some item ∧ work i item = .error e) :
    inTurn work (items.take k) = inTurn work items := by
  rcases hrest with rfl | ⟨i, hi, item, e, hitem, he⟩
  · rw [List.take_length]
  · have hmem : (item, i) ∈ (items.take k).zipIdx :=
      List.mem_zipIdx_iff_getElem?.mpr ((List.getElem?_take_of_lt hi).trans hitem)
    unfold inTurn
    rw [zipIdx_split items hk]
    exact (mapM_append_of_failing ⟨(item, i), hmem, e, he⟩).symm

/-- The failure of the first item that fails is what comes of all. -/
theorem inTurn_first_failure {i : Nat} {item : ι} {e : ε} (hitem : items[i]? = some item)
    (he : work i item = .error e)
    (hbefore : ∀ j < i, ∀ other, items[j]? = some other → ∃ v, work j other = .ok v) :
    inTurn work items = .error e := by
  obtain ⟨hi, rfl⟩ := List.getElem?_eq_some_iff.mp hitem
  have htail : (items.drop i).zipIdx i = (items[i], i) :: (items.drop (i + 1)).zipIdx (i + 1) := by
    rw [List.drop_eq_getElem_cons hi, List.zipIdx_cons]
  unfold inTurn
  rw [zipIdx_split items (Nat.le_of_lt hi), htail]
  refine mapM_first_failure (fun x hx => ?_) he
  obtain ⟨other, j⟩ := x
  have hother := List.mem_zipIdx_iff_getElem?.mp hx
  have hj : j < i := by
    have := (List.getElem?_eq_some_iff.mp hother).1
    simp only [List.length_take] at this
    omega
  rw [List.getElem?_take_of_lt hj] at hother
  exact hbefore j hj other hother

end InTurn

/-! ### Whatever the schedule -/

/-- What a computation with a state comes to is known by running it. -/
def assurance (σ : Type) : Assurance (StateM σ) σ where
  ensures Q x u := Q (x.run u).1 (x.run u).2
  mono h hQ := hQ _ _ h
  pure h := h
  bind h := h

section Schedules
variable {ι ε β : Type} (p : Pool) (c : Schedule) {items : List ι}
  {work : Nat → ι → Except ε β} {result : Nat → Except ε β}

/-- The result of an item is what its work comes to. -/
abbrev IsWork (work : Nat → ι → Except ε β) (i : Nat) (item : ι) (r : Except ε β) : Prop :=
  r = work i item

section Works
variable (hresult : ∀ i item, items[i]? = some item → result i = work i item)
include hresult

theorem begin_ensures (i : Nat) (item : ι) (log : List Event) (hitem : items[i]? = some item) :
    (assurance (List Event)).ensures
      (fun o _ => True ∧ Started (IsWork work) (fun _ => True) i item o)
      ((c.service fun _ => result).begin i item) log := by
  show True ∧ Started _ _ i item (((c.service fun _ => result).begin i item).run log).1
  rw [Schedule.service_begin]
  split
  · exact ⟨trivial, hresult i item hitem⟩
  · exact ⟨trivial, trivial⟩

theorem await_ensures (first : Nat) (others : List Nat) (log : List Event) :
    (assurance (List Event)).ensures
      (fun out _ => True ∧ ∀ item, items[(first :: others).get out.1]? = some item →
        IsWork work ((first :: others).get out.1) item out.2)
      ((c.service fun _ => result : Service _ ι ε β).await first others) log :=
  ⟨trivial, fun item => hresult _ item⟩

/-- The batch at its end: the items up to some index have been taken, and each of them has the
result of its work. -/
theorem drive_results (policy : ErrorPolicy) (log : List Event) :
    ∃ k, Finished policy items k ((p.drive policy (c.service fun _ => result) items).run log).1 ∧
      Faithful items (IsWork work)
        ((p.drive policy (c.service fun _ => result) items).run log).1.results := by
  have hdrive := p.drive_ensures policy
    (kept_of_each (fun i item log hitem _ => begin_ensures c hresult i item log hitem)
      fun first others log _ _ => await_ensures c hresult first others log)
    (.start (u := log) trivial)
  obtain ⟨k, hfinished, htracked⟩ := hdrive
  exact ⟨k, hfinished, htracked.faithful⟩

end Works

section Ended
variable {policy : ErrorPolicy} {k : Nat} {b : Batch ι ε β} (h : Finished policy items k b)
  (hgood : Faithful items (IsWork work) b.results)
include h hgood

/-- The results stand in the order of the items that have been taken. -/
theorem slots_eq :
    slots items.length b = (items.take k).zipIdx.map fun x => work x.2 x.1 := by
  have hrange : List.range items.length = items.zipIdx.map Prod.snd := by
    rw [List.zipIdx_map_snd, List.range_eq_range']
  have htaken : ∀ x ∈ (items.take k).zipIdx,
      (b.result? ∘ Prod.snd) x = some (work x.2 x.1) := by
    rintro ⟨item, i⟩ hx
    have hitem := List.mem_zipIdx_iff_getElem?.mp hx
    have hi : i < k := by
      have := (List.getElem?_eq_some_iff.mp hitem).1
      simp only [List.length_take] at this
      omega
    rw [List.getElem?_take_of_lt hi] at hitem
    obtain ⟨r, hr, hwork⟩ := h.result hgood hi hitem
    exact hr.trans (congrArg some hwork)
  have hleft : ∀ x ∈ (items.drop k).zipIdx k, (b.result? ∘ Prod.snd) x = none := by
    intro x hx
    have hk : k ≤ x.2 := List.le_snd_of_mem_zipIdx hx
    have hnone : ¬ (b.result? x.2).isSome = true := fun hsome => by
      have := (h.result?_isSome_iff x.2).mp hsome
      omega
    simpa using hnone
  unfold slots
  rw [hrange, List.filterMap_map, zipIdx_split items h.le, List.filterMap_append,
    List.filterMap_eq_nil_iff.mpr hleft, List.append_nil, ← List.filterMap_eq_map]
  exact List.filterMap_congr htaken

/-- Where items have been left out, one of those before them has failed. -/
theorem left_out : k = items.length ∨
    ∃ i < k, ∃ item e, items[i]? = some item ∧ work i item = .error e := by
  rcases h.rest with hend | hhalts
  · exact .inl hend
  · obtain ⟨⟨i, r⟩, hmem, hfailed⟩ := List.any_eq_true.mp (Bool.and_eq_true_iff.mp hhalts).2
    have hi : i < k := List.mem_range.mp
      (h.complete.mem_iff.mp (List.mem_map_of_mem (f := Prod.fst) hmem))
    have hlt : i < items.length := Nat.lt_of_lt_of_le hi h.le
    have hitem : items[i]? = some items[i] := List.getElem?_eq_getElem hlt
    have hwork := hgood i r hmem _ hitem
    cases r with
    | ok v => simp at hfailed
    | error e => exact .inr ⟨i, hi, items[i], e, hitem, hwork.symm⟩

end Ended

section Results
variable (hresult : ∀ i item, items[i]? = some item → result i = work i item)
include hresult

theorem run_degrade (log : List Event) :
    ((p.run .degrade (c.service fun _ => result) items).run log).1 =
      .ok (items.zipIdx.map fun x => work x.2 x.1) := by
  obtain ⟨k, hfinished, hgood⟩ := drive_results p c hresult .degrade log
  have hslots := slots_eq hfinished hgood
  rw [hfinished.all, List.take_length] at hslots
  exact congrArg Except.ok hslots

theorem tryMap_inTurn (log : List Event) :
    ((p.tryMap (c.service fun _ => result) items).run log).1 = inTurn work items := by
  obtain ⟨k, hfinished, hgood⟩ := drive_results p c hresult .failFast log
  calc ((p.tryMap (c.service fun _ => result) items).run log).1
    _ = (slots items.length
          ((p.drive .failFast (c.service fun _ => result) items).run log).1).mapM id := rfl
    _ = inTurn work (items.take k) := by
      rw [slots_eq hfinished hgood, List.mapM_map]
      rfl
    _ = inTurn work items := inTurn_take hfinished.le (left_out hfinished hgood)

theorem mapOrElse_values (fallback : ι → ε → β) (log : List Event) :
    ((p.mapOrElse (c.service fun _ => result) fallback items).run log).1 =
      items.zipIdx.map fun x => valueOr (fallback x.1) (work x.2 x.1) := by
  have hvalues : (assurance (List Event)).ensures (fun vs _ => True ∧
      List.Forall₂ (fun x v => valueOr (fallback x.1) (work x.2 x.1) = v) items.zipIdx vs)
      (p.mapOrElse (c.service fun _ => result) fallback items) log :=
    p.mapOrElse_ensures (IsWork work) (fun _ => True) (fun _ => True)
      (P := fun i item v => valueOr (fallback item) (work i item) = v) trivial
      (fun i item log hitem _ => begin_ensures c hresult i item log hitem)
      (fun first others log _ _ => await_ensures c hresult first others log)
      (fun i item v hv => by rw [← hv]; rfl) (fun i item e he => by rw [← he]; rfl)
  have hmap := List.forall₂_map_left_iff.mpr hvalues.2
  rw [List.forall₂_eq_eq_eq] at hmap
  exact hmap.symm

end Results

/-- What a pool comes to does not depend on its schedule: it is what the items come to one after
the other. If some fail, the first of them decides, in whatever order they have failed. -/
theorem pool_maps_in_turn (concurrency : Nat) (fallback : ι → ε → β) (log : List Event)
    (hresult : ∀ i item, items[i]? = some item → result i = work i item) :
    let p := Pool.ofNat concurrency
    let s : Service (StateM (List Event)) ι ε β := c.service fun _ => result
    ((p.run .degrade s items).run log).1 = .ok (items.zipIdx.map fun x => work x.2 x.1) ∧
    ((p.mapOrElse s fallback items).run log).1 =
      (items.zipIdx.map fun x => valueOr (fallback x.1) (work x.2 x.1)) ∧
    ((p.tryMap s items).run log).1 = inTurn work items ∧
    (∀ vs : List β, (items.zipIdx.map fun x => work x.2 x.1) = vs.map Except.ok →
      ((p.tryMap s items).run log).1 = .ok vs) ∧
    ∀ i item e, items[i]? = some item → work i item = .error e →
      (∀ j < i, ∀ other, items[j]? = some other → ∃ v, work j other = .ok v) →
      ((p.tryMap s items).run log).1 = .error e := by
  intro p s
  have htry : ((p.tryMap s items).run log).1 = inTurn work items := tryMap_inTurn p c hresult log
  refine ⟨run_degrade p c hresult log, mapOrElse_values p c hresult fallback log, htry, ?_, ?_⟩
  · intro vs hvs
    exact htry.trans (inTurn_values hvs)
  · intro i item e hitem he hbefore
    exact htry.trans (inTurn_first_failure hitem he hbefore)

/-- Nothing ends at once, and the work that has been begun last ends first. -/
def backwards : Schedule where
  atOnce _ _ := false
  next _ _ others := Fin.last others.length

/-- The last item fails first and the second decides. -/
theorem pool_maps_in_turn_backwards :
    let work : Nat → Nat → Except Nat Nat := fun i item => if item = 0 then .ok 7 else .error i
    let s : Service (StateM (List Event)) Nat Nat Nat :=
      backwards.service fun _ i => if i = 0 then .ok 7 else .error i
    ((ofNat 3).tryMap s [0, 1, 1]).run [] = (.error 1, [.started 0, .started 1, .started 2,
      .waits, .ended 2 true, .waits, .ended 1 true, .waits, .ended 0 false]) ∧
    inTurn work [0, 1, 1] = .error 1 ∧
    (((ofNat 0).mapOrElse s (fun _ e => e) [0, 1, 1]).run []).1 = [7, 1, 2] := by
  intro work s
  have hresult : ∀ i item, [0, 1, 1][i]? = some item →
      (if i = 0 then .ok 7 else .error i : Except Nat Nat) = work i item := by
    intro i item hitem
    match i with
    | 0 => cases hitem; rfl
    | 1 => cases hitem; rfl
    | 2 => cases hitem; rfl
  have hthree := pool_maps_in_turn backwards 3 (fun _ e => e) [] hresult
  have hnone := pool_maps_in_turn backwards 0 (fun _ e => e) [] hresult
  refine ⟨Prod.ext ?_ rfl, ?_, hnone.2.1⟩
  · exact hthree.2.2.1
  · exact hthree.2.2.1.symm.trans (hthree.2.2.2.2 1 1 1 rfl rfl fun j hj other hother => by
      obtain rfl : j = 0 := by omega
      cases hother
      exact ⟨7, rfl⟩)

end Schedules
end Pool
end Quire
