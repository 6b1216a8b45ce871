import Quire.Pool
import Mathlib.Data.List.Perm.Basic
import Mathlib.Data.List.Forall2

/-! Batches, whatever their work does.

An `Assurance` is a way to be sure of what a computation comes to, from the state in which it
begins. Under one, a batch keeps whatever its works keep (`Batch.Kept`): a work that begins takes
the next item, with room for it among the workers; a work that ends is one of those in flight,
and while works are awaited every worker has one, unless nothing is left to hand out. So a batch
ends when each item that it has taken has its result, and those that it has not taken are the ones
behind a failure (`Pool.drive_ensures`). -/
namespace Quire

/-- What it means to be sure of what a computation comes to, and of the state after it. -/
structure Assurance (m : Type → Type v) [Monad m] (μ : Type) where
  ensures : {α : Type} → (α → μ → Prop) → m α → μ → Prop
  mono : ∀ {α : Type} {P Q : α → μ → Prop} {x : m α} {u : μ},
    ensures P x u → (∀ a v, P a v → Q a v) → ensures Q x u
  pure : ∀ {α : Type} {Q : α → μ → Prop} {a : α} {u : μ}, Q a u → ensures Q (Pure.pure a) u
  bind : ∀ {α β : Type} {Q : β → μ → Prop} {x : m α} {f : α → m β} {u : μ},
    ensures (fun a v => ensures Q (f a) v) x u → ensures Q (x >>= f) u

namespace Batch
open scoped List

variable {m : Type → Type v} [Monad m] {ι ε β μ : Type}

/-- The items with their indexes, as they wait in the beginning. -/
def queue (items : List ι) : List (Nat × ι) := items.zipIdx.map fun (item, i) => (i, item)

section Queue
variable {items : List ι} {k : Nat}

@[simp] theorem queue_length : (queue items).length = items.length := by simp [queue]

theorem queue_drop_cons (h : k < items.length) :
    (queue items).drop k = (k, items[k]) :: (queue items).drop (k + 1) := by
  have hk : k < (queue items).length := by simpa using h
  rw [List.drop_eq_getElem_cons hk]
  simp [queue]

theorem queue_drop_nil (h : (queue items).drop k = []) : items.length ≤ k := by
  simpa using List.drop_eq_nil_iff.mp h

theorem lt_of_queue_drop_cons {head : Nat × ι} {rest : List (Nat × ι)}
    (h : (queue items).drop k = head :: rest) : k < items.length := by
  by_contra hk
  have hnil : (queue items).drop k = [] := List.drop_eq_nil_of_le (by simpa using hk)
  simp [hnil] at h

end Queue

/-! ### Failures that end the handing out -/

/-- A result is a failure. -/
def failed (r : Except ε β) : Bool := ! r.isOk

@[simp] theorem failed_ok (v : β) : failed (.ok v : Except ε β) = false := rfl

@[simp] theorem failed_error (e : ε) : failed (.error e : Except ε β) = true := rfl

/-- Among the results is a failure after which nothing more is handed out. -/
def halts (policy : ErrorPolicy) (results : List (Nat × Except ε β)) : Bool :=
  policy == .failFast && results.any fun r => failed r.2

@[simp] theorem halts_degrade (results : List (Nat × Except ε β)) :
    halts .degrade results = false := rfl

@[simp] theorem halts_nil (policy : ErrorPolicy) :
    halts policy ([] : List (Nat × Except ε β)) = false := by simp [halts]

theorem halts_of_isPrefix {policy : ErrorPolicy} {results results' : List (Nat × Except ε β)}
    (h : results <+: results') (hhalts : halts policy results = true) :
    halts policy results' = true := by
  obtain ⟨more, rfl⟩ := h
  simp only [halts, List.any_append, Bool.and_eq_true, Bool.or_eq_true] at hhalts ⊢
  exact ⟨hhalts.1, .inl hhalts.2⟩

theorem record_stopped {policy : ErrorPolicy} {b : Batch ι ε β}
    (h : b.stopped = halts policy b.results) (i : Nat) (r : Except ε β) :
    (b.record policy i r).stopped = halts policy (b.record policy i r).results := by
  cases policy with
  | degrade => simp [record, h]
  | failFast => cases r <;> simp [record, h, halts]

/-! ### What works keep -/

section Keeping
variable (A : Assurance m μ) (policy : ErrorPolicy) (s : Service m ι ε β) (items : List ι)
  (workers : Nat)

/-- The first `k` items have been taken: they are in flight or have their results. -/
def Placed (k : Nat) (results : List (Nat × Except ε β)) (busy : List Nat) : Prop :=
  results.map Prod.fst ++ busy ~ List.range k

/-- Nothing is left to hand out. -/
def Exhausted (k : Nat) (results : List (Nat × Except ε β)) : Prop :=
  k = items.length ∨ halts policy results = true

/-- Nothing is left to hand out, or every worker is busy. -/
def Full (k : Nat) (results : List (Nat × Except ε β)) (busy : List Nat) : Prop :=
  Exhausted policy items k results ∨ busy.length = workers

/-- A property of how many items have been taken, which results there are, and the state, that no
work of a batch destroys. -/
structure Kept (J : Nat → List (Nat × Except ε β) → μ → Prop) : Prop where
  /-- The next item is taken by a worker that is free. -/
  begin : ∀ k item results busy u, items[k]? = some item → Placed k results busy →
    busy.length < workers → halts policy results = false → J k results u →
    A.ensures (fun o v => J (k + 1) (results ++ (o.map (k, ·)).toList) v) (s.begin k item) u
  /-- One of the works in flight ends. -/
  await : ∀ k results first others u, k ≤ items.length → Placed k results (first :: others) →
    (first :: others).length ≤ workers → Full policy items workers k results (first :: others) →
    J k results u →
    A.ensures (fun out v => J k (results ++ [((first :: others).get out.1, out.2)]) v)
      (s.await first others) u

/-- A batch under way: the first `k` items have been taken. -/
structure Taken (k : Nat) (b : Batch ι ε β) : Prop where
  le : k ≤ items.length
  waiting : b.waiting = (queue items).drop k
  stopped : b.stopped = halts policy b.results
  placed : Placed k b.results b.busy

/-- The workers have begun: while anything is left to hand out, each of them is busy. -/
structure Underway (k : Nat) (b : Batch ι ε β) : Prop extends Taken policy items k b where
  room : b.busy.length ≤ workers
  full : Full policy items workers k b.results b.busy

/-- A batch at its end: each item that has been taken has its result. -/
structure Finished (k : Nat) (b : Batch ι ε β) : Prop where
  le : k ≤ items.length
  complete : b.results.map Prod.fst ~ List.range k
  rest : Exhausted policy items k b.results

/-- What a worker does to a batch while others are `busy`: it takes items, one of which may be in
flight afterwards. -/
structure Fed (busy : List Nat) (b b' : Batch ι ε β) (taken : Option Nat) (k' : Nat) : Prop where
  le : k' ≤ items.length
  waiting : b'.waiting = (queue items).drop k'
  stopped : b'.stopped = halts policy b'.results
  same : b'.busy = b.busy
  grows : b.results <+: b'.results
  placed : Placed k' b'.results (taken.toList ++ busy)
  idle : taken = none → Exhausted policy items k' b'.results

end Keeping

section Steps
variable {A : Assurance m μ} {policy : ErrorPolicy} {s : Service m ι ε β} {items : List ι}
  {workers : Nat} {J : Nat → List (Nat × Except ε β) → μ → Prop} {k : Nat} {b : Batch ι ε β}
  {busy : List Nat} {results : List (Nat × Except ε β)} {u : μ}

theorem Placed.length (h : Placed k results busy) : results.length + busy.length = k := by
  have := List.Perm.length_eq h
  simpa using this

/-- One item more has been taken, and has its result. -/
theorem Placed.ended (h : Placed k results busy) (r : Except ε β) :
    Placed (k + 1) (results ++ [(k, r)]) busy := by
  unfold Placed at h ⊢
  calc (results ++ [(k, r)]).map Prod.fst ++ busy
    _ = results.map Prod.fst ++ ([k] ++ busy) := by simp
    _ ~ results.map Prod.fst ++ (busy ++ [k]) := List.perm_append_comm.append_left _
    _ = (results.map Prod.fst ++ busy) ++ [k] := by simp
    _ ~ List.range k ++ [k] := h.append_right _
    _ = List.range (k + 1) := List.range_succ.symm

/-- One item more has been taken, and is in flight. -/
theorem Placed.begun (h : Placed k results busy) : Placed (k + 1) results (k :: busy) := by
  unfold Placed at h ⊢
  calc results.map Prod.fst ++ (k :: busy)
    _ ~ k :: (results.map Prod.fst ++ busy) := List.perm_middle
    _ ~ k :: List.range k := h.cons k
    _ ~ List.range k ++ [k] := (List.perm_append_singleton k _).symm
    _ = List.range (k + 1) := List.range_succ.symm

/-- A work in flight has its result. -/
theorem Placed.recorded (h : Placed k results busy) (place : Fin busy.length) (r : Except ε β) :
    Placed k (results ++ [(busy.get place, r)]) (busy.eraseIdx place) := by
  unfold Placed at h ⊢
  calc (results ++ [(busy.get place, r)]).map Prod.fst ++ busy.eraseIdx place
    _ = results.map Prod.fst ++ (busy.get place :: busy.eraseIdx place) := by simp
    _ ~ results.map Prod.fst ++ busy :=
      (List.getElem_cons_eraseIdx_perm place.isLt).append_left _
    _ ~ List.range k := h

/-- An item in flight has been taken and has no result yet. -/
theorem Placed.inFlight (h : Placed k results busy) {i : Nat} (hi : i ∈ busy) :
    i < k ∧ i ∉ results.map Prod.fst := by
  have hmem : i ∈ List.range k := (List.Perm.mem_iff h).mp (List.mem_append_right _ hi)
  have hnodup := (List.Perm.nodup_iff h).mpr List.nodup_range
  exact ⟨List.mem_range.mp hmem, fun hdone => (List.nodup_append.mp hnodup).2.2 i hdone i hi rfl⟩

/-- The item after those that have been taken has no result. -/
theorem Placed.next (h : Placed k results busy) : k ∉ results.map Prod.fst := by
  intro hmem
  have htaken : k ∈ List.range k := (List.Perm.mem_iff h).mp (List.mem_append_left busy hmem)
  exact Nat.lt_irrefl k (List.mem_range.mp htaken)

theorem Placed.perm (h : Placed k results busy) {busy' : List Nat} (hb : busy' ~ busy) :
    Placed k results busy' := (hb.append_left _).trans h

/-- A free worker takes items from the `k`-th on. -/
theorem feed_ensures (hs : Kept A policy s items workers J) (hk : k ≤ items.length)
    (hstopped : b.stopped = halts policy b.results) (hplaced : Placed k b.results busy)
    (hroom : busy.length < workers) (hJ : J k b.results u) :
    A.ensures (fun out v => ∃ k', Fed policy items busy b out.1 out.2 k' ∧ J k' out.1.results v)
      (b.feed policy s ((queue items).drop k)) u := by
  induction hl : (queue items).drop k generalizing k b u with
  | nil =>
    have hend : k = items.length := Nat.le_antisymm hk (queue_drop_nil hl)
    exact A.pure ⟨k, ⟨hk, hl.symm, hstopped, rfl, List.prefix_rfl, hplaced, fun _ => .inl hend⟩, hJ⟩
  | cons head rest ih =>
    have hlt : k < items.length := lt_of_queue_drop_cons hl
    have hqueue := queue_drop_cons hlt
    obtain ⟨rfl, hrest⟩ := List.cons.inj (hqueue.symm.trans hl)
    have hitem : items[k]? = some items[k] := List.getElem?_eq_getElem hlt
    unfold feed
    by_cases hstop : b.stopped = true
    · have hhalts : halts policy b.results = true := hstopped ▸ hstop
      rw [if_pos hstop]
      exact A.pure ⟨k, ⟨hk, hl.symm, hstopped, rfl, List.prefix_rfl, hplaced, fun _ => .inr hhalts⟩,
        hJ⟩
    · have hgoing : halts policy b.results = false := hstopped ▸ Bool.eq_false_iff.mpr hstop
      rw [if_neg hstop]
      refine A.bind (A.mono (hs.begin k _ _ _ u hitem hplaced hroom hgoing hJ) fun o v ho => ?_)
      cases o with
      | none =>
        have hJ' : J (k + 1) b.results v := by simpa using ho
        exact A.pure ⟨k + 1, ⟨hlt, hrest.symm, hstopped, rfl, List.prefix_rfl, hplaced.begun, nofun⟩,
          hJ'⟩
      | some r =>
        -- The item has its result at once: the worker goes on with the rest.
        have hnext := ih (b := b.record policy k r) hlt (record_stopped hstopped k r)
          (hplaced.ended r) ho hrest
        refine A.mono hnext fun out w hout => ?_
        obtain ⟨k', hfed, hJ'⟩ := hout
        have hgrows : b.results <+: out.1.results :=
          (List.prefix_append _ [(k, r)]).trans hfed.grows
        exact ⟨k', ⟨hfed.le, hfed.waiting, hfed.stopped, hfed.same, hgrows, hfed.placed, hfed.idle⟩,
          hJ'⟩

/-- A worker that takes an item is one more busy worker. -/
theorem Fed.hire {b' : Batch ι ε β} {taken : Option Nat} {k' : Nat}
    (h : Fed policy items b.busy b b' taken k') :
    Taken policy items k' { b' with busy := b'.busy ++ taken.toList } := by
  refine ⟨h.le, h.waiting, h.stopped, ?_⟩
  rw [h.same]
  exact h.placed.perm List.perm_append_comm

/-- Where nothing was left to hand out, nothing is left afterwards. -/
theorem Fed.exhausted {b' : Batch ι ε β} {taken : Option Nat} {k' : Nat}
    (h : Fed policy items busy b b' taken k') (hplaced : Placed k b.results busy)
    (hdone : Exhausted policy items k b.results) : Exhausted policy items k' b'.results := by
  rcases hdone with hend | hhalts
  · left
    have hbefore := hplaced.length
    have hafter := h.placed.length
    have hgrows := h.grows.length_le
    have hle := h.le
    simp only [List.length_append] at hafter
    omega
  · exact .inr (halts_of_isPrefix h.grows hhalts)

/-- The workers begin one after the other. -/
theorem launch_ensures (hs : Kept A policy s items workers J) (left : Nat)
    (h : Taken policy items k b) (hJ : J k b.results u) (hroom : b.busy.length + left ≤ workers)
    (hfull : Exhausted policy items k b.results ∨ b.busy.length + left = workers) :
    A.ensures (fun b' v => ∃ k', Underway policy items workers k' b' ∧ J k' b'.results v)
      (launch policy s left b) u := by
  induction left generalizing k b u with
  | zero => exact A.pure ⟨k, ⟨h, hroom, hfull⟩, hJ⟩
  | succ left ih =>
    unfold launch
    rw [h.waiting]
    have hfree : b.busy.length < workers := by omega
    refine A.bind (A.mono (feed_ensures hs h.le h.stopped h.placed hfree hJ) fun out v hout => ?_)
    obtain ⟨b', taken⟩ := out
    obtain ⟨k', hfed, hJ'⟩ := hout
    have hlength : (b'.busy ++ taken.toList).length = b.busy.length + taken.toList.length := by
      rw [List.length_append, hfed.same]
    have hone : taken.toList.length ≤ 1 := by cases taken <;> simp
    refine ih hfed.hire hJ' (by dsimp only; omega) ?_
    rcases hfull with hdone | hall
    · exact .inl (hfed.exhausted h.placed hdone)
    · cases taken with
      | none => exact .inl (hfed.idle rfl)
      | some j =>
        right
        simp only [Option.toList_some, List.length_singleton] at hlength
        dsimp only
        rw [Option.toList_some]
        omega

/-- Who is busy after a work has ended and its worker has taken another item, or none. -/
def relieve (busy : List Nat) (place : Nat) : Option Nat → List Nat
  | some j => busy.set place j
  | none => busy.eraseIdx place

theorem relieve_perm {busy : List Nat} {place : Nat} (h : place < busy.length)
    (taken : Option Nat) : relieve busy place taken ~ taken.toList ++ busy.eraseIdx place := by
  cases taken with
  | none => exact List.Perm.refl _
  | some j => exact List.set_perm_cons_eraseIdx h j

/-- A work has ended, and its worker takes the next items. -/
theorem Underway.proceed (h : Underway policy items workers k b) {i : Nat} {others : List Nat}
    (hbusy : b.busy = i :: others) (place : Fin (i :: others).length) {r : Except ε β}
    {b' : Batch ι ε β} {taken : Option Nat} {k' : Nat}
    (hfed : Fed policy items ((i :: others).eraseIdx place)
      (b.record policy ((i :: others).get place) r) b' taken k') :
    Underway policy items workers k' { b' with busy := relieve (i :: others) place taken } := by
  have hrecorded := Placed.recorded (hbusy ▸ h.placed) place r
  have hperm := relieve_perm place.isLt taken
  have hlength : (relieve (i :: others) place taken).length =
      taken.toList.length + others.length := by
    rw [hperm.length_eq, List.length_append, List.length_eraseIdx_of_lt place.isLt]
    simp
  have hroom := h.room
  have hfull := h.full
  rw [hbusy, List.length_cons] at hroom
  rw [hbusy] at hfull
  refine ⟨⟨hfed.le, hfed.waiting, hfed.stopped, hfed.placed.perm hperm⟩, ?_, ?_⟩
  · have hone : taken.toList.length ≤ 1 := by cases taken <;> simp
    dsimp only
    omega
  · rcases hfull with hdone | hall
    · refine .inl (hfed.exhausted hrecorded (hdone.imp_right fun hhalts => ?_))
      exact halts_of_isPrefix (List.prefix_append _ _) hhalts
    · cases taken with
      | none => exact .inl (hfed.idle rfl)
      | some j => exact .inr (by simpa [Nat.add_comm, hlength] using hall)

/-- A batch in which no work is in flight is at its end. -/
theorem Underway.finished (h : Underway policy items workers k b) (hbusy : b.busy = [])
    (hworkers : workers = 0 → items = []) : Finished policy items k b := by
  have hplaced := h.placed
  rw [hbusy, Placed, List.append_nil] at hplaced
  refine ⟨h.le, hplaced, ?_⟩
  rcases h.full with hdone | hnone
  · exact hdone
  · have hitems : items = [] := hworkers (by simpa [hbusy] using hnone.symm)
    have hle := h.le
    left
    simp only [hitems, List.length_nil] at hle ⊢
    omega

/-- With room for as many works as results are missing, a batch comes to its end. -/
theorem drain_ensures (hs : Kept A policy s items workers J) (hworkers : workers = 0 → items = [])
    (left : Nat) (h : Underway policy items workers k b) (hJ : J k b.results u)
    (hleft : items.length ≤ left + b.results.length) :
    A.ensures (fun b' v => ∃ k', Finished policy items k' b' ∧ J k' b'.results v)
      (drain policy s left b) u := by
  induction left generalizing k b u with
  | zero =>
    have hlength := h.placed.length
    have hle := h.le
    have hidle : b.busy = [] := List.length_eq_zero_iff.mp (by omega)
    exact A.pure ⟨k, h.finished hidle hworkers, hJ⟩
  | succ left ih =>
    unfold drain
    cases hbusy : b.busy with
    | nil => exact A.pure ⟨k, h.finished hbusy hworkers, hJ⟩
    | cons i others =>
      have hplaced : Placed k b.results (i :: others) := hbusy ▸ h.placed
      refine A.bind (A.mono (hs.await k _ _ _ u h.le hplaced (hbusy ▸ h.room) (hbusy ▸ h.full) hJ)
        fun out v hout => ?_)
      obtain ⟨place, r⟩ := out
      dsimp only
      rw [h.waiting]
      have hfree : ((i :: others).eraseIdx place).length < workers := by
        have hroom := h.room
        rw [hbusy, List.length_cons] at hroom
        rw [List.length_eraseIdx_of_lt place.isLt, List.length_cons]
        omega
      refine A.bind (A.mono (feed_ensures hs h.le (record_stopped h.stopped _ r)
        (hplaced.recorded place r) hfree hout) fun out' v' hout' => ?_)
      obtain ⟨b', taken⟩ := out'
      obtain ⟨k', hfed, hJ'⟩ := hout'
      have hnext := h.proceed hbusy place hfed
      refine ih (b := { b' with busy := relieve (i :: others) place taken }) hnext hJ' ?_
      -- The work that has ended is one more result.
      have hgrows := hfed.grows.length_le
      simp only [record, List.length_append, List.length_singleton] at hgrows
      dsimp only
      omega

end Steps

/-! ### Results -/

section Results
variable {items : List ι} {Good : Nat → ι → Except ε β → Prop} {Pending : Nat → Prop}
  {policy : ErrorPolicy} {b : Batch ι ε β} {k : Nat}

/-- The work on an item has ended at once with a result, or it goes on. -/
def Started (Good : Nat → ι → Except ε β → Prop) (Pending : Nat → Prop) (i : Nat) (item : ι) :
    Option (Except ε β) → Prop
  | some r => Good i item r
  | none => Pending i

/-- Every result is one that its item may have. -/
def Faithful (items : List ι) (Good : Nat → ι → Except ε β → Prop)
    (results : List (Nat × Except ε β)) : Prop :=
  ∀ i r, (i, r) ∈ results → ∀ item, items[i]? = some item → Good i item r

theorem Faithful.record {results : List (Nat × Except ε β)} (h : Faithful items Good results)
    {i : Nat} {r : Except ε β} (hr : ∀ item, items[i]? = some item → Good i item r) :
    Faithful items Good (results ++ [(i, r)]) := by
  intro j r' hmem item hitem
  rcases List.mem_append.mp hmem with hold | hnew
  · exact h j r' hold item hitem
  · obtain ⟨rfl, rfl⟩ : j = i ∧ r' = r := by simpa using hnew
    exact hr item hitem

/-- What is known of the work on each item, while a property of the state lasts: of the results that
are there, and of the works in flight. -/
structure Tracked (items : List ι) (Good : Nat → ι → Except ε β → Prop) (Pending : Nat → Prop)
    (Inv : μ → Prop) (k : Nat) (results : List (Nat × Except ε β)) (u : μ) : Prop where
  state : Inv u
  faithful : Faithful items Good results
  pending : ∀ i < k, i ∉ results.map Prod.fst → Pending i

theorem Tracked.start {Inv : μ → Prop} {u : μ} (hu : Inv u) :
    Tracked items Good Pending Inv 0 [] u where
  state := hu
  faithful _ _ hmem := nomatch hmem
  pending i hi := absurd hi (Nat.not_lt_zero i)

/-- What is known of the work on each item is kept by a batch. -/
theorem kept_of_each {A : Assurance m μ} {s : Service m ι ε β} {workers : Nat} {Inv : μ → Prop}
    (hbegin : ∀ i item u, items[i]? = some item → Inv u →
      A.ensures (fun o v => Inv v ∧ Started Good Pending i item o) (s.begin i item) u)
    (hawait : ∀ first others u, (∀ i ∈ first :: others, Pending i) → Inv u →
      A.ensures (fun out v => Inv v ∧ ∀ item, items[(first :: others).get out.1]? = some item →
        Good ((first :: others).get out.1) item out.2) (s.await first others) u) :
    Kept A policy s items workers (Tracked items Good Pending Inv) where
  begin k item results busy u hitem _ _ _ hJ := by
    refine A.mono (hbegin k item u hitem hJ.state) fun o v ho => ?_
    cases o with
    | none =>
      rw [Option.map_none, Option.toList_none, List.append_nil]
      refine ⟨ho.1, hJ.faithful, fun i hi hmem => ?_⟩
      rcases Nat.lt_succ_iff_lt_or_eq.mp hi with hlt | rfl
      · exact hJ.pending i hlt hmem
      · exact ho.2
    | some r =>
      have hr : ∀ item', items[k]? = some item' → Good k item' r := by
        intro item' hitem'
        obtain rfl : item = item' := Option.some.inj (hitem.symm.trans hitem')
        exact ho.2
      refine ⟨ho.1, hJ.faithful.record hr, fun i hi hmem => ?_⟩
      simp only [Option.map_some, Option.toList_some, List.map_append, List.map_cons,
        List.map_nil, List.mem_append, List.mem_singleton, not_or] at hmem
      exact hJ.pending i (by omega) hmem.1
  await k results first others u _ hplaced _ _ hJ := by
    have hflight : ∀ i ∈ first :: others, Pending i := by
      intro i hi
      obtain ⟨htaken, hopen⟩ := hplaced.inFlight hi
      exact hJ.pending i htaken hopen
    refine A.mono (hawait first others u hflight hJ.state) fun out v hout => ?_
    refine ⟨hout.1, hJ.faithful.record hout.2, fun i hi hmem => ?_⟩
    simp only [List.map_append, List.mem_append, not_or] at hmem
    exact hJ.pending i hi hmem.1

/-- The result of an item stands among the results. -/
theorem mem_of_result? {i : Nat} {r : Except ε β} (h : b.result? i = some r) :
    (i, r) ∈ b.results := by
  obtain ⟨⟨j, r'⟩, hfound, rfl⟩ := Option.map_eq_some_iff.mp h
  obtain rfl : j = i := by simpa using List.find?_some hfound
  exact List.mem_of_find?_eq_some hfound

/-- An item has a result exactly if it has been taken. -/
theorem Finished.result?_isSome_iff (h : Finished policy items k b) (i : Nat) :
    (b.result? i).isSome = true ↔ i < k := by
  have hmem : i ∈ b.results.map Prod.fst ↔ i < k :=
    h.complete.mem_iff.trans List.mem_range
  rw [← hmem]
  simp [result?, List.find?_isSome]

/-- Every item that has been taken has a result that it may have. -/
theorem Finished.result (h : Finished policy items k b) (hgood : Faithful items Good b.results)
    {i : Nat} (hi : i < k) {item : ι} (hitem : items[i]? = some item) :
    ∃ r, b.result? i = some r ∧ Good i item r := by
  obtain ⟨r, hr⟩ := Option.isSome_iff_exists.mp ((h.result?_isSome_iff i).mpr hi)
  exact ⟨r, hr, hgood i r (mem_of_result? hr) item hitem⟩

/-- A batch that failures do not stop has taken every item. -/
theorem Finished.all (h : Finished .degrade items k b) : k = items.length :=
  h.rest.resolve_right (by simp)

/-- Values that are there for all of a list stand one for one beside it. -/
theorem forall₂_filterMap {κ : Type} {P : κ → β → Prop} {f : κ → Option β} {l : List κ}
    (h : ∀ x ∈ l, ∃ v, f x = some v ∧ P x v) : List.Forall₂ P l (l.filterMap f) := by
  induction l with
  | nil => exact .nil
  | cons x rest ih =>
    obtain ⟨v, hv, hP⟩ := h x List.mem_cons_self
    rw [List.filterMap_cons_some hv]
    exact .cons hP (ih fun y hy => h y (List.mem_cons_of_mem x hy))

end Results
end Batch

namespace Pool
open scoped List

variable {m : Type → Type v} [Monad m] {ι ε β μ : Type} {A : Assurance m μ} {policy : ErrorPolicy}
  {s : Service m ι ε β} {items : List ι} {Good : Nat → ι → Except ε β → Prop}
  {Pending : Nat → Prop}

/-- A batch ends when each item that it has taken has its result, and it keeps what its works
keep. -/
theorem drive_ensures (p : Pool) (policy : ErrorPolicy)
    {J : Nat → List (Nat × Except ε β) → μ → Prop}
    (hs : Batch.Kept A policy s items (min p.concurrency items.length) J) {u : μ}
    (hJ : J 0 [] u) :
    A.ensures (fun b v => ∃ k, Batch.Finished policy items k b ∧ J k b.results v)
      (p.drive policy s items) u := by
  have hstart : Batch.Taken policy items 0
      (⟨Batch.queue items, [], [], false⟩ : Batch ι ε β) :=
    ⟨Nat.zero_le _, rfl, (Batch.halts_nil policy).symm, List.Perm.refl _⟩
  have hworkers : min p.concurrency items.length = 0 → items = [] := by
    intro hnone
    have := p.one_le
    exact List.length_eq_zero_iff.mp (by omega)
  have hlaunch := Batch.launch_ensures hs (min p.concurrency items.length) hstart hJ
    (Nat.le_of_eq (Nat.zero_add _)) (.inr (Nat.zero_add _))
  refine A.bind (A.mono hlaunch fun b v hb => ?_)
  obtain ⟨k, hunderway, hJ'⟩ := hb
  exact Batch.drain_ensures hs hworkers items.length hunderway hJ' (Nat.le_add_right _ _)

/-- Every item gets a value: its own or, for a failure, one that stands in for it; and the batch
keeps what its works keep. -/
theorem mapOrElse_kept (p : Pool) {J : Nat → List (Nat × Except ε β) → μ → Prop}
    (hs : Batch.Kept A .degrade s items (min p.concurrency items.length) J)
    (fallback : ι → ε → β) {u : μ} (hJ : J 0 [] u) :
    A.ensures (fun vs v => ∃ results,
        results.map Prod.fst ~ List.range items.length ∧ J items.length results v ∧
          List.Forall₂ (fun x value => items[x.2]? = some x.1 ∧ ∃ r, (x.2, r) ∈ results ∧
            value = match r with
              | .ok own => own
              | .error e => fallback x.1 e) items.zipIdx vs)
      (p.mapOrElse s fallback items) u := by
  refine A.bind (A.mono (p.drive_ensures .degrade hs hJ) fun b v hb => A.pure ?_)
  obtain ⟨k, hfinished, hkept⟩ := hb
  obtain rfl := hfinished.all
  refine ⟨b.results, hfinished.complete, hkept, Batch.forall₂_filterMap fun x hx => ?_⟩
  obtain ⟨item, i⟩ := x
  have hitem : items[i]? = some item := List.mem_zipIdx_iff_getElem?.mp hx
  have hi : i < items.length := (List.getElem?_eq_some_iff.mp hitem).1
  obtain ⟨r, hr⟩ := Option.isSome_iff_exists.mp ((hfinished.result?_isSome_iff i).mpr hi)
  dsimp only
  rw [hr]
  exact ⟨_, rfl, hitem, r, Batch.mem_of_result? hr, rfl⟩

/-- Every item gets a value that it may have. -/
theorem mapOrElse_ensures (p : Pool) (Good : Nat → ι → Except ε β → Prop) (Pending : Nat → Prop)
    (Inv : μ → Prop) {fallback : ι → ε → β} {P : Nat → ι → β → Prop} {u : μ} (hu : Inv u)
    (hbegin : ∀ i item u, items[i]? = some item → Inv u →
      A.ensures (fun o v => Inv v ∧ Batch.Started Good Pending i item o) (s.begin i item) u)
    (hawait : ∀ first others u, (∀ i ∈ first :: others, Pending i) → Inv u →
      A.ensures (fun out v => Inv v ∧ ∀ item, items[(first :: others).get out.1]? = some item →
        Good ((first :: others).get out.1) item out.2) (s.await first others) u)
    (hvalue : ∀ i item v, Good i item (.ok v) → P i item v)
    (hfallback : ∀ i item e, Good i item (.error e) → P i item (fallback item e)) :
    A.ensures (fun vs v => Inv v ∧ List.Forall₂ (fun x => P x.2 x.1) items.zipIdx vs)
      (p.mapOrElse s fallback items) u := by
  refine A.mono (p.mapOrElse_kept (Batch.kept_of_each hbegin hawait) fallback (.start hu))
    fun vs v hvs => ?_
  obtain ⟨results, -, ⟨hv, hgood, -⟩, hvalues⟩ := hvs
  refine ⟨hv, hvalues.imp fun x value hvalue' => ?_⟩
  obtain ⟨hitem, r, hr, rfl⟩ := hvalue'
  have hfits := hgood _ r hr _ hitem
  cases r with
  | ok own => exact hvalue _ _ own hfits
  | error e => exact hfallback _ _ e hfits

end Pool
end Quire
