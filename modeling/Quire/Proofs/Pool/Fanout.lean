import Quire.Proofs.Pool.Schedule

/-! How many works of a pool are in flight.

The log of a schedule tells of every moment: its beginnings are what had happened by then. Items are
taken in their order, by no more workers than there are; as long as any is left to take, nobody
waits with a worker free. What a batch knows of its items is what its log says of them (`Seen`), so
the counts of the log are those of the batch. -/
namespace Quire
namespace Pool
open Batch
open scoped List

/-- The works that have been begun, in order. -/
def started (log : List Event) : List Nat :=
  log.filterMap fun
    | .started i => some i
    | _ => none

/-- The works that have ended, in order, and whether they have failed. -/
def ended (log : List Event) : List (Nat × Bool) :=
  log.filterMap fun
    | .ended i failed => some (i, failed)
    | _ => none

/-- The works that have been begun and have not ended. -/
def inFlight (log : List Event) : List Nat :=
  (started log).filter (· ∉ (ended log).map Prod.fst)

section Log
variable (log : List Event)

@[simp] theorem started_nil : started [] = [] := rfl

@[simp] theorem ended_nil : ended [] = [] := rfl

@[simp] theorem inFlight_nil : inFlight [] = [] := rfl

@[simp] theorem started_begun (i : Nat) :
    started (log ++ [.started i]) = started log ++ [i] := by simp [started]

@[simp] theorem started_ended (i : Nat) (f : Bool) :
    started (log ++ [.ended i f]) = started log := by simp [started]

@[simp] theorem started_waits : started (log ++ [.waits]) = started log := by simp [started]

@[simp] theorem ended_begun (i : Nat) : ended (log ++ [.started i]) = ended log := by simp [ended]

@[simp] theorem ended_ended (i : Nat) (f : Bool) :
    ended (log ++ [.ended i f]) = ended log ++ [(i, f)] := by simp [ended]

@[simp] theorem ended_waits : ended (log ++ [.waits]) = ended log := by simp [ended]

end Log

/-! ### The log and the batch -/

section Seeing
variable {ε β : Type} {log : List Event} {k : Nat} {results : List (Nat × Except ε β)}
  {busy : List Nat} {policy : ErrorPolicy}

/-- The log says what the batch knows: the first `k` items have been begun, and these are the
results. -/
structure Seen (k : Nat) (results : List (Nat × Except ε β)) (log : List Event) : Prop where
  started : started log = List.range k
  ended : ended log = results.map fun x => (x.1, failed x.2)

theorem Seen.ended_index (h : Seen k results log) :
    (Pool.ended log).map Prod.fst = results.map Prod.fst := by
  simp [h.ended]

theorem Seen.begun (h : Seen k results log) : Seen (k + 1) results (log ++ [.started k]) where
  started := by rw [started_begun, h.started, List.range_succ]
  ended := by rw [ended_begun, h.ended]

theorem Seen.recorded (h : Seen k results log) (i : Nat) (r : Except ε β) :
    Seen k (results ++ [(i, r)]) (log ++ [.ended i (failed r)]) where
  started := by rw [started_ended, h.started]
  ended := by simp [h.ended]

theorem Seen.waited (h : Seen k results log) : Seen k results (log ++ [.waits]) where
  started := by rw [started_waits, h.started]
  ended := by rw [ended_waits, h.ended]

/-- The works in flight by the log are those of the workers. -/
theorem Seen.inFlight_perm (h : Seen k results log) (hplaced : Placed k results busy) :
    inFlight log ~ busy := by
  have hnodup : (results.map Prod.fst ++ busy).Nodup :=
    (List.Perm.nodup_iff hplaced).mpr List.nodup_range
  have hapart := (List.nodup_append.mp hnodup).2.2
  have hdone : (results.map Prod.fst).filter (· ∉ results.map Prod.fst) = [] := by simp
  have hbusy : busy.filter (· ∉ results.map Prod.fst) = busy := by
    rw [List.filter_eq_self]
    intro i hi
    exact decide_eq_true fun hmem => hapart i hmem i hi rfl
  calc inFlight log
    _ = (List.range k).filter (· ∉ results.map Prod.fst) := by
      rw [inFlight, h.started, h.ended_index]
    _ ~ (results.map Prod.fst ++ busy).filter (· ∉ results.map Prod.fst) :=
      (List.Perm.symm hplaced).filter _
    _ = busy := by rw [List.filter_append, hdone, hbusy, List.nil_append]

/-- Failures stop the batch as soon as the log tells of one. -/
theorem Seen.halts_iff (h : Seen k results log) :
    halts policy results = true ↔ policy = .failFast ∧ ∃ x ∈ Pool.ended log, x.2 = true := by
  simp [halts, h.ended]

/-- A batch goes on as long as the log tells of no failure that ends it. -/
theorem Seen.goes_on (h : Seen k results log)
    (hgoing : policy = .degrade ∨ ∀ x ∈ Pool.ended log, x.2 = false) :
    ¬ halts policy results = true := by
  rw [h.halts_iff]
  rintro ⟨rfl, x, hx, hfailed⟩
  rcases hgoing with hpolicy | hnone
  · cases hpolicy
  · simp [hnone x hx] at hfailed

end Seeing

/-! ### What a log tells -/

/-- How a pool of that many workers goes about that many items. -/
structure Orderly (workers items : Nat) (policy : ErrorPolicy) (log : List Event) : Prop where
  /-- At every moment only works that have been begun have ended. -/
  known : ∀ before, before <+: log → (ended before).map Prod.fst ⊆ started before
  /-- At every moment there is a worker for each work in flight. -/
  bounded : ∀ before, before <+: log → (inFlight before).length ≤ workers
  /-- No item is begun after a failure that ends the batch. -/
  heedful : ∀ before i, before ++ [.started i] <+: log → policy = .failFast →
    ∀ x ∈ ended before, x.2 = false
  /-- While something is left to begin, all workers wait together only if each has a work. -/
  full : ∀ before, before ++ [.waits] <+: log → (started before).length < items →
    (policy = .degrade ∨ ∀ x ∈ ended before, x.2 = false) → (inFlight before).length = workers

section Logs
variable {workers items : Nat} {policy : ErrorPolicy} {log : List Event} {e : Event}

theorem Orderly.nil : Orderly workers items policy [] where
  known before h := by simp [List.prefix_nil.mp h]
  bounded before h := by simp [List.prefix_nil.mp h]
  heedful before i h := by simp at h
  full before h := by simp at h

/-- One more event: the moments are those before, and the one after it. -/
theorem Orderly.snoc (h : Orderly workers items policy log)
    (hknown : (ended (log ++ [e])).map Prod.fst ⊆ started (log ++ [e]))
    (hbounded : (inFlight (log ++ [e])).length ≤ workers)
    (hheedful : ∀ i, e = .started i → policy = .failFast → ∀ x ∈ ended log, x.2 = false)
    (hfull : e = .waits → (started log).length < items →
      (policy = .degrade ∨ ∀ x ∈ ended log, x.2 = false) → (inFlight log).length = workers) :
    Orderly workers items policy (log ++ [e]) where
  known before hbefore := by
    rcases List.prefix_concat_iff.mp hbefore with rfl | hold
    · exact hknown
    · exact h.known before hold
  bounded before hbefore := by
    rcases List.prefix_concat_iff.mp hbefore with rfl | hold
    · exact hbounded
    · exact h.bounded before hold
  heedful before i hbefore := by
    rcases List.prefix_concat_iff.mp hbefore with hnew | hold
    · obtain ⟨rfl, hlast⟩ := List.append_inj' hnew rfl
      exact hheedful i (List.cons.inj hlast).1.symm
    · exact h.heedful before i hold
  full before hbefore := by
    rcases List.prefix_concat_iff.mp hbefore with hnew | hold
    · obtain ⟨rfl, hlast⟩ := List.append_inj' hnew rfl
      exact hfull (List.cons.inj hlast).1.symm
    · exact h.full before hold

end Logs

section Keeping
variable {ι ε β : Type} {policy : ErrorPolicy} {workers n k : Nat} {log : List Event}
  {results : List (Nat × Except ε β)} {busy : List Nat}

/-- The log of a batch under way. -/
structure Watched (workers n : Nat) (policy : ErrorPolicy) (k : Nat)
    (results : List (Nat × Except ε β)) (log : List Event) : Prop extends Seen k results log where
  orderly : Orderly workers n policy log

theorem Watched.nil : Watched workers n policy 0 ([] : List (Nat × Except ε β)) [] :=
  ⟨⟨rfl, rfl⟩, .nil⟩

section Facts
variable (hseen : Seen k results log) (hplaced : Placed k results busy)
include hseen hplaced

theorem Seen.known : (Pool.ended log).map Prod.fst ⊆ Pool.started log := by
  rw [hseen.ended_index, hseen.started]
  intro i hi
  exact (List.Perm.mem_iff hplaced).mp (List.mem_append_left _ hi)

theorem Seen.inFlight_length : (inFlight log).length = busy.length :=
  (hseen.inFlight_perm hplaced).length_eq

end Facts

theorem Watched.begun (h : Watched workers n policy k results log)
    (hplaced : Placed k results busy) (hroom : busy.length < workers)
    (hgoing : halts policy results = false) :
    Watched workers n policy (k + 1) results (log ++ [.started k]) := by
  have hseen := h.toSeen.begun
  have hbegun := hplaced.begun
  refine ⟨hseen, h.orderly.snoc (hseen.known hbegun) ?_ ?_ nofun⟩
  · rw [hseen.inFlight_length hbegun]
    exact hroom
  · rintro i - rfl x hx
    by_contra hfailed
    have hhalts := h.toSeen.halts_iff.mpr ⟨rfl, x, hx, by simpa using hfailed⟩
    simp [hgoing] at hhalts

theorem Watched.recorded (h : Watched workers n policy k results log)
    (hplaced : Placed k results busy) (hroom : busy.length ≤ workers) (place : Fin busy.length)
    (r : Except ε β) :
    Watched workers n policy k (results ++ [(busy.get place, r)])
      (log ++ [.ended (busy.get place) (failed r)]) := by
  have hseen := h.toSeen.recorded (busy.get place) r
  have hrecorded := hplaced.recorded place r
  refine ⟨hseen, h.orderly.snoc (hseen.known hrecorded) ?_ nofun nofun⟩
  rw [hseen.inFlight_length hrecorded]
  exact Nat.le_trans (List.length_eraseIdx_le _ _) hroom

theorem Watched.waited {items : List ι} (h : Watched workers items.length policy k results log)
    (hplaced : Placed k results busy) (hroom : busy.length ≤ workers)
    (hfull : Full policy items workers k results busy) :
    Watched workers items.length policy k results (log ++ [.waits]) := by
  have hseen := h.toSeen.waited
  refine ⟨hseen, h.orderly.snoc (hseen.known hplaced) ?_ nofun ?_⟩
  · rw [hseen.inFlight_length hplaced]
    exact hroom
  · rintro - hleft hgoing
    rw [h.started, List.length_range] at hleft
    rw [h.toSeen.inFlight_length hplaced]
    refine hfull.resolve_left fun hdone => ?_
    rcases hdone with hend | hhalts
    · omega
    · exact h.toSeen.goes_on hgoing hhalts

/-- What the log of a batch tells is kept by all its works. -/
theorem kept_watched (c : Schedule) (result : List Event → Nat → Except ε β) (items : List ι) :
    Kept (assurance (List Event)) policy (c.service result) items workers
      (Watched workers items.length policy) where
  begin k item results busy log _ hplaced hroom hgoing hJ := by
    have hbegun := hJ.begun hplaced hroom hgoing
    unfold assurance
    dsimp only
    rw [Schedule.service_begin]
    split
    · have hrecorded := hbegun.recorded hplaced.begun hroom ⟨0, Nat.succ_pos _⟩ (result log k)
      simpa using hrecorded
    · simpa using hbegun
  await k results first others log _ hplaced hroom hfull hJ := by
    have hwaited := hJ.waited hplaced hroom hfull
    have hrecorded := hwaited.recorded hplaced hroom (c.next log first others)
      (result log ((first :: others).get (c.next log first others)))
    unfold assurance
    dsimp only
    rw [Schedule.service_await]
    simpa using hrecorded

end Keeping

/-- Where a batch ends, nothing is in flight. -/
theorem placed_of_finished {ι ε β : Type} {policy : ErrorPolicy} {items : List ι} {k : Nat}
    {b : Batch ι ε β} (h : Finished policy items k b) : Placed k b.results [] := by
  simpa [Placed] using h.complete

/-- A pool of so many workers begins the items in their order, each at most once and no more at a
time than it has workers; it waits with a worker free only if nothing is left to begin. When it is
done, all that has been begun has ended; which is everything, unless a failure ends the batch. -/
theorem pool_fans_out {ι ε β : Type} (c : Schedule) (result : List Event → Nat → Except ε β)
    (concurrency : Nat) (policy : ErrorPolicy) (items : List ι) :
    let log := (((ofNat concurrency).drive policy (c.service result) items).run []).2
    Orderly (min (max concurrency 1) items.length) items.length policy log ∧
    inFlight log = [] ∧
    ∃ k ≤ items.length, started log = List.range k ∧ (ended log).map Prod.fst ~ List.range k ∧
      ((policy = .degrade ∨ ∀ x ∈ ended log, x.2 = false) → k = items.length) := by
  intro log
  have hdrive := (ofNat concurrency).drive_ensures policy (kept_watched c result items)
    (u := []) .nil
  obtain ⟨k, hfinished, hwatched⟩ := hdrive
  refine ⟨hwatched.orderly, ?_, k, hfinished.le, hwatched.started, ?_, ?_⟩
  · exact List.Perm.eq_nil (hwatched.toSeen.inFlight_perm (placed_of_finished hfinished))
  · exact hwatched.toSeen.ended_index ▸ hfinished.complete
  · intro hgoing
    exact hfinished.rest.resolve_right (hwatched.toSeen.goes_on hgoing)

end Pool
end Quire
