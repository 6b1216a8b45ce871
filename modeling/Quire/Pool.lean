/-! A batch of items worked off by a fixed number of workers.

Each worker takes the next item that nobody has taken, and goes on until there is none; the
results stand in the order of the items, whichever ended first. What an item's work does, and in
which order works in flight end, is up to the `Service`. -/
namespace Quire

/-- What a failing item does to the rest of the batch. -/
inductive ErrorPolicy
  /-- No further item is started, and the batch fails. -/
  | failFast
  /-- All others go on. -/
  | degrade
  deriving DecidableEq, Repr

/-- How the work on an item is begun and how it ends. -/
structure Service (m : Type → Type v) (ι ε β : Type) where
  /-- Begins the work on the item of an index; the work may end at once. -/
  begin : Nat → ι → m (Option (Except ε β))
  /-- One of the works in flight ends: its place among them, and its result. They are given by
  index, in the order of their workers. -/
  await : (first : Nat) → (others : List Nat) → m (Fin (others.length + 1) × Except ε β)

/-- A batch under way. -/
structure Batch (ι ε β : Type) where
  /-- The items that nobody has taken, with their indexes. -/
  waiting : List (Nat × ι)
  /-- The items in flight, in the order of their workers. -/
  busy : List Nat
  /-- Results in the order in which they came. -/
  results : List (Nat × Except ε β)
  /-- A failure has ended the handing out. -/
  stopped : Bool

namespace Batch
variable {m : Type → Type v} [Monad m] {ι ε β : Type}

/-- The batch with an item's result. -/
def record (policy : ErrorPolicy) (i : Nat) (r : Except ε β) (b : Batch ι ε β) : Batch ι ε β :=
  { b with
    results := b.results ++ [(i, r)]
    stopped := b.stopped ||
      match policy, r with
      | .failFast, .error _ => true
      | _, _ => false }

/-- A free worker takes items until one does not end at once. -/
def feed (policy : ErrorPolicy) (s : Service m ι ε β) (b : Batch ι ε β) :
    List (Nat × ι) → m (Batch ι ε β × Option Nat)
  | [] => return ({ b with waiting := [] }, none)
  | (i, item) :: rest => do
    if b.stopped then return ({ b with waiting := (i, item) :: rest }, none)
    match ← s.begin i item with
    | none => return ({ b with waiting := rest }, some i)
    | some r => feed policy s (b.record policy i r) rest

/-- The workers begin, one after the other. -/
def launch (policy : ErrorPolicy) (s : Service m ι ε β) : Nat → Batch ι ε β → m (Batch ι ε β)
  | 0, b => return b
  | workers + 1, b => do
    let (b, taken) ← b.feed policy s b.waiting
    Batch.launch policy s workers { b with busy := b.busy ++ taken.toList }

/-- Works end until none is in flight; there are at most `left` of them. -/
def drain (policy : ErrorPolicy) (s : Service m ι ε β) : Nat → Batch ι ε β → m (Batch ι ε β)
  | 0, b => return b
  | left + 1, b => do
    match b.busy with
    | [] => return b
    | i :: others =>
      let (place, r) ← s.await i others
      let (b, taken) ← (b.record policy ((i :: others).get place) r).feed policy s b.waiting
      let busy :=
        match taken with
        | some j => (i :: others).set place j
        | none => (i :: others).eraseIdx place
      drain policy s left { b with busy := busy }

/-- The result of an item, if it was started. -/
def result? (b : Batch ι ε β) (i : Nat) : Option (Except ε β) :=
  (b.results.find? fun (j, _) => j == i).map Prod.snd

end Batch

/-- A number of workers, one at least. -/
structure Pool where
  concurrency : Nat
  one_le : 1 ≤ concurrency

namespace Pool
variable {m : Type → Type v} [Monad m] {ι ε β : Type}

/-- None counts as one. -/
def ofNat (n : Nat) : Pool := ⟨max n 1, Nat.le_max_right n 1⟩

/-- The batch at its end. -/
def drive (p : Pool) (policy : ErrorPolicy) (s : Service m ι ε β) (items : List ι) :
    m (Batch ι ε β) := do
  let waiting := items.zipIdx.map fun (item, i) => (i, item)
  let b ← Batch.launch policy s (min p.concurrency items.length) ⟨waiting, [], [], false⟩
  b.drain policy s items.length

/-- The results of the items that were started, in the order of the items. -/
def slots (n : Nat) (b : Batch ι ε β) : List (Except ε β) := (List.range n).filterMap b.result?

/-- Every result in the order of the items; or, if a failure ends the batch, the failure of the
first item that has one. -/
def run (p : Pool) (policy : ErrorPolicy) (s : Service m ι ε β) (items : List ι) :
    m (Except ε (List (Except ε β))) := do
  let results := slots items.length (← p.drive policy s items)
  match policy with
  | .degrade => return .ok results
  | .failFast => return results.mapM fun r => r.map Except.ok

/-- All values in the order of the items, or the failure of the first item that has one. -/
def tryMap (p : Pool) (s : Service m ι ε β) (items : List ι) : m (Except ε (List β)) := do
  return (slots items.length (← p.drive .failFast s items)).mapM id

/-- A value for each item, where `fallback` stands in for a failure. -/
def mapOrElse (p : Pool) (s : Service m ι ε β) (fallback : ι → ε → β) (items : List ι) :
    m (List β) := do
  let b ← p.drive .degrade s items
  return items.zipIdx.filterMap fun (item, i) =>
    (b.result? i).map fun
      | .ok v => v
      | .error e => fallback item e

end Pool
end Quire
