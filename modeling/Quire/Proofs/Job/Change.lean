import Quire.Job.Ledger
import Quire.Proofs.Store.Rows
import Quire.Proofs.Store.Transaction

/-! Changes of open jobs.

Six statements change a job, and all of them are one: a change of the row of an id, made unless
the job has ended. None touches what the lock rests on, the document of a job, and none takes a
job back from its end. So if no two jobs clash, the index refuses none of these changes, and no
two jobs clash afterwards. -/
namespace Quire

/-! ### Clashes -/

namespace JobRow

theorem clashes_iff {a b : JobRow} : a.clashes b = true ↔
    a.isActive = true ∧ b.isActive = true ∧ a.documentId.isSome = true ∧
      a.documentId = b.documentId := by
  simp [clashes, and_assoc]

theorem clashes_symm {a b : JobRow} (h : a.clashes b = true) : b.clashes a = true := by
  obtain ⟨ha, hb, hsome, hdoc⟩ := clashes_iff.mp h
  exact clashes_iff.mpr ⟨hb, ha, hdoc ▸ hsome, hdoc.symm⟩

/-- Two jobs do not stand in each other's way. -/
def Apart (a b : JobRow) : Prop := a.clashes b = false

theorem Apart.symm {a b : JobRow} (h : a.Apart b) : b.Apart a := by
  unfold Apart at h ⊢
  by_contra hba
  exact absurd (clashes_symm (by simpa using hba)) (by simp [h])

instance : Std.Symm Apart := ⟨fun _ _ => Apart.symm⟩

/-- A row that is active only if another one of the same document is, clashes only where that one
does. -/
theorem Apart.of_le {a a' b : JobRow} (h : a.Apart b) (hdoc : a'.documentId = a.documentId)
    (hactive : a'.isActive = true → a.isActive = true) : a'.Apart b := by
  unfold Apart at h ⊢
  by_contra hab
  obtain ⟨ha, hb, hsome, hsame⟩ := clashes_iff.mp (by simpa using hab)
  exact absurd (clashes_iff.mpr ⟨hactive ha, hb, hdoc ▸ hsome, hdoc ▸ hsame⟩) (by simp [h])

end JobRow

namespace Jobs

/-- The condition of every change: the job of an id that has not ended. -/
def isOpen (id : String) (r : JobRow) : Bool := r.id == id && r.isActive

theorem isOpen_iff {id : String} {r : JobRow} :
    isOpen id r = true ↔ r.id = id ∧ r.isActive = true := by
  simp [isOpen]

section Rows
variable {p : JobRow → Bool} {f : JobRow → JobRow}

/-- A change after which an open row has the same document and is still open or has ended. -/
def Gentle (p : JobRow → Bool) (f : JobRow → JobRow) : Prop :=
  ∀ r, p r = true → (f r).documentId = r.documentId ∧ r.isActive = true

theorem Gentle.apart (hf : Gentle p f) {r b : JobRow} (hr : p r = true) (h : r.Apart b) :
    (f r).Apart b :=
  h.of_le (hf r hr).1 fun _ => (hf r hr).2

/-- Where no two jobs clash, the index lets every change pass. -/
theorem changeRows_eq (hf : Gentle p f) (above rows : List JobRow)
    (h : (above ++ rows).Pairwise JobRow.Apart) :
    changeRows p f above rows = .ok (above.reverse ++ changeWhere p f rows) := by
  induction rows generalizing above with
  | nil => simp [changeRows]
  | cons r rest ih =>
    have hperm : (above ++ r :: rest).Perm (r :: (above ++ rest)) := List.perm_middle
    have hmoved := (hperm.pairwise_iff JobRow.Apart.symm).mp h
    rw [List.pairwise_cons] at hmoved
    unfold changeRows
    by_cases hr : p r = true
    · have hfree : (above ++ rest).any (f r).clashes = false := by
        rw [List.any_eq_false]
        intro b hb
        rw [show (f r).clashes b = false from hf.apart hr (hmoved.1 b hb)]
        simp
      have hnext : (f r :: above ++ rest).Pairwise JobRow.Apart :=
        List.pairwise_cons.mpr ⟨fun b hb => hf.apart hr (hmoved.1 b hb), hmoved.2⟩
      rw [if_pos hr, hfree, ih (f r :: above) hnext]
      simp [hr]
    · have hnext : (r :: above ++ rest).Pairwise JobRow.Apart :=
        List.pairwise_cons.mpr hmoved
      rw [if_neg hr, ih (r :: above) hnext]
      simp [hr]

theorem pairwise_changeWhere (hf : Gentle p f) {rows : List JobRow}
    (h : rows.Pairwise JobRow.Apart) : (changeWhere p f rows).Pairwise JobRow.Apart := by
  have hone : ∀ {a b : JobRow}, a.Apart b → (if p a then f a else a).Apart b := by
    intro a b hab
    by_cases hp : p a = true
    · rw [if_pos hp]; exact hf.apart hp hab
    · rw [if_neg hp]; exact hab
  exact h.map _ fun a b hab => (hone (hone hab).symm).symm

end Rows

/-! ### The six changes -/

/-- What a statement makes of an open job. -/
inductive Change
  | running
  | polling (handle : String) (params : Json) (timeoutAt : String)
  | completed (result : Option Json)
  | failed (message : String)
  | alive (timeoutAt : String)
  | progressed (done total : UInt32) (percent : Float) (step : String)

namespace Change

/-- The statement that makes a change. -/
def statement (id now : String) : Change → Txn StoreError Nat
  | .running => markRunning id now
  | .polling handle params timeoutAt => markPolling id handle params now timeoutAt
  | .completed result => markCompleted id result now
  | .failed message => markFailed id message now
  | .alive timeoutAt => touch id now timeoutAt
  | .progressed done total percent step => updateProgress id done total percent step now

/-- The status that a change leads to, if it leads to another one. -/
def target? : Change → Option JobStatus
  | .running => some .running
  | .polling _ _ _ => some .polling
  | .completed _ => some .completed
  | .failed _ => some .failed
  | .alive _ | .progressed _ _ _ _ => none

/-- The row after a change. -/
def apply (now : String) : Change → JobRow → JobRow
  | .running, r => { r with status := .running, updatedAt := now }
  | .polling handle params timeoutAt, r =>
    { r with
      status := .polling
      operationHandle := some handle
      params := .ofJson params
      heartbeatAt := some now
      timeoutAt := some timeoutAt
      updatedAt := now }
  | .completed result, r =>
    { r with
      status := .completed
      result := result.map .ofJson <|> r.result
      percent := .real 100
      updatedAt := now
      completedAt := some now }
  | .failed message, r =>
    { r with
      status := .failed
      errorMessage := some message
      updatedAt := now
      completedAt := some now }
  | .alive timeoutAt, r =>
    { r with heartbeatAt := some now, timeoutAt := some timeoutAt, updatedAt := now }
  | .progressed done total percent step, r =>
    { r with
      doneSteps := .ofNat done.toNat
      totalSteps := .ofNat total.toNat
      percent := .real percent
      currentStep := some step
      heartbeatAt := some now
      updatedAt := now }

theorem statement_eq (c : Change) (id now : String) :
    c.statement id now = changeOpen id (c.apply now) := by
  cases c <;> rfl

section
variable (c : Change) (now : String) (r : JobRow)

@[simp] theorem apply_id : (c.apply now r).id = r.id := by cases c <;> rfl

@[simp] theorem apply_documentId : (c.apply now r).documentId = r.documentId := by cases c <;> rfl

@[simp] theorem apply_jobType : (c.apply now r).jobType = r.jobType := by cases c <;> rfl

theorem apply_status : (c.apply now r).status = c.target?.getD r.status := by cases c <;> rfl

/-- What is no step of a job ends none. -/
theorem apply_isActive (hc : c.target? = none) : (c.apply now r).isActive = r.isActive := by
  unfold JobRow.isActive
  rw [c.apply_status, hc]
  rfl

end

theorem gentle (c : Change) (id now : String) : Gentle (isOpen id) (c.apply now) :=
  fun r hr => ⟨c.apply_documentId now r, (isOpen_iff.mp hr).2⟩

end Change

/-- The store with a change of a job. -/
def changed (s : Store) (id now : String) (c : Change) : Store :=
  { s with jobs := changeWhere (isOpen id) (c.apply now) s.jobs }

/-- Where no two jobs clash, a change is made, and the answer is how many rows there were. -/
theorem statement_run {s : Store} (h : s.jobs.Pairwise JobRow.Apart) (c : Change)
    (id now : String) :
    c.statement id now s =
      .ok ((s.jobs.filter (isOpen id)).length, changed s id now c) := by
  have hrows := changeRows_eq (c.gentle id now) [] s.jobs h
  rw [c.statement_eq]
  show (Txn.ofExcept (changeRows (isOpen id) (c.apply now) [] s.jobs) >>= fun jobs =>
    Txn.modify (fun s => { s with jobs := jobs }) >>= fun _ =>
      pure (s.jobs.filter (isOpen id)).length) s = _
  rw [hrows]
  rfl

theorem statement_wp {s : Store} {Q : Nat → Store → Prop} {E : StoreError → Prop}
    (h : s.jobs.Pairwise JobRow.Apart) (c : Change) (id now : String) :
    (c.statement id now).wp Q E s ↔
      Q (s.jobs.filter (isOpen id)).length (changed s id now c) := by
  unfold Txn.wp
  rw [statement_run h]

/-! ### Changes that must find an open job -/

/-- A change that must find an open job: it is made, or there is none and nothing happens. -/
theorem guarded_wp {s : Store} {Q : Unit → Store → Prop} {E : JobError → Prop}
    (h : s.jobs.Pairwise JobRow.Apart) (c : Change) (id now : String)
    (hopen : (∃ r ∈ s.jobs, isOpen id r = true) → Q () (changed s id now c))
    (hclosed : (∀ r ∈ s.jobs, isOpen id r = false) → ∀ e, E e) :
    (guarded id (c.statement id now)).wp Q E s := by
  unfold guarded
  rw [Txn.wp_bind, Txn.wp_widen, statement_wp h]
  unfold ensureChanged
  by_cases hany : ∃ r ∈ s.jobs, isOpen id r = true
  · have hpos : 0 < (s.jobs.filter (isOpen id)).length := by
      obtain ⟨r, hr, hopen⟩ := hany
      exact List.length_pos_of_mem (List.mem_filter.mpr ⟨hr, hopen⟩)
    rw [if_pos hpos]
    exact hopen hany
  · have hnone : ∀ r ∈ s.jobs, isOpen id r = false := by simpa using hany
    have hzero : (s.jobs.filter (isOpen id)).length = 0 := by
      simpa [List.filter_eq_nil_iff] using hnone
    have hE := hclosed hnone
    rw [if_neg (by omega)]
    simp only [Txn.wp_bind, Txn.wp_widen, Jobs.find, Txn.wp_store]
    split
    · exact hE _
    · simp only [Txn.wp_bind, Txn.wp_pure, Txn.wp_ofExcept]
      exact ⟨fun _ _ => hE _, fun _ _ => hE _⟩

end Jobs
end Quire
