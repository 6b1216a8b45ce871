import Quire.Proofs.Flow.Interleaving

/-! The lock of a document.

A document is locked by a job of it that is queued, running or polling. In every store that calls
can reach, whichever way they take turns, there is at most one such job; so whether the lock can
be taken depends on nothing but whether it is there, and no change of a job can break it. -/
namespace Quire
open Txn

/-- The job holds the lock of a document. -/
def JobRow.holds (documentId : String) (r : JobRow) : Bool :=
  r.documentId == some documentId &&
    (r.status == .queued || r.status == .running || r.status == .polling)

/-- The jobs that hold the lock of a document. -/
def Store.holders (s : Store) (documentId : String) : List JobRow :=
  s.jobs.filter (JobRow.holds documentId)

theorem JobRow.holds_iff {d : String} {r : JobRow} :
    r.holds d = true ↔ r.documentId = some d ∧ r.isActive = true := by
  obtain ⟨id, ownerId, documentId, jobType, status⟩ := r
  cases status <;> simp [holds, isActive, JobStatus.isTerminal]

namespace Store
variable {s : Store} {d : String}

theorem mem_holders {r : JobRow} :
    r ∈ s.holders d ↔ r ∈ s.jobs ∧ r.documentId = some d ∧ r.isActive = true := by
  unfold holders
  rw [List.mem_filter, JobRow.holds_iff]

/-- A document has one holder at most. -/
theorem Sound.holders_length (h : s.Sound) (d : String) : (s.holders d).length ≤ 1 := by
  have hnodup : (s.holders d).Nodup :=
    (List.Nodup.of_map _ h.jobIds).filter _
  cases hlist : s.holders d with
  | nil => exact Nat.zero_le _
  | cons a rest =>
    cases rest with
    | nil => exact Nat.le_refl _
    | cons b rest =>
      have ha : a ∈ s.holders d := by simp [hlist]
      have hb : b ∈ s.holders d := by simp [hlist]
      obtain ⟨hajobs, hadoc, haactive⟩ := mem_holders.mp ha
      obtain ⟨hbjobs, hbdoc, hbactive⟩ := mem_holders.mp hb
      have hsame : a = b := h.active_unique hajobs hbjobs haactive hbactive hadoc hbdoc
      rw [hlist, hsame] at hnodup
      exact absurd List.mem_cons_self (List.nodup_cons.mp hnodup).1

/-- The document of a holder is there. -/
theorem Sound.hasDocument_of_holder (h : s.Sound) (hd : s.holders d ≠ []) :
    s.hasDocument d = true := by
  obtain ⟨r, hr⟩ := List.exists_mem_of_ne_nil _ hd
  obtain ⟨hjobs, hdoc, -⟩ := mem_holders.mp hr
  exact h.refers r hjobs d hdoc

/-- A new job of a document clashes with the holders of its lock. -/
theorem any_clashes_iff {r : JobRow} (hdoc : r.documentId = some d) (hactive : r.isActive = true) :
    s.jobs.any r.clashes = true ↔ s.holders d ≠ [] := by
  rw [List.any_eq_true]
  constructor
  · rintro ⟨b, hb, hclash⟩
    obtain ⟨-, hbactive, -, hsame⟩ := JobRow.clashes_iff.mp hclash
    exact List.ne_nil_of_mem (mem_holders.mpr ⟨hb, hsame ▸ hdoc, hbactive⟩)
  · intro hne
    obtain ⟨b, hb⟩ := List.exists_mem_of_ne_nil _ hne
    obtain ⟨hjobs, hbdoc, hbactive⟩ := mem_holders.mp hb
    refine ⟨b, hjobs, JobRow.clashes_iff.mpr ⟨hactive, hbactive, by simp [hdoc], ?_⟩⟩
    rw [hdoc, hbdoc]

end Store

/-! ### Taking the lock -/

section Acquire
variable {s : Store} {d : String} (n : NewJob) (id : String) (now : Instant) (heartbeat : Respite)

/-- The row of a new job. -/
def NewJob.row : JobRow := Jobs.rowOf (n.toJob id now heartbeat) .queued

/-- What becomes of an attempt to take the lock. -/
theorem tryAcquire_run (hdoc : n.documentId = some d) (hid : s.hasJob id = false) :
    (tryAcquire n id now heartbeat).run s =
      if s.holders d ≠ [] then (.ok .alreadyLocked, s)
      else if s.hasDocument d = true then
        (.ok (.acquired (n.toJob id now heartbeat)),
          { s with jobs := s.jobs ++ [n.row id now heartbeat] })
      else (.error (.violation .foreignKey), s) := by
  have hclash : s.jobs.any (n.row id now heartbeat).clashes = true ↔ s.holders d ≠ [] :=
    Store.any_clashes_iff hdoc rfl
  have hrefers : Jobs.refersWell s (n.row id now heartbeat).documentId = s.hasDocument d := by
    rw [show (n.row id now heartbeat).documentId = some d from hdoc]
    rfl
  rw [← Txn.wp_eq_run]
  unfold tryAcquire
  rw [wp_bind, wp_attempt]
  show (Jobs.insertRow (n.row id now heartbeat)).wp _ _ s
  rw [Jobs.insertRow_wp, hrefers, show s.hasJob (n.row id now heartbeat).id = false from hid]
  by_cases hheld : s.holders d ≠ []
  · rw [if_pos (hclash.mpr hheld)]
    simp [StoreError.isUniqueViolation, Jobs.oneActive, hheld]
  · rw [if_neg (fun h => hheld (hclash.mp h))]
    by_cases hthere : s.hasDocument d = true
    · simp [hheld, hthere]
    · simp [hheld, hthere, StoreError.isUniqueViolation]

end Acquire

/-- In every reachable store a document has at most one job that is queued, running or polling. For
every new job of a document, the lock is refused if and only if there is such a job, and taken, by
one more queued row, if and only if the document is there and has none; a document that is not
there is a failure of another kind. Where nothing is taken nothing changes; and none of the
changes of a job is ever refused. -/
theorem lock_exclusive {s : Store} (hs : s.Reachable) :
    (∀ d, (s.holders d).length ≤ 1) ∧
    (∀ (n : NewJob) (d id : String) (now : Instant) (heartbeat : Respite),
      n.documentId = some d → s.hasJob id = false →
      let after := (tryAcquire n id now heartbeat).run s
      (after.1 = .ok .alreadyLocked ↔ s.holders d ≠ []) ∧
      ((∃ job, after.1 = .ok (.acquired job)) ↔ s.hasDocument d = true ∧ s.holders d = []) ∧
      ((∃ e, after.1 = .error e) ↔ s.hasDocument d = false) ∧
      (∀ job, after.1 = .ok (.acquired job) →
        job = n.toJob id now heartbeat ∧
        after.2 = { s with jobs := s.jobs ++ [Jobs.rowOf job .queued] }) ∧
      (∀ e, after.1 = .error e → e = .violation .foreignKey) ∧
      (after.1 = .ok .alreadyLocked ∨ (∃ e, after.1 = .error e) → after.2 = s)) ∧
    ∀ (c : Jobs.Change) (id now : String),
      ((c.statement id now).run s).1 = .ok (s.jobs.filter (Jobs.isOpen id)).length := by
  have hsound := hs.sound
  refine ⟨hsound.holders_length, fun n d id now heartbeat hdoc hid => ?_, fun c id now => ?_⟩
  · dsimp only
    rw [tryAcquire_run n id now heartbeat hdoc hid]
    by_cases hheld : s.holders d ≠ []
    · have hthere := hsound.hasDocument_of_holder hheld
      simp [hheld, hthere]
    · rw [if_neg hheld]
      have hfree : s.holders d = [] := not_not.mp hheld
      by_cases hthere : s.hasDocument d = true
      · simp [hfree, hthere, NewJob.row]
      · simp [hfree, hthere]
  · unfold Txn.run
    rw [Jobs.statement_run hsound.apart]

/-- An upload that becomes a document. -/
def lockedUpload : NewDocument := ⟨"o", "a.png", "u", none, 1, none⟩

/-- The store after the upload was registered as a document. -/
def registeredStore : Store :=
  ((Documents.insert
    (lockedUpload.toDocument .image "d" (Instant.mk 0 0).timestamp)).run Store.empty).2

/-- The store after the document's lock was taken. -/
def lockedStore : Store :=
  ((tryAcquire (.onDocument "o" "d" .documentExtract) "j" ⟨0, 0⟩ .minute).run registeredStore).2

theorem lockedStore_reachable : lockedStore.Reachable := by
  have hregistered : registeredStore.Reachable :=
    Store.Reachable.empty.run (.register lockedUpload)
      ⟨⟨0, 0⟩, (Store.empty, ()), ⟨rfl, trivial⟩, "d", (Store.empty, ()), ⟨rfl, trivial⟩,
        .ok (), (registeredStore, ()), ⟨rfl, rfl⟩, rfl, rfl⟩
  exact hregistered.run (.acquire ⟨.minute⟩ (.onDocument "o" "d" .documentExtract))
    ⟨"j", (registeredStore, ()), ⟨rfl, trivial⟩, ⟨0, 0⟩, (registeredStore, ()), ⟨rfl, trivial⟩,
      _, (lockedStore, ()), ⟨rfl, rfl⟩, rfl, rfl⟩

/-- While a document is locked its lock is refused, and a document that is not there has none. -/
theorem lock_exclusive_locked :
    lockedStore.Reachable ∧ (lockedStore.holders "d").length ≤ 1 ∧
      ((tryAcquire (.onDocument "o" "d" .documentExtract) "k" ⟨0, 0⟩ .minute).run lockedStore).1 =
        .ok .alreadyLocked ∧
      ∃ e, ((tryAcquire (.onDocument "o" "x" .documentExtract) "k" ⟨0, 0⟩ .minute).run
        lockedStore).1 = .error e := by
  obtain ⟨hone, htaking, -⟩ := lock_exclusive lockedStore_reachable
  have hheld := htaking (.onDocument "o" "d" .documentExtract) "d" "k" ⟨0, 0⟩ .minute rfl (by decide)
  have hmissing := htaking (.onDocument "o" "x" .documentExtract) "x" "k" ⟨0, 0⟩ .minute rfl (by decide)
  refine ⟨lockedStore_reachable, hone "d", hheld.1.mpr ?_, hmissing.2.2.1.mpr (by decide)⟩
  exact List.cons_ne_nil _ _

end Quire
