import Quire.Store.Basic
import Mathlib.Data.List.Nodup
import Mathlib.Order.Defs.PartialOrder

/-! Rows in a table.

A table is a list of rows, and a change of the rows that satisfy a condition leaves the others
where they are. -/
namespace Quire
variable {α κ : Type}

section ChangeWhere
variable {p : α → Bool} {f : α → α} {rows : List α}

theorem mem_changeWhere {b : α} :
    b ∈ changeWhere p f rows ↔ ∃ a ∈ rows, (if p a then f a else a) = b := List.mem_map

@[simp] theorem changeWhere_nil : changeWhere p f [] = [] := rfl

@[simp] theorem changeWhere_cons (a : α) :
    changeWhere p f (a :: rows) = (if p a then f a else a) :: changeWhere p f rows := rfl

/-- What a change does not touch is the same in every row. -/
theorem map_changeWhere {g : α → κ} (hg : ∀ a ∈ rows, p a → g (f a) = g a) :
    (changeWhere p f rows).map g = rows.map g := by
  unfold changeWhere
  rw [List.map_map]
  refine List.map_congr_left fun a ha => ?_
  by_cases hp : p a = true
  · simp only [Function.comp_apply, hp, if_true]
    exact hg a ha hp
  · simp [hp]

theorem changeWhere_none (h : ∀ a ∈ rows, p a = false) : changeWhere p f rows = rows := by
  unfold changeWhere
  refine (List.map_congr_left fun a ha => ?_).trans (List.map_id rows)
  simp [h a ha]

/-- A change does not show where the rows that it touches are left out. -/
theorem filter_changeWhere {q : α → Bool} (hq : ∀ a, p a = true → q a = false ∧ q (f a) = false) :
    (changeWhere p f rows).filter q = rows.filter q := by
  induction rows with
  | nil => rfl
  | cons a rest ih =>
    rw [changeWhere_cons, List.filter_cons, List.filter_cons, ih]
    by_cases hp : p a = true
    · simp [hp, hq a hp]
    · simp [hp]

/-- A look at the rows after a change finds the row that it found before, changed. -/
theorem find?_changeWhere {q : α → Bool} (hq : ∀ a, p a = true → q (f a) = q a) :
    (changeWhere p f rows).find? q = (rows.find? q).map fun a => if p a then f a else a := by
  unfold changeWhere
  rw [List.find?_map]
  congr 2
  funext a
  by_cases hp : p a = true
  · simp [hp, hq a hp]
  · simp [hp]

/-- Two changes after each other that do the same are one change, if the second one leaves what the
first one has made. -/
theorem changeWhere_twice {q p' : α → Bool} {g : α → α}
    (hg : ∀ a ∈ rows, q a = true → g a = f a)
    (hleft : ∀ a ∈ rows, p a = true → q (f a) = false)
    (hboth : ∀ a ∈ rows, p' a = (p a || q a)) :
    changeWhere q g (changeWhere p f rows) = changeWhere p' f rows := by
  unfold changeWhere
  rw [List.map_map]
  refine List.map_congr_left fun a ha => ?_
  by_cases hp : p a = true
  · simp [hboth a ha, hp, hleft a ha hp]
  · by_cases hq : q a = true
    · simp [hboth a ha, hp, hq, hg a ha hq]
    · simp [hboth a ha, hp, hq]

end ChangeWhere

/-! ### Keys -/

section Keys
variable {key : α → κ} {rows : List α} {a : α}

/-- A change of the row of a key leaves the rows above it and below it alone. -/
theorem changeWhere_key {p : α → Bool} {f : α → α} {above below : List α}
    (h : ((above ++ a :: below).map key).Nodup) (hp : ∀ b, p b = true → key b = key a)
    (ha : p a = true) : changeWhere p f (above ++ a :: below) = above ++ f a :: below := by
  rw [List.map_append, List.map_cons] at h
  obtain ⟨-, hrest, hapart⟩ := List.nodup_append.mp h
  have hothers : ∀ {l : List α}, (∀ b ∈ l, key b ≠ key a) → changeWhere p f l = l := fun hl =>
    changeWhere_none fun b hb => Bool.eq_false_iff.mpr fun hpb => hl b hb (hp b hpb)
  have habove : changeWhere p f above = above :=
    hothers fun b hb => hapart _ (List.mem_map_of_mem hb) _ List.mem_cons_self
  have hbelow : changeWhere p f below = below := hothers fun b hb hkey =>
    (List.nodup_cons.mp hrest).1 (hkey ▸ List.mem_map_of_mem hb)
  have hsplit : changeWhere p f (above ++ a :: below) =
      changeWhere p f above ++ changeWhere p f (a :: below) := List.map_append
  rw [hsplit, changeWhere_cons, if_pos ha, habove, hbelow]

variable [BEq κ] [LawfulBEq κ]

/-- The rows of a key are one row where no two have the same. -/
theorem filter_key (h : (rows.map key).Nodup) (ha : a ∈ rows) :
    rows.filter (key · == key a) = [a] := by
  obtain ⟨above, below, rfl⟩ := List.append_of_mem ha
  rw [List.map_append, List.map_cons] at h
  have habove : key a ∉ above.map key := fun hmem =>
    (List.nodup_append.mp h).2.2 _ hmem _ List.mem_cons_self rfl
  have hbelow : key a ∉ below.map key :=
    (List.nodup_cons.mp (List.nodup_append.mp h).2.1).1
  have hnone : ∀ {l : List α}, key a ∉ l.map key → l.filter (key · == key a) = [] := by
    intro l hl
    rw [List.filter_eq_nil_iff]
    intro b hb hkey
    exact hl (eq_of_beq hkey ▸ List.mem_map_of_mem hb)
  rw [List.filter_append, List.filter_cons, hnone habove, hnone hbelow]
  simp

/-- A row that is looked for by its key is the one that is found. -/
theorem find?_key (h : (rows.map key).Nodup) (ha : a ∈ rows) :
    rows.find? (key · == key a) = some a := by
  rw [← List.head?_filter, filter_key h ha]
  rfl

end Keys

/-! ### The highest -/

section Highest
variable [Preorder κ] {g : κ → α → κ} {rows : List α} {k n : κ}

/-- What counts up ends no lower than it began. -/
theorem le_foldl (hg : ∀ n a, n ≤ g n a) (h : k ≤ n) : k ≤ rows.foldl g n := by
  induction rows generalizing n with
  | nil => exact h
  | cons a rest ih => exact ih (le_trans h (hg n a))

/-- It ends no lower than what any of the rows counts for. -/
theorem le_foldl_of_mem (hg : ∀ n a, n ≤ g n a) {a : α} (ha : a ∈ rows) (hk : ∀ n, k ≤ g n a) :
    k ≤ rows.foldl g n := by
  obtain ⟨above, below, rfl⟩ := List.append_of_mem ha
  rw [List.foldl_append, List.foldl_cons]
  exact le_foldl hg (hk _)

end Highest

/-! ### Sorting -/

/-- Rows are sorted by a number. -/
theorem pairwise_mergeSort_word (number : α → UInt32) (rows : List α) :
    (rows.mergeSort fun a b => decide (number a ≤ number b)).Pairwise
      fun a b => number a ≤ number b := by
  refine (List.pairwise_mergeSort ?_ ?_ rows).imp of_decide_eq_true
  · simpa using fun a b c => UInt32.le_trans (a := number a) (b := number b) (c := number c)
  · simpa using fun a b => UInt32.le_total (number a) (number b)

namespace Store

/-- The owner of the document of an id, if it is there. -/
def ownerOf (s : Store) (d : String) : Option String :=
  (s.documents.find? (·.id == d)).map (·.ownerId)

theorem hasDocument_iff {s : Store} {id : String} :
    s.hasDocument id = true ↔ ∃ r ∈ s.documents, r.id = id := by
  simp [hasDocument]

theorem hasJob_iff {s : Store} {id : String} : s.hasJob id = true ↔ ∃ r ∈ s.jobs, r.id = id := by
  simp [hasJob]

theorem hasDocument_eq {s : Store} (id : String) :
    s.hasDocument id = (s.documents.map (·.id)).contains id := by
  rw [Bool.eq_iff_iff, hasDocument_iff]
  simp

end Store
end Quire
