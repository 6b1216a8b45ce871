import Mathlib.Data.List.Nodup
import Mathlib.Data.List.Perm.Subperm
import Quire.Proofs.Json.Objects

/-! The order of members.

An object is printed with its members in the order of their keys (`ofMembers`); another writer may leave
them as they were declared, or take them out of a table in no order at all. A shape restores what is
written if it reads it back from each of these. So does the shape of a record, if the writer has a member
for each of its fields (`Record.Tells`, `Record.restores`). -/
namespace Quire.Json

/-! ### The same members -/

/-- The same value, with the members of its objects in other orders. -/
inductive Reordered : Json → Json → Prop
  | same (j : Json) : Reordered j j
  | members {ms ms' : List (String × Json)} : ms.Perm ms' → Reordered (.object ms) (.object ms')
  | member {before after : List (String × Json)} {key : String} {j j' : Json} : Reordered j j' →
      Reordered (.object (before ++ (key, j) :: after)) (.object (before ++ (key, j') :: after))
  | item {before after : List Json} {j j' : Json} : Reordered j j' →
      Reordered (.array (before ++ j :: after)) (.array (before ++ j' :: after))
  | trans {j j' j'' : Json} : Reordered j j' → Reordered j' j'' → Reordered j j''

/-- A value with no other values in it. -/
def IsScalar : Json → Prop
  | .array _ | .object _ => False
  | _ => True

section
variable {j j' : Json} {ms ms' : List (String × Json)} {key : String}

theorem Reordered.eq_of_isScalar (h : j.Reordered j') (hj : j.IsScalar) : j' = j := by
  induction h with
  | same => rfl
  | members | member | item => exact hj.elim
  | trans _ _ ih ih' =>
    obtain rfl := ih hj
    exact ih' hj

/-- An object keeps its keys, and what stands under each of them is only reordered. -/
theorem Reordered.exists_members (h : (object ms).Reordered j) :
    ∃ ms', j = .object ms' ∧ (ms.map Prod.fst).Perm (ms'.map Prod.fst) ∧
      ∀ m ∈ ms, ∃ v, (m.1, v) ∈ ms' ∧ m.2.Reordered v := by
  generalize hobject : object ms = i at h
  induction h generalizing ms with
  | same => exact ⟨ms, hobject.symm, .refl _, fun m hm => ⟨m.2, hm, .same _⟩⟩
  | @members _ ms' hperm =>
    obtain rfl := Json.object.inj hobject
    exact ⟨ms', rfl, hperm.map _, fun m hm => ⟨m.2, hperm.mem_iff.mp hm, .same _⟩⟩
  | @member before after key j j' h _ =>
    obtain rfl := Json.object.inj hobject
    refine ⟨before ++ (key, j') :: after, rfl, ?_, fun m hm => ?_⟩
    · rw [List.map_append, List.map_append]
      exact .refl _
    · rw [List.mem_append, List.mem_cons] at hm
      rcases hm with hm | rfl | hm
      · exact ⟨m.2, List.mem_append_left _ hm, .same _⟩
      · exact ⟨j', List.mem_append_right _ List.mem_cons_self, h⟩
      · exact ⟨m.2, List.mem_append_right _ (List.mem_cons_of_mem _ hm), .same _⟩
  | item => cases hobject
  | trans _ _ ih ih' =>
    obtain ⟨ms₁, rfl, hkeys, hvalues⟩ := ih hobject
    obtain ⟨ms₂, rfl, hkeys', hvalues'⟩ := ih' rfl
    refine ⟨ms₂, rfl, hkeys.trans hkeys', fun m hm => ?_⟩
    obtain ⟨v, hv, hre⟩ := hvalues m hm
    obtain ⟨v', hv', hre'⟩ := hvalues' _ hv
    exact ⟨v', hv', hre.trans hre'⟩

/-- Scalars under distinct keys just change places. -/
theorem Reordered.exists_perm (h : (object ms).Reordered j) (hnodup : (ms.map Prod.fst).Nodup)
    (hscalar : ∀ m ∈ ms, m.2.IsScalar) : ∃ ms', j = .object ms' ∧ ms'.Perm ms := by
  obtain ⟨ms', rfl, hkeys, hvalues⟩ := h.exists_members
  have hsubset : ms ⊆ ms' := by
    intro m hm
    obtain ⟨v, hv, hre⟩ := hvalues m hm
    obtain rfl := hre.eq_of_isScalar (hscalar m hm)
    exact hv
  have hlength : ms'.length ≤ ms.length := by
    have hsame := hkeys.length_eq
    rw [List.length_map, List.length_map] at hsame
    exact hsame.ge
  have hsub : ms.Subperm ms' := List.subperm_of_subset (List.Nodup.of_map Prod.fst hnodup) hsubset
  exact ⟨ms', rfl, (hsub.perm_of_length_le hlength).symm⟩

theorem lookup_of_mem (hnodup : (ms.map Prod.fst).Nodup) (h : (key, j) ∈ ms) :
    ms.lookup key = some j := by
  induction ms with
  | nil => cases h
  | cons m rest ih =>
    obtain ⟨hfresh, hrest⟩ := List.nodup_cons.mp hnodup
    rcases List.mem_cons.mp h with rfl | hmem
    · exact Record.lookup_cons_self
    · have hne : key ≠ m.1 := by
        rintro rfl
        exact hfresh (List.mem_map.mpr ⟨_, hmem, rfl⟩)
      exact (Record.lookup_cons_of_ne hne).trans (ih hrest hmem)

/-! ### Members in the order of their keys -/

theorem insert_perm (h : key ∉ ms.map Prod.fst) : (insert key j ms).Perm ((key, j) :: ms) := by
  induction ms with
  | nil => exact .refl _
  | cons m rest ih =>
    obtain ⟨k, v⟩ := m
    rw [List.map_cons, List.mem_cons, not_or] at h
    obtain ⟨hne, hrest⟩ := h
    rw [insert]
    rcases Std.lt_trichotomy key k with hlt | heq | hgt
    · rw [if_pos hlt]
    · exact absurd heq hne
    · rw [if_neg (String.lt_asymm hgt), if_pos hgt]
      exact ((ih hrest).cons _).trans (.swap _ _ _)

/-- Members with new keys are only put among those that are there. -/
theorem foldl_insert_perm (hnodup : ((ms ++ ms').map Prod.fst).Nodup) :
    (ms'.foldl (fun acc (k, v) => insert k v acc) ms).Perm (ms ++ ms') := by
  induction ms' generalizing ms with
  | nil => rw [List.append_nil, List.foldl_nil]
  | cons m rest ih =>
    obtain ⟨key, j⟩ := m
    have hmiddle : ((key, j) :: (ms ++ rest)).Perm (ms ++ (key, j) :: rest) :=
      List.perm_middle.symm
    have hfresh : key ∉ ms.map Prod.fst := by
      have hapart := (hmiddle.map Prod.fst).nodup_iff.mpr hnodup
      rw [List.map_cons, List.map_append, List.nodup_cons] at hapart
      exact fun hmem => hapart.1 (List.mem_append_left _ hmem)
    have hone : (insert key j ms ++ rest).Perm (ms ++ (key, j) :: rest) :=
      ((insert_perm hfresh).append_right rest).trans hmiddle
    exact (ih ((hone.map Prod.fst).nodup_iff.mpr hnodup)).trans hone

/-- The object with some members has them in some order. -/
theorem exists_ofMembers (hnodup : (ms.map Prod.fst).Nodup) :
    ∃ sorted, ofMembers ms = .object sorted ∧ sorted.Perm ms :=
  ⟨_, rfl, @foldl_insert_perm [] ms hnodup⟩

theorem membersFit_iff : MembersFit ms ↔ ∀ m ∈ ms, m.2.Fits := by
  induction ms with
  | nil => exact iff_of_true trivial nofun
  | cons m rest ih => rw [MembersFit, ih, List.forall_mem_cons]

theorem fits_ofMembers (hnodup : (ms.map Prod.fst).Nodup) (h : ∀ m ∈ ms, m.2.Fits) :
    (ofMembers ms).Fits := by
  obtain ⟨sorted, heq, hperm⟩ := exists_ofMembers hnodup
  rw [heq]
  exact membersFit_iff.mpr fun m hm => h m (hperm.mem_iff.mp hm)

theorem depth_ofMembers_le {n : Nat} (hnodup : (ms.map Prod.fst).Nodup)
    (h : ∀ m ∈ ms, m.2.depth ≤ n) : (ofMembers ms).depth ≤ n + 1 := by
  obtain ⟨sorted, heq, hperm⟩ := exists_ofMembers hnodup
  rw [heq]
  exact Nat.succ_le_succ (membersDepth_le fun m hm => h m (hperm.mem_iff.mp hm))

end

/-! ### Reading back what is written -/

/-- A shape reads back what is written, however its members are ordered; it is written in numbers of
the range that is read, and with no more than `n` containers one within the other. -/
structure Shape.Restores {α : Type} (s : Shape α) (n : Nat) (write : α → Json) : Prop where
  read : ∀ {a j}, (write a).Reordered j → ∀ origin, s origin j.toOutline = .ok a
  fits : ∀ a, (write a).Fits
  shallow : ∀ a, (write a).depth ≤ n

/-- What is written as a scalar has no other order. -/
theorem Shape.restores_scalar {α : Type} {s : Shape α} {n : Nat} {write : α → Json}
    (hread : ∀ a origin, s origin (write a).toOutline = .ok a) (hfits : ∀ a, (write a).Fits)
    (hscalar : ∀ a, (write a).IsScalar) : s.Restores n write where
  read := by
    intro a j hj origin
    rw [hj.eq_of_isScalar (hscalar a)]
    exact hread a origin
  fits := hfits
  shallow a := by
    have hscalar := hscalar a
    cases hwrite : write a with
    | array | object =>
      rw [hwrite] at hscalar
      exact hscalar.elim
    | _ => exact Nat.zero_le n

namespace Record
variable {α β : Type} {n : Nat} {ms ms' : List (String × Json)}

/-- A value is told by members, one for each field of a record and in the order of the fields: the record
reads the value from these, or from reordered ones. -/
structure Tells (r : Record α) (n : Nat) (a : α) (ms : List (String × Json)) : Prop where
  keys : ms.map Prod.fst = r.fields.map Field.name
  gives : ∀ {origin seen}, (∀ m ∈ ms, ∃ j, seen m.1 = some j ∧ m.2.Reordered j) →
    r.Gives origin seen a
  fits : ∀ m ∈ ms, m.2.Fits
  shallow : ∀ m ∈ ms, m.2.depth ≤ n

theorem Tells.field {name : String} {inner : Shape α} {write : α → Json}
    {absent : Except Fault α} {beyond : Fault → Except Fault α} (h : inner.Restores n write)
    (a : α) : (field [name] inner absent beyond).Tells n a [(name, write a)] where
  keys := rfl
  gives hseen := by
    obtain ⟨j, hj, hre⟩ := hseen _ List.mem_cons_self
    exact .given hj (h.read hre _)
  fits := List.forall_mem_singleton.mpr (h.fits a)
  shallow := List.forall_mem_singleton.mpr (h.shallow a)

theorem Tells.map {r : Record α} {a : α} (h : r.Tells n a ms) (f : α → β) :
    (f <$> r).Tells n (f a) ms where
  keys := h.keys
  gives hseen := (h.gives hseen).map f
  fits := h.fits
  shallow := h.shallow

theorem Tells.seq {f : Record (α → β)} {g : α → β} {r : Record α} {a : α} (hf : f.Tells n g ms)
    (hr : r.Tells n a ms') : (f <*> r).Tells n (g a) (ms ++ ms') where
  keys := by
    show _ = (f.fields ++ r.fields).map Field.name
    rw [List.map_append, List.map_append, hf.keys, hr.keys]
  gives hseen := by
    rw [List.forall_mem_append] at hseen
    exact (hf.gives hseen.1).seq (hr.gives hseen.2)
  fits := List.forall_mem_append.mpr ⟨hf.fits, hr.fits⟩
  shallow := List.forall_mem_append.mpr ⟨hf.shallow, hr.shallow⟩

/-- A record is read back from the object that is written with its members. -/
theorem restores {r : Record α} (name : String) (h : Plain r.fields) {write : α → Json}
    (hwrite : ∀ a, ∃ ms, r.Tells n a ms ∧ write a = .ofMembers ms) :
    (shape name r).Restores (n + 1) write := by
  have hnodup {a ms} (htells : r.Tells n a ms) : (ms.map Prod.fst).Nodup :=
    htells.keys ▸ h.distinct
  constructor
  case read =>
    intro a j hj origin
    obtain ⟨ms, htells, heq⟩ := hwrite a
    obtain ⟨sorted, hsorted, hperm⟩ := exists_ofMembers (hnodup htells)
    rw [heq, hsorted] at hj
    obtain ⟨ms', rfl, hkeys, hvalues⟩ := hj.exists_members
    have hnodup' : (ms'.map Prod.fst).Nodup :=
      ((hperm.map _).symm.trans hkeys).nodup_iff.mp (hnodup htells)
    refine shape_object name h hnodup' (htells.gives fun m hm => ?_)
    obtain ⟨j, hmem, hre⟩ := hvalues m (hperm.mem_iff.mpr hm)
    exact ⟨j, lookup_of_mem hnodup' hmem, hre⟩
  case fits =>
    intro a
    obtain ⟨ms, htells, heq⟩ := hwrite a
    rw [heq]
    exact fits_ofMembers (hnodup htells) htells.fits
  case shallow =>
    intro a
    obtain ⟨ms, htells, heq⟩ := hwrite a
    rw [heq]
    exact depth_ofMembers_le (hnodup htells) htells.shallow

end Record

/-! ### Scalars -/

section
variable {n : Nat}

theorem fits_ofNat {k : Nat} (h : k ≤ maxWord) : (ofNat k).Fits := by
  show -0x8000000000000000 ≤ (k : Int) ∧ (k : Int) ≤ maxWord
  omega

namespace Shape

theorem restores_string : string.Restores n .text :=
  restores_scalar (fun _ _ => rfl) (fun _ => trivial) fun _ => trivial

theorem restores_boolean : boolean.Restores n .bool :=
  restores_scalar (fun _ _ => rfl) (fun _ => trivial) fun _ => trivial

theorem restores_word32 : word32.Restores n fun w => .ofNat w.toNat :=
  restores_scalar (fun w _ => word32_ofNat w)
    (fun w => fits_ofNat (Nat.le_trans (Nat.le_of_lt w.toNat_lt) (by decide))) fun _ => trivial

theorem restores_word64 : word64.Restores n fun w => .ofNat w.toNat :=
  restores_scalar (fun w _ => word64_ofNat w) (fun w => fits_ofNat (Nat.le_of_lt_succ w.toNat_lt))
    fun _ => trivial

theorem restores_size : size.Restores n fun w => .ofNat w.toNat :=
  restores_scalar (fun w _ => size_ofNat w) (fun w => fits_ofNat (Nat.le_of_lt_succ w.toNat_lt))
    fun _ => trivial

/-- What is absent is written as `null`, and so is read as absent even where the standard is not. -/
theorem restores_optionString : (option string).Restores n (ofOption .text) := by
  refine restores_scalar ?hread ?hfits ?hscalar
  case hread => exact fun a _ => by cases a <;> rfl
  case hfits => exact fun a => by cases a <;> trivial
  case hscalar => exact fun a => by cases a <;> trivial

end Shape
end

end Quire.Json
