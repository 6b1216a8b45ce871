import Quire.Proofs.Pipeline.Collection

/-! Objects that are deleted while they are wanted.

What is left of some objects are those whose keys are not gone. A shard that is left is read as it
was; one that is gone is neither listed nor found. Surroundings with objects that change answer from
what is left at the time. -/
namespace Quire.ObjectStore
variable (o : ObjectStore)

/-- The objects that are left when those of some keys are gone. -/
def without (gone : List String) : ObjectStore :=
  { o with objects := o.objects.filter fun (k, _) => k ∉ gone }

@[simp] theorem without_nil : o.without [] = o := by
  unfold without
  simp

/-- Which objects are left depends only on which keys are gone. -/
theorem without_congr {gone gone' : List String} (h : ∀ key, key ∈ gone ↔ key ∈ gone') :
    o.without gone = o.without gone' := by
  unfold without
  congr 1
  exact List.filter_congr fun x _ => decide_eq_decide.mpr (not_congr (h x.1))

@[simp] theorem delete_without (gone : List String) (key : String) :
    (o.without gone).delete key = o.without (key :: gone) := by
  unfold without delete
  rw [List.filter_filter]
  congr 1
  refine List.filter_congr fun x _ => ?_
  simp [bne, Bool.beq_eq_decide_eq]

theorem keys_without (gone : List String) : (o.without gone).keys = o.keys.filter (· ∉ gone) := by
  unfold keys without
  rw [List.filter_map]
  rfl

theorem shardKeys_without (gone : List String) (folder : String) :
    (o.without gone).shardKeys folder = (o.shardKeys folder).filter (· ∉ gone) := by
  unfold shardKeys list
  rw [keys_without]
  simp only [List.filter_filter]
  refine List.filter_congr fun key _ => ?_
  rw [← Bool.and_assoc, Bool.and_comm]

/-- Whether an object is found depends on whether it is gone. -/
theorem find?_without (gone : List String) (key : String) :
    (o.without gone).find? key = if key ∈ gone then none else o.find? key := by
  unfold find? without
  rw [List.find?_filter]
  by_cases hgone : key ∈ gone
  · rw [if_pos hgone, Option.map_eq_none_iff, List.find?_eq_none]
    intro x _ hx
    obtain ⟨hleft, hkey⟩ : x.1 ∉ gone ∧ x.1 = key := by simpa using hx
    exact hleft (hkey ▸ hgone)
  · rw [if_neg hgone]
    congr 2
    funext x
    by_cases hx : x.1 = key
    · simp [hx, hgone]
    · simp [hx]

variable {o}

theorem get_of_without {gone : List String} {key : String} {bytes : ByteArray}
    (h : (o.without gone).get key = .ok bytes) : o.get key = .ok bytes := by
  unfold get at h ⊢
  rw [find?_without] at h
  by_cases hgone : key ∈ gone
  · rw [if_pos hgone] at h
    cases h
  · rwa [if_neg hgone] at h

theorem exists_get {key : String} (h : key ∈ o.keys) : ∃ bytes, o.get key = .ok bytes := by
  obtain ⟨x, hx, rfl⟩ := List.mem_map.mp h
  have hfound : (o.find? x.1).isSome = true := by
    unfold find?
    rw [Option.isSome_map, List.find?_isSome]
    exact ⟨x, hx, by simp⟩
  obtain ⟨object, hobject⟩ := Option.isSome_iff_exists.mp hfound
  refine ⟨object.data, ?_⟩
  unfold get
  rw [hobject]

theorem mem_keys_of_shardKeys {folder key : String} (h : key ∈ o.shardKeys folder) :
    key ∈ o.keys :=
  (List.mem_filter.mp (List.mem_filter.mp h).1).1

/-- Surroundings whose objects are put and deleted, with a cleaner. An operation is done without a
failure. Nothing that is asked of the objects fails, except that one may be asked for that is gone;
but that happens only if `mayMiss`. -/
def changing (can : Cleanup.Answers) (mayMiss : Prop) : Surroundings ObjectStore where
  allows
    | .put key body contentType, o, answer, o' =>
      match o.put key body contentType with
      | .ok written => answer = .ok () ∧ o' = written
      | .error e => answer = .error e ∧ o' = o
    | .list start, o, answer, o' =>
      (∃ found, answer = .ok found ∧ found.Perm (o.list start)) ∧ o' = o
    | .get key, o, answer, o' =>
      (answer = o.get key ∧ (mayMiss ∨ ∃ bytes, o.get key = .ok bytes)) ∧ o' = o
    | .delete key, o, answer, o' => answer = .ok () ∧ o' = o.delete key
    | .status _, o, answer, o' =>
      (∃ state, answer = .ok state ∧ state.done = true ∧ state.error = none) ∧ o' = o
    | .beginCleaning i _ _, o, answer, o' => (∀ r, answer = some r → can i r) ∧ o' = o
    | .awaitCleaning first others, o, answer, o' =>
      can ((first :: others).get answer.1) answer.2 ∧ o' = o
    | _, o, _, o' => o' = o

theorem changing_live {can : Cleanup.Answers} (hcan : ∀ i, ∃ r, can i r) :
    (changing can True).Live := by
  refine Surroundings.Live.of_allows fun op o => ?_
  obtain ⟨b⟩ := op.nonempty
  cases op with
  | put key body contentType =>
    cases hput : o.put key body contentType with
    | ok written =>
      refine ⟨.ok (), written, ?_⟩
      show match o.put key body contentType with | .ok _ => _ | .error _ => _
      rw [hput]
      exact ⟨rfl, rfl⟩
    | error e =>
      refine ⟨.error e, o, ?_⟩
      show match o.put key body contentType with | .ok _ => _ | .error _ => _
      rw [hput]
      exact ⟨rfl, rfl⟩
  | list start => exact ⟨.ok (o.list start), o, ⟨_, rfl, .refl _⟩, rfl⟩
  | get key => exact ⟨o.get key, o, ⟨rfl, .inl trivial⟩, rfl⟩
  | delete key => exact ⟨.ok (), o.delete key, rfl, rfl⟩
  | status handle => exact ⟨.ok ⟨true, none, none⟩, o, ⟨_, rfl, rfl, rfl⟩, rfl⟩
  | beginCleaning index text hint => exact ⟨none, o, fun _ h => (nomatch h), rfl⟩
  | awaitCleaning first others =>
    obtain ⟨r, hr⟩ := hcan first
    exact ⟨(0, r), o, hr, rfl⟩
  | _ => exact ⟨b, o, rfl⟩

end Quire.ObjectStore
