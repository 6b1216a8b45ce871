import Quire.Proofs.Path
import Quire.Upload.Source

/-! Where uploads are.

A storage path has a place under a root if it is not empty, is relative, and has no `..` among its
parts (`resolve_eq_ok_iff`). The place is the root followed by the names of the storage path, so what
is found there is below the root (`below_root`). -/
namespace Quire.Upload

/-- A storage path that stays below whatever root it is joined to. -/
structure Inside (path : String) : Prop where
  something : path ≠ ""
  relative : path.toList.head? ≠ some '/'
  descending : ¬ Path.HasPart ".." path

variable {root path place : String}

theorem not_inside_iff :
    ¬ Inside path ↔ path = "" ∨ path.toList.head? = some '/' ∨ Path.HasPart ".." path := by
  refine ⟨fun h => ?_, fun h hinside => ?_⟩
  · by_contra hnone
    simp only [not_or] at hnone
    exact h ⟨hnone.1, hnone.2.1, hnone.2.2⟩
  · rcases h with h | h | h
    exacts [hinside.something h, hinside.relative h, hinside.descending h]

theorem hasPart_up_iff : Path.HasPart ".." path ↔ ".." ∈ Path.segments path := by
  rw [Path.mem_segments]
  exact ⟨fun h => ⟨h, by decide⟩, And.left⟩

theorem Inside.isAbsolute (h : Inside path) : Path.isAbsolute path = false :=
  Path.isAbsolute_eq_false_iff.mpr h.relative

theorem Inside.up_not_mem (h : Inside path) : ".." ∉ Path.segments path :=
  fun hup => h.descending (hasPart_up_iff.mpr hup)

/-! ### Places -/

/-- A component that leads to a child, or nowhere. -/
def isOrdinary : Path.Component → Bool
  | .normal _ | .current => true
  | _ => false

theorem all_isOrdinary_iff_steps : (Path.components path).all isOrdinary = true ↔
    ∀ c ∈ Path.steps path, isOrdinary c = true := by
  rw [List.all_eq_true]
  refine ⟨fun h c hc => h c (List.mem_of_mem_filter hc), fun h c hc => ?_⟩
  by_cases hcurrent : c = .current
  · rw [hcurrent]
    rfl
  · exact h c (List.mem_filter.mpr ⟨hc, by simpa using hcurrent⟩)

theorem all_isOrdinary_iff : (Path.components path).all isOrdinary = true ↔
    Path.isAbsolute path = false ∧ ".." ∉ Path.segments path := by
  rw [all_isOrdinary_iff_steps, Path.steps_eq]
  constructor
  · intro h
    constructor
    · by_contra habsolute
      rw [Bool.not_eq_false] at habsolute
      have hroot := h .root (by simp [habsolute])
      cases hroot
    · intro hup
      have hparent := h (Path.stepOf "..") (List.mem_append_right _ (List.mem_map_of_mem hup))
      cases hparent
  · rintro ⟨habsolute, hup⟩ c hc
    rw [habsolute, if_neg (by decide), List.nil_append] at hc
    obtain ⟨segment, hsegment, rfl⟩ := List.mem_map.mp hc
    rw [Path.stepOf, if_neg (by rintro rfl; exact hup hsegment)]
    rfl

theorem inside_iff :
    Inside path ↔ ((Path.components path).all isOrdinary && path != "") = true := by
  rw [Bool.and_eq_true, all_isOrdinary_iff, bne_iff_ne, Path.isAbsolute_eq_false_iff]
  exact ⟨fun h => ⟨⟨h.relative, h.up_not_mem⟩, h.something⟩,
    fun ⟨⟨hrelative, hup⟩, hne⟩ => ⟨hne, hrelative, fun h => hup (hasPart_up_iff.mp h)⟩⟩

theorem resolve_inside (root : String) (h : Inside path) :
    resolve root path = .ok (Path.join root path) := if_pos (inside_iff.mp h)

theorem resolve_outside (root : String) (h : ¬ Inside path) :
    resolve root path = .error (.notFound path) := if_neg (mt inside_iff.mpr h)

theorem resolve_eq_ok_iff :
    resolve root path = .ok place ↔ Inside path ∧ place = Path.join root path := by
  by_cases h : Inside path
  · rw [resolve_inside root h]
    exact ⟨fun heq => ⟨h, (Except.ok.inj heq).symm⟩, fun heq => heq.2 ▸ rfl⟩
  · rw [resolve_outside root h]
    exact ⟨nofun, fun heq => absurd heq.1 h⟩

theorem resolve_eq_error_iff {fault : StorageError} :
    resolve root path = .error fault ↔ fault = .notFound path ∧ ¬ Inside path := by
  by_cases h : Inside path
  · rw [resolve_inside root h]
    exact ⟨nofun, fun heq => absurd h heq.2⟩
  · rw [resolve_outside root h]
    exact ⟨fun heq => ⟨(Except.error.inj heq).symm, h⟩, fun heq => heq.1 ▸ rfl⟩

theorem map_stepOf_inside (h : Inside path) :
    (Path.segments path).map Path.stepOf = (Path.segments path).map .normal :=
  List.map_congr_left fun segment hsegment =>
    if_neg (by rintro rfl; exact h.up_not_mem hsegment)

theorem steps_join_inside (root : String) (h : Inside path) :
    Path.steps (Path.join root path) =
      Path.steps root ++ (Path.segments path).map .normal := by
  rw [Path.steps_join root h.isAbsolute, map_stepOf_inside h]

theorem wayTo_join_inside (root : String) (h : Inside path) :
    Entry.wayTo (Path.join root path) = Entry.wayTo root ++ Path.segments path := by
  rw [Entry.wayTo, ← Entry.wayFrom_filter]
  show Entry.wayFrom [] (Path.steps _) = _
  rw [steps_join_inside root h, Entry.wayFrom_names]
  show Entry.wayFrom [] ((Path.components root).filter _) ++ _ = _
  rw [Entry.wayFrom_filter]
  rfl

/-! ### References -/

variable {δ : Type} {e : Environment δ} {databaseSize : δ → Nat} {ttl : Span} {now : Instant}
  {found : Entry δ} {r : Reference}

theorem reference_outside (h : ¬ Inside path) :
    reference e databaseSize root path ttl now = .error (.notFound path) := by
  rw [reference, resolve_outside root h]
  rfl

theorem reference_found (h : Inside path) (hfound : e.find (Path.join root path) = .ok found) :
    reference e databaseSize root path ttl now =
      .ok ⟨Path.join root path, entrySize databaseSize found, now.after ttl⟩ := by
  simp only [reference, resolve_inside root h, bind, Except.bind, hfound]

theorem reference_missing {fault : FileFault} (hfind : e.find (Path.join root path) = .error fault) :
    reference e databaseSize root path ttl now ≠ .ok r := by
  by_cases h : Inside path
  · simp only [reference, resolve_inside root h, bind, Except.bind, hfind]
    cases fault <;> exact nofun
  · rw [reference_outside h]
    exact nofun

/-- A reference is to what is found at the place of its storage path. -/
theorem reference_eq_ok_iff :
    reference e databaseSize root path ttl now = .ok r ↔ Inside path ∧
      ∃ found, e.find (Path.join root path) = .ok found ∧
        r = ⟨Path.join root path, entrySize databaseSize found, now.after ttl⟩ := by
  constructor
  · intro h
    have hinside : Inside path := by
      by_contra houtside
      rw [reference_outside houtside] at h
      cases h
    refine ⟨hinside, ?_⟩
    cases hfind : e.find (Path.join root path) with
    | error fault => exact absurd h (reference_missing hfind)
    | ok found =>
      rw [reference_found hinside hfind] at h
      exact ⟨found, rfl, (Except.ok.inj h).symm⟩
  · rintro ⟨hinside, found, hfound, rfl⟩
    exact reference_found hinside hfound

/-- What a relative path without a `..` leads to is below the root. -/
theorem below_root (h : Inside path) (hfound : e.find (Path.join root path) = .ok found) :
    ∃ top, e.top root = .ok top ∧ top.descend (Path.segments path) = some found :=
  Environment.descend_of_find h.isAbsolute h.something h.up_not_mem hfound

/-! ### Confinement -/

/-- What has a place under a root has it below the root, by the names of its path alone; so a
reference leads below what the root stands for, in whatever files it is followed later. -/
theorem resolve_confines (root path : String) :
    (∀ fault, resolve root path = .error fault ↔ fault = .notFound path ∧
      (path = "" ∨ path.toList.head? = some '/' ∨ Path.HasPart ".." path)) ∧
    (∀ place, resolve root path = .ok place →
      Path.steps place = Path.steps root ++ (Path.segments path).map .normal ∧
      Entry.wayTo place = Entry.wayTo root ++ Path.segments path ∧
      ∀ name ∈ Path.segments path, Path.HasPart name path ∧ '/' ∉ name.toList ∧
        name ≠ "" ∧ name ≠ "." ∧ name ≠ "..") ∧
    ∀ (δ : Type) (e : Environment δ) (databaseSize : δ → Nat) (ttl : Span) (now : Instant)
      (r : Reference), reference e databaseSize root path ttl now = .ok r →
        resolve root path = .ok r.location ∧
        ∀ (later : Environment δ) (found : Entry δ), later.find r.location = .ok found →
          ∃ top, later.top root = .ok top ∧ top.descend (Path.segments path) = some found := by
  refine ⟨fun fault => ?_, fun place h => ?_, fun δ e databaseSize ttl now r h => ?_⟩
  · rw [resolve_eq_error_iff, not_inside_iff]
  · obtain ⟨hinside, rfl⟩ := resolve_eq_ok_iff.mp h
    refine ⟨steps_join_inside root hinside, wayTo_join_inside root hinside, fun name hname => ?_⟩
    obtain ⟨hpart, hslash, hempty, hdot⟩ := Path.mem_segments.mp hname
    exact ⟨hpart, hslash, hempty, hdot, fun h => hinside.up_not_mem (h ▸ hname)⟩
  · obtain ⟨hinside, _, -, rfl⟩ := reference_eq_ok_iff.mp h
    exact ⟨resolve_inside root hinside, fun later found => below_root hinside⟩

/-- An upload with dots in its name, and a file beside the uploads. -/
def dotted : Environment Unit where
  files := .directory [("srv", .directory [
    ("up", .directory [("u1", .directory [("a..b", .bytes ⟨#[1, 2, 3]⟩)])]),
    ("other", .bytes ⟨#[4]⟩)])]
  directory := "/srv"
  vars := []

theorem resolve_confines_dotted :
    resolve "up" "u1/../../other" = .error (.notFound "u1/../../other") ∧
    resolve "up/" "u1//./a..b" = .ok "up/u1//./a..b" ∧
    Path.steps "up/u1//./a..b" = [.normal "up", .normal "u1", .normal "a..b"] ∧
    ∃ r top, reference dotted (fun _ => 0) "up/" "u1//./a..b" ⟨0⟩ ⟨0, 0⟩ = .ok r ∧
      dotted.top "up/" = .ok top ∧
      top.descend ["u1", "a..b"] = some (.bytes ⟨#[1, 2, 3]⟩) := by
  obtain ⟨hrefused, -, -⟩ := resolve_confines "up" "u1/../../other"
  obtain ⟨-, hplace, hreference⟩ := resolve_confines "up/" "u1//./a..b"
  have hresolve : resolve "up/" "u1//./a..b" = .ok "up/u1//./a..b" := rfl
  have hmade : reference dotted (fun _ => 0) "up/" "u1//./a..b" ⟨0⟩ ⟨0, 0⟩ =
      .ok ⟨"up/u1//./a..b", 3, ⟨0, 0⟩⟩ := rfl
  obtain ⟨-, hbelow⟩ := hreference _ _ _ _ _ _ hmade
  obtain ⟨top, htop, hfound⟩ := hbelow dotted (.bytes ⟨#[1, 2, 3]⟩) rfl
  refine ⟨(hrefused _).mpr ⟨rfl, .inr (.inr ⟨"u1/".toList, "/../other".toList, ?_⟩)⟩, hresolve,
    (hplace _ hresolve).1, _, top, hmade, htop, hfound⟩
  exact ⟨by decide, .inr (by decide), .inr (by decide)⟩

end Quire.Upload
