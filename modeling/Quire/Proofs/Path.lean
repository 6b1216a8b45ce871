import Quire.Environment
import Quire.Proofs.Text.Cut

/-! Where a path leads.

Of the parts of a path some lead nowhere: the empty ones, and `.` (`segments` are the others). So a
path is told by its segments and by whether it is absolute (`steps_eq`), and of two paths that are
joined the segments stand one behind the other (`segments_join`). In a tree of files the segments of
a path lead to the same entry as the path, and without a `..` among them each leads from a directory
to one of its children (`Entry.descend_of_walk`). -/
namespace Quire

namespace Path

/-- The parts of a path that lead somewhere: to a child, or up. -/
def segments (path : String) : List String :=
  (Text.cut '/' path).filter fun part => part != "" && part != "."

/-- What a segment stands for. -/
def stepOf (segment : String) : Component := if segment = ".." then .parent else .normal segment

/-- The components of a path up to those that lead nowhere. -/
def steps (path : String) : List Component := (components path).filter (· ≠ .current)

/-- A text stands in a path between two separators, or between one of them and an end. -/
def HasPart (part path : String) : Prop :=
  ∃ before after, path.toList = before ++ part.toList ++ after ∧
    (before = [] ∨ before.getLast? = some '/') ∧ (after = [] ∨ after.head? = some '/')

variable {path base : String}

/-! ### Absolute paths -/

theorem isAbsolute_iff : isAbsolute path = true ↔ path.toList.head? = some '/' := by
  rw [isAbsolute, Text.startsWith_iff]
  cases path.toList with
  | nil => simp
  | cons c cs => simp [eq_comm]

theorem isAbsolute_eq_false_iff : isAbsolute path = false ↔ path.toList.head? ≠ some '/' := by
  rw [Ne, ← isAbsolute_iff, Bool.not_eq_true]

theorem cut_of_isAbsolute (h : isAbsolute path = true) :
    ∃ rest, rest ≠ [] ∧ Text.cut '/' path = "" :: rest := by
  rw [isAbsolute_iff] at h
  unfold Text.cut
  cases hpath : path.toList with
  | nil => simp [hpath] at h
  | cons c cs =>
    obtain rfl : c = '/' := by simpa [hpath] using h
    refine ⟨(Text.cutChars '/' cs).map String.ofList, ?_, rfl⟩
    simp [Text.cutChars_eq_splitOn]

theorem cut_of_relative (h : isAbsolute path = false) (hne : path ≠ "") :
    ∃ first rest, first ≠ "" ∧ Text.cut '/' path = first :: rest := by
  rw [isAbsolute_eq_false_iff] at h
  unfold Text.cut
  cases hpath : path.toList with
  | nil => exact absurd (String.toList_eq_nil_iff.mp hpath) hne
  | cons c cs =>
    have hc : c ≠ '/' := by simpa [hpath] using h
    obtain ⟨piece, pieces, hcs⟩ := List.exists_cons_of_ne_nil (List.splitOn_ne_nil '/' cs)
    refine ⟨String.ofList (c :: piece), pieces.map String.ofList, by simp, ?_⟩
    rw [Text.cutChars, Text.cutChars_eq_splitOn, hcs, if_neg (by simpa using hc)]
    rfl

/-! ### Components -/

theorem filterMap_inner (parts : List String) :
    parts.filterMap inner = (parts.filter fun part => part != "" && part != ".").map stepOf := by
  induction parts with
  | nil => rfl
  | cons part rest ih =>
    by_cases hempty : part = ""
    · subst hempty
      exact ih
    by_cases hdot : part = "."
    · subst hdot
      exact ih
    have hinner : inner part = some (stepOf part) := by
      by_cases hup : part = ".." <;> simp [inner, stepOf, hempty, hdot, hup]
    rw [List.filterMap_cons_some hinner, ih, List.filter_cons_of_pos (by simp [hempty, hdot]),
      List.map_cons]

theorem stepOf_ne_current (segment : String) : stepOf segment ≠ .current := by
  unfold stepOf
  split <;> exact Component.noConfusion

theorem filter_map_stepOf (segments : List String) :
    (segments.map stepOf).filter (· ≠ .current) = segments.map stepOf := by
  refine List.filter_eq_self.mpr fun c hc => ?_
  obtain ⟨s, -, rfl⟩ := List.mem_map.mp hc
  simpa using stepOf_ne_current s

theorem components_of_isAbsolute (h : isAbsolute path = true) :
    components path = .root :: (Text.cut '/' path).filterMap inner := by
  obtain ⟨rest, hrest, hcut⟩ := cut_of_isAbsolute h
  rw [components, hcut]
  simp [hrest, inner]

/-- Of the parts of a relative path that lead nowhere only a `.` that it begins with is a
component. -/
theorem components_of_relative (h : isAbsolute path = false) :
    components path = (Text.cut '/' path).filterMap inner ∨
      components path = .current :: (Text.cut '/' path).filterMap inner := by
  by_cases hempty : path = ""
  · subst hempty
    exact .inl rfl
  obtain ⟨first, rest, hfirst, hcut⟩ := cut_of_relative h hempty
  rw [components, hcut]
  by_cases hdot : first = "."
  · exact .inr (by simp [hdot, inner])
  · refine .inl ?_
    cases hinner : inner first <;> simp [hfirst, hdot, hinner]

/-- The components of a path are its segments, perhaps after the root. -/
theorem steps_eq (path : String) :
    steps path = (if isAbsolute path then [.root] else []) ++ (segments path).map stepOf := by
  have hsegments : (Text.cut '/' path).filterMap inner = (segments path).map stepOf :=
    filterMap_inner _
  cases h : isAbsolute path with
  | true =>
    rw [steps, components_of_isAbsolute h, List.filter_cons_of_pos (by decide), hsegments,
      filter_map_stepOf]
    rfl
  | false =>
    rw [steps]
    rcases components_of_relative h with hcomponents | hcomponents
    · rw [hcomponents, hsegments, filter_map_stepOf]
      rfl
    · rw [hcomponents, List.filter_cons_of_neg (by decide), hsegments, filter_map_stepOf]
      rfl

/-! ### Parts -/

/-- A piece stands between two separators of what the pieces make, or between one and an end. -/
theorem exists_around {part : List Char} {pieces : List (List Char)} (h : part ∈ pieces) :
    ∃ before after, ['/'].intercalate pieces = before ++ part ++ after ∧
      (before = [] ∨ before.getLast? = some '/') ∧ (after = [] ∨ after.head? = some '/') := by
  induction pieces with
  | nil => cases h
  | cons piece rest ih =>
    cases rest with
    | nil =>
      obtain rfl := List.mem_singleton.mp h
      exact ⟨[], [], by simp, .inl rfl, .inl rfl⟩
    | cons next rest =>
      have hpieces : ['/'].intercalate (piece :: next :: rest) =
          piece ++ '/' :: ['/'].intercalate (next :: rest) := by
        simp [List.intercalate]
      rw [hpieces]
      rcases List.mem_cons.mp h with rfl | h
      · exact ⟨[], '/' :: ['/'].intercalate (next :: rest), by simp, .inl rfl, .inr rfl⟩
      · obtain ⟨before, after, heq, hbefore, hafter⟩ := ih h
        refine ⟨piece ++ '/' :: before, after, by simp [heq], .inr ?_, hafter⟩
        rcases hbefore with rfl | hlast
        · simp
        · obtain ⟨front, rfl⟩ := List.getLast?_eq_some_iff.mp hlast
          rw [← List.cons_append, ← List.append_assoc, List.getLast?_concat]

theorem mem_cutChars_append {part after : List Char} (hpart : '/' ∉ part)
    (hafter : after = [] ∨ after.head? = some '/') : part ∈ Text.cutChars '/' (part ++ after) := by
  rcases hafter with rfl | hhead
  · rw [List.append_nil, Text.cutChars_of_not_mem hpart]
    exact List.mem_singleton_self part
  · obtain ⟨rest, rfl⟩ := List.head?_eq_some_iff.mp hhead
    rw [Text.cutChars_append, Text.cutChars_of_not_mem hpart]
    exact List.mem_append_left _ (List.mem_singleton_self part)

theorem mem_cut_toList {part : String} :
    part ∈ Text.cut '/' path ↔ part.toList ∈ Text.cutChars '/' path.toList := by
  rw [Text.cut, List.mem_map]
  constructor
  · rintro ⟨piece, hpiece, rfl⟩
    rwa [String.toList_ofList]
  · exact fun h => ⟨_, h, String.ofList_toList⟩

theorem mem_cut {part : String} :
    part ∈ Text.cut '/' path ↔ HasPart part path ∧ '/' ∉ part.toList := by
  rw [mem_cut_toList]
  constructor
  · intro h
    obtain ⟨before, after, hpath, hends⟩ := exists_around h
    rw [Text.intercalate_cutChars] at hpath
    exact ⟨⟨before, after, hpath, hends⟩, (Text.mem_cutChars h).1⟩
  · rintro ⟨⟨before, after, hpath, hbefore, hafter⟩, hpart⟩
    have hmem := mem_cutChars_append hpart hafter
    rw [hpath, List.append_assoc]
    rcases hbefore with rfl | hlast
    · exact hmem
    · obtain ⟨front, rfl⟩ := List.getLast?_eq_some_iff.mp hlast
      rw [List.append_assoc, List.singleton_append, Text.cutChars_append]
      exact List.mem_append_right _ hmem

theorem mem_segments {name : String} : name ∈ segments path ↔
    HasPart name path ∧ '/' ∉ name.toList ∧ name ≠ "" ∧ name ≠ "." := by
  rw [segments, List.mem_filter, mem_cut, Bool.and_eq_true, bne_iff_ne, bne_iff_ne, and_assoc]

/-! ### Joining -/

theorem endsWith_slash_iff : Text.endsWith "/" base = true ↔ ∃ front, base = front ++ "/" := by
  unfold Text.endsWith
  simp only [Option.isSome_iff_exists, Text.afterStart?_eq_some]
  constructor
  · rintro ⟨rest, h⟩
    refine ⟨String.ofList rest.reverse, String.toList_inj.mp ?_⟩
    rw [String.toList_append, String.toList_ofList, ← List.reverse_inj, h]
    simp
  · rintro ⟨front, rfl⟩
    exact ⟨front.toList.reverse, by simp⟩

theorem segments_slash (a b : String) : segments (a ++ "/" ++ b) = segments a ++ segments b := by
  have hslash : (a ++ "/" ++ b).toList = a.toList ++ '/' :: b.toList := by simp
  rw [segments, Text.cut, hslash, Text.cutChars_append, List.map_append, List.filter_append]
  rfl

/-- A relative path stands behind the base, with a separator between the two unless the base is
empty. -/
theorem join_eq (base : String) (h : isAbsolute path = false) :
    base = "" ∧ join base path = path ∨
      ∃ front, join base path = front ++ "/" ++ path ∧ segments front = segments base := by
  rw [join, h, if_neg (by decide)]
  by_cases hempty : base = ""
  · exact .inl ⟨hempty, by simp [hempty]⟩
  by_cases hslash : Text.endsWith "/" base = true
  · obtain ⟨front, rfl⟩ := endsWith_slash_iff.mp hslash
    have hnone : segments "" = [] := rfl
    have hfront : segments (front ++ "/") = segments front := by
      simpa [hnone] using segments_slash front ""
    exact .inr ⟨front, by rw [hslash, Bool.or_true, if_pos rfl], hfront.symm⟩
  · exact .inr ⟨base, by simp [hempty, hslash], rfl⟩

theorem segments_join (base : String) (h : isAbsolute path = false) :
    segments (join base path) = segments base ++ segments path := by
  rcases join_eq base h with ⟨rfl, hjoin⟩ | ⟨front, hjoin, hfront⟩
  · rw [hjoin]
    rfl
  · rw [hjoin, segments_slash, hfront]

theorem join_of_isAbsolute (base : String) (h : isAbsolute path = true) : join base path = path :=
  if_pos h

theorem isAbsolute_join (base : String) (h : isAbsolute path = false) :
    isAbsolute (join base path) = isAbsolute base := by
  rw [Bool.eq_iff_iff, isAbsolute_iff, isAbsolute_iff, join, h, if_neg (by decide)]
  by_cases hempty : base = ""
  · subst hempty
    simpa using isAbsolute_eq_false_iff.mp h
  · obtain ⟨c, cs, hbase⟩ := List.exists_cons_of_ne_nil fun h => hempty (String.toList_eq_nil_iff.mp h)
    split <;> simp [hbase]

theorem join_ne_empty (base : String) (hne : path ≠ "") : join base path ≠ "" := by
  unfold join
  split
  · exact hne
  · split <;> simp [hne]

/-- A path joined to a root that is itself joined to a directory. -/
theorem segments_join_join (directory root : String) (h : isAbsolute path = false) :
    segments (join directory (join root path)) = segments (join directory root) ++ segments path := by
  by_cases hroot : isAbsolute root = true
  · rw [join_of_isAbsolute _ (isAbsolute_join root h ▸ hroot), join_of_isAbsolute _ hroot,
      segments_join root h]
  · rw [Bool.not_eq_true] at hroot
    rw [segments_join directory (isAbsolute_join root h ▸ hroot), segments_join directory hroot,
      segments_join root h, List.append_assoc]

/-- Joined to a base, a relative path leaves the base's components alone. -/
theorem steps_join (base : String) (h : isAbsolute path = false) :
    steps (join base path) = steps base ++ (segments path).map stepOf := by
  rw [steps_eq, steps_eq, isAbsolute_join base h, segments_join base h, List.map_append,
    List.append_assoc]

end Path

/-! ### Trees of files -/

namespace Entry
open Quire.Path
variable {δ : Type}

/-- Where one part of a path leads from a directory: nowhere, up, or to a child. -/
inductive Goes : List (Entry δ) → Entry δ → String → List (Entry δ) → Entry δ → Prop
  | nowhere {above : List (Entry δ)} {children : List (String × Entry δ)} {part : String} :
      part = "" ∨ part = "." → Goes above (.directory children) part above (.directory children)
  | up {above : List (Entry δ)} {children : List (String × Entry δ)} {parent : Entry δ} :
      Goes (parent :: above) (.directory children) ".." above parent
  | top {children : List (String × Entry δ)} :
      Goes [] (.directory children) ".." [] (.directory children)
  | down {above : List (Entry δ)} {children : List (String × Entry δ)} {part : String}
      {child : Entry δ} : part ≠ "" → part ≠ "." → part ≠ ".." →
      part.utf8ByteSize ≤ nameLimit → child? part children = some child →
      Goes above (.directory children) part (.directory children :: above) child

variable {above above' : List (Entry δ)} {here here' there : Entry δ} {part : String}
  {parts rest : List String}

theorem walk_of_goes (h : Goes above here part above' here') :
    walk above here (part :: rest) = walk above' here' rest := by
  cases h with
  | nowhere hpart =>
    rcases hpart with rfl | rfl <;> rfl
  | up => rfl
  | top => rfl
  | down hempty hdot hup hroom hchild =>
    simp [walk, hempty, hdot, hup, Nat.not_lt.mpr hroom, hchild]

/-- A way through a tree is found part by part. -/
theorem walk_cons : walk above here (part :: rest) = .ok there ↔
    ∃ above' here', Goes above here part above' here' ∧ walk above' here' rest = .ok there := by
  refine ⟨fun h => ?_, fun ⟨_, _, hgoes, hrest⟩ => (walk_of_goes hgoes).trans hrest⟩
  have hgo {above' here'} (hgoes : Goes above here part above' here') :
      ∃ above' here', Goes above here part above' here' ∧ walk above' here' rest = .ok there :=
    ⟨above', here', hgoes, walk_of_goes hgoes ▸ h⟩
  cases here with
  | bytes _ => cases h
  | database _ => cases h
  | directory children =>
    by_cases hempty : part = ""
    · exact hgo (.nowhere (.inl hempty))
    by_cases hdot : part = "."
    · exact hgo (.nowhere (.inr hdot))
    by_cases hup : part = ".."
    · subst hup
      cases above with
      | nil => exact hgo .top
      | cons up more => exact hgo .up
    by_cases hroom : part.utf8ByteSize ≤ nameLimit
    · cases hchild : child? part children with
      | some e => exact hgo (.down hempty hdot hup hroom hchild)
      | none => simp [walk, hempty, hdot, hup, Nat.not_lt.mpr hroom, hchild] at h
    · simp [walk, hempty, hdot, hup, Nat.not_le.mp hroom] at h

/-- The segments of a path lead where all its parts lead. -/
theorem walk_filter (h : walk above here parts = .ok there) :
    walk above here (parts.filter fun part => part != "" && part != ".") = .ok there := by
  induction parts generalizing above here with
  | nil => exact h
  | cons part rest ih =>
    obtain ⟨above', here', hgoes, hrest⟩ := walk_cons.mp h
    have hfiltered := ih hrest
    cases hgoes with
    | nowhere hpart => rwa [List.filter_cons_of_neg (by simpa [or_iff_not_imp_left] using hpart)]
    | up => exact walk_cons.mpr ⟨_, _, .up, hfiltered⟩
    | top => exact walk_cons.mpr ⟨_, _, .top, hfiltered⟩
    | down hempty hdot hup hroom hchild =>
      rw [List.filter_cons_of_pos (by simp [hempty, hdot])]
      exact walk_cons.mpr ⟨_, _, .down hempty hdot hup hroom hchild, hfiltered⟩

theorem walk_append (h : walk above here (parts ++ rest) = .ok there) :
    ∃ above' between, walk above here parts = .ok between ∧
      walk above' between rest = .ok there := by
  induction parts generalizing above here with
  | nil => exact ⟨above, here, rfl, h⟩
  | cons part parts ih =>
    obtain ⟨_, _, hgoes, hrest⟩ := walk_cons.mp h
    obtain ⟨above', between, hparts, hthere⟩ := ih hrest
    exact ⟨above', between, walk_cons.mpr ⟨_, _, hgoes, hparts⟩, hthere⟩

/-- The entry that names lead to, each of them from a directory to one of its children. -/
def descend : List String → Entry δ → Option (Entry δ)
  | [], e => some e
  | name :: rest, .directory children => (child? name children).bind (descend rest)
  | _ :: _, _ => none

/-- Without a `..` a way leads from children to children. -/
theorem descend_of_walk (hnames : ∀ part ∈ parts, part ≠ "" ∧ part ≠ "." ∧ part ≠ "..")
    (h : walk above here parts = .ok there) : here.descend parts = some there := by
  induction parts generalizing above here with
  | nil => exact congrArg some (Except.ok.inj h)
  | cons part rest ih =>
    obtain ⟨_, _, hgoes, hrest⟩ := walk_cons.mp h
    obtain ⟨hempty, hdot, hup⟩ := hnames part List.mem_cons_self
    cases hgoes with
    | nowhere hpart => exact absurd hpart (by simp [hempty, hdot])
    | up => exact absurd rfl hup
    | top => exact absurd rfl hup
    | down _ _ _ _ hchild =>
      rw [descend, hchild, Option.bind_some]
      exact ih (fun part hpart => hnames part (List.mem_cons_of_mem _ hpart)) hrest

/-! ### The names on the way -/

theorem wayFrom_filter (back : List String) (components : List Component) :
    wayFrom back (components.filter (· ≠ .current)) = wayFrom back components := by
  induction components generalizing back with
  | nil => rfl
  | cons c rest ih => cases c <;> exact ih _

theorem wayFrom_names (back : List String) (components : List Component) (names : List String) :
    wayFrom back (components ++ names.map .normal) = wayFrom back components ++ names := by
  induction components generalizing back with
  | nil =>
    induction names generalizing back with
    | nil => simp [wayFrom]
    | cons name rest ih =>
      show wayFrom (name :: back) ([] ++ rest.map .normal) = _
      rw [ih]
      simp [wayFrom]
  | cons c rest ih => cases c <;> exact ih _

end Entry

/-! ### Under a root -/

namespace Environment
variable {δ : Type}

/-- What a root stands for: the entry that its path leads to from the working directory. -/
def top (e : Environment δ) (root : String) : Except FileFault (Entry δ) :=
  Entry.walk [] e.files (Path.segments (Path.join e.directory root))

theorem walk_of_find {root : Entry δ} {path : String} {there : Entry δ}
    (h : root.find path = .ok there) : Entry.walk [] root (Path.segments path) = .ok there := by
  unfold Entry.find at h
  split at h
  · cases h
  split at h
  · cases h
  split at h
  · cases h
  exact Entry.walk_filter h

/-- What is found under a root by a relative path without a `..` is below what the root stands
for. -/
theorem descend_of_find {e : Environment δ} {root path : String} {there : Entry δ}
    (hrelative : Path.isAbsolute path = false) (hne : path ≠ "")
    (hup : ".." ∉ Path.segments path) (h : e.find (Path.join root path) = .ok there) :
    ∃ top, e.top root = .ok top ∧ top.descend (Path.segments path) = some there := by
  have habsolute : e.absolute (Path.join root path) = Path.join e.directory (Path.join root path) :=
    if_neg (by simpa using Path.join_ne_empty root hne)
  rw [find, habsolute] at h
  have hwalk := walk_of_find h
  rw [Path.segments_join_join _ _ hrelative] at hwalk
  obtain ⟨above, top, htop, hrest⟩ := Entry.walk_append hwalk
  refine ⟨top, htop, Entry.descend_of_walk (fun part hpart => ?_) hrest⟩
  obtain ⟨-, -, hempty, hdot⟩ := Path.mem_segments.mp hpart
  exact ⟨hempty, hdot, fun h => hup (h ▸ hpart)⟩

end Environment
end Quire
