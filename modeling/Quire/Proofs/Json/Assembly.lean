import Quire.Proofs.Json.Lexing
import Quire.Store.Cell

/-! What is read of a written value.

The tokens of a value are assembled to its outline, whatever containers are open around it and
whatever follows (`assembleFrom_spelling`), as long as no container stands too deep to be read. So
a shape reads a text of a value as it reads the value (`readText_laid`). -/
namespace Quire.Json

/-- The rest of the tokens, after what a token did. -/
def resume (result : Except Outline (Awaits × List Frame)) (rest : List Token) : Document :=
  match result with
  | .ok (awaits, stack) => assembleFrom awaits stack rest
  | .error o => ⟨o, rest.isEmpty⟩

/-- A value may come next. -/
inductive Awaits.Value : Awaits → Prop
  | value : Awaits.Value .value
  | firstItem : Awaits.Value .firstItem

/-- A member may come next. -/
inductive Awaits.Member : Awaits → Prop
  | firstKey : Awaits.Member .firstKey
  | key : Awaits.Member .key

theorem settled_of_depth {below : List Frame} (h : below.length + 1 ≤ depthLimit) (o : Outline) :
    settled below o = o :=
  if_neg (Nat.not_le.mpr h)

/-! ### Brackets and keys -/

section
variable {awaits : Awaits} {below : List Frame}

theorem assembleFrom_openArray (h : awaits.Value) (rest : List Token) :
    assembleFrom awaits below (.openArray :: rest) =
      assembleFrom .firstItem (.array [] :: below) rest := by
  cases h <;> rfl

theorem assembleFrom_closeArray (h : awaits = .firstItem ∨ awaits = .afterItem)
    {items : List Outline} (hdepth : below.length + 1 ≤ depthLimit) (rest : List Token) :
    assembleFrom awaits (.array items :: below) (.closeArray :: rest) =
      resume (place (.array items.reverse true) below) rest := by
  rw [← settled_of_depth hdepth (.array items.reverse true)]
  rcases h with rfl | rfl <;> rfl

theorem assembleFrom_openObject (h : awaits.Value) (rest : List Token) :
    assembleFrom awaits below (.openObject :: rest) =
      assembleFrom .firstKey (.object [] none :: below) rest := by
  cases h <;> rfl

theorem assembleFrom_closeObject (h : awaits = .firstKey ∨ awaits = .afterMember)
    {members : List (Option String × Outline)} {key : Option String}
    (hdepth : below.length + 1 ≤ depthLimit) (rest : List Token) :
    assembleFrom awaits (.object members key :: below) (.closeObject :: rest) =
      resume (place (.object members.reverse true) below) rest := by
  rw [← settled_of_depth hdepth (.object members.reverse true)]
  rcases h with rfl | rfl <;> rfl

theorem assembleFrom_key (h : awaits.Member) {members : List (Option String × Outline)}
    {key : Option String} (name : String) (rest : List Token) :
    assembleFrom awaits (.object members key :: below) (.text (some name) :: .colon :: rest) =
      assembleFrom .value (.object members (some name) :: below) rest := by
  cases h <;> rfl

end

/-! ### Values -/

mutual

/-- The tokens of a value give its outline, whatever is open and whatever follows. -/
theorem assembleFrom_spelling : ∀ (j : Json) {awaits : Awaits}, awaits.Value →
    ∀ {stack : List Frame}, j.depth + stack.length ≤ depthLimit → ∀ rest,
    assembleFrom awaits stack (j.spelling ++ rest) = resume (place j.toOutline stack) rest
  | .null, _, h, _, _, _ | .bool _, _, h, _, _, _ | .number _, _, h, _, _, _
  | .text _, _, h, _, _, _ => by cases h <;> rfl
  | .array [], _, h, stack, hdepth, rest => by
    rw [depth] at hdepth
    rw [spelling, List.cons_append, List.append_assoc, assembleFrom_openArray h]
    exact assembleFrom_closeArray (.inl rfl) (by omega) rest
  | .array (j :: items), _, h, stack, hdepth, rest => by
    rw [depth] at hdepth
    rw [spelling, List.cons_append, List.append_assoc, assembleFrom_openArray h]
    exact assembleFrom_items (j :: items) (List.cons_ne_nil _ _) .firstItem (by omega) rest
  | .object [], _, h, stack, hdepth, rest => by
    rw [depth] at hdepth
    rw [spelling, List.cons_append, List.append_assoc, assembleFrom_openObject h]
    exact assembleFrom_closeObject (.inl rfl) (by omega) rest
  | .object (m :: members), _, h, stack, hdepth, rest => by
    rw [depth] at hdepth
    rw [spelling, List.cons_append, List.append_assoc, assembleFrom_openObject h]
    exact assembleFrom_members (m :: members) (List.cons_ne_nil _ _) .firstKey (by omega) rest

/-- The items of an array, after those that were read before. -/
theorem assembleFrom_items : ∀ (items : List Json), items ≠ [] → ∀ {awaits : Awaits},
    awaits.Value → ∀ {before : List Outline} {below : List Frame},
    itemsDepth items + 1 + below.length ≤ depthLimit → ∀ rest,
    assembleFrom awaits (.array before :: below) (itemsSpelling items ++ .closeArray :: rest) =
      resume (place (.array (before.reverse ++ outlines items) true) below) rest
  | [], hne, _, _, _, _, _, _ => absurd rfl hne
  | [j], _, _, h, before, below, hdepth, rest => by
    rw [itemsDepth, itemsDepth] at hdepth
    rw [itemsSpelling, assembleFrom_spelling j h (by rw [List.length_cons]; omega)]
    show assembleFrom .afterItem (.array (j.toOutline :: before) :: below) _ = _
    rw [assembleFrom_closeArray (.inr rfl) (by omega), List.reverse_cons]
    rfl
  | j :: k :: items, _, _, h, before, below, hdepth, rest => by
    rw [itemsDepth] at hdepth
    rw [itemsSpelling, List.append_assoc,
      assembleFrom_spelling j h (by rw [List.length_cons]; omega)]
    show assembleFrom .value (.array (j.toOutline :: before) :: below)
      (itemsSpelling (k :: items) ++ _) = _
    rw [assembleFrom_items (k :: items) (List.cons_ne_nil _ _) .value (by omega),
      List.reverse_cons, List.append_assoc]
    rfl

/-- The members of an object, after those that were read before. -/
theorem assembleFrom_members : ∀ (members : List (String × Json)), members ≠ [] →
    ∀ {awaits : Awaits}, awaits.Member →
    ∀ {before : List (Option String × Outline)} {key : Option String} {below : List Frame},
    membersDepth members + 1 + below.length ≤ depthLimit → ∀ rest,
    assembleFrom awaits (.object before key :: below)
        (membersSpelling members ++ .closeObject :: rest) =
      resume (place (.object (before.reverse ++ memberOutlines members) true) below) rest
  | [], hne, _, _, _, _, _, _, _ => absurd rfl hne
  | [(name, j)], _, _, h, before, _, below, hdepth, rest => by
    rw [membersDepth, membersDepth] at hdepth
    rw [membersSpelling, List.cons_append, List.cons_append, assembleFrom_key h,
      assembleFrom_spelling j .value (by rw [List.length_cons]; omega)]
    show assembleFrom .afterMember
      (.object ((some name, j.toOutline) :: before) none :: below) _ = _
    rw [assembleFrom_closeObject (.inr rfl) (by omega), List.reverse_cons]
    rfl
  | (name, j) :: m :: members, _, _, h, before, _, below, hdepth, rest => by
    rw [membersDepth] at hdepth
    rw [membersSpelling, List.cons_append, List.cons_append, List.append_assoc, assembleFrom_key h,
      assembleFrom_spelling j .value (by rw [List.length_cons]; omega)]
    show assembleFrom .key (.object ((some name, j.toOutline) :: before) none :: below)
      (membersSpelling (m :: members) ++ _) = _
    rw [assembleFrom_members (m :: members) (List.cons_ne_nil _ _) .key (by omega),
      List.reverse_cons, List.append_assoc]
    rfl

end

theorem itemsDepth_le {n : Nat} {items : List Json} (h : ∀ j ∈ items, j.depth ≤ n) :
    itemsDepth items ≤ n := by
  induction items with
  | nil => exact Nat.zero_le n
  | cons j rest ih =>
    exact Nat.max_le.mpr ⟨h j List.mem_cons_self, ih fun k hk => h k (List.mem_cons_of_mem j hk)⟩

theorem membersDepth_le {n : Nat} {members : List (String × Json)}
    (h : ∀ m ∈ members, m.2.depth ≤ n) : membersDepth members ≤ n := by
  induction members with
  | nil => exact Nat.zero_le n
  | cons m rest ih =>
    exact Nat.max_le.mpr ⟨h m List.mem_cons_self, ih fun k hk => h k (List.mem_cons_of_mem m hk)⟩

/-- The tokens of a value, and nothing else. -/
theorem assemble_spelling {j : Json} (hdepth : j.depth ≤ depthLimit) :
    assemble j.spelling = ⟨j.toOutline, true⟩ := by
  have hroom : j.depth + ([] : List Frame).length ≤ depthLimit := hdepth
  have hall := assembleFrom_spelling j .value hroom []
  rw [List.append_nil] at hall
  exact hall

/-- Whatever a value is written as is read as the value. -/
theorem readText_laid {α : Type} (s : Shape α) {j : Json} {text : String} (h : Laid j text.toList)
    (hdepth : j.depth ≤ depthLimit) : readText s text = s .text j.toOutline := by
  rw [readText, documentOf, symbolsOf, h.spells.tokens_eq, assemble_spelling hdepth]
  show (do let a ← s .text j.toOutline; if true then .ok a else .error .notJson) = _
  cases s .text j.toOutline <;> rfl

/-- A text that a value is printed as is read as the value. -/
theorem readText_compact {α : Type} (s : Shape α) {j : Json} (hfits : j.Fits)
    (hdepth : j.depth ≤ depthLimit) : readText s j.compact = s .text j.toOutline :=
  readText_laid s (laid_compact j hfits) hdepth

end Quire.Json
