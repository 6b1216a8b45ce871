import Mathlib.Data.List.Forall2
import Mathlib.Tactic.IntervalCases
import Quire.Json.Printer
import Quire.Json.Token

/-! The tokens of a written value.

A text spells tokens if these are what is read of it, whatever follows (`Spells`). All that follows
a value in a text ends a numeral too, so what is spelled is put together from the spellings of its
parts: brackets, words, numerals and strings. A value may be written with any blanks between its
tokens, and each character of a string in several ways (`Laid`); it is always read as the tokens that
it consists of (`Laid.spells`), and so is what is printed of a value whose numbers are whole
(`spells_compact`). -/
namespace Quire.Json

/-! ### Spelling -/

/-- What follows does not begin with anything that belongs to a numeral. -/
def Ends (rest : List Char) : Prop :=
  ∀ c ∈ rest.head?, digit? c = none ∧ c ≠ '.' ∧ c ≠ 'e' ∧ c ≠ 'E'

/-- A text is read as tokens, whatever follows that ends a numeral. -/
def Spells (text : List Char) (ts : List Token) : Prop :=
  ∀ rest, Ends rest →
    tokensFrom .between ((text ++ rest).map some) = ts ++ tokensFrom .between (rest.map some)

theorem Ends.nil : Ends [] := by simp [Ends]

/-- What begins with a sign of the syntax ends a numeral. -/
theorem Ends.cons {c : Char} (hdigit : digit? c = none) (hsign : c ≠ '.' ∧ c ≠ 'e' ∧ c ≠ 'E')
    (rest : List Char) : Ends (c :: rest) := by
  intro c' hc'
  obtain rfl := Option.some.inj hc'
  exact ⟨hdigit, hsign⟩

namespace Spells
variable {text text' : List Char} {ts ts' : List Token}

theorem nil : Spells [] [] := fun _ _ => rfl

/-- A character that is complete by itself, before a text. -/
theorem cons {c : Char} (hc : start c = (ts, some .between)) (h : Spells text ts') :
    Spells (c :: text) (ts ++ ts') := by
  intro rest hrest
  rw [List.append_assoc, ← h rest hrest, List.cons_append, List.map_cons]
  simp only [tokensFrom, Lexing.step, hc]

/-- One text after another, if the second one ends numerals. -/
theorem append (h : Spells text ts) (h' : Spells text' ts')
    (hends : ∀ rest, Ends rest → Ends (text' ++ rest)) : Spells (text ++ text') (ts ++ ts') := by
  intro rest hrest
  rw [List.append_assoc, h _ (hends rest hrest), h' rest hrest, List.append_assoc]

/-- The tokens of a text that spells them. -/
theorem tokens_eq (h : Spells text ts) : tokens (text.map some) = ts := by
  have hall := h [] .nil
  rw [List.append_nil] at hall
  rw [tokens, hall]
  simp [tokensFrom, Lexing.finish]

end Spells

/-! ### Words -/

theorem spells_null : Spells "null".toList [.null] := fun _ _ => rfl

theorem spells_true : Spells "true".toList [.bool true] := fun _ _ => rfl

theorem spells_false : Spells "false".toList [.bool false] := fun _ _ => rfl

/-! ### Numerals -/

/-- A number that is written as a numeral and read again. -/
def Number.Fits : Number → Prop
  | .integer n => -0x8000000000000000 ≤ n ∧ n ≤ maxWord
  | .real _ => False

theorem digit?_digitChar : ∀ d < 10, digit? (Nat.digitChar d) = some d := by decide

theorem appendDigits_concat {word word' d : Nat} {ds : List Nat}
    (h : appendDigits word ds = (word', 0)) (hfits : word' * 10 + d ≤ maxWord) :
    appendDigits word (ds ++ [d]) = (word' * 10 + d, 0) := by
  induction ds generalizing word with
  | nil =>
    obtain rfl : word = word' := congrArg Prod.fst h
    simp [appendDigits, Nat.not_lt.mpr hfits]
  | cons e es ih =>
    rw [List.cons_append]
    unfold appendDigits at h ⊢
    split at h
    · simp at h
    · rename_i hroom
      rw [if_neg hroom]
      exact ih h

/-- What comes after a numeral that may end completes it. -/
theorem tokensFrom_numeral {state : NumeralState} {n : Numeral} (haccepts : state.accepts = true)
    (hdone : ∀ c, digit? c = none → c ≠ '.' → c ≠ 'e' → c ≠ 'E' → state.step n c = .done)
    {rest : List Char} (hrest : Ends rest) :
    tokensFrom (.numeral state n) (rest.map some) =
      .number n.value? :: tokensFrom .between (rest.map some) := by
  cases rest with
  | nil => simp [tokensFrom, Lexing.finish, haccepts]
  | cons c rest =>
    obtain ⟨hdigit, hpoint, he, hE⟩ := hrest c rfl
    have hstep := hdone c hdigit hpoint he hE
    rw [List.map_cons, tokensFrom, tokensFrom]
    simp only [Lexing.step, hstep]
    obtain ⟨out, next⟩ := start c
    cases next with
    | none => rfl
    | some next => rfl

theorem afterWhole_done {n : Numeral} {c : Char} (hpoint : c ≠ '.') (he : c ≠ 'e') (hE : c ≠ 'E') :
    afterWhole n c = .done := by
  simp [afterWhole, hpoint, he, hE]

/-- The digits of a number are read after its sign, if it has one; they denote the number. -/
theorem tokensFrom_digits {state : Lexing} {m : Numeral}
    (hfirst : ∀ d, 1 ≤ d → d < 10 → ∀ rest, tokensFrom state (some (Nat.digitChar d) :: rest) =
      tokensFrom (.numeral .whole { m with whole := [d] }) rest)
    {n : Nat} (hpositive : 1 ≤ n) (hfits : n ≤ maxWord) :
    ∃ whole, appendDigits 0 whole.reverse = (n, 0) ∧
      ∀ rest, tokensFrom state ((Nat.toDigits 10 n).map some ++ rest) =
        tokensFrom (.numeral .whole { m with whole := whole }) rest := by
  induction n using Nat.strongRecOn with
  | ind n ih =>
    by_cases hsmall : n < 10
    · refine ⟨[n], ?_, fun rest => ?_⟩
      · simp [appendDigits, Nat.not_lt.mpr hfits]
      · rw [Nat.toDigits_of_lt_base hsmall]
        exact hfirst n hpositive hsmall rest
    · have hbase : 10 ≤ n := Nat.not_lt.mp hsmall
      obtain ⟨whole, hwhole, hread⟩ := ih (n / 10) (by omega) (by omega) (by omega)
      have hdigit := digit?_digitChar (n % 10) (Nat.mod_lt n (by omega))
      have hvalue : n / 10 * 10 + n % 10 = n := by omega
      refine ⟨n % 10 :: whole, ?_, fun rest => ?_⟩
      · rw [List.reverse_cons, appendDigits_concat hwhole (by omega), hvalue]
      · rw [Nat.toDigits_of_base_le (by omega) hbase, List.map_append, List.append_assoc, hread]
        simp [tokensFrom, Lexing.step, NumeralState.step, hdigit]

/-- The numeral of a positive number, after its sign if it has one. -/
theorem tokensFrom_positive {state : Lexing} {m : Numeral} {value : Option Number} {n : Nat}
    (hfirst : ∀ d, 1 ≤ d → d < 10 → ∀ rest, tokensFrom state (some (Nat.digitChar d) :: rest) =
      tokensFrom (.numeral .whole { m with whole := [d] }) rest)
    (hvalue : ∀ whole, appendDigits 0 whole.reverse = (n, 0) →
      ({ m with whole := whole } : Numeral).value? = value)
    (hpositive : 1 ≤ n) (hfits : n ≤ maxWord) {rest : List Char} (hrest : Ends rest) :
    tokensFrom state ((n.repr.toList ++ rest).map some) =
      .number value :: tokensFrom .between (rest.map some) := by
  obtain ⟨whole, hwhole, hread⟩ := tokensFrom_digits hfirst hpositive hfits
  rw [Nat.toList_repr, List.map_append, hread, tokensFrom_numeral rfl _ hrest, hvalue whole hwhole]
  intro c hdigit hpoint he hE
  simp [NumeralState.step, hdigit, afterWhole_done hpoint he hE]

theorem spells_nat {n : Nat} (hfits : n ≤ maxWord) :
    Spells n.repr.toList [.number (some (.integer n))] := by
  intro rest hrest
  rcases Nat.eq_zero_or_pos n with rfl | hpositive
  · have hzero : tokensFrom (.numeral .zero { whole := [0] }) (rest.map some) = _ :=
      tokensFrom_numeral rfl (fun c hdigit hpoint he hE => by
        simp [NumeralState.step, hdigit, afterWhole_done hpoint he hE]) hrest
    exact hzero
  · refine tokensFrom_positive (m := {}) (fun d hlow hhigh rest => ?_) (fun whole hwhole => ?_)
      hpositive hfits hrest
    · interval_cases d <;> rfl
    · simp [Numeral.value?, hwhole]

theorem spells_number {n : Number} (h : n.Fits) : Spells n.text.toList [.number (some n)] := by
  cases n with
  | real x => exact h.elim
  | integer n =>
    obtain ⟨hlow, hhigh⟩ := h
    cases n with
    | ofNat n => exact spells_nat (Int.ofNat_le.mp hhigh)
    | negSucc n =>
      have hfits : n + 1 ≤ maxWord ∧ ¬ 0x8000000000000000 < n + 1 := by
        unfold maxWord
        omega
      have htext : (Number.integer (.negSucc n)).text.toList = '-' :: (n + 1).repr.toList := by
        show ("-" ++ (n + 1).repr).toList = _
        rw [String.toList_append]
        rfl
      intro rest hrest
      rw [htext]
      show tokensFrom (.numeral .minus { negative := true })
        (((n + 1).repr.toList ++ rest).map some) = _
      refine tokensFrom_positive (m := { negative := true }) (fun d hlow hhigh rest => ?_)
        (fun whole hwhole => ?_) (by omega) hfits.1 hrest
      · interval_cases d <;> rfl
      · simp [Numeral.value?, hwhole, hfits.2]
        omega

/-! ### Strings -/

/-- A hexadecimal digit, in either case. -/
def IsHex (n : Nat) (c : Char) : Prop :=
  n < 16 ∧ (c = Nat.digitChar n ∨ c = (Nat.digitChar n).toUpper)

/-- Four hexadecimal digits. -/
def Hex4 (n : Nat) (digits : List Char) : Prop :=
  ∃ a b c d, digits = [a, b, c, d] ∧ IsHex (n / 4096) a ∧ IsHex (n / 256 % 16) b ∧
    IsHex (n / 16 % 16) c ∧ IsHex (n % 16) d

/-- The letters that stand for characters after a backslash. -/
def letters : List (Char × Char) :=
  [('"', '"'), ('\\', '\\'), ('/', '/'), ('b', Char.ofNat 8), ('f', Char.ofNat 12), ('n', '\n'),
    ('r', '\r'), ('t', '\t')]

/-- What may stand for a character in a string: the character, unless it is a quote, a backslash or a
control; its letter after a backslash; or the numbers of its sixteen-bit units. -/
inductive Denotes : List Char → Char → Prop
  | plain {c : Char} : c ≠ '"' → c ≠ '\\' → 0x20 ≤ c.toNat → Denotes [c] c
  | letter {l c : Char} : (l, c) ∈ letters → Denotes ['\\', l] c
  | unit {c : Char} {digits : List Char} : Hex4 c.toNat digits →
      Denotes ('\\' :: 'u' :: digits) c
  | pair {c : Char} {high low : List Char} : 0x10000 ≤ c.toNat →
      Hex4 (0xD800 + (c.toNat - 0x10000) / 0x400) high →
      Hex4 (0xDC00 + (c.toNat - 0x10000) % 0x400) low →
      Denotes ('\\' :: 'u' :: (high ++ '\\' :: 'u' :: low)) c

/-- A string for a text, each of its characters written in one of its ways. -/
def Quotes (cs : List Char) (s : String) : Prop :=
  ∃ parts, List.Forall₂ Denotes parts s.toList ∧ cs = '"' :: (parts.flatten ++ ['"'])

theorem hexValue?_digitChar : ∀ n < 16, hexValue? (Nat.digitChar n) = some n ∧
    hexValue? (Nat.digitChar n).toUpper = some n := by decide

theorem hexValue?_of_isHex {n : Nat} {c : Char} (h : IsHex n c) : hexValue? c = some n := by
  obtain ⟨hdigit, rfl | rfl⟩ := h
  exacts [(hexValue?_digitChar n hdigit).1, (hexValue?_digitChar n hdigit).2]

theorem tokensFrom_hex4 (pieces : List Piece) {n : Nat} {digits : List Char} (h : Hex4 n digits)
    (rest : List Text.Symbol) :
    tokensFrom (.string pieces) (('\\' :: 'u' :: digits).map some ++ rest) =
      tokensFrom (.string (.unit n :: pieces)) rest := by
  obtain ⟨a, b, c, d, rfl, ha, hb, hc, hd⟩ := h
  have hvalue : ((n / 4096 * 16 + n / 256 % 16) * 16 + n / 16 % 16) * 16 + n % 16 = n := by omega
  simp [tokensFrom, Lexing.step, hexValue?_of_isHex ha, hexValue?_of_isHex hb,
    hexValue?_of_isHex hc, hexValue?_of_isHex hd, hvalue]

/-- Whatever pieces come before and after, a text is read as pieces that spell some characters. -/
def Reads (text cs : List Char) : Prop :=
  ∃ ps, (∀ pieces rest, tokensFrom (.string pieces) (text.map some ++ rest) =
      tokensFrom (.string (ps.reverse ++ pieces)) rest) ∧
    ∀ more, spell (ps ++ more) = (spell more).map (cs ++ ·)

/-- The unit of a character that has only one. -/
theorem spell_unit (c : Char) (more : List Piece) :
    spell (.unit c.toNat :: more) = (spell more).map (c :: ·) := by
  have hscalar : c.toNat < 0xD800 ∨ 0xE000 ≤ c.toNat := by
    have hvalid : c.toNat < 0xD800 ∨ 0xDFFF < c.toNat ∧ c.toNat < 0x110000 := c.valid
    omega
  rw [spell.eq_def]
  simp [hscalar]

/-- The two units of a character that has two. -/
theorem spell_pair {c : Char} (hwide : 0x10000 ≤ c.toNat) (more : List Piece) :
    spell (.unit (0xD800 + (c.toNat - 0x10000) / 0x400) ::
      .unit (0xDC00 + (c.toNat - 0x10000) % 0x400) :: more) = (spell more).map (c :: ·) := by
  have hvalid : c.toNat < 0xD800 ∨ 0xDFFF < c.toNat ∧ c.toNat < 0x110000 := c.valid
  obtain ⟨n, hn⟩ : ∃ n, c.toNat - 0x10000 = n := ⟨_, rfl⟩
  rw [hn]
  have hlead : ¬ 0xE000 ≤ 0xD800 + n / 0x400 := by omega
  have htrail : 0xD800 + n / 0x400 < 0xDC00 := by omega
  have hsecond : 0xDC00 + n % 0x400 < 0xE000 := by omega
  have hvalue : n / 0x400 * 1024 + n % 0x400 + 0x10000 = c.toNat := by omega
  rw [spell.eq_def]
  simp [hlead, htrail, hsecond, hvalue]

theorem reads_denoted {text : List Char} {c : Char} (h : Denotes text c) : Reads text [c] := by
  cases h with
  | plain hquote hslash hcontrol =>
    refine ⟨[.char c], fun pieces rest => ?_, fun _ => rfl⟩
    have hstep : Lexing.step (.string pieces) (some c) = ([], some (.string (.char c :: pieces))) := by
      simp only [Lexing.step, beq_iff_eq]
      rw [if_neg hquote, if_neg hslash, if_neg (Nat.not_lt.mpr hcontrol)]
    simp [tokensFrom, hstep]
  | letter hletter =>
    refine ⟨[.char c], fun pieces rest => ?_, fun _ => rfl⟩
    simp only [letters, List.mem_cons, Prod.mk.injEq, List.not_mem_nil, or_false] at hletter
    rcases hletter with h | h | h | h | h | h | h | h <;> (obtain ⟨rfl, rfl⟩ := h; rfl)
  | unit hdigits => exact ⟨[.unit c.toNat], fun pieces => tokensFrom_hex4 pieces hdigits, spell_unit c⟩
  | @pair _ high low hwide hhigh hlow =>
    refine ⟨[.unit _, .unit _], fun pieces rest => ?_, spell_pair hwide⟩
    have hboth : ('\\' :: 'u' :: (high ++ '\\' :: 'u' :: low)).map some ++ rest =
        ('\\' :: 'u' :: high).map some ++ (('\\' :: 'u' :: low).map some ++ rest) := by simp
    rw [hboth, tokensFrom_hex4 pieces hhigh, tokensFrom_hex4 _ hlow]
    rfl

theorem Reads.append {text text' cs cs' : List Char} (h : Reads text cs) (h' : Reads text' cs') :
    Reads (text ++ text') (cs ++ cs') := by
  obtain ⟨ps, hread, hspell⟩ := h
  obtain ⟨ps', hread', hspell'⟩ := h'
  refine ⟨ps ++ ps', fun pieces rest => ?_, fun more => ?_⟩
  · rw [List.map_append, List.append_assoc, hread, hread', List.reverse_append, List.append_assoc]
  · rw [List.append_assoc, hspell, hspell', Option.map_map]
    simp [Function.comp_def]

theorem reads_parts {parts : List (List Char)} {cs : List Char} (h : List.Forall₂ Denotes parts cs) :
    Reads parts.flatten cs := by
  induction h with
  | nil => exact ⟨[], fun _ _ => rfl, fun more => by simp⟩
  | cons hpart _ ih => exact (reads_denoted hpart).append ih

theorem spells_quoted {cs : List Char} {s : String} (h : Quotes cs s) : Spells cs [.text (some s)] := by
  obtain ⟨parts, hparts, rfl⟩ := h
  obtain ⟨ps, hread, hspell⟩ := reads_parts hparts
  intro rest _
  have hall : spell ps = some s.toList := by simpa [spell] using hspell []
  rw [List.cons_append, List.map_cons, List.append_assoc, List.map_append]
  show tokensFrom (.string []) _ = _
  rw [hread]
  simp [tokensFrom, Lexing.step, hall]

/-- A character is printed in one of its ways. -/
theorem denotes_escapedChar (c : Char) : Denotes (escapedChar c).toList c := by
  unfold escapedChar
  split
  case h_1 | h_2 | h_3 | h_4 | h_5 => exact .letter (by decide)
  case h_6 hquote hslash _ _ _ =>
    by_cases hback : c.toNat = 8
    · obtain rfl : c = Char.ofNat 8 := by rw [← hback, Char.ofNat_toNat]
      exact .letter (by decide)
    by_cases hfeed : c.toNat = 12
    · obtain rfl : c = Char.ofNat 12 := by rw [← hfeed, Char.ofNat_toNat]
      exact .letter (by decide)
    simp only [beq_iff_eq, hback, hfeed, if_false]
    split
    case isTrue hcontrol =>
      rw [String.toList_append, String.toList_ofList]
      have hzero : IsHex 0 '0' := ⟨by decide, .inl rfl⟩
      have hhigh : c.toNat / 4096 = 0 ∧ c.toNat / 256 % 16 = 0 ∧ c.toNat / 16 % 16 = c.toNat / 16 := by
        omega
      refine .unit ⟨'0', '0', Nat.digitChar (c.toNat / 16), Nat.digitChar (c.toNat % 16), ?_⟩
      rw [hhigh.1, hhigh.2.1, hhigh.2.2]
      exact ⟨by simp, hzero, hzero, ⟨by omega, .inl rfl⟩, ⟨by omega, .inl rfl⟩⟩
    case isFalse hplain =>
      rw [Char.toString, String.toList_singleton]
      exact .plain hquote hslash (Nat.not_lt.mp hplain)

theorem quotes_stringText (s : String) : Quotes (stringText s).toList s := by
  refine ⟨s.toList.map fun c => (escapedChar c).toList, ?_, ?_⟩
  · rw [List.forall₂_map_left_iff, List.forall₂_same]
    exact fun c _ => denotes_escapedChar c
  · rw [stringText, String.toList_append, String.toList_append, String.toList_join,
      List.flatMap_map, List.flatMap_def]
    rfl

/-! ### Values -/

mutual

/-- The tokens that a value is printed as. -/
def spelling : Json → List Token
  | .null => [.null]
  | .bool b => [.bool b]
  | .number n => [.number (some n)]
  | .text s => [.text (some s)]
  | .array items => .openArray :: (itemsSpelling items ++ [.closeArray])
  | .object members => .openObject :: (membersSpelling members ++ [.closeObject])

def itemsSpelling : List Json → List Token
  | [] => []
  | [j] => spelling j
  | j :: k :: rest => spelling j ++ .comma :: itemsSpelling (k :: rest)

def membersSpelling : List (String × Json) → List Token
  | [] => []
  | [(key, j)] => .text (some key) :: .colon :: spelling j
  | (key, j) :: m :: rest =>
    .text (some key) :: .colon :: (spelling j ++ .comma :: membersSpelling (m :: rest))

end

mutual

/-- Every number in the value is written as a numeral and read again. -/
def Fits : Json → Prop
  | .number n => n.Fits
  | .array items => ItemsFit items
  | .object members => MembersFit members
  | _ => True

def ItemsFit : List Json → Prop
  | [] => True
  | j :: rest => j.Fits ∧ ItemsFit rest

def MembersFit : List (String × Json) → Prop
  | [] => True
  | (_, j) :: rest => j.Fits ∧ MembersFit rest

end

theorem itemsFit_map {α : Type} {f : α → Json} (h : ∀ a, (f a).Fits) (as : List α) :
    ItemsFit (as.map f) := by
  induction as with
  | nil => trivial
  | cons a rest ih => exact ⟨h a, ih⟩

/-! ### Layouts -/

/-- What may stand between two tokens. -/
def Gap (cs : List Char) : Prop := ∀ c ∈ cs, c ∈ [' ', '\n', '\t', '\r']

mutual

/-- A text that a value may be written as: every string in one of its ways, and any blanks between the
tokens. -/
inductive Laid : Json → List Char → Prop
  | null : Laid .null "null".toList
  | true : Laid (.bool true) "true".toList
  | false : Laid (.bool false) "false".toList
  | number {n : Number} : n.Fits → Laid (.number n) n.text.toList
  | text {s : String} {cs : List Char} : Quotes cs s → Laid (.text s) cs
  | array {items : List Json} {cs : List Char} : ItemsLaid items cs →
      Laid (.array items) ('[' :: (cs ++ [']']))
  | object {members : List (String × Json)} {cs : List Char} : MembersLaid members cs →
      Laid (.object members) ('{' :: (cs ++ ['}']))

inductive ItemsLaid : List Json → List Char → Prop
  | none {gap : List Char} : Gap gap → ItemsLaid [] gap
  | last {j : Json} {before cs after : List Char} : Gap before → Laid j cs → Gap after →
      ItemsLaid [j] (before ++ cs ++ after)
  | cons {j k : Json} {rest : List Json} {before cs after more : List Char} : Gap before →
      Laid j cs → Gap after → ItemsLaid (k :: rest) more →
      ItemsLaid (j :: k :: rest) (before ++ cs ++ after ++ ',' :: more)

inductive MembersLaid : List (String × Json) → List Char → Prop
  | none {gap : List Char} : Gap gap → MembersLaid [] gap
  | last {m : String × Json} {cs : List Char} : MemberLaid m cs → MembersLaid [m] cs
  | cons {m n : String × Json} {rest : List (String × Json)} {cs more : List Char} :
      MemberLaid m cs → MembersLaid (n :: rest) more →
      MembersLaid (m :: n :: rest) (cs ++ ',' :: more)

inductive MemberLaid : String × Json → List Char → Prop
  | mk {key : String} {j : Json} {before name behind between cs after : List Char} :
      Gap before → Quotes name key → Gap behind → Gap between → Laid j cs → Gap after →
      MemberLaid (key, j) (before ++ name ++ behind ++ ':' :: (between ++ cs ++ after))

end

theorem Gap.nil : Gap [] := nofun

theorem Gap.tail {c : Char} {cs : List Char} (h : Gap (c :: cs)) : Gap cs :=
  fun d hd => h d (List.mem_cons_of_mem c hd)

theorem Gap.blank {c : Char} {cs : List Char} (h : Gap (c :: cs)) :
    c = ' ' ∨ c = '\n' ∨ c = '\t' ∨ c = '\r' := by
  simpa using h c List.mem_cons_self

theorem Gap.ends {gap rest : List Char} (h : Gap gap) (hrest : Ends rest) : Ends (gap ++ rest) := by
  cases gap with
  | nil => exact hrest
  | cons c gap => rcases h.blank with rfl | rfl | rfl | rfl <;> exact .cons rfl (by decide) _

/-- A sign of the syntax before a text. -/
theorem Spells.sign {c : Char} {t : Token} {text : List Char} {ts : List Token}
    (hc : start c = ([t], some .between)) (h : Spells text ts) : Spells (c :: text) (t :: ts) :=
  cons hc h

/-- A text that ends with a sign of the syntax. -/
theorem Spells.closed {c : Char} {t : Token} {text : List Char} {ts : List Token}
    (h : Spells text ts) (hc : start c = ([t], some .between)) (hdigit : digit? c = none)
    (hsign : c ≠ '.' ∧ c ≠ 'e' ∧ c ≠ 'E') : Spells (text ++ [c]) (ts ++ [t]) :=
  h.append (sign hc nil) fun rest _ => .cons hdigit hsign rest

/-- Two texts with a sign of the syntax between them. -/
theorem Spells.joined {c : Char} {t : Token} {text text' : List Char} {ts ts' : List Token}
    (h : Spells text ts) (h' : Spells text' ts') (hc : start c = ([t], some .between))
    (hdigit : digit? c = none) (hsign : c ≠ '.' ∧ c ≠ 'e' ∧ c ≠ 'E') :
    Spells (text ++ c :: text') (ts ++ t :: ts') :=
  h.append (sign hc h') fun rest _ => .cons hdigit hsign (text' ++ rest)

/-- Blanks before a text add no tokens. -/
theorem Spells.behind {gap text : List Char} {ts : List Token} (hgap : Gap gap)
    (h : Spells text ts) : Spells (gap ++ text) ts := by
  induction gap with
  | nil => exact h
  | cons c gap ih =>
    have hblank : start c = ([], some .between) := by
      rcases hgap.blank with rfl | rfl | rfl | rfl <;> rfl
    exact cons hblank (ih hgap.tail)

theorem spells_gap {gap : List Char} (h : Gap gap) : Spells gap [] := by
  simpa using Spells.nil.behind h

/-- Blanks around a text add no tokens. -/
theorem Spells.padded {before text after : List Char} {ts : List Token} (hbefore : Gap before)
    (h : Spells text ts) (hafter : Gap after) : Spells (before ++ text ++ after) ts := by
  have hall := (h.behind hbefore).append (spells_gap hafter) fun _ => hafter.ends
  rwa [List.append_nil] at hall

mutual

/-- Whatever a value is written as is read as its tokens. -/
theorem Laid.spells : ∀ {j : Json} {cs : List Char}, Laid j cs → Spells cs j.spelling
  | _, _, .null => spells_null
  | _, _, .true => spells_true
  | _, _, .false => spells_false
  | _, _, .number h => spells_number h
  | _, _, .text h => spells_quoted h
  | _, _, .array h => .sign rfl (h.spells.closed rfl rfl (by decide))
  | _, _, .object h => .sign rfl (h.spells.closed rfl rfl (by decide))

theorem ItemsLaid.spells : ∀ {items : List Json} {cs : List Char}, ItemsLaid items cs →
    Spells cs (itemsSpelling items)
  | _, _, .none h => spells_gap h
  | _, _, .last hbefore h hafter => h.spells.padded hbefore hafter
  | _, _, .cons hbefore h hafter hrest =>
    (h.spells.padded hbefore hafter).joined hrest.spells rfl rfl (by decide)

theorem MembersLaid.spells : ∀ {members : List (String × Json)} {cs : List Char},
    MembersLaid members cs → Spells cs (membersSpelling members)
  | _, _, .none h => spells_gap h
  | _, _, .last h => h.spells
  | _, _, .cons h hrest => h.spells.joined (c := ',') hrest.spells rfl rfl (by decide)

theorem MemberLaid.spells : ∀ {m : String × Json} {cs : List Char}, MemberLaid m cs →
    Spells cs (.text (some m.1) :: .colon :: m.2.spelling)
  | _, _, .mk hbefore hname hbehind hbetween h hafter =>
    ((spells_quoted hname).padded hbefore hbehind).joined (h.spells.padded hbetween hafter) rfl rfl
      (by decide)

end

/-! ### Printing -/

mutual

/-- A value is printed as it may be written. -/
theorem laid_compact : ∀ j : Json, j.Fits → Laid j j.compact.toList
  | .null, _ => .null
  | .bool true, _ => .true
  | .bool false, _ => .false
  | .number _, h => .number h
  | .text s, _ => .text (quotes_stringText s)
  | .array items, h => by
    rw [compact, String.toList_append, String.toList_append, List.append_assoc]
    exact .array (laid_items items h)
  | .object members, h => by
    rw [compact, String.toList_append, String.toList_append, List.append_assoc]
    exact .object (laid_members members h)

theorem laid_items : ∀ items : List Json, ItemsFit items →
    ItemsLaid items (compactItems items).toList
  | [], _ => .none .nil
  | [j], h => by
    simpa [compactItems] using ItemsLaid.last .nil (laid_compact j h.1) .nil
  | j :: k :: rest, h => by
    have hall := ItemsLaid.cons .nil (laid_compact j h.1) .nil (laid_items (k :: rest) h.2)
    simpa [compactItems] using hall

theorem laid_members : ∀ members : List (String × Json), MembersFit members →
    MembersLaid members (compactMembers members).toList
  | [], _ => .none .nil
  | [(key, j)], h => by
    have hmember := MemberLaid.mk .nil (quotes_stringText key) .nil .nil (laid_compact j h.1) .nil
    simpa [compactMembers] using MembersLaid.last hmember
  | (key, j) :: m :: rest, h => by
    have hmember := MemberLaid.mk .nil (quotes_stringText key) .nil .nil (laid_compact j h.1) .nil
    simpa [compactMembers] using MembersLaid.cons hmember (laid_members (m :: rest) h.2)

end

theorem spells_compact (j : Json) (h : j.Fits) : Spells j.compact.toList j.spelling :=
  (laid_compact j h).spells

end Quire.Json
