import Quire.Json.Numeral
import Quire.Text.Utf8

/-! The tokens of a JSON text.

`tokens` reads symbols one after the other. The first symbol that no JSON text can hold in its
place ends the tokens with a `fault`. A string with a lone surrogate or with bytes that are no
characters, and a numeral beyond every double, still are tokens, but without a value. -/
namespace Quire.Json
open Quire.Text (Symbol)

inductive Token
  | openArray | closeArray | openObject | closeObject | comma | colon
  | null
  | bool (b : Bool)
  | number (n : Option Number)
  | text (s : Option String)
  | fault

/-- What a string is made of: characters, sixteen-bit escapes, and bytes that are no character. -/
inductive Piece
  | char (c : Char)
  | unit (n : Nat)
  | broken

/-- The text of a string. Two escapes may form one character; a half of such a pair alone has none. -/
def spell : List Piece → Option (List Char)
  | [] => some []
  | .char c :: rest => (spell rest).map (c :: ·)
  | .broken :: _ => none
  | .unit n :: rest =>
    if n < 0xD800 || 0xE000 ≤ n then (spell rest).map (Char.ofNat n :: ·)
    else if n < 0xDC00 then
      match rest with
      | .unit m :: rest' =>
        if 0xDC00 ≤ m && m < 0xE000 then
          (spell rest').map (Char.ofNat ((n - 0xD800) * 1024 + (m - 0xDC00) + 0x10000) :: ·)
        else none
      | _ => none
    else none

/-- What is being read. Pieces of a string are kept with the newest first. -/
inductive Lexing
  | between
  /-- The letters of a word that are still to come. -/
  | word (letters : List Char) (token : Token)
  | numeral (state : NumeralState) (n : Numeral)
  | string (pieces : List Piece)
  | escape (pieces : List Piece)
  | hex (pieces : List Piece) (digits value : Nat)

def hexValue? (c : Char) : Option Nat :=
  if '0' ≤ c && c ≤ '9' then some (c.toNat - 48)
  else if 'a' ≤ c && c ≤ 'f' then some (c.toNat - 87)
  else if 'A' ≤ c && c ≤ 'F' then some (c.toNat - 55)
  else none

/-- The character of a one-letter escape. -/
def escaped? (c : Char) : Option Char :=
  match c with
  | '"' => some '"'
  | '\\' => some '\\'
  | '/' => some '/'
  | 'b' => some (Char.ofNat 8)
  | 'f' => some (Char.ofNat 12)
  | 'n' => some '\n'
  | 'r' => some '\r'
  | 't' => some '\t'
  | _ => none

/-- What a character does between tokens: the tokens it gives, and what is read next. -/
def start (c : Char) : List Token × Option Lexing :=
  match c with
  | ' ' | '\n' | '\t' | '\r' => ([], some .between)
  | '[' => ([.openArray], some .between)
  | ']' => ([.closeArray], some .between)
  | '{' => ([.openObject], some .between)
  | '}' => ([.closeObject], some .between)
  | ',' => ([.comma], some .between)
  | ':' => ([.colon], some .between)
  | '"' => ([], some (.string []))
  | 'n' => ([], some (.word ['u', 'l', 'l'] .null))
  | 't' => ([], some (.word ['r', 'u', 'e'] (.bool true)))
  | 'f' => ([], some (.word ['a', 'l', 's', 'e'] (.bool false)))
  | '-' => ([], some (.numeral .minus { negative := true }))
  | '0' => ([], some (.numeral .zero { whole := [0] }))
  | c =>
    match digit? c with
    | some d => ([], some (.numeral .whole { whole := [d] }))
    | none => ([], none)

/-- What a symbol does; no next state means that the text is not JSON. -/
def Lexing.step : Lexing → Symbol → List Token × Option Lexing
  | .between, some c => start c
  | .between, none => ([], none)
  | .word [l] token, c => if c == some l then ([token], some .between) else ([], none)
  | .word (l :: ls) token, c => if c == some l then ([], some (.word ls token)) else ([], none)
  | .word [] _, _ => ([], none)
  | .numeral state n, some c =>
    match state.step n c with
    | .more state n => ([], some (.numeral state n))
    | .done =>
      let (out, next) := start c
      (.number n.value? :: out, next)
    | .bad => ([], none)
  | .numeral state n, none => if state.accepts then ([.number n.value?], none) else ([], none)
  | .string pieces, none => ([], some (.string (.broken :: pieces)))
  | .string pieces, some c =>
    if c == '"' then ([.text ((spell pieces.reverse).map String.ofList)], some .between)
    else if c == '\\' then ([], some (.escape pieces))
    else if c.toNat < 0x20 then ([], none)
    else ([], some (.string (.char c :: pieces)))
  | .escape pieces, some c =>
    if c == 'u' then ([], some (.hex pieces 0 0))
    else match escaped? c with
      | some e => ([], some (.string (.char e :: pieces)))
      | none => ([], none)
  | .escape _, none => ([], none)
  | .hex pieces digits value, some c =>
    match hexValue? c with
    | none => ([], none)
    | some d =>
      if digits == 3 then ([], some (.string (.unit (value * 16 + d) :: pieces)))
      else ([], some (.hex pieces (digits + 1) (value * 16 + d)))
  | .hex _ _ _, none => ([], none)

/-- What the end of the text gives. -/
def Lexing.finish : Lexing → List Token
  | .between => []
  | .numeral state n => if state.accepts then [.number n.value?] else [.fault]
  | _ => [.fault]

def tokensFrom (state : Lexing) : List Symbol → List Token
  | [] => state.finish
  | c :: rest =>
    match state.step c with
    | (out, some next) => out ++ tokensFrom next rest
    | (out, none) => out ++ [.fault]

/-- The tokens of a text. -/
def tokens (symbols : List Symbol) : List Token := tokensFrom .between symbols

end Quire.Json
