/-! Bytes read as UTF-8.

`symbols` gives one symbol per character, and one `none` for every maximal run of bytes
that begins a character but does not finish one. `decode?` accepts exactly the byte strings
without such runs; `decodeLossy` shows each of them as U+FFFD. A text can be cut behind one of its
bytes only where a character ends (`isBoundary`). -/
namespace Quire.Text

/-- A character, or bytes that are none. -/
abbrev Symbol := Option Char

namespace Utf8

/-- What a first byte announces. -/
inductive Lead
  | char (c : Char)
  /-- `left` more bytes, the next one within `lo` and `hi`; `value` holds the bits so far. -/
  | sequence (value : Nat) (left : Nat) (lo hi : Nat)
  | bad

/-- The second byte's bounds shut out overlong forms, surrogates and what lies above U+10FFFF. -/
def lead (b : UInt8) : Lead :=
  let n := b.toNat
  if n < 0x80 then .char (Char.ofNat n)
  else if n < 0xC2 then .bad
  else if n < 0xE0 then .sequence (n - 0xC0) 1 0x80 0xBF
  else if n == 0xE0 then .sequence 0 2 0xA0 0xBF
  else if n == 0xED then .sequence 0xD 2 0x80 0x9F
  else if n < 0xF0 then .sequence (n - 0xE0) 2 0x80 0xBF
  else if n == 0xF0 then .sequence 0 3 0x90 0xBF
  else if n < 0xF4 then .sequence (n - 0xF0) 3 0x80 0xBF
  else if n == 0xF4 then .sequence 4 3 0x80 0x8F
  else .bad

/-- A sequence that has begun. -/
structure Pending where
  value : Nat
  left : Nat
  lo : Nat
  hi : Nat

/-- What a byte gives when no sequence is under way. -/
def begin (b : UInt8) : List Symbol × Option Pending :=
  match lead b with
  | .char c => ([some c], none)
  | .sequence value left lo hi => ([], some ⟨value, left, lo, hi⟩)
  | .bad => ([none], none)

/-- What a byte gives, and the sequence under way after it. A byte that cannot continue a
sequence ends it as a fault and begins anew. -/
def next (pending : Option Pending) (b : UInt8) : List Symbol × Option Pending :=
  match pending with
  | none => begin b
  | some p =>
    if p.lo ≤ b.toNat && b.toNat ≤ p.hi then
      let value := p.value * 64 + (b.toNat - 0x80)
      if p.left ≤ 1 then ([some (Char.ofNat value)], none)
      else ([], some ⟨value, p.left - 1, 0x80, 0xBF⟩)
    else
      let (out, pending) := begin b
      (none :: out, pending)

def symbolsFrom : Option Pending → List UInt8 → List Symbol
  | none, [] => []
  | some _, [] => [none]
  | pending, b :: rest =>
    let (out, pending) := next pending b
    out ++ symbolsFrom pending rest

end Utf8

/-- The characters of a byte string, with a `none` for every run of bytes that is no character. -/
def symbols (bytes : ByteArray) : List Symbol := Utf8.symbolsFrom none bytes.data.toList

/-- The text that the bytes spell, if all of them belong to characters. -/
def decode? (bytes : ByteArray) : Option String :=
  ((symbols bytes).mapM id).map String.ofList

/-- The text that the bytes spell, with U+FFFD for what is no character. -/
def decodeLossy (bytes : ByteArray) : String :=
  String.ofList ((symbols bytes).map (·.getD (Char.ofNat 0xFFFD)))

/-! ### Cutting behind a byte -/

/-- A byte that goes on with a character. -/
def Utf8.continues (b : UInt8) : Bool := 0x80 ≤ b.toNat && b.toNat ≤ 0xBF

/-- Whether a text of these bytes can be cut behind the first `n`: a character begins there, or the
text ends. -/
def isBoundary (bytes : ByteArray) (n : Nat) : Bool :=
  if h : n < bytes.size then n == 0 || ! Utf8.continues bytes[n] else n == bytes.size

/-- The last place up to `n` where a text of these bytes can be cut; none if the search for it comes
to the beginning and would have to go on. -/
def lastBoundary? (bytes : ByteArray) : Nat → Option Nat
  | 0 => if isBoundary bytes 0 then some 0 else none
  | n + 1 => if isBoundary bytes (n + 1) then some (n + 1) else lastBoundary? bytes n

/-- The text of the first `n` bytes, if a text of these bytes can be cut behind them. -/
def firstBytes? (bytes : ByteArray) (n : Nat) : Option String :=
  if isBoundary bytes n then decode? (bytes.extract 0 n) else none

end Quire.Text
