import Quire.Json.Value

/-! Numerals and the numbers they denote.

A numeral without fraction and exponent is a whole number while it fits into 64 bits, signed for
a negative one; any other numeral is a double. A double is computed from the leading digits that
fit into 64 bits, multiplied or divided by one power of ten, so it may be one unit off the
nearest double; a numeral beyond the largest double denotes nothing. -/
namespace Quire.Json

/-- The digits of a numeral, each list with its newest digit first. -/
structure Numeral where
  negative : Bool := false
  whole : List Nat := []
  fraction : List Nat := []
  powerNegative : Bool := false
  power : List Nat := []
  /-- A point or an exponent has been seen. -/
  isReal : Bool := false

/-- The largest whole number of 64 bits. -/
def maxWord : Nat := 0xFFFFFFFFFFFFFFFF

/-- Digits appended to a word while they fit; with how many of them did not. -/
def appendDigits (word : Nat) : List Nat → Nat × Nat
  | [] => (word, 0)
  | d :: rest =>
    if maxWord < word * 10 + d then (word, rest.length + 1) else appendDigits (word * 10 + d) rest

def wordFloat (n : Nat) : Float := (UInt64.ofNat n).toFloat

def powerOfTen (n : Nat) : Float := Float.ofScientific 1 false n

/-- `word · 10^power`; a power below the table's reach is taken in steps of 308. -/
def scale (word : Float) (power : Int) : Nat → Option Float
  | 0 => some 0
  | fuel + 1 =>
    if power.natAbs ≤ 308 then
      if 0 ≤ power then
        let x := word * powerOfTen power.natAbs
        if x.isInf then none else some x
      else some (word / powerOfTen power.natAbs)
    else if word == 0 then some word
    else if 0 ≤ power then none
    else scale (word / powerOfTen 308) (power + 308) fuel

def digitsValue (newestFirst : List Nat) : Nat :=
  newestFirst.reverse.foldl (fun n d => n * 10 + d) 0

/-- The number that a numeral denotes. -/
def Numeral.value? (n : Numeral) : Option Number :=
  let (word, dropped) := appendDigits 0 n.whole.reverse
  if ! n.isReal && dropped == 0 then
    if ! n.negative then some (.integer word)
    else if word == 0 || 0x8000000000000000 < word then some (.real (-wordFloat word))
    else some (.integer (-word))
  else
    let (word', unread) := appendDigits word n.fraction.reverse
    let read := n.fraction.length - unread
    let power : Int := if n.powerNegative then -digitsValue n.power else digitsValue n.power
    -- four steps of 308 exhaust the range of a double
    (scale (wordFloat word') (dropped - read + power) 5).map fun x =>
      .real (if n.negative then -x else x)

/-- How much of a numeral has been read. -/
inductive NumeralState
  | minus | zero | whole | point | fraction | mark | markSign | power

/-- What the next character does to a numeral. -/
inductive NumeralStep
  | more (state : NumeralState) (n : Numeral)
  /-- The numeral was complete; the character does not belong to it. -/
  | done
  | bad

def digit? (c : Char) : Option Nat :=
  if '0' ≤ c && c ≤ '9' then some (c.toNat - 48) else none

/-- What follows the whole part. -/
def afterWhole (n : Numeral) (c : Char) : NumeralStep :=
  if c == '.' then .more .point { n with isReal := true }
  else if c == 'e' || c == 'E' then .more .mark { n with isReal := true }
  else .done

def NumeralState.step (state : NumeralState) (n : Numeral) (c : Char) : NumeralStep :=
  match state, digit? c with
  | .minus, some 0 => .more .zero { n with whole := [0] }
  | .minus, some d => .more .whole { n with whole := [d] }
  | .minus, none => .bad
  | .zero, some _ => .bad
  | .zero, none => afterWhole n c
  | .whole, some d => .more .whole { n with whole := d :: n.whole }
  | .whole, none => afterWhole n c
  | .point, some d => .more .fraction { n with fraction := [d] }
  | .point, none => .bad
  | .fraction, some d => .more .fraction { n with fraction := d :: n.fraction }
  | .fraction, none => if c == 'e' || c == 'E' then .more .mark n else .done
  | .mark, some d => .more .power { n with power := [d] }
  | .mark, none =>
    if c == '+' then .more .markSign n
    else if c == '-' then .more .markSign { n with powerNegative := true }
    else .bad
  | .markSign, some d => .more .power { n with power := [d] }
  | .markSign, none => .bad
  | .power, some d => .more .power { n with power := d :: n.power }
  | .power, none => .done

/-- Whether the numeral may end here. -/
def NumeralState.accepts : NumeralState → Bool
  | .zero | .whole | .fraction | .power => true
  | _ => false

end Quire.Json
