/-! The fewest decimal digits that read back.

A binary number is `m · 2^q`; the reals that round to it form an interval around it, whose ends
belong to it exactly if `m` is even. For one digit, two digits and so on the two neighbours of
the number on that decimal grid are tried; the first grid with a neighbour inside the interval
wins, and of two neighbours inside the nearer one, or the even one when both are equally near. -/
namespace Quire

/-- A decimal number `digits · 10^exponent`. -/
structure Decimal where
  digits : Nat
  exponent : Int
  deriving DecidableEq, Repr

namespace Decimal

/-- A finite positive binary number `mantissa · 2^exponent`. -/
structure Binary where
  mantissa : Nat
  exponent : Int
  /-- The next smaller number is only half as far away as the next larger one. -/
  narrowBelow : Bool := false

/-- A positive fraction. -/
structure Ratio where
  num : Nat
  den : Nat

/-- `m · b^e` as a fraction. -/
def Ratio.scaled (m b : Nat) (e : Int) : Ratio :=
  if 0 ≤ e then ⟨m * Nat.pow b e.toNat, 1⟩ else ⟨m, Nat.pow b (-e).toNat⟩

def Ratio.le (x y : Ratio) : Bool := x.num * y.den ≤ y.num * x.den

def Ratio.lt (x y : Ratio) : Bool := x.num * y.den < y.num * x.den

/-- How often ten divides out of `num / den` before it is below one. -/
def wholeDigits : Nat → Ratio → Nat
  | 0, _ => 0
  | fuel + 1, r => if r.num < r.den then 0 else wholeDigits fuel ⟨r.num, r.den * 10⟩ + 1

/-- How often ten must be multiplied in before a fraction below a tenth reaches a tenth. -/
def leadingZeros : Nat → Ratio → Nat
  | 0, _ => 0
  | fuel + 1, r => if r.den ≤ r.num * 10 then 0 else leadingZeros fuel ⟨r.num * 10, r.den⟩ + 1

/-- The `k` with `10^(k-1) ≤ r < 10^k`, for every fraction that a double can be. -/
def magnitude (r : Ratio) : Int :=
  if r.num < r.den then -(leadingZeros 400 r : Int) else (wholeDigits 400 r : Int)

/-- The reals that round to a binary number. -/
structure Interval where
  low : Ratio
  high : Ratio
  closed : Bool

def Binary.interval (b : Binary) : Interval where
  low := .scaled (4 * b.mantissa - if b.narrowBelow then 1 else 2) 2 (b.exponent - 2)
  high := .scaled (4 * b.mantissa + 2) 2 (b.exponent - 2)
  closed := b.mantissa % 2 == 0

def Interval.holds (i : Interval) (r : Ratio) : Bool :=
  if i.closed then i.low.le r && r.le i.high else i.low.lt r && r.lt i.high

/-- The neighbour of `value` on the grid `10^e` that lies in the interval, if one does. -/
def onGrid? (value : Ratio) (inside : Interval) (e : Int) : Option Decimal :=
  let step := Ratio.scaled 1 10 e
  let below := value.num * step.den / (value.den * step.num)
  let at_ (d : Nat) : Ratio := ⟨d * step.num, step.den⟩
  match inside.holds (at_ below), inside.holds (at_ (below + 1)) with
  | false, false => none
  | true, false => some ⟨below, e⟩
  | false, true => some ⟨below + 1, e⟩
  | true, true =>
    -- the middle between the two neighbours, against the value
    let middle : Ratio := ⟨(2 * below + 1) * step.num, 2 * step.den⟩
    if value.lt middle then some ⟨below, e⟩
    else if middle.lt value then some ⟨below + 1, e⟩
    else some ⟨if below % 2 == 0 then below else below + 1, e⟩

/-- Without zeros at the end. -/
def stripped (d : Decimal) : Decimal :=
  let rec go : Nat → Nat → Int → Decimal
    | 0, n, e => ⟨n, e⟩
    | fuel + 1, n, e => if n != 0 && n % 10 == 0 then go fuel (n / 10) (e + 1) else ⟨n, e⟩
  go 20 d.digits d.exponent

/-- The decimal with the fewest digits that reads back as `b`; seventeen digits always do. -/
def Binary.shortest (b : Binary) : Decimal :=
  let value := Ratio.scaled b.mantissa 2 b.exponent
  let k := magnitude value
  match (List.range 17).findSome? fun (n : Nat) => onGrid? value b.interval (k - (n + 1)) with
  | some d => d.stripped
  | none => ⟨0, 0⟩

/-- A signed number as a double or a single holds it. -/
inductive Reading
  | zero (negative : Bool)
  | finite (negative : Bool) (b : Binary)
  | infinite (negative : Bool)
  | notANumber

/-- The fields of a binary format: `mantissaBits` after the leading one, then the exponent. -/
def Reading.ofBits (bits mantissaBits exponentBits : Nat) : Reading :=
  let fraction := bits % (1 <<< mantissaBits)
  let exponent := (bits >>> mantissaBits) % (1 <<< exponentBits)
  let negative := (bits >>> (mantissaBits + exponentBits)) % 2 == 1
  let lowest : Int := 2 - ((1 <<< (exponentBits - 1) : Nat) : Int) - mantissaBits
  if exponent == (1 <<< exponentBits) - 1 then
    if fraction == 0 then .infinite negative else .notANumber
  else if exponent == 0 then
    if fraction == 0 then .zero negative else .finite negative ⟨fraction, lowest, false⟩
  else .finite negative
    ⟨(1 <<< mantissaBits) + fraction, lowest + (exponent - 1), fraction == 0 && 1 < exponent⟩

def Reading.ofFloat (x : Float) : Reading := .ofBits x.toBits.toNat 52 11

def Reading.ofFloat32 (x : Float32) : Reading := .ofBits x.toBits.toNat 23 8

end Decimal
end Quire
