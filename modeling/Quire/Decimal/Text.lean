import Quire.Decimal.Shortest

/-! The written forms of decimal numbers.

Three forms are in use: plain positional text without an exponent, the form that JSON text
holds, and a fixed number of places. -/
namespace Quire.Decimal

/-- Where a form leaves positional notation, and how it marks a whole number. -/
structure Form where
  /-- Positional notation needs the decimal point after the `lowest`-th digit or later. -/
  lowest : Option Int
  /-- Positional notation needs at most this many digits before the point. -/
  highest : Option Int
  /-- A whole number ends in a point and a zero. -/
  pointZero : Bool

/-- Positional, whatever the size; whole numbers stay whole. -/
def plain : Form := ⟨none, none, false⟩

/-- Positional from 0.00001 up to sixteen digits before the point; whole numbers end in `.0`. -/
def inJson : Form := ⟨some (-4), some 16, true⟩

/-- The sign and at least two digits. -/
def exponentText (e : Int) : String :=
  let n := e.natAbs
  (if e < 0 then "-" else "+") ++ (if n < 10 then "0" else "") ++ toString n

/-- A positive decimal in a form. -/
def Form.write (f : Form) (d : Decimal) : String :=
  let text := toString d.digits
  let size := text.length
  -- digits before the point
  let point : Int := size + d.exponent
  let positional :=
    (match f.lowest with | some k => decide (k ≤ point) | none => true) &&
    (match f.highest with | some k => decide (point ≤ k) | none => true)
  if positional then
    if 0 ≤ d.exponent then
      text ++ "".pushn '0' d.exponent.toNat ++ if f.pointZero then ".0" else ""
    else if 0 < point then
      String.ofList (text.toList.take point.toNat) ++ "." ++
        String.ofList (text.toList.drop point.toNat)
    else "0." ++ "".pushn '0' (-point).toNat ++ text
  else
    let head := String.ofList (text.toList.take 1)
    let tail := String.ofList (text.toList.drop 1)
    head ++ (if tail.isEmpty then "" else "." ++ tail) ++ "e" ++ exponentText (point - 1)

def sign (negative : Bool) : String := if negative then "-" else ""

/-- A number read from its bits, in a form. -/
def Form.text (f : Form) : Reading → String
  | .zero negative => sign negative ++ if f.pointZero then "0.0" else "0"
  | .finite negative b => sign negative ++ f.write b.shortest
  | .infinite negative => sign negative ++ "inf"
  | .notANumber => "NaN"

/-- A fraction rounded to `places` decimal places, a half going to the even neighbour. -/
def Ratio.fixed (r : Ratio) (places : Nat) : String :=
  let scaled := r.num * Nat.pow 10 places
  let q := scaled / r.den
  let twice := 2 * (scaled % r.den)
  let n := if r.den < twice || (r.den == twice && q % 2 == 1) then q + 1 else q
  let text := toString n
  let text := "".pushn '0' (places + 1 - text.length) ++ text
  let whole := text.length - places
  String.ofList (text.toList.take whole) ++
    if places == 0 then "" else "." ++ String.ofList (text.toList.drop whole)

/-- A number with a fixed count of places. -/
def fixed (places : Nat) : Reading → String
  | .zero negative => sign negative ++ (Ratio.mk 0 1).fixed places
  | .finite negative b =>
    sign negative ++ (Ratio.scaled b.mantissa 2 b.exponent).fixed places
  | .infinite negative => sign negative ++ "inf"
  | .notANumber => "NaN"

/-- A decimal as a double. -/
def toFloat (d : Decimal) : Float :=
  if 0 ≤ d.exponent then .ofScientific (d.digits * Nat.pow 10 d.exponent.toNat) false 0
  else .ofScientific d.digits true (-d.exponent).toNat

/-- The double that is written with the same digits. -/
def sameDigits (x : Float32) : Float :=
  match Reading.ofFloat32 x with
  | .finite negative b => if negative then -b.shortest.toFloat else b.shortest.toFloat
  | _ => x.toFloat

end Quire.Decimal
