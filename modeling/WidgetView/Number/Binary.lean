import WidgetView.Number.Fixed
import WidgetView.Text.Numeral

/-!
# Double-precision numbers

Double-precision numbers as exact values: a mantissa times a power of two. Decimal text is made from
the exact value, and decimal numbers are rounded to the nearest double.
-/
namespace WidgetView.Number

/-- The exact value of a double. -/
inductive Binary where
  | finite (negative : Bool) (mantissa : Nat) (exponent : Int)
  | infinite (negative : Bool)
  | notANumber
  deriving DecidableEq, Repr

/-- The smallest exponent of two. -/
def minExponent : Int := -1074

def Binary.ofFloat (x : Float) : Binary :=
  let bits := x.toBits.toNat
  let negative := bits / Nat.pow 2 63 = 1
  let biased := bits / Nat.pow 2 52 % Nat.pow 2 11
  let fraction := bits % Nat.pow 2 52
  if biased = Nat.pow 2 11 - 1 then if fraction = 0 then .infinite negative else .notANumber
  else if biased = 0 then .finite negative fraction minExponent
  else .finite negative (Nat.pow 2 52 + fraction) (minExponent + (biased - 1 : Nat))

/-- A mantissa times a power of two as a quotient. -/
def quotient (mantissa : Nat) (exponent : Int) : Nat × Nat :=
  if 0 ≤ exponent then (mantissa * Nat.pow 2 exponent.toNat, 1)
  else (mantissa, Nat.pow 2 (-exponent).toNat)

/-- A double with a fixed number of places. -/
def fixedFloat (places : Nat) (x : Float) : String :=
  match Binary.ofFloat x with
  | .finite negative m e => fixed places negative (quotient m e).1 (quotient m e).2
  | .infinite negative => if negative then "-inf" else "inf"
  | .notANumber => "nan"

/-- The integer part of a double, toward zero. -/
def truncate (x : Float) : Int :=
  match Binary.ofFloat x with
  | .finite negative m e =>
    let n := (quotient m e).1 / (quotient m e).2
    if negative then -(n : Int) else n
  | _ => 0

/-- Beyond these powers of ten every number is infinite, or zero. -/
def maxPower : Int := 400

/-- The double nearest to a decimal number. -/
def nearestFloat : Text.Decimal → Float
  | .notANumber => 0.0 / 0.0
  | .infinite negative => if negative then -1.0 / 0.0 else 1.0 / 0.0
  | .finite negative m e =>
    let size := e + ((toString m).length : Int)
    let x :=
      if m = 0 ∨ size < -maxPower then 0.0
      else if maxPower < size then 1.0 / 0.0
      else Float.ofScientific m (decide (e < 0)) e.natAbs
    if negative then -x else x

end WidgetView.Number
