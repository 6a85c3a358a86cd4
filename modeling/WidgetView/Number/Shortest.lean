import WidgetView.Number.Binary

/-!
# Shortest decimal text

The shortest decimal text of a double: the fewest digits that are read back as the same double, and
of those the nearest to its value. Numbers from one ten-thousandth up to ten to the sixteenth are
written with a point, others with an exponent of at least two digits.
-/
namespace WidgetView.Number

/-- The least `n` from `start` on with `num * 10 ^ n ≥ den`, in at most `fuel` steps. -/
def scaleUp (num den : Nat) : Nat → Nat → Nat
  | 0, n => n
  | fuel + 1, n => if den ≤ num * Nat.pow 10 n then n else scaleUp num den fuel (n + 1)

/-- The power of ten of the first digit of a positive quotient. -/
def leadingPower (num den : Nat) : Int :=
  if den ≤ num then (((toString (num / den)).length - 1 : Nat) : Int)
  else -((scaleUp num den 400 0 : Nat) : Int)

/-- The numbers that round to a double: its value and both ends of the interval, over one
denominator. -/
structure Interval where
  value : Nat
  low : Nat
  high : Nat
  den : Nat
  closed : Bool

/-- Half a step to both sides, but a quarter below a power of two. The ends belong to the interval
if the mantissa is even. -/
def Interval.ofBinary (mantissa : Nat) (exponent : Int) : Interval :=
  let below := if mantissa = Nat.pow 2 52 ∧ minExponent < exponent then 1 else 2
  let (scale, den) := quotient 1 (exponent - 2)
  ⟨4 * mantissa * scale, (4 * mantissa - below) * scale, (4 * mantissa + 2) * scale, den,
    mantissa % 2 = 0⟩

/-- Whether `n` times ten to the `power` lies in the interval. -/
def Interval.holds (i : Interval) (n : Nat) (power : Int) : Bool :=
  let (up, down) :=
    if 0 ≤ power then (n * Nat.pow 10 power.toNat * i.den, 1)
    else (n * i.den, Nat.pow 10 (-power).toNat)
  if i.closed then i.low * down ≤ up && up ≤ i.high * down
  else i.low * down < up && up < i.high * down

/-- Of the two neighbours of the value on the grid of a power of ten, the nearer one that reads
back. -/
def Interval.onGrid? (i : Interval) (power : Int) : Option Nat :=
  let (num, den) :=
    if 0 ≤ power then (i.value, i.den * Nat.pow 10 power.toNat)
    else (i.value * Nat.pow 10 (-power).toNat, i.den)
  let floor := num / den
  match i.holds floor power, i.holds (floor + 1) power with
  | true, true => some (roundDiv num den)
  | true, false => some floor
  | false, true => some (floor + 1)
  | false, false => none

/-- Try grids from coarse to fine. -/
def shortestOn (i : Interval) (power : Int) : Nat → Nat × Int
  | 0 => ((i.onGrid? power).getD 0, power)
  | fuel + 1 =>
    match i.onGrid? power with
    | some n => (n, power)
    | none => shortestOn i (power - 1) fuel

/-- Digits without trailing zeros, with the power of ten of the last one. -/
def dropZeros : Nat → Nat → Int → Nat × Int
  | 0, n, p => (n, p)
  | fuel + 1, n, p => if n ≠ 0 ∧ n % 10 = 0 then dropZeros fuel (n / 10) (p + 1) else (n, p)

/-- The digits of a positive double and the power of ten of the last digit. -/
def shortest (mantissa : Nat) (exponent : Int) : Nat × Int :=
  let i := Interval.ofBinary mantissa exponent
  let r := shortestOn i (leadingPower i.value i.den) 17
  dropZeros 400 r.1 r.2

/-- Exponents of ten, of the first digit, that are written with a point. -/
def pointPowers : Int × Int := (-4, 15)

/-- Write digits; `power` is the power of ten of the last digit. -/
def decimalText (digits : Nat) (power : Int) : String :=
  let ds := (toString digits).toList
  let first := power + (ds.length : Int) - 1
  if pointPowers.1 ≤ first ∧ first ≤ pointPowers.2 then
    if 0 ≤ power then String.ofList (ds ++ List.replicate power.toNat '0') ++ ".0"
    else if 0 ≤ first then
      let n := (first + 1).toNat
      String.ofList (ds.take n ++ '.' :: ds.drop n)
    else "0." ++ String.ofList (List.replicate (-first - 1).toNat '0' ++ ds)
  else
    let mantissa := match ds with
      | [] => []
      | [d] => [d]
      | d :: more => d :: '.' :: more
    let sign := if first < 0 then "-" else "+"
    String.ofList mantissa ++ "e" ++ sign ++ padded 2 first.natAbs

def floatText (x : Float) : String :=
  match Binary.ofFloat x with
  | .finite negative m e =>
    let sign := if negative then "-" else ""
    if m = 0 then sign ++ "0.0"
    else
      let (digits, power) := shortest m e
      sign ++ decimalText digits power
  | .infinite negative => if negative then "-inf" else "inf"
  | .notANumber => "nan"

end WidgetView.Number
