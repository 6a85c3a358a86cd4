/-!
# Decimal text with fixed places

Decimal text with a fixed number of places. A quotient is rounded to the nearest grid point, and a
half goes to the even neighbour.
-/
namespace WidgetView.Number

/-- The nearest integer to a quotient, the even one of two. -/
def roundDiv (num den : Nat) : Nat :=
  let q := num / den
  let r := num % den
  if 2 * r < den then q
  else if den < 2 * r then q + 1
  else if q % 2 = 0 then q else q + 1

/-- Digits with leading zeros up to a width. -/
def padded (width n : Nat) : String :=
  let digits := toString n
  String.ofList (List.replicate (width - digits.length) '0') ++ digits

/-- A quotient with a fixed number of places. The sign is written also before zero. -/
def fixed (places : Nat) (negative : Bool) (num den : Nat) : String :=
  let scale := Nat.pow 10 places
  let n := roundDiv (num * scale) den
  let sign := if negative then "-" else ""
  if places = 0 then sign ++ toString n
  else sign ++ toString (n / scale) ++ "." ++ padded places (n % scale)

end WidgetView.Number
