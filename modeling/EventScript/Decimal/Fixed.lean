/-
Decimal texts with a fixed number of places.

The exact value of the number is rounded once, to the nearest grid point; a half goes to
the even neighbour.
-/
import EventScript.Decimal.Shape

namespace EventScript

/-- The quotient rounded to the nearest whole number, a half to the even one. -/
def roundHalfEven (num den : Nat) : Nat :=
  let q := num / den
  let r := num % den
  if 2 * r < den then q
  else if den < 2 * r then q + 1
  else if q % 2 = 0 then q else q + 1

/-- Writes `n / 10 ^ places` in decimal digits with exactly `places` of them after the
point. -/
def pointed (n places : Nat) : String :=
  let digits := toString n
  let padded := String.ofList (List.replicate (places + 1 - digits.length) '0') ++ digits
  let whole := padded.toList.take (padded.length - places)
  let fraction := padded.toList.drop (padded.length - places)
  String.ofList (whole ++ '.' :: fraction)

/-- The text of a number with a fixed number of decimal places. -/
def fixedText (places : Nat) (x : Float) : String :=
  match FloatShape.of x with
  | .nan => "nan"
  | .infinite negative => if negative then "-inf" else "inf"
  | .finite negative mantissa exponent =>
    let (num, den) := FloatShape.power 2 exponent
    let scaled := roundHalfEven (mantissa * num * Nat.pow 10 places) den
    (if negative then "-" else "") ++ pointed scaled places

end EventScript
