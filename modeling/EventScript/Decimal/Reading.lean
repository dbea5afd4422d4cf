/-
Reading decimal numbers.

A decimal is an optional sign, digits with an optional point among them, and an optional
exponent; `Decimal.toFloat` gives the nearest floating-point number.
-/
import EventScript.Text.Integer

namespace EventScript

/-- A decimal number as written: `mantissa * 10 ^ exponent` with a sign. -/
structure Decimal where
  negative : Bool
  mantissa : Nat
  exponent : Int
  deriving DecidableEq, Repr

namespace Decimal

/-- The nearest floating-point number.  Exponents beyond four digits are cut off: they
give infinity or zero all the same. -/
def toFloat (d : Decimal) : Float :=
  let e := max (-9999) (min 9999 d.exponent)
  let magnitude :=
    if d.mantissa = 0 then 0.0
    else if e < 0 then Float.ofScientific d.mantissa true e.natAbs
    else Float.ofScientific d.mantissa false e.natAbs
  if d.negative then -magnitude else magnitude

/-- The decimal digits `0` to `9`. -/
def isPlainDigit (c : Char) : Bool :=
  '0' ≤ c && c ≤ '9'

/-- Reads an exponent: nothing at all, or `e` and a whole number. -/
def readExponent? : Text → Option Int
  | [] => some 0
  | c :: rest =>
    if c == 'e' || c == 'E' then
      let (negative, digits) := Text.readSign rest
      if !digits.isEmpty && digits.all isPlainDigit then
        some (Text.withSign negative (digitsValue digits))
      else none
    else none

/-- Reads a decimal without its sign: digits before the point or after it, or both. -/
def readUnsigned? (negative : Bool) (t : Text) : Option Decimal :=
  let whole := t.takeWhile isPlainDigit
  let rest := t.dropWhile isPlainDigit
  let (fraction, rest) : Text × Text := match rest with
    | '.' :: more => (more.takeWhile isPlainDigit, more.dropWhile isPlainDigit)
    | other => ([], other)
  if whole.isEmpty && fraction.isEmpty then none
  else (readExponent? rest).map fun e =>
    ⟨negative, digitsValue (whole ++ fraction), e - fraction.length⟩

end Decimal

/-- Lowers the letters `A` to `Z`. -/
def lowerPlain (t : Text) : Text :=
  t.map Char.toLower

/-- Reads a number from a text, the names of infinity and of what is not a number
included, in any case of letters. -/
def readFloat? (t : Text) : Option Float :=
  let (negative, rest) := Text.readSign t
  let named := lowerPlain rest
  if named = "inf".toList ∨ named = "infinity".toList then
    some (if negative then -(1.0 / 0.0) else 1.0 / 0.0)
  else if named = "nan".toList then some (0.0 / 0.0)
  else (Decimal.readUnsigned? negative rest).map Decimal.toFloat

end EventScript
