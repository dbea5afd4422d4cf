/-
The exact value of a floating-point number.

`FloatShape.of` takes a double apart: a finite one is `mantissa * 2 ^ exponent` with a
sign.  All decimal texts of numbers are computed from this exact value.
-/

namespace EventScript

/-- What a floating-point number stands for. -/
inductive FloatShape where
  | nan
  | infinite (negative : Bool)
  /-- The number is `mantissa * 2 ^ exponent`, with a sign. -/
  | finite (negative : Bool) (mantissa : Nat) (exponent : Int)
  deriving DecidableEq, Repr

namespace FloatShape

/-- The weight of the bit before the fraction: the fraction has 52 bits. -/
def leadingBit : Nat := Nat.pow 2 52

/-- How many exponents a double can have: the exponent has 11 bits. -/
def exponentCount : Nat := Nat.pow 2 11

/-- Takes the 64 bits of a double apart: sign, 11 bits of exponent, 52 bits of fraction. -/
def ofBits (bits : Nat) : FloatShape :=
  let negative := decide (bits / leadingBit / exponentCount = 1)
  let biased : Nat := bits / leadingBit % exponentCount
  let fraction : Nat := bits % leadingBit
  if biased = 2047 then
    if fraction = 0 then .infinite negative else .nan
  else if biased = 0 then .finite negative fraction (-1074)
  else .finite negative (leadingBit + fraction) ((biased : Int) - 1075)

/-- The exact value of a double. -/
def of (x : Float) : FloatShape :=
  ofBits x.toBits.toNat

/-- A power, with an exponent of either sign, as a quotient of natural numbers. -/
def power (base : Nat) (e : Int) : Nat × Nat :=
  match e with
  | .ofNat n => (Nat.pow base n, 1)
  | .negSucc n => (1, Nat.pow base (n + 1))

/-- The whole part of a number, rounded toward zero; zero for what is not finite. -/
def toInt : FloatShape → Int
  | .finite negative mantissa exponent =>
    let (num, den) := power 2 exponent
    let whole := mantissa * num / den
    if negative then -(whole : Int) else whole
  | _ => 0

/-- Is the number finite and whole? -/
def isWhole : FloatShape → Bool
  | .finite _ mantissa exponent =>
    let (num, den) := power 2 exponent
    mantissa * num % den = 0
  | _ => false

end FloatShape

end EventScript
