/-
The shortest decimal text of a floating-point number.

Among all decimals that read back as the number, the one with the fewest digits is
written, and of those the nearest to the exact value.  `shortestDecimal` searches the
decimal grids from coarse to fine: the first grid that has a point in the interval of
reals that round to the number gives the digits.  If a grid has any point there, one of
the two neighbours of the exact value is such a point, so only those are tried.

Numbers from `0.0001` up to below `10 ^ 16` are written positionally and show at least one
decimal place; all others have an exponent of at least two digits with its sign.
-/
import EventScript.Decimal.Shape

namespace EventScript

/-- The interval of reals around `mantissa * 2 ^ exponent` that round to it, in units of a
quarter of the last place: the lower end, the upper end and whether the ends belong to
it. -/
def roundingInterval (mantissa : Nat) (exponent : Int) : Nat × Nat × Bool :=
  let isPower := mantissa = FloatShape.leadingBit ∧ exponent ≠ -1074
  (if isPower then 4 * mantissa - 1 else 4 * mantissa - 2, 4 * mantissa + 2, mantissa % 2 = 0)

/-- The point of the grid `10 ^ g` that reads back as the number and is nearest to it, if
the grid has one. -/
def gridPoint? (mantissa : Nat) (exponent g : Int) : Option Nat :=
  let (lower, upper, closed) := roundingInterval mantissa exponent
  let (unitNum, unitDen) := FloatShape.power 2 (exponent - 2)
  let (gridNum, gridDen) := FloatShape.power 10 g
  let a := unitNum * gridDen
  let b := gridNum * unitDen
  let inside (k : Nat) : Bool :=
    if closed then lower * a ≤ k * b ∧ k * b ≤ upper * a else lower * a < k * b ∧ k * b < upper * a
  let exact := 4 * mantissa * a
  let below := exact / b
  let above := below + 1
  match inside below, inside above with
  | true, true =>
    let down := exact - below * b
    let up := above * b - exact
    some (if down < up ∨ (down = up ∧ below % 2 = 0) then below else above)
  | true, false => some below
  | false, true => some above
  | false, false => none

/-- Tries ever finer grids, from `10 ^ g` on. -/
def searchGrids (mantissa : Nat) (exponent : Int) : Nat → Int → Nat × Int
  | 0, g => (0, g)
  | steps + 1, g =>
    match gridPoint? mantissa exponent g with
    | some k => (k, g)
    | none => searchGrids mantissa exponent steps (g - 1)

/-- The shortest decimal `k * 10 ^ g` that reads back as a positive number.  The search
starts at a grid coarser than the number and needs at most seventeen digits. -/
def shortestDecimal (mantissa : Nat) (exponent : Int) : Nat × Int :=
  let bits : Int := (mantissa.log2 : Int) + 1 + exponent
  searchGrids mantissa exponent 24 (bits * 30103 / 100000 + 2)

/-- Writes a sign and at least two digits of an exponent. -/
def exponentText (e : Int) : String :=
  let digits := toString e.natAbs
  (if e < 0 then "-" else "+") ++ (if digits.length < 2 then "0" ++ digits else digits)

/-- Writes the positive decimal `k * 10 ^ g`. -/
def decimalText (k : Nat) (g : Int) : String :=
  let digits := (toString k).toList
  let point : Int := digits.length + g
  let zeros (n : Int) : List Char := List.replicate n.toNat '0'
  if -4 < point ∧ point ≤ 16 then
    if point ≤ 0 then String.ofList ('0' :: '.' :: zeros (-point) ++ digits)
    else if g ≥ 0 then String.ofList (digits ++ zeros g ++ ['.', '0'])
    else String.ofList (digits.take point.toNat ++ '.' :: digits.drop point.toNat)
  else
    let mantissa := match digits with
      | d :: e :: rest => d :: '.' :: e :: rest
      | short => short
    String.ofList mantissa ++ "e" ++ exponentText (point - 1)

/-- The shortest text of a number. -/
def shortestText (x : Float) : String :=
  match FloatShape.of x with
  | .nan => "nan"
  | .infinite negative => if negative then "-inf" else "inf"
  | .finite negative mantissa exponent =>
    (if negative then "-" else "") ++
      (if mantissa = 0 then "0.0"
       else
        let (k, g) := shortestDecimal mantissa exponent
        decimalText k g)

end EventScript
