/-
Whole numbers in texts.

* `leadingInteger?` is the number a text starts with, whatever follows;
* `integerLiteral?` is the value of a text that is a number and nothing else;
* `wholeInteger?` also takes white space around the number and single underscores between
  its digits, as settings and arguments may have them;
* `ofInt` writes a number in decimal digits.

Digits of all writing systems count; the written form uses `0` to `9`.

A number of more than `digitLimit` digits cannot be read: `readInteger?` gives nothing, and a
script that asks for such a number fails with it.  The quantities, conditions and commands of
this library are those of scripts whose numbers are short (`IsShort`); `leadingInteger?` and
`integerLiteral?` do not look at the length.
-/
import EventScript.Text.Digit

namespace EventScript.Text

/-- Splits off a sign: whether the number is negative, and the rest. -/
def readSign : Text → Bool × Text
  | '-' :: rest => (true, rest)
  | '+' :: rest => (false, rest)
  | t => (false, t)

/-- Gives a magnitude its sign. -/
def withSign (negative : Bool) (n : Nat) : Int :=
  if negative then -(n : Int) else n

/-- The digits of the number that a text starts with, after white space and a sign. -/
def leadingDigits (t : Text) : Text :=
  (readSign (trimStart t)).2.takeWhile isDigit

/-- The number that a text starts with, after white space: an optional sign and at least
one digit. -/
def leadingInteger? (t : Text) : Option Int :=
  let digits := leadingDigits t
  if digits.isEmpty then none
  else some (withSign (readSign (trimStart t)).1 (digitsValue digits))

/-- The number a text starts with, or a default. -/
def leadingInteger (t : Text) (default : Int) : Int :=
  (leadingInteger? t).getD default

/-- The most digits of a number that can be read. Zeros in front count, a sign does not. -/
def digitLimit : Nat := 4300

/-- The number that a text starts with, if there is one, is short enough to be read. -/
def IsShort (t : Text) : Prop :=
  (leadingDigits t).length ≤ digitLimit

instance (t : Text) : Decidable t.IsShort :=
  inferInstanceAs (Decidable (_ ≤ _))

/-- Reads the number a text starts with, or a default; a number that is too long cannot be
read. -/
def readInteger? (t : Text) (default : Int) : Option Int :=
  if t.IsShort then some (leadingInteger t default) else none

/-- The value of a text that is an optional sign and digits, and nothing else. -/
def integerLiteral? (t : Text) : Option Int :=
  let (negative, digits) := readSign t
  if !digits.isEmpty && digits.all isDigit then some (withSign negative (digitsValue digits))
  else none

/-- Removes single underscores between digits; other underscores are kept. -/
def joinDigits (digit : Char → Bool) : Text → Text
  | a :: '_' :: b :: rest =>
    if digit a && digit b then a :: joinDigits digit (b :: rest)
    else a :: '_' :: joinDigits digit (b :: rest)
  | a :: rest => a :: joinDigits digit rest
  | [] => []

/-- The value of a text that is a number short enough to be read, with white space around it
and single underscores between its digits allowed. -/
def wholeInteger? (t : Text) : Option Int :=
  let number := joinDigits isDigit (trimMargin t)
  if number.IsShort then integerLiteral? number else none

/-- The decimal digits of a number, after a minus sign when it is negative. -/
def ofInt (n : Int) : Text :=
  (toString n).toList

end EventScript.Text
