/-
Quoted texts.

A quoted text stands between single quotation marks, or between double ones if it has a
single mark in it and no double one.  The mark around it and backslashes get a backslash;
characters that are not plain are written by their codes.

`quoted` takes the printable characters as plain, `quotedPlainly` only those of the basic
Latin alphabet among them.
-/
import EventScript.Text.Printable

namespace EventScript.Text

/-- A hexadecimal digit. -/
def hexDigit (n : Nat) : Char :=
  if n < 10 then Char.ofNat ('0'.toNat + n) else Char.ofNat ('a'.toNat + (n - 10))

/-- A number in exactly `width` hexadecimal digits. -/
def hex : Nat → Nat → Text
  | 0, _ => []
  | width + 1, n => hex width (n / 16) ++ [hexDigit (n % 16)]

/-- A character inside the given quotation marks. -/
def quoteChar (plain : Char → Bool) (mark c : Char) : Text :=
  if c = mark ∨ c = '\\' then ['\\', c]
  else if c = '\n' then ['\\', 'n']
  else if c = '\r' then ['\\', 'r']
  else if c = '\t' then ['\\', 't']
  else if plain c then [c]
  else if c.toNat < 0x100 then '\\' :: 'x' :: hex 2 c.toNat
  else if c.toNat < 0x10000 then '\\' :: 'u' :: hex 4 c.toNat
  else '\\' :: 'U' :: hex 8 c.toNat

/-- A text in quotation marks, with the given characters taken as plain. -/
def quotedBy (plain : Char → Bool) (t : Text) : Text :=
  let mark := if t.contains '\'' && !t.contains '"' then '"' else '\''
  mark :: t.flatMap (quoteChar plain mark) ++ [mark]

/-- A text in quotation marks. -/
def quoted (t : Text) : Text :=
  quotedBy isPrintable t

/-- A text in quotation marks, in characters of the basic Latin alphabet only. -/
def quotedPlainly (t : Text) : Text :=
  quotedBy (fun c => isPrintable c && decide (c.toNat < 0x80)) t

end EventScript.Text
