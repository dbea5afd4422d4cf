/-
Comparing whole numbers.

`Comparison.read?` reads an operator and gives the text after it, which must be one line
and not empty.  Longer operators are tried first; where the longer one leaves no text
behind, the shorter one is taken, so `>=` at the end of a text reads as `>` and the text
`=`.
-/
import EventScript.Text.Blank

namespace EventScript

/-- A relation between two whole numbers. -/
inductive Comparison where
  | ge | le | eq | ne | gt | lt
  deriving DecidableEq, Repr

namespace Comparison

/-- Does the relation hold? -/
def holds : Comparison → Int → Int → Bool
  | ge, a, b => decide (b ≤ a)
  | le, a, b => decide (a ≤ b)
  | eq, a, b => decide (a = b)
  | ne, a, b => decide (a ≠ b)
  | gt, a, b => decide (b < a)
  | lt, a, b => decide (a < b)

/-- How the relation is written. -/
def symbol : Comparison → Text
  | ge => ['>', '=']
  | le => ['<', '=']
  | eq => ['=', '=']
  | ne => ['!', '=']
  | gt => ['>']
  | lt => ['<']

/-- All relations, in the order in which they are tried. -/
def all : List Comparison :=
  [ge, le, eq, ne, gt, lt]

/-- The relation that a text names. -/
def ofText? (t : Text) : Option Comparison :=
  all.find? fun c => c.symbol = t

/-- Reads an operator, after white space, and what follows it and more white space.  The
rest has to satisfy `accept`. -/
def readThen? {β : Type} (accept : Text → Option β) (t : Text) : Option (Comparison × β) :=
  let t := Text.trimStart t
  all.findSome? fun c =>
    (Text.after? c.symbol t).bind fun rest => (accept (Text.trimStart rest)).map fun b => (c, b)

/-- A text that is one line and not empty. -/
def oneLine? (t : Text) : Option Text :=
  if t.isEmpty || t.contains '\n' then none else some t

/-- Reads an operator and the line that it compares with. -/
def read? (t : Text) : Option (Comparison × Text) :=
  readThen? oneLine? t

end Comparison

end EventScript
