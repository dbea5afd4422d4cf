/-
Turns and dates.

A year has twenty-four turns: every month has an early and a late one.  Turn 1 is the
early turn of the first month of year 1, and turns before it share its date.

* `Date.ofTurn` is the date of a turn, `Date.toTurn` the turn of a date;
* `Date.label` writes a date;
* `turnHeading` is what a game shows: the date, the name of the ending after the last turn,
  or a mask while the date is hidden.
-/

namespace EventScript

/-- A date of the game's calendar. Months count from 1 to 12, years from 1. -/
structure Date where
  year : Nat
  month : Nat
  late : Bool
  deriving DecidableEq, Repr

namespace Date

/-- The number of turns in a year. -/
def turnsPerYear : Nat := 24

/-- The date of a turn. -/
def ofTurn (turn : Int) : Date :=
  let elapsed := (turn - 1).toNat
  ⟨elapsed / turnsPerYear + 1, elapsed % turnsPerYear / 2 + 1, elapsed % 2 = 1⟩

/-- The turn of a date. -/
def toTurn (d : Date) : Int :=
  turnsPerYear * ((d.year : Int) - 1) + 2 * ((d.month : Int) - 1) + (if d.late then 1 else 0) + 1

/-- The half of the month, in words. -/
def period (d : Date) : String :=
  if d.late then "下旬" else "上旬"

/-- A date in words. -/
def label (d : Date) : String :=
  "第" ++ toString d.year ++ "年 " ++ toString d.month ++ "月 " ++ d.period

end Date

/-- How a game shows a turn. -/
def turnHeading (turn maxTurns : Int) (hidden : Bool) : String :=
  if hidden then "?年?月?日"
  else if turn > maxTurns then "结局"
  else (Date.ofTurn turn).label

end EventScript
