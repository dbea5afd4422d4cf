/-
Chance.

A game draws numbers from a `Dice`: a tape of natural numbers and a tape of numbers that stand
for those from zero up to below one, both read from their start, and the record of the rolls
made so far.  The number of rolls made is the position on the tapes, so equal dice have been
used in exactly the same way.

* `rollUnit` draws a number from zero up to below one;
* `rollBetween` draws a whole number from a closed interval, whose ends may come in either
  order;
* `pick` draws one of several things, all alike.

A computation in `Chance` is a function from dice to a value and the dice after it.
-/

namespace EventScript

/-- What was asked of the dice. -/
inductive Roll where
  /-- A number from zero up to below one. -/
  | unit
  /-- A whole number between two bounds, both included. -/
  | between (low high : Int)
  /-- One of `count` things. -/
  | pick (count : Nat)
  deriving DecidableEq, Repr

/-- A source of chance: the tapes it reads and the rolls made so far, oldest first. -/
structure Dice where
  /-- What is read where whole numbers and members of lists are drawn. -/
  tape : Nat → Nat
  /-- What is read where numbers below one are drawn. Where it matters that they are, this is
  said about the exact numbers that they stand for. -/
  units : Nat → Float
  rolls : Array Roll

/-- A computation that may roll dice. -/
abbrev Chance := StateM Dice

namespace Dice

/-- A number of thousandths below one. -/
def thousandths (k : Nat) : Float :=
  Float.ofNat (k % 1000) / 1000

/-- Dice that have not been rolled, with a tape of natural numbers that stand for thousandths
where numbers below one are drawn. -/
def fresh (tape : Nat → Nat) : Dice := ⟨tape, fun i => thousandths (tape i), #[]⟩

/-- A tape that repeats a list of numbers forever; without numbers it is all zeros. -/
def cyclic (numbers : Array Nat) (i : Nat) : Nat :=
  numbers.getD (i % numbers.size) 0

/-- Reads the next number of the tape and records what it was read for. -/
def roll (r : Roll) : Chance Nat := fun d =>
  (d.tape d.rolls.size, { d with rolls := d.rolls.push r })

/-- Draws a number from zero up to below one. -/
def rollUnit : Chance Float := fun d =>
  (d.units d.rolls.size, { d with rolls := d.rolls.push .unit })

/-- Draws a whole number between two bounds, given in either order. -/
def rollBetween (a b : Int) : Chance Int := do
  let low := min a b
  let high := max a b
  let k ← roll (.between low high)
  pure (low + (k : Int) % (high - low + 1))

/-- Draws one member of a list that is not empty, given as its head and tail. -/
def pick {α : Type} (x : α) (rest : List α) : Chance α := do
  let k ← roll (.pick (rest.length + 1))
  pure ((x :: rest).getD (k % (rest.length + 1)) x)

end Dice

end EventScript
