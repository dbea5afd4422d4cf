/-
Readings of documents that report every fault.

A decoder turns a document into a value or into the list of all its faults; each fault has
the path to the place where it was found.  Combining two results collects the faults of
both, so one reading reports everything that is wrong.
-/
import EventScript.Document.Basic

namespace EventScript

/-- What can be wrong at a place of a document. -/
inductive FaultKind where
  /-- A field that has no default is not there. -/
  | missing
  /-- No text. -/
  | notText
  /-- Nothing that a whole number could be read from. -/
  | notInteger
  /-- A text that is no whole number. -/
  | unreadableInteger
  /-- A number with a fraction in place of a whole number. -/
  | fractionalInteger
  /-- Infinity, or no number at all, in place of a whole number. -/
  | infiniteInteger
  /-- Nothing that a number could be read from. -/
  | notNumber
  /-- A text that is no number. -/
  | unreadableNumber
  /-- Nothing that a truth value could be read from. -/
  | notBoolean
  /-- A text or number that is no truth value. -/
  | unreadableBoolean
  /-- None of the words that are allowed. -/
  | notAmongWords
  /-- No list. -/
  | notList
  /-- No list, where a list of fixed content is asked for. -/
  | notSequence
  /-- No mapping. -/
  | notMapping
  /-- No mapping, where the fields of a record are asked for. -/
  | notRecord
  /-- Below the least number allowed. -/
  | tooSmall
  /-- Above the greatest number allowed. -/
  | tooGreat
  /-- Something other than a mapping where values are merged into defaults. This fault
  ends the reading at once. -/
  | notMergeable
  deriving DecidableEq, Repr

/-- A fault and the path to it, from the outside in. -/
structure Fault where
  path : List String
  kind : FaultKind
  deriving DecidableEq, Repr

/-- The result of reading a document: a value, or all the faults. -/
inductive Checked (α : Type) where
  | ok (value : α)
  | faulty (faults : List Fault)
  deriving Repr

namespace Checked

variable {α β : Type}

/-- Combines two results and collects the faults of both. -/
def apply (f : Checked (α → β)) (x : Checked α) : Checked β :=
  match f, x with
  | ok f, ok a => ok (f a)
  | ok _, faulty fs => faulty fs
  | faulty fs, ok _ => faulty fs
  | faulty fs, faulty gs => faulty (fs ++ gs)

instance : Applicative Checked where
  pure := ok
  seq f x := apply f (x ())

/-- A single fault at the place itself. -/
def fault (kind : FaultKind) : Checked α :=
  faulty [⟨[], kind⟩]

/-- Puts a step in front of the path of every fault. -/
def under (step : String) : Checked α → Checked α
  | ok a => ok a
  | faulty fs => faulty (fs.map fun f => { f with path := step :: f.path })

/-- Collects a list of results. -/
def sequence : List (Checked α) → Checked (List α)
  | [] => ok []
  | x :: rest => List.cons <$> x <*> sequence rest

end Checked

/-- A way to read a value from a document. -/
abbrev Decoder (α : Type) := Document → Checked α

end EventScript
