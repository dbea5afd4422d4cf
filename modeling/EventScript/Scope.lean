/-
Variables of scripts.

A scope gives values to names.  Scripts put numbers, texts, references to characters and
lists of references into it; callers may supply any value.  A reference keeps the id of a
character and the name the character had then; whoever uses it looks the id up again.
-/
import EventScript.Mapping

namespace EventScript

/-- A reference to a character: its id, and its name at the time. -/
structure Reference where
  id : String
  name : String
  deriving DecidableEq, Repr

/-- The value of a variable. -/
inductive Value where
  | null
  | bool (b : Bool)
  | int (n : Int)
  | real (x : Float)
  | text (s : String)
  | reference (r : Reference)
  | list (items : List Value)
  | mapping (entries : List (String × Value))
  deriving Repr, Inhabited

/-- The variables of a script and their values. -/
abbrev Scope := Mapping Value

namespace Value

/-- The value of a variable that nobody has set. -/
def ofVariable (scope : Scope) (name : String) : Value :=
  scope.getD name .null

end Value

end EventScript
