/-
Events: the scripted happenings of a game, as authors write them.

An event with options is interactive and waits for a choice; any other event settles by
itself.  A catalogue keeps events in the order of declaration; looking an id up finds the
first event that has it.
-/

namespace EventScript

/-- One of the options of an interactive event. -/
structure Choice where
  /-- What the player reads. -/
  caption : String
  action : String
  /-- The condition under which the option is offered; without one it always is. -/
  visibleIf : String
  deriving DecidableEq, Repr

/-- What follows when a condition holds after an event's action. -/
structure Branch where
  note : String
  condition : String
  action : String
  /-- An event to follow, whatever the actions say. -/
  next : Option String
  deriving DecidableEq, Repr

/-- An event. -/
structure Event where
  id : String
  note : String
  /-- How likely the event is drawn, relative to the others. -/
  weight : Float
  /-- How often a character can draw the event; no limit when negative one. -/
  maxTriggers : Int
  tags : List String
  trigger : String
  preAction : String
  title : String
  body : String
  action : String
  options : List Choice
  branches : List Branch
  deriving Repr

namespace Event

/-- An event with an id and nothing else said about it. -/
def plain (id : String) : Event :=
  ⟨id, "", 1.0, -1, [], "", "", "", "", "", [], []⟩

instance : Inhabited Event := ⟨plain ""⟩

/-- Does the event wait for a choice? -/
def isInteractive (e : Event) : Bool :=
  !e.options.isEmpty

/-- Has a character that the event was processed for `count` times used it up? -/
def isExhausted (e : Event) (count : Int) : Bool :=
  decide (e.maxTriggers ≠ -1) && decide (e.maxTriggers ≤ count)

end Event

/-- All events of a game in the order of declaration. -/
structure Catalogue where
  events : List Event
  deriving Repr, Inhabited

namespace Catalogue

/-- Has the catalogue an event with the id? -/
def contains (c : Catalogue) (id : String) : Bool :=
  c.events.any fun e => e.id == id

/-- The first event with an id. The empty id names no event. -/
def find? (c : Catalogue) (id : String) : Option Event :=
  if id.isEmpty then none else c.events.find? fun e => e.id == id

end Catalogue

end EventScript
