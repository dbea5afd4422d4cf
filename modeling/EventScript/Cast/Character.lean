/-
Characters.

A character's id never changes during a game; its attributes, tags, relations and counts
of events do.  A tag has layers, and a character without the tag has zero of them.
-/
import EventScript.Cast.Attribute

namespace EventScript

/-- A tag that a character has: which one, since which turn, how many layers, and toward
whom if it is about other characters. -/
structure Tag where
  template : String
  since : Int
  layers : Int
  targets : List String
  deriving DecidableEq, Repr

/-- How a character calls the player: the first rule whose condition holds decides. A rule
without a condition always holds. -/
structure CallingRule where
  condition : String
  calling : String
  deriving DecidableEq, Repr

/-- A character of a game. -/
structure Character where
  id : String
  template : String
  name : String
  gender : Gender
  general : Mapping Int
  race : Mapping Int
  aptitudes : Option (Mapping String)
  tags : List Tag
  /-- How often each event has been processed for the character. -/
  fired : Mapping Int
  relations : Mapping Relationship
  callings : List CallingRule
  inTeam : Bool
  /-- The turn in which the character joined the team. -/
  joined : Option Int
  deriving DecidableEq, Repr

namespace Character

/-- A character with an id, a template and a name, and nothing else said about it. -/
def plain (id template name : String) : Character :=
  ⟨id, template, name, .female, defaultGeneral, defaultRace, none, [], .empty, .empty, [],
    false, none⟩

instance : Inhabited Character := ⟨plain "" "" ""⟩

/-! ### Tags -/

/-- The first tag of a template. -/
def tag? (c : Character) (template : String) : Option Tag :=
  c.tags.find? fun t => t.template = template

/-- Has the character the tag? -/
def hasTag (c : Character) (template : String) : Bool :=
  (c.tag? template).isSome

/-- The layers of a tag, zero without it. -/
def tagLayers (c : Character) (template : String) : Int :=
  ((c.tag? template).map Tag.layers).getD 0

/-- Removes a tag. -/
def removeTag (c : Character) (template : String) : Character :=
  { c with tags := c.tags.filter fun t => t.template ≠ template }

/-- Changes the layers of the first tag of a template. -/
def relayer (template : String) (layers : Int) : List Tag → List Tag
  | [] => []
  | t :: rest =>
    if t.template = template then { t with layers } :: rest else t :: relayer template layers rest

/-- Gives a tag a number of layers: below one it is removed, and a tag that the character
did not have comes last, dated with the turn. -/
def setTag (c : Character) (template : String) (layers turn : Int) : Character :=
  if layers < 1 then c.removeTag template
  else if c.hasTag template then { c with tags := relayer template layers c.tags }
  else { c with tags := c.tags ++ [⟨template, turn, layers, []⟩] }

/-! ### Attributes -/

/-- An attribute by its name: general attributes come before race attributes. -/
def attribute? (c : Character) (name : String) : Option Int :=
  match c.general.get? name with
  | some n => some n
  | none => c.race.get? name

/-- Changes a general attribute, within bounds. -/
def adjustGeneral (c : Character) (name : String) (delta : Int) : Character :=
  { c with general := c.general.put name (clamp (c.general.getD name 0 + delta)) }

/-- Changes a race attribute, which never falls below zero. -/
def adjustRace (c : Character) (name : String) (delta : Int) : Character :=
  { c with race := c.race.put name (max 0 (c.race.getD name 0 + delta)) }

/-! ### Relations -/

/-- The relation toward another character; strangers have none. -/
def relation (c : Character) (other : String) : Relationship :=
  c.relations.getD other .none

/-- Changes the relation toward another character, who is no stranger any more. -/
def updateRelation (c : Character) (other : String) (f : Relationship → Relationship) :
    Character :=
  { c with relations := c.relations.put other (f (c.relation other)) }

/-- Changes one score of the relation toward another character. -/
def adjustRelation (c : Character) (other : String) (kind : RelationKind) (delta : Int) :
    Character :=
  c.updateRelation other fun r => r.adjust kind delta

/-! ### Events -/

/-- How often an event has been processed for the character. -/
def timesFired (c : Character) (event : String) : Int :=
  c.fired.getD event 0

/-- Counts one more processing of an event. -/
def countEvent (c : Character) (event : String) : Character :=
  { c with fired := c.fired.put event (c.timesFired event + 1) }

end Character

/-- What becomes of a change of feeling: a gain grows with the charm of its object, at a
tenth of the charm, and romance toward someone with a wedding ring is worth a fifth of
that.  Losses are not changed.  Fractions are dropped. -/
def charmed (amount : Int) (object : Character) (kind : String) (ringTag : String) : Int :=
  if amount ≤ 0 then amount
  else
    let charm := max 0 (object.general.getD "魅力" 0)
    if kind = RelationKind.romance.name ∧ object.hasTag ringTag then amount * charm * 2 / 100
    else amount * charm / 10

end EventScript
