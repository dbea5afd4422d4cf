/-
Templates: what authors write about characters and tags before a game starts.

`Template.enter` makes a character from a template.  Some start tags change an attribute
once, when the character enters.
-/
import EventScript.Cast.Character

namespace EventScript

/-- What authors say about a tag. -/
structure TagTemplate where
  id : String
  displayName : String
  description : String
  rarity : Int
  exclusiveWith : List String
  humanAllowed : Bool
  umaAllowed : Bool
  selectableAtStart : Bool
  showLayers : Bool
  deriving DecidableEq, Repr

/-- May a player choose the tag at the start of a game? -/
def TagTemplate.isStartTag (t : TagTemplate) : Bool :=
  t.humanAllowed && t.selectableAtStart

/-- What authors say about a character. -/
structure Template where
  id : String
  name : String
  gender : Gender
  initialTags : List String
  general : Mapping Int
  race : Mapping Int
  aptitudes : Option (Mapping String)
  isTrainer : Bool
  callings : List CallingRule
  deriving DecidableEq, Repr

/-- The tags that change an attribute when a character enters with them. -/
def startBonuses : List (String × String × Int) :=
  [("贫穷", "财富", -5), ("富豪", "财富", 5), ("魅力十足", "魅力", 5), ("路人脸", "魅力", -5)]

/-- The choices made when a character enters a game. -/
structure Entrance where
  id : String
  inTeam : Bool
  /-- Replaces the name of the template, unless empty. -/
  name : String
  /-- Replaces the gender of the template. -/
  gender : Option Gender
  extraTags : List String
  deriving DecidableEq, Repr

namespace Template

/-- The initial tags, then the extra ones that are not among the tags yet. -/
def entranceTags (initial extra : List String) : List String :=
  extra.foldl (fun tags t => if tags.contains t then tags else tags ++ [t]) initial

/-- Applies the bonus of one start tag. -/
def applyBonus (c : Character) (bonus : String × String × Int) : Character :=
  if c.hasTag bonus.1 then c.adjustGeneral bonus.2.1 bonus.2.2 else c

/-- The character that enters a game from a template. -/
def enter (t : Template) (e : Entrance) : Character :=
  let tags := (entranceTags t.initialTags e.extraTags).map fun id => ⟨id, 0, 1, []⟩
  let aptitudes := t.aptitudes.bind fun m => if m.entries.isEmpty then none else some m
  startBonuses.foldl applyBonus
    { id := e.id, template := t.id, name := if e.name.isEmpty then t.name else e.name,
      gender := e.gender.getD t.gender, general := t.general, race := t.race, aptitudes, tags,
      fired := .empty, relations := .empty, callings := t.callings, inTeam := e.inTeam,
      joined := none }

end Template

end EventScript
