/-
Summaries of change.

Two moments of a cast are compared character by character.  The summary of a character
lists the attributes that rose or fell, the tags gained and lost, and the direction of each
relation that moved; `changeLog` has one line for each character who changed, the acting
one first and without a name.
-/
import EventScript.Cast.Character

namespace EventScript

/-- A number with its sign, for a difference that is not zero. -/
def signedText (n : Int) : String :=
  if 0 < n then "+" ++ toString n else toString n

/-- The attributes of a list of names that differ, with their differences. -/
def attributeChanges (names : List String) (old new : Mapping Int) : List String :=
  names.filterMap fun name =>
    let delta := new.getD name 0 - old.getD name 0
    if delta = 0 then none else some (name ++ signedText delta)

/-- The tags gained, then the tags lost. -/
def tagChanges (old new : List Tag) : List String :=
  let before := old.map Tag.template
  let after := new.map Tag.template
  ((after.filter fun t => !before.contains t).map fun t => "获得[" ++ t ++ "]") ++
    (before.filter fun t => !after.contains t).map fun t => "移除[" ++ t ++ "]"

/-- The last character with an id. -/
def lastWithId? (cast : List Character) (id : String) : Option Character :=
  cast.reverse.find? fun c => c.id == id

/-- Whom a relation is about: nothing for the player and for people outside the cast. -/
def relationLabel (cast : List Character) (playerId id : String) : String :=
  if id = playerId then ""
  else ((lastWithId? cast id).map fun c => "(" ++ c.name ++ ")").getD ""

/-- The kinds of one relation that differ, with the direction. -/
def relationChanges (label : String) (old new : Relationship) : List String :=
  RelationKind.all.filterMap fun kind =>
    let before := old.score kind
    let after := new.score kind
    if before = after then none
    else some (kind.name ++ label ++ if before < after then "↑" else "↓")

/-- What has changed about one character. The relations follow the order in which they
were formed. -/
def characterChanges (old new : Character) (cast : List Character) (playerId : String) :
    List String :=
  let others := (old.relations.keys ++ new.relations.keys).foldl
    (fun seen id => if seen.contains id then seen else seen ++ [id]) []
  attributeChanges generalNames old.general new.general ++
    attributeChanges raceNames old.race new.race ++
    tagChanges old.tags new.tags ++
    others.flatMap fun id =>
      relationChanges (relationLabel cast playerId id) (old.relation id) (new.relation id)

/-- One line about a character, unless nothing has changed. -/
def changeLine? (start : String) (changes : List String) : Option String :=
  if changes.isEmpty then none else some (start ++ String.intercalate ", " changes)

/-- The line about the acting character. -/
def subjectLine? (old new : List Character) (subjectId playerId : String) : Option String :=
  match lastWithId? old subjectId, new.find? fun c => c.id == subjectId with
  | some before, some after => changeLine? "" (characterChanges before after new playerId)
  | _, _ => none

/-- The line about another character. -/
def otherLine? (old new : List Character) (subjectId playerId : String) (c : Character) :
    Option String :=
  if c.id = subjectId then none
  else
    (lastWithId? old c.id).bind fun before =>
      changeLine? (c.name ++ "：") (characterChanges before c new playerId)

/-- The lines about all characters who are present at both moments and have changed. -/
def changeLog (old new : List Character) (subjectId playerId : String) : List String :=
  (subjectLine? old new subjectId playerId).toList ++
    new.filterMap (otherLine? old new subjectId playerId)

end EventScript
