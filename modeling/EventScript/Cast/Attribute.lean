/-
Attributes, genders and relations of characters.

Every character has eight general attributes, which stay between 0 and 100, and five race
attributes, which only have a lower bound.  A relation is a pair of scores between 0 and
100 that one character holds toward another.
-/
import EventScript.Mapping

namespace EventScript

/-- The lesser bound and the greater bound hold a number between them. -/
def clampBetween (low high n : Int) : Int :=
  max low (min high n)

/-- Holds a score between 0 and 100. -/
def clamp (n : Int) : Int :=
  clampBetween 0 100 n

theorem clamp_nonneg (n : Int) : 0 ≤ clamp n := by
  unfold clamp clampBetween
  omega

theorem clamp_le (n : Int) : clamp n ≤ 100 := by
  unfold clamp clampBetween
  omega

/-- The names of the general attributes: four that change often, then four that are
stable. -/
def generalNames : List String :=
  ["体力", "精力", "心情", "爱欲", "体质", "学识", "魅力", "财富"]

/-- The names of the race attributes. -/
def raceNames : List String :=
  ["速度", "耐力", "力量", "毅力", "智慧"]

/-- The general attributes of a character about whom nothing is said. -/
def defaultGeneral : Mapping Int :=
  ⟨[("体力", 100), ("精力", 100), ("心情", 50), ("爱欲", 0), ("体质", 20), ("学识", 20),
    ("魅力", 20), ("财富", 20)]⟩

/-- The race attributes of a character about whom nothing is said. -/
def defaultRace : Mapping Int :=
  ⟨raceNames.map fun name => (name, 0)⟩

/-- Genders. -/
inductive Gender where
  | male | female
  deriving DecidableEq, Repr

namespace Gender

/-- The name of a gender. -/
def name : Gender → String
  | male => "男"
  | female => "女"

/-- The gender with a name. -/
def ofName? (s : String) : Option Gender :=
  if s = "男" then some male else if s = "女" then some female else none

end Gender

/-- What a relation is measured in. -/
inductive RelationKind where
  | friendship | romance
  deriving DecidableEq, Repr

namespace RelationKind

/-- The name of a kind. -/
def name : RelationKind → String
  | friendship => "友情"
  | romance => "爱情"

/-- All kinds, in the order in which they are shown. -/
def all : List RelationKind := [friendship, romance]

/-- The kind with a name. -/
def ofName? (s : String) : Option RelationKind :=
  all.find? fun k => k.name = s

end RelationKind

/-- The scores that one character holds toward another. -/
structure Relationship where
  friendship : Int
  romance : Int
  deriving DecidableEq, Repr

namespace Relationship

/-- The relation toward a stranger. -/
def none : Relationship := ⟨0, 0⟩

instance : Inhabited Relationship := ⟨none⟩

/-- The score of one kind. -/
def score (r : Relationship) : RelationKind → Int
  | .friendship => r.friendship
  | .romance => r.romance

/-- Changes the score of one kind, within bounds. -/
def adjust (r : Relationship) (kind : RelationKind) (delta : Int) : Relationship :=
  match kind with
  | .friendship => { r with friendship := clamp (r.friendship + delta) }
  | .romance => { r with romance := clamp (r.romance + delta) }

end Relationship

end EventScript
