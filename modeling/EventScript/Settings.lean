/-
Settings of a game: reserved names, special tags, chances, standard texts and limits.

Scripts see only some of them, the `Conventions`; limits and strictness are none of their
business.
-/

namespace EventScript

/-- The settings of a game. -/
structure Settings where
  /-- The id of the player's character. -/
  playerId : String
  /-- The template of the player's character. -/
  trainerTemplate : String
  /-- How ids start. Texts that start so are looked up as ids first. -/
  idPrefixes : List String
  /-- How a character without a fitting rule calls the player. -/
  defaultCalling : String
  splitTag : String
  ringTag : String
  pregnancyTag : String
  pregnancyLayers : Int
  overworkTag : String
  confinementTag : String
  endingTag : String
  workTag : String
  pairingChance : Float
  splitChoiceChance : Float
  splitForgetChance : Float
  /-- What is logged in place of a forgotten text, with a slot for the name. -/
  memoryLostText : String
  unknownChoiceText : String
  /-- The command that precedes an option chosen by the other self. -/
  splitCompensation : String
  maxTurns : Int
  /-- How many events may follow one another in one go. -/
  maxChainDepth : Int
  /-- Is a chain that grows too long an error? -/
  strict : Bool
  seed : Option Int
  deriving Repr

namespace Settings

/-- The settings of a game that says nothing about them. -/
def standard : Settings where
  playerId := "p1"
  trainerTemplate := "训练员"
  idPrefixes := ["c", "p", "npc"]
  defaultCalling := "训练员"
  splitTag := "多重人格"
  ringTag := "婚戒"
  pregnancyTag := "怀孕"
  pregnancyLayers := 20
  overworkTag := "社畜"
  confinementTag := "监禁"
  endingTag := "结局"
  workTag := "工作"
  pairingChance := 0.1
  splitChoiceChance := 0.5
  splitForgetChance := 0.2
  memoryLostText := "\x7bname\x7d没有这段记忆。"
  unknownChoiceText := "你不知道做出了什么选择"
  splitCompensation := "属性变更 体力 5; 属性变更 精力 5"
  maxTurns := 72
  maxChainDepth := 32
  strict := false
  seed := none

instance : Inhabited Settings := ⟨standard⟩

end Settings

/-- The settings that scripts see. -/
structure Conventions where
  playerId : String
  trainerTemplate : String
  idPrefixes : List String
  defaultCalling : String
  ringTag : String
  pregnancyTag : String
  pregnancyLayers : Int
  pairingChance : Float
  deriving Repr

namespace Settings

/-- What scripts see of the settings of a game. -/
def conventions (s : Settings) : Conventions :=
  ⟨s.playerId, s.trainerTemplate, s.idPrefixes, s.defaultCalling, s.ringTag, s.pregnancyTag,
    s.pregnancyLayers, s.pairingChance⟩

instance : Coe Settings Conventions := ⟨conventions⟩

end Settings

end EventScript
