/-
Opening a game.

The cast of a new game is the player, a companion in the team, and everyone else on the
roster.  The player enters from the trainer's template; the companion is the one asked for,
or is drawn from the templates of others; roster members are numbered in order, and nobody
enters twice.
-/
import EventScript.Cast.Template
import EventScript.Session.Basic

namespace EventScript

/-- What the player decides before a game. -/
structure Opening where
  playerName : String
  /-- The name of a gender; if empty, the template decides. -/
  gender : String
  startTags : List String
  /-- The template of the companion; if empty or unknown, one is drawn. -/
  companion : String
  /-- The templates of the other characters. -/
  roster : List String

namespace Opening

/-- The gender that the player asks for. -/
def readGender (o : Opening) : Except Failure (Option Gender) :=
  if o.gender.isEmpty then .ok none
  else
    match Gender.ofName? o.gender with
    | some g => .ok (some g)
    | none => .error (.invalid [⟨["gender"], .notAmongWords⟩])

/-- The templates that a companion may be drawn from. -/
def companionPool (templates : Mapping Template) (trainer : Template) : List Template :=
  templates.values.filter fun t => t.id != trainer.id && !t.isTrainer

/-- One of several templates, drawn at random. -/
def drawTemplate : List Template → Chance (Option Template)
  | [] => pure none
  | t :: rest => some <$> Dice.pick t rest

/-- The template of the companion: the one asked for, or one drawn from the pool. -/
def chooseCompanion (o : Opening) (templates : Mapping Template) (trainer : Template) :
    Chance (Option Template) :=
  match if o.companion.isEmpty then none else templates.get? o.companion with
  | some t => pure (some t)
  | none => drawTemplate (companionPool templates trainer)

/-- The other characters: those on the roster who are known and have not entered yet.
`used` are the templates of those who have, and `k` numbers the next one. -/
def others (templates : Mapping Template) : Nat → List String → List String → List Character
  | _, _, [] => []
  | k, used, id :: rest =>
    match templates.get? id with
    | none => others templates k used rest
    | some t =>
      if used.contains id then others templates k used rest
      else t.enter ⟨"npc" ++ toString k, false, "", none, []⟩ ::
        others templates (k + 1) (id :: used) rest

/-- The whole cast of a new game. -/
def cast (o : Opening) (templates : Mapping Template) (settings : Settings) :
    Play (List Character) :=
  match templates.get? settings.trainerTemplate with
  | none => throw (.noTrainer settings.trainerTemplate)
  | some trainer => do
    let gender ← Play.ofExcept o.readGender
    let player := trainer.enter ⟨settings.playerId, false, o.playerName, gender, o.startTags⟩
    let companion ← Play.chance (o.chooseCompanion templates trainer)
    let first := player :: companion.toList.map fun t => t.enter ⟨"c1", true, "", none, []⟩
    pure (first ++ others templates 1 (first.map Character.template) o.roster)

/-- The session that a cast begins. -/
def firstSession (settings : Settings) (playerName : String) (cast : List Character) :
    Session cast.length :=
  { phase := .playing, turn := 0, maxTurns := settings.maxTurns, cast := ⟨cast.toArray, by simp⟩,
    log := [⟨0, systemName, "欢迎来到特雷森学园，" ++ playerName ++ "！", .system, false, []⟩],
    pending := [] }

/-- Opens a game. -/
def start (o : Opening) (templates : Mapping Template) (settings : Settings) :
    Play ((n : Nat) × Session n) := do
  let cast ← o.cast templates settings
  pure ⟨cast.length, firstSession settings o.playerName cast⟩

end Opening

end EventScript
