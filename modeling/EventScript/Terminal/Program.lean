/-
The terminal program.

* `play` plays a game turn by turn: every character acts, events that wait are shown and
  answered by the player, or at random in automatic play;
* `exec` opens a game and carries one command out;
* `check` opens a game and evaluates one condition.

`Program.dialogue` is the whole program as a dialogue.  It opens files through functions
from paths to sources, so nothing here touches a disk, and reads them in whatever format they
have.  Scripts can make waiting events
endless, so there is a limit to how many of them are answered in a row: the program has
`patience` for very many.
-/
import EventScript.Loading
import EventScript.Session.Opening
import EventScript.Session.Turn
import EventScript.Terminal.Arguments
import EventScript.Terminal.Dialogue

namespace EventScript

namespace Program

variable {n : Nat}

/-- How many events in a row may be answered for one character before the game counts as
restless. -/
def patience : Nat := 1000000

/-! ### Showing -/

/-- The style in which entries of a kind are shown. -/
def entryStyle : EntryKind → String
  | .system => "bold blue"
  | .choice => "green"
  | .event => "white"

/-- An entry of the log as a line: with its speaker, and a star if it is important. -/
def entryLine (e : Entry) : Styled :=
  let body := styled (entryStyle e.kind) [.plain e.text]
  match e.kind with
  | .system => body
  | _ =>
    let speaker := [.markup (if e.important then "★ " else ""), .plain e.speaker]
    styled "cyan" speaker ++ .markup "  " :: body

/-- Shows entries of the log. -/
def showEntries : List Entry → Terminal Unit
  | [] => pure ()
  | e :: rest => do
    Terminal.say (entryLine e)
    showEntries rest

/-- Shows the entries that came after the first `seen` ones, and tells how many there are. -/
def flush (seen : Nat) (s : Session n) : Terminal Nat := do
  showEntries (s.log.drop seen)
  pure s.log.length

/-- Attributes in one cell of a table. -/
def attributeCell (m : Mapping Int) : String :=
  String.intercalate ", " (m.entries.map fun p => p.1 ++ ":" ++ toString p.2)

/-- Tags in one cell of a table, with their layers if there are several. -/
def tagCell (tags : List Tag) : String :=
  let cell := String.intercalate ", " (tags.map fun t =>
    if 1 < t.layers then t.template ++ "×" ++ toString t.layers else t.template)
  if cell.isEmpty then "-" else cell

/-- The row of a character. -/
def characterRow (c : Character) : List Styled :=
  [.markup (c.name ++ "\n") :: styled "dim" [.markup c.id], [.markup (attributeCell c.general)],
    [.markup (attributeCell c.race)], [.markup (tagCell c.tags)],
    [.markup (if c.inTeam then "是" else "否")]]

/-- Shows the cast in a table. -/
def showCast (s : Session n) : Terminal Unit :=
  Terminal.display (.table (s.cast.toList.map characterRow) "角色状态")

/-! ### Answering -/

/-- What is said about a line that selects nothing. -/
def complaint : Display :=
  .line (styled "yellow" [.markup "无效选项"])

/-- What a line of input means as an answer to a choice among visible options, which are
numbered from one. A line of digits that are not all decimal, or that are too many, cannot be
read at all. -/
def judgeChoice (visible : List Nat) (line : String) : Verdict :=
  let t := Text.trim line.toList
  if !t.isEmpty && t.all isDigitLike then
    if t.all isDigit && decide (t.length ≤ Text.digitLimit) then
      let k := digitsValue t
      if 1 ≤ k ∧ visible.contains (k - 1) then .accept (k - 1) else .refuse complaint
    else .giveUp .badText
  else .refuse complaint

/-- The options that a waiting event offers. To a character who is not there, all are. -/
def offered (rules : Rulebook) (s : Session n) (item : Pending) : Chance (List Nat) :=
  match s.seat? item.character with
  | some i => rules.visibleOptions s i item.scope item.event
  | none => pure (List.range item.event.options.length)

/-- The text of an option of a waiting event. -/
def captionOf (rules : Rulebook) (s : Session n) (item : Pending) (k : Nat) : Chance String :=
  let caption := (item.event.options[k]?.map Choice.caption).getD ""
  match s.seat? item.character with
  | some i => rules.render s i item.scope caption
  | none => pure caption

/-- The lines of a question, one for each option. -/
def optionLines (rules : Rulebook) (s : Session n) (item : Pending) : List Nat →
    Chance (List Styled)
  | [] => pure []
  | k :: rest => do
    let caption ← captionOf rules s item k
    let others ← optionLines rules s item rest
    pure ([.markup ("  [" ++ toString (k + 1) ++ "] "), .plain caption] :: others)

/-- Finds an answer to a waiting event: the player's, or a random one. -/
def chooseFor (rules : Rulebook) (s : Session n) (item : Pending) (auto : Bool) :
    Terminal Nat := do
  if item.continuation then
    if auto then pure 0
    else Terminal.ask (styled "dim" [.markup "按回车继续..."]) fun _ => .accept 0
  else
    let visible ← Terminal.chance (offered rules s item)
    if auto then Terminal.chance (Rulebook.drawPosition visible)
    else
      let lines ← Terminal.chance (optionLines rules s item visible)
      let question := List.intercalate [.markup "\n"] lines ++ [.markup "\n请选择: "]
      Terminal.ask question (judgeChoice visible)

/-- Shows a waiting event: in a frame if it has a title; a continuation without one is not
shown. -/
def showPending (item : Pending) : Terminal Unit :=
  if !item.title.isEmpty then
    let body := if item.text.isEmpty then "-" else item.text
    Terminal.display (.panel [.plain body] [.plain item.title])
  else if !item.continuation then Terminal.say [.plain item.text]
  else pure ()

/-- Answers waiting events until none is left. -/
def drain (rules : Rulebook) (auto : Bool) : Nat → Session n → Terminal (Session n)
  | 0, s => if s.pending.isEmpty then pure s else Terminal.stop .restless
  | steps + 1, s =>
    match s.front? with
    | none => pure s
    | some item => do
      showPending item
      let k ← chooseFor rules s item auto
      let moved ← Terminal.move (rules.resolve s k)
      drain rules auto steps (moved.getD s)

/-! ### Playing -/

/-- Lets the characters with the given ids act one after another, until the game is over. For each
of them, at most `limit` waiting events are answered. -/
def actAll (rules : Rulebook) (auto : Bool) (limit : Nat) : List String → Nat → Session n →
    Terminal (Nat × Session n)
  | [], seen, s => pure (seen, s)
  | id :: rest, seen, s => do
    let moved ← Terminal.move (rules.trigger s id none)
    let s ← drain rules auto limit (moved.getD s)
    let seen ← flush seen s
    if s.phase = .over then pure (seen, s) else actAll rules auto limit rest seen s

/-- Plays at most so many turns. -/
def playTurns (rules : Rulebook) (auto : Bool) (limit : Nat) : Nat → Nat → Session n →
    Terminal (Nat × Session n)
  | 0, seen, s => pure (seen, s)
  | turns + 1, seen, s =>
    if s.phase = .over then pure (seen, s)
    else do
      let s := (Rulebook.advance rules.settings s).getD s
      if s.phase = .over then pure (seen, s)
      else
        let (seen, s) ← actAll rules auto limit s.ids seen s
        playTurns rules auto limit turns seen s

/-- Plays a game up to a turn, or to its last turn if that is zero. -/
def play (rules : Rulebook) (auto : Bool) (limit : Nat) (turns : Int) (s : Session n) :
    Terminal Unit := do
  let seen ← flush 0 s
  let last := if turns = 0 then s.maxTurns else turns
  let (seen, s) ← playTurns rules auto limit (last - s.turn).toNat seen s
  let _ ← flush seen s
  let date := turnHeading s.turn s.maxTurns (s.hidesDate rules.settings)
  Terminal.say (.markup "\n" :: styled "bold" [.markup "游戏结束"] ++ [.markup ("（" ++ date ++ "）")])
  showCast s

/-! ### The other commands -/

/-- Carries one command out. -/
def executeOnce (rules : Rulebook) (s : Session n) (command character : String) :
    Terminal Unit := do
  let moved ← Terminal.move (rules.command s command character)
  let later := moved.getD s
  let _ ← flush s.log.length later
  showCast later

/-- Evaluates one condition. -/
def checkOnce (rules : Rulebook) (s : Session n) (condition character : String) :
    Terminal Unit := do
  let id := if character.isEmpty then rules.settings.playerId else character
  match s.seat? id with
  | none =>
    Terminal.say (styled "red" [.markup ("角色不存在: " ++ id)])
    Terminal.stop (.exit 1)
  | some i =>
    let answer ← Terminal.chance
      (evaluateCondition (s.world rules.settings) none i .empty condition.toList)
    let verdict := condition ++ " → " ++ if answer then "True" else "False"
    Terminal.say (styled (if answer then "green" else "red") [.markup verdict])

/-! ### The program -/

/-- The files that the program can open, by their paths, and their format. -/
structure Files where
  format : Format
  content : String → ContentSource
  settings : String → SettingsSource
  environment : Environment

/-- Is a failure to load reported as such? All others end the program as they are. -/
def isReported : Failure → Bool
  | .unsuitable => false
  | .unreadable => false
  | _ => true

/-- Loads the settings and the content of a game. -/
def load (files : Files) (game : GameArguments) : Except Failure (Settings × Content) := do
  let source := match game.config with
    | some path => files.settings path
    | none => .standard
  let settings ← Settings.load files.format source files.environment
  let content ← (files.content game.content).load files.format
  pure ({ settings with seed := game.seed.or settings.seed }, content)

/-- Loads a game; the program ends if that fails. -/
def loadOrStop (files : Files) (game : GameArguments) : Terminal (Settings × Content) :=
  match load files game with
  | .ok loaded => pure loaded
  | .error f =>
    if isReported f then do
      Terminal.say [.markup "加载失败"]
      Terminal.stop (.exit 1)
    else Terminal.stop (.failure f)

/-- The opening that the arguments ask for. -/
def openingOf (game : GameArguments) : Opening :=
  ⟨game.name, game.gender, game.tags, game.companion, game.roster⟩

/-- Opens a game; the program ends if there is no template for the player. -/
def openOrStop (game : GameArguments) (settings : Settings) (content : Content) :
    Terminal ((n : Nat) × Session n) := fun dice =>
  match ((openingOf game).start content.templates settings).run.run dice with
  | (.ok s, dice) => .result (s, dice)
  | (.error (.noTrainer t), dice) =>
    let reason := String.ofList (Text.quoted (Failure.noTrainer t).message.toList)
    .present (.line (styled "red" [.markup ("无法开局: " ++ reason)])) (.stop dice (.exit 1))
  | (.error f, dice) => .stop dice (.failure f)

/-- Loads and opens a game. -/
def prepare (files : Files) (game : GameArguments) :
    Terminal (Rulebook × ((n : Nat) × Session n)) := do
  let (settings, content) ← loadOrStop files game
  let opened ← openOrStop game settings content
  pure (⟨content.catalogue, settings⟩, opened)

/-- Carries a request out. -/
def carryOut (files : Files) (limit : Nat) : Request → Terminal Unit
  | .play game turns auto => do
    let (rules, ⟨_, s⟩) ← prepare files game
    play rules auto limit turns s
  | .execute game command character => do
    let (rules, ⟨_, s⟩) ← prepare files game
    executeOnce rules s command character
  | .check game condition character => do
    let (rules, ⟨_, s⟩) ← prepare files game
    checkOnce rules s condition character

/-- The program: what it says and asks for given arguments. -/
def dialogue (files : Files) (args : List String) : Terminal Unit :=
  match Arguments.read args with
  | .help => pure ()
  | .misuse => Terminal.stop (.exit 2)
  | .request r => carryOut files patience r

end Program

end EventScript
