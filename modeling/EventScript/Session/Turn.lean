/-
The moves of a game.

* `Rulebook.trigger` lets a character draw an event, or forces one on it;
* `Rulebook.processFor` processes a given event for a character;
* `Rulebook.resolve` answers the event in front of the queue;
* `Rulebook.command` carries out a command from the console;
* `Rulebook.advance` begins the next turn.

A move that finds nothing to do is `none`: the session stays as it is.
-/
import EventScript.Calendar
import EventScript.Session.Chain
import EventScript.Session.Selection

namespace EventScript

namespace Rulebook

variable {n : Nat}

/-- Processes an event for the character with an id. Nothing happens to strangers, but the
move counts as made. -/
def processFor (rules : Rulebook) (s : Session n) (e : Event) (id : String) (scope : Scope) :
    Play (Session n) :=
  match s.seat? id with
  | some i => rules.process s i e scope
  | none => pure s

/-- The event for a character to act on: the forced one, or else one that it draws. -/
def eventFor (rules : Rulebook) (s : Session n) (i : Seat n) (forced : Option Event) :
    Chance (Option Event) :=
  match forced with
  | some e => pure (some e)
  | none => rules.select? s i

/-- Lets a character act: the forced event, or one that it draws, is processed. -/
def trigger (rules : Rulebook) (s : Session n) (id : String) (forced : Option Event) :
    Play (Option (Session n)) :=
  match s.seat? id with
  | none => pure none
  | some i => do
    let chosen ← Play.chance (rules.eventFor s i forced)
    match chosen with
    | some e => some <$> rules.process s i e .empty
    | none => pure none

/-- Can the front of the queue be answered with an option? A continuation takes any answer. -/
def accepts (item : Pending) (index : Int) : Bool :=
  item.continuation || (decide (0 ≤ index) && decide (index < item.event.options.length))

/-- Answers an event that has left the queue, for the character in a seat. -/
def answer (rules : Rulebook) (s : Session n) (i : Seat n) (item : Pending) (index : Int) :
    Play (Session n) :=
  if item.continuation then rules.process s i item.event item.scope
  else do
    let s := s.note (s.character i).name item.text .event (!item.event.title.isEmpty) []
    let a ← rules.settleOption s i item.event index.toNat item.scope false
    rules.follow i 0 a

/-- Answers the event in front of the queue with the position of an option. -/
def resolve (rules : Rulebook) (s : Session n) (index : Int) : Play (Option (Session n)) :=
  match s.pending with
  | [] => pure none
  | item :: rest =>
    if !accepts item index then pure none
    else
      let s := { s with pending := rest }
      match s.seat? item.character with
      | some i => some <$> rules.answer s i item index
      | none => pure (some s)

/-- The seat that a console command is for: the character with the id, or the trainer if no
id is given. -/
def commandSeat? (rules : Rulebook) (s : Session n) (id : String) : Option (Seat n) :=
  if id.isEmpty then (s.world rules.settings).trainer? else s.seat? id

/-- Carries out a command from the console and logs its effects. -/
def command (rules : Rulebook) (s : Session n) (text id : String) : Play (Option (Session n)) :=
  match rules.commandSeat? s id with
  | none => pure none
  | some i => do
    let p ← Play.chance (execute (s.world rules.settings) i .empty text.toList)
    let later := { s with cast := p.world.cast }
    let effects := rules.effectsSince s later i
    let later := later.note systemName ("执行指令：" ++ text) .system false effects
    -- if several characters share an id, the chain goes on with the first of them
    let first := (s.seat? (s.character i).id).getD i
    some <$> rules.follow first 0 ⟨later, p.next, p.pause, p.scope⟩

/-- Begins the next turn and writes its date into the log; after the last turn the game is
over. Nothing happens while events are waiting, or when the game is over already. -/
def advance (settings : Settings) (s : Session n) : Option (Session n) :=
  if s.phase = .over ∨ !s.pending.isEmpty then none
  else
    let turn := s.turn + 1
    if s.maxTurns < turn then some { s with phase := .over }
    else
      let heading := turnHeading turn s.maxTurns (s.hidesDate settings)
      some ({ s with turn }.note systemName ("=== " ++ heading ++ " ===") .system false [])

end Rulebook

end EventScript
