/-
Sessions: the state of a game between two moves.

A session has a cast of fixed size, the turn, the log, and a queue of events that wait for
the player, the most urgent first.  Moves are made by a `Rulebook`, which never changes
during a game.  A move may roll dice and may fail; a move that fails leaves no new session,
but the dice stay rolled.
-/
import EventScript.Event.Basic
import EventScript.Failure
import EventScript.Script.Passage

namespace EventScript

/-- The phases of a game. -/
inductive Phase where
  | setup | playing | over
  deriving DecidableEq, Repr

/-- The kinds of entries in a log. -/
inductive EntryKind where
  | event | system | choice
  deriving DecidableEq, Repr

/-- An entry of the log. Its text includes the summary of changes, which `effects` lists
line by line. -/
structure Entry where
  turn : Int
  speaker : String
  text : String
  kind : EntryKind
  /-- Does the entry belong to an event with a title? -/
  important : Bool
  effects : List String
  deriving DecidableEq, Repr

/-- An event that waits for the player, with title and text already rendered. A
continuation waits for a confirmation only, any other event for the choice of an option. -/
structure Pending where
  character : String
  event : Event
  scope : Scope
  title : String
  text : String
  continuation : Bool
  deriving Repr

/-- The state of a game with `n` characters. -/
structure Session (n : Nat) where
  phase : Phase
  turn : Int
  maxTurns : Int
  cast : Vector Character n
  log : List Entry
  pending : List Pending

/-- What stays the same during a game. -/
structure Rulebook where
  catalogue : Catalogue
  settings : Settings

/-- A move of a game: it may roll dice and may fail. -/
abbrev Play := ExceptT Failure Chance

/-- The name under which the game itself speaks. -/
def systemName : String := "系统"

namespace Session

variable {n : Nat}

/-- The world of the session. -/
def world (s : Session n) (settings : Settings) : World n :=
  ⟨s.cast, s.turn, settings.conventions⟩

/-- The character in a seat. -/
def character (s : Session n) (i : Seat n) : Character :=
  s.cast.get i

/-- The seat of the character with an id. -/
def seat? (s : Session n) (id : String) : Option (Seat n) :=
  (List.finRange n).find? fun i => (s.character i).id == id

/-- The ids of the cast in order. -/
def ids (s : Session n) : List String :=
  s.cast.toList.map Character.id

/-- Changes the character in a seat. -/
def update (s : Session n) (i : Seat n) (f : Character → Character) : Session n :=
  { s with cast := s.cast.set i.val (f (s.character i)) i.isLt }

/-- Adds an entry to the log, unless there is nothing to say. -/
def note (s : Session n) (speaker text : String) (kind : EntryKind) (important : Bool)
    (effects : List String) : Session n :=
  let full := String.intercalate "\n" ((text :: effects).filter (! ·.isEmpty))
  if full.isEmpty then s
  else { s with log := s.log ++ [⟨s.turn, speaker, full, kind, important, effects⟩] }

/-- Puts an event in front of the queue. -/
def push (s : Session n) (item : Pending) : Session n :=
  { s with pending := item :: s.pending }

/-- The event that the player has to deal with first. -/
def front? (s : Session n) : Option Pending :=
  s.pending.head?

/-- Is the date hidden from the player? -/
def hidesDate (s : Session n) (settings : Settings) : Bool :=
  match s.seat? settings.playerId with
  | some i => (s.character i).hasTag settings.confinementTag
  | none => false

end Session

/-- Rolls dice in a move. -/
def Play.chance {α : Type} (c : Chance α) : Play α :=
  ExceptT.lift c

/-- Takes over a result that may be a failure. -/
def Play.ofExcept {α : Type} (r : Except Failure α) : Play α :=
  ExceptT.mk (pure r)

end EventScript
