/-
The world that scripts see: the characters, the turn and the conventions of the game.

The characters of a game sit in a row of fixed length; a seat is a position in it.
Scripts act on seats, so two characters never get mixed up even if their ids agree.

`World.resolve?` finds the character that a script means by a key.  It tries, in this
order: the reserved words for the acting character, the trainer and the player; names and
template ids; variables; ids.
-/
import EventScript.Cast.Character
import EventScript.Scope
import EventScript.Settings
import EventScript.Script.Selector

namespace EventScript

/-- The world at one moment, with `n` characters. -/
structure World (n : Nat) where
  cast : Vector Character n
  turn : Int
  settings : Conventions

/-- A seat in a cast of `n` characters. -/
abbrev Seat (n : Nat) := Fin n

namespace World

variable {n : Nat}

/-- The seats from the first to the last. -/
def seats (_ : World n) : List (Seat n) :=
  List.finRange n

/-- The character in a seat. -/
def character (w : World n) (i : Seat n) : Character :=
  w.cast.get i

/-- The first seat whose character satisfies a test. -/
def seek? (w : World n) (test : Character → Bool) : Option (Seat n) :=
  w.seats.find? fun i => test (w.character i)

/-- The seat of the character with an id. The empty id belongs to nobody. -/
def find? (w : World n) (id : String) : Option (Seat n) :=
  if id.isEmpty then none else w.seek? fun c => c.id == id

/-- The seat of the player. -/
def player? (w : World n) : Option (Seat n) :=
  w.find? w.settings.playerId

/-- The seat of the trainer: a character of the trainer's template, or the player. -/
def trainer? (w : World n) : Option (Seat n) :=
  w.seek? fun c => c.template == w.settings.trainerTemplate || c.id == w.settings.playerId

/-- How many characters are in the team. -/
def teamSize (w : World n) : Int :=
  (w.seats.countP fun i => (w.character i).inTeam : Nat)

/-- A reference to the character in a seat. -/
def reference (w : World n) (i : Seat n) : Reference :=
  ⟨(w.character i).id, (w.character i).name⟩

/-- The seat of the first character that has a text as its name or its template. -/
def findNamed? (w : World n) (s : String) : Option (Seat n) :=
  w.seek? fun c => c.template == s || c.name == s

/-- The character that a text in a variable means: an id, if it starts as ids do, or else
a name or a template. -/
def ofText? (w : World n) (s : String) : Option (Seat n) :=
  if s.isEmpty then none
  else if w.settings.idPrefixes.any fun p => p.toList.isPrefixOf s.toList then
    (w.find? s).or (w.findNamed? s)
  else w.findNamed? s

/-- The character that a value means. -/
def ofValue? (w : World n) : Value → Option (Seat n)
  | .reference r => w.find? r.id
  | .text s => w.ofText? s
  | .mapping entries =>
    match Mapping.lookup "instance_id" entries with
    | some (.text id) => w.find? id
    | _ => none
  | _ => none

/-- The character that a variable means. -/
def ofVariable? (w : World n) (scope : Scope) (key : Text) : Option (Seat n) :=
  (scope.get? (String.ofList (variableKey key))).bind w.ofValue?

/-- The character that a key means, for the acting character `subject`. -/
def resolve? (w : World n) (subject : Seat n) (scope : Scope) (key : Text) : Option (Seat n) :=
  let key := Text.trim key
  if key.isEmpty then none
  else if key = "当前角色".toList then some subject
  else if key = "训练员".toList then w.trainer?
  else if key = "玩家".toList then w.player?
  else
    ((w.findNamed? (String.ofList key)).or (w.ofVariable? scope key)).or
      (w.find? (String.ofList key))

/-- The members of a list value as references to the characters they mean now; members
that mean no character are left out.  A value that is no list has none. -/
def references? (w : World n) : Value → Option (List Reference)
  | .list items => some (items.filterMap fun v => (w.ofValue? v).map w.reference)
  | _ => none

/-- The id of the object of a relation: the word for the player stands for the player's
id, whoever has it. -/
def objectId? (w : World n) (subject : Seat n) (scope : Scope) (key : Text) : Option String :=
  if key = "玩家".toList then some w.settings.playerId
  else (w.resolve? subject scope key).map fun i => (w.character i).id

end World

end EventScript
