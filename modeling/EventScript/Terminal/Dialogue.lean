/-
Dialogues: what a terminal program shows and asks.

What is shown are texts in markup, in which a word in square brackets may set a style, with
plain text between them.  How a terminal shows markup, and how it keeps plain text from being
taken for it, is the business of the terminal.

A dialogue is a finite tree.  It shows something, asks a question, or stops.  A question
comes with a judge, who accepts an answer, refuses it with a complaint, so that the
question is asked again, or gives up; it goes on with the accepted answer only.

`Dialogue.run` plays a dialogue against a list of input lines and gives a transcript; a
dialogue that needs more lines ends with the end of input.  `Terminal` is the monad in
which dialogues that roll dice are written.
-/
import EventScript.Dice
import EventScript.Failure

namespace EventScript

/-- A stretch of a text for the terminal. -/
inductive Span where
  /-- Text in which words in square brackets may set styles. -/
  | markup (s : String)
  /-- Text that sets no styles, whatever it is. -/
  | plain (s : String)
  deriving DecidableEq, Repr

/-- A text for the terminal. -/
abbrev Styled := List Span

/-- A text in one style. -/
def styled (style : String) (s : Styled) : Styled :=
  [.markup ("[" ++ style ++ "]")] ++ s ++ [.markup ("[/" ++ style ++ "]")]

/-- Something that is shown. -/
inductive Display where
  | line (text : Styled)
  /-- A text in a frame with a title. -/
  | panel (body title : Styled)
  /-- A table with a title, row by row. -/
  | table (rows : List (List Styled)) (title : String)
  /-- A question. -/
  | prompt (text : Styled)
  deriving DecidableEq, Repr

/-- What a judge says to an answer. -/
inductive Verdict where
  | accept (k : Nat)
  | refuse (complaint : Display)
  | giveUp (f : Failure)
  deriving DecidableEq, Repr

/-- How a dialogue ends. -/
inductive Ending where
  /-- The program ends with an exit code. -/
  | exit (code : Nat)
  | failure (f : Failure)
  /-- The program does not come to rest within its limits. -/
  | restless
  deriving DecidableEq, Repr

/-- A dialogue that results in a value, unless it ends before. -/
inductive Dialogue (α : Type) where
  | result (a : α)
  | stop (dice : Dice) (ending : Ending)
  | present (d : Display) (rest : Dialogue α)
  | ask (dice : Dice) (question : Styled) (judge : String → Verdict) (next : Nat → Dialogue α)

namespace Dialogue

variable {α β : Type}

/-- Goes on with the result of a dialogue. -/
def andThen (f : α → Dialogue β) : Dialogue α → Dialogue β
  | result a => f a
  | stop dice ending => stop dice ending
  | present d rest => present d (andThen f rest)
  | ask dice question judge next => ask dice question judge fun k => andThen f (next k)

instance : Monad Dialogue where
  pure := result
  bind x f := andThen f x

end Dialogue

/-- A dialogue that rolls dice. -/
abbrev Terminal := StateT Dice Dialogue

namespace Terminal

/-- Shows something. -/
def display (d : Display) : Terminal Unit := fun dice =>
  .present d (.result ((), dice))

/-- Shows a line. -/
def say (text : Styled) : Terminal Unit :=
  display (.line text)

/-- Asks until the judge accepts an answer. -/
def ask (question : Styled) (judge : String → Verdict) : Terminal Nat := fun dice =>
  .ask dice question judge fun k => .result (k, dice)

/-- Ends the program. -/
def stop {α : Type} (ending : Ending) : Terminal α := fun dice =>
  .stop dice ending

/-- Rolls dice. -/
def chance {α : Type} (c : Chance α) : Terminal α := fun dice =>
  .result (c.run dice)

/-- Makes a move of a game; if it fails, the program ends. -/
def move {α : Type} (c : ExceptT Failure Chance α) : Terminal α := fun dice =>
  match c.run.run dice with
  | (.ok a, dice) => .result (a, dice)
  | (.error f, dice) => .stop dice (.failure f)

end Terminal

/-! ### Transcripts -/

/-- What was shown, how it ended, and the dice at the end. -/
structure Transcript where
  shown : List Display
  ending : Ending
  dice : Dice

/-- How a question against a list of lines comes out: what was shown, and the answer with
the lines left, or the end. -/
structure Questioning where
  shown : List Display
  answer : Except Ending (Nat × List String)

/-- Asks a question against a list of lines. -/
def Questioning.of (question : Styled) (judge : String → Verdict) : List String → Questioning
  | [] => ⟨[.prompt question], .error (.failure .endOfInput)⟩
  | line :: rest =>
    match judge line with
    | .accept k => ⟨[.prompt question], .ok (k, rest)⟩
    | .giveUp f => ⟨[.prompt question], .error (.failure f)⟩
    | .refuse complaint =>
      let later := of question judge rest
      ⟨.prompt question :: complaint :: later.shown, later.answer⟩

/-- Plays a dialogue against a list of lines. -/
def Dialogue.run {α : Type} : Dialogue (α × Dice) → List String → Transcript
  | .result (_, dice), _ => ⟨[], .exit 0, dice⟩
  | .stop dice ending, _ => ⟨[], ending, dice⟩
  | .present d rest, lines =>
    let t := rest.run lines
    { t with shown := d :: t.shown }
  | .ask dice question judge next, lines =>
    let q := Questioning.of question judge lines
    match q.answer with
    | .ok (k, lines) =>
      let t := (next k).run lines
      { t with shown := q.shown ++ t.shown }
    | .error ending => ⟨q.shown, ending, dice⟩

end EventScript
