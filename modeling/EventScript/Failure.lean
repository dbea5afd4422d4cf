/-
What can go wrong in a game and while it is set up.

Scripts do not fail: a part that makes no sense counts as zero, as false, as no text, or is
skipped.  (The one exception are numbers that are too long to be read; this library is about
scripts without such numbers, see `Text.IsShort`.)  What can fail is reading documents,
opening a game without a template for the player, writing the text about a lost memory, and,
in strict settings, following a chain of events that grows too long.
-/
import EventScript.Document.Checked

namespace EventScript

/-- The causes of failure. -/
inductive Failure where
  /-- A document does not describe what was asked for. -/
  | invalid (faults : List Fault)
  /-- A content file cannot be used: it is missing or unreadable, or its members have
  faults. -/
  | content (faults : Option (List Fault))
  /-- Settings are written in a text that is no document. -/
  | unreadable
  /-- The file with the settings is missing. -/
  | missingFile
  /-- A scalar stands where members are to be listed, something else than a mapping where
  entries are to be merged, or a word where a position is asked for. -/
  | unsuitable
  /-- A text that should be a number, or a pattern with slots, is not. -/
  | badText
  /-- A pattern asks for a value that nobody supplies. -/
  | unknownSlot (name : String)
  /-- A pattern asks for a value, or for a character, at a position where there is none. -/
  | noPosition
  /-- A pattern asks for a part that a text does not have. -/
  | noMember
  /-- There is no template for the player's character. -/
  | noTrainer (template : String)
  /-- A chain of events grew beyond the limit. -/
  | chainTooLong (event : String) (depth : Int)
  /-- The player's input has ended. -/
  | endOfInput
  deriving DecidableEq, Repr

namespace Failure

/-- The wording of a failure, for those that have one. -/
def message : Failure → String
  | unknownSlot name => name
  | noTrainer template => "缺少训练员模板: " ++ template
  | chainTooLong event depth =>
    "事件链深度超限: " ++ event ++ " (depth=" ++ toString depth ++ ")"
  | _ => ""

end Failure

/-- The value that was read, or the failure that its faults make. A fault that ends the
reading at once outweighs all others. -/
def Checked.orFail {α : Type} : Checked α → Except Failure α
  | .ok a => .ok a
  | .faulty faults =>
    if faults.any fun f => f.kind = .notMergeable then .error .unsuitable
    else .error (.invalid faults)

end EventScript
