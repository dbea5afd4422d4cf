/-
Documents: the tree-shaped data that content files, settings files and saved values are
made of.

Mappings keep the order of their entries.  Whole numbers are exact; other numbers are
floating-point.
-/
import EventScript.Mapping

namespace EventScript

/-- A node of a document. -/
inductive Document where
  | null
  | bool (b : Bool)
  | int (n : Int)
  | real (x : Float)
  | text (s : String)
  | list (items : List Document)
  | mapping (entries : List (String × Document))
  deriving Repr, Inhabited

namespace Document

/-- The value of a key of a mapping; nothing for another kind of node. -/
def get? (d : Document) (key : String) : Option Document :=
  match d with
  | .mapping entries => Mapping.lookup key entries
  | _ => none

/-- The value of a key, or null. -/
def field (d : Document) (key : String) : Document :=
  (d.get? key).getD .null

/-- The items of a list; none for another kind of node. -/
def items : Document → List Document
  | .list items => items
  | _ => []

/-- A list of texts. -/
def texts (ss : List String) : Document :=
  .list (ss.map .text)

/-- A text, or null. -/
def ofText? (s : Option String) : Document :=
  (s.map Document.text).getD .null

/-- A whole number, or null. -/
def ofInt? (n : Option Int) : Document :=
  (n.map Document.int).getD .null

/-- A document counts as empty when it is null, false, zero, or has nothing in it. -/
def isEmpty : Document → Bool
  | .null => true
  | .bool b => !b
  | .int n => n == 0
  | .real x => x == 0
  | .text s => s.isEmpty
  | .list items => items.isEmpty
  | .mapping entries => entries.isEmpty

end Document

end EventScript
