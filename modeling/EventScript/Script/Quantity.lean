/-
Quantities: expressions that stand for whole numbers.

`Quantity.read` takes a text apart and `Quantity.value` finds the number it stands for:

* `变量.X` — the number in a variable;
* `队伍人数` — how many characters are in the team;
* `随机(A, B)` or `随机(A~B)` — a random number between two quantities;
* `属性.X`, `标签组(X).层数`, `关系.X.友情` and `关系.X.爱情` — a reading of the acting
  character, or of another one if a selector stands before it;
* anything else — the number in the variable of that name, or the number that the text
  itself starts with.

Every text is a quantity; one that makes no sense is zero.  The bounds of a random number
are read from strictly shorter texts (`length_lt_of_randomBounds?`).

Finding a number fails only where a text has too many digits or a number in a variable is
not finite; `Quantity.IsReadable` is about quantities that ask for neither.
-/
import EventScript.Dice
import EventScript.World
import EventScript.Decimal.Shape
import EventScript.Text.Integer
import EventScript.Text.Nesting
import EventScript.Text.Word

namespace EventScript

/-- The number that a value counts as. References, lists and mappings count as zero. -/
def Value.toInt : Value → Int
  | .bool b => if b then 1 else 0
  | .int n => n
  | .real x => (FloatShape.of x).toInt
  | .text s => Text.leadingInteger s.toList 0
  | _ => 0

/-- The number that a value counts as can be found. -/
def Value.IsReadable : Value → Prop
  | .real x => ∃ negative mantissa exponent, FloatShape.of x = .finite negative mantissa exponent
  | .text s => Text.IsShort s.toList
  | _ => True

/-! ### Readings of a character -/

/-- A number that can be read off a character. -/
inductive Reading where
  | stat (name : Text)
  | layers (tag : Text)
  | relation (object : Text) (kind : RelationKind)
  deriving DecidableEq, Repr

namespace Reading

/-- The id of a tag between brackets: trimmed, but never empty. -/
def tagBetween? (body : Text) : Option Text :=
  if body.isEmpty then none
  else
    let id := Text.trim body
    if id.isEmpty then body.getLast?.map ([·]) else some id

/-- Reads the name of an attribute: a word to the end of the text. -/
def attribute? (t : Text) : Option Reading :=
  if !t.isEmpty && t.all isWord then some (.stat t) else none

/-- Reads the tag of `标签组(X).层数`, from after the opening bracket. -/
def layers? (t : Text) : Option Reading :=
  if t.dropWhile (· != ')') = ").层数".toList then
    (tagBetween? (t.takeWhile (· != ')'))).map .layers
  else none

/-- Reads the object and the kind of a relation. -/
def relation? (t : Text) : Option Reading :=
  let object := t.takeWhile isWord
  match t.dropWhile isWord with
  | '.' :: kind =>
    if object.isEmpty then none
    else (RelationKind.ofName? (String.ofList kind)).map (.relation object)
  | _ => none

/-- Reads a reading from the whole of a text. -/
def read? (t : Text) : Option Reading :=
  match Text.after? "属性.".toList t, Text.after? "标签组(".toList t, Text.after? "关系.".toList t with
  | some rest, _, _ => attribute? rest
  | _, some rest, _ => layers? rest
  | _, _, some rest => relation? rest
  | none, none, none => none

/-- The number read off the character in a seat. The object of a relation is found as that
character would find it. -/
def value {n : Nat} (w : World n) (holder : Seat n) (scope : Scope) : Reading → Int
  | .stat name => ((w.character holder).attribute? (String.ofList name)).getD 0
  | .layers tag => (w.character holder).tagLayers (String.ofList tag)
  | .relation object kind =>
    match w.objectId? holder scope object with
    | some id => ((w.character holder).relation id).score kind
    | none => 0

end Reading

/-- A reading, and the selector of the character it is taken of. -/
structure Accessor where
  holder : Option Text
  reading : Reading
  deriving DecidableEq, Repr

namespace Accessor

/-- Reads a reading with its selector. -/
def read? (path : Text) : Option Accessor :=
  let (holder, rest) := splitSelector path
  (Reading.read? rest).map fun reading => ⟨holder, reading⟩

/-- The number read; zero if the selector means no character. -/
def value {n : Nat} (w : World n) (subject : Seat n) (scope : Scope) (a : Accessor) : Int :=
  match a.holder with
  | none => a.reading.value w subject scope
  | some key =>
    match w.resolve? subject scope key with
    | some holder => a.reading.value w holder scope
    | none => 0

end Accessor

/-! ### Random numbers -/

/-- The word that random numbers begin with. -/
def randomWord : Text := "随机".toList

/-- Two bounds, neither of which may be missing. -/
def bothPresent? (a b : Text) : Option (Text × Text) :=
  if a.isEmpty || b.isEmpty then none else some (a, b)

/-- The bounds of `随机(A, B)` or `随机(A~B)`. -/
def randomBounds? (t : Text) : Option (Text × Text) :=
  match callArguments? randomWord t with
  | some [a, b] => bothPresent? a b
  | some [a] =>
    match (splitTop ['~'] a).map Text.trim with
    | [b, c] => bothPresent? b c
    | _ => none
  | _ => none

theorem mem_of_bothPresent? {a b c d : Text} (h : bothPresent? a b = some (c, d)) :
    c = a ∧ d = b := by
  unfold bothPresent? at h
  split at h
  · simp at h
  · simpa [eq_comm] using h

theorem length_le_of_mem_map_trim {separator t p : Text}
    (h : p ∈ (splitTop separator t).map Text.trim) : p.length ≤ t.length := by
  obtain ⟨q, hq, rfl⟩ := List.mem_map.1 h
  exact Nat.le_trans (Text.length_trim_le q) (sublist_of_mem_splitTop hq).length_le

/-- An argument of a call is shorter than the call. -/
theorem length_lt_of_mem_callArguments? {name t a : Text} {args : List Text}
    (h : callArguments? name t = some args) (ha : a ∈ args) : a.length < t.length := by
  unfold callArguments? at h
  obtain ⟨rest, hrest, hargs⟩ := Option.bind_eq_some_iff.1 h
  unfold arguments? at hargs
  obtain ⟨inside, hinside, rfl⟩ := Option.map_eq_some_iff.1 hargs
  have h₁ := length_le_of_mem_map_trim ha
  have h₂ := length_unwrap_lt hinside
  have h₃ := (Text.after?_sublist hrest).length_le
  have h₄ := Text.length_trim_le t
  omega

/-- The bounds of a random number are shorter than its text. -/
theorem length_lt_of_randomBounds? {t a b : Text} (h : randomBounds? t = some (a, b)) :
    a.length < t.length ∧ b.length < t.length := by
  unfold randomBounds? at h
  split at h
  · rename_i c d hargs
    obtain ⟨rfl, rfl⟩ := mem_of_bothPresent? h
    exact ⟨length_lt_of_mem_callArguments? hargs (by simp),
      length_lt_of_mem_callArguments? hargs (by simp)⟩
  · rename_i c hargs
    split at h
    · rename_i d e hparts
      obtain ⟨rfl, rfl⟩ := mem_of_bothPresent? h
      have hc := length_lt_of_mem_callArguments? hargs (by simp : c ∈ [c])
      have ha := length_le_of_mem_map_trim (hparts ▸ by simp : a ∈ (splitTop ['~'] c).map Text.trim)
      have hb := length_le_of_mem_map_trim (hparts ▸ by simp : b ∈ (splitTop ['~'] c).map Text.trim)
      omega
    · simp at h
  · simp at h

/-! ### Quantities -/

/-- An expression for a whole number. -/
inductive Quantity where
  | number (n : Int)
  | variable (key : Text)
  | teamSize
  | random (low high : Quantity)
  | accessor (a : Accessor)
  /-- A text of no particular form: the name of a variable, or a number. -/
  | bare (t : Text)
  deriving DecidableEq, Repr

namespace Quantity

/-- Reads a text that is no random number. -/
def readSimple (t : Text) : Quantity :=
  match Accessor.read? t with
  | some a => .accessor a
  | none => .bare t

/-- Reads a quantity. -/
def read (t : Text) : Quantity :=
  let trimmed := Text.trim t
  if trimmed.isEmpty then .number 0
  else if variableMark.isPrefixOf trimmed then .variable (variableKey trimmed)
  else if trimmed = "队伍人数".toList then .teamSize
  else if (randomWord ++ ['(']).isPrefixOf trimmed then
    match h : randomBounds? trimmed with
    | some (a, b) =>
      have := length_lt_of_randomBounds? h
      have : trimmed.length ≤ t.length := Text.length_trim_le t
      .random (read a) (read b)
    | none => readSimple trimmed
  else readSimple trimmed
  termination_by t.length
  decreasing_by all_goals omega

/-- The number in a variable, if it holds a number or a text that is one. -/
def numberIn? : Value → Option Int
  | .int n => some n
  | .real x => some (FloatShape.of x).toInt
  | .text s => Text.integerLiteral? (Text.trim s.toList)
  | _ => none

/-- The number that a text of no particular form stands for. -/
def bareValue (scope : Scope) (t : Text) : Int :=
  ((scope.get? (String.ofList t)).bind numberIn?).getD (Text.leadingInteger t 0)

/-- The number that a quantity stands for. Random numbers are drawn anew each time, the
lower bound before the upper one. -/
def value {n : Nat} (w : World n) (subject : Seat n) (scope : Scope) : Quantity → Chance Int
  | .number k => pure k
  | .variable key => pure (Value.ofVariable scope (String.ofList key)).toInt
  | .teamSize => pure w.teamSize
  | .random low high => do
    let a ← value w subject scope low
    let b ← value w subject scope high
    Dice.rollBetween a b
  | .accessor a => pure (a.value w subject scope)
  | .bare t => pure (bareValue scope t)

/-- The number that a text of no particular form stands for can be read. -/
def IsReadableBare (scope : Scope) (t : Text) : Prop :=
  match (scope.get? (String.ofList t)).filter fun v => (numberIn? v).isSome with
  | some v => v.IsReadable
  | none => t.IsShort

/-- All numbers that a quantity asks for can be read. -/
def IsReadable (scope : Scope) : Quantity → Prop
  | .variable key => (Value.ofVariable scope (String.ofList key)).IsReadable
  | .random low high => low.IsReadable scope ∧ high.IsReadable scope
  | .bare t => IsReadableBare scope t
  | _ => True

end Quantity

/-- The number that a text stands for. -/
def evaluateQuantity {n : Nat} (w : World n) (subject : Seat n) (scope : Scope) (t : Text) :
    Chance Int :=
  (Quantity.read t).value w subject scope

end EventScript
