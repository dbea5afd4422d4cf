/-
Predicates: the elementary questions that conditions ask.

Some predicates are about the moment (the option chosen, the date, the team, a variable,
a random number).  The others are traits of the acting character, or of another one if a
selector stands before them.

`Predicate.read?` tries the forms one after another and takes the first that fits the
whole text.  `Predicate.holds` answers the question; numbers to compare with are evaluated
for the acting character, also when the trait is another's.
-/
import EventScript.Calendar
import EventScript.Comparison
import EventScript.Script.Quantity

namespace EventScript

/-! ### Parts of predicates -/

/-- The inside of a text in double quotation marks, which must not be empty and has no
such mark in it. -/
def doubleQuoted? : Text → Option Text
  | '"' :: rest =>
    let inside := rest.dropLast
    if rest.getLast? = some '"' && !inside.isEmpty && !inside.contains '"' then some inside
    else none
  | _ => none

/-- Reads `==` or `!=`, with white space around it, and gives what follows. -/
def readEquality? (t : Text) : Option (Bool × Text) :=
  let t := Text.trimStart t
  match Text.after? ['=', '='] t, Text.after? ['!', '='] t with
  | some rest, _ => some (true, Text.trimStart rest)
  | none, some rest => some (false, Text.trimStart rest)
  | none, none => none

/-- Reads an equation with a text in quotation marks. -/
def readQuotedEquality? (t : Text) : Option (Bool × Text) :=
  (readEquality? t).bind fun (same, rest) => (doubleQuoted? rest).map fun s => (same, s)

/-- A number that is digits and nothing else. -/
def digitsOnly? (t : Text) : Option Int :=
  if !t.isEmpty && t.all isDigit then some (digitsValue t) else none

/-- Reads a comparison with a quantity. -/
def readComparison? (t : Text) : Option (Comparison × Quantity) :=
  (Comparison.read? t).map fun (c, rest) => (c, Quantity.read rest)

/-- The shortest start of a line, at least one character long, after which `accept` takes
the rest. -/
def shortestBody? {β : Type} (accept : Text → Option β) : Text → Option (Text × β)
  | [] => none
  | c :: rest =>
    if c = '\n' then none
    else
      match accept rest with
      | some b => some ([c], b)
      | none => (shortestBody? accept rest).map fun (body, b) => (c :: body, b)

/-- The body of brackets: as much white space as possible is passed over before it, and
then it is as short as possible. -/
def bracketBody? {β : Type} (accept : Text → Option β) (t : Text) : Option (Text × β) :=
  let blanks := (t.takeWhile isBlank).length
  (List.range (blanks + 1)).reverse.findSome? fun k => shortestBody? accept (t.drop k)

/-- Passes over white space and then the given text. -/
def afterBlanks? (mark t : Text) : Option Text :=
  Text.after? mark (Text.trimStart t)

/-! ### Traits -/

/-- A question about one character. -/
inductive Trait where
  | layers (tag : Text) (c : Comparison) (q : Quantity)
  | tagged (present : Bool) (tag : Text)
  | stat (name : Text) (c : Comparison) (q : Quantity)
  | fired (event : Text) (c : Comparison) (q : Quantity)
  | relation (object : Text) (kind : RelationKind) (c : Comparison) (q : Quantity)
  | inTeam (expected : Bool)
  | template (same : Bool) (id : Text)
  | gender (same : Bool) (name : Text)
  deriving DecidableEq, Repr

namespace Trait

/-- Reads `标签组(X).层数` and a comparison, from after the opening bracket. -/
def layers? (t : Text) : Option Trait :=
  (bracketBody? (fun rest => (afterBlanks? ").层数".toList rest).bind readComparison?) t).map
    fun (tag, c, q) => layers tag c q

/-- Reads whether a tag is present. -/
def tagged? (t : Text) : Option Trait :=
  match afterBlanks? "存在".toList t, afterBlanks? "不存在".toList t with
  | some rest, _ => (doubleQuoted? (Text.trimStart rest)).map (tagged true)
  | none, some rest => (doubleQuoted? (Text.trimStart rest)).map (tagged false)
  | none, none => none

/-- Reads the name of an attribute and a comparison. -/
def attribute? (t : Text) : Option Trait :=
  let name := t.takeWhile isWord
  if name.isEmpty then none
  else (readComparison? (t.dropWhile isWord)).map fun (c, q) => stat name c q

/-- Reads an event and a comparison, from after the opening bracket. -/
def fired? (t : Text) : Option Trait :=
  (bracketBody? (fun rest => (afterBlanks? [')'] rest).bind readComparison?) t).map
    fun (event, c, q) => fired event c q

/-- Reads a kind of relation and a comparison. -/
def relationKind? (object t : Text) : Option Trait :=
  RelationKind.all.findSome? fun kind =>
    (Text.after? kind.name.toList t).bind fun rest =>
      (readComparison? rest).map fun (c, q) => relation object kind c q

/-- Reads the object of a relation, its kind and a comparison. -/
def relation? (t : Text) : Option Trait :=
  let object := t.takeWhile isWord
  match t.dropWhile isWord with
  | '.' :: rest => if object.isEmpty then none else relationKind? object rest
  | _ => none

/-- Reads whether the character is in the team. -/
def inTeam? (t : Text) : Option Trait :=
  (readEquality? t).bind fun (same, rest) =>
    if rest = "true".toList then some (inTeam same)
    else if rest = "false".toList then some (inTeam !same)
    else none

/-- The forms of traits: the text each begins with, and how it goes on. -/
def forms : List (Text × (Text → Option Trait)) :=
  [("标签组(".toList, layers?), ("标签组".toList, tagged?), ("属性.".toList, attribute?),
    ("已触发事件(".toList, fired?), ("关系.".toList, relation?), ("在队伍".toList, inTeam?),
    ("模板ID".toList, fun t => (readQuotedEquality? t).map fun (same, id) => template same id),
    ("性别".toList, fun t => (readQuotedEquality? t).map fun (same, name) => gender same name)]

/-- Reads a trait from the whole of a text. -/
def read? (t : Text) : Option Trait :=
  forms.findSome? fun (start, go) => (Text.after? start t).bind go

variable {n : Nat}

/-- Has the character in the seat `holder` the trait, as the acting character sees it? The
object of a relation is found as the acting character would find it; if there is none, the
answer is no. -/
def holds (w : World n) (subject holder : Seat n) (scope : Scope) (t : Trait) : Chance Bool :=
  let who := w.character holder
  let compare (c : Comparison) (k : Int) (q : Quantity) : Chance Bool := do
    let r ← q.value w subject scope
    pure (c.holds k r)
  match t with
  | layers tag c q => compare c (who.tagLayers (String.ofList tag)) q
  | tagged present tag => pure (who.hasTag (String.ofList tag) == present)
  | stat name c q => compare c ((who.attribute? (String.ofList name)).getD 0) q
  | fired event c q => compare c (who.timesFired (String.ofList event)) q
  | relation object kind c q =>
    match w.objectId? subject scope object with
    | some id => compare c ((who.relation id).score kind) q
    | none => pure false
  | inTeam expected => pure (who.inTeam == expected)
  | template same id => pure ((who.template == String.ofList id) == same)
  | gender same name => pure ((who.gender.name == String.ofList name) == same)

end Trait

/-! ### Predicates -/

/-- An elementary question. -/
inductive Predicate where
  | chosen (c : Comparison) (k : Int)
  | month (c : Comparison) (k : Int)
  | year (c : Comparison) (k : Int)
  | period (same : Bool) (name : Text)
  | teamSize (c : Comparison) (q : Quantity)
  | variableSet (key : Text)
  | variableIs (key : Text) (c : Comparison) (q : Quantity)
  | random (low high : Quantity) (c : Comparison) (q : Quantity)
  | trait (holder : Option Text) (t : Trait)
  /-- A random number without proper bounds: never true. -/
  | impossible
  deriving DecidableEq, Repr

namespace Predicate

/-- Reads a comparison with a number written in digits. -/
def readDigits? (make : Comparison → Int → Predicate) (t : Text) : Option Predicate :=
  (Comparison.readThen? digitsOnly? t).map fun (c, k) => make c k

/-- Reads the name of a variable to be set: white space and then one word. -/
def variableSet? (t : Text) : Option Predicate :=
  let key := Text.trimStart t
  if key.length < t.length && !key.isEmpty && key.all (! isBlank ·) then
    some (variableSet (variableKey key))
  else none

/-- Reads the name of a variable and a comparison. -/
def variableIs? (t : Text) : Option Predicate :=
  let key := t.takeWhile isWord
  if key.isEmpty then none
  else (readComparison? (t.dropWhile isWord)).map fun (c, q) => variableIs key c q

/-- The positions in the first line of a text at which a bracket closes, last first. -/
def closersOfLine (t : Text) : List Nat :=
  ((t.takeWhile (· != '\n')).zipIdx.filterMap fun (c, i) => if c = ')' then some i else none).reverse

/-- Reads a random number and a comparison. The random number ends at the last bracket that
leaves a comparison behind. -/
def random? (t : Text) : Option Predicate :=
  if (randomWord ++ ['(']).isPrefixOf t then
    (closersOfLine t).findSome? fun i =>
      (readComparison? (t.drop (i + 1))).map fun (c, q) =>
        match randomBounds? (t.take (i + 1)) with
        | some (a, b) => random (Quantity.read a) (Quantity.read b) c q
        | none => impossible
  else none

/-- Reads a trait with its selector. -/
def trait? (t : Text) : Option Predicate :=
  let (holder, rest) := splitSelector t
  (Trait.read? rest).map (trait holder)

/-- The forms of predicates about the moment: the text each begins with, and how it goes
on. -/
def forms : List (Text × (Text → Option Predicate)) :=
  [("已选序号".toList, readDigits? chosen), ("当前月".toList, readDigits? month),
    ("当前年".toList, readDigits? year),
    ("当前旬".toList, fun t => (readQuotedEquality? t).map fun (same, name) => period same name),
    ("队伍人数".toList, fun t => (readComparison? t).map fun (c, q) => teamSize c q),
    ("变量存在".toList, variableSet?), ("变量.".toList, variableIs?)]

/-- Reads a predicate from the whole of a text. -/
def read? (t : Text) : Option Predicate :=
  (forms.findSome? fun (start, go) => (Text.after? start t).bind go) <|> random? t <|> trait? t

variable {n : Nat}

/-- Is the answer yes? -/
def holds (w : World n) (choice : Option Int) (subject : Seat n) (scope : Scope) :
    Predicate → Chance Bool
  | chosen c k => pure (choice.any fun i => c.holds i k)
  | month c k => pure (c.holds (Date.ofTurn w.turn).month k)
  | year c k => pure (c.holds (Date.ofTurn w.turn).year k)
  | period same name => pure (((Date.ofTurn w.turn).period == String.ofList name) == same)
  | teamSize c q => do
    let r ← q.value w subject scope
    pure (c.holds w.teamSize r)
  | variableSet key => pure <|
    match Value.ofVariable scope (String.ofList key) with
    | .null => false
    | _ => true
  | variableIs key c q => do
    let r ← q.value w subject scope
    pure (c.holds (Value.ofVariable scope (String.ofList key)).toInt r)
  | random low high c q => do
    let a ← low.value w subject scope
    let b ← high.value w subject scope
    let k ← Dice.rollBetween a b
    let r ← q.value w subject scope
    pure (c.holds k r)
  | trait none t => t.holds w subject subject scope
  | trait (some key) t =>
    match w.resolve? subject scope key with
    | some holder => t.holds w subject holder scope
    | none => pure false
  | impossible => pure false

end Predicate

end EventScript
