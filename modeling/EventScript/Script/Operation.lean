/-
Operations: what a statement of a command can do.

An operation is named by its verb and reads its own arguments, of which there are three
kinds: words separated by white space, arguments in round brackets separated by commas,
and forms of their own for variables.  `Operation.read` gives the operation of a verb and
the text after it; arguments of a wrong form make it malformed, and a verb that nobody
knows stays unknown.

The arguments stay texts: they are evaluated when the operation is carried out.
-/
import EventScript.Script.Quantity

namespace EventScript

/-- The type that an assignment may state for its variable. -/
inductive VariableType where
  | character | list | number
  deriving DecidableEq, Repr

namespace VariableType

/-- All types. -/
def all : List VariableType := [character, list, number]

/-- The word for a type. -/
def word : VariableType → Text
  | character => "角色".toList
  | list => "列表".toList
  | number => "数字".toList

end VariableType

/-- Something that a statement does. -/
inductive Operation where
  /-- Changes an attribute of the actor. -/
  | changeAttribute (name value : Text)
  /-- Changes what one character feels for another. -/
  | changeRelation (kind holder object value : Text)
  /-- Changes what the actor feels for the player. -/
  | changePlayerRelation (kind value : Text)
  /-- Changes what two characters feel for each other. -/
  | changeMutualRelation (kind first second value : Text)
  /-- Changes what all members of a list feel for each other. -/
  | changeGroupRelation (kind list value : Text)
  /-- Sets the layers of a tag of the actor. -/
  | grantTag (tag layers : Text)
  /-- Changes the layers of a tag of the actor. -/
  | adjustTag (tag delta : Text)
  /-- Removes a tag of the actor. -/
  | removeTag (tag : Text)
  /-- Sets a variable. -/
  | assign (type : Option VariableType) (key value : Text)
  /-- Adds to a variable, or subtracts from it. -/
  | compute (key : Text) (negative : Bool) (value : Text)
  /-- Lets an event follow, after a pause or at once. -/
  | jump (event : Text) (pause : Bool)
  /-- Lets an event follow with some chance, and perhaps another one otherwise. -/
  | chanceJump (chance event : Text) (otherwise : Option Text)
  /-- Keeps the members of a list of whom a condition holds. -/
  | filterList (list condition : Text)
  /-- Removes a character from a list. -/
  | excludeFromList (list target : Text)
  /-- Keeps the first members of a list. -/
  | truncateList (list count : Text)
  /-- Adds a character to a list. -/
  | appendToList (list target : Text)
  /-- Carries out a command for each member of a list. -/
  | forEach (list command : Text)
  /-- Takes a character into the team. -/
  | joinTeam (target : Text)
  /-- Brings two characters together. -/
  | pair (first second : Text)
  /-- Nothing: nobody knows the verb. -/
  | unknown (verb : Text)
  /-- Nothing: the arguments do not fit the verb. -/
  | malformed (verb : Text)
  deriving DecidableEq, Repr

namespace Operation

/-! ### Forms of arguments -/

/-- Splits a text at its first plain space into a name and a value, both not blank. -/
def nameAndValue? (t : Text) : Option (Text × Text) :=
  let name := t.takeWhile (· != ' ')
  let value := Text.trim (t.dropWhile (· != ' '))
  if name.isEmpty || value.isEmpty then none else some (name, value)

/-- Joins arguments again that commas have separated. -/
def joinArguments (args : List Text) : Text :=
  Text.joinWith [',', ' '] args

/-- Joins words again. -/
def joinWords (ws : List Text) : Text :=
  Text.joinWith [' '] ws

/-- The kind, holder, object and value of a change of feeling. -/
def readRelationCall (verb rest : Text) : Operation :=
  match arguments? rest with
  | some (kind :: holder :: object :: v :: more) =>
    changeRelation kind holder object (joinArguments (v :: more))
  | _ => malformed verb

/-- A change of feeling: in brackets between any two, else toward the player. -/
def readRelation (verb rest : Text) : Operation :=
  match rest with
  | '(' :: _ => readRelationCall verb rest
  | _ =>
    match nameAndValue? rest with
    | some (kind, value) => changePlayerRelation kind value
    | none => malformed verb

/-- A mutual change of feeling: of a pair `A/B`, or of the members of a list. -/
def readMutual (verb rest : Text) : Operation :=
  match arguments? rest with
  | some (kind :: members :: v :: more) =>
    let value := joinArguments (v :: more)
    match members.dropWhile (· != '/') with
    | _ :: second =>
      changeMutualRelation kind (Text.trim (members.takeWhile (· != '/'))) (Text.trim second) value
    | [] => changeGroupRelation kind (variableKey members) value
  | _ => malformed verb

/-- The type, if one is stated, and the key on the left of an assignment.  A type needs
white space after it; if nothing but one blank follows, the word is the key itself. -/
def readKey? (t : Text) : Option (Option VariableType × Text) :=
  let typed := VariableType.all.findSome? fun type =>
    (Text.after? type.word t).bind fun rest =>
      let key := Text.trimStart rest
      if key.length < rest.length && (!key.isEmpty || 2 ≤ rest.length) then some (some type, key)
      else none
  match typed with
  | some (type, key) => some (type, variableKey key)
  | none => if t.isEmpty then none else some (none, variableKey t)

/-- An assignment: a key, the first `=`, and a value that is not blank. -/
def readAssignment (verb rest : Text) : Operation :=
  match readKey? (rest.takeWhile (· != '=')), rest.dropWhile (· != '=') with
  | some (type, key), _ :: value =>
    let value := Text.trim value
    if value.isEmpty then malformed verb else assign type key value
  | _, _ => malformed verb

/-- A computation: a key of one word without signs, a sign, and a value. -/
def readComputation (verb rest : Text) : Operation :=
  let isKeyPart (c : Char) : Bool := !isBlank c && c != '+' && c != '-'
  let key := rest.takeWhile isKeyPart
  match Text.trimStart (rest.dropWhile isKeyPart) with
  | sign :: value =>
    let value := Text.trim value
    if key.isEmpty || value.isEmpty || (sign != '+' && sign != '-') then malformed verb
    else compute (variableKey key) (sign == '-') value
  | [] => malformed verb

/-- An operation on a list: the key of the list, and all the other arguments as one. -/
def readListCall (make : Text → Text → Operation) (verb rest : Text) : Operation :=
  match arguments? rest with
  | some (list :: a :: more) =>
    let argument := Text.trim (joinArguments (a :: more))
    if argument.isEmpty then malformed verb else make (variableKey list) argument
  | _ => malformed verb

/-- A jump, paused or not. -/
def readJump (pause : Bool) (verb rest : Text) : Operation :=
  match Text.words rest with
  | event :: _ => jump event pause
  | [] => malformed verb

/-- The verbs and how each reads its arguments. -/
def verbs : List (Text × (Text → Text → Operation)) :=
  [("属性变更".toList, fun verb rest =>
      match nameAndValue? rest with
      | some (name, value) => changeAttribute name value
      | none => malformed verb),
    ("关系变更".toList, readRelation),
    ("双向关系变更".toList, readMutual),
    ("获得标签".toList, fun verb rest =>
      match Text.words rest with
      | [tag] => grantTag tag ['1']
      | tag :: layers => grantTag tag (joinWords layers)
      | [] => malformed verb),
    ("标签变更".toList, fun verb rest =>
      match Text.words rest with
      | tag :: d :: more => adjustTag tag (joinWords (d :: more))
      | _ => malformed verb),
    ("移除标签".toList, fun verb rest =>
      match Text.words rest with
      | tag :: _ => removeTag tag
      | [] => malformed verb),
    ("设置变量".toList, readAssignment),
    ("变量计算".toList, readComputation),
    ("跳转".toList, readJump false),
    ("继续".toList, readJump true),
    ("概率跳转".toList, fun verb rest =>
      match Text.words rest with
      | chance :: event :: more => chanceJump chance event more.head?
      | _ => malformed verb),
    ("列表筛选".toList, readListCall filterList),
    ("列表排除".toList, readListCall excludeFromList),
    ("列表截取".toList, readListCall truncateList),
    ("列表添加".toList, readListCall appendToList),
    ("列表执行".toList, readListCall forEach),
    ("让角色入队".toList, fun verb rest =>
      match arguments? rest with
      | some (a :: more) => if a.isEmpty then malformed verb else joinTeam (joinArguments (a :: more))
      | _ => malformed verb),
    ("同房".toList, fun verb rest =>
      match arguments? rest with
      | some [first, second] => pair first second
      | _ => malformed verb)]

/-- The operation of a verb with the text after it. -/
def read (verb rest : Text) : Operation :=
  match verbs.find? fun v => v.1 = verb with
  | some (_, go) => go verb (Text.trim rest)
  | none => unknown verb

end Operation

end EventScript
