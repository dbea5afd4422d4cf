/-
The arguments of the terminal program.

The program has three commands: `play`, `exec` and `check`.  Each takes a content path, the
latter two also a text, and options.  An option may be shortened as long as it stays
unique, and its value may follow after `=`; the options of one letter may be written
together.  The options for tags and for the roster take all the words that follow them.
After `--` everything is a word.

Words that look like negative numbers or contain a space are never options.

Arguments are read in three steps: `recognise` finds out what each argument is by itself,
`cluster?` takes options that are written together apart, and `readTokens` gives every
option its values.  Options act in the order in which they are read, so a request for help
counts unless something before it is wrong.
-/
import EventScript.Cast.Attribute
import EventScript.Text.Integer

namespace EventScript

/-- What a game is opened with. -/
structure GameArguments where
  content : String
  config : Option String
  name : String
  gender : String
  tags : List String
  companion : String
  roster : List String
  seed : Option Int
  verbose : Bool
  deriving Repr

/-- A request to the program. -/
inductive Request where
  | play (game : GameArguments) (turns : Int) (auto : Bool)
  | execute (game : GameArguments) (command character : String)
  | check (game : GameArguments) (condition character : String)
  deriving Repr

/-- What the arguments come to. -/
inductive Arguments where
  /-- The user asks for help, or says nothing. -/
  | help
  /-- The arguments are not understood. -/
  | misuse
  | request (r : Request)
  deriving Repr

namespace Arguments

/-- The commands. -/
inductive Command where
  | play | exec | check
  deriving DecidableEq, Repr

/-- The command with a name. -/
def Command.ofName? (s : String) : Option Command :=
  if s = "play" then some .play else if s = "exec" then some .exec
  else if s = "check" then some .check else none

/-- The options, as switches of the program. -/
inductive Switch where
  | help | config | name | gender | tags | companion | roster | seed | verbose | turns | auto
  | character
  deriving DecidableEq, Repr

/-- How many values an option takes. -/
inductive Arity where
  | none | one | many
  deriving DecidableEq, Repr

/-- How many values each option takes. -/
def Switch.arity : Switch → Arity
  | .help | .verbose | .auto => .none
  | .tags | .roster => .many
  | _ => .one

/-- The spellings of options. -/
abbrev Spellings := List (String × Switch)

/-- How the options in front of a command are spelled. -/
def commonSpellings : Spellings :=
  [("-h", .help), ("--help", .help)]

/-- How the options of a command are spelled. -/
def Command.spellings (c : Command) : Spellings :=
  commonSpellings ++
    [("--config", .config), ("-c", .config), ("--name", .name), ("--gender", .gender),
      ("--tags", .tags), ("--companion", .companion), ("--roster", .roster),
      ("--seed", .seed), ("--verbose", .verbose), ("-v", .verbose)] ++
    match c with
    | .play => [("--turns", .turns), ("--auto", .auto)]
    | _ => [("--character", .character)]

/-- How many words a command takes. -/
def Command.wordCount : Command → Nat
  | .play => 1
  | _ => 2

/-! ### Recognising arguments -/

/-- What is written into the same argument as an option. -/
inductive Attachment where
  | nothing
  /-- A value after an equals sign. -/
  | assigned (value : Text)
  /-- A value, or more options, right after the letter of the option. -/
  | joined (value : Text)
  deriving DecidableEq, Repr

/-- An argument, recognised. -/
inductive Token where
  | word (s : String)
  | option (o : Switch) (attachment : Attachment)
  /-- An option that nobody knows. -/
  | stranger
  /-- A shortened option that could be several. -/
  | ambiguous
  /-- The argument `--`, after which everything is a word. -/
  | divider
  deriving DecidableEq, Repr

/-- Is a text a negative number? -/
def isNegativeNumber (t : Text) : Bool :=
  match t with
  | '-' :: rest =>
    let whole := rest.takeWhile isDigit
    match rest.dropWhile isDigit with
    | [] => !whole.isEmpty
    | '.' :: fraction => !fraction.isEmpty && fraction.all isDigit
    | _ => false
  | _ => false

/-- The options whose spelling a text shortens. -/
def shortened (spellings : Spellings) (t : Text) : List Switch :=
  (spellings.filter fun s => t.isPrefixOf s.1.toList).map Prod.snd

/-- The option that is spelled with one letter. -/
def ofLetter? (spellings : Spellings) (letter : Char) : Option Switch :=
  (spellings.find? fun s => s.1.toList = ['-', letter]).map Prod.snd

/-- Splits a text at its first `=`. -/
def splitValue (t : Text) : Text × Attachment :=
  match t.dropWhile (· != '=') with
  | _ :: value => (t.takeWhile (· != '='), .assigned value)
  | [] => (t, .nothing)

/-- The options that a text which is not spelled out may mean. -/
def guesses (spellings : Spellings) (t : Text) : List Token :=
  match t with
  | '-' :: '-' :: _ =>
    let (name, attachment) := splitValue t
    (shortened spellings name).map fun o => .option o attachment
  | '-' :: letter :: rest =>
    ((ofLetter? spellings letter).map fun o => .option o (.joined rest)).toList
  | _ => []

/-- Recognises a text that starts with a hyphen and is no full spelling. -/
def guess (spellings : Spellings) (s : String) : Token :=
  match guesses spellings s.toList with
  | [token] => token
  | _ :: _ :: _ => .ambiguous
  | [] => if isNegativeNumber s.toList || s.toList.contains ' ' then .word s else .stranger

/-- Recognises a text that starts with a hyphen: an option spelled in full, perhaps with a
value, or else what can be guessed. -/
def recogniseOption (spellings : Spellings) (s : String) : Token :=
  match spellings.find? fun p => p.1 = s with
  | some p => .option p.2 .nothing
  | none =>
    let (name, attachment) := splitValue s.toList
    match attachment, spellings.find? fun p => p.1.toList = name with
    | .assigned v, some p => .option p.2 (.assigned v)
    | _, _ => guess spellings s

/-- Recognises an argument. -/
def recognise (spellings : Spellings) (s : String) : Token :=
  match s.toList with
  | ['-'] => .word s
  | ['-', '-'] => .divider
  | '-' :: _ => recogniseOption spellings s
  | _ => .word s

/-- Recognises all arguments; those after a divider are words. -/
def recogniseAll (spellings : Spellings) : List String → List Token
  | [] => []
  | s :: rest =>
    match recognise spellings s with
    | .divider => .divider :: rest.map .word
    | token => token :: recogniseAll spellings rest

/-! ### Options written together -/

/-- The options in one argument: those without values, and the last one with its value, if
one is attached to it.  There is no last one if it is a letter that nobody knows. -/
structure Cluster where
  plain : List Switch
  last : Option (Switch × Option Text)
  deriving DecidableEq, Repr

/-- An option as it stands, with a value if one is attached. -/
def Cluster.single (o : Switch) (value : Option Text) : Cluster :=
  ⟨[], some (o, value)⟩

/-- Puts an option without a value in front. -/
def Cluster.cons (o : Switch) (k : Cluster) : Cluster :=
  { k with plain := o :: k.plain }

/-- Takes apart the letters that follow an option without a value. -/
def letters? (spellings : Spellings) (o : Switch) : Text → Option Cluster
  | [] => none
  | c :: rest =>
    if c = '-' then none
    else
      match ofLetter? spellings c with
      | none => some ⟨[o], none⟩
      | some next =>
        match next.arity, rest with
        | _, [] => some ((Cluster.single next none).cons o)
        | .none, '=' :: _ => none
        | .none, more => (letters? spellings next more).map (Cluster.cons o)
        | _, '=' :: value => some ((Cluster.single next (some value)).cons o)
        | _, value => some ((Cluster.single next (some value)).cons o)

/-- Takes apart an option and what is attached to it.  An option that takes no value cannot
be assigned one. -/
def cluster? (spellings : Spellings) (o : Switch) (a : Attachment) : Option Cluster :=
  match o.arity, a with
  | _, .nothing => some (.single o none)
  | .none, .assigned _ => none
  | .none, .joined more => letters? spellings o more
  | _, .assigned value => some (.single o (some value))
  | _, .joined value => some (.single o (some value))

/-! ### Reading -/

/-- What has been read of the arguments. -/
structure Reading where
  words : List String
  game : GameArguments
  turns : Int
  auto : Bool
  character : String
  /-- Was there anything that has no place? -/
  excess : Bool
  deriving Repr

/-- Before any argument is read. -/
def Reading.start : Reading :=
  ⟨[], ⟨"", none, "训练员", "男", [], "", [], none, false⟩, 0, false, "", false⟩

/-- Stores the values of an option, unless they do not fit it. -/
def Reading.store? (r : Reading) (o : Switch) (values : List String) : Option Reading :=
  let g := r.game
  let value := values.headD ""
  match o with
  | .help => some r
  | .config => some { r with game := { g with config := some value } }
  | .name => some { r with game := { g with name := value } }
  | .gender =>
    (Gender.ofName? value).map fun gender => { r with game := { g with gender := gender.name } }
  | .tags => some { r with game := { g with tags := values } }
  | .companion => some { r with game := { g with companion := value } }
  | .roster => some { r with game := { g with roster := values } }
  | .seed =>
    (Text.wholeInteger? value.toList).map fun k => { r with game := { g with seed := some k } }
  | .verbose => some { r with game := { g with verbose := true } }
  | .turns => (Text.wholeInteger? value.toList).map fun k => { r with turns := k }
  | .auto => some { r with auto := true }
  | .character => some { r with character := value }

/-- Where the reading is: whether the argument before was a word of the command, or which
option the words that come next belong to. -/
inductive Mode where
  | idle
  | afterWord
  | one (o : Switch)
  | many (o : Switch) (values : List String)
  deriving DecidableEq, Repr

/-- A step of the reading, which may end it. -/
abbrev Step := Except Arguments

/-- Stores the values of an option; the reading ends if they do not fit. -/
def Reading.store (r : Reading) (o : Switch) (values : List String) : Step Reading :=
  match r.store? o values with
  | some r => .ok r
  | none => .error .misuse

/-- Begins an option without an attached value. -/
def Reading.begin (r : Reading) (o : Switch) : Step (Mode × Reading) :=
  match o, o.arity with
  | .help, _ => .error .help
  | _, .none => (.idle, ·) <$> r.store o []
  | _, .one => .ok (.one o, r)
  | _, .many => .ok (.many o [], r)

/-- Takes the options of one argument. -/
def Reading.take (r : Reading) (k : Cluster) : Step (Mode × Reading) := do
  let r ← k.plain.foldlM (fun r o => Prod.snd <$> r.begin o) r
  match k.last with
  | none => pure (.idle, { r with excess := true })
  | some (o, none) => r.begin o
  | some (o, some value) => (.idle, ·) <$> r.store o [String.ofList value]

/-- Ends the option whose words were collected.  An option that takes one value needs it. -/
def Mode.close (r : Reading) : Mode → Step Reading
  | .one _ => .error .misuse
  | .many o values => r.store o values
  | _ => .ok r

/-- The request that has been read for a command. -/
def Reading.finish (c : Command) (r : Reading) : Arguments :=
  if r.excess then .misuse
  else
    match c, r.words with
    | .play, [content] => .request (.play { r.game with content } r.turns r.auto)
    | .exec, [content, command] => .request (.execute { r.game with content } command r.character)
    | .check, [content, condition] =>
      .request (.check { r.game with content } condition r.character)
    | _, _ => .misuse

/-- Takes one recognised argument. A divider has its place beside a word of the command
only. -/
def readToken (c : Command) (mode : Mode) (r : Reading) : Token → Step (Mode × Reading)
  | .word s =>
    match mode with
    | .one o => (.idle, ·) <$> r.store o [s]
    | .many o values => pure (.many o (values ++ [s]), r)
    | _ => pure (.afterWord, { r with words := r.words ++ [s] })
  | .option o attachment => do
    let r ← mode.close r
    match cluster? c.spellings o attachment with
    | some k => r.take k
    | none => throw .misuse
  | .divider => do
    let r ← mode.close r
    let placed := mode == .afterWord || r.words.length < c.wordCount
    pure (.idle, if placed then r else { r with excess := true })
  | _ => do
    let r ← mode.close r
    pure (.idle, { r with excess := true })

/-- Reads recognised arguments one after another. -/
def readTokens (c : Command) (mode : Mode) (r : Reading) : List Token → Step Arguments
  | [] => do
    let r ← mode.close r
    pure (r.finish c)
  | token :: rest => do
    let (mode, r) ← readToken c mode r token
    readTokens c mode r rest

/-- Reads the arguments after a command. `excess` says that there was something in front
of the command that has no place. -/
def readCommand (c : Command) (excess : Bool) (args : List String) : Arguments :=
  let tokens := recogniseAll c.spellings args
  if tokens.contains .ambiguous then .misuse
  else
    match readTokens c .idle { Reading.start with excess } tokens with
    | .ok a => a
    | .error a => a

/-- Reads the arguments up to the command, and then the command. -/
def readOuter : Bool → List String → Arguments
  | excess, [] => if excess then .misuse else .help
  | excess, s :: rest =>
    match recognise commonSpellings s with
    | .word s =>
      match Command.ofName? s with
      | some c => readCommand c excess rest
      | none => .misuse
    | .option o attachment =>
      if (cluster? commonSpellings o attachment).isSome then .help else .misuse
    | .stranger => readOuter true rest
    | _ => .misuse

/-- Reads the arguments of the program. -/
def read (args : List String) : Arguments :=
  readOuter false args

end Arguments

end EventScript
