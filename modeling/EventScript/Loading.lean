/-
Loading content and settings from files.

A folder is a list of files, each a name and a text.  Content is loaded from one file or
from all the files of a folder whose names end in `.yaml` or `.yml`, merged in the order of
their names.  Settings come from a file, if one is given, and from three variables of the
environment, which win over the file.

How texts are written, and how templates, tags, events and settings are checked when they are
read, is left open: all of this depends on a `Format`.
-/
import EventScript.Decimal.Reading
import EventScript.Event.Content
import EventScript.Failure
import EventScript.Settings

namespace EventScript

/-- A format of files: which document a text is, if it is one, and what documents describe. -/
structure Format where
  document? : String → Option Document
  template : Decoder Template
  tag : Decoder TagTemplate
  event : Decoder Event
  settings : Decoder Settings

/-- A file: its name and its text. -/
structure File where
  name : String
  text : String
  deriving Repr

/-! ### Content -/

namespace Content

/-- The members that a section of a content document lists. A text lists its characters and
a mapping its keys, neither of which describe anything. -/
def members : Document → Except Failure (List Document)
  | .list items => .ok items
  | .text s => .ok (s.toList.map fun c => .text (String.singleton c))
  | .mapping entries => .ok (entries.map fun p => .text p.1)
  | d => if d.isEmpty then .ok [] else .error .unsuitable

/-- The section under the first of the keys that the document has. -/
def sectionMembers (d : Document) (key other : String) : Except Failure (List Document) :=
  match d.get? key, d.get? other with
  | some s, _ => members s
  | none, some s => members s
  | none, none => .ok []

/-- Reads one member of a section. -/
def readMember {α : Type} (read : Decoder α) (d : Document) : Except Failure α :=
  match (read d).orFail with
  | .error (.invalid faults) => .error (.content (some faults))
  | other => other

/-- Reads the content that a document describes. -/
def ofDocument (format : Format) : Document → Except Failure Content
  | .null => .ok .empty
  | .mapping entries => do
    let d := Document.mapping entries
    let templates ← (← sectionMembers d "角色" "characters").mapM (readMember format.template)
    let tags ← (← sectionMembers d "标签" "tags").mapM (readMember format.tag)
    let events ← (← sectionMembers d "事件" "events").mapM (readMember format.event)
    pure (.ofLists templates tags events)
  | _ => .error (.content none)

/-- Reads the content of a file. -/
def ofText (format : Format) (text : String) : Except Failure Content :=
  match format.document? text with
  | some d => ofDocument format d
  | none => .error (.content none)

/-- Does the name of a file end as those of content files do? -/
def isContentName (name : String) : Bool :=
  ".yaml".toList.isSuffixOf name.toList || ".yml".toList.isSuffixOf name.toList

/-- Reads the content of a folder. -/
def ofFolder (format : Format) (files : List File) : Except Failure Content := do
  let ordered := (files.filter fun f => isContentName f.name).mergeSort fun a b =>
    decide (a.name ≤ b.name)
  let parts ← ordered.mapM fun f => ofText format f.text
  pure (parts.foldl merge .empty)

end Content

/-- Where content is loaded from. -/
inductive ContentSource where
  | missing
  | file (text : String)
  | folder (files : List File)

/-- Loads content. -/
def ContentSource.load (format : Format) : ContentSource → Except Failure Content
  | .missing => .error (.content none)
  | .file text => Content.ofText format text
  | .folder files => Content.ofFolder format files

/-! ### Settings -/

/-- The variables of the environment that settings depend on; an empty variable counts as
absent. -/
structure Environment where
  seed : String
  debug : String
  maxChainDepth : String
  deriving Repr, Inhabited

/-- Where settings are loaded from. -/
inductive SettingsSource where
  | standard
  | missing
  | file (text : String)

/-- The document of a settings source. An empty document is one without entries. -/
def SettingsSource.document (format : Format) : SettingsSource → Except Failure Document
  | .standard => .ok (.mapping [])
  | .missing => .error .missingFile
  | .file text =>
    match format.document? text with
    | none => .error .unreadable
    | some d => .ok (if d.isEmpty then .mapping [] else d)

namespace Settings

/-- Overrides an entry of a settings document, if a variable is given for it. -/
def override (key value : String) (read : String → Except Failure Document) (d : Document) :
    Except Failure Document :=
  if value.isEmpty then .ok d
  else do
    let v ← read value
    match d with
    | .mapping entries => pure (.mapping (Mapping.put ⟨entries⟩ key v).entries)
    | _ => .error .unsuitable

/-- Reads a whole number of the environment. -/
def readVariable (s : String) : Except Failure Document :=
  match Text.wholeInteger? s.toList with
  | some n => .ok (.int n)
  | none => .error .badText

/-- Is a variable of the environment switched on? -/
def isSwitchedOn (s : String) : Bool :=
  ["1", "true", "yes", "on"].contains (String.ofList (lowerPlain (Text.trim s.toList)))

/-- Loads settings. -/
def load (format : Format) (source : SettingsSource) (env : Environment) :
    Except Failure Settings := do
  let d ← source.document format
  let d ← override "seed" env.seed readVariable d
  let d ← override "debug" env.debug (fun s => .ok (.bool (isSwitchedOn s))) d
  let d ← override "max_chain_depth" env.maxChainDepth readVariable d
  (format.settings d).orFail

end Settings

end EventScript
