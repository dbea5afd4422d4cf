/-
Passages: texts with slots in braces.

* `{C ? A : B}` — one of two passages, by a condition;
* `{随机文字(A, B, …)}` — one of several passages, drawn at random;
* `{变量.X}` — the value of a variable, with the present names of characters;
* `{名称}`, `{称呼}`, `{性别}` — the name of the acting character, how it calls the player,
  its gender; or those of another character if a selector stands before the word.

Everything outside slots is copied, a brace that is never closed included, and a slot that
makes no sense leaves nothing.  What a slot puts in is not looked at again.
-/
import EventScript.Script.Condition
import EventScript.Decimal.Shortest
import EventScript.Text.Quoted

namespace EventScript

/-! ### Values as texts -/

namespace Value

mutual

/-- A value as it appears inside a mapping: texts are quoted. -/
def inspect : Value → Text
  | .null => "None".toList
  | .bool b => if b then "True".toList else "False".toList
  | .int n => Text.ofInt n
  | .real x => (shortestText x).toList
  | .text s => Text.quoted s.toList
  | .reference r =>
    "CharacterRef(instance_id=".toList ++ Text.quoted r.id.toList ++ ", name=".toList ++
      Text.quoted r.name.toList ++ [')']
  | .list items => '[' :: Text.joinWith ", ".toList (inspectItems items) ++ [']']
  | .mapping entries => '{' :: Text.joinWith ", ".toList (inspectEntries entries) ++ ['}']

/-- The items of a list as they appear inside it. -/
def inspectItems : List Value → List Text
  | [] => []
  | v :: rest => inspect v :: inspectItems rest

/-- The entries of a mapping as they appear inside it. -/
def inspectEntries : List (String × Value) → List Text
  | [] => []
  | (k, v) :: rest =>
    (Text.quoted k.toList ++ [':', ' '] ++ inspect v) :: inspectEntries rest

end

mutual

/-- A value as a passage shows it: characters by their present names, lists by their
members that show anything. -/
def display {n : Nat} (w : World n) : Value → Text
  | .null => []
  | .text s => s.toList
  | .reference r =>
    match w.find? r.id with
    | some i => (w.character i).name.toList
    | none => r.name.toList
  | .list items => Text.joinWith ['、'] ((displayItems w items).filter (! ·.isEmpty))
  | other => inspect other

/-- The members of a list as a passage shows them. -/
def displayItems {n : Nat} (w : World n) : List Value → List Text
  | [] => []
  | v :: rest => display w v :: displayItems w rest

end

end Value

/-! ### Slots -/

/-- What a slot can say about a character. -/
inductive Mention where
  | name | calling | gender
  deriving DecidableEq, Repr

/-- The mention that a word asks for. -/
def Mention.ofText? (t : Text) : Option Mention :=
  if t = "名称".toList then some .name
  else if t = "称呼".toList then some .calling
  else if t = "性别".toList then some .gender
  else none

/-- The content of a slot, taken apart; its passages are still texts. -/
inductive Slot where
  | choose (condition yes no : Text)
  | draw (options : List Text)
  | variable (key : Text)
  | mention (holder : Option Text) (what : Mention)
  | blank
  deriving DecidableEq, Repr

namespace Slot

/-- The condition and the two passages of a choice: the first `?` at the top level and, in
what follows, the first `:`. -/
def ternary? (t : Text) : Option (Text × Text × Text) :=
  (breakTop? ['?'] t).bind fun (condition, rest) =>
    (breakTop? [':'] rest).map fun (yes, no) => (condition, yes, no)

/-- The inside of `随机文字(…)`: the slot starts with the word and a bracket and ends with a
bracket. -/
def drawn? (t : Text) : Option Text :=
  (Text.after? "随机文字(".toList t).bind fun rest =>
    if rest.getLast? = some ')' then some rest.dropLast else none

/-- The passages to draw from. Blank ones do not count. -/
def drawOptions (t : Text) : List Text :=
  ((splitTop [','] t).filter fun option => !(Text.trim option).isEmpty).map unquote

/-- Reads a mention with its selector. -/
def readMention (t : Text) : Slot :=
  let (holder, rest) := splitSelector t
  match Mention.ofText? rest with
  | some what => mention holder what
  | none => blank

/-- Reads the content of a slot. -/
def read (t : Text) : Slot :=
  match ternary? t with
  | some (condition, yes, no) => choose condition (unquote yes) (unquote no)
  | none =>
    let trimmed := Text.trim t
    match drawn? trimmed, Text.after? variableMark trimmed with
    | some inside, _ => draw (drawOptions inside)
    | none, some key => .variable key
    | none, none => readMention trimmed

/-! The passages in a slot are no longer than the slot. -/

theorem unquote_length_le (t : Text) : (unquote t).length ≤ t.length := by
  have h := Text.length_trim_le t
  unfold unquote
  split
  · rename_i q c rest heq
    rw [heq] at h
    split
    · simp only [List.length_dropLast, List.length_cons] at h ⊢
      omega
    · exact h
  · exact h

theorem length_le_of_breakTop? {token t a b : Text} (h : breakTop? token t = some (a, b)) :
    a.length ≤ t.length ∧ b.length ≤ t.length := by
  unfold breakTop? at h
  obtain ⟨i, -, h⟩ := Option.map_eq_some_iff.1 h
  obtain ⟨rfl, rfl⟩ := Prod.mk.inj h
  simp only [List.length_take, List.length_drop]
  omega

theorem length_le_of_choose {t condition yes no : Text} (h : read t = choose condition yes no) :
    yes.length ≤ t.length ∧ no.length ≤ t.length := by
  unfold read at h
  split at h
  · rename_i c y n ht
    obtain ⟨rfl, rfl, rfl⟩ := Slot.choose.inj h
    unfold ternary? at ht
    obtain ⟨⟨c', rest⟩, h₁, ht⟩ := Option.bind_eq_some_iff.1 ht
    obtain ⟨⟨y', n'⟩, h₂, ht⟩ := Option.map_eq_some_iff.1 ht
    simp only [Prod.mk.injEq] at ht
    obtain ⟨rfl, rfl, rfl⟩ := ht
    have := length_le_of_breakTop? h₁
    have := length_le_of_breakTop? h₂
    have := unquote_length_le y'
    have := unquote_length_le n'
    omega
  · simp only at h
    split at h
    · simp at h
    · simp at h
    · unfold readMention at h
      simp only at h
      split at h <;> simp at h

theorem length_le_of_mem_draw {t : Text} {options : List Text} (h : read t = draw options)
    {option : Text} (ho : option ∈ options) : option.length ≤ t.length := by
  unfold read at h
  split at h
  · simp at h
  · simp only at h
    split at h
    · rename_i inside hd
      obtain rfl := Slot.draw.inj h
      unfold drawOptions at ho
      obtain ⟨p, hp, rfl⟩ := List.mem_map.1 ho
      unfold drawn? at hd
      obtain ⟨rest, hr, hd⟩ := Option.bind_eq_some_iff.1 hd
      split at hd
      · obtain rfl := Option.some.inj hd
        have h₁ := unquote_length_le p
        have h₂ := (sublist_of_mem_splitTop (List.mem_filter.1 hp).1).length_le
        have h₃ := (List.dropLast_sublist rest).length_le
        have h₄ := (Text.after?_sublist hr).length_le
        have h₅ := Text.length_trim_le t
        omega
      · simp at hd
    · simp at h
    · unfold readMention at h
      simp only at h
      split at h <;> simp at h

end Slot

/-! ### Passages -/

/-- A piece of a passage. -/
inductive Segment where
  | copy (c : Char)
  | choose (condition : Condition) (yes no : List Segment)
  | draw (options : List (List Segment))
  | variable (key : Text)
  | mention (holder : Option Text) (what : Mention)
  | blank
  deriving Repr

/-- A text with slots, taken apart. -/
abbrev Passage := List Segment

namespace Passage

/-- Reads a passage. -/
def read (t : Text) : Passage :=
  match t with
  | [] => []
  | c :: rest =>
    match if c = '{' then closingBrace? (c :: rest) else none with
    | none => .copy c :: read rest
    | some k =>
      let content := rest.take (k - 1)
      have : content.length ≤ rest.length := (List.take_sublist _ _).length_le
      let segment : Segment :=
        match h : Slot.read content with
        | .choose condition yes no =>
          have := Slot.length_le_of_choose h
          .choose (Condition.read (Text.trim condition)) (read yes) (read no)
        | .draw options =>
          .draw (options.attach.map fun ⟨option, ho⟩ =>
            have := Slot.length_le_of_mem_draw h ho
            read option)
        | .variable key => .variable key
        | .mention holder what => .mention holder what
        | .blank => .blank
      segment :: read (rest.drop k)
  termination_by t.length
  decreasing_by all_goals simp only [List.length_cons, List.length_drop]; omega

variable {n : Nat}

/-- How a character calls the player: by its first rule whose condition holds, or by the
default. -/
def callingOf (w : World n) (subject : Seat n) (scope : Scope) : List CallingRule → Chance Text
  | [] => pure w.settings.defaultCalling.toList
  | rule :: rest => do
    if ← evaluateCondition w none subject scope rule.condition.toList then
      pure rule.calling.toList
    else callingOf w subject scope rest

/-- What a mention says about the character in a seat. -/
def mentionText (w : World n) (holder : Seat n) (scope : Scope) : Mention → Chance Text
  | .name => pure (w.character holder).name.toList
  | .calling => callingOf w holder scope (w.character holder).callings
  | .gender => pure (w.character holder).gender.name.toList

/-- What a mention says about the character that a selector means, if any. -/
def selectedText (w : World n) (subject : Seat n) (scope : Scope) (holder : Option Text)
    (what : Mention) : Chance Text :=
  match holder with
  | none => mentionText w subject scope what
  | some key =>
    match w.resolve? subject scope key with
    | some i => mentionText w i scope what
    | none => pure []

mutual

/-- The text of a piece of a passage. -/
def renderSegment (w : World n) (subject : Seat n) (scope : Scope) : Segment → Chance Text
  | .copy c => pure [c]
  | .choose condition yes no => do
    if ← condition.holds w none subject scope then renderAll w subject scope yes
    else renderAll w subject scope no
  | .draw options =>
    if options.length = 0 then pure []
    else do
      let k ← Dice.roll (.pick options.length)
      renderNth w subject scope options (k % options.length)
  | .variable key => pure ((Value.ofVariable scope (String.ofList key)).display w)
  | .mention holder what => selectedText w subject scope holder what
  | .blank => pure []

/-- The text of a passage. -/
def renderAll (w : World n) (subject : Seat n) (scope : Scope) : List Segment → Chance Text
  | [] => pure []
  | s :: rest => do
    let a ← renderSegment w subject scope s
    let b ← renderAll w subject scope rest
    pure (a ++ b)

/-- The text of one of several passages. -/
def renderNth (w : World n) (subject : Seat n) (scope : Scope) :
    List (List Segment) → Nat → Chance Text
  | [], _ => pure []
  | p :: _, 0 => renderAll w subject scope p
  | _ :: rest, k + 1 => renderNth w subject scope rest k

end

end Passage

/-- The text that a text with slots makes for the acting character `subject`. -/
def renderPassage {n : Nat} (w : World n) (subject : Seat n) (scope : Scope) (t : Text) :
    Chance Text :=
  Passage.renderAll w subject scope (Passage.read t)

end EventScript
