/-
Patterns with a slot for a name.

In a pattern `{name}` stands for a name, and a doubled brace stands for the brace.  A slot
may ask for one character of the name (`{name[0]}`), for the name in quotation marks
(`{name!r}`, or `{name!a}` in basic Latin characters), and for a fill, an alignment, a
width and a greatest length (`{name:*>10.5}`).  What follows the colon may have slots of
its own, but those may not have any in turn.

Patterns are filled from left to right, and the first fault decides:

* a brace that stands alone, or a slot of a wrong form, is a fault of the text;
* a slot for anything but the name asks for a value that nobody supplies, and a slot with
  a number or without a name for a value at a position, of which there are none;
* a slot may also ask for what a name does not have.
-/
import EventScript.Failure
import EventScript.Text.Integer
import EventScript.Text.Quoted

namespace EventScript

namespace Pattern

/-- On which side of a text its padding goes. -/
inductive Alignment where
  | left | right | centre
  deriving DecidableEq, Repr

/-- The alignment that a character asks for. -/
def alignment? : Char → Option Alignment
  | '<' => some .left
  | '>' => some .right
  | '^' => some .centre
  | _ => none

/-- Pads a text to a width. -/
def pad (fill : Char) (a : Alignment) (width : Nat) (t : Text) : Text :=
  let missing := width - t.length
  let before := match a with
    | .left => 0
    | .right => missing
    | .centre => missing / 2
  List.replicate before fill ++ t ++ List.replicate (missing - before) fill

/-- Reads an optional fill and alignment; a zero in front of the width is a fill. -/
def readPadding (spec : Text) : Char × Alignment × Text :=
  let (fill, a, rest) : Option Char × Option Alignment × Text := match spec with
    | f :: c :: rest =>
      match alignment? c with
      | some a => (some f, some a, rest)
      | none =>
        match alignment? f with
        | some a => (none, some a, c :: rest)
        | none => (none, none, spec)
    | [f] =>
      match alignment? f with
      | some a => (none, some a, [])
      | none => (none, none, spec)
    | [] => (none, none, [])
  match fill, rest with
  | none, '0' :: more => ('0', a.getD .left, more)
  | _, _ => (fill.getD ' ', a.getD .left, rest)

/-- Writes a text as a format asks: padding, width, greatest length. -/
def formatAs (spec t : Text) : Except Failure Text :=
  let (fill, a, rest) := readPadding spec
  let width := rest.takeWhile isDigit
  let rest := rest.dropWhile isDigit
  let (cut, rest) : Option Text × Text := match rest with
    | '.' :: more => (some (more.takeWhile isDigit), more.dropWhile isDigit)
    | other => (none, other)
  if cut = some [] || (!rest.isEmpty && rest != ['s']) then .error .badText
  else
    let shortened := match cut with
      | some digits => t.take (digitsValue digits)
      | none => t
    .ok (pad fill a (digitsValue width) shortened)

/-! ### Slots -/

/-- A slot as written: what it asks for, a conversion, and a format. -/
structure Request where
  path : Text
  conversion : Option Char
  format : Text
  deriving DecidableEq, Repr

/-- The path at the start of a slot, and the text from the character that ends it.  Inside
square brackets (`inside`) no character ends a path. -/
def splitPath? : Bool → Text → Option (Text × Text)
  | _, [] => none
  | inside, c :: rest =>
    if inside then
      (splitPath? (c != ']') rest).map fun (path, more) => (c :: path, more)
    else if c = '{' then none
    else if c = '}' ∨ c = ':' ∨ c = '!' then some ([], c :: rest)
    else (splitPath? (c == '[') rest).map fun (path, more) => (c :: path, more)

/-- The format at the end of a slot, up to the brace that closes the slot, and what
follows.  The number counts the braces opened inside the format. -/
def splitFormat? : Nat → Text → Option (Text × Text)
  | _, [] => none
  | k, c :: rest =>
    if c = '}' ∧ k = 0 then some ([], rest)
    else
      let opened := if c = '{' then k + 1 else if c = '}' then k - 1 else k
      (splitFormat? opened rest).map fun (f, more) => (c :: f, more)

/-- Reads a slot, from after its opening brace, and gives what follows it. -/
def readRequest? (t : Text) : Option (Request × Text) :=
  match splitPath? false t with
  | some (path, '}' :: rest) => some (⟨path, none, []⟩, rest)
  | some (path, ':' :: rest) =>
    (splitFormat? 0 rest).map fun (format, more) => (⟨path, none, format⟩, more)
  | some (path, '!' :: c :: '}' :: rest) => some (⟨path, some c, []⟩, rest)
  | some (path, '!' :: c :: ':' :: rest) =>
    (splitFormat? 0 rest).map fun (format, more) => (⟨path, some c, format⟩, more)
  | _ => none

/-- The character of a text at a position that a word states. -/
def characterAt (t position : Text) : Except Failure Text :=
  if position.isEmpty then .error .badText
  else if position.all isDigit then
    match t[digitsValue position]? with
    | some c => .ok [c]
    | none => .error .noPosition
  else .error .unsuitable

/-- Goes down from a text to the part that the rest of a path asks for.  Characters by
their positions are all the parts that texts have. -/
def descend (t path : Text) : Except Failure Text :=
  match path with
  | [] => .ok t
  | '[' :: rest =>
    match h : rest.dropWhile (· != ']') with
    | [] => .error .badText
    | _ :: more =>
      match characterAt t (rest.takeWhile (· != ']')) with
      | .error f => .error f
      | .ok c =>
        have : more.length < rest.length := by
          have h₁ := (List.dropWhile_sublist (· != ']') (l := rest)).length_le
          rw [h, List.length_cons] at h₁
          omega
        descend c more
  | '.' :: c :: _ => .error (if c = '.' ∨ c = '[' then .badText else .noMember)
  | _ => .error .badText
  termination_by path.length
  decreasing_by simp only [List.length_cons]; omega

/-- The characters of a name in a path, up to where the path goes down. -/
def isHeadPart (c : Char) : Bool :=
  c != '.' && c != '['

/-- What a path asks for. -/
def supply (name path : Text) : Except Failure Text :=
  let head := path.takeWhile isHeadPart
  if head.all isDigit then .error .noPosition
  else if head != "name".toList then .error (.unknownSlot (String.ofList head))
  else descend name (path.dropWhile isHeadPart)

/-- Puts a text into the quotation marks that a conversion asks for. -/
def convert (conversion : Option Char) (t : Text) : Except Failure Text :=
  match conversion with
  | none => .ok t
  | some 's' => .ok t
  | some 'r' => .ok (Text.quoted t)
  | some 'a' => .ok (Text.quotedPlainly t)
  | some _ => .error .badText

/-- Fills one slot. `expand` fills the slots inside its format. -/
def fillSlot (expand : Text → Except Failure Text) (name : Text) (r : Request) :
    Except Failure Text := do
  let part ← supply name r.path
  let converted ← convert r.conversion part
  let format ← if r.format.contains '{' then expand r.format else pure r.format
  formatAs format converted

/-! ### Patterns -/

theorem length_splitPath?_le {inside : Bool} {t path more : Text}
    (h : splitPath? inside t = some (path, more)) : more.length ≤ t.length := by
  induction t generalizing inside path more with
  | nil => simp [splitPath?] at h
  | cons c rest ih =>
    unfold splitPath? at h
    -- either the character ends the path, or it belongs to it
    split at h
    · obtain ⟨⟨p, m⟩, hp, hm⟩ := Option.map_eq_some_iff.1 h
      obtain ⟨-, rfl⟩ := Prod.mk.inj hm
      exact Nat.le_succ_of_le (ih hp)
    · split at h
      · simp at h
      · split at h
        · obtain ⟨-, rfl⟩ := Prod.mk.inj (Option.some.inj h)
          exact Nat.le_refl _
        · obtain ⟨⟨p, m⟩, hp, hm⟩ := Option.map_eq_some_iff.1 h
          obtain ⟨-, rfl⟩ := Prod.mk.inj hm
          exact Nat.le_succ_of_le (ih hp)

theorem length_splitFormat?_lt {k : Nat} {t f more : Text}
    (h : splitFormat? k t = some (f, more)) : more.length < t.length := by
  induction t generalizing k f more with
  | nil => simp [splitFormat?] at h
  | cons c rest ih =>
    unfold splitFormat? at h
    split at h
    · obtain ⟨-, rfl⟩ := Prod.mk.inj (Option.some.inj h)
      exact Nat.lt_succ_self _
    · obtain ⟨⟨p, m⟩, hp, hm⟩ := Option.map_eq_some_iff.1 h
      obtain ⟨-, rfl⟩ := Prod.mk.inj hm
      exact Nat.lt_succ_of_lt (ih hp)

/-- A slot takes at least its closing brace from the text. -/
theorem length_readRequest?_lt {t more : Text} {r : Request}
    (h : readRequest? t = some (r, more)) : more.length < t.length := by
  unfold readRequest? at h
  split at h
  · rename_i hs
    have h₁ := length_splitPath?_le hs
    obtain ⟨-, rfl⟩ := Prod.mk.inj (Option.some.inj h)
    simp only [List.length_cons] at h₁
    omega
  · rename_i hs
    have h₁ := length_splitPath?_le hs
    obtain ⟨⟨f, m⟩, hf, hm⟩ := Option.map_eq_some_iff.1 h
    obtain ⟨-, rfl⟩ := Prod.mk.inj hm
    have h₂ := length_splitFormat?_lt hf
    simp only [List.length_cons] at h₁
    omega
  · rename_i hs
    have h₁ := length_splitPath?_le hs
    obtain ⟨-, rfl⟩ := Prod.mk.inj (Option.some.inj h)
    simp only [List.length_cons] at h₁
    omega
  · rename_i hs
    have h₁ := length_splitPath?_le hs
    obtain ⟨⟨f, m⟩, hf, hm⟩ := Option.map_eq_some_iff.1 h
    obtain ⟨-, rfl⟩ := Prod.mk.inj hm
    have h₂ := length_splitFormat?_lt hf
    simp only [List.length_cons] at h₁
    omega
  · simp at h

/-- Fills a pattern. `expand` fills the slots inside the formats of its slots. -/
def fillWith (expand : Text → Except Failure Text) (name t : Text) : Except Failure Text :=
  match t with
  | [] => .ok []
  | '{' :: '{' :: rest => ('{' :: ·) <$> fillWith expand name rest
  | '}' :: '}' :: rest => ('}' :: ·) <$> fillWith expand name rest
  | '}' :: _ => .error .badText
  | '{' :: rest =>
    match h : readRequest? rest with
    | none => .error .badText
    | some (r, more) => do
      have := length_readRequest?_lt h
      let filled ← fillSlot expand name r
      let others ← fillWith expand name more
      pure (filled ++ others)
  | c :: rest => (c :: ·) <$> fillWith expand name rest
  termination_by t.length
  decreasing_by all_goals simp only [List.length_cons]; omega

/-- Fills a pattern with a name. -/
def fill (pattern name : String) : Except Failure String :=
  let inner := fillWith (fun _ => .error .badText) name.toList
  String.ofList <$> fillWith inner name.toList pattern.toList

end Pattern

end EventScript
