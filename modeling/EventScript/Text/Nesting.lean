/-
Splitting and searching outside brackets and quotes.

A script text is read from left to right with a `Nesting`: how many round brackets and
braces are open (one count for both), and which quotation mark, if any, is open.  A
character stands at the top level when no bracket and no quotation mark is open around
it; an opening bracket belongs to the level outside it, and so does the closing one.

* `splitTop` cuts a text at the top-level occurrences of a separator;
* `findTop?` and `findLastTop?` give the first and the last of those occurrences;
* `unwrap?` removes one pair of round brackets around a whole text;
* `callArguments?` reads `name(a, b, …)`;
* `closingBrace?` finds the brace that closes the one a text starts with.

Nothing here fails on malformed text: open quotes and unbalanced brackets only decide
which characters count as top-level.
-/
import EventScript.Text.Blank

namespace EventScript

/-- The characters that open and close a quotation. -/
def isQuote (c : Char) : Bool :=
  c == '"' || c == '\''

/-- The opening brackets. -/
def isOpener (c : Char) : Bool :=
  c == '(' || c == '{'

/-- The closing brackets. -/
def isCloser (c : Char) : Bool :=
  c == ')' || c == '}'

/-- What is open at a place of a text. `afterBackslash` says that the character before it
is a backslash, which keeps a quotation mark from closing a quotation. -/
structure Nesting where
  depth : Int
  quote : Option Char
  afterBackslash : Bool
  deriving DecidableEq, Repr

namespace Nesting

/-- At the start of a text nothing is open. -/
def start : Nesting := ⟨0, none, false⟩

/-- Reads one character. -/
def step (s : Nesting) (c : Char) : Nesting :=
  let backslash := c == '\\'
  match s.quote with
  | some q => ⟨s.depth, if c == q && !s.afterBackslash then none else some q, backslash⟩
  | none =>
    if isQuote c then ⟨s.depth, some c, backslash⟩
    else if isOpener c then ⟨s.depth + 1, none, backslash⟩
    else if isCloser c then ⟨s.depth - 1, none, backslash⟩
    else ⟨s.depth, none, backslash⟩

/-- Reads a whole text. -/
def read (s : Nesting) (t : Text) : Nesting :=
  t.foldl step s

/-- Does the character `c`, read next, stand at the top level? -/
def isTop (s : Nesting) (c : Char) : Bool :=
  s.quote.isNone && !isQuote c && (if isCloser c then s.depth - 1 == 0 else s.depth == 0)

end Nesting

/-- Puts a character in front of the first of several parts. -/
def consFirst (c : Char) : List Text → List Text
  | [] => [[c]]
  | p :: ps => (c :: p) :: ps

/-- Goes on with `splitTop` from the middle of a text: `skip` characters of a separator
are still to be passed over. -/
def splitTopFrom (separator : Text) : Nesting → Nat → Text → List Text
  | _, _, [] => [[]]
  | s, skip + 1, c :: rest => splitTopFrom separator (s.step c) skip rest
  | s, 0, c :: rest =>
    if s.isTop c && separator.isPrefixOf (c :: rest) then
      match separator with
      | [] => [] :: consFirst c (splitTopFrom separator (s.step c) 0 rest)
      | _ :: more => [] :: splitTopFrom separator (s.step c) more.length rest
    else consFirst c (splitTopFrom separator (s.step c) 0 rest)

/-- The parts of a text between the top-level occurrences of a separator.  Occurrences are
taken from the left and do not overlap. -/
def splitTop (separator t : Text) : List Text :=
  splitTopFrom separator .start 0 t

/-- The top-level occurrences of a token, overlapping ones included, as positions counted
from `i`. -/
def topOccurrencesFrom (token : Text) : Nesting → Nat → Text → List Nat
  | _, _, [] => []
  | s, i, c :: rest =>
    let later := topOccurrencesFrom token (s.step c) (i + 1) rest
    if s.isTop c && token.isPrefixOf (c :: rest) then i :: later else later

/-- The positions at which a token occurs at the top level, in increasing order. -/
def topOccurrences (token t : Text) : List Nat :=
  topOccurrencesFrom token .start 0 t

/-- The first top-level occurrence of a token at or after position `from`. -/
def findTop? (token t : Text) (first : Nat) : Option Nat :=
  (topOccurrences token t).find? (first ≤ ·)

/-- The last top-level occurrence of a token. -/
def findLastTop? (token t : Text) : Option Nat :=
  (topOccurrences token t).getLast?

/-- The text before and the text after the first top-level occurrence of a token. -/
def breakTop? (token t : Text) : Option (Text × Text) :=
  (findTop? token t 0).map fun i => (t.take i, t.drop (i + token.length))

/-- Is there a round bracket, before the last character, that closes down to the top
level? -/
def closesEarly : Nesting → Text → Bool
  | _, [] => false
  | _, [_] => false
  | s, c :: d :: rest => (c == ')' && s.isTop c) || closesEarly (s.step c) (d :: rest)

/-- The inside of a text that one pair of round brackets encloses: the text, trimmed,
starts with `(` and ends with `)`, and no round bracket before the last character closes
down to the top level. -/
def unwrap? (t : Text) : Option Text :=
  match t.trim with
  | '(' :: rest =>
    if rest.getLast? = some ')' && !closesEarly .start ('(' :: rest) then some rest.dropLast
    else none
  | _ => none

/-- The arguments in round brackets: the inside, cut at the top-level commas, each part
trimmed. -/
def arguments? (t : Text) : Option (List Text) :=
  (unwrap? t).map fun inside => (splitTop [','] inside).map Text.trim

/-- The arguments of a call `name(a, b, …)`. -/
def callArguments? (name t : Text) : Option (List Text) :=
  (Text.after? name t.trim).bind arguments?

/-- Removes one pair of equal quotation marks around a text, after trimming it.  A text
that is not quoted is only trimmed. -/
def unquote (t : Text) : Text :=
  match t.trim with
  | q :: c :: rest =>
    if isQuote q && (c :: rest).getLast? = some q then (c :: rest).dropLast else q :: c :: rest
  | short => short

/-- The distance to the closing brace that brings the count of open braces, started at
`depth`, to zero.  Braces inside quotations do not count, and neither do round brackets. -/
def closingBraceFrom : Int → Option Char → Bool → Text → Option Nat
  | _, _, _, [] => none
  | depth, some q, afterBackslash, c :: rest =>
    let quote := if c == q && !afterBackslash then none else some q
    (closingBraceFrom depth quote (c == '\\') rest).map (· + 1)
  | depth, none, _, c :: rest =>
    if isQuote c then (closingBraceFrom depth (some c) (c == '\\') rest).map (· + 1)
    else if c == '{' then (closingBraceFrom (depth + 1) none false rest).map (· + 1)
    else if c == '}' then
      if depth - 1 = 0 then some 0
      else (closingBraceFrom (depth - 1) none false rest).map (· + 1)
    else (closingBraceFrom depth none (c == '\\') rest).map (· + 1)

/-- The position of the brace that closes the block which a text opens. -/
def closingBrace? (t : Text) : Option Nat :=
  closingBraceFrom 0 none false t

/-- How many brackets a text opens. This bounds how deep scripts can be nested in it. -/
def openers (t : Text) : Nat :=
  t.countP isOpener

/-! ### Sizes -/

theorem consFirst_flatten_sublist {c : Char} {ps : List Text} {t : Text}
    (h : ps.flatten.Sublist t) : (consFirst c ps).flatten.Sublist (c :: t) := by
  cases ps with
  | nil => simp [consFirst]
  | cons p ps => simpa [consFirst] using h

theorem splitTopFrom_flatten_sublist (separator : Text) (s : Nesting) (skip : Nat) (t : Text) :
    (splitTopFrom separator s skip t).flatten.Sublist t := by
  induction t generalizing s skip with
  | nil => simp [splitTopFrom]
  | cons c rest ih =>
    cases skip with
    | succ skip => exact (ih _ _).trans (List.sublist_cons_self c rest)
    | zero =>
      unfold splitTopFrom
      split
      · split
        · simpa using consFirst_flatten_sublist (ih _ _)
        · simpa using (ih _ _).trans (List.sublist_cons_self c rest)
      · exact consFirst_flatten_sublist (ih _ _)

/-- A part of a text is a subsequence of it. -/
theorem sublist_of_mem_splitTop {separator t p : Text} (h : p ∈ splitTop separator t) :
    p.Sublist t :=
  (List.sublist_flatten_of_mem h).trans (splitTopFrom_flatten_sublist separator _ _ t)

theorem openers_le_of_sublist {t u : Text} (h : t.Sublist u) : openers t ≤ openers u :=
  h.countP_le

theorem openers_trim_le (t : Text) : openers t.trim ≤ openers t :=
  openers_le_of_sublist (Text.trim_sublist t)

/-- The inside of a wrapped text opens one bracket fewer than the text, at least. -/
theorem openers_unwrap_lt {t inside : Text} (h : unwrap? t = some inside) :
    openers inside < openers t := by
  unfold unwrap? at h
  split at h
  · rename_i rest heq
    split at h
    · obtain rfl := Option.some.inj h
      have h₁ := openers_le_of_sublist (List.dropLast_sublist rest)
      have h₂ := openers_trim_le t
      rw [heq] at h₂
      simp only [openers, List.countP_cons, isOpener] at h₁ h₂ ⊢
      simp at h₂
      omega
    · exact absurd h (by simp)
  · exact absurd h (by simp)

theorem length_unwrap_lt {t inside : Text} (h : unwrap? t = some inside) :
    inside.length < t.length := by
  unfold unwrap? at h
  split at h
  · rename_i rest heq
    split at h
    · obtain rfl := Option.some.inj h
      have h₂ := Text.length_trim_le t
      rw [heq] at h₂
      simp only [List.length_cons, List.length_dropLast] at h₂ ⊢
      omega
    · exact absurd h (by simp)
  · exact absurd h (by simp)

end EventScript
