/-
Styled text.

In a styled text a word in square brackets, such as `[bold]` or `[/bold]`, sets a style and
is not shown.  An odd number of backslashes before it makes it plain text; of the
backslashes before a style, every second one is shown, and a backslash before any other
opening bracket is not shown.

* `pieces` takes a styled text apart;
* `unstyled` is what it shows;
* `escaped` makes a styled text of a plain one, so that nothing in it sets a style;
* `Styled.shown` is what a terminal shows of a text that is made of both.
-/
import EventScript.Terminal.Dialogue
import EventScript.Text.Blank

namespace EventScript

/-- A piece of a styled text: a plain character, or the word of a style with the
backslashes before it. -/
inductive Piece where
  | plain (c : Char)
  | style (backslashes : Nat) (word : Text)
  deriving DecidableEq, Repr

namespace Piece

/-- The characters that the word of a style may start with. -/
def isStyleStart (c : Char) : Bool :=
  ('a' ≤ c && c ≤ 'z') || c == '#' || c == '/' || c == '@'

/-- The characters that the word of a style goes on with. -/
def isStylePart (c : Char) : Bool :=
  c != ']' && c != '['

/-- Splits the word of a style, brackets included, off the start of a text. -/
def splitStyle? (t : Text) : Option (Text × Text) :=
  match t with
  | '[' :: c :: rest =>
    match rest.dropWhile isStylePart with
    | ']' :: after =>
      if isStyleStart c then some ('[' :: c :: rest.takeWhile isStylePart ++ [']'], after)
      else none
    | _ => none
  | _ => none

theorem length_lt_of_splitStyle? {t word after : Text}
    (h : splitStyle? t = some (word, after)) : after.length < t.length := by
  unfold splitStyle? at h
  split at h
  · rename_i c rest
    split at h
    · rename_i more hmore
      have h₁ := (List.dropWhile_sublist isStylePart (l := rest)).length_le
      rw [hmore, List.length_cons] at h₁
      split at h
      · obtain ⟨-, rfl⟩ := Prod.mk.inj (Option.some.inj h)
        simp only [List.length_cons]
        omega
      · simp at h
    · simp at h
  · simp at h

end Piece

/-- Takes a styled text apart. -/
def pieces (t : Text) : List Piece :=
  match t with
  | [] => []
  | c :: rest =>
    match h : Piece.splitStyle? ((c :: rest).dropWhile (· == '\\')) with
    | some (word, after) =>
      have : after.length < (c :: rest).length :=
        Nat.lt_of_lt_of_le (Piece.length_lt_of_splitStyle? h) (List.dropWhile_sublist _).length_le
      .style ((c :: rest).takeWhile (· == '\\')).length word :: pieces after
    | none => .plain c :: pieces rest
  termination_by t.length
  decreasing_by all_goals simp only [List.length_cons] at *; omega

/-- What pieces show. -/
def shown : List Piece → Text
  | [] => []
  | .style k word :: rest =>
    List.replicate (k / 2) '\\' ++ (if k % 2 = 1 then word else []) ++ shown rest
  | .plain '\\' :: .plain '[' :: rest => '[' :: shown rest
  | .plain c :: rest => c :: shown rest

/-- What a styled text shows. -/
def unstyled (s : String) : String :=
  String.ofList (shown (pieces s.toList))

/-- A piece of a plain text, written so that it sets no style. -/
def Piece.escaped : Piece → Text
  | .plain c => [c]
  | .style k word => List.replicate (2 * k + 1) '\\' ++ word

/-- A single backslash at the end is doubled, so that it does not touch what follows. -/
def guardEnd (t : Text) : Text :=
  match t.reverse with
  | '\\' :: '\\' :: _ => t
  | '\\' :: _ => t ++ ['\\']
  | _ => t

/-- A plain text as a styled one. -/
def escaped (s : String) : String :=
  String.ofList (guardEnd ((pieces s.toList).flatMap Piece.escaped))

/-- A stretch of a text as markup. -/
def Span.source : Span → String
  | markup s => s
  | plain s => escaped s

/-- What a terminal shows of a text. -/
def Styled.shown (s : Styled) : String :=
  unstyled (String.join (s.map Span.source))

end EventScript
