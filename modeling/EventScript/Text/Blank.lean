/-
White space in texts.

A text is a list of characters (code points).  `isBlank` is the class of white-space
characters that separate words everywhere in scripts and documents; it contains the
ideographic space and the no-break space, but not the zero-width space.

* `trim` removes white space at both ends, and `trim_sublist` says that it does nothing
  else;
* `trimMargin` spares the four separators of data records, which count as white space
  between words but not around numbers;
* `after?` takes a given start off a text, and `after?_eq_some_iff` says when it can;
* `words` is the list of maximal runs of characters that are not blank.
-/

namespace EventScript

/-- A text is the list of its characters. -/
abbrev Text := List Char

/-- Membership in a union of half-open ranges, given by its sorted boundaries: the
first boundary enters the class, the second leaves it, and so on. -/
def within : List Nat → Nat → Bool
  | [], _ => false
  | b :: rest, n => decide (b ≤ n) && !within rest n

/-- White-space characters, by the boundaries of their ranges. -/
def isBlank (c : Char) : Bool :=
  within [0x09, 0x0E, 0x1C, 0x21, 0x85, 0x86, 0xA0, 0xA1, 0x1680, 0x1681, 0x2000, 0x200B,
    0x2028, 0x202A, 0x202F, 0x2030, 0x205F, 0x2060, 0x3000, 0x3001] c.toNat

namespace Text

/-- Drops the white space at the front. -/
def trimStart (t : Text) : Text :=
  t.dropWhile isBlank

/-- Drops the white space at the back. -/
def trimEnd (t : Text) : Text :=
  (t.reverse.dropWhile isBlank).reverse

/-- Drops the white space at both ends. -/
def trim (t : Text) : Text :=
  trimEnd (trimStart t)

/-- White space that may stand around a number: all but the separators of data records. -/
def isMargin (c : Char) : Bool :=
  isBlank c && !within [0x1C, 0x20] c.toNat

/-- Drops the white space around a number. -/
def trimMargin (t : Text) : Text :=
  ((t.dropWhile isMargin).reverse.dropWhile isMargin).reverse

/-- Puts one more character in front of a list of words: a blank opens a new word. -/
def addToWords (c : Char) : List Text → List Text
  | [] => if isBlank c then [[]] else [[c]]
  | w :: ws => if isBlank c then [] :: w :: ws else (c :: w) :: ws

/-- The words of a text: its maximal runs of characters that are not blank. -/
def words (t : Text) : List Text :=
  (t.foldr addToWords [[]]).filter (! ·.isEmpty)

/-- What follows a given text at the start of another, if that starts with it. -/
def after? : Text → Text → Option Text
  | [], t => some t
  | _ :: _, [] => none
  | a :: start, b :: t => if a = b then after? start t else none

/-- Joins texts with a separator between each two. -/
def joinWith (separator : Text) (ts : List Text) : Text :=
  List.intercalate separator ts

theorem after?_eq_some_iff {start t rest : Text} :
    after? start t = some rest ↔ t = start ++ rest := by
  induction start generalizing t with
  | nil =>
    rw [after?, Option.some_inj, List.nil_append]
  | cons a start ih =>
    cases t with
    | nil => simp [after?]
    | cons b t =>
      by_cases h : a = b
      · rw [after?, if_pos h, ih, h, List.cons_append, List.cons_inj_right]
      · rw [after?, if_neg h, List.cons_append, List.cons.injEq]
        constructor
        · intro hn
          cases hn
        · intro hab
          exact absurd hab.1.symm h

theorem after?_sublist {start t rest : Text} (h : after? start t = some rest) :
    rest.Sublist t := by
  rw [after?_eq_some_iff.1 h]
  exact List.sublist_append_right start rest

theorem trimEnd_sublist (t : Text) : (trimEnd t).Sublist t := by
  have h := (List.dropWhile_sublist isBlank (l := t.reverse)).reverse
  simpa [trimEnd] using h

theorem trim_sublist (t : Text) : (trim t).Sublist t :=
  (trimEnd_sublist _).trans (List.dropWhile_sublist _)

theorem length_trim_le (t : Text) : (trim t).length ≤ t.length :=
  (trim_sublist t).length_le

end Text

end EventScript
