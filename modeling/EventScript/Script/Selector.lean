/-
How scripts name variables and characters.

A variable `X` may be written `变量.X`.  An expression may begin with a selector: a word
and a point, as in `训练员.属性.魅力`, naming the character that the rest is about.
-/
import EventScript.Text.Blank

namespace EventScript

/-- What marks a variable. -/
def variableMark : Text := "变量.".toList

/-- The name of a variable, with its mark or without. -/
def variableKey (key : Text) : Text :=
  let key := Text.trim key
  (Text.after? variableMark key).getD key

/-- The words that begin an expression of their own and are never selectors. -/
def expressionHeads : List Text :=
  ["属性".toList, "关系".toList, "变量".toList, "标签组".toList]

/-- The characters that end a selector, besides white space. -/
def selectorStops : List Char :=
  ['.', '(', ')', '"', '\'', '<', '>', '=', '!', '{', '}']

/-- The characters that selectors may have. -/
def isSelectorPart (c : Char) : Bool :=
  !isBlank c && !selectorStops.contains c

/-- Splits off the selector at the start of an expression, if it has one. -/
def splitSelector (path : Text) : Option Text × Text :=
  let path := Text.trim path
  let head := path.takeWhile isSelectorPart
  match path.dropWhile isSelectorPart with
  | '.' :: c :: rest =>
    if head.isEmpty || expressionHeads.contains head then (none, path)
    else (some head, Text.trim (c :: rest))
  | _ => (none, path)

end EventScript
