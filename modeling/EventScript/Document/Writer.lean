/-
Writing documents as text.

The written form has no white space between its parts.  Numbers that are not whole are
written with the fewest digits that read back as the same number.
-/
import EventScript.Document.Basic
import EventScript.Decimal.Shortest

namespace EventScript.Document

/-- A digit of a hexadecimal number. -/
def hexDigit (n : Nat) : Char :=
  if n < 10 then Char.ofNat ('0'.toNat + n) else Char.ofNat ('a'.toNat + (n - 10))

/-- A character inside a quoted text: the quotation mark, the backslash and control
characters are escaped. -/
def escapeChar (c : Char) : List Char :=
  if c == '"' then ['\\', '"']
  else if c == '\\' then ['\\', '\\']
  else if c.toNat < 0x20 then
    ['\\', 'u', '0', '0', hexDigit (c.toNat / 16), hexDigit (c.toNat % 16)]
  else [c]

/-- A text in quotation marks. -/
def quote (s : String) : String :=
  String.ofList ('"' :: s.toList.flatMap escapeChar ++ ['"'])

mutual

/-- The written form of a document. -/
def write : Document → String
  | .null => "null"
  | .bool b => if b then "true" else "false"
  | .int n => toString n
  | .real x => shortestText x
  | .text s => quote s
  | .list items => "[" ++ String.intercalate "," (writeItems items) ++ "]"
  | .mapping entries => "\x7b" ++ String.intercalate "," (writeEntries entries) ++ "\x7d"

/-- The written forms of the items of a list. -/
def writeItems : List Document → List String
  | [] => []
  | d :: rest => write d :: writeItems rest

/-- The written forms of the entries of a mapping. -/
def writeEntries : List (String × Document) → List String
  | [] => []
  | (k, d) :: rest => (quote k ++ ":" ++ write d) :: writeEntries rest

end

end EventScript.Document
