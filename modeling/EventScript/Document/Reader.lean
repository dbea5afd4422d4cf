/-
Reading documents from text.

A document is written as nested lists `[…]` and mappings of quoted keys in braces, with
quoted texts, numbers, `true`, `false` and `null`.  A text of white space only is the null
document.  When a key occurs twice in a mapping, its first occurrence gives the position
and its last the value.

Two notations for numbers are read.  In the wide one an exponent makes any number a
floating-point number.  In the narrow one, which files use, it does so only after a
decimal point and with a sign of its own; otherwise the number is taken as a text.

The reader recurses on an allowance that each step uses up, and starts with more of it
than the text has characters, so it never runs out on a well-formed text.
-/
import EventScript.Document.Basic
import EventScript.Decimal.Reading

namespace EventScript.Document

/-- Which numbers with an exponent are numbers. -/
inductive Exponents where
  /-- All of them. -/
  | wide
  /-- Those with a decimal point and a signed exponent. -/
  | narrow
  deriving DecidableEq, Repr

/-- White space between the parts of a document. -/
def isGap (c : Char) : Bool :=
  c == ' ' || c == '\n' || c == '\r' || c == '\t'

/-- Skips white space. -/
def skipGap (t : Text) : Text :=
  t.dropWhile isGap

/-- The value of a hexadecimal digit. -/
def hexValue? (c : Char) : Option Nat :=
  if '0' ≤ c ∧ c ≤ '9' then some (c.toNat - '0'.toNat)
  else if 'a' ≤ c ∧ c ≤ 'f' then some (c.toNat - 'a'.toNat + 10)
  else if 'A' ≤ c ∧ c ≤ 'F' then some (c.toNat - 'A'.toNat + 10)
  else none

/-- The code of four hexadecimal digits, and what follows. -/
def hexCode? : Text → Option (Nat × Text)
  | a :: b :: c :: d :: rest =>
    match hexValue? a, hexValue? b, hexValue? c, hexValue? d with
    | some a, some b, some c, some d => some (((a * 16 + b) * 16 + c) * 16 + d, rest)
    | _, _, _, _ => none
  | _ => none

/-- The character that an escape letter stands for. -/
def escapeValue? : Char → Option Char
  | '"' => some '"'
  | '\\' => some '\\'
  | '/' => some '/'
  | 'b' => some '\x08'
  | 'f' => some '\x0c'
  | 'n' => some '\n'
  | 'r' => some '\r'
  | 't' => some '\t'
  | _ => none

/-- Reads the rest of a quoted text, up to its closing quotation mark. -/
def readQuoted : Nat → Text → Option (Text × Text)
  | 0, _ => none
  | steps + 1, t =>
    match t with
    | [] => none
    | '"' :: rest => some ([], rest)
    | '\\' :: 'u' :: rest => do
      let (code, rest) ← hexCode? rest
      let (code, rest) ←
        if 0xD800 ≤ code ∧ code < 0xDC00 then
          match rest with
          | '\\' :: 'u' :: more => do
            let (low, more) ← hexCode? more
            if 0xDC00 ≤ low ∧ low < 0xE000 then
              pure (0x10000 + (code - 0xD800) * 0x400 + (low - 0xDC00), more)
            else none
          | _ => none
        else pure (code, rest)
      let (cs, rest) ← readQuoted steps rest
      pure (Char.ofNat code :: cs, rest)
    | '\\' :: c :: rest => do
      let c ← escapeValue? c
      let (cs, rest) ← readQuoted steps rest
      pure (c :: cs, rest)
    | c :: rest =>
      if c.toNat < 0x20 then none
      else do
        let (cs, rest) ← readQuoted steps rest
        pure (c :: cs, rest)

/-- The characters that numbers are made of. -/
def isNumberPart (c : Char) : Bool :=
  Decimal.isPlainDigit c || c == '-' || c == '+' || c == '.' || c == 'e' || c == 'E'

/-- Is an unsigned number written without needless zeros in front and with digits on
both sides of its point? -/
def isPlainNumber (t : Text) : Bool :=
  let whole := t.takeWhile Decimal.isPlainDigit
  let rest := t.dropWhile Decimal.isPlainDigit
  !whole.isEmpty && (whole.length == 1 || whole.head? != some '0') &&
    (match rest with
     | '.' :: c :: _ => Decimal.isPlainDigit c
     | '.' :: [] => false
     | _ => true)

/-- Has the number an exponent that makes it a number in the narrow notation too? -/
def isNarrow (t : Text) : Bool :=
  let exponent := t.dropWhile fun c => c != 'e' && c != 'E'
  exponent.isEmpty ||
    (t.contains '.' && (exponent.drop 1).head?.any fun c => c == '-' || c == '+')

/-- The number, or the text, that a run of number characters stands for. -/
def readNumber? (exponents : Exponents) (t : Text) : Option Document :=
  let (negative, unsigned) : Bool × Text := match t with
    | '-' :: rest => (true, rest)
    | other => (false, other)
  if !isPlainNumber unsigned then none
  else if unsigned.all Decimal.isPlainDigit then
    some (.int (Text.withSign negative (digitsValue unsigned)))
  else
    (Decimal.readUnsigned? negative unsigned).map fun d =>
      if exponents = .wide || isNarrow t then .real d.toFloat else .text (String.ofList t)

/-- Reads a word or a number. -/
def readScalar? (exponents : Exponents) (t : Text) : Option (Document × Text) :=
  match Text.after? "null".toList t, Text.after? "true".toList t, Text.after? "false".toList t with
  | some rest, _, _ => some (.null, rest)
  | _, some rest, _ => some (.bool true, rest)
  | _, _, some rest => some (.bool false, rest)
  | none, none, none =>
    (readNumber? exponents (t.takeWhile isNumberPart)).map fun d => (d, t.dropWhile isNumberPart)

mutual

/-- Reads one document and gives what follows it. -/
def readValue (exponents : Exponents) : Nat → Text → Option (Document × Text)
  | 0, _ => none
  | steps + 1, t =>
    match skipGap t with
    | '"' :: rest => do
      let (cs, rest) ← readQuoted (rest.length + 1) rest
      pure (.text (String.ofList cs), rest)
    | '[' :: rest =>
      match skipGap rest with
      | ']' :: rest => some (.list [], rest)
      | other => do
        let (items, rest) ← readItems exponents steps other
        pure (.list items, rest)
    | '{' :: rest =>
      match skipGap rest with
      | '}' :: rest => some (.mapping [], rest)
      | other => do
        let (entries, rest) ← readEntries exponents steps other
        pure (.mapping (Mapping.ofList entries).entries, rest)
    | other => readScalar? exponents other

/-- Reads the items of a list, up to its closing bracket. -/
def readItems (exponents : Exponents) : Nat → Text → Option (List Document × Text)
  | 0, _ => none
  | steps + 1, t => do
    let (item, rest) ← readValue exponents steps t
    match skipGap rest with
    | ',' :: rest => do
      let (items, rest) ← readItems exponents steps rest
      pure (item :: items, rest)
    | ']' :: rest => pure ([item], rest)
    | _ => none

/-- Reads the entries of a mapping, up to its closing brace. -/
def readEntries (exponents : Exponents) : Nat → Text → Option (List (String × Document) × Text)
  | 0, _ => none
  | steps + 1, t =>
    match skipGap t with
    | '"' :: rest => do
      let (key, rest) ← readQuoted (rest.length + 1) rest
      match skipGap rest with
      | ':' :: rest => do
        let (value, rest) ← readValue exponents steps rest
        match skipGap rest with
        | ',' :: rest => do
          let (entries, rest) ← readEntries exponents steps rest
          pure ((String.ofList key, value) :: entries, rest)
        | '}' :: rest => pure ([(String.ofList key, value)], rest)
        | _ => none
      | _ => none
    | _ => none

end

/-- Reads a whole text as a document. -/
def read? (exponents : Exponents) (s : String) : Option Document :=
  let t := s.toList
  if (skipGap t).isEmpty then some .null
  else
    match readValue exponents (t.length + 1) t with
    | some (d, rest) => if (skipGap rest).isEmpty then some d else none
    | none => none

end EventScript.Document
