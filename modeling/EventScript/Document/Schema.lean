/-
Decoders for scalars, containers and records.

Scalars are read generously where nothing is lost: a whole number may be written as a
text or with a zero fraction, a truth value as a word or as 0 or 1.
-/
import EventScript.Document.Checked
import EventScript.Decimal.Reading
import EventScript.Decimal.Shape

namespace EventScript

namespace Decoder

variable {α : Type}

/-! ### Scalars -/

/-- Reads a text. -/
def text : Decoder String
  | .text s => .ok s
  | _ => .fault .notText

/-- Drops a decimal point with nothing but zeros after it. -/
def dropZeroFraction (t : Text) : Text :=
  let whole := t.takeWhile (· != '.')
  let fraction := t.dropWhile (· != '.')
  if fraction.drop 1 |>.all (· == '0') then whole else t

/-- Reads a whole number written in digits `0` to `9`, with single underscores between
digits, white space around it and a zero fraction allowed. -/
def integerText? (s : String) : Option Int :=
  let (negative, digits) := Text.readSign (dropZeroFraction (Text.trimMargin s.toList))
  let digits := Text.joinDigits Decimal.isPlainDigit digits
  if !digits.isEmpty && digits.all Decimal.isPlainDigit then
    some (Text.withSign negative (digitsValue digits))
  else none

/-- Reads a whole number. -/
def integer : Decoder Int
  | .int n => .ok n
  | .bool b => .ok (if b then 1 else 0)
  | .real x =>
    match FloatShape.of x with
    | .finite negative mantissa exponent =>
      let shape := FloatShape.finite negative mantissa exponent
      if shape.isWhole then .ok shape.toInt else .fault .fractionalInteger
    | _ => .fault .infiniteInteger
  | .text s =>
    match integerText? s with
    | some n => .ok n
    | none => .fault .unreadableInteger
  | _ => .fault .notInteger

/-- Reads a number written as a text, with white space around it or single underscores
in it allowed. -/
def numberText? (s : String) : Option Float :=
  match readFloat? (Text.trimMargin s.toList) with
  | some x => some x
  | none =>
    let t := s.toList
    if t.head? = some '_' ∨ t.getLast? = some '_' then none
    else if (t.zip (t.drop 1)).any fun p => p == ('_', '_') then none
    else readFloat? (t.filter (· != '_'))

/-- Reads a number. -/
def number : Decoder Float
  | .real x => .ok x
  | .int n => .ok (Float.ofInt n)
  | .bool b => .ok (if b then 1 else 0)
  | .text s =>
    match numberText? s with
    | some x => .ok x
    | none => .fault .unreadableNumber
  | _ => .fault .notNumber

/-- Reads a number that may not lie outside two bounds. -/
def numberBetween (low high : Float) : Decoder Float := fun d =>
  match number d with
  | .ok x =>
    if high < x then .fault .tooGreat else if x < low then .fault .tooSmall else .ok x
  | other => other

/-- Reads a whole number that may not lie below a bound. -/
def integerFrom (low : Int) : Decoder Int := fun d =>
  match integer d with
  | .ok n => if n < low then .fault .tooSmall else .ok n
  | other => other

/-- The words for true and for false. -/
def trueWords : List String := ["1", "t", "true", "y", "yes", "on"]

@[inherit_doc trueWords]
def falseWords : List String := ["0", "f", "false", "n", "no", "off"]

/-- Reads a truth value. -/
def boolean : Decoder Bool
  | .bool b => .ok b
  | .int n => if n = 0 then .ok false else if n = 1 then .ok true else .fault .unreadableBoolean
  | .real x =>
    if x == 0 then .ok false else if x == 1 then .ok true
    else if (FloatShape.of x).isWhole then .fault .unreadableBoolean
    else .fault .notBoolean
  | .text s =>
    let word := String.ofList (lowerPlain s.toList)
    if trueWords.contains word then .ok true
    else if falseWords.contains word then .ok false
    else .fault .unreadableBoolean
  | _ => .fault .notBoolean

/-- Reads one of several words. -/
def word (read : String → Option α) : Decoder α
  | .text s =>
    match read s with
    | some a => .ok a
    | none => .fault .notAmongWords
  | _ => .fault .notAmongWords

/-! ### Containers -/

/-- Null is nothing, and anything else is read. -/
def optional (read : Decoder α) : Decoder (Option α)
  | .null => .ok none
  | d => some <$> read d

/-- Reads all items, each under its position. -/
def items (read : Decoder α) (ds : List Document) : Checked (List α) :=
  .sequence (ds.zipIdx.map fun p => (read p.1).under (toString p.2))

/-- Reads a list. -/
def list (read : Decoder α) : Decoder (List α)
  | .list ds => items read ds
  | _ => .fault .notList

/-- Reads a list whose fault has a name of its own. -/
def sequence (read : Decoder α) : Decoder (List α)
  | .list ds => items read ds
  | _ => .fault .notSequence

/-- Reads the values of a mapping, each under its key. -/
def mapping (read : Decoder α) : Decoder (Mapping α)
  | .mapping entries =>
    Mapping.ofList <$> .sequence (entries.map fun p =>
      ((fun a => (p.1, a)) <$> read p.2).under p.1)
  | _ => .fault .notMapping

/-- Reads a mapping whose keys come on top of a mapping of defaults. An empty document
adds nothing to them. -/
def mergedInto (defaults : Mapping Document) (read : Decoder α) : Decoder (Mapping α) := fun d =>
  if d.isEmpty then mapping read (.mapping defaults.entries)
  else
    match d with
    | .mapping entries => mapping read (.mapping (defaults.merge ⟨entries⟩).entries)
    | _ => .fault .notMergeable

/-! ### Records -/

/-- Reads the entries of a record. -/
def record (read : Mapping Document → Checked α) : Decoder α
  | .mapping entries => read ⟨entries⟩
  | _ => .fault .notRecord

/-- A field under the first of its two names that the record has. -/
def lookupField (r : Mapping Document) (favoured name : String) : Option (String × Document) :=
  match r.get? favoured with
  | some d => some (favoured, d)
  | none => (r.get? name).map fun d => (name, d)

/-- Reads a field that must be there. -/
def required (r : Mapping Document) (favoured name : String) (read : Decoder α) : Checked α :=
  match lookupField r favoured name with
  | some (key, d) => (read d).under key
  | none => (Checked.fault .missing).under favoured

/-- Reads a field that has a default. -/
def withDefault (r : Mapping Document) (favoured name : String) (default : α) (read : Decoder α) :
    Checked α :=
  match lookupField r favoured name with
  | some (key, d) => (read d).under key
  | none => .ok default

end Decoder

end EventScript
