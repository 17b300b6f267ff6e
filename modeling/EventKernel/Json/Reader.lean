import EventKernel.Document.Basic
import EventKernel.Document.Reading
import EventKernel.Json.Text

set_option autoImplicit false

/-! JSON texts as documents. A number is an integer only without fraction and exponent,
and negative zero is none. -/

namespace EventKernel.Json

def isSpace (char : Char) : Bool :=
  char == ' ' || char == '\t' || char == '\n' || char == '\r'

def skipSpace (text : List Char) : List Char := text.dropWhile isSpace

def readDigits (text : List Char) : Option (List Char × List Char) :=
  match text.takeWhile Char.isDigit with
  | [] => none
  | digits => some (digits, text.dropWhile Char.isDigit)

def readWhole : List Char → Option (List Char × List Char)
  | '0' :: rest => some (['0'], rest)
  | text => readDigits text

def readFraction : List Char → Option (List Char × List Char)
  | '.' :: rest => readDigits rest
  | text => some ([], text)

def readPower (negative : Bool) (text : List Char) : Option (Option Int × List Char) := do
  let (digits, rest) ← readDigits text
  let value : Int := Decimal.digitsValue digits
  return (some (if negative then -value else value), rest)

def readExponent : List Char → Option (Option Int × List Char)
  | mark :: rest =>
      if mark = 'e' ∨ mark = 'E' then
        match rest with
        | '+' :: digits => readPower false digits
        | '-' :: digits => readPower true digits
        | digits => readPower false digits
      else some (none, mark :: rest)
  | [] => some (none, [])

def readMagnitude (negative : Bool) (text : List Char) : Option (Document × List Char) := do
  let (whole, rest) ← readWhole text
  let (fraction, rest) ← readFraction rest
  let (power?, rest) ← readExponent rest
  let value : Int := Decimal.digitsValue whole
  if fraction.isEmpty && power?.isNone && !(negative && value == 0) then
    return (.integer (if negative then -value else value), rest)
  else return (.decimal (.ofDigits negative whole fraction (power?.getD 0)), rest)

/-- A text behind its opening quotation mark, if it stands for characters. -/
def readString (text : List Char) : Option (Option String × List Char) := do
  let (units, rest) ← readUnits text
  return (String.ofList <$> joinSurrogates units, rest)

def readPlain (first : Char) (rest : List Char) : Option (Document × List Char) :=
  match first, rest with
  | 'n', 'u' :: 'l' :: 'l' :: rest => some (.null, rest)
  | 't', 'r' :: 'u' :: 'e' :: rest => some (.flag true, rest)
  | 'f', 'a' :: 'l' :: 's' :: 'e' :: rest => some (.flag false, rest)
  | '"', rest => do
      let (text?, rest) ← readString rest
      match text? with
      | some text => return (.text text, rest)
      | none => return (.garbled, rest)
  | '-', rest => readMagnitude true rest
  | first, rest => readMagnitude false (first :: rest)

/-- The table with fields under the names that were read; a table with an unreadable name
is garbled. -/
def tableOf (fields : List (Option String × Document)) : Document :=
  match fields.mapM fun (name?, value) => (·, value) <$> name? with
  | some fields => .table fields
  | none => .garbled

mutual

/-- A value. The number bounds the nesting and the count of the values within. -/
def readValue : Nat → List Char → Option (Document × List Char)
  | 0, _ => none
  | fuel + 1, text =>
      match skipSpace text with
      | [] => none
      | '[' :: rest =>
          match skipSpace rest with
          | ']' :: rest => some (.list [], rest)
          | rest => do
              let (items, rest) ← readItems fuel rest
              return (.list items, rest)
      | '\x7b' :: rest =>
          match skipSpace rest with
          | '\x7d' :: rest => some (.table [], rest)
          | rest => do
              let (fields, rest) ← readFields fuel rest
              return (tableOf fields, rest)
      | first :: rest => readPlain first rest

def readItems : Nat → List Char → Option (List Document × List Char)
  | 0, _ => none
  | fuel + 1, text => do
      let (item, rest) ← readValue fuel text
      match skipSpace rest with
      | ',' :: rest =>
          let (items, rest) ← readItems fuel rest
          return (item :: items, rest)
      | ']' :: rest => return ([item], rest)
      | _ => none

def readFields : Nat → List Char → Option (List (Option String × Document) × List Char)
  | 0, _ => none
  | fuel + 1, text =>
      match skipSpace text with
      | '"' :: rest => do
          let (name?, rest) ← readString rest
          match skipSpace rest with
          | ':' :: rest =>
              let (value, rest) ← readValue fuel rest
              match skipSpace rest with
              | ',' :: rest =>
                  let (fields, rest) ← readFields fuel rest
                  return ((name?, value) :: fields, rest)
              | '\x7d' :: rest => return ([(name?, value)], rest)
              | _ => none
          | _ => none
      | _ => none

end

def read (text : List Char) : Option Document := do
  let (value, rest) ← readValue (text.length + 1) text
  if (skipSpace rest).isEmpty then return value else none

/-- A choice without content is its name, or a table that holds null under it. -/
def choice : Document → Option String
  | .text name => some name
  | .table [(name, .null)] => some name
  | _ => none

/-- Values are of the kind that is asked for, and nothing is asked of those under unknown
names. -/
def reading : Document.Reading :=
  ⟨Document.strictFlag, Document.strictNatural, choice, fun _ => true, false⟩

end EventKernel.Json
