import EventKernel.Document.Basic

set_option autoImplicit false

/-! Documents as JSON texts without spaces. Quotation marks, backslashes and control characters are
escaped, everything else is written as it is. -/

namespace EventKernel.Json

/-- A control character by its number, in four digits. -/
def writeNumber (code : Nat) : List Char :=
  ['\\', 'u', '0', '0', Nat.digitChar (code / 16), Nat.digitChar (code % 16)]

/-- The letter that stands for a character behind a backslash. -/
def shortMark? (char : Char) : Option Char :=
  match char with
  | '"' => some '"'
  | '\\' => some '\\'
  | '\x08' => some 'b'
  | '\x0c' => some 'f'
  | '\n' => some 'n'
  | '\r' => some 'r'
  | '\t' => some 't'
  | _ => none

def writeChar (char : Char) : List Char :=
  match shortMark? char with
  | some letter => ['\\', letter]
  | none => if char.toNat < 0x20 then writeNumber char.toNat else [char]

/-- A text and its closing quotation mark. -/
def writeRest (text : List Char) : List Char := text.flatMap writeChar ++ ['"']

def writeString (text : String) : List Char := '"' :: writeRest text.toList

def writeInteger : Int → List Char
  | .ofNat value => Nat.toDigits 10 value
  | .negSucc value => '-' :: Nat.toDigits 10 (value + 1)

mutual

/-- Nothing that is written this way has a fraction, is a date or is garbled; such values are
written as null. -/
def write : Document → List Char
  | .flag true => ['t', 'r', 'u', 'e']
  | .flag false => ['f', 'a', 'l', 's', 'e']
  | .integer value => writeInteger value
  | .text value => writeString value
  | .list items => '[' :: (writeItems items ++ [']'])
  | .table fields => '\x7b' :: (writeFields fields ++ ['\x7d'])
  | _ => ['n', 'u', 'l', 'l']

def writeItems : List Document → List Char
  | [] => []
  | [item] => write item
  | item :: rest => write item ++ ',' :: writeItems rest

def writeFields : List (String × Document) → List Char
  | [] => []
  | [(name, value)] => writeString name ++ ':' :: write value
  | (name, value) :: rest => writeString name ++ ':' :: (write value ++ ',' :: writeFields rest)

end

end EventKernel.Json
