import EventKernel.Document.Basic
import EventKernel.Text.Lowercase

set_option autoImplicit false

/-! Settings from environment variables. The name of a variable, in lower case and without
the label that such variables share, is a path whose dots are written as two underscores.
Its value is a flag, a whole number, any other number, or else a text. -/

namespace EventKernel.Environment

def dropBeginning? : List Char → List Char → Option (List Char)
  | [], text => some text
  | char :: beginning, next :: text =>
      if char = next then dropBeginning? beginning text else none
  | _, [] => none

def dotted : List Char → List Char
  | '_' :: '_' :: rest => '.' :: dotted rest
  | char :: rest => char :: dotted rest
  | [] => []

/-- The path that a variable sets, if its name carries the label. -/
def path? (label name : String) : Option String :=
  let beginning := Text.lowercase (label.toList ++ ['_'])
  (dropBeginning? beginning (Text.lowercase name.toList)).map fun rest =>
    String.ofList (dotted rest)

def readSign : List Char → Bool × List Char
  | '-' :: rest => (true, rest)
  | '+' :: rest => (false, rest)
  | text => (false, text)

def wholeNumber? (text : List Char) : Option Int :=
  let (negative, digits) := readSign text
  if digits.isEmpty || !digits.all Char.isDigit then none
  else
    let value : Int := Decimal.digitsValue digits
    let value := if negative then -value else value
    if Document.isSignedWord value then some value else none

/-- The digits of a mantissa before and behind the point, at least one in all. -/
def mantissa? (text : List Char) : Option (List Char × List Char) :=
  let whole := text.takeWhile Char.isDigit
  let fraction? := match text.dropWhile Char.isDigit with
    | [] => some []
    | '.' :: fraction => if fraction.all Char.isDigit then some fraction else none
    | _ => none
  match fraction? with
  | some fraction => if whole.isEmpty && fraction.isEmpty then none else some (whole, fraction)
  | none => none

def power? (text : List Char) : Option Int :=
  let (negative, digits) := readSign text
  if digits.isEmpty || !digits.all Char.isDigit then none
  else
    let value : Int := Decimal.digitsValue digits
    some (if negative then -value else value)

/-- Any number: with a point, with an exponent, or one that is not finite. -/
def number? (text : List Char) : Option Decimal := do
  let (negative, rest) := readSign text
  let word := rest.map Char.toLower
  if word = "inf".toList ∨ word = "infinity".toList then return .infinite negative
  if word = "nan".toList then return .notANumber
  let isMark (char : Char) : Bool := char == 'e' || char == 'E'
  let (whole, fraction) ← mantissa? (rest.takeWhile fun char => !isMark char)
  let power ← match rest.dropWhile fun char => !isMark char with
    | [] => some 0
    | _ :: exponent => power? exponent
  return .ofDigits negative whole fraction power

def value (text : String) : Document :=
  let chars := text.toList
  let word := Text.lowercase chars
  if word = "true".toList then .flag true
  else if word = "false".toList then .flag false
  else match wholeNumber? chars with
    | some number => .integer number
    | none =>
        match number? chars with
        | some number => .decimal number
        | none => .text text

end EventKernel.Environment
