import EventKernel.Document.Basic
import EventKernel.Text.Hexadecimal
import EventKernel.Toml.Date

set_option autoImplicit false

/-! Values in TOML that stand without quotation marks: flags, numbers and dates. -/

namespace EventKernel.Toml

/-- Digits, at least one, without the underscores that may stand between two of them. -/
def grouped (isDigit : Char → Bool) : List Char → Option (List Char)
  | [] => none
  | char :: rest =>
      if isDigit char then
        match rest with
        | [] => some [char]
        | '_' :: more => (char :: ·) <$> grouped isDigit more
        | more => (char :: ·) <$> grouped isDigit more
      else none

def wholeDigits (text : List Char) : Option (List Char) :=
  match grouped Char.isDigit text with
  | some ['0'] => some ['0']
  | some ('0' :: _) => none
  | digits? => digits?

def readSign : List Char → Bool × List Char
  | '-' :: rest => (true, rest)
  | '+' :: rest => (false, rest)
  | text => (false, text)

def basedValue? (base : Nat) (text : List Char) : Option Nat := do
  let isDigit (char : Char) : Bool :=
    match Text.hexDigit? char with
    | some digit => digit < base
    | none => false
  let digits ← grouped isDigit text
  let values ← digits.mapM Text.hexDigit?
  return values.foldl (fun value digit => value * base + digit) 0

def wholeNumber? : List Char → Option Int
  | '0' :: 'x' :: rest => Int.ofNat <$> basedValue? 16 rest
  | '0' :: 'o' :: rest => Int.ofNat <$> basedValue? 8 rest
  | '0' :: 'b' :: rest => Int.ofNat <$> basedValue? 2 rest
  | text => do
      let (negative, rest) := readSign text
      let value : Int := Decimal.digitsValue (← wholeDigits rest)
      return if negative then -value else value

def power? (text : List Char) : Option Int := do
  let (negative, rest) := readSign text
  let value : Int := Decimal.digitsValue (← grouped Char.isDigit rest)
  return if negative then -value else value

def splitExponent (text : List Char) : List Char × Option (List Char) :=
  let isMark (char : Char) : Bool := char == 'e' || char == 'E'
  match text.dropWhile fun char => !isMark char with
  | [] => (text, none)
  | _ :: power => (text.takeWhile fun char => !isMark char, some power)

/-- A number with a fraction, an exponent or both, or one that is not finite. -/
def fractional? (text : List Char) : Option Decimal := do
  let (negative, rest) := readSign text
  if rest = ['i', 'n', 'f'] then return .infinite negative
  if rest = ['n', 'a', 'n'] then return .notANumber
  let (mantissa, exponent?) := splitExponent rest
  let power ← match exponent? with
    | none => some 0
    | some exponent => power? exponent
  let whole ← wholeDigits (mantissa.takeWhile (· != '.'))
  match mantissa.dropWhile (· != '.') with
  | [] => if exponent?.isSome then return .ofDigits negative whole [] power else none
  | _ :: fraction =>
      return .ofDigits negative whole (← grouped Char.isDigit fraction) power

def isBounded (value : Int) : Bool :=
  decide (-0x80000000000000000000000000000000 ≤ value) &&
    decide (value < 0x100000000000000000000000000000000)

/-- Whether a text names a base, and no digits follow. -/
def isBaseAlone (text : List Char) : Bool :=
  text == ['0', 'x'] || text == ['0', 'o'] || text == ['0', 'b']

/-- The value of an unquoted text. Numbers out of bounds are garbled, and so are those that
name a base and have no digits. -/
def scalarValue? (text : List Char) : Option Document :=
  if text = ['t', 'r', 'u', 'e'] then some (.flag true)
  else if text = ['f', 'a', 'l', 's', 'e'] then some (.flag false)
  else if isBaseAlone text then some .garbled
  else match wholeNumber? text with
    | some value => some (if isBounded value then .integer value else .garbled)
    | none =>
        match fractional? text with
        | some value => some (if value.overflows then .garbled else .decimal value)
        | none => if isDate text then some (.date (String.ofList text)) else none

def isScalarChar (char : Char) : Bool :=
  char.isAlphanum || char == '_' || char == '+' || char == '-' || char == '.' || char == ':'

/-- The unquoted text that begins here. A date takes a time of day along that one space
divides from it. -/
def takeScalar (text : List Char) : List Char × List Char :=
  let first := text.takeWhile isScalarChar
  let rest := text.dropWhile isScalarChar
  match afterDate? first, rest with
  | some [], ' ' :: next :: more =>
      if next.isDigit then
        (first ++ ' ' :: (next :: more).takeWhile isScalarChar,
          (next :: more).dropWhile isScalarChar)
      else (first, rest)
  | _, _ => (first, rest)

def readScalar (text : List Char) : Option (Document × List Char) :=
  let (scalar, rest) := takeScalar text
  (·, rest) <$> scalarValue? scalar

end EventKernel.Toml
