import EventKernel.Document.Reading
import EventKernel.Text.Lowercase

set_option autoImplicit false

/-! The lenient reading of merged settings. Numbers count as flags, flags as numbers, texts
as either; a number with a fraction is rounded, a half away from zero, and kept within the
64-bit words. -/

namespace EventKernel.Document

def affirmations : List (List Char) := ["true", "on", "yes"].map String.toList

def denials : List (List Char) := ["false", "off", "no"].map String.toList

def lenientFlag : Document → Option Bool
  | flag value => some value
  | integer value => some (value != 0)
  | decimal value => some (value.toFloat != 0)
  | text value =>
      let word := Text.lowercase value.toList
      if (['1'] :: affirmations).contains word then some true
      else if (['0'] :: denials).contains word then some false
      else none
  | _ => none

/-- A number in base ten, which may begin with a plus sign. -/
def readNatural (text : List Char) : Option Nat :=
  let digits := match text with
    | '+' :: rest => rest
    | text => text
  if digits.isEmpty || !digits.all Char.isDigit then none
  else some (Decimal.digitsValue digits)

def lenientNatural : Document → Option Nat
  | flag value => some value.toNat
  | integer (.ofNat value) => some value
  | decimal value => some value.toFloat.round.toUInt64.toNat
  | text value =>
      let word := Text.lowercase value.toList
      if affirmations.contains word then some 1
      else if denials.contains word then some 0
      else readNatural value.toList
  | _ => none

/-- A choice is its name, or a table with one field of that name. -/
def lenientChoice : Document → Option String
  | text name => some name
  | table [(name, _)] => some name
  | _ => none

def lenient : Reading :=
  ⟨lenientFlag, lenientNatural, lenientChoice, fun _ => true, true⟩

end EventKernel.Document
