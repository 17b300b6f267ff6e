set_option autoImplicit false

/-! 64-bit numbers in base sixteen. A number may begin with `0x` or `0X` and then with one
plus sign. Of an invalid digit and a value too large, the one met first is reported. -/

namespace EventKernel.Text

inductive NumberError where
  | empty
  | invalidDigit
  | tooLarge
deriving DecidableEq, Repr

def NumberError.message : NumberError → String
  | empty => "cannot parse integer from empty string"
  | invalidDigit => "invalid digit found in string"
  | tooLarge => "number too large to fit in target type"

def hexDigit? (char : Char) : Option Nat :=
  let code := char.toNat
  if 0x30 ≤ code ∧ code ≤ 0x39 then some (code - 0x30)
  else if 0x41 ≤ code ∧ code ≤ 0x46 then some (code - 0x41 + 10)
  else if 0x61 ≤ code ∧ code ≤ 0x66 then some (code - 0x61 + 10)
  else none

/-- Reads digits, the most significant first, behind those that gave `value`. -/
def hexValue (value : Nat) : List Char → Except NumberError Nat
  | [] => .ok value
  | char :: rest =>
      match hexDigit? char with
      | none => .error .invalidDigit
      | some digit =>
          if value * 16 + digit < UInt64.size then hexValue (value * 16 + digit) rest
          else .error .tooLarge

def dropBaseMark : List Char → List Char
  | '0' :: 'x' :: rest => rest
  | '0' :: 'X' :: rest => rest
  | text => text

def readHex (text : List Char) : Except NumberError UInt64 :=
  match dropBaseMark text with
  | [] => .error .empty
  | ['+'] => .error .invalidDigit
  | '+' :: digits => Nat.toUInt64 <$> hexValue 0 digits
  | digits => Nat.toUInt64 <$> hexValue 0 digits

def showHex (number : Nat) : String := String.ofList (Nat.toDigits 16 number)

end EventKernel.Text
