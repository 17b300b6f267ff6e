set_option autoImplicit false

/-! Numbers that texts write with a fraction or an exponent, kept exactly as written, and
the doubles nearest to them. -/

namespace EventKernel

inductive Decimal where
  /-- `digits * 10 ^ exponent`, negated when `negative`. -/
  | finite (negative : Bool) (digits : Nat) (exponent : Int)
  | infinite (negative : Bool)
  | notANumber
deriving DecidableEq, Repr

namespace Decimal

def infinity : Float := 1 / 0

/-- The double nearest to `digits * 10 ^ exponent`. Far outside the range of doubles the
power is not computed. -/
def magnitude (digits : Nat) (exponent : Int) : Float :=
  let order : Int := (Nat.toDigits 10 digits).length + exponent
  if digits = 0 ∨ order < -400 then 0
  else if 400 < order then infinity
  else if exponent < 0 then Float.ofScientific digits true exponent.natAbs
  else Float.ofScientific digits false exponent.natAbs

def toFloat : Decimal → Float
  | finite negative digits exponent =>
      if negative then -(magnitude digits exponent) else magnitude digits exponent
  | infinite negative => if negative then -infinity else infinity
  | notANumber => 0 / 0

def overflows : Decimal → Bool
  | finite _ digits exponent => (magnitude digits exponent).isInf
  | _ => false

def digitsValue (digits : List Char) : Nat :=
  digits.foldl (fun value digit => value * 10 + (digit.toNat - 0x30)) 0

/-- The number with these digits before and behind the point, and this power of ten. -/
def ofDigits (negative : Bool) (whole fraction : List Char) (power : Int) : Decimal :=
  finite negative (digitsValue (whole ++ fraction)) (power - fraction.length)

end Decimal

end EventKernel
