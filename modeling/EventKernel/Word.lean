set_option autoImplicit false

/-! Sums of 64-bit words. Delays and instants share one fixed width, so a sum either
stops at the largest word or is refused; it never wraps around. -/

namespace EventKernel.Word

def largest : UInt64 := 0xFFFFFFFFFFFFFFFF

def checkedAdd (left right : UInt64) : Option UInt64 :=
  if left.toNat + right.toNat < UInt64.size then some (left + right) else none

/-- The exact sum, or the largest word when the sum does not fit. -/
def saturatingAdd (left right : UInt64) : UInt64 :=
  if left.toNat + right.toNat < UInt64.size then left + right else largest

/-- The distance down to `right`, zero when `right` is larger. -/
def saturatingSub (left right : UInt64) : UInt64 :=
  if right ≤ left then left - right else 0

theorem toNat_largest : largest.toNat = UInt64.size - 1 := rfl

theorem toNat_add_of_lt {left right : UInt64} (fits : left.toNat + right.toNat < UInt64.size) :
    (left + right).toNat = left.toNat + right.toNat := by
  rw [UInt64.toNat_add]
  exact Nat.mod_eq_of_lt fits

theorem toNat_saturatingAdd (left right : UInt64) :
    (saturatingAdd left right).toNat = min (left.toNat + right.toNat) (UInt64.size - 1) := by
  unfold saturatingAdd
  split
  next fits => rw [toNat_add_of_lt fits, Nat.min_eq_left (Nat.le_sub_one_of_lt fits)]
  next exceeds =>
    rw [toNat_largest, Nat.min_eq_right]
    exact Nat.le_trans (Nat.sub_le _ _) (Nat.le_of_not_lt exceeds)

theorem checkedAdd_eq_some_iff {left right sum : UInt64} :
    checkedAdd left right = some sum ↔ left.toNat + right.toNat = sum.toNat := by
  unfold checkedAdd
  have bounded : sum.toNat < UInt64.size := sum.toNat_lt
  split
  next fits =>
    rw [Option.some.injEq, ← UInt64.toNat_inj, toNat_add_of_lt fits]
  next exceeds =>
    constructor
    · intro impossible; cases impossible
    · intro equal; omega

end EventKernel.Word
