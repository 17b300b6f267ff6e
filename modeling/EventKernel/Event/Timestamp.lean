import EventKernel.Word

set_option autoImplicit false

/-! Simulated instants, counted from the origin in the simulation's unit of time. -/

namespace EventKernel

structure Timestamp where
  value : UInt64
deriving DecidableEq, Repr, Inhabited

namespace Timestamp

instance : LT Timestamp := ⟨fun earlier later => earlier.value < later.value⟩
instance : LE Timestamp := ⟨fun earlier later => earlier.value ≤ later.value⟩

instance (left right : Timestamp) : Decidable (left < right) :=
  inferInstanceAs (Decidable (left.value < right.value))

instance (left right : Timestamp) : Decidable (left ≤ right) :=
  inferInstanceAs (Decidable (left.value ≤ right.value))

instance : ToString Timestamp := ⟨fun instant => toString instant.value.toNat⟩

def zero : Timestamp := ⟨0⟩

/-- The last instant; it stands for "never" where a bound is unreachable. -/
def last : Timestamp := ⟨Word.largest⟩

def checkedAdd (instant : Timestamp) (delay : UInt64) : Option Timestamp :=
  (Word.checkedAdd instant.value delay).map Timestamp.mk

/-- The instant `delay` later, or the last instant when that lies beyond it. -/
def saturatingAdd (instant : Timestamp) (delay : UInt64) : Timestamp :=
  ⟨Word.saturatingAdd instant.value delay⟩

/-- The time passed since `earlier`, zero when `earlier` lies ahead. -/
def since (instant earlier : Timestamp) : UInt64 :=
  Word.saturatingSub instant.value earlier.value

theorem lt_iff_toNat {left right : Timestamp} :
    left < right ↔ left.value.toNat < right.value.toNat := UInt64.lt_iff_toNat_lt

theorem le_iff_toNat {left right : Timestamp} :
    left ≤ right ↔ left.value.toNat ≤ right.value.toNat := UInt64.le_iff_toNat_le

end Timestamp

end EventKernel
