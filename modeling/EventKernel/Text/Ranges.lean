set_option autoImplicit false

/-! Sets of code points, given as inclusive ranges. -/

namespace EventKernel.Text

def inRanges (ranges : List (Nat × Nat)) (number : Nat) : Bool :=
  ranges.any fun (first, last) => decide (first ≤ number) && decide (number ≤ last)

end EventKernel.Text
