import EventKernel.Coverage.Range

set_option autoImplicit false

/-! How much of the space of explored values a list of ranges covers. Consecutive ranges
belong to one path, one for each symbolic value; a path covers the product of its widths.
Counts stop at the largest 128-bit number. -/

namespace EventKernel.Coverage

def countLimit : Nat := 0xFFFFFFFFFFFFFFFFFFFFFFFFFFFFFFFF

/-- The number of values in a range; a reversed range counts as one value. -/
def Range.width (range : Range) : Nat := range.high.toNat - range.low.toNat + 1

/-- Cuts a list into groups of a length; what is left at the end is dropped. -/
def completeGroups {α : Type} (length : Nat) (items : List α) : List (List α) :=
  if _fits : 0 < length ∧ length ≤ items.length then
    items.take length :: completeGroups length (items.drop length)
  else []
termination_by items.length
decreasing_by simp only [List.length_drop]; omega

def pathCount (path : List Range) : Nat :=
  path.foldl (fun count range => min (count * range.width) countLimit) 1

def coveredCount (paths : List (List Range)) : Nat :=
  paths.foldl (fun count path => min (count + pathCount path) countLimit) 0

/-- A power by repeated squaring, times `result`. -/
def powerTimes (result base : Float) (exponent : Nat) : Float :=
  let result := if exponent % 2 = 1 then result * base else result
  if h : exponent / 2 = 0 then result else powerTimes result (base * base) (exponent / 2)
termination_by exponent
decreasing_by omega

/-- The largest exponent that is used; larger ones count as this one. -/
def exponentLimit : Nat := 0x7FFFFFFF

structure Report where
  /-- Value tuples covered, summed over paths. -/
  covered : Nat
  paths : Nat
  /-- The part of all value tuples that is covered. -/
  fraction : Float

def nearestFloat (number : Nat) : Float := Float.ofScientific number false 0

/-- Counts what ranges cover, where each path has `symbols` of them and each value lies
between zero and `interval`. -/
def analyze (ranges : List Range) (symbols : Nat) (interval : UInt64) : Report :=
  if symbols = 0 then ⟨0, 0, 0⟩
  else
    let paths := completeGroups symbols ranges
    let covered := coveredCount paths
    let space := powerTimes 1 (nearestFloat interval.toNat + 1) (min symbols exponentLimit)
    ⟨covered, paths.length, nearestFloat covered / space⟩

end EventKernel.Coverage
