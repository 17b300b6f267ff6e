set_option autoImplicit false

/-! Reproducible random words. A seed is expanded by PCG32 into the state of a
xoshiro256++ generator; numbers below a bound are drawn by widening multiplication, and
draws that would favour some numbers are rejected. -/

namespace EventKernel.Exploration

structure Generator where
  s0 : UInt64
  s1 : UInt64
  s2 : UInt64
  s3 : UInt64
deriving DecidableEq, Repr, Inhabited

namespace Generator

def rotateLeft (word amount : UInt64) : UInt64 :=
  (word <<< amount) ||| (word >>> (64 - amount))

def rotateRight32 (word amount : UInt32) : UInt32 :=
  (word >>> amount) ||| (word <<< (32 - amount))

/-- One step of a PCG32 generator: the state advances linearly, and the output is a word of
its bits, rotated by the five highest. -/
def expand (state : UInt64) : UInt32 × UInt64 :=
  let state := state * 6364136223846793005 + 11634580027462260723
  let folded := (((state >>> 18) ^^^ state) >>> 27).toUInt32
  (rotateRight32 folded (state >>> 59).toUInt32, state)

/-- Two steps as one word, the first output lowest. -/
def expandWord (state : UInt64) : UInt64 × UInt64 :=
  let (low, state) := expand state
  let (high, state) := expand state
  ((high.toUInt64 <<< 32) ||| low.toUInt64, state)

/-- The generator whose state is the expansion of a seed to four words. -/
def ofSeed (seed : UInt64) : Generator :=
  let (s0, state) := expandWord seed
  let (s1, state) := expandWord state
  let (s2, state) := expandWord state
  let (s3, _) := expandWord state
  ⟨s0, s1, s2, s3⟩

def next (generator : Generator) : UInt64 × Generator :=
  let ⟨s0, s1, s2, s3⟩ := generator
  let output := rotateLeft (s0 + s3) 23 + s0
  let shifted := s1 <<< 17
  let s2 := s2 ^^^ s0
  let s3 := s3 ^^^ s1
  let s1 := s1 ^^^ s2
  let s0 := s0 ^^^ s3
  let s2 := s2 ^^^ shifted
  (output, ⟨s0, s1, s2, rotateLeft s3 45⟩)

/-- The largest low half of a product that is accepted for numbers below `bound`. -/
def zone (bound : Nat) : Nat :=
  (bound <<< (63 - bound.log2)) - 1

/-- Draws a number below `bound`; at most the given number of draws are rejected. -/
def drawBelow (bound : Nat) : Nat → Generator → UInt64 × Generator
  | 0, generator =>
      let (word, generator) := generator.next
      ((word.toNat * bound / UInt64.size).toUInt64, generator)
  | rejections + 1, generator =>
      let (word, following) := generator.next
      let product := word.toNat * bound
      if product % UInt64.size ≤ zone bound then ((product / UInt64.size).toUInt64, following)
      else drawBelow bound rejections following

/-- The rejections allowed for one draw. Each has a chance below one half, so no draw comes
near this number. -/
def rejectionLimit : Nat := 0x100000

def drawUpTo (largest : UInt64) (generator : Generator) : UInt64 × Generator :=
  if largest.toNat + 1 = UInt64.size then generator.next
  else drawBelow (largest.toNat + 1) rejectionLimit generator

end Generator

end EventKernel.Exploration
