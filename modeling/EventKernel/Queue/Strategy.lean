import EventKernel.Event.Basic

set_option autoImplicit false

/-! The strategies of the queue, and what they mean for one sorted list: the comparison
used by insertion, whether barriers hold insertions back, and whether an insertion looks
at the tail before it scans. -/

namespace EventKernel.Queue

/-- How an insertion decides that a new event goes before an existing one. -/
inductive Comparison where
  | lexicographic
  /-- Serial numbers first, then one comparison of instants whose strictness depends on them. -/
  | twoBranch
deriving DecidableEq, Repr, Inhabited

namespace Comparison

def sortsBefore (comparison : Comparison) (new existing : EventKey) : Bool :=
  match comparison with
  | lexicographic => new.Precedes existing
  | twoBranch =>
      if new.uid < existing.uid then new.ts ≤ existing.ts else new.ts < existing.ts

end Comparison

/-- Which strategies are active. The credit rule refines local lists. -/
structure Strategies where
  pathReduction : Bool
  removeCancelled : Bool
  waitingList : Bool
  localLists : Bool
  localListsV2 : Bool
deriving DecidableEq, Repr, Inhabited

namespace Strategies

/-- One list; cancelled events are removed at once. -/
def plain : Strategies := ⟨false, true, false, false, false⟩

def all : Strategies := ⟨true, true, true, true, true⟩

/-- The set whose members are the bits of a number, least significant first. -/
def ofBits (bits : Nat) : Strategies :=
  ⟨bits.testBit 0, bits.testBit 1, bits.testBit 2, bits.testBit 3, bits.testBit 4⟩

def combinations : List Strategies :=
  (List.range 16).map ofBits

def withCredits (strategies : Strategies) : Strategies :=
  { strategies with localLists := true, localListsV2 := true }

end Strategies

structure ListPolicy where
  comparison : Comparison
  /-- Barriers past the front hold insertions back. -/
  waitingList : Bool
  /-- An insertion that belongs at the tail does not scan. -/
  tailFastPath : Bool
deriving DecidableEq, Repr, Inhabited

namespace ListPolicy

def ofStrategies (strategies : Strategies) : ListPolicy where
  comparison := if strategies.pathReduction then .twoBranch else .lexicographic
  waitingList := strategies.waitingList
  tailFastPath := strategies.pathReduction

end ListPolicy

end EventKernel.Queue
