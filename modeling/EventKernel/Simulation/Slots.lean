import EventKernel.Event.Key

set_option autoImplicit false

/-! The callbacks of queued events, by serial number. A callback is kept apart from its
event, so that it can be taken out only once. -/

namespace EventKernel

/-- The work of an event: what its owner gave it, or the order to stop the run. -/
inductive Callback (β : Type) where
  | user (work : β)
  | stop
deriving DecidableEq, Repr

inductive Slot (β : Type) where
  | armed (callback : Callback β)
  /-- The event was cancelled but stays in the queue. -/
  | cancelled
deriving DecidableEq, Repr

/-- Serial numbers with their slots; each number occurs once. -/
structure Slots (β : Type) where
  items : List (EventUid × Slot β)
deriving DecidableEq, Repr

namespace Slots

variable {β : Type}

def empty : Slots β := ⟨[]⟩

def find? (slots : Slots β) (uid : EventUid) : Option (Slot β) := slots.items.lookup uid

def replace (uid : EventUid) (slot : Slot β) :
    List (EventUid × Slot β) → List (EventUid × Slot β)
  | [] => [(uid, slot)]
  | (other, held) :: rest =>
      if other = uid then (uid, slot) :: rest else (other, held) :: replace uid slot rest

def insert (slots : Slots β) (uid : EventUid) (slot : Slot β) : Slots β :=
  ⟨replace uid slot slots.items⟩

def erase (slots : Slots β) (uid : EventUid) : Slots β :=
  ⟨slots.items.filter fun item => item.1 != uid⟩

def size (slots : Slots β) : Nat := slots.items.length

end Slots

end EventKernel
