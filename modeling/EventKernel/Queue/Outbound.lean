import EventKernel.Event.Basic

set_option autoImplicit false

/-! Messages on their way to one lane, in removal order, each with the lane that holds it.
All keys of one index belong to the same destination, so instant and serial number tell
them apart. -/

namespace EventKernel.Queue

structure Outbound where
  parcels : List (EventKey × Nat)
deriving DecidableEq, Repr

namespace Outbound

def empty : Outbound := ⟨[]⟩

def place (key : EventKey) (lane : Nat) : List (EventKey × Nat) → List (EventKey × Nat)
  | [] => [(key, lane)]
  | (other, held) :: rest =>
      if key.Precedes other then (key, lane) :: (other, held) :: rest
      else if other.Precedes key then (other, held) :: place key lane rest
      else (other, lane) :: rest

def insert (outbound : Outbound) (key : EventKey) (lane : Nat) : Outbound :=
  ⟨place key lane outbound.parcels⟩

def first? (outbound : Outbound) : Option EventKey := outbound.parcels.head?.map Prod.fst

def holder? (outbound : Outbound) (key : EventKey) : Option Nat :=
  (outbound.parcels.find? fun parcel => parcel.1 == key).map Prod.snd

def erase (outbound : Outbound) (key : EventKey) : Outbound :=
  ⟨outbound.parcels.eraseP fun parcel => parcel.1 == key⟩

end Outbound

end EventKernel.Queue
