import EventKernel.Fault

set_option autoImplicit false

/-! Messages that have reached an entity and have not been consumed yet, counted for each
sender. An entity may send once it holds at least one from each of its interfaces. -/

namespace EventKernel.Queue

structure CreditTable where
  /-- The neighbours that each entity waits for. -/
  interfaces : List (List Nat)
  /-- One row per destination, one column per sender. -/
  inbound : List (List Nat)
deriving DecidableEq, Repr

namespace CreditTable

/-- One past the largest count a cell can hold. -/
def countLimit : Nat := UInt32.size

/-- A table without credit. Interfaces may be listed for the first entities only. -/
def new (entities : Nat) (interfaces : List (List NodeId)) : Except Fault CreditTable :=
  if interfaces.length ≤ entities then
    .ok {
      interfaces := interfaces.map (·.map NodeId.index) ++
        List.replicate (entities - interfaces.length) []
      inbound := List.replicate entities (List.replicate entities 0) }
  else .error .indexOutOfRange

def credit (table : CreditTable) (dest sender : Nat) : Except Fault Nat :=
  match table.inbound[dest]? >>= (·[sender]?) with
  | some count => .ok count
  | none => .error .indexOutOfRange

def put (table : CreditTable) (dest sender count : Nat) : CreditTable :=
  { table with inbound := table.inbound.modify dest (·.set sender count) }

def deliver (table : CreditTable) (dest sender : Nat) : Except Fault CreditTable := do
  let count ← table.credit dest sender
  if count + 1 < countLimit then return table.put dest sender (count + 1)
  else .error .arithmeticOverflow

/-- Discounts a message that was consumed; no count goes below zero. -/
def consume (table : CreditTable) (dest sender : Nat) : Except Fault CreditTable := do
  let count ← table.credit dest sender
  return table.put dest sender (count - 1)

/-- Whether an entity holds credit from every sender of a list; the first without decides. -/
def holdsFrom (table : CreditTable) (node : Nat) : List Nat → Except Fault Bool
  | [] => .ok true
  | sender :: rest => do
      let count ← table.credit node sender
      if 0 < count then table.holdsFrom node rest else return false

def maySend (table : CreditTable) (node : Nat) : Except Fault Bool :=
  match table.interfaces[node]? with
  | some senders => table.holdsFrom node senders
  | none => .error .indexOutOfRange

end CreditTable

end EventKernel.Queue
