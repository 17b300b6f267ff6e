import EventKernel.Fault
import EventKernel.Queue.Strategy

set_option autoImplicit false

/-! One list of events in removal order. Under the waiting-list policy a Timeout past the
front is a barrier: an insertion scan that reaches it, and does not sort before it, ends
there and the event is parked. Parked events return to the list when their barrier
reaches the front or is taken away. Every parked event sorts after its barrier, so the
front of the list is always the least event of all.

An entry holds its parked events directly, and a parked event has none of its own. -/

namespace EventKernel.Queue

/-- A listed event with the events parked behind it, in order of arrival. -/
structure Entry where
  event : Event
  parked : List Event
deriving DecidableEq, Repr

def Entry.plain (event : Event) : Entry := ⟨event, []⟩

def Entry.events (entry : Entry) : List Event := entry.event :: entry.parked

/-- A sorted list of events; barriers and parked events are counted as they come and go. -/
structure BarrierList where
  policy : ListPolicy
  entries : List Entry
  /-- Timeouts among the listed events. -/
  barriers : Nat
  /-- Events parked behind some barrier. -/
  deferred : Nat
deriving DecidableEq, Repr

namespace BarrierList

def empty (policy : ListPolicy) : BarrierList := ⟨policy, [], 0, 0⟩

def front? (list : BarrierList) : Option Entry := list.entries.head?

/-- Every event held, listed or parked, in the order in which draining returns them. -/
def events (list : BarrierList) : List Event := list.entries.flatMap Entry.events

def isEmpty (list : BarrierList) : Bool := list.entries.isEmpty

def size (list : BarrierList) : Nat := list.entries.length + list.deferred

def barrierWeight (event : Event) : Nat := if event.kind.isBarrier then 1 else 0

/-- Whether a barrier past the front could end a scan. -/
def hasInnerBarrier (list : BarrierList) : Bool :=
  list.policy.waitingList &&
    decide ((match list.front? with
      | some entry => barrierWeight entry.event
      | none => 0) < list.barriers)

/-- Where an event goes that belongs at the tail, or just before a final Stop. -/
def tailIndex? (comparison : Comparison) (event : Event) (entries : List Entry) : Option Nat :=
  match entries.reverse with
  | [] => some 0
  | last :: earlier =>
      if !comparison.sortsBefore event.key last.event.key then some entries.length
      else if last.event.kind = .stop &&
          (match earlier with
            | [] => true
            | previous :: _ => !comparison.sortsBefore event.key previous.event.key) then
        some earlier.length
      else none

inductive Placement where
  | listed
  | parked
deriving DecidableEq, Repr

/-- Scans for the place of an event. `atFront` tells that the scan stands at the first
entry of the list, which never holds an event back. -/
def scan (policy : ListPolicy) (event : Event) : Bool → List Entry → List Entry × Placement
  | _, [] => ([.plain event], .listed)
  | atFront, entry :: rest =>
      if policy.comparison.sortsBefore event.key entry.event.key then
        (.plain event :: entry :: rest, .listed)
      else if policy.waitingList && !atFront && entry.event.kind.isBarrier then
        ({ entry with parked := entry.parked ++ [event] } :: rest, .parked)
      else
        let (placed, placement) := scan policy event false rest
        (entry :: placed, placement)

def listAt (list : BarrierList) (index : Nat) (event : Event) : BarrierList :=
  { list with
    entries := list.entries.insertIdx index (.plain event)
    barriers := list.barriers + barrierWeight event }

def scanFrom (list : BarrierList) (start : Nat) (event : Event) : BarrierList :=
  let (placed, placement) :=
    scan list.policy event (start == 0) (list.entries.drop start)
  let entries := list.entries.take start ++ placed
  match placement with
  | .listed => { list with entries, barriers := list.barriers + barrierWeight event }
  | .parked => { list with entries, deferred := list.deferred + 1 }

def insertFrom (list : BarrierList) (start : Nat) (event : Event) : BarrierList :=
  if list.policy.tailFastPath && start == 0 && !list.hasInnerBarrier then
    match tailIndex? list.policy.comparison event list.entries with
    | some index => list.listAt index event
    | none => list.scanFrom start event
  else
    list.scanFrom start event

def insert (list : BarrierList) (event : Event) : BarrierList := list.insertFrom 0 event

def release (list : BarrierList) (start : Nat) (parked : List Event) :
    Except Fault BarrierList := do
  let deferred ← decrement list.deferred parked.length
  return parked.foldl (fun current event => current.insertFrom start event)
    { list with deferred }

def promoteFront (list : BarrierList) : Except Fault BarrierList :=
  match list.entries with
  | [] => .ok list
  | front :: rest =>
      if front.parked.isEmpty then .ok list
      else release { list with entries := .plain front.event :: rest } 1 front.parked

def next? (list : BarrierList) : Option EventKey :=
  list.front?.map (·.event.key)

def pop (list : BarrierList) : Except Fault (Option Event × BarrierList) :=
  match list.entries with
  | [] => .ok (none, list)
  | front :: rest => do
      let barriers ← decrement list.barriers (barrierWeight front.event)
      if front.parked.isEmpty then
        let list ← promoteFront { list with entries := rest, barriers }
        return (some front.event, list)
      else .error .parkedAtFront

/-- Takes the entry at a position and puts back what was parked behind it. -/
def eraseListed (list : BarrierList) (index : Nat) (entry : Entry) :
    Except Fault BarrierList := do
  let barriers ← decrement list.barriers (barrierWeight entry.event)
  let remaining := { list with entries := list.entries.eraseIdx index, barriers }
  let remaining ←
    if entry.parked.isEmpty then .ok remaining else release remaining index entry.parked
  promoteFront remaining

/-- Takes the first parked event with a serial number out of the entries. -/
def eraseParked (uid : EventUid) : List Entry → Option (Event × List Entry)
  | [] => none
  | entry :: rest =>
      match entry.parked.find? (·.key.uid == uid) with
      | some event =>
          some (event, { entry with parked := entry.parked.eraseP (·.key.uid == uid) } :: rest)
      | none => (eraseParked uid rest).map fun (event, rest) => (event, entry :: rest)

/-- Takes the event with a serial number, listed events before parked ones. -/
def erase (list : BarrierList) (uid : EventUid) : Except Fault (Option Event × BarrierList) :=
  match list.entries.findIdx? (·.event.key.uid == uid) with
  | some index =>
      match list.entries[index]? with
      | some entry => do
          let list ← list.eraseListed index entry
          return (some entry.event, list)
      | none => .ok (none, list)
  | none =>
      match eraseParked uid list.entries with
      | some (event, entries) => do
          let deferred ← decrement list.deferred 1
          return (some event, { list with entries, deferred })
      | none => .ok (none, list)

def drain (list : BarrierList) : List Event × BarrierList :=
  (list.events, empty list.policy)

end BarrierList

end EventKernel.Queue
