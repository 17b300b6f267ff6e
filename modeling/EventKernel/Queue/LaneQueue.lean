import EventKernel.Queue.BarrierList
import EventKernel.Queue.Configuration
import EventKernel.Queue.CreditTable
import EventKernel.Queue.Outbound

set_option autoImplicit false

/-! Events partitioned by owner: lane 0 holds those of the simulation, lane `i + 1` those
of entity `i`. The next event comes from a lane whose front is safe: no other front,
shifted by the latency between the two lanes, could still come before it. The lane of the
simulation has no latency to any other.

Under the credit rule a message between two entities waits in the lane of its sender.
It leaves when it is selected, and becomes an incoming event in the lane of its
destination. Its sender may be passed over for want of inbound credit; when every safe
front waits for credit a deadlock is counted and the least safe front goes ahead. -/

namespace EventKernel.Queue

structure LaneQueue where
  lanes : List BarrierList
  latency : LatencyMatrix
  boundary : Boundary
  /-- Present when the credit rule is active. -/
  credits : Option CreditTable
  /-- For each lane, the messages to it that still wait at their senders. -/
  outbound : List Outbound
  deadlocks : Nat
  conversions : Nat
deriving DecidableEq, Repr

namespace LaneQueue

def laneOf : Context → Nat
  | .global => 0
  | .node id => id.index + 1

def new (configuration : Configuration) : Except Fault LaneQueue := do
  let policy := ListPolicy.ofStrategies configuration.strategies
  let count := configuration.entities + 1
  let credits ←
    if configuration.strategies.localListsV2 then
      some <$> CreditTable.new configuration.entities configuration.interfaces
    else pure none
  return {
    lanes := List.replicate count (.empty policy)
    latency := configuration.latency
    boundary := configuration.boundary
    credits
    outbound := List.replicate count .empty
    deadlocks := 0
    conversions := 0 }

/-- Every event held, in the order in which draining returns them. -/
def events (queue : LaneQueue) : List Event := queue.lanes.flatMap BarrierList.events

def isEmpty (queue : LaneQueue) : Bool := queue.lanes.all BarrierList.isEmpty

def size (queue : LaneQueue) : Nat :=
  queue.lanes.foldr (fun list total => list.size + total) 0

def laneAt (queue : LaneQueue) (lane : Nat) : Except Fault BarrierList :=
  match queue.lanes[lane]? with
  | some list => .ok list
  | none => .error .indexOutOfRange

def putLane (queue : LaneQueue) (lane : Nat) (list : BarrierList) : LaneQueue :=
  { queue with lanes := queue.lanes.set lane list }

/-- Whether an event is a message between two entities under the credit rule. -/
def isCrossing (queue : LaneQueue) (event : Event) : Bool :=
  queue.credits.isSome && event.kind == .outgoing && !event.prevContext.isGlobal &&
    !event.key.context.isGlobal && event.prevContext != event.key.context

/-- The lane an event is put into: a message between entities waits with its sender. -/
def homeLane (queue : LaneQueue) (event : Event) : Nat :=
  if queue.isCrossing event then laneOf event.prevContext else laneOf event.key.context

def laneLatency (queue : LaneQueue) (lane other : Nat) : Except Fault UInt64 :=
  if lane = 0 ∨ other = 0 then .ok 0 else queue.latency.get (lane - 1) (other - 1)

/-- Whether a front may run before anything that `other` could cause `latency` later. -/
def precedesShifted (boundary : Boundary) (front other : EventKey) (latency : UInt64) : Bool :=
  match boundary with
  | .sequenced => front.Precedes { other with ts := other.ts.saturatingAdd latency }
  | .inclusive =>
      if latency = 0 then front.Precedes other
      else front.ts ≤ other.ts.saturatingAdd latency

/-- Whether the fronts of all other lanes, counted from `other`, allow a front to run. -/
def frontsAllow (queue : LaneQueue) (lane : Nat) (front : EventKey) :
    Nat → List BarrierList → Except Fault Bool
  | _, [] => .ok true
  | other, list :: rest =>
      if other = lane then queue.frontsAllow lane front (other + 1) rest
      else match list.next? with
        | none => queue.frontsAllow lane front (other + 1) rest
        | some key => do
            let latency ← queue.laneLatency lane other
            if precedesShifted queue.boundary front key latency then
              queue.frontsAllow lane front (other + 1) rest
            else return false

/-- Whether no message on its way to the lane comes before its front. -/
def inboundAllows (queue : LaneQueue) (lane : Nat) (front : EventKey) : Except Fault Bool :=
  match queue.outbound[lane]? with
  | none => .error .indexOutOfRange
  | some outbound =>
      match outbound.first? with
      | none => .ok true
      | some key => .ok (front.Precedes key)

/-- Whether nothing held elsewhere could still come before the front of a lane. -/
def isSafe (queue : LaneQueue) (lane : Nat) (front : EventKey) : Except Fault Bool := do
  let fronts ← queue.frontsAllow lane front 0 queue.lanes
  let inbound ← queue.inboundAllows lane front
  return fronts && inbound

/-- Whether the front of a lane is a message whose sender lacks credit. -/
def isBlocked (queue : LaneQueue) (lane : Nat) (front : Event) : Except Fault Bool :=
  match queue.credits with
  | some credits =>
      if queue.isCrossing front then do
        return !(← credits.maySend (lane - 1))
      else return false
  | none => return false

/-- A lane with a front, and what speaks for and against taking it. -/
structure Candidate where
  lane : Nat
  key : EventKey
  safe : Bool
  blocked : Bool
deriving DecidableEq, Repr

def candidatesFrom (queue : LaneQueue) : Nat → List BarrierList → Except Fault (List Candidate)
  | _, [] => .ok []
  | lane, list :: rest =>
      match list.front? with
      | none => queue.candidatesFrom (lane + 1) rest
      | some front => do
          let key := front.event.key
          let safe ← queue.isSafe lane key
          let blocked ← if safe then queue.isBlocked lane front.event else pure false
          let others ← queue.candidatesFrom (lane + 1) rest
          return ⟨lane, key, safe, blocked⟩ :: others

def candidates (queue : LaneQueue) : Except Fault (List Candidate) :=
  queue.candidatesFrom 0 queue.lanes

def least? : List Candidate → Option Candidate
  | [] => none
  | candidate :: rest =>
      match least? rest with
      | none => some candidate
      | some other => if other.key.Precedes candidate.key then some other else some candidate

/-- The lane to take from, and whether taking it resolves a deadlock. -/
structure Choice where
  lane : Nat
  deadlock : Bool
deriving DecidableEq, Repr

/-- The least safe front with credit; else the least safe front, which is a deadlock;
else, if the latencies contradict each other, the least front of all. -/
def choose? (candidates : List Candidate) : Option Choice :=
  match least? (candidates.filter fun candidate => candidate.safe && !candidate.blocked) with
  | some candidate => some ⟨candidate.lane, false⟩
  | none =>
      match least? (candidates.filter Candidate.safe) with
      | some candidate => some ⟨candidate.lane, true⟩
      | none => (least? candidates).map fun candidate => ⟨candidate.lane, false⟩

def select (queue : LaneQueue) : Except Fault (Option Nat × LaneQueue) := do
  match choose? (← queue.candidates) with
  | none => return (none, queue)
  | some choice =>
      let deadlocks := if choice.deadlock then queue.deadlocks + 1 else queue.deadlocks
      return (some choice.lane, { queue with deadlocks })

/-- Puts a message that has left its sender into the lane of its destination. -/
def convert (queue : LaneQueue) (event : Event) : Except Fault LaneQueue := do
  let sender := laneOf event.prevContext
  let dest := laneOf event.key.context
  let credits ← match queue.credits with
    | some credits => some <$> credits.deliver (dest - 1) (sender - 1)
    | none => pure none
  let list ← queue.laneAt dest
  return { queue with
    lanes := queue.lanes.set dest (list.insert { event with kind := .incoming })
    outbound := queue.outbound.modify dest (·.erase event.key)
    credits
    conversions := queue.conversions + 1 }

/-- The messages that have not been converted; each conversion leaves one fewer. -/
def outgoingCount (queue : LaneQueue) : Nat :=
  queue.events.countP fun event => event.kind == .outgoing

/-- Converts selected messages, at most the given number, until the selected front is
one that will be returned. -/
def settleWithin : Nat → LaneQueue → Except Fault (Option Nat × LaneQueue)
  | 0, queue => queue.select
  | remaining + 1, queue => do
      let (lane?, queue) ← queue.select
      match lane? with
      | none => return (none, queue)
      | some lane =>
          let list ← queue.laneAt lane
          match list.front? with
          | none => return (none, queue)
          | some front =>
              if queue.isCrossing front.event then do
                let (event?, list) ← list.pop
                let queue := queue.putLane lane list
                match event? with
                | none => return (none, queue)
                | some event => settleWithin remaining (← queue.convert event)
              else return (some lane, queue)

def settle (queue : LaneQueue) : Except Fault (Option Nat × LaneQueue) :=
  settleWithin queue.outgoingCount queue

/-- Discounts the credit of an incoming event that leaves the queue. -/
def consumeCredit (queue : LaneQueue) (event : Event) : Except Fault LaneQueue :=
  match event.kind, event.key.context, event.prevContext, queue.credits with
  | .incoming, .node dest, .node sender, some credits => do
      let credits ← credits.consume dest.index sender.index
      return { queue with credits := some credits }
  | _, _, _, _ => return queue

/-- Puts an event into its lane; a message is also entered in the index of its destination. -/
def insert (queue : LaneQueue) (event : Event) : Except Fault LaneQueue :=
  let lane := queue.homeLane event
  let dest := laneOf event.key.context
  match queue.lanes[lane]? with
  | none => .error (.unknownLane event.key)
  | some list =>
      let stored := queue.putLane lane (list.insert event)
      if queue.isCrossing event then
        if dest < queue.lanes.length then
          .ok { stored with outbound := queue.outbound.modify dest (·.insert event.key lane) }
        else .error (.unknownDestination event.key)
      else .ok stored

/-- The key of the event that would be taken next. Messages may be converted on the way. -/
def next? (queue : LaneQueue) : Except Fault (Option EventKey × LaneQueue) := do
  let (lane?, queue) ← queue.settle
  match lane? with
  | none => return (none, queue)
  | some lane => return ((← queue.laneAt lane).next?, queue)

def pop (queue : LaneQueue) : Except Fault (Option Event × LaneQueue) := do
  let (lane?, queue) ← queue.settle
  match lane? with
  | none => return (none, queue)
  | some lane =>
      let (event?, list) ← (← queue.laneAt lane).pop
      let queue := queue.putLane lane list
      match event? with
      | none => return (none, queue)
      | some event => return (some event, ← queue.consumeCredit event)

/-- Takes a message from the lane of its sender, or any other event from the lane of its
owner. Lanes look for the serial number only. -/
def erase (queue : LaneQueue) (key : EventKey) : Except Fault (Option Event × LaneQueue) :=
  let dest := laneOf key.context
  match queue.outbound[dest]? with
  | none => .ok (none, queue)
  | some outbound =>
      match outbound.holder? key with
      | some sender => do
          let (event?, list) ← (← queue.laneAt sender).erase key.uid
          let queue := queue.putLane sender list
          return (event?, { queue with outbound := queue.outbound.set dest (outbound.erase key) })
      | none =>
          match queue.lanes[dest]? with
          | none => .ok (none, queue)
          | some list => do
              let (event?, list) ← list.erase key.uid
              let queue := queue.putLane dest list
              match event? with
              | none => return (none, queue)
              | some event => return (some event, ← queue.consumeCredit event)

/-- Takes every event. The credit table keeps its counts. -/
def drain (queue : LaneQueue) : List Event × LaneQueue :=
  (queue.events, { queue with
    lanes := queue.lanes.map fun list => list.drain.2
    outbound := queue.outbound.map fun _ => .empty })

end LaneQueue

end EventKernel.Queue
