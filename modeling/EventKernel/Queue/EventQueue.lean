import EventKernel.Exploration.Perturbation
import EventKernel.Queue.LaneQueue

set_option autoImplicit false

/-! The queue of pending events: a layout chosen once from the strategies, with exploration
in front of it. Only insertions that exploration has not refused reach the layout. -/

namespace EventKernel.Queue

open Exploration (Hook Perturbation)

inductive Layout where
  | single (list : BarrierList)
  | partitioned (lanes : LaneQueue)
deriving DecidableEq, Repr

namespace Layout

def new (configuration : Configuration) : Except Fault Layout :=
  if configuration.strategies.localLists then partitioned <$> LaneQueue.new configuration
  else .ok (single (.empty (.ofStrategies configuration.strategies)))

def lists : Layout → List BarrierList
  | single list => [list]
  | partitioned lanes => lanes.lanes

/-- Every event held, in the order in which draining returns them. -/
def events (layout : Layout) : List Event := layout.lists.flatMap BarrierList.events

def isEmpty : Layout → Bool
  | single list => list.isEmpty
  | partitioned lanes => lanes.isEmpty

def size : Layout → Nat
  | single list => list.size
  | partitioned lanes => lanes.size

def insert (layout : Layout) (event : Event) : Except Fault Layout :=
  match layout with
  | single list => .ok (single (list.insert event))
  | partitioned lanes => partitioned <$> lanes.insert event

def next? (layout : Layout) : Except Fault (Option EventKey × Layout) :=
  match layout with
  | single list => .ok (list.next?, layout)
  | partitioned lanes => (fun (key?, lanes) => (key?, partitioned lanes)) <$> lanes.next?

def pop (layout : Layout) : Except Fault (Option Event × Layout) :=
  match layout with
  | single list => (fun (event?, list) => (event?, single list)) <$> list.pop
  | partitioned lanes => (fun (event?, lanes) => (event?, partitioned lanes)) <$> lanes.pop

def erase (layout : Layout) (key : EventKey) : Except Fault (Option Event × Layout) :=
  match layout with
  | single list => (fun (event?, list) => (event?, single list)) <$> list.erase key.uid
  | partitioned lanes => (fun (event?, lanes) => (event?, partitioned lanes)) <$> lanes.erase key

def drain : Layout → List Event × Layout
  | single list => (list.events, single list.drain.2)
  | partitioned lanes => (lanes.events, partitioned lanes.drain.2)

/-- Deadlocks met under the credit rule; other layouts meet none. -/
def deadlocks : Layout → Nat
  | single _ => 0
  | partitioned lanes => lanes.deadlocks

end Layout

/-- Pending events under the configured strategies, and the state of the exploring engine. -/
structure EventQueue (σ : Type) where
  configuration : Configuration
  layout : Layout
  perturbation : Perturbation
  hook : σ
deriving Repr

namespace EventQueue

variable {σ : Type}

def new (configuration : Configuration) (hook : σ) :
    Except Fault (Except ConfigurationError (EventQueue σ)) := do
  match ← configuration.validate with
  | .error error => return .error error
  | .ok () =>
      let layout ← Layout.new configuration
      return .ok ⟨configuration, layout, .new configuration.exploration, hook⟩

def isEmpty (queue : EventQueue σ) : Bool := queue.layout.isEmpty

def size (queue : EventQueue σ) : Nat := queue.layout.size

def deadlocks (queue : EventQueue σ) : Nat := queue.layout.deadlocks

def entities (queue : EventQueue σ) : Nat := queue.configuration.entities

def reports (queue : EventQueue σ) : Bool :=
  queue.configuration.exploration.enabled && queue.configuration.exploration.traceQueue

/-- The events of the queue as a description lists them; parked ones are set back. -/
def listing (queue : EventQueue σ) : List (String × Event) :=
  queue.layout.lists.flatMap fun list => list.entries.flatMap fun entry =>
    ("", entry.event) :: entry.parked.map fun event => ("  ", event)

def line (indent : String) (event : Event) (time : UInt64) (symbolic : Bool) : String :=
  let transmission := if event.transmit.isSome then " - Transmission Event" else ""
  let symbol := if symbolic then " - Symbolic event" else ""
  s!"{indent}Event {event.key.uid} : {time.toNat} ms{transmission}{symbol}"

def frame (lines : List String) : List String :=
  "Current event queue------" :: lines ++ ["End of queue--------"]

def unlines (lines : List String) : String :=
  String.join (lines.map (· ++ "\n"))

/-- The queue in words, one event a line; shifted times are given as stored. -/
def describe (queue : EventQueue σ) : String :=
  unlines (frame (queue.listing.map fun (indent, event) =>
    line indent event event.key.ts.value (queue.perturbation.isPerturbed event.key.uid)))

variable [Hook σ]

/-- The lines for listed events, where the hook gives an example of each shifted time. -/
def concreteLines (perturbation : Perturbation) :
    List (String × Event) → σ → List String × σ
  | [], hook => ([], hook)
  | (indent, event) :: rest, hook =>
      let symbolic := perturbation.isPerturbed event.key.uid
      let (time, hook) :=
        if symbolic then Hook.concreteExample event.key.ts.value hook
        else (event.key.ts.value, hook)
      let (lines, hook) := concreteLines perturbation rest hook
      (line indent event time symbolic :: lines, hook)

def describeConcreteLines (queue : EventQueue σ) : List String × EventQueue σ :=
  let (lines, hook) := concreteLines queue.perturbation queue.listing queue.hook
  (frame lines, { queue with hook })

def describeConcrete (queue : EventQueue σ) : String × EventQueue σ :=
  let (lines, queue) := queue.describeConcreteLines
  (unlines lines, queue)

def report (queue : EventQueue σ) : EventQueue σ :=
  let (lines, queue) := queue.describeConcreteLines
  { queue with hook := lines.foldl (fun hook text => Hook.diagnostic text hook) queue.hook }

/-- Inserts an event and answers its key, whose time exploration may have shifted. -/
def insert (queue : EventQueue σ) (event : Event) :
    Except Fault (Except BranchEnded EventKey × EventQueue σ) := do
  let (prepared, perturbation, hook) ← queue.perturbation.apply queue.hook event
  let queue := { queue with perturbation, hook }
  match prepared with
  | .error ended => return (.error ended, queue)
  | .ok event =>
      let queue := { queue with layout := ← queue.layout.insert event }
      return (.ok event.key, if queue.reports then queue.report else queue)

omit [Hook σ]

/-- Inserts an event that has left another queue, as it is. -/
def reinsert (queue : EventQueue σ) (event : Event) : Except Fault (EventQueue σ) := do
  return { queue with layout := ← queue.layout.insert event }

def next? (queue : EventQueue σ) : Except Fault (Option EventKey × EventQueue σ) := do
  let (key?, layout) ← queue.layout.next?
  return (key?, { queue with layout })

def pop (queue : EventQueue σ) : Except Fault (Option Event × EventQueue σ) := do
  let (event?, layout) ← queue.layout.pop
  return (event?, { queue with layout })

def erase (queue : EventQueue σ) (key : EventKey) :
    Except Fault (Option Event × EventQueue σ) := do
  let (event?, layout) ← queue.layout.erase key
  return (event?, { queue with layout })

def drain (queue : EventQueue σ) : List Event × EventQueue σ :=
  let (events, layout) := queue.layout.drain
  (events, { queue with layout })

def reinsertAll (queue : EventQueue σ) : List Event → Except Fault (EventQueue σ)
  | [] => .ok queue
  | event :: rest => do (← queue.reinsert event).reinsertAll rest

end EventQueue

end EventKernel.Queue
