import EventKernel.Queue.EventQueue
import EventKernel.Simulation.Clock
import EventKernel.Simulation.Handle
import EventKernel.Simulation.Inbox
import EventKernel.Simulation.Slots

set_option autoImplicit false

/-! A simulation owns the queue of pending events, the clock of the whole and one clock for
each entity, and the callbacks of the queued events. Scheduling stamps an event against
the clock of its cause; cancelling and removing are final; requests from outside are
merged against the global clock. -/

namespace EventKernel

open Queue (EventQueue Configuration ConfigurationError)
open Exploration (Hook)

structure Simulation (σ β : Type) where
  queue : EventQueue σ
  globalClock : Clock
  localClocks : List Clock
  slots : Slots β
  nextUid : EventUid
  /-- Events inserted into the queue and neither taken nor removed yet. -/
  unscheduled : Nat
  /-- The context of the event that is executing, global outside events. -/
  context : Context
  stopRequested : Bool
  terminated : Option String
  /-- Callbacks for the destroy phase, in order of registration. -/
  destroyEvents : List (Handle × β)
  inbox : Inbox β
  processed : Nat

structure RunSummary where
  processed : Nat
  finalTime : Timestamp
  deadlocks : Nat
  /-- Whether the run ended by request and not for want of events. -/
  stopped : Bool
deriving DecidableEq, Repr

namespace Simulation

variable {σ β : Type}

def ofQueue (queue : EventQueue σ) : Simulation σ β where
  queue
  globalClock := .start
  localClocks := List.replicate queue.entities .start
  slots := .empty
  nextUid := .first
  unscheduled := 0
  context := .global
  stopRequested := false
  terminated := none
  destroyEvents := []
  inbox := .empty
  processed := 0

def new (configuration : Configuration) (hook : σ) :
    Except Fault (Except ConfigurationError (Simulation σ β)) := do
  match ← EventQueue.new configuration hook with
  | .error error => return .error error
  | .ok queue => return .ok (ofQueue queue)

def clock (simulation : Simulation σ β) (context : Context) : Except Fault Clock :=
  match context with
  | .global => .ok simulation.globalClock
  | .node id =>
      match simulation.localClocks[id.index]? with
      | some clock => .ok clock
      | none => .error (.unknownContext context simulation.localClocks.length)

/-- Moves the clock of a context to an event about to execute. -/
def advanceClock (simulation : Simulation σ β) (key : EventKey) :
    Except Fault (Simulation σ β) :=
  match key.context with
  | .global => .ok { simulation with globalClock := .advance key.ts key.uid }
  | .node id =>
      if id.index < simulation.localClocks.length then
        .ok { simulation with
          localClocks := simulation.localClocks.set id.index (.advance key.ts key.uid) }
      else .error (.unknownContext key.context simulation.localClocks.length)

def nowIn (simulation : Simulation σ β) (context : Context) : Except Fault Timestamp := do
  return (← simulation.clock context).now

def now (simulation : Simulation σ β) : Except Fault Timestamp :=
  simulation.nowIn simulation.context

/-- The number of queued events, those cancelled in place included. -/
def pending (simulation : Simulation σ β) : Nat := simulation.queue.size

def allocateUid (simulation : Simulation σ β) : Except Fault (EventUid × Simulation σ β) :=
  match simulation.nextUid.next? with
  | some nextUid => .ok (simulation.nextUid, { simulation with nextUid })
  | none => .error .arithmeticOverflow

/-- The handle of an event that was refused: it lies beyond every clock. -/
def refusedHandle (event : Event) : Handle :=
  .ofEvent ⟨.last, event.key.uid, .global⟩ event.kind

/-- Notes that the exploration branch has ended; the first reason stays. -/
def terminate (simulation : Simulation σ β) (reason : String) : Simulation σ β :=
  { simulation with
    terminated := some (simulation.terminated.getD reason)
    stopRequested := true }

section

variable [Hook σ]

/-- Queues an event with its callback. A refused event is dropped and ends the run. -/
def enqueue (simulation : Simulation σ β) (event : Event) (callback : Callback β) :
    Except Fault (Handle × Simulation σ β) := do
  let (answer, queue) ← simulation.queue.insert event
  match answer with
  | .ok key =>
      return (.ofEvent key event.kind, { simulation with
        queue
        slots := simulation.slots.insert event.key.uid (.armed callback)
        unscheduled := simulation.unscheduled + 1 })
  | .error ended =>
      return (refusedHandle event, { simulation with queue }.terminate ended.reason)

/-- What is asked of a new event: the context that causes it, its owner, the time after the
clock of the cause, its kind, and the packet it transmits. -/
structure Plan where
  base : Context
  context : Context
  delay : UInt64
  kind : EventKind
  transmit : Option Transmission
deriving DecidableEq, Repr

def schedule (simulation : Simulation σ β) (plan : Plan) (callback : Callback β) :
    Except Fault (Handle × Simulation σ β) := do
  let ts ← (← simulation.clock plan.base).after plan.delay
  let _ ← simulation.clock plan.context
  let (uid, simulation) ← simulation.allocateUid
  simulation.enqueue ⟨⟨ts, uid, plan.context⟩, plan.kind, plan.base, plan.transmit⟩ callback

/-- Merges a request from outside, stamped against the global clock. -/
def merge (simulation : Simulation σ β) (request : RemoteRequest β) :
    Except Fault (Simulation σ β) := do
  let ts ← simulation.globalClock.after request.delay
  let _ ← simulation.clock request.context
  let (uid, simulation) ← simulation.allocateUid
  let event : Event := ⟨⟨ts, uid, request.context⟩, .undefined, request.context, none⟩
  return (← simulation.enqueue event (.user request.callback)).2

def mergeAll (simulation : Simulation σ β) :
    List (RemoteRequest β) → Except Fault (Simulation σ β)
  | [] => .ok simulation
  | request :: rest => do (← simulation.merge request).mergeAll rest

def drainInbox (simulation : Simulation σ β) : Except Fault (Simulation σ β) :=
  let (requests, inbox) := simulation.inbox.drain
  { simulation with inbox }.mergeAll requests

end

def scheduleDestroy (simulation : Simulation σ β) (callback : β) :
    Except Fault (Handle × Simulation σ β) := do
  let (serial, simulation) ← simulation.allocateUid
  let handle := Handle.ofDestroy simulation.globalClock.now serial
  return (handle, { simulation with
    destroyEvents := simulation.destroyEvents ++ [(handle, callback)] })

def requestRemote (simulation : Simulation σ β) (request : RemoteRequest β) :
    Simulation σ β :=
  { simulation with inbox := simulation.inbox.push request }

/-- Whether an event has run, was cancelled or removed, or is not after its clock. -/
def isExpired (simulation : Simulation σ β) (handle : Handle) : Except Fault Bool :=
  if handle.isDestroy then
    return !simulation.destroyEvents.any fun (queued, _) => queued.serial == handle.serial
  else match simulation.slots.find? handle.key.uid with
    | none => return true
    | some .cancelled => return true
    | some (.armed _) => do
        let clock ← simulation.clock handle.key.context
        return clock.hasPassed handle.key.ts handle.key.uid

/-- The time until an event fires, zero once it has expired. -/
def delayLeft (simulation : Simulation σ β) (handle : Handle) : Except Fault UInt64 := do
  if ← simulation.isExpired handle then return 0
  else return handle.key.ts.since (← simulation.nowIn handle.key.context)

def remove (simulation : Simulation σ β) (handle : Handle) :
    Except Fault (Simulation σ β) := do
  if handle.isDestroy then
    return { simulation with
      destroyEvents := simulation.destroyEvents.filter fun (queued, _) =>
        queued.serial != handle.serial }
  else if ← simulation.isExpired handle then return simulation
  else do
    let (removed?, queue) ← simulation.queue.erase handle.key
    if removed?.isNone then .error (.eventMissing handle.key handle.kind)
    else if (simulation.slots.find? handle.key.uid).isNone then
      .error (.callbackMissing handle.key handle.kind)
    else do
      let unscheduled ← decrement simulation.unscheduled 1
      return { simulation with
        queue
        slots := simulation.slots.erase handle.key.uid
        unscheduled }

/-- Cancels an event that has not expired: it leaves the queue at once, or stays until it
reaches the front and is skipped there. -/
def cancel (simulation : Simulation σ β) (handle : Handle) :
    Except Fault (Simulation σ β) := do
  if ← simulation.isExpired handle then return simulation
  else if handle.isDestroy ||
      simulation.queue.configuration.strategies.removeCancelled then
    simulation.remove handle
  else return { simulation with
    slots := simulation.slots.insert handle.key.uid .cancelled }

def stop (simulation : Simulation σ β) : Simulation σ β :=
  { simulation with stopRequested := true }

def beginRun [Hook σ] (simulation : Simulation σ β) : Except Fault (Simulation σ β) := do
  let simulation ← simulation.drainInbox
  if simulation.terminated.isNone then return { simulation with stopRequested := false }
  else return simulation

def goesOn (simulation : Simulation σ β) : Bool :=
  !simulation.stopRequested && !simulation.queue.isEmpty

/-- What a run answers when it takes no further event; `before` callbacks had been invoked
when it began. -/
def endRun (simulation : Simulation σ β) (before : Nat) :
    Except Fault (Except BranchEnded RunSummary) :=
  match simulation.terminated with
  | some reason => .ok (.error ⟨reason⟩)
  | none =>
      if !simulation.queue.isEmpty || simulation.unscheduled == 0 then
        .ok (.ok {
          processed := simulation.processed - before
          finalTime := simulation.globalClock.now
          deadlocks := simulation.queue.deadlocks
          stopped := simulation.stopRequested })
      else .error (.eventsLost simulation.unscheduled)

inductive Dequeued (β : Type) where
  | nothing
  | skipped
  | invoke (key : EventKey) (callback : Callback β)
deriving DecidableEq, Repr

/-- Takes the next event, moves its clock to it and enters its context. -/
def dequeue (simulation : Simulation σ β) : Except Fault (Dequeued β × Simulation σ β) := do
  let (event?, queue) ← simulation.queue.pop
  let simulation := { simulation with queue }
  match event? with
  | none => return (.nothing, simulation)
  | some event =>
      let unscheduled ← decrement simulation.unscheduled 1
      let simulation ← { simulation with unscheduled }.advanceClock event.key
      let entered := { simulation with
        context := event.key.context
        slots := simulation.slots.erase event.key.uid }
      match simulation.slots.find? event.key.uid with
      | some (.armed callback) => return (.invoke event.key callback, entered)
      | some .cancelled => return (.skipped, entered)
      | none => .error (.firedWithoutCallback event.key)

/-- What follows an event: its context is left and the inbox is merged. -/
def leaveEvent [Hook σ] (simulation : Simulation σ β) : Except Fault (Simulation σ β) :=
  { simulation with context := .global }.drainInbox

def finishEvent [Hook σ] (simulation : Simulation σ β) : Except Fault (Simulation σ β) :=
  { simulation with processed := simulation.processed + 1 }.leaveEvent

def dispose (simulation : Simulation σ β) : Simulation σ β :=
  { simulation with
    inbox := simulation.inbox.drain.2
    queue := simulation.queue.drain.2
    slots := .empty
    unscheduled := 0 }

/-- Moves every pending event into another queue, which takes the place of the present
one. Exploration does not see the events again. -/
def replaceQueue (simulation : Simulation σ β) (replacement : EventQueue σ) :
    Except Fault (Simulation σ β) := do
  if replacement.entities = simulation.localClocks.length then
    let queue ← replacement.reinsertAll simulation.queue.drain.1
    return { simulation with queue }
  else .error .entityCountDiffers

def detail (simulation : Simulation σ β) : String :=
  "Simulator \x7b global: LogicalClock \x7b now: Timestamp(" ++
    toString simulation.globalClock.now ++ "), last_uid: EventUid(" ++
    toString simulation.globalClock.lastUid ++ ") \x7d, current_context: " ++
    simulation.context.detail ++ ", pending: " ++ toString simulation.pending ++
    ", next_uid: EventUid(" ++ toString simulation.nextUid ++ "), .. \x7d"

end Simulation

end EventKernel
