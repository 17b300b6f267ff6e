import EventKernel.Proofs.LayoutOperations

set_option autoImplicit false

/-! What a queue under the credit rule owes. The ledger lists every event that was put in
and has not been handed out, as it was put in, and whether the queue has been asked for the
next event since: only then can a message have moved. In every state that permitted
operations reach, the next one succeeds and its answer is what the ledger says. -/

namespace EventKernel

/-- A message from one entity to another that has not arrived. -/
def Event.crosses (event : Event) : Bool :=
  event.kind == .outgoing && !event.prevContext.isGlobal && !event.key.context.isGlobal &&
    event.prevContext != event.key.context

namespace Queue

open LaneQueue (delivered messages arrive Carried)

/-- An event that was put in, and whether the next event has been asked for since. -/
structure Held where
  event : Event
  asked : Bool
deriving DecidableEq, Repr

def Held.named (uid : EventUid) (held : Held) : Bool := held.event.key.uid == uid

/-- The forms in which an event may be handed out: a message may have moved once the next
event has been asked for. -/
inductive Held.LeavesAs (held : Held) : Event → Prop
  | unchanged : LeavesAs held held.event
  | moved (crosses : held.event.crosses = true) (asked : held.asked = true) :
      LeavesAs held (delivered held.event)

structure Ledger where
  live : List Held
  /-- For each pair of entities, the messages that were handed out by draining. -/
  drained : Nat → Nat → Nat

namespace Ledger

def empty : Ledger := ⟨[], fun _ _ => 0⟩

def events (ledger : Ledger) : List Event := ledger.live.map Held.event

def ask (ledger : Ledger) : Ledger :=
  { ledger with live := ledger.live.map fun held => { held with asked := true } }

def enter (ledger : Ledger) (event : Event) : Ledger :=
  { ledger with live := ⟨event, false⟩ :: ledger.live }

/-- Strikes the event that was handed out. -/
def strike (ledger : Ledger) (event? : Option Event) : Ledger :=
  match event? with
  | none => ledger
  | some event => { ledger with live := ledger.live.eraseP (Held.named event.key.uid) }

/-- The ledger after an operation and its answer. -/
def record (ledger : Ledger) : Operation → Answer → Ledger
  | .insert event, _ => ledger.enter event
  | .reinsert event, _ => ledger.enter event
  | .pop, .taken event? => ledger.ask.strike event?
  | .erase _, .taken event? => ledger.strike event?
  | .drain, _ =>
      ⟨[], fun dest sender => messages ledger.events dest sender + ledger.drained dest sender⟩
  | _, _ => ledger.ask

/-- No pair of entities has as many messages held or drained as a cell of credit counts to. -/
def Affordable (ledger : Ledger) : Prop :=
  LaneQueue.Affordable ledger.events ledger.drained

/-- What callers promise. -/
def Permits (ledger : Ledger) (entities : Nat) : Operation → Prop
  | .insert event => event.key.context.Known entities ∧ event.prevContext.Known entities ∧
      ∀ other ∈ ledger.events, other.key.uid ≠ event.key.uid
  | .reinsert event => event.key.context.Known entities ∧ event.prevContext.Known entities ∧
      ∀ other ∈ ledger.events, other.key.uid ≠ event.key.uid
  | .next => ledger.Affordable
  | .pop => ledger.Affordable
  | .erase key => (∃ event ∈ ledger.events, event.key = key) ∨
      ∀ event ∈ ledger.events, event.key.uid ≠ key.uid
  | .drain => True

/-- The answers that keep what the ledger owes. A message that is returned as the next event
has always moved. -/
inductive Explains (ledger : Ledger) : Operation → Answer → Prop
  | insert (event : Event) : Explains ledger (.insert event) (.inserted (.ok event.key))
  | reinsert (event : Event) : Explains ledger (.reinsert event) .reinserted
  | nothing (noneLive : ledger.live = []) : Explains ledger .next (.next none)
  | next (event : Event) (live : event ∈ ledger.events) :
      Explains ledger .next (.next (some event.key))
  | exhausted (noneLive : ledger.live = []) : Explains ledger .pop (.taken none)
  | pop (event : Event) (live : event ∈ ledger.events) :
      Explains ledger .pop (.taken (some (if event.crosses then delivered event else event)))
  | absent (key : EventKey) (notLive : ∀ event ∈ ledger.events, event.key.uid ≠ key.uid) :
      Explains ledger (.erase key) (.taken none)
  | erase (held : Held) (live : held ∈ ledger.live) (event : Event)
      (form : held.LeavesAs event) :
      Explains ledger (.erase held.event.key) (.taken (some event))
  | drain (forms : Held → Event) (each : ∀ held ∈ ledger.live, held.LeavesAs (forms held))
      (events : List Event) (all : events.Perm (ledger.live.map forms)) :
      Explains ledger .drain (.drained events)

end Ledger

/-- The states that permitted operations reach, each with its ledger. -/
inductive LaneQueue.Reaches (start : LaneQueue) (entities : Nat) : Ledger → LaneQueue → Prop
  | start : Reaches start entities .empty start
  | step {ledger : Ledger} {queue after : LaneQueue} {answer : Answer} (operation : Operation)
      (earlier : Reaches start entities ledger queue)
      (permitted : ledger.Permits entities operation)
      (performed : queue.perform operation = .ok (answer, after)) :
      Reaches start entities (ledger.record operation answer) after

end Queue

end EventKernel
