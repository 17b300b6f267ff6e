import EventKernel.Event.Key

set_option autoImplicit false

/-! Scheduled events. The kind of an event never takes part in its order; it selects
how the queue treats the event. -/

namespace EventKernel

inductive EventKind where
  | undefined
  /-- A barrier that later insertions may have to wait behind. -/
  | timeout
  | stop
  | outgoing
  | incoming
deriving DecidableEq, Repr, Inhabited

namespace EventKind

def isBarrier : EventKind → Bool
  | timeout => true
  | _ => false

def rank : EventKind → Nat
  | undefined => 0
  | timeout => 1
  | stop => 2
  | outgoing => 3
  | incoming => 4

instance : ToString EventKind := ⟨fun
  | undefined => "undefined"
  | timeout => "timeout"
  | stop => "stop"
  | outgoing => "outgoing"
  | incoming => "incoming"⟩

end EventKind

structure Transmission where
  packetSize : UInt32
deriving DecidableEq, Repr, Inhabited

structure Event where
  key : EventKey
  kind : EventKind
  /-- The owner that caused the event; the sender of a message. -/
  prevContext : Context
  /-- Present on packet transmissions, the only events whose time may be perturbed. -/
  transmit : Option Transmission
deriving DecidableEq, Repr, Inhabited

end EventKernel
