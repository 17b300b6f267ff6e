import EventKernel.Event.Basic

set_option autoImplicit false

/-! Requests from outside wait in an inbox until the simulation takes them, all at once and
in order of arrival. A hint lets the simulation pass by an empty inbox; it may be cleared
for an empty inbox, but is never set while a request waits. -/

namespace EventKernel

/-- A request to run a callback in a context, `delay` after the instant it is taken. -/
structure RemoteRequest (β : Type) where
  context : Context
  delay : UInt64
  callback : β
deriving DecidableEq, Repr

def Context.detail : Context → String
  | .global => "Global"
  | .node id => s!"Node(NodeId({id}))"

def RemoteRequest.detail {β : Type} (request : RemoteRequest β) : String :=
  "RemoteRequest \x7b context: " ++ request.context.detail ++
    ", delay: " ++ toString request.delay.toNat ++ ", .. \x7d"

structure Inbox (β : Type) where
  requests : List (RemoteRequest β)
  /-- The hint that nothing waits. -/
  emptyHint : Bool
deriving DecidableEq, Repr

namespace Inbox

variable {β : Type}

def empty : Inbox β := ⟨[], true⟩

def push (inbox : Inbox β) (request : RemoteRequest β) : Inbox β :=
  ⟨inbox.requests ++ [request], false⟩

def drain (inbox : Inbox β) : List (RemoteRequest β) × Inbox β :=
  if inbox.emptyHint then ([], inbox) else (inbox.requests, ⟨[], true⟩)

def size (inbox : Inbox β) : Nat := inbox.requests.length

def isEmpty (inbox : Inbox β) : Bool := inbox.requests.isEmpty

end Inbox

end EventKernel
