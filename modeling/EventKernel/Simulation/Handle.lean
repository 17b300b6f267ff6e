import EventKernel.Event.Basic

set_option autoImplicit false

/-! Handles let the owner of an event cancel it or ask about it later. A handle is plain
data; holding one keeps nothing alive. -/

namespace EventKernel

structure Handle where
  key : EventKey
  kind : EventKind
  /-- Tells apart the handles of the destroy phase, which share one serial number in their
  keys; the serial number of the key otherwise. -/
  serial : EventUid
deriving DecidableEq, Repr

namespace Handle

def ofEvent (key : EventKey) (kind : EventKind) : Handle := ⟨key, kind, key.uid⟩

def ofDestroy (ts : Timestamp) (serial : EventUid) : Handle :=
  ⟨⟨ts, .destroy, .global⟩, .undefined, serial⟩

def isDestroy (handle : Handle) : Bool := handle.key.uid == .destroy

instance : ToString Handle := ⟨fun handle => s!"{handle.key} ({handle.kind})"⟩

end Handle

end EventKernel
