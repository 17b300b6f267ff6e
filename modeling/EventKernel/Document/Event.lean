import EventKernel.Document.Reading
import EventKernel.Event.Basic

set_option autoImplicit false

/-! Identities and kinds of events as documents, and back. Wrapped numbers are bare
numbers; an entity is a context with a name before it. -/

namespace EventKernel.Document

def ofTimestamp (ts : Timestamp) : Document := ofNat ts.value.toNat

def ofUid (uid : EventUid) : Document := ofNat uid.value.toNat

def ofNode (node : NodeId) : Document := ofNat node.value.toNat

def ofContext : Context → Document
  | .global => text "Global"
  | .node id => table [("Node", ofNode id)]

def kindNames : List (String × EventKind) := [
  ("Undefined", .undefined), ("Timeout", .timeout), ("Stop", .stop),
  ("Outgoing", .outgoing), ("Incoming", .incoming)]

def ofKind : EventKind → Document
  | .undefined => text "Undefined"
  | .timeout => text "Timeout"
  | .stop => text "Stop"
  | .outgoing => text "Outgoing"
  | .incoming => text "Incoming"

def ofKey (key : EventKey) : Document := table [
  ("ts", ofTimestamp key.ts), ("uid", ofUid key.uid), ("context", ofContext key.context)]

def ofTransmission (transmission : Transmission) : Document := table [
  ("packet_size", ofNat transmission.packetSize.toNat)]

namespace Reading

variable (reading : Reading)

def timestamp (document : Document) : Option Timestamp :=
  Timestamp.mk <$> reading.word64 document

def uid (document : Document) : Option EventUid := EventUid.mk <$> reading.word64 document

def node (document : Document) : Option NodeId := NodeId.mk <$> reading.word32 document

/-- The choice without content is global; the other holds the entity. -/
def context (document : Document) : Option Context :=
  match document with
  | table [("Node", held)] => Context.node <$> reading.node held
  | document => reading.oneOf [("Global", Context.global)] document

def kind (document : Document) : Option EventKind := reading.oneOf kindNames document

def key (document : Document) : Option EventKey := do
  let record ← reading.record? ["ts", "uid", "context"] document
  let ts ← required record "ts" reading.timestamp
  let uid ← required record "uid" reading.uid
  let context ← required record "context" reading.context
  return ⟨ts, uid, context⟩

def transmission (document : Document) : Option Transmission := do
  let record ← reading.record? ["packet_size"] document
  return ⟨← required record "packet_size" reading.word32⟩

end Reading

end EventKernel.Document
