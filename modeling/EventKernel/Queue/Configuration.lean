import EventKernel.Queue.LatencyMatrix
import EventKernel.Queue.Strategy

set_option autoImplicit false

/-! What a queue is built from. A configuration is checked once; the first cause of
refusal, in the order of the checks, is the one reported. A latency table that violates
the triangle inequality is accepted. -/

namespace EventKernel.Queue

/-- How an event compares with what another entity could still cause at the last instant. -/
inductive Boundary where
  /-- Ties at the boundary are decided by serial number, as in removal order. -/
  | sequenced
  /-- The boundary itself is allowed, unless the latency is zero. -/
  | inclusive
deriving DecidableEq, Repr, Inhabited

structure PerturbationSettings where
  enabled : Bool
  maxBound : UInt64
  maxPerturbedEvents : UInt32
  /-- The first transmission that is perturbed, counted from one. -/
  firstPerturbed : UInt32
  /-- Transmissions no larger than this are never perturbed. -/
  minPacketSize : UInt32
  /-- Whether each insertion reports the queue to the hook. -/
  traceQueue : Bool
deriving DecidableEq, Repr, Inhabited

namespace PerturbationSettings

def standard : PerturbationSettings := ⟨false, 1200, 1, 1, 58, false⟩

def bounded (maxBound : UInt64) : PerturbationSettings :=
  { standard with enabled := true, maxBound }

end PerturbationSettings

structure Configuration where
  /-- Contexts of entities below this number are valid. -/
  entities : Nat
  latency : LatencyMatrix
  /-- The neighbours of each entity, for the credit rule. -/
  interfaces : List (List NodeId)
  strategies : Strategies
  boundary : Boundary
  exploration : PerturbationSettings
deriving DecidableEq, Repr, Inhabited

namespace Configuration

/-- A plain queue for entities without latency between them. -/
def new (entities : Nat) : Except Fault Configuration := do
  let latency ← LatencyMatrix.uniform entities 0
  return {
    entities
    latency
    interfaces := []
    strategies := .plain
    boundary := .sequenced
    exploration := .standard }

def selfLatency? (matrix : LatencyMatrix) : List Nat → Except Fault (Option ConfigurationError)
  | [] => .ok none
  | entity :: rest => do
      let latency ← matrix.get entity entity
      if latency = 0 then selfLatency? matrix rest
      else return some (.selfLatency entity latency.toNat)

def unknownNeighbour? (entities : Nat) : Nat → List (List NodeId) → Option ConfigurationError
  | _, [] => none
  | entity, neighbours :: rest =>
      match neighbours.find? (fun node => entities ≤ node.index) with
      | some node => some (.unknownNeighbour entity node.index)
      | none => unknownNeighbour? entities (entity + 1) rest

/-- The checks that read no latency, after those that do. -/
def interfaceError? (configuration : Configuration) : Option ConfigurationError :=
  if configuration.entities < configuration.interfaces.length then
    some (.interfaceRows configuration.interfaces.length configuration.entities)
  else match unknownNeighbour? configuration.entities 0 configuration.interfaces with
    | some error => some error
    | none =>
        if configuration.strategies.localListsV2 && !configuration.strategies.localLists then
          some .creditsWithoutLanes
        else if configuration.exploration.firstPerturbed = 0 then some .firstPerturbedZero
        else none

def validate (configuration : Configuration) : Except Fault (Except ConfigurationError Unit) := do
  if configuration.latency.size ≠ configuration.entities then
    return .error (.matrixSize configuration.latency.size configuration.entities)
  match ← selfLatency? configuration.latency (List.range configuration.entities) with
  | some error => return .error error
  | none =>
      -- An inconsistent table is only worth a warning, but a missing cell is a fault.
      let _ ← configuration.latency.isTriangleConsistent
      match configuration.interfaceError? with
      | some error => return .error error
      | none => return .ok ()

end Configuration

end EventKernel.Queue
