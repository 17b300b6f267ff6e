import EventKernel.Queue.Configuration

set_option autoImplicit false

/-! Settings as their owners write them, in three sections, and the queue configuration
that they stand for. The latency table comes from explicit rows, else from links, else
from one latency for all pairs. -/

namespace EventKernel

open Queue

structure SchedulerSettings where
  strategies : Strategies
  boundary : Boundary
deriving DecidableEq, Repr, Inhabited

def SchedulerSettings.standard : SchedulerSettings := ⟨.plain, .sequenced⟩

structure TopologySettings where
  entities : Nat
  defaultLatency : UInt64
  latency : List (List UInt64)
  links : List Link
  /-- The neighbours of each entity, for the credit rule. -/
  interfaces : List (List NodeId)
deriving DecidableEq, Repr, Inhabited

def TopologySettings.standard : TopologySettings := ⟨2, 0, [], [], []⟩

structure Settings where
  scheduler : SchedulerSettings
  topology : TopologySettings
  exploration : PerturbationSettings
deriving DecidableEq, Repr, Inhabited

def Settings.standard : Settings := ⟨.standard, .standard, .standard⟩

inductive SettingsError where
  | rowsAndLinks
  | unknownLinkEnd (first second entities : Nat)
  | configuration (error : ConfigurationError)
deriving DecidableEq, Repr

def SettingsError.message : SettingsError → String
  | rowsAndLinks => "Invalid configuration: topology sets both `latency` and `links`"
  | unknownLinkEnd first second entities =>
      s!"Invalid configuration: link {first}-{second} references an entity outside 0..{entities}"
  | configuration error => error.message

namespace TopologySettings

def unknownLinkEnd? (entities : Nat) : List Link → Option SettingsError
  | [] => none
  | link :: rest =>
      if entities ≤ link.first.index ∨ entities ≤ link.second.index then
        some (.unknownLinkEnd link.first.index link.second.index entities)
      else unknownLinkEnd? entities rest

def matrix (topology : TopologySettings) :
    Except Fault (Except SettingsError LatencyMatrix) := do
  if !topology.latency.isEmpty && !topology.links.isEmpty then
    return .error .rowsAndLinks
  else if !topology.latency.isEmpty then
    match LatencyMatrix.ofRows topology.latency with
    | .error error => return .error (.configuration error)
    | .ok matrix => return .ok matrix
  else if topology.links.isEmpty then
    return .ok (← LatencyMatrix.uniform topology.entities topology.defaultLatency)
  else match unknownLinkEnd? topology.entities topology.links with
    | some error => return .error error
    | none => return .ok (← LatencyMatrix.ofLinks topology.entities topology.links)

end TopologySettings

/-- The valid configuration that settings stand for. -/
def Settings.configuration (settings : Settings) :
    Except Fault (Except SettingsError Configuration) := do
  let plain ← Configuration.new settings.topology.entities
  match ← settings.topology.matrix with
  | .error error => return .error error
  | .ok latency =>
      let configuration := { plain with
        latency
        interfaces := settings.topology.interfaces
        strategies := settings.scheduler.strategies
        boundary := settings.scheduler.boundary
        exploration := settings.exploration }
      match ← configuration.validate with
      | .error error => return .error (.configuration error)
      | .ok () => return .ok configuration

end EventKernel
