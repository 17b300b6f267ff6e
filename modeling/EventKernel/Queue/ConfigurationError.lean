set_option autoImplicit false

/-! Why a configuration is refused. -/

namespace EventKernel.Queue

inductive ConfigurationError where
  | rowLength (row found expected : Nat)
  | matrixSize (found expected : Nat)
  | selfLatency (entity latency : Nat)
  | interfaceRows (found expected : Nat)
  | unknownNeighbour (entity neighbour : Nat)
  | creditsWithoutLanes
  | firstPerturbedZero
deriving DecidableEq, Repr

namespace ConfigurationError

def detail : ConfigurationError → String
  | rowLength row found expected =>
      s!"impact latency row {row} has {found} entries, expected {expected}"
  | matrixSize found expected =>
      s!"impact latency matrix covers {found} entities, expected {expected}"
  | selfLatency entity latency =>
      s!"impact latency from entity {entity} to itself is {latency}, expected 0"
  | interfaceRows found expected =>
      s!"interfaces listed for {found} entities, only {expected} exist"
  | unknownNeighbour entity neighbour =>
      s!"entity {entity} has an interface to unknown entity {neighbour}"
  | creditsWithoutLanes => "local_lists_v2 requires local_lists"
  | firstPerturbedZero => "first_perturbed is 1-based and must be at least 1"

def message (error : ConfigurationError) : String :=
  s!"invalid scheduler configuration: {error.detail}"

end ConfigurationError

end EventKernel.Queue
