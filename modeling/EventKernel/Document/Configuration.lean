import EventKernel.Document.Event
import EventKernel.Queue.Configuration

set_option autoImplicit false

/-! Configurations of the queue as documents, and back. Every field must be present. -/

namespace EventKernel.Document

open Queue

def ofList {α : Type} (write : α → Document) (items : List α) : Document :=
  list (items.map write)

def ofMatrix (matrix : LatencyMatrix) : Document := table [
  ("size", ofNat matrix.size),
  ("cells", ofList (fun cell => ofNat cell.toNat) matrix.cells.toList)]

def ofStrategies (strategies : Strategies) : Document := table [
  ("path_reduction", flag strategies.pathReduction),
  ("remove_cancelled", flag strategies.removeCancelled),
  ("waiting_list", flag strategies.waitingList),
  ("local_lists", flag strategies.localLists),
  ("local_lists_v2", flag strategies.localListsV2)]

def boundaryNames : List (String × Boundary) := [
  ("sequenced", .sequenced), ("inclusive", .inclusive)]

def ofBoundary : Boundary → Document
  | .sequenced => text "sequenced"
  | .inclusive => text "inclusive"

def ofPerturbation (settings : PerturbationSettings) : Document := table [
  ("enabled", flag settings.enabled),
  ("max_bound", ofNat settings.maxBound.toNat),
  ("max_perturbed_events", ofNat settings.maxPerturbedEvents.toNat),
  ("first_perturbed", ofNat settings.firstPerturbed.toNat),
  ("min_packet_size", ofNat settings.minPacketSize.toNat),
  ("trace_queue", flag settings.traceQueue)]

def ofConfiguration (configuration : Configuration) : Document := table [
  ("entities", ofNat configuration.entities),
  ("impact_latency", ofMatrix configuration.latency),
  ("interfaces", ofList (ofList ofNode) configuration.interfaces),
  ("strategies", ofStrategies configuration.strategies),
  ("lookahead_boundary", ofBoundary configuration.boundary),
  ("exploration", ofPerturbation configuration.exploration)]

def perturbationNames : List String := [
  "enabled", "max_bound", "max_perturbed_events", "first_perturbed", "min_packet_size",
  "trace_queue"]

namespace Reading

variable (reading : Reading)

def matrix (document : Document) : Option LatencyMatrix := do
  let record ← reading.record? ["size", "cells"] document
  let size ← required record "size" reading.size
  let cells ← required record "cells" (readList reading.word64)
  return ⟨size, cells.toArray⟩

def strategies (document : Document) : Option Strategies := do
  let record ← reading.record?
    ["path_reduction", "remove_cancelled", "waiting_list", "local_lists", "local_lists_v2"]
    document
  let pathReduction ← required record "path_reduction" reading.flag
  let removeCancelled ← required record "remove_cancelled" reading.flag
  let waitingList ← required record "waiting_list" reading.flag
  let localLists ← required record "local_lists" reading.flag
  let localListsV2 ← required record "local_lists_v2" reading.flag
  return { pathReduction, removeCancelled, waitingList, localLists, localListsV2 }

def boundary (document : Document) : Option Boundary := reading.oneOf boundaryNames document

def perturbation (document : Document) : Option PerturbationSettings := do
  let record ← reading.record? perturbationNames document
  let enabled ← required record "enabled" reading.flag
  let maxBound ← required record "max_bound" reading.word64
  let maxPerturbedEvents ← required record "max_perturbed_events" reading.word32
  let firstPerturbed ← required record "first_perturbed" reading.word32
  let minPacketSize ← required record "min_packet_size" reading.word32
  let traceQueue ← required record "trace_queue" reading.flag
  return { enabled, maxBound, maxPerturbedEvents, firstPerturbed, minPacketSize, traceQueue }

def configuration (document : Document) : Option Configuration := do
  let record ← reading.record?
    ["entities", "impact_latency", "interfaces", "strategies", "lookahead_boundary",
      "exploration"]
    document
  let entities ← required record "entities" reading.size
  let latency ← required record "impact_latency" reading.matrix
  let interfaces ← required record "interfaces" (readList (readList reading.node))
  let strategies ← required record "strategies" reading.strategies
  let boundary ← required record "lookahead_boundary" reading.boundary
  let exploration ← required record "exploration" reading.perturbation
  return { entities, latency, interfaces, strategies, boundary, exploration }

end Reading

end EventKernel.Document
