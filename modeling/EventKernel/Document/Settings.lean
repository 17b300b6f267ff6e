import EventKernel.Document.Configuration
import EventKernel.Settings.Basic

set_option autoImplicit false

/-! Settings as documents, and back. Sections, and fields of sections, that are left out
have their standard values; links are complete. -/

namespace EventKernel.Document

open Queue

def ofSchedulerSettings (settings : SchedulerSettings) : Document :=
  table ((ofStrategies settings.strategies).fields ++
    [("lookahead_boundary", ofBoundary settings.boundary)])

def ofLink (link : Link) : Document := table [
  ("a", ofNode link.first), ("b", ofNode link.second), ("delay", ofNat link.delay.toNat)]

def ofTopologySettings (settings : TopologySettings) : Document := table [
  ("entities", ofNat settings.entities),
  ("default_latency", ofNat settings.defaultLatency.toNat),
  ("latency", ofList (ofList fun latency => ofNat latency.toNat) settings.latency),
  ("links", ofList ofLink settings.links),
  ("interfaces", ofList (ofList ofNode) settings.interfaces)]

def ofSettings (settings : Settings) : Document := table [
  ("scheduler", ofSchedulerSettings settings.scheduler),
  ("topology", ofTopologySettings settings.topology),
  ("exploration", ofPerturbation settings.exploration)]

namespace Reading

variable (reading : Reading)

def schedulerSettings (document : Document) : Option SchedulerSettings := do
  let record ← reading.record?
    ["path_reduction", "remove_cancelled", "waiting_list", "local_lists", "local_lists_v2",
      "lookahead_boundary"]
    document
  let standard := SchedulerSettings.standard
  let flagOr (name : String) (fallback : Bool) := defaulted record name fallback reading.flag
  let pathReduction ← flagOr "path_reduction" standard.strategies.pathReduction
  let removeCancelled ← flagOr "remove_cancelled" standard.strategies.removeCancelled
  let waitingList ← flagOr "waiting_list" standard.strategies.waitingList
  let localLists ← flagOr "local_lists" standard.strategies.localLists
  let localListsV2 ← flagOr "local_lists_v2" standard.strategies.localListsV2
  let boundary ← defaulted record "lookahead_boundary" standard.boundary reading.boundary
  return ⟨{ pathReduction, removeCancelled, waitingList, localLists, localListsV2 }, boundary⟩

def link (document : Document) : Option Link := do
  let record ← reading.record? ["a", "b", "delay"] document
  let first ← required record "a" reading.node
  let second ← required record "b" reading.node
  let delay ← required record "delay" reading.word64
  return { first, second, delay }

def topologySettings (document : Document) : Option TopologySettings := do
  let record ← reading.record?
    ["entities", "default_latency", "latency", "links", "interfaces"] document
  let standard := TopologySettings.standard
  let entities ← defaulted record "entities" standard.entities reading.size
  let defaultLatency ←
    defaulted record "default_latency" standard.defaultLatency reading.word64
  let latency ←
    defaulted record "latency" standard.latency (readList (readList reading.word64))
  let links ← defaulted record "links" standard.links (readList reading.link)
  let interfaces ←
    defaulted record "interfaces" standard.interfaces (readList (readList reading.node))
  return { entities, defaultLatency, latency, links, interfaces }

def perturbationSettings (document : Document) : Option PerturbationSettings := do
  let record ← reading.record? perturbationNames document
  let standard := PerturbationSettings.standard
  let enabled ← defaulted record "enabled" standard.enabled reading.flag
  let maxBound ← defaulted record "max_bound" standard.maxBound reading.word64
  let maxPerturbedEvents ←
    defaulted record "max_perturbed_events" standard.maxPerturbedEvents reading.word32
  let firstPerturbed ←
    defaulted record "first_perturbed" standard.firstPerturbed reading.word32
  let minPacketSize ← defaulted record "min_packet_size" standard.minPacketSize reading.word32
  let traceQueue ← defaulted record "trace_queue" standard.traceQueue reading.flag
  return { enabled, maxBound, maxPerturbedEvents, firstPerturbed, minPacketSize, traceQueue }

def settings (document : Document) : Option Settings := do
  let record ← reading.record? ["scheduler", "topology", "exploration"] document
  let scheduler ← defaulted record "scheduler" .standard reading.schedulerSettings
  let topology ← defaulted record "topology" .standard reading.topologySettings
  let exploration ← defaulted record "exploration" .standard reading.perturbationSettings
  return { scheduler, topology, exploration }

end Reading

end EventKernel.Document
