import EventKernel.Document.Settings
import EventKernel.Proofs.JsonRoundTrip
import EventKernel.Proofs.KeptFields

set_option autoImplicit false

/-! Keys, configurations and settings as JSON texts, and back. What was written is read as it was.
Where fields are left out of the text, settings get the standard values in their place, whole
sections as well as fields of sections; keys, links and configurations cannot be read any more. -/

namespace EventKernel

open Queue

/-! ### What is left of settings -/

def SchedulerSettings.keeping (settings : SchedulerSettings) (kept : String → Bool) :
    SchedulerSettings :=
  let standard := SchedulerSettings.standard
  { strategies := {
      pathReduction := if kept "path_reduction" then settings.strategies.pathReduction
        else standard.strategies.pathReduction
      removeCancelled := if kept "remove_cancelled" then settings.strategies.removeCancelled
        else standard.strategies.removeCancelled
      waitingList := if kept "waiting_list" then settings.strategies.waitingList
        else standard.strategies.waitingList
      localLists := if kept "local_lists" then settings.strategies.localLists
        else standard.strategies.localLists
      localListsV2 := if kept "local_lists_v2" then settings.strategies.localListsV2
        else standard.strategies.localListsV2 }
    boundary := if kept "lookahead_boundary" then settings.boundary else standard.boundary }

def TopologySettings.keeping (settings : TopologySettings) (kept : String → Bool) :
    TopologySettings :=
  let standard := TopologySettings.standard
  { entities := if kept "entities" then settings.entities else standard.entities
    defaultLatency := if kept "default_latency" then settings.defaultLatency
      else standard.defaultLatency
    latency := if kept "latency" then settings.latency else standard.latency
    links := if kept "links" then settings.links else standard.links
    interfaces := if kept "interfaces" then settings.interfaces else standard.interfaces }

def Queue.PerturbationSettings.keeping (settings : PerturbationSettings) (kept : String → Bool) :
    PerturbationSettings :=
  let standard := PerturbationSettings.standard
  { enabled := if kept "enabled" then settings.enabled else standard.enabled
    maxBound := if kept "max_bound" then settings.maxBound else standard.maxBound
    maxPerturbedEvents := if kept "max_perturbed_events" then settings.maxPerturbedEvents
      else standard.maxPerturbedEvents
    firstPerturbed := if kept "first_perturbed" then settings.firstPerturbed
      else standard.firstPerturbed
    minPacketSize := if kept "min_packet_size" then settings.minPacketSize
      else standard.minPacketSize
    traceQueue := if kept "trace_queue" then settings.traceQueue else standard.traceQueue }

/-- The settings with standard values for the sections that are not kept, and for the fields of the
others that are not kept. -/
def Settings.keeping (settings : Settings) (kept : String → Bool)
    (within : String → String → Bool) : Settings where
  scheduler := if kept "scheduler" then settings.scheduler.keeping (within "scheduler")
    else .standard
  topology := if kept "topology" then settings.topology.keeping (within "topology")
    else .standard
  exploration := if kept "exploration" then settings.exploration.keeping (within "exploration")
    else .standard

end EventKernel

namespace EventKernel.Json

open Document Queue

variable (kept : String → Bool) (within : String → String → Bool)

/-! ### Identities -/

private theorem timestamp_ofTimestamp (ts : Timestamp) :
    reading.timestamp (ofTimestamp ts) = some ts :=
  congrArg (Timestamp.mk <$> ·) (word64_ofNat ts.value)

private theorem uid_ofUid (uid : EventUid) : reading.uid (ofUid uid) = some uid :=
  congrArg (EventUid.mk <$> ·) (word64_ofNat uid.value)

private theorem node_ofNode (node : NodeId) : reading.node (ofNode node) = some node :=
  congrArg (NodeId.mk <$> ·) (word32_ofNat node.value)

private theorem context_ofContext (context : Context) :
    reading.context (ofContext context) = some context := by
  cases context with
  | global => rfl
  | node id => exact congrArg (Context.node <$> ·) (node_ofNode id)

private theorem boundary_ofBoundary (boundary : Boundary) :
    reading.boundary (ofBoundary boundary) = some boundary := by
  cases boundary with
  | sequenced => rfl
  | inclusive => rfl

private theorem nodes_ofList (interfaces : List (List NodeId)) :
    readList (readList reading.node) (ofList (ofList ofNode) interfaces) = some interfaces :=
  readList_ofList fun _ _ => readList_ofList fun node _ => node_ofNode node

/-! ### Records without defaults -/

def keyNames : List String := ["ts", "uid", "context"]

private theorem key_kept (key : EventKey) :
    reading.key ((ofKey key).keepFields kept) = if keyNames.all kept then some key else none := by
  have record : reading.record? ["ts", "uid", "context"] ((ofKey key).keepFields kept) =
      some ((ofKey key).fields.filter fun field => kept field.1) :=
    reading.record?_kept _ (ofKey key) kept rfl rfl (by decide)
  have ts : required (ofKey key).fields "ts" reading.timestamp = some key.ts :=
    timestamp_ofTimestamp key.ts
  have uid : required (ofKey key).fields "uid" reading.uid = some key.uid := uid_ofUid key.uid
  have context : required (ofKey key).fields "context" reading.context = some key.context :=
    context_ofContext key.context
  unfold Reading.key keyNames
  simp only [Option.bind_eq_bind, record, Option.bind_some, required_kept, ts, uid, context,
    bind_kept, kept_and, List.all_cons, List.all_nil, Bool.and_true]
  rfl

def linkNames : List String := ["a", "b", "delay"]

private theorem link_kept (link : Link) :
    reading.link ((ofLink link).keepFields kept) =
      if linkNames.all kept then some link else none := by
  have record : reading.record? ["a", "b", "delay"] ((ofLink link).keepFields kept) =
      some ((ofLink link).fields.filter fun field => kept field.1) :=
    reading.record?_kept _ (ofLink link) kept rfl rfl (by decide)
  have first : required (ofLink link).fields "a" reading.node = some link.first :=
    node_ofNode link.first
  have second : required (ofLink link).fields "b" reading.node = some link.second :=
    node_ofNode link.second
  have delay : required (ofLink link).fields "delay" reading.word64 = some link.delay :=
    word64_ofNat link.delay
  unfold Reading.link linkNames
  simp only [Option.bind_eq_bind, record, Option.bind_some, required_kept, first, second, delay,
    bind_kept, kept_and, List.all_cons, List.all_nil, Bool.and_true]
  rfl

def matrixNames : List String := ["size", "cells"]

private theorem matrix_kept {matrix : LatencyMatrix} (fits : matrix.size < UInt64.size) :
    reading.matrix ((ofMatrix matrix).keepFields kept) =
      if matrixNames.all kept then some matrix else none := by
  have record : reading.record? ["size", "cells"] ((ofMatrix matrix).keepFields kept) =
      some ((ofMatrix matrix).fields.filter fun field => kept field.1) :=
    reading.record?_kept _ (ofMatrix matrix) kept rfl rfl (by decide)
  have size : required (ofMatrix matrix).fields "size" reading.size = some matrix.size :=
    size_ofNat fits
  have cells : required (ofMatrix matrix).fields "cells" (readList reading.word64) =
      some matrix.cells.toList := readList_ofList fun cell _ => word64_ofNat cell
  unfold Reading.matrix matrixNames
  simp only [Option.bind_eq_bind, record, Option.bind_some, required_kept, size, cells,
    bind_kept, kept_and, List.all_cons, List.all_nil, Bool.and_true, Array.toArray_toList]
  rfl

def strategyNames : List String := [
  "path_reduction", "remove_cancelled", "waiting_list", "local_lists", "local_lists_v2"]

private theorem strategies_kept (strategies : Strategies) :
    reading.strategies ((ofStrategies strategies).keepFields kept) =
      if strategyNames.all kept then some strategies else none := by
  have record : reading.record?
      ["path_reduction", "remove_cancelled", "waiting_list", "local_lists", "local_lists_v2"]
      ((ofStrategies strategies).keepFields kept) =
        some ((ofStrategies strategies).fields.filter fun field => kept field.1) :=
    reading.record?_kept _ (ofStrategies strategies) kept rfl rfl (by decide)
  have pathReduction : required (ofStrategies strategies).fields "path_reduction" reading.flag =
      some strategies.pathReduction := rfl
  have removeCancelled : required (ofStrategies strategies).fields "remove_cancelled"
      reading.flag = some strategies.removeCancelled := rfl
  have waitingList : required (ofStrategies strategies).fields "waiting_list" reading.flag =
      some strategies.waitingList := rfl
  have localLists : required (ofStrategies strategies).fields "local_lists" reading.flag =
      some strategies.localLists := rfl
  have localListsV2 : required (ofStrategies strategies).fields "local_lists_v2" reading.flag =
      some strategies.localListsV2 := rfl
  unfold Reading.strategies strategyNames
  simp only [Option.bind_eq_bind, record, Option.bind_some, required_kept, pathReduction,
    removeCancelled, waitingList, localLists, localListsV2, bind_kept, kept_and, List.all_cons,
    List.all_nil, Bool.and_true]
  rfl

/-- The fields of exploration settings, as they are read. -/
structure PerturbationFields (fields : List (String × Document))
    (settings : PerturbationSettings) : Prop where
  enabled : required fields "enabled" reading.flag = some settings.enabled
  maxBound : required fields "max_bound" reading.word64 = some settings.maxBound
  maxPerturbedEvents : required fields "max_perturbed_events" reading.word32 =
    some settings.maxPerturbedEvents
  firstPerturbed : required fields "first_perturbed" reading.word32 =
    some settings.firstPerturbed
  minPacketSize : required fields "min_packet_size" reading.word32 = some settings.minPacketSize
  traceQueue : required fields "trace_queue" reading.flag = some settings.traceQueue

private theorem perturbation_fields (settings : PerturbationSettings) :
    PerturbationFields (ofPerturbation settings).fields settings where
  enabled := rfl
  maxBound := word64_ofNat settings.maxBound
  maxPerturbedEvents := word32_ofNat settings.maxPerturbedEvents
  firstPerturbed := word32_ofNat settings.firstPerturbed
  minPacketSize := word32_ofNat settings.minPacketSize
  traceQueue := rfl

private theorem perturbation_record (settings : PerturbationSettings) :
    reading.record? perturbationNames ((ofPerturbation settings).keepFields kept) =
      some ((ofPerturbation settings).fields.filter fun field => kept field.1) :=
  reading.record?_kept _ (ofPerturbation settings) kept rfl rfl (by decide)

private theorem perturbation_kept (settings : PerturbationSettings) :
    reading.perturbation ((ofPerturbation settings).keepFields kept) =
      if perturbationNames.all kept then some settings else none := by
  obtain ⟨enabled, maxBound, maxPerturbedEvents, firstPerturbed, minPacketSize, traceQueue⟩ :=
    perturbation_fields settings
  unfold Reading.perturbation
  simp only [Option.bind_eq_bind, perturbation_record, Option.bind_some, required_kept, enabled,
    maxBound, maxPerturbedEvents, firstPerturbed, minPacketSize, traceQueue, bind_kept, kept_and]
  unfold perturbationNames
  simp only [List.all_cons, List.all_nil, Bool.and_true]
  rfl

/-- The fields of a configuration, each with the fields of the record under it. -/
def configurationNames : List (String × List String) := [
  ("entities", []), ("impact_latency", matrixNames), ("interfaces", []),
  ("strategies", strategyNames), ("lookahead_boundary", []),
  ("exploration", perturbationNames)]

/-- A configuration whose sizes are numbers of 64 bits. -/
structure ConfigurationFits (configuration : Configuration) : Prop where
  entities : configuration.entities < UInt64.size
  matrix : configuration.latency.size < UInt64.size

theorem configuration_kept {configuration : Configuration}
    (fits : ConfigurationFits configuration) :
    reading.configuration (((ofConfiguration configuration).keepWithin within).keepFields kept) =
      if configurationNames.all fun field => kept field.1 && field.2.all (within field.1)
      then some configuration else none := by
  let document := (ofConfiguration configuration).keepWithin within
  have record : reading.record?
      ["entities", "impact_latency", "interfaces", "strategies", "lookahead_boundary",
        "exploration"] (document.keepFields kept) =
        some (document.fields.filter fun field => kept field.1) :=
    reading.record?_kept _ document kept rfl rfl (by decide)
  have entities : required document.fields "entities" reading.size =
      some configuration.entities := size_ofNat fits.entities
  have latency : required document.fields "impact_latency" reading.matrix = _ :=
    matrix_kept (within "impact_latency") fits.matrix
  have interfaces : required document.fields "interfaces" (readList (readList reading.node)) =
      some configuration.interfaces := nodes_ofList configuration.interfaces
  have strategies : required document.fields "strategies" reading.strategies = _ :=
    strategies_kept (within "strategies") configuration.strategies
  have boundary : required document.fields "lookahead_boundary" reading.boundary =
      some configuration.boundary := by
    cases configuration with
    | mk _ _ _ _ boundary _ =>
        cases boundary with
        | sequenced => rfl
        | inclusive => rfl
  have exploration : required document.fields "exploration" reading.perturbation = _ :=
    perturbation_kept (within "exploration") configuration.exploration
  change reading.configuration (document.keepFields kept) = _
  unfold Reading.configuration configurationNames
  simp only [Option.bind_eq_bind, record, Option.bind_some, required_kept, entities, latency,
    interfaces, strategies, boundary, exploration, bind_kept, kept_and, List.all_cons,
    List.all_nil, Bool.and_true]
  rfl

/-! ### Records with defaults -/

private theorem perturbationSettings_kept (settings : PerturbationSettings) :
    reading.perturbationSettings ((ofPerturbation settings).keepFields kept) =
      some (settings.keeping kept) := by
  have fields := perturbation_fields settings
  unfold Reading.perturbationSettings PerturbationSettings.keeping
  simp only [Option.bind_eq_bind, perturbation_record, Option.bind_some, defaulted_kept,
    defaulted_of_required fields.enabled, defaulted_of_required fields.maxBound,
    defaulted_of_required fields.maxPerturbedEvents, defaulted_of_required fields.firstPerturbed,
    defaulted_of_required fields.minPacketSize, defaulted_of_required fields.traceQueue,
    kept_or_standard]
  rfl

private theorem schedulerSettings_kept (settings : SchedulerSettings) :
    reading.schedulerSettings ((ofSchedulerSettings settings).keepFields kept) =
      some (settings.keeping kept) := by
  let document := ofSchedulerSettings settings
  have record : reading.record?
      ["path_reduction", "remove_cancelled", "waiting_list", "local_lists", "local_lists_v2",
        "lookahead_boundary"] (document.keepFields kept) =
        some (document.fields.filter fun field => kept field.1) :=
    reading.record?_kept _ document kept rfl rfl (by decide)
  have pathReduction (fallback : Bool) : defaulted document.fields "path_reduction" fallback
      reading.flag = some settings.strategies.pathReduction := rfl
  have removeCancelled (fallback : Bool) : defaulted document.fields "remove_cancelled" fallback
      reading.flag = some settings.strategies.removeCancelled := rfl
  have waitingList (fallback : Bool) : defaulted document.fields "waiting_list" fallback
      reading.flag = some settings.strategies.waitingList := rfl
  have localLists (fallback : Bool) : defaulted document.fields "local_lists" fallback
      reading.flag = some settings.strategies.localLists := rfl
  have localListsV2 (fallback : Bool) : defaulted document.fields "local_lists_v2" fallback
      reading.flag = some settings.strategies.localListsV2 := rfl
  have boundary (fallback : Boundary) : defaulted document.fields "lookahead_boundary" fallback
      reading.boundary = some settings.boundary := boundary_ofBoundary settings.boundary
  change reading.schedulerSettings (document.keepFields kept) = _
  unfold Reading.schedulerSettings SchedulerSettings.keeping
  simp only [Option.bind_eq_bind, record, Option.bind_some, defaulted_kept, pathReduction,
    removeCancelled, waitingList, localLists, localListsV2, boundary, kept_or_standard]
  rfl

private theorem topologySettings_kept {settings : TopologySettings}
    (fits : settings.entities < UInt64.size) :
    reading.topologySettings ((ofTopologySettings settings).keepFields kept) =
      some (settings.keeping kept) := by
  let document := ofTopologySettings settings
  have record : reading.record?
      ["entities", "default_latency", "latency", "links", "interfaces"]
      (document.keepFields kept) =
        some (document.fields.filter fun field => kept field.1) :=
    reading.record?_kept _ document kept rfl rfl (by decide)
  have whole (link : Link) : reading.link (ofLink link) = some link := by
    have kept := link_kept (fun _ => true) link
    rw [keepFields_all] at kept
    exact kept
  have entities (fallback : Nat) : defaulted document.fields "entities" fallback reading.size =
      some settings.entities := size_ofNat fits
  have defaultLatency (fallback : UInt64) : defaulted document.fields "default_latency" fallback
      reading.word64 = some settings.defaultLatency := word64_ofNat settings.defaultLatency
  have latency (fallback : List (List UInt64)) : defaulted document.fields "latency" fallback
      (readList (readList reading.word64)) = some settings.latency :=
    readList_ofList fun _ _ => readList_ofList fun latency _ => word64_ofNat latency
  have links (fallback : List Link) : defaulted document.fields "links" fallback
      (readList reading.link) = some settings.links := readList_ofList fun link _ => whole link
  have interfaces (fallback : List (List NodeId)) : defaulted document.fields "interfaces"
      fallback (readList (readList reading.node)) = some settings.interfaces :=
    nodes_ofList settings.interfaces
  change reading.topologySettings (document.keepFields kept) = _
  unfold Reading.topologySettings TopologySettings.keeping
  simp only [Option.bind_eq_bind, record, Option.bind_some, defaulted_kept, entities,
    defaultLatency, latency, links, interfaces, kept_or_standard]
  rfl

private theorem settings_kept {settings : Settings}
    (fits : settings.topology.entities < UInt64.size) :
    reading.settings (((ofSettings settings).keepWithin within).keepFields kept) =
      some (settings.keeping kept within) := by
  let document := (ofSettings settings).keepWithin within
  have record : reading.record? ["scheduler", "topology", "exploration"]
      (document.keepFields kept) =
        some (document.fields.filter fun field => kept field.1) :=
    reading.record?_kept _ document kept rfl rfl (by decide)
  have scheduler (fallback : SchedulerSettings) : defaulted document.fields "scheduler" fallback
      reading.schedulerSettings = _ :=
    schedulerSettings_kept (within "scheduler") settings.scheduler
  have topology (fallback : TopologySettings) : defaulted document.fields "topology" fallback
      reading.topologySettings = _ := topologySettings_kept (within "topology") fits
  have exploration (fallback : PerturbationSettings) : defaulted document.fields "exploration"
      fallback reading.perturbationSettings = _ :=
    perturbationSettings_kept (within "exploration") settings.exploration
  change reading.settings (document.keepFields kept) = _
  unfold Reading.settings Settings.keeping
  simp only [Option.bind_eq_bind, record, Option.bind_some, defaulted_kept, scheduler, topology,
    exploration, kept_or_standard]
  rfl

private theorem keeping_all (settings : Settings) :
    settings.keeping (fun _ => true) (fun _ _ => true) = settings := rfl

private theorem topologySettings_of_broken_link {inner : List (String × Document)}
    {items : List Document}
    (listed : ("links", list items) ∈ inner) {broken : Document} (member : broken ∈ items)
    (unread : reading.link broken = none) :
    reading.topologySettings (table inner) = none := by
  unfold Reading.topologySettings
  cases read : reading.record?
      ["entities", "default_latency", "latency", "links", "interfaces"] (table inner) with
  | none => rfl
  | some record =>
      have found := Reading.lookup_of_record read rfl listed
      have links (fallback : List Link) :
          defaulted record "links" fallback (readList reading.link) = none := by
        unfold defaulted
        rw [found]
        exact readList_eq_none member unread
      simp only [Option.bind_eq_bind, Option.bind_some, links, Option.bind_none,
        Option.bind_fun_none]

private theorem settings_of_broken_link {fields inner : List (String × Document)}
    {items : List Document} (section_ : ("topology", table inner) ∈ fields)
    (listed : ("links", list items) ∈ inner) {broken : Document} (member : broken ∈ items)
    (unread : reading.link broken = none) : reading.settings (table fields) = none := by
  unfold Reading.settings
  cases read : reading.record? ["scheduler", "topology", "exploration"] (table fields) with
  | none => rfl
  | some record =>
      have found := Reading.lookup_of_record read rfl section_
      have topology (fallback : TopologySettings) :
          defaulted record "topology" fallback reading.topologySettings = none := by
        unfold defaulted
        rw [found]
        exact topologySettings_of_broken_link listed member unread
      simp only [Option.bind_eq_bind, Option.bind_some, topology, Option.bind_none,
        Option.bind_fun_none]

/-! ### Texts -/

def decode {α : Type} (decoder : Document → Option α) (text : List Char) : Option α :=
  (read text).bind decoder

theorem decode_write {α : Type} (decoder : Document → Option α) {document : Document}
    (writable : isWritable document = true) :
    decode decoder (write document) = decoder document := by
  unfold decode
  rw [read_write document writable]
  rfl

private theorem areFieldsWritable_iff {fields : List (String × Document)} :
    areFieldsWritable fields = true ↔ ∀ field ∈ fields, isWritable field.2 = true := by
  induction fields with
  | nil => exact ⟨fun _ => List.forall_mem_nil _, fun _ => rfl⟩
  | cons field rest ih =>
      rw [List.forall_mem_cons, ← ih]
      exact Bool.and_eq_true_iff

private theorem isWritable_ofList {α : Type} {write : α → Document} {items : List α}
    (each : ∀ item, isWritable (write item) = true) : isWritable (ofList write items) = true := by
  change areItemsWritable (items.map write) = true
  induction items with
  | nil => rfl
  | cons item rest ih => exact Bool.and_eq_true_iff.mpr ⟨each item, ih⟩

private theorem isWritable_keepFields {document : Document}
    (writable : isWritable document = true) :
    isWritable (document.keepFields kept) = true := by
  cases document with
  | table fields =>
      refine areFieldsWritable_iff.mpr fun field member => ?_
      exact areFieldsWritable_iff.mp writable field (List.mem_filter.mp member).1
  | _ => exact writable

private theorem isWritable_keepWithin {document : Document}
    (writable : isWritable document = true) :
    isWritable (document.keepWithin within) = true := by
  cases document with
  | table fields =>
      refine areFieldsWritable_iff.mpr fun field member => ?_
      obtain ⟨before, present, rfl⟩ := List.mem_map.mp member
      exact isWritable_keepFields _ (areFieldsWritable_iff.mp writable before present)
  | _ => exact writable

private theorem isWritable_ofKey (key : EventKey) : isWritable (ofKey key) = true := by
  obtain ⟨_, _, context⟩ := key
  cases context with
  | global => rfl
  | node id => rfl

private theorem isWritable_nodes (interfaces : List (List NodeId)) :
    isWritable (ofList (ofList ofNode) interfaces) = true :=
  isWritable_ofList fun _ => isWritable_ofList fun _ => rfl

theorem isWritable_ofConfiguration (configuration : Configuration) :
    isWritable (ofConfiguration configuration) = true := by
  have cells : isWritable (ofMatrix configuration.latency) = true :=
    areFieldsWritable_iff.mpr (by
      simp only [List.forall_mem_cons]
      exact ⟨rfl, isWritable_ofList fun _ => rfl, List.forall_mem_nil _⟩)
  have boundary : isWritable (ofBoundary configuration.boundary) = true := by
    cases configuration.boundary with
    | sequenced => rfl
    | inclusive => rfl
  refine areFieldsWritable_iff.mpr ?_
  simp only [List.forall_mem_cons]
  exact ⟨rfl, cells, isWritable_nodes _, rfl, boundary, rfl, List.forall_mem_nil _⟩

private theorem isWritable_ofSettings (settings : Settings) :
    isWritable (ofSettings settings) = true := by
  have scheduler : isWritable (ofSchedulerSettings settings.scheduler) = true := by
    obtain ⟨⟨_, boundary⟩, _, _⟩ := settings
    cases boundary with
    | sequenced => rfl
    | inclusive => rfl
  have topology : isWritable (ofTopologySettings settings.topology) = true := by
    refine areFieldsWritable_iff.mpr ?_
    simp only [List.forall_mem_cons]
    exact ⟨rfl, rfl, isWritable_ofList fun _ => isWritable_ofList fun _ => rfl,
      isWritable_ofList fun _ => rfl, isWritable_nodes _, List.forall_mem_nil _⟩
  refine areFieldsWritable_iff.mpr ?_
  simp only [List.forall_mem_cons]
  exact ⟨scheduler, topology, rfl, List.forall_mem_nil _⟩

/-- Settings, configurations and keys are read from their texts as they were written. Where sections
of settings and fields of these sections are left out, in any choice, the settings have exactly
their standard values instead. Keys and links without any one of their fields, configurations
without any one of theirs or of those of the records in them, and settings that list such a link
cannot be read. -/
theorem written_values_read_back :
    (∀ settings : Settings, settings.topology.entities < UInt64.size →
      decode reading.settings (write (ofSettings settings)) = some settings ∧
      ∀ (kept : String → Bool) (within : String → String → Bool),
        decode reading.settings
          (write (((ofSettings settings).keepWithin within).keepFields kept)) =
            some (settings.keeping kept within)) ∧
    (∀ configuration : Configuration, ConfigurationFits configuration →
      decode reading.configuration (write (ofConfiguration configuration)) =
        some configuration ∧
      ∀ (kept : String → Bool) (within : String → String → Bool),
        decode reading.configuration
          (write (((ofConfiguration configuration).keepWithin within).keepFields kept)) =
            if configurationNames.all fun field => kept field.1 && field.2.all (within field.1)
            then some configuration else none) ∧
    (∀ key : EventKey, decode reading.key (write (ofKey key)) = some key ∧
      ∀ kept : String → Bool, decode reading.key (write ((ofKey key).keepFields kept)) =
        if keyNames.all kept then some key else none) ∧
    (∀ (link : Link) (kept : String → Bool),
      decode reading.link (write ((ofLink link).keepFields kept)) =
        (if linkNames.all kept then some link else none) ∧
      (linkNames.all kept = false → ∀ (fields inner : List (String × Document))
        (items : List Document), ("topology", table inner) ∈ fields →
          ("links", list items) ∈ inner → (ofLink link).keepFields kept ∈ items →
          isWritable (table fields) = true →
          decode reading.settings (write (table fields)) = none)) := by
  refine ⟨fun settings fits => ⟨?_, fun kept within => ?_⟩,
    fun configuration fits => ⟨?_, fun kept within => ?_⟩, fun key => ⟨?_, fun kept => ?_⟩,
    fun link kept => ⟨?_, fun missing fields inner items topology links member writable => ?_⟩⟩
  · have read := settings_kept (fun _ => true) (fun _ _ => true) fits
    rw [keepWithin_all, keepFields_all, keeping_all] at read
    rw [decode_write _ (isWritable_ofSettings settings), read]
  · rw [decode_write _ (isWritable_keepFields _
      (isWritable_keepWithin _ (isWritable_ofSettings settings))), settings_kept _ _ fits]
  · have read := configuration_kept (fun _ => true) (fun _ _ => true) fits
    rw [keepWithin_all, keepFields_all] at read
    rw [decode_write _ (isWritable_ofConfiguration configuration), read]
    rfl
  · rw [decode_write _ (isWritable_keepFields _
      (isWritable_keepWithin _ (isWritable_ofConfiguration configuration))),
      configuration_kept _ _ fits]
  · have read := key_kept (fun _ => true) key
    rw [keepFields_all] at read
    rw [decode_write _ (isWritable_ofKey key), read]
    rfl
  · rw [decode_write _ (isWritable_keepFields _ (isWritable_ofKey key)), key_kept]
  · rw [decode_write _ (isWritable_keepFields _ (show isWritable (ofLink link) = true from rfl)),
      link_kept]
  · rw [decode_write _ writable]
    refine settings_of_broken_link topology links member ?_
    rw [link_kept, missing]
    rfl

def extremeSettings : Settings where
  scheduler := ⟨.all, .inclusive⟩
  topology := {
    entities := 0xFFFFFFFFFFFFFFFF
    defaultLatency := 0xFFFFFFFFFFFFFFFF
    latency := [[0, 0xFFFFFFFFFFFFFFFF], []]
    links := [⟨⟨0⟩, ⟨0xFFFFFFFF⟩, 7⟩]
    interfaces := [[], [⟨0xFFFFFFFF⟩]] }
  exploration := ⟨true, 0xFFFFFFFFFFFFFFFF, 0xFFFFFFFF, 2, 3, true⟩

def extremeConfiguration : Configuration where
  entities := 0xFFFFFFFFFFFFFFFF
  latency := ⟨2, #[0, 0xFFFFFFFFFFFFFFFF, 1, 0]⟩
  interfaces := [[⟨0xFFFFFFFF⟩], []]
  strategies := .all
  boundary := .sequenced
  exploration := .standard

/-- The greatest numbers are read back, a topology that is left out is the standard one, and no
configuration lacks the size of its latencies. -/
theorem written_values_read_back_extreme :
    decode reading.settings (write (ofSettings extremeSettings)) = some extremeSettings ∧
    decode reading.settings (write (((ofSettings extremeSettings).keepWithin
      fun _ name => name != "max_bound").keepFields fun name => name != "topology")) =
        some { extremeSettings with
          topology := .standard
          exploration := { extremeSettings.exploration with maxBound := 1200 } } ∧
    decode reading.configuration (write (ofConfiguration extremeConfiguration)) =
      some extremeConfiguration ∧
    decode reading.configuration (write (((ofConfiguration extremeConfiguration).keepWithin
      fun _ name => name != "size").keepFields fun _ => true)) = none := by
  obtain ⟨settings, configurations, _⟩ := written_values_read_back
  obtain ⟨whole, reduced⟩ := settings extremeSettings (by decide)
  obtain ⟨complete, incomplete⟩ := configurations extremeConfiguration ⟨by decide, by decide⟩
  exact ⟨whole, reduced _ _, complete, incomplete _ _⟩

end EventKernel.Json
