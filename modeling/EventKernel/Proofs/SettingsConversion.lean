import EventKernel.Proofs.DecodedConfigurations
import EventKernel.Proofs.ShortestPaths
import EventKernel.Settings.Basic

set_option autoImplicit false

/-! From settings to a queue configuration. The sections are checked before a latency table is
made, so that a table is made from links between known entities only; and the table that comes out
has a cell for every pair of entities unless its size is refused first, so that no later check reads
a missing one. Every outcome is decided by the sections alone: settings that contradict themselves
are an error of their own, before anything that the checks of a configuration refuse.

Memory has to hold a table for the number of entities. Where the table comes from rows, it is taken
to have room for it (`LatencyMatrix.ofRows`). -/

namespace EventKernel

open Queue

/-! ### What decides the outcome -/

/-- Two sources of latency, or a link that leads out of the simulation. -/
inductive TopologySettings.Contradicts (topology : TopologySettings) : Prop
  | twoSources (rows : topology.latency ≠ []) (links : topology.links ≠ [])
  | unknownEnd (noRows : topology.latency = []) (link : Link) (listed : link ∈ topology.links)
      (outside : topology.entities ≤ link.first.index ∨ topology.entities ≤ link.second.index)

/-- Something that no queue is built from. -/
inductive Settings.Refused (settings : Settings) : Prop
  | unevenRow (row : List UInt64) (listed : row ∈ settings.topology.latency)
      (length : row.length ≠ settings.topology.latency.length)
  | rowCount (rows : settings.topology.latency ≠ [])
      (length : settings.topology.latency.length ≠ settings.topology.entities)
  | selfLatency (entity : Nat) (row : List UInt64) (latency : UInt64)
      (listed : settings.topology.latency[entity]? = some row)
      (own : row[entity]? = some latency) (notZero : latency ≠ 0)
  | interfaceRows (many : settings.topology.entities < settings.topology.interfaces.length)
  | unknownNeighbour (neighbours : List NodeId)
      (listed : neighbours ∈ settings.topology.interfaces) (node : NodeId)
      (member : node ∈ neighbours) (outside : settings.topology.entities ≤ node.index)
  | creditsWithoutLanes (credits : settings.scheduler.strategies.localListsV2 = true)
      (noLanes : settings.scheduler.strategies.localLists = false)
  | firstPerturbed (zero : settings.exploration.firstPerturbed = 0)

/-- Errors of the settings themselves, apart from those of the configuration made of them. -/
def SettingsError.IsValidation : SettingsError → Prop
  | .configuration _ => False
  | _ => True

/-- The table that the sections stand for: the rows, else shortest delays over the links, else one
latency. -/
structure TopologySettings.Describes (topology : TopologySettings) (matrix : LatencyMatrix) :
    Prop where
  covered : matrix.size = topology.entities
  rows : topology.latency ≠ [] → matrix.rows = topology.latency ∧
    ∀ source row target latency, topology.latency[source]? = some row →
      row[target]? = some latency → matrix.get source target = .ok latency
  links : topology.latency = [] → topology.links ≠ [] →
    matrix.Shortest topology.entities topology.links
  uniform : topology.latency = [] → topology.links = [] →
    ∀ source target, source < topology.entities → target < topology.entities →
      matrix.get source target = .ok (if source = target then 0 else topology.defaultLatency)

end EventKernel

/-! ### Tables -/

namespace EventKernel.Queue.LatencyMatrix

private theorem unevenRow?_cases (size index : Nat) (rows : List (List UInt64)) :
    (unevenRow? size index rows = none ∧ ∀ row ∈ rows, row.length = size) ∨
      ∃ error row, unevenRow? size index rows = some error ∧ row ∈ rows ∧
        row.length ≠ size := by
  induction rows generalizing index with
  | nil => exact .inl ⟨rfl, List.forall_mem_nil _⟩
  | cons row rest ih =>
      by_cases even : row.length = size
      · simp only [unevenRow?, if_pos even]
        rcases ih (index + 1) with ⟨none, lengths⟩ | ⟨error, other, found, listed, length⟩
        · exact .inl ⟨none, List.forall_mem_cons.mpr ⟨even, lengths⟩⟩
        · exact .inr ⟨error, other, found, List.mem_cons_of_mem _ listed, length⟩
      · simp only [unevenRow?, if_neg even]
        exact .inr ⟨_, row, rfl, List.mem_cons_self, even⟩

private theorem getElem?_flatten_rows {size target : Nat} (within : target < size)
    {rows : List (List UInt64)} (even : ∀ row ∈ rows, row.length = size) {source : Nat}
    {row : List UInt64} (listed : rows[source]? = some row) :
    rows.flatten[source * size + target]? = row[target]? := by
  induction rows generalizing source with
  | nil => simp at listed
  | cons first rest ih =>
      have length := even first List.mem_cons_self
      cases source with
      | zero =>
          obtain rfl : first = row := by simpa using listed
          rw [List.flatten_cons, Nat.zero_mul, Nat.zero_add,
            List.getElem?_append_left (by omega)]
      | succ source =>
          have further : (source + 1) * size + target = size + (source * size + target) := by
            rw [Nat.succ_mul]
            omega
          rw [List.flatten_cons, List.getElem?_append_right (by omega), further, length,
            Nat.add_sub_cancel_left]
          exact ih (fun other member => even other (List.mem_cons_of_mem _ member))
            (by simpa using listed)

private theorem length_flatten_rows {size : Nat} {rows : List (List UInt64)}
    (even : ∀ row ∈ rows, row.length = size) : rows.flatten.length = rows.length * size := by
  induction rows with
  | nil => simp
  | cons row rest ih =>
      rw [List.flatten_cons, List.length_append, even row List.mem_cons_self, List.length_cons,
        Nat.succ_mul, ih fun other member => even other (List.mem_cons_of_mem _ member)]
      omega

private theorem chunk_flatten {size : Nat} (positive : 0 < size) {rows : List (List UInt64)}
    (even : ∀ row ∈ rows, row.length = size) : chunk size rows.flatten = rows := by
  induction rows with
  | nil => simp [chunk]
  | cons row rest ih =>
      have length := even row List.mem_cons_self
      have others := ih fun other member => even other (List.mem_cons_of_mem _ member)
      cases row with
      | nil => simp at length; omega
      | cons cell cells =>
          have width : size - 1 = cells.length := by
            rw [List.length_cons] at length
            omega
          rw [List.flatten_cons, List.cons_append, chunk, width, List.take_left, List.drop_left,
            others]

private theorem cellCount_returns {size : Nat} (few : size * size < cellLimit) :
    cellCount size = .ok (size * size) := by
  unfold cellCount
  rw [if_neg (Nat.not_le_of_lt (Nat.lt_trans few (by decide))), if_neg (Nat.not_le_of_lt few)]

private theorem uniform_returns {size : Nat} (few : size * size < cellLimit) (latency : UInt64) :
    ∃ matrix, uniform size latency = .ok matrix ∧ matrix.size = size ∧
      ∀ source target, source < size → target < size →
        matrix.get source target = .ok (if source = target then 0 else latency) := by
  refine ⟨_, by rw [uniform, cellCount_returns few]; rfl, rfl, ?_⟩
  intro source target sourceKnown targetKnown
  refine get_eq_ok_iff.mpr ⟨?_, ?_⟩
  · exact Nat.lt_trans (cell_lt sourceKnown targetKnown) (Nat.lt_trans few (by decide))
  · rw [ofFunction, List.getElem?_toArray, List.flatMap_def]
    exact getElem?_flatten_tabulate sourceKnown targetKnown _

end EventKernel.Queue.LatencyMatrix

namespace EventKernel

open Queue

namespace TopologySettings

variable {topology : TopologySettings}

private theorem unknownLinkEnd?_cases (entities : Nat) (links : List Link) :
    (unknownLinkEnd? entities links = none ∧
      ∀ link ∈ links, link.first.index < entities ∧ link.second.index < entities) ∨
    ∃ error link, unknownLinkEnd? entities links = some error ∧ error.IsValidation ∧
      link ∈ links ∧ (entities ≤ link.first.index ∨ entities ≤ link.second.index) := by
  induction links with
  | nil => exact .inl ⟨rfl, List.forall_mem_nil _⟩
  | cons link rest ih =>
      by_cases outside : entities ≤ link.first.index ∨ entities ≤ link.second.index
      · simp only [unknownLinkEnd?, if_pos outside]
        exact .inr ⟨_, link, rfl, trivial, List.mem_cons_self, outside⟩
      · simp only [unknownLinkEnd?, if_neg outside]
        rcases ih with ⟨none, known⟩ | ⟨error, other, found, validation, listed, ends⟩
        · exact .inl ⟨none, List.forall_mem_cons.mpr ⟨by omega, known⟩⟩
        · exact .inr ⟨error, other, found, validation, List.mem_cons_of_mem _ listed, ends⟩

/-- What the sections come to: an error of theirs, uneven rows, rows as they are, or the table that
they describe. -/
inductive Tabled (topology : TopologySettings) : Except SettingsError LatencyMatrix → Prop
  | contradicts (error : SettingsError) (validation : error.IsValidation)
      (cause : topology.Contradicts) : Tabled topology (.error error)
  | uneven (error : ConfigurationError) (agrees : ¬ topology.Contradicts) (row : List UInt64)
      (listed : row ∈ topology.latency) (length : row.length ≠ topology.latency.length) :
      Tabled topology (.error (.configuration error))
  | given (agrees : ¬ topology.Contradicts) (rows : topology.latency ≠ [])
      (even : ∀ row ∈ topology.latency, row.length = topology.latency.length) :
      Tabled topology (.ok ⟨topology.latency.length, topology.latency.flatten.toArray⟩)
  | made (agrees : ¬ topology.Contradicts) (noRows : topology.latency = [])
      (matrix : LatencyMatrix) (describes : topology.Describes matrix) :
      Tabled topology (.ok matrix)

private theorem not_contradicts_of_rows (rows : topology.latency ≠ [])
    (noLinks : topology.links = []) : ¬ topology.Contradicts := by
  intro contradicts
  cases contradicts with
  | twoSources _ links => exact links noLinks
  | unknownEnd noRows => exact rows noRows

private theorem not_contradicts_of_links (noRows : topology.latency = [])
    (known : ∀ link ∈ topology.links,
      link.first.index < topology.entities ∧ link.second.index < topology.entities) :
    ¬ topology.Contradicts := by
  intro contradicts
  cases contradicts with
  | twoSources rows => exact rows noRows
  | unknownEnd _ link listed outside =>
      have inside := known link listed
      omega

private theorem matrix_returns
    (few : topology.entities * topology.entities < LatencyMatrix.cellLimit) :
    ∃ result, topology.matrix = .ok result ∧ topology.Tabled result := by
  by_cases rows : topology.latency = []
  · by_cases links : topology.links = []
    · obtain ⟨table, made, covered, reads⟩ :=
        LatencyMatrix.uniform_returns few topology.defaultLatency
      refine ⟨.ok table, ?_, .made (not_contradicts_of_links rows (by simp [links])) rows table
        ⟨covered, fun given => absurd rows given, fun _ given => absurd links given,
          fun _ _ => reads⟩⟩
      simp [matrix, rows, links, made, bind, Except.bind, pure, Except.pure]
    · rcases unknownLinkEnd?_cases topology.entities topology.links with
        ⟨inside, known⟩ | ⟨error, link, found, validation, listed, outside⟩
      · obtain ⟨table, made, shortest⟩ :=
          (LatencyMatrix.ofLinks_shortest topology.entities topology.links known).1 few
        refine ⟨.ok table, ?_, .made (not_contradicts_of_links rows known) rows table
          ⟨shortest.covered, fun given => absurd rows given, fun _ _ => shortest,
            fun _ nothing => absurd nothing links⟩⟩
        simp [matrix, rows, links, inside, made, bind, Except.bind, pure, Except.pure]
      · refine ⟨.error error, ?_,
          .contradicts error validation (.unknownEnd rows link listed outside)⟩
        simp [matrix, rows, links, found, pure, Except.pure]
  · by_cases links : topology.links = []
    · have agrees := not_contradicts_of_rows rows links
      rcases LatencyMatrix.unevenRow?_cases topology.latency.length 0 topology.latency with
        ⟨inside, even⟩ | ⟨error, row, found, listed, length⟩
      · refine ⟨_, ?_, .given agrees rows even⟩
        simp [matrix, rows, links, LatencyMatrix.ofRows, inside, pure, Except.pure]
      · refine ⟨.error (.configuration error), ?_, .uneven error agrees row listed length⟩
        simp [matrix, rows, links, LatencyMatrix.ofRows, found, pure, Except.pure]
    · refine ⟨.error .rowsAndLinks, ?_, .contradicts _ trivial (.twoSources rows links)⟩
      simp [matrix, rows, links, pure, Except.pure]

private theorem describes_of_rows
    (few : topology.entities * topology.entities < LatencyMatrix.cellLimit)
    (rows : topology.latency ≠ [])
    (even : ∀ row ∈ topology.latency, row.length = topology.latency.length)
    (covered : topology.latency.length = topology.entities) :
    topology.Describes ⟨topology.latency.length, topology.latency.flatten.toArray⟩ := by
  refine ⟨covered, fun _ => ⟨?_, ?_⟩, fun none => absurd none rows, fun none => absurd none rows⟩
  · exact LatencyMatrix.chunk_flatten (List.length_pos_iff.mpr rows) even
  · intro source row target latency listed read
    have sourceKnown := (List.getElem?_eq_some_iff.mp listed).1
    have targetKnown := (List.getElem?_eq_some_iff.mp read).1
    rw [even row (List.mem_of_getElem? listed)] at targetKnown
    refine LatencyMatrix.get_eq_ok_iff.mpr ⟨?_, ?_⟩
    · have inside := LatencyMatrix.cell_lt sourceKnown targetKnown
      rw [covered] at inside ⊢
      exact Nat.lt_trans inside (Nat.lt_trans few (by decide))
    · rw [List.getElem?_toArray, LatencyMatrix.getElem?_flatten_rows targetKnown even listed]
      exact read

private theorem Describes.own {matrix : LatencyMatrix} (describes : topology.Describes matrix)
    (noRows : topology.latency = []) (entity : Nat) (known : entity < topology.entities) :
    matrix.get entity entity = .ok 0 := by
  by_cases links : topology.links = []
  · have read := describes.uniform noRows links entity entity known known
    rwa [if_pos rfl] at read
  · exact (describes.links noRows links).self entity known

end TopologySettings

/-! ### Configurations -/

namespace Settings

variable {settings : Settings}

/-- The configuration with the values of the sections and a table. -/
def assemble (settings : Settings) (latency : LatencyMatrix) : Configuration where
  entities := settings.topology.entities
  latency
  interfaces := settings.topology.interfaces
  strategies := settings.scheduler.strategies
  boundary := settings.scheduler.boundary
  exploration := settings.exploration

/-- A configuration that stands for the settings and serves a queue. -/
structure Becomes (settings : Settings) (configuration : Configuration) : Prop where
  entities : configuration.entities = settings.topology.entities
  latency : settings.topology.Describes configuration.latency
  interfaces : configuration.interfaces = settings.topology.interfaces
  strategies : configuration.strategies = settings.scheduler.strategies
  boundary : configuration.boundary = settings.scheduler.boundary
  exploration : configuration.exploration = settings.exploration
  valid : configuration.validate = .ok (.ok ())
  builds : ∀ {σ : Type} (hook : σ), ∃ queue, EventQueue.new configuration hook = .ok (.ok queue)

/-- The outcomes of a conversion, in the order in which they are met. -/
inductive Converts (settings : Settings) : Except SettingsError Configuration → Prop
  | contradicts (error : SettingsError) (validation : error.IsValidation)
      (cause : settings.topology.Contradicts) : Converts settings (.error error)
  | refused (error : ConfigurationError) (agrees : ¬ settings.topology.Contradicts)
      (cause : settings.Refused) : Converts settings (.error (.configuration error))
  | accepted (agrees : ¬ settings.topology.Contradicts) (sound : ¬ settings.Refused)
      (configuration : Configuration) (becomes : settings.Becomes configuration) :
      Converts settings (.ok configuration)

private theorem accepted_of_not_refused {matrix : LatencyMatrix} (sound : ¬ settings.Refused)
    (covered : matrix.size = settings.topology.entities)
    (own : ∀ entity, entity < settings.topology.entities → matrix.get entity entity = .ok 0) :
    (settings.assemble matrix).validate = .ok (.ok ()) := by
  refine Configuration.validate_accepts_iff.mpr ⟨⟨covered, own, ?_, ?_, ?_⟩, ?_⟩
  · exact Nat.le_of_not_lt fun many => sound (.interfaceRows many)
  · intro neighbours listed node member
    exact Nat.lt_of_not_le fun outside =>
      sound (.unknownNeighbour neighbours listed node member outside)
  · intro credits
    cases lanes : settings.scheduler.strategies.localLists with
    | true => exact lanes
    | false => exact absurd (.creditsWithoutLanes credits lanes) sound
  · exact fun zero => sound (.firstPerturbed zero)

private theorem not_refused_of_accepted {matrix : LatencyMatrix}
    (valid : (settings.assemble matrix).validate = .ok (.ok ()))
    (even : ∀ row ∈ settings.topology.latency, row.length = settings.topology.latency.length)
    (covered : settings.topology.latency ≠ [] →
      settings.topology.latency.length = settings.topology.entities)
    (describes : settings.topology.Describes matrix) : ¬ settings.Refused := by
  obtain ⟨accepted, window⟩ := Configuration.validate_accepts_iff.mp valid
  intro refused
  cases refused with
  | unevenRow row listed length => exact length (even row listed)
  | rowCount rows length => exact length (covered rows)
  | selfLatency entity row latency listed own notZero =>
      have rows : settings.topology.latency ≠ [] := by
        intro none
        simp [none] at listed
      have known := (List.getElem?_eq_some_iff.mp listed).1
      rw [covered rows] at known
      have read := (describes.rows rows).2 entity row entity latency listed own
      have zero := accepted.selfLatency entity known
      rw [assemble, read] at zero
      exact notZero (Except.ok.inj zero)
  | interfaceRows many => exact Nat.not_lt.mpr accepted.interfaceRows many
  | unknownNeighbour neighbours listed node member outside =>
      exact Nat.not_lt.mpr outside (accepted.neighboursKnown neighbours listed node member)
  | creditsWithoutLanes credits noLanes =>
      have lanes := accepted.creditsNeedLanes credits
      rw [assemble, noLanes] at lanes
      cases lanes
  | firstPerturbed zero => exact window zero

private theorem checked_assemble {matrix : LatencyMatrix} (complete : matrix.Complete)
    (even : ∀ row ∈ settings.topology.latency, row.length = settings.topology.latency.length)
    (covered : settings.topology.latency ≠ [] →
      settings.topology.latency.length = settings.topology.entities)
    (describes : settings.topology.Describes matrix)
    (own : ¬ settings.Refused → ∀ entity, entity < settings.topology.entities →
      matrix.get entity entity = .ok 0) :
    (∃ error, (settings.assemble matrix).validate = .ok (.error error) ∧ settings.Refused) ∨
      (settings.assemble matrix).validate = .ok (.ok ()) ∧ ¬ settings.Refused ∧
        settings.Becomes (settings.assemble matrix) := by
  obtain ⟨verdict, checked⟩ : ∃ verdict, (settings.assemble matrix).validate = .ok verdict :=
    Configuration.validate_returns complete
  cases verdict with
  | error error =>
      refine .inl ⟨error, checked, Classical.byContradiction fun sound => ?_⟩
      rw [accepted_of_not_refused sound describes.covered (own sound)] at checked
      cases checked
  | ok _ =>
      have sound := not_refused_of_accepted checked even covered describes
      have serves := Configuration.serves_of_validate checked
      exact .inr ⟨checked, sound, rfl, describes, rfl, rfl, rfl, rfl, checked, serves.builds⟩

private theorem checked_rows
    (few : settings.topology.entities * settings.topology.entities < LatencyMatrix.cellLimit)
    (rows : settings.topology.latency ≠ [])
    (even : ∀ row ∈ settings.topology.latency, row.length = settings.topology.latency.length) :
    let matrix : LatencyMatrix :=
      ⟨settings.topology.latency.length, settings.topology.latency.flatten.toArray⟩
    (∃ error, (settings.assemble matrix).validate = .ok (.error error) ∧ settings.Refused) ∨
      (settings.assemble matrix).validate = .ok (.ok ()) ∧ ¬ settings.Refused ∧
        settings.Becomes (settings.assemble matrix) := by
  intro matrix
  by_cases covered : settings.topology.latency.length = settings.topology.entities
  · have describes := TopologySettings.describes_of_rows few rows even covered
    have cells : matrix.cells.size = matrix.size * matrix.size := by
      rw [List.size_toArray]
      exact LatencyMatrix.length_flatten_rows even
    have addressable : matrix.cells.size ≤ UInt64.size := by
      have size : matrix.size = settings.topology.entities := covered
      rw [cells, size]
      exact Nat.le_of_lt (Nat.lt_trans few (by decide))
    refine checked_assemble (LatencyMatrix.complete_of_cell_count cells addressable) even
      (fun _ => covered) describes ?_
    intro sound entity known
    have inside : entity < settings.topology.latency.length := by omega
    have listed := List.getElem?_eq_getElem inside
    have width := even _ (List.mem_of_getElem? listed)
    have read := (describes.rows rows).2 entity _ entity _ listed
      (List.getElem?_eq_getElem (by omega))
    rw [read]
    refine congrArg Except.ok (Classical.byContradiction fun notZero => sound ?_)
    exact .selfLatency entity _ _ listed (List.getElem?_eq_getElem (by omega)) notZero
  · left
    have checked := Configuration.checked_validate (settings.assemble matrix)
    generalize (settings.assemble matrix).validate = outcome at checked
    cases checked with
    | uncovered => exact ⟨_, rfl, .rowCount rows covered⟩
    | missing _ _ sizes => exact absurd sizes covered
    | delayed _ _ sizes => exact absurd sizes covered
    | inconsistent _ sizes => exact absurd sizes covered
    | accepted sizes => exact absurd sizes covered

private theorem checked_table {matrix : LatencyMatrix}
    (few : settings.topology.entities * settings.topology.entities < LatencyMatrix.cellLimit)
    (table : settings.topology.Tabled (.ok matrix)) :
    ¬ settings.topology.Contradicts ∧
      ((∃ error, (settings.assemble matrix).validate = .ok (.error error) ∧ settings.Refused) ∨
        (settings.assemble matrix).validate = .ok (.ok ()) ∧ ¬ settings.Refused ∧
          settings.Becomes (settings.assemble matrix)) := by
  cases table with
  | given agrees rows even => exact ⟨agrees, checked_rows few rows even⟩
  | made agrees noRows _ describes =>
      refine ⟨agrees, checked_assemble ?_ (by simp [noRows]) (absurd noRows) describes
        fun _ => describes.own noRows⟩
      exact LatencyMatrix.complete_of_diagonal fun entity known =>
        describes.own noRows entity (describes.covered ▸ known)

private theorem converts
    (few : settings.topology.entities * settings.topology.entities < LatencyMatrix.cellLimit) :
    ∃ outcome, settings.configuration = .ok outcome ∧ settings.Converts outcome := by
  obtain ⟨plainTable, plainMade, _⟩ := LatencyMatrix.uniform_returns few 0
  obtain ⟨result, tabled, table⟩ := TopologySettings.matrix_returns few
  unfold Settings.configuration Configuration.new
  simp only [plainMade, tabled, bind, Except.bind, pure, Except.pure]
  cases result with
  | error failure =>
      cases table with
      | contradicts _ validation cause => exact ⟨_, rfl, .contradicts failure validation cause⟩
      | uneven error agrees row listed length =>
          exact ⟨_, rfl, .refused error agrees (.unevenRow row listed length)⟩
  | ok matrix =>
      obtain ⟨agrees, checked⟩ := checked_table few table
      rcases checked with ⟨error, refused, cause⟩ | ⟨valid, sound, becomes⟩
      · refine ⟨_, ?_, .refused error agrees cause⟩
        change ((settings.assemble matrix).validate >>= _) = _
        rw [refused]
        rfl
      · refine ⟨_, ?_, .accepted agrees sound _ becomes⟩
        change ((settings.assemble matrix).validate >>= _) = _
        rw [valid]
        rfl

end Settings

end EventKernel
