import EventKernel.Proofs.DocumentRoundTrip
import EventKernel.Proofs.LayoutOperations

set_option autoImplicit false

/-! What the checks of a configuration make of one that was read from text. The size of a latency
table and its cells are read apart, so the table may have too few cells or too many, and no check
counts them. Where cells are missing the checks themselves may read one, which is a fault; where a
configuration is accepted every cell that a queue can ask for is there, and perhaps more. -/

namespace EventKernel.Queue

namespace LatencyMatrix

/-- The cell can be read: its position is a number of 64 bits, and the table reaches so far. -/
def HasCell (matrix : LatencyMatrix) (source target : Nat) : Prop :=
  source * matrix.size + target < UInt64.size ∧
    source * matrix.size + target < matrix.cells.size

def Complete (matrix : LatencyMatrix) : Prop :=
  ∀ source target, source < matrix.size → target < matrix.size → matrix.HasCell source target

/-- The first entity whose latency to itself is not known to be zero has no cell for it. -/
structure LacksOwn (matrix : LatencyMatrix) (entity : Nat) : Prop where
  within : entity < matrix.size
  zeroBefore : ∀ earlier, earlier < entity → matrix.get earlier earlier = .ok 0
  missing : ¬ matrix.HasCell entity entity

variable {matrix : LatencyMatrix}

private theorem hasCell_iff {source target : Nat} :
    matrix.HasCell source target ↔ ∃ latency, matrix.get source target = .ok latency := by
  constructor
  · rintro ⟨addressable, inside⟩
    exact ⟨_, get_eq_ok_iff.mpr ⟨addressable, Array.getElem?_eq_getElem inside⟩⟩
  · rintro ⟨latency, read⟩
    obtain ⟨addressable, found⟩ := get_eq_ok_iff.mp read
    exact ⟨addressable, (Array.getElem?_eq_some_iff.mp found).1⟩

private theorem not_hasCell_of_fault {source target : Nat} {fault : Fault}
    (failed : matrix.get source target = .error fault) : ¬ matrix.HasCell source target := by
  intro holds
  obtain ⟨latency, read⟩ := hasCell_iff.mp holds
  rw [failed] at read
  cases read

theorem complete_of_diagonal
    (own : ∀ entity, entity < matrix.size → matrix.get entity entity = .ok 0) :
    matrix.Complete := by
  intro source target sourceKnown targetKnown
  obtain ⟨last, size⟩ : ∃ last, matrix.size = last + 1 := ⟨matrix.size - 1, by omega⟩
  exact hasCell_iff.mpr
    (get_of_last size (own last (by omega)) sourceKnown targetKnown)

private theorem Complete.cell_count (complete : matrix.Complete) :
    matrix.size * matrix.size ≤ matrix.cells.size := by
  cases size : matrix.size with
  | zero => exact Nat.zero_le _
  | succ last =>
      obtain ⟨_, inside⟩ := complete last last (by omega) (by omega)
      rw [size] at inside
      have rows : (last + 1) * (last + 1) = last * (last + 1) + last + 1 := by
        rw [Nat.add_one_mul, Nat.add_assoc]
      omega

theorem complete_of_cell_count (count : matrix.cells.size = matrix.size * matrix.size)
    (addressable : matrix.cells.size ≤ UInt64.size) : matrix.Complete := by
  intro source target sourceKnown targetKnown
  have rows : (source + 1) * matrix.size ≤ matrix.size * matrix.size :=
    Nat.mul_le_mul_right _ sourceKnown
  rw [Nat.add_one_mul] at rows
  exact ⟨by omega, by omega⟩

private theorem allBelow_returns {test : Nat → Except Fault Bool} {indices : List Nat}
    (returns : ∀ index ∈ indices, ∃ passes, test index = .ok passes) :
    ∃ passes, allBelow test indices = .ok passes := by
  induction indices with
  | nil => exact ⟨true, rfl⟩
  | cons index rest ih =>
      obtain ⟨passes, tested⟩ := returns index List.mem_cons_self
      obtain ⟨others, rested⟩ := ih fun other member =>
        returns other (List.mem_cons_of_mem _ member)
      unfold allBelow
      rw [tested]
      cases passes with
      | true => exact ⟨others, rested⟩
      | false => exact ⟨false, rfl⟩

private theorem Complete.isTriangleConsistent (complete : matrix.Complete) :
    ∃ consistent, matrix.isTriangleConsistent = .ok consistent := by
  refine allBelow_returns fun source sourceKnown =>
    allBelow_returns fun middle middleKnown => allBelow_returns fun target targetKnown => ?_
  have read (first second : Nat) (firstKnown : first ∈ List.range matrix.size)
      (secondKnown : second ∈ List.range matrix.size) :
      ∃ latency, matrix.get first second = .ok latency :=
    hasCell_iff.mp (complete first second (List.mem_range.mp firstKnown)
      (List.mem_range.mp secondKnown))
  obtain ⟨direct, directRead⟩ := read source target sourceKnown targetKnown
  obtain ⟨first, firstRead⟩ := read source middle sourceKnown middleKnown
  obtain ⟨second, secondRead⟩ := read middle target middleKnown targetKnown
  rw [directRead, firstRead, secondRead]
  exact ⟨_, rfl⟩

end LatencyMatrix

namespace Configuration

/-! ### The outcomes of the checks -/

/-- What the checks of a configuration come to, in the order in which they are made. -/
inductive Checked (configuration : Configuration) :
    Except Fault (Except ConfigurationError Unit) → Prop where
  | uncovered (sizes : configuration.latency.size ≠ configuration.entities) :
      Checked configuration
        (.ok (.error (.matrixSize configuration.latency.size configuration.entities)))
  | missing (entity : Nat) (fault : Fault)
      (covered : configuration.latency.size = configuration.entities)
      (lacks : configuration.latency.LacksOwn entity)
      (failed : configuration.latency.get entity entity = .error fault) :
      Checked configuration (.error fault)
  | delayed (entity : Nat) (latency : UInt64)
      (covered : configuration.latency.size = configuration.entities)
      (within : entity < configuration.latency.size)
      (zeroBefore : ∀ earlier, earlier < entity →
        configuration.latency.get earlier earlier = .ok 0)
      (read : configuration.latency.get entity entity = .ok latency) (notZero : latency ≠ 0) :
      Checked configuration (.ok (.error (.selfLatency entity latency.toNat)))
  | inconsistent (error : ConfigurationError)
      (covered : configuration.latency.size = configuration.entities)
      (own : ∀ entity, entity < configuration.latency.size →
        configuration.latency.get entity entity = .ok 0)
      (found : configuration.interfaceError? = some error) :
      Checked configuration (.ok (.error error))
  | accepted (covered : configuration.latency.size = configuration.entities)
      (own : ∀ entity, entity < configuration.latency.size →
        configuration.latency.get entity entity = .ok 0)
      (consistent : configuration.interfaceError? = none) :
      Checked configuration (.ok (.ok ()))

private theorem selfLatency?_cases (matrix : LatencyMatrix) (first count : Nat) :
    (selfLatency? matrix (List.range' first count) = .ok none ∧
      ∀ entity, first ≤ entity → entity < first + count → matrix.get entity entity = .ok 0) ∨
    ∃ entity, first ≤ entity ∧ entity < first + count ∧
      (∀ earlier, first ≤ earlier → earlier < entity → matrix.get earlier earlier = .ok 0) ∧
      ((∃ latency, matrix.get entity entity = .ok latency ∧ latency ≠ 0 ∧
          selfLatency? matrix (List.range' first count) =
            .ok (some (.selfLatency entity latency.toNat))) ∨
        ∃ fault, matrix.get entity entity = .error fault ∧
          selfLatency? matrix (List.range' first count) = .error fault) := by
  induction count generalizing first with
  | zero => exact .inl ⟨rfl, fun entity lower upper => absurd upper (by omega)⟩
  | succ count ih =>
      rw [List.range'_succ]
      unfold selfLatency?
      cases read : matrix.get first first with
      | error fault =>
          exact .inr ⟨first, Nat.le_refl _, by omega,
            fun earlier lower upper => absurd upper (by omega), .inr ⟨fault, read, rfl⟩⟩
      | ok latency =>
          simp only [bind, Except.bind]
          by_cases zero : latency = 0
          · rw [if_pos zero]
            rw [zero] at read
            -- The first entity passes, so the outcome is that of the others.
            have own (entity : Nat) (lower : first ≤ entity)
                (later : first + 1 ≤ entity → matrix.get entity entity = .ok 0) :
                matrix.get entity entity = .ok 0 := by
              rcases Nat.eq_or_lt_of_le lower with same | beyond
              · rw [← same, read]
              · exact later beyond
            rcases ih (first + 1) with ⟨none, zeros⟩ | ⟨entity, lower, upper, zeros, outcome⟩
            · exact .inl ⟨none, fun entity lower upper => own entity lower fun beyond =>
                zeros entity beyond (by omega)⟩
            · exact .inr ⟨entity, by omega, by omega, fun earlier from_ before =>
                own earlier from_ fun beyond => zeros earlier beyond before, outcome⟩
          · rw [if_neg zero]
            exact .inr ⟨first, Nat.le_refl _, by omega,
              fun earlier lower upper => absurd upper (by omega),
              .inl ⟨latency, read, zero, rfl⟩⟩

theorem checked_validate (configuration : Configuration) :
    configuration.Checked configuration.validate := by
  unfold validate
  by_cases covered : configuration.latency.size = configuration.entities
  · rw [if_neg (not_not_intro covered), List.range_eq_range', ← covered]
    simp only [bind, Except.bind, pure, Except.pure]
    rcases selfLatency?_cases configuration.latency 0 configuration.latency.size with
      ⟨none, zeros⟩ | ⟨entity, _, within, zeros, outcome⟩
    · have own (entity : Nat) (known : entity < configuration.latency.size) :
          configuration.latency.get entity entity = .ok 0 :=
        zeros entity (Nat.zero_le _) (by omega)
      obtain ⟨consistent, compared⟩ :=
        (LatencyMatrix.complete_of_diagonal own).isTriangleConsistent
      simp only [none, compared]
      cases found : configuration.interfaceError? with
      | none => exact .accepted covered own found
      | some error => exact .inconsistent error covered own found
    · have zeroBefore (earlier : Nat) (before : earlier < entity) :
          configuration.latency.get earlier earlier = .ok 0 :=
        zeros earlier (Nat.zero_le _) before
      rcases outcome with ⟨latency, read, notZero, found⟩ | ⟨fault, failed, stopped⟩
      · simp only [found]
        exact .delayed entity latency covered (by omega) zeroBefore read notZero
      · simp only [stopped]
        exact .missing entity fault covered
          ⟨by omega, zeroBefore, LatencyMatrix.not_hasCell_of_fault failed⟩ failed
  · rw [if_pos covered]
    exact .uncovered covered

private theorem unknownNeighbour?_of_known (entities entity : Nat)
    (interfaces : List (List NodeId))
    (known : ∀ neighbours ∈ interfaces, ∀ node ∈ neighbours, node.index < entities) :
    unknownNeighbour? entities entity interfaces = none := by
  induction interfaces generalizing entity with
  | nil => rfl
  | cons first rest ih =>
      have noneHere : first.find? (fun node => decide (entities ≤ node.index)) = none := by
        rw [List.find?_eq_none]
        intro node member
        have below := known first List.mem_cons_self node member
        rw [decide_eq_true_eq]
        omega
      unfold unknownNeighbour?
      rw [noneHere]
      exact ih (entity + 1) fun neighbours member =>
        known neighbours (List.mem_cons_of_mem _ member)

variable {configuration : Configuration}

private theorem Accepted.interfaceError? (accepted : configuration.Accepted) :
    configuration.interfaceError? =
      if configuration.exploration.firstPerturbed = 0 then some .firstPerturbedZero else none := by
  have lanes : (configuration.strategies.localListsV2 && !configuration.strategies.localLists) =
      false := by
    cases credits : configuration.strategies.localListsV2 with
    | false => rfl
    | true => rw [accepted.creditsNeedLanes credits]; rfl
  unfold Configuration.interfaceError?
  rw [if_neg (Nat.not_lt.mpr accepted.interfaceRows),
    unknownNeighbour?_of_known _ _ _ accepted.neighboursKnown]
  simp only [lanes, Bool.false_eq_true, if_false]

/-! ### What decides the outcome -/

private theorem validate_faults_iff :
    (∃ fault, configuration.validate = .error fault) ↔
      configuration.latency.size = configuration.entities ∧
        ∃ entity, configuration.latency.LacksOwn entity := by
  have checked := checked_validate configuration
  generalize configuration.validate = outcome at checked
  constructor
  · rintro ⟨fault, rfl⟩
    cases checked with
    | missing entity _ covered lacks _ => exact ⟨covered, entity, lacks⟩
  · rintro ⟨covered, entity, within, zeroBefore, missing⟩
    cases checked with
    | uncovered sizes => exact absurd covered sizes
    | missing _ fault _ _ _ => exact ⟨fault, rfl⟩
    | delayed other latency _ _ zeros read notZero =>
        -- The first entity with a latency to itself can stand nowhere.
        rcases Nat.lt_trichotomy other entity with before | same | after
        · rw [zeroBefore other before] at read
          cases read
          exact absurd rfl notZero
        · rw [same] at read
          exact absurd (LatencyMatrix.hasCell_iff.mpr ⟨latency, read⟩) missing
        · exact absurd (LatencyMatrix.hasCell_iff.mpr ⟨0, zeros entity after⟩) missing
    | inconsistent error _ own _ =>
        exact absurd (LatencyMatrix.hasCell_iff.mpr ⟨0, own entity within⟩) missing
    | accepted _ own _ =>
        exact absurd (LatencyMatrix.hasCell_iff.mpr ⟨0, own entity within⟩) missing

theorem validate_accepts_iff :
    configuration.validate = .ok (.ok ()) ↔
      configuration.Accepted ∧ configuration.exploration.firstPerturbed ≠ 0 := by
  constructor
  · intro valid
    have accepted := accepted_of_validate valid
    have checked := checked_validate configuration
    rw [valid] at checked
    cases checked with
    | accepted _ _ consistent =>
        refine ⟨accepted, fun zero => ?_⟩
        rw [accepted.interfaceError?, if_pos zero] at consistent
        cases consistent
  · rintro ⟨accepted, window⟩
    have own (entity : Nat) (known : entity < configuration.latency.size) :
        configuration.latency.get entity entity = .ok 0 :=
      accepted.selfLatency entity (accepted.covered ▸ known)
    have checked := checked_validate configuration
    generalize configuration.validate = outcome at checked
    cases checked with
    | uncovered sizes => exact absurd accepted.covered sizes
    | missing entity fault _ lacks failed =>
        rw [own entity lacks.within] at failed
        cases failed
    | delayed entity latency _ within _ read notZero =>
        rw [own entity within] at read
        cases read
        exact absurd rfl notZero
    | inconsistent error _ _ found =>
        rw [accepted.interfaceError?, if_neg window] at found
        cases found
    | accepted _ _ _ => rfl

/-! ### Tables of the right and of the wrong length -/

def withCells (configuration : Configuration) (cells : Array UInt64) : Configuration :=
  { configuration with latency := ⟨configuration.latency.size, cells⟩ }

def truncate (configuration : Configuration) (count : Nat) : Configuration :=
  configuration.withCells (configuration.latency.cells.toList.take count).toArray

def extend (configuration : Configuration) (surplus : Array UInt64) : Configuration :=
  configuration.withCells (configuration.latency.cells ++ surplus)

private theorem get_of_same_cell {matrix other : LatencyMatrix} {source target : Nat}
    {latency : UInt64} (read : matrix.get source target = .ok latency)
    (sizes : matrix.size = other.size)
    (cells : ∀ position : Nat, matrix.cells[position]? = some latency →
      other.cells[position]? = some latency) : other.get source target = .ok latency := by
  obtain ⟨addressable, found⟩ := LatencyMatrix.get_eq_ok_iff.mp read
  rw [sizes] at addressable found
  exact LatencyMatrix.get_eq_ok_iff.mpr ⟨addressable, cells _ found⟩

private theorem Accepted.extend_cells (accepted : configuration.Accepted) (surplus : Array UInt64) :
    (configuration.extend surplus).Accepted where
  covered := accepted.covered
  selfLatency entity within := by
    refine get_of_same_cell (accepted.selfLatency entity within) rfl fun position found => ?_
    change (configuration.latency.cells ++ surplus)[position]? = some 0
    rw [Array.getElem?_append_left (Array.getElem?_eq_some_iff.mp found).1, found]
  interfaceRows := accepted.interfaceRows
  neighboursKnown := accepted.neighboursKnown
  creditsNeedLanes := accepted.creditsNeedLanes

/-- Whatever is missing of an accepted table, the checks come upon it. -/
theorem Accepted.truncate_cells (accepted : configuration.Accepted) {count : Nat}
    (short : count < configuration.entities * configuration.entities) :
    ∃ fault, (configuration.truncate count).validate = .error fault := by
  have sizes : (configuration.truncate count).latency.size = configuration.entities :=
    accepted.covered
  -- A cell that is left is the one that was there.
  have kept {entity : Nat} {latency : UInt64}
      (read : (configuration.truncate count).latency.get entity entity = .ok latency) :
      configuration.latency.get entity entity = .ok latency := by
    refine get_of_same_cell read rfl fun position found => ?_
    change (configuration.latency.cells.toList.take count).toArray[position]? = _ at found
    rw [List.getElem?_toArray, List.getElem?_take] at found
    split at found
    · rw [← Array.getElem?_toList, found]
    · cases found
  have incomplete : ¬ ∀ entity, entity < (configuration.truncate count).latency.size →
      (configuration.truncate count).latency.get entity entity = .ok 0 := by
    intro own
    have cells := (LatencyMatrix.complete_of_diagonal own).cell_count
    rw [sizes] at cells
    change _ ≤ (configuration.latency.cells.toList.take count).toArray.size at cells
    rw [List.size_toArray, List.length_take] at cells
    omega
  have checked := checked_validate (configuration.truncate count)
  generalize Configuration.validate _ = outcome at checked
  cases checked with
  | uncovered sizes => exact absurd accepted.covered sizes
  | missing _ fault _ _ _ => exact ⟨fault, rfl⟩
  | delayed entity latency _ within _ read notZero =>
      have own := kept read
      rw [accepted.selfLatency entity (accepted.covered ▸ within)] at own
      cases own
      exact absurd rfl notZero
  | inconsistent _ _ own _ => exact absurd own incomplete
  | accepted _ own _ => exact absurd own incomplete

/-- What a queue needs of its configuration. -/
structure Serves (configuration : Configuration) : Prop where
  cells : configuration.entities * configuration.entities ≤ configuration.latency.cells.size
  reads : ∀ source target, source < configuration.entities → target < configuration.entities →
    ∃ latency, configuration.latency.get source target = .ok latency
  neighbours : ∀ nodes ∈ configuration.interfaces, ∀ node ∈ nodes,
    node.index < configuration.entities
  builds : ∀ {σ : Type} (hook : σ), ∃ queue, EventQueue.new configuration hook = .ok (.ok queue)

theorem serves_of_validate (valid : configuration.validate = .ok (.ok ())) :
    configuration.Serves := by
  have accepted := accepted_of_validate valid
  refine ⟨?_, accepted.latencies, accepted.neighboursKnown, fun hook => ?_⟩
  · rw [← accepted.covered]
    refine (LatencyMatrix.complete_of_diagonal fun entity known => ?_).cell_count
    exact accepted.selfLatency entity (accepted.covered ▸ known)
  · obtain ⟨layout, built, _⟩ := Layout.new_sound accepted
    refine ⟨⟨configuration, layout, .new configuration.exploration, hook⟩, ?_⟩
    unfold EventQueue.new
    simp only [bind, Except.bind, valid, built]
    rfl

theorem validate_returns (complete : configuration.latency.Complete) :
    ∃ verdict, configuration.validate = .ok verdict := by
  cases outcome : configuration.validate with
  | ok verdict => exact ⟨verdict, rfl⟩
  | error fault =>
      obtain ⟨_, entity, within, _, missing⟩ := validate_faults_iff.mp ⟨fault, outcome⟩
      exact absurd (complete entity entity within within) missing

end Configuration

end EventKernel.Queue

namespace EventKernel.Json

open Document Queue

/-! ### Configurations from texts -/

private theorem required_size {record : List (String × Document)} {name : String} {value : Nat}
    (read : required record name reading.size = some value) : value < UInt64.size := by
  unfold required at read
  split at read
  · unfold Reading.size at read
    split at read
    · split at read
      · rename_i fits
        cases read
        exact fits
      · cases read
    · cases read
  · cases read

private theorem matrix_size_fits {document : Document} {matrix : LatencyMatrix}
    (read : reading.matrix document = some matrix) : matrix.size < UInt64.size := by
  unfold Reading.matrix at read
  simp only [Option.bind_eq_bind, Option.bind_eq_some_iff] at read
  obtain ⟨record, _, size, sizeRead, cells, _, same⟩ := read
  cases same
  exact required_size sizeRead

private theorem configuration_fits {document : Document} {configuration : Configuration}
    (read : reading.configuration document = some configuration) :
    ConfigurationFits configuration := by
  unfold Reading.configuration at read
  simp only [Option.bind_eq_bind, Option.bind_eq_some_iff] at read
  obtain ⟨record, _, entities, entitiesRead, latency, latencyRead, interfaces, _, strategies, _,
    boundary, _, exploration, _, same⟩ := read
  cases same
  refine ⟨required_size entitiesRead, ?_⟩
  unfold required at latencyRead
  split at latencyRead
  · exact matrix_size_fits latencyRead
  · cases latencyRead

private theorem exists_text_iff {configuration : Configuration} :
    (∃ text, decode reading.configuration text = some configuration) ↔
      ConfigurationFits configuration := by
  constructor
  · rintro ⟨text, decoded⟩
    obtain ⟨document, _, read⟩ := Option.bind_eq_some_iff.mp decoded
    exact configuration_fits read
  · intro fits
    refine ⟨write (ofConfiguration configuration), ?_⟩
    have kept := configuration_kept (fun _ => true) (fun _ _ => true) fits
    rw [keepWithin_all, keepFields_all] at kept
    rw [decode_write _ (isWritable_ofConfiguration configuration), kept]
    rfl

/-- What the checks do with a configuration from a text. The texts stand for all tables. The checks
fault exactly if the table lacks the own cell of an entity and nothing was wrong before it; they
accept exactly what has zeros on the diagonal and interfaces, strategies and a window that fit, and
what they accept serves a queue, with a cell for every pair of entities. They return for every
table with the right number of cells. Of what they accept, they accept every extension too, and
they fault on the table that is any shorter than the number of pairs. -/
theorem decoded_configuration_checked (configuration : Configuration) :
    ((∃ text, decode reading.configuration text = some configuration) ↔
      ConfigurationFits configuration) ∧
    ((∃ fault, configuration.validate = .error fault) ↔
      configuration.latency.size = configuration.entities ∧
        ∃ entity, configuration.latency.LacksOwn entity) ∧
    (configuration.validate = .ok (.ok ()) ↔
      configuration.Accepted ∧ configuration.exploration.firstPerturbed ≠ 0) ∧
    (configuration.latency.cells.size =
        configuration.latency.size * configuration.latency.size →
      configuration.latency.cells.size ≤ UInt64.size →
        ∃ verdict, configuration.validate = .ok verdict) ∧
    (configuration.validate = .ok (.ok ()) → configuration.Serves ∧
      (∀ surplus, (configuration.extend surplus).validate = .ok (.ok ())) ∧
      ∀ count, count < configuration.entities * configuration.entities →
        ∃ fault, (configuration.truncate count).validate = .error fault) := by
  refine ⟨exists_text_iff, Configuration.validate_faults_iff, Configuration.validate_accepts_iff,
    fun count addressable => ?_, fun valid => ⟨Configuration.serves_of_validate valid, ?_, ?_⟩⟩
  · exact Configuration.validate_returns
      (LatencyMatrix.complete_of_cell_count count addressable)
  · intro surplus
    obtain ⟨accepted, window⟩ := Configuration.validate_accepts_iff.mp valid
    exact Configuration.validate_accepts_iff.mpr ⟨accepted.extend_cells surplus, window⟩
  · intro count short
    exact (Configuration.accepted_of_validate valid).truncate_cells short

def twoEntityConfiguration : Configuration where
  entities := 2
  latency := ⟨2, #[0, 0, 0, 0]⟩
  interfaces := []
  strategies := .plain
  boundary := .sequenced
  exploration := .standard

/-- Both with one cell in place of four and with five, there is a text for the configuration of two
entities; the checks fault on the one and accept the other. -/
theorem decoded_configuration_checked_two :
    (∃ text, decode reading.configuration text = some (twoEntityConfiguration.truncate 1)) ∧
    (∃ fault, (twoEntityConfiguration.truncate 1).validate = .error fault) ∧
    (∃ text, decode reading.configuration text = some (twoEntityConfiguration.extend #[7])) ∧
    (twoEntityConfiguration.extend #[7]).validate = .ok (.ok ()) ∧
    (twoEntityConfiguration.extend #[7]).latency.cells.size = 5 ∧
    ∃ verdict, twoEntityConfiguration.validate = .ok verdict := by
  obtain ⟨_, _, _, returns, accepts⟩ := decoded_configuration_checked twoEntityConfiguration
  obtain ⟨_, extended, truncated⟩ := accepts rfl
  obtain ⟨short, _⟩ := decoded_configuration_checked (twoEntityConfiguration.truncate 1)
  obtain ⟨long, _⟩ := decoded_configuration_checked (twoEntityConfiguration.extend #[7])
  exact ⟨short.mpr ⟨by decide, by decide⟩, truncated 1 (by decide),
    long.mpr ⟨by decide, by decide⟩, extended #[7], rfl, returns rfl (by decide)⟩

end EventKernel.Json
