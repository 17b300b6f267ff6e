import EventKernel.Proofs.ValidConfiguration

set_option autoImplicit false

/-! Tables from links as distances. Improving a table by the paths through one more entity
keeps it symmetric and without delay from an entity to itself, and from then on no detour
through that entity is quicker. Once every entity was admitted, no detour is. -/

namespace EventKernel.Queue.LatencyMatrix

/-- The latency between two entities of the table as a number. -/
def between (matrix : LatencyMatrix) (source target : Nat) : Nat :=
  match matrix.get source target with
  | .ok latency => latency.toNat
  | .error _ => 0

/-- The latencies between so many entities are those of a distance. -/
structure Metric (matrix : LatencyMatrix) (entities : Nat) : Prop where
  known : ∀ source target, source < entities → target < entities →
    ∃ latency, matrix.get source target = .ok latency
  self : ∀ entity, entity < entities → matrix.between entity entity = 0
  symmetric : ∀ source target, source < entities → target < entities →
    matrix.between source target = matrix.between target source
  detour : ∀ source middle target, source < entities → middle < entities →
    target < entities → matrix.between source target ≤
      matrix.between source middle + matrix.between middle target

theorem between_of_get {matrix : LatencyMatrix} {source target : Nat} {latency : UInt64}
    (read : matrix.get source target = .ok latency) :
    matrix.between source target = latency.toNat := by
  unfold between
  rw [read]

def tabulate (size : Nat) (table : Nat → Nat → UInt64) : List (List UInt64) :=
  (List.range size).map fun source => (List.range size).map fun target => table source target

def improve (table : Nat → Nat → UInt64) (middle : Nat) (source target : Nat) : UInt64 :=
  min (table source target) (Word.saturatingAdd (table source middle) (table middle target))

private theorem relaxThrough_tabulate {size middle : Nat} (known : middle < size)
    (table : Nat → Nat → UInt64) :
    relaxThrough middle (tabulate size table) = tabulate size (improve table middle) := by
  have row : ∀ source, ((List.range size).map fun target => table source target)[middle]? =
      some (table source middle) := by
    intro source
    rw [List.getElem?_map, List.getElem?_range known]
    rfl
  have onward : (tabulate size table)[middle]? =
      some ((List.range size).map fun target => table middle target) := by
    unfold tabulate
    rw [List.getElem?_map, List.getElem?_range known]
    rfl
  unfold relaxThrough
  rw [onward]
  simp only [tabulate, List.map_map]
  apply List.map_congr_left
  intro source _
  simp only [Function.comp_apply, row, List.zipWith_map, List.zipWith_self]
  rfl

def admitted (table : Nat → Nat → UInt64) (entities : List Nat) : Nat → Nat → UInt64 :=
  entities.foldl improve table

private theorem foldl_relaxThrough {size : Nat} (entities : List Nat) :
    ∀ table, (∀ entity ∈ entities, entity < size) →
      entities.foldl (fun rows middle => relaxThrough middle rows) (tabulate size table) =
        tabulate size (admitted table entities) := by
  induction entities with
  | nil =>
      intro table known
      rfl
  | cons entity rest ih =>
      intro table known
      rw [List.foldl_cons, relaxThrough_tabulate (known entity List.mem_cons_self)]
      exact ih (improve table entity) (fun other member =>
        known other (List.mem_cons_of_mem _ member))

theorem shortestRows_eq (size : Nat) (links : List Link) :
    shortestRows size links = tabulate size (admitted (directDelay links) (List.range size)) :=
  foldl_relaxThrough (List.range size) (directDelay links)
    (fun _ member => List.mem_range.mp member)

theorem toNat_min (left right : UInt64) : (min left right).toNat = min left.toNat right.toNat := by
  change (if left ≤ right then left else right).toNat = _
  split
  · rename_i below
    exact (Nat.min_eq_left (UInt64.le_iff_toNat_le.mp below)).symm
  · rename_i above
    rw [UInt64.le_iff_toNat_le] at above
    exact (Nat.min_eq_right (by omega)).symm

theorem toNat_improve (table : Nat → Nat → UInt64) (middle source target : Nat) :
    (improve table middle source target).toNat =
      min (table source target).toNat
        (min ((table source middle).toNat + (table middle target).toNat) (UInt64.size - 1)) := by
  unfold improve
  rw [toNat_min, Word.toNat_saturatingAdd]

/-- A symmetric table without delay from an entity to itself, in which no detour through
certain entities is quicker. -/
structure Shortened (table : Nat → Nat → UInt64) (through : Nat → Prop) : Prop where
  self : ∀ entity, (table entity entity).toNat = 0
  symmetric : ∀ source target, table source target = table target source
  detour : ∀ middle, through middle → ∀ source target, (table source target).toNat ≤
    (table source middle).toNat + (table middle target).toNat

private theorem Shortened.improve {table : Nat → Nat → UInt64} {through : Nat → Prop}
    (shortened : Shortened table through) (middle : Nat) :
    Shortened (improve table middle) fun entity => entity = middle ∨ through entity where
  self := by
    intro entity
    rw [toNat_improve, shortened.self, Nat.zero_min]
  symmetric := by
    intro source target
    apply UInt64.toNat_inj.mp
    rw [toNat_improve, toNat_improve, shortened.symmetric target source,
      shortened.symmetric target middle, shortened.symmetric middle source, Nat.add_comm]
  detour := by
    intro entity admitted source target
    rw [toNat_improve, toNat_improve, toNat_improve]
    have leg := shortened.self middle
    rcases admitted with here | before
    · rw [here]
      omega
    · have whole := shortened.detour entity before source target
      have arriving := shortened.detour entity before source middle
      have leaving := shortened.detour entity before middle target
      have bounded := (table source middle).toNat_lt
      omega

private theorem Shortened.admitted {table : Nat → Nat → UInt64} {through : Nat → Prop}
    (shortened : Shortened table through) (entities : List Nat) :
    Shortened (admitted table entities) fun entity => entity ∈ entities ∨ through entity := by
  induction entities generalizing table through with
  | nil =>
      refine ⟨shortened.self, shortened.symmetric, ?_⟩
      intro middle admitted
      rcases admitted with impossible | before
      · cases impossible
      · exact shortened.detour middle before
  | cons first rest ih =>
      have later := ih (shortened.improve first)
      refine ⟨later.self, later.symmetric, ?_⟩
      intro middle admitted
      apply later.detour middle
      rcases admitted with member | before
      · rcases List.mem_cons.mp member with same | behind
        · exact Or.inr (Or.inl same)
        · exact Or.inl behind
      · exact Or.inr (Or.inr before)

/-- The delay over one link, unless a shorter one is known already. -/
def tryLink (source target : Nat) (best : UInt64) (link : Link) : UInt64 :=
  if link.first.index = source ∧ link.second.index = target ∨
      link.second.index = source ∧ link.first.index = target then
    min best link.delay
  else best

theorem directDelay_eq (links : List Link) (source target : Nat) :
    directDelay links source target =
      links.foldl (tryLink source target) (if source = target then 0 else unreachable) := rfl

theorem directDelay_self (links : List Link) (entity : Nat) :
    directDelay links entity entity = 0 := by
  unfold directDelay
  rw [if_pos rfl]
  induction links with
  | nil => rfl
  | cons link rest ih =>
      rw [List.foldl_cons]
      have least : min 0 link.delay = 0 := by
        apply UInt64.toNat_inj.mp
        rw [toNat_min]
        exact Nat.zero_min _
      split
      · rw [least]
        exact ih
      · exact ih

private theorem directDelay_symmetric (links : List Link) (source target : Nat) :
    directDelay links source target = directDelay links target source := by
  unfold directDelay
  have ends : (if source = target then (0 : UInt64) else unreachable) =
      if target = source then 0 else unreachable := by
    by_cases same : source = target
    · rw [if_pos same, if_pos same.symm]
    · rw [if_neg same, if_neg (Ne.symm same)]
  rw [ends]
  apply congrArg (fun step => links.foldl step _)
  funext best link
  have turned : (link.first.index = source ∧ link.second.index = target ∨
      link.second.index = source ∧ link.first.index = target) ↔
      (link.first.index = target ∧ link.second.index = source ∨
        link.second.index = target ∧ link.first.index = source) := by
    constructor
    · rintro (⟨former, latter⟩ | ⟨latter, former⟩)
      · exact Or.inr ⟨latter, former⟩
      · exact Or.inl ⟨former, latter⟩
    · rintro (⟨former, latter⟩ | ⟨latter, former⟩)
      · exact Or.inr ⟨latter, former⟩
      · exact Or.inl ⟨former, latter⟩
  simp only [turned]

theorem cell_lt {size source target : Nat} (sourceKnown : source < size)
    (targetKnown : target < size) : source * size + target < size * size := by
  have rows : (source + 1) * size ≤ size * size := Nat.mul_le_mul_right _ sourceKnown
  rw [Nat.succ_mul] at rows
  omega

theorem getElem?_flatten_tabulate {size source target : Nat} (sourceKnown : source < size)
    (targetKnown : target < size) (table : Nat → Nat → UInt64) :
    (tabulate size table).flatten[source * size + target]? = some (table source target) := by
  have rows : ∀ (sources : List Nat) (index origin : Nat), sources[index]? = some origin →
      (sources.map fun source =>
        (List.range size).map fun target => table source target).flatten[index * size + target]? =
          some (table origin target) := by
    intro sources
    induction sources with
    | nil =>
        intro index origin found
        cases found
    | cons first rest ih =>
        intro index origin found
        rw [List.map_cons, List.flatten_cons]
        have width : ((List.range size).map fun target => table first target).length = size := by
          rw [List.length_map, List.length_range]
        cases index with
        | zero =>
            cases found
            rw [List.getElem?_append_left (by rw [width]; omega), Nat.zero_mul, Nat.zero_add,
              List.getElem?_map, List.getElem?_range targetKnown]
            rfl
        | succ index =>
            have further : (index + 1) * size + target = size + (index * size + target) := by
              rw [Nat.succ_mul]
              omega
            rw [List.getElem?_append_right (by rw [width, further]; omega), width, further,
              Nat.add_sub_cancel_left]
            exact ih index origin found
  exact rows (List.range size) source source (List.getElem?_range sourceKnown)

theorem ofLinks_eq_ok {size : Nat} {links : List Link} {matrix : LatencyMatrix}
    (built : ofLinks size links = .ok matrix) :
    size * size < cellLimit ∧ matrix = ⟨size, (shortestRows size links).flatten.toArray⟩ := by
  unfold ofLinks cellCount at built
  simp only [bind, Except.bind, pure, Except.pure] at built
  split at built
  · cases built
  · rename_i cells counted
    split at counted
    · cases counted
    · split at counted
      · cases counted
      · rename_i _ few
        split at built
        · cases built
        · cases built
          exact ⟨Nat.lt_of_not_le few, rfl⟩

theorem get_ofLinks {size : Nat} {links : List Link} {matrix : LatencyMatrix}
    (built : ofLinks size links = .ok matrix) {source target : Nat} (sourceKnown : source < size)
    (targetKnown : target < size) :
    matrix.get source target =
      .ok (admitted (directDelay links) (List.range size) source target) := by
  obtain ⟨few, rfl⟩ := ofLinks_eq_ok built
  apply get_eq_ok_iff.mpr
  constructor
  · exact Nat.lt_trans (cell_lt sourceKnown targetKnown) (Nat.lt_trans few (by decide))
  · rw [List.getElem?_toArray, shortestRows_eq]
    exact getElem?_flatten_tabulate sourceKnown targetKnown _

theorem shortened_ofLinks (size : Nat) (links : List Link) :
    Shortened (admitted (directDelay links) (List.range size)) fun entity => entity < size := by
  have direct : Shortened (directDelay links) fun _ => False :=
    ⟨fun entity => by rw [directDelay_self]; rfl, directDelay_symmetric links,
      fun _ impossible => impossible.elim⟩
  have shortened := direct.admitted (List.range size)
  exact ⟨shortened.self, shortened.symmetric, fun middle known =>
    shortened.detour middle (Or.inl (List.mem_range.mpr known))⟩

theorem ofLinks_metric {size : Nat} {links : List Link} {matrix : LatencyMatrix}
    (built : ofLinks size links = .ok matrix) : matrix.Metric size := by
  have shortened := shortened_ofLinks size links
  have read : ∀ source target, source < size → target < size → matrix.get source target =
      .ok (admitted (directDelay links) (List.range size) source target) :=
    fun _ _ => get_ofLinks built
  refine ⟨?_, ?_, ?_, ?_⟩
  · intro source target sourceKnown targetKnown
    exact ⟨_, read source target sourceKnown targetKnown⟩
  · intro entity known
    rw [between_of_get (read entity entity known known)]
    exact shortened.self entity
  · intro source target sourceKnown targetKnown
    rw [between_of_get (read source target sourceKnown targetKnown),
      between_of_get (read target source targetKnown sourceKnown), shortened.symmetric]
  · intro source middle target sourceKnown middleKnown targetKnown
    rw [between_of_get (read source target sourceKnown targetKnown),
      between_of_get (read source middle sourceKnown middleKnown),
      between_of_get (read middle target middleKnown targetKnown)]
    exact shortened.detour middle middleKnown source target

end EventKernel.Queue.LatencyMatrix
