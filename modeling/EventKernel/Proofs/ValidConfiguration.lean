import EventKernel.Queue.Configuration

set_option autoImplicit false

/-! What an accepted configuration promises to the queue that is built from it: a latency
between any two entities, none from an entity to itself, and interfaces that lead to
entities only. -/

namespace EventKernel.Queue

namespace Configuration

/-- What the checks establish. -/
structure Accepted (configuration : Configuration) : Prop where
  covered : configuration.latency.size = configuration.entities
  selfLatency : ∀ entity, entity < configuration.entities →
    configuration.latency.get entity entity = .ok 0
  interfaceRows : configuration.interfaces.length ≤ configuration.entities
  neighboursKnown : ∀ neighbours ∈ configuration.interfaces, ∀ node ∈ neighbours,
    node.index < configuration.entities
  creditsNeedLanes : configuration.strategies.localListsV2 = true →
    configuration.strategies.localLists = true

private theorem selfLatency?_none (matrix : LatencyMatrix) (entities : List Nat)
    (none : selfLatency? matrix entities = .ok none) :
    ∀ entity ∈ entities, matrix.get entity entity = .ok 0 := by
  induction entities with
  | nil => exact List.forall_mem_nil _
  | cons first rest ih =>
      unfold selfLatency? at none
      cases read : matrix.get first first with
      | error fault =>
          rw [read] at none
          cases none
      | ok latency =>
          rw [read] at none
          simp only [bind, Except.bind] at none
          split at none
          · rename_i zero
            intro entity member
            rcases List.mem_cons.mp member with same | later
            · rw [same, read, zero]
            · exact ih none entity later
          · cases none

private theorem unknownNeighbour?_none (entities entity : Nat)
    (interfaces : List (List NodeId))
    (none : unknownNeighbour? entities entity interfaces = none) :
    ∀ neighbours ∈ interfaces, ∀ node ∈ neighbours, node.index < entities := by
  induction interfaces generalizing entity with
  | nil => exact List.forall_mem_nil _
  | cons first rest ih =>
      unfold unknownNeighbour? at none
      split at none
      · cases none
      · rename_i noneHere
        intro neighbours member node inside
        rcases List.mem_cons.mp member with same | later
        · rw [same] at inside
          have known := List.find?_eq_none.mp noneHere node inside
          simp only [decide_eq_true_eq] at known
          omega
        · exact ih (entity + 1) none neighbours later node inside

theorem accepted_of_validate {configuration : Configuration}
    (valid : configuration.validate = .ok (.ok ())) : configuration.Accepted := by
  unfold validate at valid
  simp only [bind, Except.bind, pure, Except.pure] at valid
  split at valid
  · cases valid
  · rename_i sizes
    split at valid
    · cases valid
    · rename_i found self
      split at valid
      · cases valid
      · split at valid
        · cases valid
        · split at valid
          · cases valid
          · rename_i noError
            unfold interfaceError? at noError
            split at noError
            · cases noError
            · rename_i rows
              split at noError
              · cases noError
              · rename_i known
                refine ⟨Classical.not_not.mp sizes, ?_, Nat.le_of_not_lt rows,
                  unknownNeighbour?_none _ _ _ known, ?_⟩
                · intro entity within
                  exact selfLatency?_none _ _ self entity (List.mem_range.mpr within)
                · intro credits
                  split at noError
                  · cases noError
                  · rename_i lanes
                    rw [credits] at lanes
                    simpa using lanes

end Configuration

namespace LatencyMatrix

theorem get_eq_ok_iff {matrix : LatencyMatrix} {source target : Nat} {latency : UInt64} :
    matrix.get source target = .ok latency ↔
      source * matrix.size + target < UInt64.size ∧
        matrix.cells[source * matrix.size + target]? = some latency := by
  unfold get position
  by_cases addressable : source * matrix.size + target < UInt64.size
  · rw [if_pos addressable, and_iff_right addressable]
    simp only [bind, Except.bind]
    cases matrix.cells[source * matrix.size + target]? with
    | none => simp only [reduceCtorEq]
    | some held => simp only [Except.ok.injEq, Option.some.injEq]
  · rw [if_neg addressable]
    simp only [bind, Except.bind, reduceCtorEq, addressable, false_and]

theorem get_of_last {matrix : LatencyMatrix} {last : Nat} {latency : UInt64}
    (size : matrix.size = last + 1) (read : matrix.get last last = .ok latency)
    {source target : Nat} (sourceKnown : source < matrix.size)
    (targetKnown : target < matrix.size) : ∃ held, matrix.get source target = .ok held := by
  obtain ⟨addressable, found⟩ := get_eq_ok_iff.mp read
  have within := (Array.getElem?_eq_some_iff.mp found).1
  have rows : source * matrix.size ≤ last * matrix.size :=
    Nat.mul_le_mul_right _ (by omega)
  have inside : source * matrix.size + target < matrix.cells.size := by omega
  exact ⟨matrix.cells[source * matrix.size + target],
    get_eq_ok_iff.mpr ⟨by omega, Array.getElem?_eq_getElem inside⟩⟩

end LatencyMatrix

namespace Configuration

theorem Accepted.latencies {configuration : Configuration} (accepted : configuration.Accepted)
    (source target : Nat) (sourceKnown : source < configuration.entities)
    (targetKnown : target < configuration.entities) :
    ∃ latency, configuration.latency.get source target = .ok latency := by
  cases count : configuration.entities with
  | zero =>
      rw [count] at sourceKnown
      exact absurd sourceKnown (Nat.not_lt_zero _)
  | succ last =>
      have size : configuration.latency.size = last + 1 := accepted.covered.trans count
      exact LatencyMatrix.get_of_last size
        (accepted.selfLatency last (by rw [count]; exact Nat.lt_succ_self last))
        (by rw [size, ← count]; exact sourceKnown) (by rw [size, ← count]; exact targetKnown)

end Configuration

end EventKernel.Queue
