import EventKernel.Proofs.LaneOperations
import EventKernel.Proofs.LaneSafety
import EventKernel.Proofs.LaneSettings

set_option autoImplicit false

/-! What an entity waits for. Under the credit rule a message may leave once its sender holds credit
from each of the neighbours that the configuration lists for it. Operations change the counts, but
never who waits for whom. -/

namespace EventKernel.Queue

def Configuration.neighbours (configuration : Configuration) (entity : Nat) : List Nat :=
  (configuration.interfaces[entity]?.getD []).map NodeId.index

private theorem CreditTable.new_interfaces {configuration : Configuration} {table : CreditTable}
    (built : new configuration.entities configuration.interfaces = .ok table) {entity : Nat}
    (known : entity < configuration.entities) :
    table.interfaces[entity]? = some (configuration.neighbours entity) := by
  unfold new at built
  split at built
  · cases built
    unfold Configuration.neighbours
    rcases Nat.lt_or_ge entity configuration.interfaces.length with listed | beyond
    · rw [List.getElem?_append_left (by rw [List.length_map]; exact listed), List.getElem?_map,
        List.getElem?_eq_getElem listed]
      rfl
    · rw [List.getElem?_append_right (by rw [List.length_map]; exact beyond), List.length_map,
        List.getElem?_eq_none beyond, List.getElem?_replicate, if_pos (by omega)]
      rfl
  · cases built

namespace LaneQueue

variable {queue after : LaneQueue} {configuration : Configuration}

def credit? (queue : LaneQueue) (dest sender : Nat) : Option Nat :=
  queue.credits.bind fun table => (table.credit dest sender).toOption

def CountsFor (queue : LaneQueue) (configuration : Configuration) : Prop :=
  ∃ table, queue.credits = some table ∧ table.Covers configuration.entities ∧
    ∀ entity, entity < configuration.entities →
      table.interfaces[entity]? = some (configuration.neighbours entity)

/-- Whether an event is a message whose sender holds no credit from one of its neighbours. -/
def lacksCredit (queue : LaneQueue) (configuration : Configuration) (event : Event) : Bool :=
  queue.isCrossing event &&
    (configuration.neighbours (laneOf event.prevContext - 1)).any fun neighbour =>
      queue.credit? (laneOf event.prevContext - 1) neighbour == some 0

theorem new_countsFor (accepted : configuration.Accepted)
    (credits : configuration.strategies.localListsV2 = true)
    (built : new configuration = .ok queue) : queue.CountsFor configuration := by
  obtain ⟨_, made, sound, _, _, _, _, _, _, counted, _⟩ := new_sound accepted
  cases made.symm.trans built
  obtain ⟨table, credited, made⟩ := counted credits
  exact ⟨table, credited, sound.credited table credited, fun _ known =>
    CreditTable.new_interfaces made known⟩

namespace CountsFor

variable (counts : queue.CountsFor configuration)

include counts

theorem counted : queue.credits.isSome = true := by
  obtain ⟨table, credited, _⟩ := counts
  rw [credited]
  rfl

theorem outline (outline : queue.SameOutline after)
    (equipped : after.Equipped configuration.entities) : after.CountsFor configuration := by
  obtain ⟨table, credited, _, listed⟩ := counts
  have same := outline.interfaces
  rw [credited] at same
  obtain ⟨other, counted, interfaces⟩ := Option.map_eq_some_iff.mp same
  exact ⟨other, counted, equipped.credited other counted, fun entity known => by
    rw [interfaces, listed entity known]⟩

private theorem credit? {dest sender : Nat} (destKnown : dest < configuration.entities)
    (senderKnown : sender < configuration.entities) :
    ∃ count, queue.credit? dest sender = some count := by
  obtain ⟨table, credited, covers, _⟩ := counts
  unfold LaneQueue.credit?
  rw [credited]
  exact covers.toOption_credit destKnown senderKnown

theorem neighbours_known {entity : Nat} (known : entity < configuration.entities) :
    ∀ neighbour ∈ configuration.neighbours entity, neighbour < configuration.entities := by
  obtain ⟨table, _, covers, listed⟩ := counts
  exact covers.known _ (List.mem_of_getElem? (listed entity known))

theorem maySend {entity : Nat} (known : entity < configuration.entities) :
    ∃ table, queue.credits = some table ∧ table.maySend entity =
      .ok (!(configuration.neighbours entity).any fun neighbour =>
        queue.credit? entity neighbour == some 0) := by
  obtain ⟨table, credited, covers, listed⟩ := counts
  refine ⟨table, credited, ?_⟩
  rw [covers.maySend_eq known (listed entity known), List.not_any_eq_all_not]
  unfold LaneQueue.credit?
  rw [credited]
  rfl

theorem blocked_iff (charted : queue.Charted) (equipped : queue.Equipped configuration.entities)
    {lane : Nat} {front : Event} (atFront : queue.FrontAt lane front) :
    queue.Blocked lane front ↔ queue.lacksCredit configuration front = true := by
  unfold Blocked lacksCredit
  rw [Bool.and_eq_true]
  refine and_congr_right fun crossing => ?_
  have home := charted.front_home atFront
  rw [homeLane_of_crossing crossing] at home
  obtain ⟨_, _, sender, _⟩ := isCrossing_iff.mp crossing
  have ⟨_, _, found, _⟩ := atFront
  have known := equipped.lane_le found
  obtain ⟨table, credited, asked⟩ :=
    counts.maySend (show lane - 1 < configuration.entities by omega)
  rw [home]
  constructor
  · rintro ⟨held, same, refused⟩
    cases credited.symm.trans same
    have lacks := Except.ok.inj (asked.symm.trans refused)
    rwa [Bool.not_eq_false'] at lacks
  · intro lacks
    exact ⟨table, credited, by rw [asked, lacks]; rfl⟩

theorem holds_of_not_lacks {event : Event} (crossing : queue.isCrossing event = true)
    (known : laneOf event.prevContext ≤ configuration.entities)
    (has : queue.lacksCredit configuration event = false) :
    ∀ neighbour ∈ configuration.neighbours (laneOf event.prevContext - 1),
      ∃ count, queue.credit? (laneOf event.prevContext - 1) neighbour = some (count + 1) := by
  intro neighbour member
  obtain ⟨_, _, sender, _⟩ := isCrossing_iff.mp crossing
  have within : laneOf event.prevContext - 1 < configuration.entities := by omega
  obtain ⟨count, read⟩ := counts.credit? within (counts.neighbours_known within neighbour member)
  unfold lacksCredit at has
  rw [crossing, Bool.true_and, List.any_eq_false] at has
  cases count with
  | zero => exact absurd (beq_iff_eq.mpr read) (has neighbour member)
  | succ count => exact ⟨count, read⟩

end CountsFor

end LaneQueue

end EventKernel.Queue
