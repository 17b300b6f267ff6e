import EventKernel.Proofs.Bookkeeping
import EventKernel.Proofs.ClockPositions
import EventKernel.Proofs.OwnerOrder

set_option autoImplicit false

/-! Which key leaves a queue next, in any layout. Without the credit rule it is the least of
all; with it, the least of its owner. The simulation then moves the clock of the owner to it and
enters the context of the owner. -/

namespace EventKernel

namespace Queue.EventQueue.Holds

variable {σ : Type} {queue after : EventQueue σ} {entities : Nat} {keys : List EventKey}
  {event : Event}

private theorem pop_member (holds : queue.Holds entities keys)
    (popped : queue.pop = .ok (some event, after)) : event.key ∈ keys := by
  rcases holds.pop with ⟨event?, rest, pops, _, left⟩ | fails
  · rw [pops] at popped
    cases popped
    exact (left event rfl).1
  · rw [fails] at popped
    cases popped

theorem keys_nodup (holds : queue.Holds entities keys) : keys.Nodup :=
  List.Pairwise.of_map EventKey.uid
    (fun _ _ different same => different (congrArg EventKey.uid same)) holds.distinct

private theorem precedes_of_least (holds : queue.Holds entities keys) {key : EventKey}
    (member : key ∈ keys) (least : ∀ other ∈ keys, key.rank ≤ other.rank) :
    ∀ other ∈ keys, other ≠ key → key.Precedes other := by
  intro other present different
  refine EventKey.precedes_iff_rank_lt.mpr (Nat.lt_of_le_of_ne (least other present) fun tied => ?_)
  exact different (eq_of_nodup_map holds.distinct present member
    (EventKey.rank_eq_iff.mp tied).2.symm)

private theorem pop_least (holds : queue.Holds entities keys)
    (ordered : queue.layout.counts = false) (popped : queue.pop = .ok (some event, after)) :
    (∀ other ∈ keys, other ≠ event.key → event.key.Precedes other) ∧
      after.layout.counts = false := by
  have some_ : queue.layout.events ≠ [] := by
    intro noEvents
    have nothing := holds.sound.pop_of_no_events noEvents
    unfold EventQueue.pop at popped
    rw [nothing] at popped
    cases popped
  obtain ⟨least, leastOf⟩ := Event.exists_leastOf some_
  obtain ⟨layout, taken, _, counts, _⟩ := holds.sound.pop_least ordered leastOf
  unfold EventQueue.pop at popped
  rw [taken] at popped
  cases popped
  have member := holds.listed.mem_iff.mp (List.mem_map_of_mem leastOf.member)
  refine ⟨holds.precedes_of_least member fun other present => ?_, counts⟩
  obtain ⟨held, inside, rfl⟩ := List.mem_map.mp (holds.listed.mem_iff.mpr present)
  exact leastOf.below held inside

private theorem pop_goesFirst (holds : queue.Holds entities keys)
    (popped : queue.pop = .ok (some event, after)) : GoesFirst event.key keys := by
  cases layout : queue.layout with
  | single list =>
      have ordered : queue.layout.counts = false := by
        rw [layout]
        rfl
      obtain ⟨least, _⟩ := holds.pop_least ordered popped
      refine ⟨holds.pop_member popped, fun other member different _ => least other member different,
        fun other member _ => ?_, fun _ => least⟩
      by_cases same : event.key = other
      · exact Or.inl same
      · exact Or.inr (least other member fun equal => same equal.symm)
  | partitioned lanes =>
      obtain ⟨rest, taken, _⟩ := pop_partitioned layout popped
      have sound := holds.sound
      have listed := holds.listed
      rw [layout] at sound listed
      obtain ⟨_, _, _, led⟩ := (LaneQueue.Sound.charted sound).pop taken
      obtain ⟨before, lane, charted, sameKeys, leading, stays⟩ := led event rfl
      exact leading.goesFirst charted stays (sameKeys.trans listed)

end Queue.EventQueue.Holds

namespace Simulation

variable {σ β : Type} {simulation after : Simulation σ β} {entities : Nat}
  {keys : List EventKey} {given : Handle → Prop} {dequeued : Dequeued β}

/-- What it is to take the event of a key from the queue. -/
structure Takes (simulation : Simulation σ β) (entities : Nat) (keys : List EventKey)
    (given : Handle → Prop) (key : EventKey) (dequeued : Dequeued β)
    (after : Simulation σ β) : Prop where
  goesFirst : Queue.GoesFirst key keys
  least : simulation.queue.layout.counts = false →
    (∀ other ∈ keys, other ≠ key → key.Precedes other) ∧ after.queue.layout.counts = false
  booked : after.Booked entities (keys.erase key) given
  clock : ∀ context, after.clock context =
    if context = key.context then .ok ⟨key.ts, key.uid⟩ else simulation.clock context
  context : after.context = key.context
  popped : ∃ event queue, simulation.queue.pop = .ok (some event, queue) ∧ event.key = key
  named : dequeued = .skipped ∨ ∃ callback, dequeued = .invoke key callback
  others : after.inbox = simulation.inbox ∧ after.nextUid = simulation.nextUid

theorem Booked.takes (booked : simulation.Booked entities keys given)
    (taken : Taken simulation dequeued after) :
    (dequeued = .nothing ∧ keys = [] ∧ after = simulation ∧
        simulation.queue.pop = .ok (none, simulation.queue)) ∨
      ∃ key, simulation.Takes entities keys given key dequeued after := by
  have others := taken.inbox
  cases taken with
  | nothing queue popped =>
      left
      rcases booked.holds.pop with ⟨event?, rest, pops, none_, _⟩ | fails
      · rw [pops] at popped
        cases popped
        obtain ⟨nothing, rfl⟩ := none_ rfl
        exact ⟨rfl, nothing, rfl, pops⟩
      · rw [fails] at popped
        cases popped
  | entered queue event unscheduled advanced slot popped one moved found =>
      right
      obtain ⟨_, entered⟩ := booked.entered popped one moved
      have still : advanced.queue = queue := by
        obtain ⟨globalClock, localClocks, rfl⟩ := advanceClock_eq_ok moved
        rfl
      refine ⟨event.key, booked.holds.pop_goesFirst popped, fun ordered => ?_, entered, ?_, rfl,
        ⟨event, queue, popped, rfl⟩, ?_, others⟩
      · change _ ∧ advanced.queue.layout.counts = false
        rw [still]
        exact booked.holds.pop_least ordered popped
      · intro owner
        have moves := advanceClock_clock moved owner
        exact moves
      · cases slot with
        | armed callback => exact Or.inr ⟨callback, rfl⟩
        | cancelled => exact Or.inl rfl

end Simulation

end EventKernel
