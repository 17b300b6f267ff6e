import EventKernel.Proofs.Bearings
import EventKernel.Proofs.PlainQueues

set_option autoImplicit false

/-! Simulations whose queues count no credit and are not explored. What their operations leave
behind is known from the keys alone. -/

namespace EventKernel

open Queue (EventQueue)
open Exploration (Hook)

namespace Simulation

variable {σ β : Type} {simulation : Simulation σ β} {entities : Nat} {keys : List EventKey}
  {given : Handle → Prop} {policy : Bool}

private theorem advanceClock_enter {key : EventKey}
    (known : key.context.Known simulation.localClocks.length) :
    simulation.advanceClock key = .ok { simulation with
      globalClock := (simulation.bearings.enter key).globalClock
      localClocks := (simulation.bearings.enter key).localClocks } := by
  unfold advanceClock Bearings.enter
  cases owner : key.context with
  | global => rfl
  | node id =>
      rw [owner] at known
      exact if_pos known

theorem Booked.turned (booked : simulation.Booked entities keys given) {bearings : Bearings}
    (clocks : bearings.localClocks.length = entities) :
    (simulation.restored bearings).Booked entities keys given :=
  { booked with clocks }

/-- The simulation when an event has left its queue, its callbacks and its count. -/
def without (simulation : Simulation σ β) (key : EventKey) (queue : EventQueue σ)
    (unscheduled : Nat) : Simulation σ β :=
  { simulation with
    queue, unscheduled
    slots := simulation.slots.erase key.uid }

theorem find?_without {key : EventKey} {queue : EventQueue σ} {unscheduled : Nat}
    {other : EventUid} (apart : other ≠ key.uid) :
    (simulation.without key queue unscheduled).slots.find? other = simulation.slots.find? other :=
  (Slots.find?_erase simulation.slots key.uid other).trans (if_neg apart)

def Dequeued.ofSlot (key : EventKey) : Slot β → Dequeued β
  | .armed callback => .invoke key callback
  | .cancelled => .skipped

/-- The event of the least key leaves all books, and its bearings are entered. -/
theorem Booked.dequeue_least (booked : simulation.Booked entities keys given)
    (plain : simulation.queue.Plain policy) {key : EventKey} (member : key ∈ keys)
    (least : ∀ other ∈ keys, key.rank ≤ other.rank) {slot : Slot β}
    (found : simulation.slots.find? key.uid = some slot) :
    ∃ queue unscheduled, queue.Plain policy ∧
      (simulation.without key queue unscheduled).Booked entities (keys.erase key) given ∧
      simulation.dequeue = .ok (.ofSlot key slot,
        (simulation.without key queue unscheduled).restored
          (simulation.bearings.enter key)) := by
  obtain ⟨event, queue, rfl, popped, stays⟩ := plain.pop booked.holds member least
  have holds : queue.Holds entities (keys.erase event.key) := by
    rcases booked.holds.pop with ⟨event?, after, pops, _, left⟩ | fails
    · rw [pops] at popped
      cases popped
      exact (left event rfl).2
    · rw [fails] at popped
      cases popped
  have some_ := booked.counts_some member
  have owner : event.key.context.Known simulation.localClocks.length :=
    booked.clocks.symm ▸ booked.holds.knows member
  have moved : advanceClock
      { simulation with queue, unscheduled := simulation.unscheduled - 1 } event.key = _ :=
    advanceClock_enter owner
  refine ⟨queue, simulation.unscheduled - 1, stays,
    booked.drop member holds (Nat.sub_add_cancel some_), ?_⟩
  unfold dequeue restored
  simp only [popped, bind, Except.bind, Queue.decrement_of_le some_, moved, found,
    Bearings.enter_context]
  cases slot with
  | armed callback => rfl
  | cancelled => rfl

theorem Booked.remove_plain (booked : simulation.Booked entities keys given)
    (plain : simulation.queue.Plain policy) {handle : Handle} (known : given handle)
    (queued : handle.isDestroy = false) (alive : simulation.isExpired handle = .ok false) :
    ∃ queue unscheduled, queue.Plain policy ∧
      simulation.remove handle = .ok (simulation.without handle.key queue unscheduled) ∧
      (simulation.without handle.key queue unscheduled).Booked entities
        (keys.erase handle.key) given := by
  have member := booked.live_listed known queued alive
  obtain ⟨event, queue, erased, stays, _⟩ := plain.erase booked.holds member
  obtain ⟨slot, found⟩ := booked.slot_iff.mpr (List.mem_map_of_mem member)
  have some_ := booked.counts_some member
  refine ⟨queue, simulation.unscheduled - 1, stays, ?_,
    booked.removed known queued erased alive (Nat.sub_add_cancel some_)⟩
  unfold remove
  rw [queued, if_neg Bool.false_ne_true]
  simp only [alive, erased, found, bind, Except.bind, Bool.false_eq_true, if_false,
    Option.isNone_some, Queue.decrement_of_le some_]
  rfl

section

variable [Hook σ]

theorem Booked.enqueue_plain (booked : simulation.Booked entities keys given)
    (plain : simulation.queue.Plain policy) {event : Event} {nextUid : EventUid}
    (owner : event.key.context.Known entities) (cause : event.prevContext.Known entities)
    (numbered : event.key.uid = simulation.nextUid)
    (following : simulation.nextUid.value.toNat + 1 = nextUid.value.toNat)
    (callback : Callback β) :
    ∃ queue, queue.Plain policy ∧
      enqueue { simulation with nextUid } event callback =
        .ok (.ofEvent event.key event.kind, { simulation with
          nextUid, queue
          slots := simulation.slots.insert event.key.uid (.armed callback)
          unscheduled := simulation.unscheduled + 1 }) ∧
      { simulation with
        nextUid, queue
        slots := simulation.slots.insert event.key.uid (.armed callback)
        unscheduled := simulation.unscheduled + 1 }.Booked entities (event.key :: keys)
          fun other => given other ∨ other = Handle.ofEvent event.key event.kind := by
  obtain ⟨queue, inserted, stays⟩ :=
    plain.insert booked.holds owner cause (numbered ▸ booked.fresh)
  refine ⟨queue, stays, ?_, booked.queued owner cause numbered following inserted⟩
  unfold enqueue
  simp only [inserted, bind, Except.bind]
  rfl

end

end Simulation

end EventKernel
