import EventKernel.Proofs.CausalClocks
import EventKernel.Proofs.LaneOvertaking

set_option autoImplicit false

/-! Operations that succeed. Without exploration, and while serial numbers and instants last,
an event of known entities can always be scheduled, and an event that the queue yields is
invoked with the work that was given for it. -/

namespace EventKernel

open Queue (Configuration LaneQueue EventQueue)
open Exploration (Hook)

namespace Queue.EventQueue

variable {σ : Type} [Hook σ] {queue : EventQueue σ} {lanes grown : LaneQueue} {event : Event}

theorem insert_of_quiet (quiet : queue.perturbation.settings.enabled = false)
    (layout : queue.layout = .partitioned lanes) (placed : lanes.insert event = .ok grown) :
    ∃ after, queue.insert event = .ok (.ok event.key, after) ∧
      after.layout = .partitioned grown ∧ after.perturbation = queue.perturbation := by
  have applied : queue.perturbation.apply queue.hook event =
      .ok (.ok event, queue.perturbation, queue.hook) := by
    unfold Exploration.Perturbation.apply
    rw [quiet, Bool.not_false, if_pos rfl]
  have stored : queue.layout.insert event = .ok (.partitioned grown) := by
    rw [layout]
    change Layout.partitioned <$> lanes.insert event = _
    rw [placed]
    rfl
  unfold EventQueue.insert
  simp only [applied, stored, bind, Except.bind, pure, Except.pure]
  refine ⟨_, rfl, ?_, ?_⟩
  · split <;> rfl
  · split <;> rfl

omit [Hook σ] in
theorem pop_of_lanes (layout : queue.layout = .partitioned lanes) {event? : Option Event}
    (popped : lanes.pop = .ok (event?, grown)) :
    queue.pop = .ok (event?, { queue with layout := .partitioned grown }) := by
  unfold EventQueue.pop
  simp only [layout, Layout.pop, popped]
  rfl

end Queue.EventQueue

theorem Clock.after_of_sum {clock : Clock} {delay : UInt64} {ts : Timestamp}
    (sum : ts.value.toNat = clock.now.value.toNat + delay.toNat) :
    clock.after delay = .ok ts := by
  unfold Clock.after Timestamp.checkedAdd
  rw [Word.checkedAdd_eq_some_iff.mpr sum.symm]
  rfl

namespace Simulation

variable {σ β : Type} {simulation : Simulation σ β}

private theorem clock_of_known {id : NodeId} (known : id.index < simulation.localClocks.length) :
    ∃ clock, simulation.clock (.node id) = .ok clock ∧
      simulation.time id.index = clock.now.value.toNat := by
  have found := List.getElem?_eq_getElem known
  have read : simulation.clock (.node id) = .ok simulation.localClocks[id.index] := by
    unfold Simulation.clock
    simp only [found]
  exact ⟨_, read, (time_of_clock read).2⟩

theorem allocateUid_of_room (room : simulation.nextUid.value.toNat + 1 < UInt64.size) :
    ∃ nextUid, simulation.allocateUid = .ok (simulation.nextUid, { simulation with nextUid }) ∧
      nextUid.value.toNat = simulation.nextUid.value.toNat + 1 := by
  have sum : (simulation.nextUid.value + 1).toNat = simulation.nextUid.value.toNat + 1 :=
    Word.toNat_add_of_lt room
  refine ⟨⟨simulation.nextUid.value + 1⟩, ?_, sum⟩
  unfold allocateUid EventUid.next?
  rw [Word.checkedAdd_eq_some_iff.mpr sum.symm]
  rfl

/-- A simulation under the credit rule that holds certain events with their work, and no
credit. -/
structure Holds (simulation : Simulation σ β) (configuration : Configuration)
    (lanes : LaneQueue) (planned : List (Event × β)) : Prop where
  layout : simulation.queue.layout = .partitioned lanes
  sound : lanes.Sound configuration.entities
  latency : lanes.latency = configuration.latency
  waits : ∀ entity, configuration.Waits entity → lanes.Waits entity
  backed : lanes.Backed fun _ _ => 0
  events : lanes.events.Perm (planned.map Prod.fst)
  armed : ∀ item ∈ planned,
    simulation.slots.find? item.1.key.uid = some (.armed (.user item.2))
  numbers : ∀ item ∈ planned, item.1.key.uid.value.toNat < simulation.nextUid.value.toNat
  counted : simulation.unscheduled = planned.length
  quiet : simulation.queue.perturbation.settings.enabled = false
  clocks : simulation.localClocks.length = configuration.entities
  inbox : simulation.inbox.requests = []
  going : simulation.stopRequested = false

namespace Holds

variable {configuration : Configuration} {lanes : LaneQueue} {planned others : List (Event × β)}
  {event : Event} {work : β}

theorem perm (holds : simulation.Holds configuration lanes planned) (same : planned.Perm others) :
    simulation.Holds configuration lanes others :=
  { holds with
    events := holds.events.trans (same.map _)
    armed := fun item member => holds.armed item (same.mem_iff.mpr member)
    numbers := fun item member => holds.numbers item (same.mem_iff.mpr member)
    counted := holds.counted.trans same.length_eq }

theorem goesOn (holds : simulation.Holds configuration lanes planned) (some : planned ≠ []) :
    simulation.goesOn = true := by
  have held : simulation.queue.isEmpty = false := by
    unfold EventQueue.isEmpty Queue.Layout.isEmpty
    rw [holds.layout]
    apply Bool.eq_false_iff.mpr
    intro empty
    have none := holds.events.length_eq
    rw [LaneQueue.isEmpty_iff.mp empty, List.length_map] at none
    exact some (List.eq_nil_of_length_eq_zero none.symm)
  unfold Simulation.goesOn
  rw [holds.going, held]
  rfl

section

variable [Hook σ]

theorem schedule (holds : simulation.Holds configuration lanes planned)
    {base owner : NodeId} (baseKnown : base.index < configuration.entities)
    (ownerKnown : owner.index < configuration.entities) {delay : UInt64} {ts : Timestamp}
    (sum : ts.value.toNat = simulation.time base.index + delay.toNat)
    (room : simulation.nextUid.value.toNat + 1 < UInt64.size) (kind : EventKind)
    (transmit : Option Transmission) (work : β) :
    ∃ handle after grown, simulation.schedule ⟨.node base, .node owner, delay, kind, transmit⟩
        (.user work) = .ok (handle, after) ∧
      after.Holds configuration grown
        ((⟨⟨ts, simulation.nextUid, .node owner⟩, kind, .node base, transmit⟩, work) :: planned) ∧
      after.nextUid.value.toNat = simulation.nextUid.value.toNat + 1 := by
  obtain ⟨clock, atBase, now⟩ := clock_of_known (holds.clocks.symm ▸ baseKnown)
  obtain ⟨ownClock, atOwner, _⟩ := clock_of_known (holds.clocks.symm ▸ ownerKnown)
  rw [now] at sum
  have stamped := Clock.after_of_sum sum
  obtain ⟨nextUid, allocated, number⟩ := allocateUid_of_room room
  have fresh : ∀ other ∈ lanes.events, other.key.uid ≠ simulation.nextUid := by
    intro other member same
    obtain ⟨item, present, named⟩ := List.mem_map.mp (holds.events.mem_iff.mp member)
    have below := holds.numbers item present
    rw [named, same] at below
    exact Nat.lt_irrefl _ below
  obtain ⟨lists, outbound, placed, sound, perm⟩ := holds.sound.insert
    ⟨⟨ts, simulation.nextUid, .node owner⟩, kind, .node base, transmit⟩
    ⟨ownerKnown, fun _ => baseKnown⟩ fresh
  obtain ⟨queue, inserted, layout, perturbation⟩ :=
    EventQueue.insert_of_quiet holds.quiet holds.layout placed
  refine ⟨.ofEvent ⟨ts, simulation.nextUid, .node owner⟩ kind, { simulation with
      nextUid
      queue
      slots := simulation.slots.insert simulation.nextUid (.armed (.user work))
      unscheduled := simulation.unscheduled + 1 },
    { lanes with lanes := lists, outbound }, ?_, ?_, number⟩
  · unfold Simulation.schedule enqueue
    simp only [atBase, stamped, atOwner, allocated, inserted, bind, Except.bind]
    rfl
  · refine { layout, sound, latency := holds.latency, waits := holds.waits, backed := ?_,
             events := perm.trans (holds.events.cons _), armed := ?_, numbers := ?_,
             counted := congrArg Nat.succ holds.counted, quiet := ?_, clocks := holds.clocks,
             inbox := holds.inbox, going := holds.going }
    · have table : LaneQueue.credits { lanes with lanes := lists, outbound } = lanes.credits := rfl
      apply holds.backed.more table
      intro dest sender
      rw [LaneQueue.arrivals_perm perm, LaneQueue.arrivals_cons]
      exact Nat.le_add_right _ _
    · intro item member
      simp only [Slots.find?_insert]
      rcases List.mem_cons.mp member with same | before
      · rw [same, if_pos rfl]
      · rw [if_neg, holds.armed item before]
        intro same
        have below := holds.numbers item before
        rw [same] at below
        exact Nat.lt_irrefl _ below
    · intro item member
      show item.1.key.uid.value.toNat < nextUid.value.toNat
      rw [number]
      rcases List.mem_cons.mp member with same | before
      · rw [same]
        exact Nat.lt_succ_self _
      · exact Nat.lt_succ_of_lt (holds.numbers item before)
    · rw [perturbation]
      exact holds.quiet

private theorem drainInbox (holds : simulation.Holds configuration lanes planned) :
    ∃ inbox, simulation.drainInbox = .ok { simulation with inbox } ∧ inbox.requests = [] := by
  refine ⟨simulation.inbox.drain.2, ?_, ?_⟩
  · have none : simulation.inbox.drain.1 = [] := by
      unfold Inbox.drain
      split
      · rfl
      · exact holds.inbox
    unfold Simulation.drainInbox
    simp only [none]
    rfl
  · unfold Inbox.drain
    split
    · exact holds.inbox
    · rfl

theorem beginRun (holds : simulation.Holds configuration lanes planned) :
    ∃ after, simulation.beginRun = .ok after ∧ after.Holds configuration lanes planned ∧
      after.time = simulation.time ∧ after.nextUid = simulation.nextUid := by
  obtain ⟨inbox, drained, none⟩ := holds.drainInbox
  unfold Simulation.beginRun
  simp only [drained, bind, Except.bind]
  split
  · exact ⟨_, rfl, { holds with inbox := none, going := rfl }, rfl, rfl⟩
  · exact ⟨_, rfl, { holds with inbox := none }, rfl, rfl⟩

theorem finishEvent (holds : simulation.Holds configuration lanes planned) :
    ∃ after, simulation.finishEvent = .ok after ∧ after.Holds configuration lanes planned ∧
      after.time = simulation.time ∧ after.nextUid = simulation.nextUid := by
  have left : Holds { simulation with
      processed := simulation.processed + 1, context := .global } configuration lanes planned :=
    { holds with }
  obtain ⟨inbox, drained, none⟩ := left.drainInbox
  exact ⟨_, drained, { left with inbox := none }, rfl, rfl⟩

end

/-- The event that the queue yields is invoked, and moves the clock of its owner. -/
theorem dequeue (holds : simulation.Holds configuration lanes ((event, work) :: others))
    {rest : LaneQueue}
    (yields : lanes.Yields configuration.entities event.key (others.map Prod.fst) rest)
    {owner : NodeId} (owned : event.key.context = .node owner) :
    ∃ after, simulation.dequeue = .ok (.invoke event.key (.user work), after) ∧
      after.Holds configuration rest others ∧ after.context = .node owner ∧
      after.nextUid = simulation.nextUid ∧ ∀ entity, after.time entity =
        if owner.index = entity then event.key.ts.value.toNat else simulation.time entity := by
  obtain ⟨front, popped, named⟩ := yields.popped
  have taken := EventQueue.pop_of_lanes holds.layout popped
  have member : event ∈ lanes.events := holds.events.mem_iff.mpr List.mem_cons_self
  have within : owner.index < simulation.localClocks.length := by
    have known := (holds.sound.addressed event member).1
    rw [owned] at known
    rw [holds.clocks]
    exact known
  have armed := holds.armed _ List.mem_cons_self
  have one : decrement simulation.unscheduled 1 = .ok others.length := by
    rw [holds.counted]
    rfl
  refine ⟨{ simulation with
      queue := { simulation.queue with layout := .partitioned rest }
      unscheduled := others.length
      localClocks := simulation.localClocks.set owner.index (.advance event.key.ts event.key.uid)
      context := .node owner
      slots := simulation.slots.erase event.key.uid }, ?_, ?_, rfl, rfl, ?_⟩
  · unfold Simulation.dequeue advanceClock
    simp only [taken, one, named, owned, if_pos within, armed, bind, Except.bind]
    rfl
  · refine { layout := rfl, sound := yields.sound, waits := ?_, backed := yields.backed,
             latency := yields.settings.latency.trans holds.latency, events := yields.events,
             armed := ?_, numbers := fun item later =>
               holds.numbers item (List.mem_cons_of_mem _ later),
             counted := rfl, quiet := holds.quiet,
             clocks := (List.length_set).trans holds.clocks, inbox := holds.inbox,
             going := holds.going }
    · exact fun entity waits => yields.settings.symm.waits (holds.waits entity waits)
    · intro item later
      have distinct := ((holds.events.map fun event => event.key.uid).nodup_iff).mp
        holds.sound.distinct
      rw [List.map_cons, List.map_cons, List.nodup_cons] at distinct
      simp only [Slots.find?_erase]
      rw [if_neg, holds.armed item (List.mem_cons_of_mem _ later)]
      intro same
      apply distinct.1
      rw [← same]
      exact List.mem_map_of_mem (List.mem_map_of_mem later)
  · exact fun entity => time_set (.advance event.key.ts event.key.uid) within rfl entity

end Holds

end Simulation

end EventKernel
