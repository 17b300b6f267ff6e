import EventKernel.Proofs.CausalPrograms

set_option autoImplicit false

/-! Why clocks advance. No clock lies ahead of a queued event by more than the latency from
the entity of the clock to the owner of the event; in particular no event lies behind the
clock of its own entity. Scheduling keeps this because latencies are those of a distance,
and taking an event keeps it because a settled front lies ahead of no event by more than
the latency between their owners. -/

namespace EventKernel

open Queue (Configuration LatencyMatrix LaneQueue EventQueue)
open Queue.LaneQueue (laneOf entityOf)

namespace Simulation

variable {σ β : Type} {simulation after : Simulation σ β}

def time (simulation : Simulation σ β) (entity : Nat) : Nat :=
  match simulation.localClocks[entity]? with
  | some clock => clock.now.value.toNat
  | none => 0

/-- No clock lies ahead of that of an entity by more than the latency to it. -/
def Leads (simulation : Simulation σ β) (configuration : Configuration) (entity : Nat) : Prop :=
  ∀ other, other < configuration.entities →
    simulation.time other ≤ simulation.time entity + configuration.latency.between other entity

def Current (simulation : Simulation σ β) (configuration : Configuration) : Prop :=
  ∀ id, simulation.context = .node id →
    id.index < configuration.entities ∧ simulation.Leads configuration id.index

/-- The state of a simulation whose events are in time. -/
structure Timely (simulation : Simulation σ β) (configuration : Configuration)
    (given : Handle → Prop) (lanes : LaneQueue) : Prop where
  layout : simulation.queue.layout = .partitioned lanes
  sound : lanes.Sound configuration.entities
  timed : lanes.Timed
  latency : lanes.latency = configuration.latency
  waits : ∀ entity, lanes.Waits entity → configuration.Waits entity
  quiet : simulation.queue.perturbation.settings.enabled = false
  clocks : simulation.localClocks.length = configuration.entities
  ahead : ∀ event ∈ lanes.events, ∀ entity, entity < configuration.entities →
    simulation.time entity ≤ event.key.ts.value.toNat +
      configuration.latency.between entity (entityOf event.key.context)
  numbers : ∀ event ∈ lanes.events, event.key.uid.value.toNat < simulation.nextUid.value.toNat
  handles : ∀ handle, given handle → handle.isDestroy = false →
    handle.key.uid.value.toNat < simulation.nextUid.value.toNat ∧
      ∀ event ∈ lanes.events, event.key.uid = handle.key.uid → event.key = handle.key
  inbox : simulation.inbox.requests = []

theorem time_of_clock {id : NodeId} {clock : Clock}
    (read : simulation.clock (.node id) = .ok clock) :
    simulation.localClocks[id.index]? = some clock ∧
      simulation.time id.index = clock.now.value.toNat := by
  unfold Simulation.clock at read
  unfold time
  cases found : simulation.localClocks[id.index]? with
  | none =>
      simp only [found] at read
      cases read
  | some held =>
      simp only [found] at read
      cases read
      exact ⟨rfl, rfl⟩

theorem time_congr (same : after.localClocks = simulation.localClocks) :
    after.time = simulation.time := by
  funext entity
  unfold time
  rw [same]

theorem time_set {id : NodeId} (clock : Clock)
    (within : id.index < simulation.localClocks.length)
    (moved : after.localClocks = simulation.localClocks.set id.index clock) (entity : Nat) :
    after.time entity =
      if id.index = entity then clock.now.value.toNat else simulation.time entity := by
  unfold time
  rw [moved, List.getElem?_set]
  by_cases here : id.index = entity
  · rw [if_pos here, if_pos here, if_pos within]
  · rw [if_neg here, if_neg here]

private theorem advanceClock_node {key : EventKey} {id : NodeId} (owner : key.context = .node id)
    (moved : simulation.advanceClock key = .ok after) :
    id.index < simulation.localClocks.length ∧ after = { simulation with
      localClocks := simulation.localClocks.set id.index (.advance key.ts key.uid) } := by
  unfold advanceClock at moved
  rw [owner] at moved
  simp only at moved
  split at moved
  · rename_i within
    cases moved
    exact ⟨within, rfl⟩
  · cases moved

private theorem Leads.congr {configuration : Configuration} {entity : Nat}
    (leads : simulation.Leads configuration entity)
    (same : after.localClocks = simulation.localClocks) : after.Leads configuration entity := by
  intro other known
  rw [time_congr same]
  exact leads other known

theorem Current.congr {configuration : Configuration} (current : simulation.Current configuration)
    (same : after.localClocks = simulation.localClocks)
    (context : after.context = simulation.context) : after.Current configuration := by
  intro id entered
  rw [context] at entered
  obtain ⟨known, leads⟩ := current id entered
  exact ⟨known, leads.congr same⟩

namespace Timely

variable {configuration : Configuration} {given : Handle → Prop} {lanes : LaneQueue}

theorem of_same (timely : simulation.Timely configuration given lanes)
    (layout : after.queue.layout = simulation.queue.layout)
    (perturbation : after.queue.perturbation = simulation.queue.perturbation)
    (clocks : after.localClocks = simulation.localClocks)
    (numbers : simulation.nextUid.value.toNat ≤ after.nextUid.value.toNat)
    (inbox : after.inbox.requests = []) : after.Timely configuration given lanes where
  layout := layout.trans timely.layout
  sound := timely.sound
  timed := timely.timed
  latency := timely.latency
  waits := timely.waits
  quiet := by
    rw [perturbation]
    exact timely.quiet
  clocks := by
    rw [clocks]
    exact timely.clocks
  ahead := by
    rw [time_congr clocks]
    exact timely.ahead
  numbers := fun event member => Nat.lt_of_lt_of_le (timely.numbers event member) numbers
  handles := by
    intro handle known queued
    obtain ⟨number, keys⟩ := timely.handles handle known queued
    exact ⟨Nat.lt_of_lt_of_le number numbers, keys⟩
  inbox := inbox

theorem weaken {fewer : Handle → Prop} (timely : simulation.Timely configuration given lanes)
    (among : ∀ handle, fewer handle → handle.isDestroy = false → given handle) :
    simulation.Timely configuration fewer lanes :=
  { timely with
    handles := fun handle known queued =>
      timely.handles handle (among handle known queued) queued }

private theorem known_of_clock (timely : simulation.Timely configuration given lanes) {id : NodeId}
    {clock : Clock} (read : simulation.clock (.node id) = .ok clock) :
    id.index < configuration.entities := by
  obtain ⟨found, _⟩ := time_of_clock read
  rw [← timely.clocks]
  exact (List.getElem?_eq_some_iff.mp found).1

private theorem of_lanes (timely : simulation.Timely configuration given lanes) {rest : LaneQueue}
    {queue : EventQueue σ} (layout : queue.layout = .partitioned rest)
    (perturbation : queue.perturbation = simulation.queue.perturbation)
    (sound : rest.Sound configuration.entities) (timed : rest.Timed)
    (settings : lanes.SameSettings rest)
    (kept : ∀ event ∈ rest.events, ∃ origin ∈ lanes.events, origin.key = event.key) :
    { simulation with queue }.Timely configuration given rest where
  layout := layout
  sound := sound
  timed := timed
  latency := settings.latency.trans timely.latency
  waits := fun entity waits => timely.waits entity (settings.waits waits)
  quiet := by
    rw [perturbation]
    exact timely.quiet
  clocks := timely.clocks
  ahead := by
    intro event member entity known
    obtain ⟨origin, present, named⟩ := kept event member
    rw [← named]
    exact timely.ahead origin present entity known
  numbers := by
    intro event member
    obtain ⟨origin, present, named⟩ := kept event member
    rw [← named]
    exact timely.numbers origin present
  handles := by
    intro handle known queued
    obtain ⟨number, keys⟩ := timely.handles handle known queued
    refine ⟨number, ?_⟩
    intro event member same
    obtain ⟨origin, present, named⟩ := kept event member
    rw [← named] at same ⊢
    exact keys origin present same
  inbox := timely.inbox

/-! ### Scheduling and removal -/

section

variable [Exploration.Hook σ] {callback : Callback β} {handle : Handle}

private theorem insert (timely : simulation.Timely configuration given lanes) {event : Event}
    {owner base : NodeId} (owned : event.key.context = .node owner)
    (caused : event.prevContext = .node base) (ownerKnown : owner.index < configuration.entities)
    (baseKnown : base.index < configuration.entities)
    (travelled : configuration.latency.between base.index owner.index ≤ event.key.ts.value.toNat)
    (ahead : ∀ entity, entity < configuration.entities → simulation.time entity ≤
      event.key.ts.value.toNat + configuration.latency.between entity owner.index)
    (numbered : event.key.uid = simulation.nextUid) {nextUid : EventUid}
    (following : simulation.nextUid.value.toNat + 1 = nextUid.value.toNat)
    {queue : EventQueue σ} {key : EventKey}
    (inserted : simulation.queue.insert event = .ok (.ok key, queue)) (slots : Slots β)
    (unscheduled : Nat) :
    ∃ grown, { simulation with nextUid, queue, slots, unscheduled }.Timely configuration
      (fun other => given other ∨ other = Handle.ofEvent key event.kind) grown := by
  obtain ⟨answered, placed, perturbation⟩ := EventQueue.insert_quiet timely.quiet inserted
  cases answered
  rw [timely.layout] at placed
  obtain ⟨grown, done, layout⟩ := map_eq_ok placed
  have fresh : ∀ other ∈ lanes.events, other.key.uid ≠ event.key.uid := by
    intro other member same
    have number := timely.numbers other member
    rw [same, numbered] at number
    exact Nat.lt_irrefl _ number
  have addressed : lanes.Addressed configuration.entities event := by
    unfold LaneQueue.Addressed
    rw [owned, caused]
    exact ⟨ownerKnown, fun _ => baseKnown⟩
  obtain ⟨lists, outbound, same, sound, perm⟩ := timely.sound.insert event addressed fresh
  rw [same] at done
  cases done
  have settings : lanes.SameSettings { lanes with lanes := lists, outbound } := ⟨rfl, rfl, rfl⟩
  refine ⟨{ lanes with lanes := lists, outbound }, ⟨layout.symm, sound, ?_, timely.latency,
    fun entity waits => timely.waits entity (settings.waits waits), ?_, timely.clocks, ?_, ?_, ?_,
    timely.inbox⟩⟩
  · apply timely.timed.insert settings perm
    · rw [owned]
      exact Nat.succ_ne_zero _
    · rw [timely.latency, owned, caused]
      exact travelled
  · show queue.perturbation.settings.enabled = false
    rw [perturbation]
    exact timely.quiet
  · intro other member entity known
    rcases List.mem_cons.mp (perm.mem_iff.mp member) with here | before
    · rw [here, owned]
      exact ahead entity known
    · exact timely.ahead other before entity known
  · intro other member
    show other.key.uid.value.toNat < nextUid.value.toNat
    rcases List.mem_cons.mp (perm.mem_iff.mp member) with here | before
    · rw [here, numbered]
      omega
    · have number := timely.numbers other before
      omega
  · intro handle known queued
    show handle.key.uid.value.toNat < nextUid.value.toNat ∧ _
    rcases known with earlier | latest
    · obtain ⟨number, keys⟩ := timely.handles handle earlier queued
      refine ⟨by omega, ?_⟩
      intro other member alike
      rcases List.mem_cons.mp (perm.mem_iff.mp member) with here | before
      · rw [here, numbered] at alike
        rw [← alike] at number
        exact absurd number (Nat.lt_irrefl _)
      · exact keys other before alike
    · rw [latest]
      refine ⟨?_, ?_⟩
      · show event.key.uid.value.toNat < _
        rw [numbered]
        omega
      · intro other member alike
        rcases List.mem_cons.mp (perm.mem_iff.mp member) with here | before
        · rw [here]
          rfl
        · exact absurd alike (fresh other before)

/-- An event that is scheduled by a leading entity, no sooner than the latency to its owner,
is in time. -/
theorem schedule (timely : simulation.Timely configuration given lanes)
    (metric : configuration.latency.Metric configuration.entities) {plan : Plan}
    {base owner : NodeId} (cause : plan.base = .node base) (context : plan.context = .node owner)
    (leads : simulation.Leads configuration base.index)
    (paced : owner = base ∨
      configuration.latency.between base.index owner.index ≤ plan.delay.toNat)
    (scheduled : simulation.schedule plan callback = .ok (handle, after)) :
    ∃ grown, after.Timely configuration (fun other => given other ∨ other = handle) grown := by
  obtain ⟨clock, ts, nextUid, ownClock, atBase, stamped, atOwner, following, enqueued⟩ :=
    schedule_eq_ok scheduled
  rw [cause] at atBase
  rw [context] at atOwner
  have baseKnown := timely.known_of_clock atBase
  have ownerKnown := timely.known_of_clock atOwner
  have later : ts.value.toNat = simulation.time base.index + plan.delay.toNat := by
    rw [(time_of_clock atBase).2]
    exact Clock.after_eq_ok stamped
  have way : configuration.latency.between base.index owner.index ≤ plan.delay.toNat := by
    rcases paced with own | far
    · rw [own, metric.self base.index baseKnown]
      exact Nat.zero_le _
    · exact far
  cases enqueued with
  | refused queue ended inserted =>
      obtain ⟨impossible, _⟩ := EventQueue.insert_quiet timely.quiet inserted
      cases impossible
  | queued queue key inserted =>
      refine timely.insert context cause ownerKnown baseKnown ?_ ?_ rfl following inserted _ _
      · show _ ≤ ts.value.toNat
        omega
      · intro entity known
        show _ ≤ ts.value.toNat + _
        -- The way over the owner of the event is no shorter than the direct one.
        have bound := leads entity known
        have detour := metric.detour entity owner.index base.index known ownerKnown baseKnown
        rw [metric.symmetric owner.index base.index ownerKnown baseKnown] at detour
        omega

end

theorem withdraw (timely : simulation.Timely configuration given lanes) {handle : Handle}
    (known : given handle) (withdrawn : Withdrawn simulation handle after) :
    ∃ rest, after.Timely configuration given rest := by
  cases withdrawn with
  | unregistered destroy =>
      exact ⟨lanes, timely.of_same rfl rfl rfl (Nat.le_refl _) timely.inbox⟩
  | ignored expired => exact ⟨lanes, timely⟩
  | cancelled queued live =>
      exact ⟨lanes, timely.of_same rfl rfl rfl (Nat.le_refl _) timely.inbox⟩
  | removed queued queue event unscheduled erased live one =>
      obtain ⟨rest, done, rfl⟩ := EventQueue.erase_partitioned timely.layout erased
      obtain ⟨_, keys⟩ := timely.handles handle known queued
      by_cases present : ∃ other ∈ lanes.events, other.key.uid = handle.key.uid
      · obtain ⟨other, member, same⟩ := present
        rw [← keys other member same] at done
        obtain ⟨after, taken, sound, settings, left, _⟩ := timely.sound.erase_live member
        rw [done] at taken
        cases taken
        have fewer : ∀ event ∈ rest.events, event ∈ lanes.events :=
          fun event inside => left.mem_iff.mpr (List.mem_cons_of_mem _ inside)
        have kept := timely.of_lanes (show EventQueue.layout { simulation.queue with
          layout := .partitioned rest } = .partitioned rest from rfl) rfl sound
          (timely.timed.fewer settings fewer) settings
          (fun event inside => ⟨event, fewer event inside, rfl⟩)
        exact ⟨rest, kept.of_same rfl rfl rfl (Nat.le_refl _) timely.inbox⟩
      · rw [timely.sound.erase_absent (fun other member same =>
          present ⟨other, member, same⟩)] at done
        cases done

theorem dispose (timely : simulation.Timely configuration given lanes) :
    ∃ rest, simulation.dispose.Timely configuration given rest := by
  obtain ⟨sound, noEvents⟩ := timely.sound.toEquipped.drain
  have layout : simulation.queue.drain.2.layout = .partitioned lanes.drain.2 := by
    unfold EventQueue.drain
    rw [timely.layout]
    rfl
  have fewer : ∀ event ∈ lanes.drain.2.events, event ∈ lanes.events := by
    intro event member
    rw [noEvents] at member
    cases member
  have settings : lanes.SameSettings lanes.drain.2 := ⟨rfl, rfl, rfl⟩
  have kept := timely.of_lanes layout rfl sound (timely.timed.fewer settings fewer) settings
    (fun event inside => ⟨event, fewer event inside, rfl⟩)
  refine ⟨lanes.drain.2, kept.of_same rfl rfl rfl (Nat.le_refl _) ?_⟩
  show simulation.inbox.drain.2.requests = []
  unfold Inbox.drain
  split
  · exact timely.inbox
  · rfl

theorem scheduleDestroy (timely : simulation.Timely configuration given lanes) {callback : β}
    {handle : Handle} (registered : simulation.scheduleDestroy callback = .ok (handle, after)) :
    after.Timely configuration (fun other => given other ∨ other = handle) lanes := by
  obtain ⟨nextUid, following, rfl, rfl⟩ := scheduleDestroy_eq_ok registered
  have numbers : simulation.nextUid.value.toNat ≤ nextUid.value.toNat := by omega
  have kept : Timely { simulation with
      nextUid
      destroyEvents := simulation.destroyEvents ++
        [(Handle.ofDestroy simulation.globalClock.now simulation.nextUid, callback)] }
      configuration given lanes := timely.of_same rfl rfl rfl numbers timely.inbox
  apply kept.weaken
  intro other known queued
  rcases known with before | here
  · exact before
  · rw [here] at queued
    cases queued

/-! ### Running -/

section

variable [Exploration.Hook σ]

private theorem drainInbox (timely : simulation.Timely configuration given lanes)
    (drained : simulation.drainInbox = .ok after) :
    after.Timely configuration given lanes ∧ after.localClocks = simulation.localClocks ∧
      after.context = simulation.context := by
  have none : simulation.inbox.drain.1 = [] ∧ simulation.inbox.drain.2.requests = [] := by
    unfold Inbox.drain
    split
    · exact ⟨rfl, timely.inbox⟩
    · exact ⟨timely.inbox, rfl⟩
  change ({ simulation with inbox := simulation.inbox.drain.2 }.mergeAll
    simulation.inbox.drain.1) = .ok after at drained
  rw [none.1] at drained
  cases drained
  exact ⟨timely.of_same rfl rfl rfl (Nat.le_refl _) none.2, rfl, rfl⟩

theorem beginRun (timely : simulation.Timely configuration given lanes)
    (begun : simulation.beginRun = .ok after) :
    after.Timely configuration given lanes ∧ after.localClocks = simulation.localClocks ∧
      after.context = simulation.context := by
  obtain ⟨drained, stopRequested, merged, rfl⟩ := beginRun_eq_ok begun
  obtain ⟨kept, clocks, context⟩ := timely.drainInbox merged
  exact ⟨kept.of_same rfl rfl rfl (Nat.le_refl _) kept.inbox, clocks, context⟩

theorem leaveEvent (timely : simulation.Timely configuration given lanes)
    (left : simulation.leaveEvent = .ok after) :
    after.Timely configuration given lanes ∧ after.localClocks = simulation.localClocks ∧
      after.context = .global := by
  have outside : { simulation with context := .global }.Timely configuration given lanes :=
    timely.of_same rfl rfl rfl (Nat.le_refl _) timely.inbox
  exact outside.drainInbox left

theorem finishEvent (timely : simulation.Timely configuration given lanes)
    (finished : simulation.finishEvent = .ok after) :
    after.Timely configuration given lanes ∧ after.localClocks = simulation.localClocks ∧
      after.context = .global := by
  have counted : { simulation with processed := simulation.processed + 1 }.Timely configuration
      given lanes := timely.of_same rfl rfl rfl (Nat.le_refl _) timely.inbox
  exact counted.leaveEvent finished

end

private theorem pop (timely : simulation.Timely configuration given lanes)
    (metric : configuration.latency.Metric configuration.entities)
    (composes : configuration.latency.Composes configuration.entities)
    (nearby : configuration.WaitsNearby) {event? : Option Event}
    {queue : EventQueue σ} (popped : simulation.queue.pop = .ok (event?, queue)) :
    ∃ rest, { simulation with queue }.Timely configuration given rest ∧
      ∀ front, event? = some front → laneOf front.key.context ≠ 0 ∧
        (∀ entity, entity < configuration.entities → simulation.time entity ≤
          front.key.ts.value.toNat +
            configuration.latency.between entity (entityOf front.key.context)) ∧
        ∀ event ∈ rest.events, front.key.ts.value.toNat ≤ event.key.ts.value.toNat +
          configuration.latency.between (entityOf front.key.context)
            (entityOf event.key.context) := by
  obtain ⟨rest, done, rfl⟩ := EventQueue.pop_partitioned timely.layout popped
  have same := timely.latency
  unfold Configuration.WaitsNearby at nearby
  rw [← same] at metric composes nearby
  obtain ⟨sound, settings, timed, kept, bound⟩ := timely.timed.pop timely.sound metric composes
    (fun entity known waits => nearby entity known (timely.waits entity waits)) done
  refine ⟨rest, timely.of_lanes rfl rfl sound timed settings kept, ?_⟩
  intro front taken
  obtain ⟨⟨origin, present, named⟩, later⟩ := bound front taken
  refine ⟨?_, ?_, ?_⟩
  · rw [← named]
    exact timely.timed.owned origin present
  · rw [← named]
    exact timely.ahead origin present
  · rw [← same]
    exact later

/-- The entity whose event is taken leads from then on, and no clock is turned back. -/
theorem dequeue (timely : simulation.Timely configuration given lanes)
    (current : simulation.Current configuration)
    (metric : configuration.latency.Metric configuration.entities)
    (composes : configuration.latency.Composes configuration.entities)
    (nearby : configuration.WaitsNearby) {dequeued : Dequeued β}
    (taken : Taken simulation dequeued after) :
    (∃ rest, after.Timely configuration given rest) ∧ after.Current configuration ∧
      ∀ entity, simulation.time entity ≤ after.time entity := by
  cases taken with
  | nothing queue popped =>
      obtain ⟨rest, kept, _⟩ := timely.pop metric composes nearby popped
      exact ⟨⟨rest, kept⟩, current, fun entity => Nat.le_refl _⟩
  | entered queue event unscheduled advanced slot popped one moved found =>
      obtain ⟨rest, kept, bound⟩ := timely.pop metric composes nearby popped
      obtain ⟨owned, ahead, later⟩ := bound event rfl
      cases owner : event.key.context with
      | global =>
          rw [owner] at owned
          exact absurd rfl owned
      | node id =>
          obtain ⟨inside, rfl⟩ := advanceClock_node owner moved
          have within : id.index < simulation.localClocks.length := inside
          have known : id.index < configuration.entities := by
            rw [← timely.clocks]
            exact within
          have entity_ : entityOf event.key.context = id.index := by
            rw [owner]
            rfl
          rw [entity_] at ahead later
          have times : ∀ entity, Simulation.time { simulation with
              queue
              unscheduled
              localClocks := simulation.localClocks.set id.index
                (.advance event.key.ts event.key.uid)
              context := Context.node id
              slots := simulation.slots.erase event.key.uid } entity =
                if id.index = entity then event.key.ts.value.toNat
                else simulation.time entity :=
            fun entity => time_set (.advance event.key.ts event.key.uid) within rfl entity
          refine ⟨⟨rest, { kept with clocks := ?_, ahead := ?_ }⟩, ?_, ?_⟩
          · exact (List.length_set).trans timely.clocks
          · intro other member entity entityKnown
            rw [times]
            split
            · rename_i here
              rw [← here]
              exact later other member
            · exact kept.ahead other member entity entityKnown
          · intro entered same
            cases same
            refine ⟨known, ?_⟩
            intro entity entityKnown
            rw [times, times, if_pos rfl]
            split
            · exact Nat.le_add_right _ _
            · exact ahead entity entityKnown
          · intro entity
            rw [times]
            split
            · rename_i here
              have behind := ahead id.index known
              rw [metric.self id.index known, here] at behind
              exact behind
            · exact Nat.le_refl _

end Timely

end Simulation

end EventKernel
