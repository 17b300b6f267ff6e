import EventKernel.Proofs.LaneSettings
import EventKernel.Proofs.LaneSettling
import EventKernel.Proofs.QueueInversions

set_option autoImplicit false

/-! The operations of both layouts, without the difference between them. Each changes the
events held by exactly the event it puts in or takes out, and without the credit rule the
next event is always the least. -/

namespace EventKernel.Queue

namespace Layout

/-- The state of a layout for so many entities between operations. -/
def Sound (layout : Layout) (entities : Nat) : Prop :=
  match layout with
  | single list => list.Sound ∧ (list.events.map fun event => event.key.uid).Nodup
  | partitioned lanes => lanes.Sound entities

theorem laneOf_le_iff {context : Context} {entities : Nat} :
    LaneQueue.laneOf context ≤ entities ↔ context.Known entities := by
  cases context with
  | global => exact ⟨fun _ => trivial, fun _ => Nat.zero_le _⟩
  | node id => exact Iff.rfl

def counts : Layout → Bool
  | single _ => false
  | partitioned lanes => lanes.credits.isSome

/-- An event that a layout for so many entities accepts. -/
def Addressed (layout : Layout) (entities : Nat) (event : Event) : Prop :=
  event.key.context.Known entities ∧
    (layout.counts = true → event.prevContext.Known entities)

variable {layout : Layout} {entities : Nat}

theorem events_single (list : BarrierList) : (single list).events = list.events := by
  unfold events lists
  rw [List.flatMap_cons, List.flatMap_nil, List.append_nil]

private theorem credits_eq_none {lanes : LaneQueue} (plain : (partitioned lanes).counts = false) :
    lanes.credits = none :=
  Option.isNone_iff_eq_none.mp (Option.isSome_eq_false_iff.mp plain)

theorem Sound.distinct (sound : layout.Sound entities) :
    (layout.events.map fun event => event.key.uid).Nodup := by
  cases layout with
  | single list =>
      rw [events_single]
      exact sound.2
  | partitioned lanes => exact LaneQueue.Sound.distinct sound

theorem new_sound {configuration : Configuration} (accepted : configuration.Accepted) :
    ∃ layout, new configuration = .ok layout ∧ layout.Sound configuration.entities ∧
      layout.events = [] ∧ layout.counts = configuration.strategies.localListsV2 := by
  unfold new
  cases lists : configuration.strategies.localLists with
  | false =>
      refine ⟨_, rfl, ⟨BarrierList.empty_sound _, List.nodup_nil⟩, rfl, ?_⟩
      cases credits : configuration.strategies.localListsV2 with
      | false => rfl
      | true =>
          have needed := accepted.creditsNeedLanes credits
          rw [lists] at needed
          cases needed
  | true =>
      obtain ⟨lanes, built, sound, noEvents, _, _, _, _, plain, counted, _⟩ :=
        LaneQueue.new_sound accepted
      refine ⟨partitioned lanes, ?_, sound, noEvents, ?_⟩
      · rw [if_pos rfl, built]
        rfl
      · change lanes.credits.isSome = _
        cases credits : configuration.strategies.localListsV2 with
        | false => rw [plain credits]; rfl
        | true =>
            obtain ⟨table, present, _⟩ := counted credits
            rw [present]
            rfl

theorem Sound.size_eq (sound : layout.Sound entities) : layout.size = layout.events.length := by
  cases layout with
  | single list =>
      rw [events_single]
      exact sound.1.size_eq
  | partitioned lanes => exact LaneQueue.Sound.size_eq sound

theorem isEmpty_iff : layout.isEmpty = true ↔ layout.events = [] := by
  cases layout with
  | single list =>
      rw [events_single]
      exact BarrierList.isEmpty_iff
  | partitioned lanes => exact LaneQueue.isEmpty_iff

theorem Sound.insert (sound : layout.Sound entities) (event : Event)
    (known : layout.Addressed entities event)
    (fresh : ∀ other ∈ layout.events, other.key.uid ≠ event.key.uid) :
    ∃ after, layout.insert event = .ok after ∧ after.Sound entities ∧
      after.counts = layout.counts ∧ after.events.Perm (event :: layout.events) := by
  cases layout with
  | single list =>
      rw [events_single] at fresh
      have grown := sound.1.insert_events event
      refine ⟨single (list.insert event), rfl, ⟨sound.1.insert event, ?_⟩, rfl, ?_⟩
      · refine ((grown.map _).nodup_iff).mpr (List.nodup_cons.mpr ⟨?_, sound.2⟩)
        intro member
        obtain ⟨other, present, same⟩ := List.mem_map.mp member
        exact fresh other present same
      · rw [events_single, events_single]
        exact grown
  | partitioned lanes =>
      obtain ⟨lists, outbound, inserted, afterSound, grown⟩ :=
        LaneQueue.Sound.insert sound event
          ⟨laneOf_le_iff.mpr known.1, fun counted => laneOf_le_iff.mpr (known.2 counted)⟩ fresh
      refine ⟨partitioned { lanes with lanes := lists, outbound }, ?_, afterSound, rfl, grown⟩
      unfold Layout.insert
      simp only [inserted]
      rfl

theorem Sound.next?_of_no_events (sound : layout.Sound entities) (noEvents : layout.events = []) :
    layout.next? = .ok (none, layout) := by
  cases layout with
  | single list =>
      rw [events_single] at noEvents
      unfold Layout.next? BarrierList.next?
      simp only [BarrierList.front?_eq_none_iff.mpr noEvents]
      rfl
  | partitioned lanes =>
      unfold Layout.next?
      simp only [LaneQueue.Sound.next?_of_no_events sound noEvents]
      rfl

theorem Sound.pop_of_no_events (sound : layout.Sound entities) (noEvents : layout.events = []) :
    layout.pop = .ok (none, layout) := by
  cases layout with
  | single list =>
      rw [events_single] at noEvents
      unfold Layout.pop
      simp only [BarrierList.pop_of_no_events noEvents]
      rfl
  | partitioned lanes =>
      unfold Layout.pop
      simp only [LaneQueue.Sound.pop_of_no_events sound noEvents]
      rfl

private theorem front_of_least {list : BarrierList} (sound : list.Sound)
    (distinct : (list.events.map fun event => event.key.uid).Nodup) {least : Event}
    (leastOf : least.LeastOf list.events) :
    ∃ front, list.front? = some front ∧ front.event = least := by
  cases first : list.front? with
  | none =>
      have member := leastOf.member
      rw [BarrierList.front?_eq_none_iff.mp first] at member
      cases member
  | some front =>
      have member := BarrierList.front_mem_events first
      have tied : front.event.key.rank = least.key.rank :=
        Nat.le_antisymm (sound.front_least first least leastOf.member)
          (leastOf.below front.event member)
      exact ⟨front, rfl, Event.eq_of_uid distinct member leastOf.member
        (EventKey.rank_eq_iff.mp tied).2⟩

theorem Sound.next?_least (sound : layout.Sound entities) (plain : layout.counts = false)
    {least : Event} (leastOf : least.LeastOf layout.events) :
    layout.next? = .ok (some least.key, layout) := by
  cases layout with
  | single list =>
      rw [events_single] at leastOf
      obtain ⟨front, first, same⟩ := front_of_least sound.1 sound.2 leastOf
      unfold Layout.next? BarrierList.next?
      simp only [first, ← same]
      rfl
  | partitioned lanes =>
      unfold Layout.next?
      simp only [LaneQueue.Sound.next?_least sound (credits_eq_none plain) leastOf]
      rfl

theorem Sound.pop_least (sound : layout.Sound entities) (plain : layout.counts = false)
    {least : Event} (leastOf : least.LeastOf layout.events) :
    ∃ after, layout.pop = .ok (some least, after) ∧ after.Sound entities ∧
      after.counts = false ∧ layout.events.Perm (least :: after.events) := by
  cases layout with
  | single list =>
      rw [events_single] at leastOf
      obtain ⟨front, first, same⟩ := front_of_least sound.1 sound.2 leastOf
      obtain ⟨rest, popped, restSound, _, taken⟩ := sound.1.pop first
      rw [same] at popped taken
      refine ⟨single rest, ?_, ⟨restSound, ?_⟩, rfl, ?_⟩
      · unfold Layout.pop
        simp only [popped]
        rfl
      · have distinct := ((taken.map fun event => event.key.uid).nodup_iff).mp sound.2
        exact (List.nodup_cons.mp distinct).2
      · rw [events_single, events_single]
        exact taken
  | partitioned lanes =>
      obtain ⟨after, popped, afterSound, credits, taken⟩ :=
        LaneQueue.Sound.pop_least sound (credits_eq_none plain) leastOf
      refine ⟨partitioned after, ?_, afterSound, ?_, taken⟩
      · unfold Layout.pop
        simp only [popped]
        rfl
      · change after.credits.isSome = false
        rw [credits]
        rfl

theorem Sound.erase_live (sound : layout.Sound entities) {event : Event}
    (member : event ∈ layout.events) :
    ∃ after, layout.erase event.key = .ok (some event, after) ∧ after.Sound entities ∧
      after.counts = layout.counts ∧ layout.events.Perm (event :: after.events) := by
  cases layout with
  | single list =>
      rw [events_single] at member
      rcases sound.1.erase event.key.uid with
        ⟨taken, rest, erased, named, restSound, _, left⟩ | ⟨_, absent⟩
      · have same := Event.eq_of_uid sound.2 (left.mem_iff.mpr List.mem_cons_self) member named
        rw [same] at erased left
        refine ⟨single rest, ?_, ⟨restSound, ?_⟩, rfl, ?_⟩
        · unfold Layout.erase
          simp only [erased]
          rfl
        · have distinct := ((left.map fun event => event.key.uid).nodup_iff).mp sound.2
          exact (List.nodup_cons.mp distinct).2
        · rw [events_single, events_single]
          exact left
      · exact absurd rfl (absent event member)
  | partitioned lanes =>
      obtain ⟨after, erased, afterSound, settings, left, _⟩ :=
        LaneQueue.Sound.erase_live sound member
      refine ⟨partitioned after, ?_, afterSound, settings.counts, left⟩
      unfold Layout.erase
      simp only [erased]
      rfl

theorem Sound.erase_absent (sound : layout.Sound entities) {key : EventKey}
    (absent : ∀ event ∈ layout.events, event.key.uid ≠ key.uid) :
    layout.erase key = .ok (none, layout) := by
  cases layout with
  | single list =>
      rw [events_single] at absent
      rcases sound.1.erase key.uid with
        ⟨taken, rest, _, named, _, _, left⟩ | ⟨erased, _⟩
      · exact absurd named (absent taken (left.mem_iff.mpr List.mem_cons_self))
      · unfold Layout.erase
        simp only [erased]
        rfl
  | partitioned lanes =>
      unfold Layout.erase
      simp only [LaneQueue.Sound.erase_absent sound absent]
      rfl

theorem Sound.drain (sound : layout.Sound entities) :
    layout.drain.1 = layout.events ∧ layout.drain.2.Sound entities ∧
      layout.drain.2.counts = layout.counts ∧ layout.drain.2.events = [] := by
  cases layout with
  | single list =>
      exact ⟨(events_single list).symm, ⟨BarrierList.empty_sound _, List.nodup_nil⟩, rfl, rfl⟩
  | partitioned lanes =>
      obtain ⟨drainedSound, noEvents⟩ := LaneQueue.Equipped.drain sound.toEquipped
      exact ⟨rfl, drainedSound, rfl, noEvents⟩

inductive SameSettings : Layout → Layout → Prop
  | single (list other : BarrierList) : SameSettings (single list) (single other)
  | partitioned {lanes others : LaneQueue} (settings : lanes.SameSettings others) :
      SameSettings (partitioned lanes) (partitioned others)

def credits : Layout → Option CreditTable
  | single _ => none
  | partitioned lanes => lanes.credits

variable {after first second : Layout}

namespace SameSettings

theorem refl (layout : Layout) : layout.SameSettings layout := by
  cases layout with
  | single list => exact .single list list
  | partitioned lanes => exact .partitioned (.refl lanes)

theorem symm (same : first.SameSettings second) : second.SameSettings first := by
  cases same with
  | single list other => exact .single other list
  | partitioned settings => exact .partitioned settings.symm

theorem trans {third : Layout} (former : first.SameSettings second)
    (latter : second.SameSettings third) : first.SameSettings third := by
  cases former with
  | single list other =>
      cases latter with
      | single other last => exact .single list last
  | partitioned settings =>
      cases latter with
      | partitioned others => exact .partitioned (settings.trans others)

theorem counts_eq (same : first.SameSettings second) : second.counts = first.counts := by
  cases same with
  | single => rfl
  | partitioned settings => exact settings.counts

end SameSettings

theorem insert_settings {event : Event} (inserted : layout.insert event = .ok after) :
    layout.SameSettings after ∧ after.credits = layout.credits := by
  cases layout with
  | single list =>
      cases inserted
      exact ⟨.single list _, rfl⟩
  | partitioned lanes =>
      obtain ⟨filled, placed, rfl⟩ := map_eq_ok inserted
      obtain ⟨_, _, _, rfl⟩ := LaneQueue.insert_eq_ok placed
      exact ⟨.partitioned ⟨rfl, rfl, rfl⟩, rfl⟩

theorem pop_settings {event? : Option Event} (popped : layout.pop = .ok (event?, after)) :
    layout.SameSettings after := by
  cases layout with
  | single list =>
      obtain ⟨⟨_, rest⟩, _, same⟩ := map_eq_ok popped
      cases same
      exact .single list rest
  | partitioned lanes =>
      obtain ⟨⟨_, last⟩, taken, same⟩ := map_eq_ok popped
      cases same
      exact .partitioned (LaneQueue.pop_outline taken).toSameSettings

theorem erase_settings {key : EventKey} {event? : Option Event}
    (erased : layout.erase key = .ok (event?, after)) : layout.SameSettings after := by
  cases layout with
  | single list =>
      obtain ⟨⟨_, rest⟩, _, same⟩ := map_eq_ok erased
      cases same
      exact .single list rest
  | partitioned lanes =>
      obtain ⟨⟨_, last⟩, removed, same⟩ := map_eq_ok erased
      cases same
      exact .partitioned (LaneQueue.erase_outline removed).toSameSettings

theorem drain_settings (layout : Layout) : layout.SameSettings layout.drain.2 := by
  cases layout with
  | single list => exact .single list _
  | partitioned lanes => exact .partitioned ⟨rfl, rfl, rfl⟩

theorem new_untroubled {configuration : Configuration} (built : new configuration = .ok layout) :
    layout.deadlocks = 0 := by
  unfold new at built
  split at built
  · obtain ⟨lanes, made, rfl⟩ := map_eq_ok built
    obtain ⟨_, _, rfl⟩ := LaneQueue.new_eq_ok made
    rfl
  · cases built
    rfl

theorem insert_keeps {event : Event} (inserted : layout.insert event = .ok after) :
    after.counts = layout.counts ∧ after.deadlocks = layout.deadlocks := by
  cases layout with
  | single list =>
      cases inserted
      exact ⟨rfl, rfl⟩
  | partitioned lanes =>
      obtain ⟨filled, placed, rfl⟩ := map_eq_ok inserted
      obtain ⟨_, _, _, rfl⟩ := LaneQueue.insert_eq_ok placed
      exact ⟨rfl, rfl⟩

theorem erase_keeps {key : EventKey} {event? : Option Event}
    (erased : layout.erase key = .ok (event?, after)) :
    after.counts = layout.counts ∧ after.deadlocks = layout.deadlocks := by
  cases layout with
  | single list =>
      obtain ⟨_, _, same⟩ := map_eq_ok erased
      cases same
      exact ⟨rfl, rfl⟩
  | partitioned lanes =>
      obtain ⟨⟨_, _⟩, removed, same⟩ := map_eq_ok erased
      cases same
      obtain ⟨_, _, _, _, recounts, rfl⟩ := LaneQueue.erase_eq_ok removed
      exact ⟨recounts.isSome_eq, rfl⟩

theorem Sound.pop_keeps (sound : layout.Sound entities) (plain : layout.counts = false)
    {event? : Option Event} (popped : layout.pop = .ok (event?, after)) :
    after.deadlocks = layout.deadlocks := by
  cases layout with
  | single list =>
      obtain ⟨_, _, same⟩ := map_eq_ok popped
      cases same
      rfl
  | partitioned lanes =>
      obtain ⟨⟨_, _⟩, taken, same⟩ := map_eq_ok popped
      cases same
      obtain ⟨lane?, settled, _, _, settles, _, _, rfl⟩ := LaneQueue.pop_eq_ok taken
      rcases LaneQueue.Sound.settle sound with ⟨_, _, reached, chain⟩ | ⟨fails, _⟩
      · rw [reached] at settles
        cases settles
        change settled.deadlocks = lanes.deadlocks
        rw [chain.eq_of_no_credits (credits_eq_none plain)]
      · rw [fails] at settles
        cases settles

theorem drain_keeps : layout.drain.2.counts = layout.counts ∧
    layout.drain.2.deadlocks = layout.deadlocks := by
  cases layout with
  | single list => exact ⟨rfl, rfl⟩
  | partitioned lanes => exact ⟨rfl, rfl⟩

end Layout

/-- A queue that was just built is sound and holds nothing. -/
theorem EventQueue.sound_of_new {σ : Type} {queue : EventQueue σ} {configuration : Configuration}
    {hook : σ} (built : EventQueue.new configuration hook = .ok (.ok queue)) :
    queue.layout.Sound configuration.entities ∧ queue.layout.events = [] ∧
      queue.layout.counts = configuration.strategies.localListsV2 := by
  obtain ⟨valid, placed, _⟩ := new_eq_ok built
  obtain ⟨layout, made, sound⟩ := Layout.new_sound (Configuration.accepted_of_validate valid)
  cases made.symm.trans placed
  exact sound

end EventKernel.Queue
