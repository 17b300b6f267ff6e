import EventKernel.Proofs.BarrierRemoval
import EventKernel.Proofs.CreditCells
import EventKernel.Proofs.OutboundIndex

set_option autoImplicit false

/-! The state of a partitioned queue between operations. Every event is held in its home
lane, the index lists exactly the messages held, and no two events share a serial number.
Putting one event in and taking one out are the two changes all operations are made of. -/

namespace EventKernel.Queue.LaneQueue

/-- A message as it arrives: its kind is all that changes on the way. -/
def delivered (event : Event) : Event := { event with kind := .incoming }

/-- Every event of every lane belongs there. -/
def Housed (home : Event → Nat) (lanes : List BarrierList) : Prop :=
  ∀ (lane : Nat) (list : BarrierList), lanes[lane]? = some list →
    ∀ event ∈ list.events, home event = lane

/-- An event that can be put into a queue for so many entities: its owner is known, and so is
its sender where credit is counted. -/
def Addressed (queue : LaneQueue) (entities : Nat) (event : Event) : Prop :=
  laneOf event.key.context ≤ entities ∧
    (queue.credits.isSome = true → laneOf event.prevContext ≤ entities)

/-- What a queue for so many entities was built with. -/
structure Equipped (queue : LaneQueue) (entities : Nat) : Prop where
  laneCount : queue.lanes.length = entities + 1
  indexCount : queue.outbound.length = entities + 1
  latencies : ∀ source target, source < entities → target < entities →
    ∃ latency, queue.latency.get source target = .ok latency
  credited : ∀ table, queue.credits = some table → table.Covers entities

/-- The state of a queue for so many entities between operations. -/
structure Sound (queue : LaneQueue) (entities : Nat) : Prop extends Equipped queue entities where
  lists : ∀ list ∈ queue.lanes, list.Sound
  housed : Housed queue.homeLane queue.lanes
  indexed : Indexed queue.isCrossing queue.events queue.outbound
  distinct : (queue.events.map fun event => event.key.uid).Nodup
  addressed : ∀ event ∈ queue.events, queue.Addressed entities event

/-- What no operation changes. -/
structure SameSettings (queue after : LaneQueue) : Prop where
  latency : after.latency = queue.latency
  boundary : after.boundary = queue.boundary
  interfaces : after.credits.map CreditTable.interfaces =
    queue.credits.map CreditTable.interfaces

variable {queue : LaneQueue} {entities : Nat}

theorem SameSettings.refl (queue : LaneQueue) : queue.SameSettings queue := ⟨rfl, rfl, rfl⟩

theorem SameSettings.symm {after : LaneQueue} (same : queue.SameSettings after) :
    after.SameSettings queue :=
  ⟨same.latency.symm, same.boundary.symm, same.interfaces.symm⟩

theorem SameSettings.trans {first second third : LaneQueue} (former : first.SameSettings second)
    (latter : second.SameSettings third) : first.SameSettings third where
  latency := latter.latency.trans former.latency
  boundary := latter.boundary.trans former.boundary
  interfaces := latter.interfaces.trans former.interfaces

theorem SameSettings.counts {after : LaneQueue} (same : queue.SameSettings after) :
    after.credits.isSome = queue.credits.isSome := by
  have mapped := congrArg Option.isSome same.interfaces
  rw [Option.isSome_map, Option.isSome_map] at mapped
  exact mapped

theorem isCrossing_iff {event : Event} :
    queue.isCrossing event = true ↔
      queue.credits.isSome = true ∧ event.kind = .outgoing ∧
        laneOf event.prevContext ≠ 0 ∧ laneOf event.key.context ≠ 0 ∧
        event.prevContext ≠ event.key.context := by
  unfold isCrossing
  simp only [Bool.and_eq_true, beq_iff_eq, bne_iff_ne, Bool.not_eq_true', and_assoc]
  have entity : ∀ context : Context, context.isGlobal = false ↔ laneOf context ≠ 0 := by
    intro context
    cases context with
    | global => simp [Context.isGlobal, laneOf]
    | node id => simp [Context.isGlobal, laneOf]
  rw [entity, entity]

theorem homeLane_of_crossing {event : Event} (crossing : queue.isCrossing event = true) :
    queue.homeLane event = laneOf event.prevContext :=
  if_pos crossing

theorem homeLane_of_not_crossing {event : Event} (stays : queue.isCrossing event = false) :
    queue.homeLane event = laneOf event.key.context :=
  if_neg (by rw [stays]; exact Bool.false_ne_true)

theorem not_crossing_of_kind {event : Event} (other : event.kind ≠ .outgoing) :
    queue.isCrossing event = false :=
  Bool.eq_false_iff.mpr fun crossing => other (isCrossing_iff.mp crossing).2.1

theorem delivered_not_crossing (queue : LaneQueue) (event : Event) :
    queue.isCrossing (delivered event) = false :=
  not_crossing_of_kind EventKind.noConfusion

/-- Whether events are messages depends on the credit rule being active, and on no more. -/
theorem isCrossing_congr (queue other : LaneQueue)
    (same : other.credits.isSome = queue.credits.isSome) : other.isCrossing = queue.isCrossing := by
  funext event
  unfold isCrossing
  rw [same]

theorem homeLane_congr (queue other : LaneQueue)
    (same : other.credits.isSome = queue.credits.isSome) : other.homeLane = queue.homeLane := by
  funext event
  unfold homeLane
  rw [isCrossing_congr _ _ same]

theorem mem_events {event : Event} :
    event ∈ queue.events ↔
      ∃ (lane : Nat) (list : BarrierList),
        queue.lanes[lane]? = some list ∧ event ∈ list.events := by
  unfold events
  rw [List.mem_flatMap]
  constructor
  · rintro ⟨list, member, held⟩
    obtain ⟨lane, found⟩ := List.mem_iff_getElem?.mp member
    exact ⟨lane, list, found, held⟩
  · rintro ⟨lane, list, found, held⟩
    exact ⟨list, List.mem_of_getElem? found, held⟩

theorem events_drained (queue : LaneQueue) : queue.drain.2.events = [] := by
  unfold events LaneQueue.drain
  apply List.flatMap_eq_nil_iff.mpr
  intro list member
  obtain ⟨before, _, same⟩ := List.mem_map.mp member
  rw [← same]
  rfl

theorem events_putLane {lane : Nat} {list : BarrierList} (found : queue.lanes[lane]? = some list) :
    ∃ others, queue.events.Perm (list.events ++ others) ∧
      ∀ other, (queue.putLane lane other).events.Perm (other.events ++ others) := by
  obtain ⟨within, same⟩ := List.getElem?_eq_some_iff.mp found
  have split : queue.lanes =
      queue.lanes.take lane ++ list :: queue.lanes.drop (lane + 1) := by
    rw [← same, List.getElem_cons_drop, List.take_append_drop]
  refine ⟨(queue.lanes.take lane ++ queue.lanes.drop (lane + 1)).flatMap BarrierList.events,
    ?_, ?_⟩
  · unfold events
    rw [split]
    simp only [List.flatMap_append, List.flatMap_cons]
    rw [List.take_append_of_le_length (by rw [List.length_take]; omega), List.take_take,
      Nat.min_self, ← split]
    exact List.perm_append_comm_assoc _ _ _
  · intro other
    unfold events putLane
    simp only
    rw [List.set_eq_take_append_cons_drop, if_pos within]
    simp only [List.flatMap_append, List.flatMap_cons]
    exact List.perm_append_comm_assoc _ _ _

theorem distinct_at {lane : Nat} {list : BarrierList} (found : queue.lanes[lane]? = some list)
    (distinct : (queue.events.map fun event => event.key.uid).Nodup) :
    (list.events.map fun event => event.key.uid).Nodup := by
  obtain ⟨others, before, _⟩ := events_putLane found
  have all := ((before.map fun event => event.key.uid).nodup_iff).mp distinct
  rw [List.map_append] at all
  exact (List.nodup_append.mp all).1

theorem Sound.eq_of_uid (sound : queue.Sound entities) {left right : Event}
    (leftMember : left ∈ queue.events) (rightMember : right ∈ queue.events)
    (same : left.key.uid = right.key.uid) : left = right :=
  Event.eq_of_uid sound.distinct leftMember rightMember same

theorem Sound.home_lane (sound : queue.Sound entities) {event : Event}
    (member : event ∈ queue.events) :
    ∃ list : BarrierList,
      queue.lanes[queue.homeLane event]? = some list ∧ event ∈ list.events := by
  obtain ⟨lane, list, found, held⟩ := mem_events.mp member
  rw [sound.housed lane list found event held]
  exact ⟨list, found, held⟩

theorem Sound.list_sound (sound : queue.Sound entities) {lane : Nat} {list : BarrierList}
    (found : queue.lanes[lane]? = some list) : list.Sound :=
  sound.lists list (List.mem_of_getElem? found)

theorem Equipped.lane_exists (equipped : queue.Equipped entities) (lane : Nat)
    (known : lane ≤ entities) : ∃ list, queue.lanes[lane]? = some list := by
  have within : lane < queue.lanes.length := by rw [equipped.laneCount]; omega
  exact ⟨queue.lanes[lane], List.getElem?_eq_getElem within⟩

theorem Equipped.lane_le (equipped : queue.Equipped entities) {lane : Nat} {list : BarrierList}
    (found : queue.lanes[lane]? = some list) : lane ≤ entities := by
  have within := (List.getElem?_eq_some_iff.mp found).1
  rw [equipped.laneCount] at within
  omega

theorem laneAt_of_found {lane : Nat} {list : BarrierList}
    (found : queue.lanes[lane]? = some list) : queue.laneAt lane = .ok list := by
  unfold laneAt
  rw [found]

theorem Housed.set {home : Event → Nat} {lanes : List BarrierList} (housed : Housed home lanes)
    {lane : Nat} {list other : BarrierList} (found : lanes[lane]? = some list)
    (kept : ∀ event ∈ other.events, event ∈ list.events ∨ home event = lane) :
    Housed home (lanes.set lane other) := by
  intro place held at_ event member
  rw [List.getElem?_set] at at_
  split at at_
  · rename_i here
    split at at_
    · cases at_
      rcases kept event member with before | belongs
      · rw [← here]
        exact housed lane list found event before
      · rw [← here]
        exact belongs
    · cases at_
  · exact housed place held at_ event member

theorem Equipped.putLane (equipped : queue.Equipped entities) (lane : Nat)
    (list : BarrierList) (outbound : List Outbound)
    (count : outbound.length = queue.outbound.length) :
    Equipped { queue with lanes := queue.lanes.set lane list, outbound } entities where
  laneCount := by
    simp only [List.length_set]
    exact equipped.laneCount
  indexCount := count.trans equipped.indexCount
  latencies := equipped.latencies
  credited := equipped.credited

private theorem sound_lists_set {lanes : List BarrierList} (lists : ∀ list ∈ lanes, list.Sound)
    (lane : Nat) {other : BarrierList} (sound : other.Sound) :
    ∀ list ∈ lanes.set lane other, list.Sound := by
  intro list member
  rcases List.mem_or_eq_of_mem_set member with before | same
  · exact lists list before
  · rw [same]
    exact sound

def enter (queue : LaneQueue) (event : Event) : List Outbound :=
  if queue.isCrossing event then
    queue.outbound.modify (laneOf event.key.context)
      (·.insert event.key (laneOf event.prevContext))
  else queue.outbound

def leave (queue : LaneQueue) (event : Event) : List Outbound :=
  if queue.isCrossing event then
    queue.outbound.modify (laneOf event.key.context) (·.erase event.key)
  else queue.outbound

/-- An event put into its home lane and entered into the index. -/
theorem Sound.put (sound : queue.Sound entities) (event : Event)
    {list : BarrierList} (found : queue.lanes[queue.homeLane event]? = some list)
    (known : queue.Addressed entities event)
    (fresh : ∀ other ∈ queue.events, other.key.uid ≠ event.key.uid) :
    Sound { queue with
      lanes := queue.lanes.set (queue.homeLane event) (list.insert event)
      outbound := queue.enter event } entities ∧
    (events { queue with
      lanes := queue.lanes.set (queue.homeLane event) (list.insert event)
      outbound := queue.enter event }).Perm (event :: queue.events) := by
  have listSound := sound.list_sound found
  obtain ⟨others, before, after⟩ := events_putLane found
  have grown : (queue.putLane (queue.homeLane event) (list.insert event)).events.Perm
      (event :: queue.events) :=
    (after _).trans (((listSound.insert_events event).append_right others).trans
      (before.symm.cons event))
  refine ⟨{ toEquipped := ?_, lists := ?_, housed := ?_, indexed := ?_, distinct := ?_,
            addressed := ?_ }, grown⟩
  · apply sound.toEquipped.putLane _ _ _
    unfold enter
    split
    · rw [List.length_modify]
    · rfl
  · exact sound_lists_set sound.lists _ (listSound.insert event)
  · apply sound.housed.set found
    intro other member
    rcases List.mem_cons.mp ((listSound.insert_events event).mem_iff.mp member) with
      same | present
    · rw [same]
      exact Or.inr rfl
    · exact Or.inl present
  · suffices entered : Indexed queue.isCrossing (event :: queue.events) (queue.enter event) from
      entered.congr fun other _ => grown.mem_iff
    unfold enter
    split
    · rename_i crossing
      exact sound.indexed.insert event crossing fresh
    · rename_i stays
      refine sound.indexed.congr (fun other crossing => ?_)
      rw [List.mem_cons]
      constructor
      · rintro (same | present)
        · rw [same] at crossing
          exact absurd crossing stays
        · exact present
      · exact Or.inr
  · refine ((grown.map _).nodup_iff).mpr (List.nodup_cons.mpr ⟨?_, sound.distinct⟩)
    intro member
    obtain ⟨other, present, same⟩ := List.mem_map.mp member
    exact fresh other present same
  · intro other member
    rcases List.mem_cons.mp (grown.mem_iff.mp member) with same | present
    · rw [same]
      exact known
    · exact sound.addressed other present

/-- An event taken out of its lane and struck from the index. -/
theorem Sound.take (sound : queue.Sound entities) {event : Event} {lane : Nat}
    {list rest : BarrierList} (found : queue.lanes[lane]? = some list)
    (restSound : rest.Sound) (taken : list.events.Perm (event :: rest.events)) :
    Sound { queue with lanes := queue.lanes.set lane rest, outbound := queue.leave event }
      entities ∧
    queue.events.Perm (event :: events { queue with
      lanes := queue.lanes.set lane rest, outbound := queue.leave event }) := by
  obtain ⟨others, before, after⟩ := events_putLane found
  have shrunk : queue.events.Perm (event :: (queue.putLane lane rest).events) :=
    before.trans ((taken.append_right others).trans ((after rest).symm.cons event))
  have distinct := ((shrunk.map fun event => event.key.uid).nodup_iff).mp sound.distinct
  rw [List.map_cons, List.nodup_cons] at distinct
  have fresh : ∀ other ∈ (queue.putLane lane rest).events, other.key.uid ≠ event.key.uid := by
    intro other member same
    exact distinct.1 (same ▸ List.mem_map_of_mem member)
  refine ⟨{ toEquipped := ?_, lists := ?_, housed := ?_, indexed := ?_, distinct := distinct.2,
            addressed := ?_ }, shrunk⟩
  · apply sound.toEquipped.putLane _ _ _
    unfold leave
    split
    · rw [List.length_modify]
    · rfl
  · exact sound_lists_set sound.lists _ restSound
  · exact sound.housed.set found (fun other member =>
      Or.inl (taken.mem_iff.mpr (List.mem_cons_of_mem _ member)))
  · have indexed : Indexed queue.isCrossing (event :: (queue.putLane lane rest).events)
        queue.outbound := sound.indexed.congr (fun other _ => shrunk.symm.mem_iff)
    change Indexed queue.isCrossing (queue.putLane lane rest).events (queue.leave event)
    unfold leave
    split
    · exact indexed.erase fresh
    · rename_i stays
      refine indexed.congr (fun other crossing => ?_)
      rw [List.mem_cons]
      constructor
      · exact Or.inr
      · rintro (same | present)
        · rw [same] at crossing
          exact absurd crossing stays
        · exact present
  · exact fun other member =>
      sound.addressed other (shrunk.mem_iff.mpr (List.mem_cons_of_mem _ member))

theorem Sound.recount (sound : queue.Sound entities) (credits : Option CreditTable)
    (deadlocks conversions : Nat) (same : credits.isSome = queue.credits.isSome)
    (credited : ∀ table, credits = some table → table.Covers entities) :
    Sound { queue with credits, deadlocks, conversions } entities where
  laneCount := sound.laneCount
  indexCount := sound.indexCount
  latencies := sound.latencies
  credited := credited
  lists := sound.lists
  housed := by
    rw [homeLane_congr queue { queue with credits, deadlocks, conversions } same]
    exact sound.housed
  indexed := by
    rw [isCrossing_congr queue { queue with credits, deadlocks, conversions } same]
    exact sound.indexed
  distinct := sound.distinct
  addressed := fun event member =>
    ⟨(sound.addressed event member).1, fun counted =>
      (sound.addressed event member).2 (same ▸ counted)⟩

end EventKernel.Queue.LaneQueue
