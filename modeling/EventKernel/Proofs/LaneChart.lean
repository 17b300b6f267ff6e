import EventKernel.Proofs.LaneState

set_option autoImplicit false

/-! What every state of a partitioned queue keeps, whatever was removed before. A removal by a
key that names a serial number under another instant or owner may take a message out of its
lane and leave its entry in the index behind. So the index may list messages that are gone;
but it always lists those that are held, and each event is held in its home lane. -/

namespace EventKernel.Queue

namespace Outbound

/-- Entering a key keeps all others; an entry of the same rank is replaced. -/
theorem mem_insert_of_mem {outbound : Outbound} {key : EventKey} {lane : Nat}
    {parcel : EventKey × Nat} (member : parcel ∈ outbound.parcels)
    (different : parcel.1.rank ≠ key.rank) : parcel ∈ (outbound.insert key lane).parcels := by
  obtain ⟨parcels⟩ := outbound
  change parcel ∈ place key lane parcels
  change parcel ∈ parcels at member
  induction parcels with
  | nil => cases member
  | cons head rest ih =>
      unfold place
      split
      · exact List.mem_cons_of_mem _ member
      · rename_i notBefore
        split
        · rcases List.mem_cons.mp member with same | later
          · rw [same]
            exact List.mem_cons_self
          · exact List.mem_cons_of_mem _ (ih later)
        · rename_i notAfter
          have tied : head.1.rank = key.rank :=
            Nat.le_antisymm (EventKey.not_precedes_iff_rank_le.mp notBefore)
              (EventKey.not_precedes_iff_rank_le.mp notAfter)
          rcases List.mem_cons.mp member with same | later
          · rw [same] at different
            exact absurd tied different
          · exact List.mem_cons_of_mem _ later

private theorem mem_insert_self {outbound : Outbound} {key : EventKey} (lane : Nat)
    (named : ∀ parcel ∈ outbound.parcels, parcel.1.rank = key.rank → parcel.1 = key) :
    (key, lane) ∈ (outbound.insert key lane).parcels := by
  obtain ⟨parcels⟩ := outbound
  change (key, lane) ∈ place key lane parcels
  change ∀ parcel ∈ parcels, _ at named
  induction parcels with
  | nil => exact List.mem_singleton_self _
  | cons head rest ih =>
      unfold place
      split
      · exact List.mem_cons_self
      · rename_i notBefore
        split
        · exact List.mem_cons_of_mem _
            (ih fun parcel later => named parcel (List.mem_cons_of_mem _ later))
        · rename_i notAfter
          have same := named head List.mem_cons_self
            (Nat.le_antisymm (EventKey.not_precedes_iff_rank_le.mp notBefore)
              (EventKey.not_precedes_iff_rank_le.mp notAfter))
          rw [same]
          exact List.mem_cons_self

private theorem lane_of_mem_insert {outbound : Outbound} {key : EventKey} {lane : Nat}
    {parcel : EventKey × Nat} (member : parcel ∈ (outbound.insert key lane).parcels) :
    parcel.2 = lane ∨ ∃ before ∈ outbound.parcels, before.2 = parcel.2 := by
  obtain ⟨parcels⟩ := outbound
  change parcel ∈ place key lane parcels at member
  change _ ∨ ∃ before ∈ parcels, before.2 = parcel.2
  induction parcels with
  | nil => exact .inl (by rw [List.mem_singleton.mp member])
  | cons head rest ih =>
      unfold place at member
      split at member
      · rcases List.mem_cons.mp member with same | before
        · exact .inl (by rw [same])
        · exact .inr ⟨parcel, before, rfl⟩
      · split at member
        · rcases List.mem_cons.mp member with same | later
          · exact .inr ⟨head, List.mem_cons_self, by rw [same]⟩
          · rcases ih later with new | ⟨before, present, same⟩
            · exact .inl new
            · exact .inr ⟨before, List.mem_cons_of_mem _ present, same⟩
        · rcases List.mem_cons.mp member with same | later
          · exact .inl (by rw [same])
          · exact .inr ⟨parcel, List.mem_cons_of_mem _ later, rfl⟩

end Outbound

open LaneQueue (laneOf)

/-- Each index is in order and lists keys of its own destination; every message among the
events is listed, with the lane of its sender. -/
structure Entered (crosses : Event → Bool) (events : List Event) (outbound : List Outbound) :
    Prop where
  ordered : ∀ dest index, outbound[dest]? = some index → index.Ordered ∧
    ∀ parcel ∈ index.parcels, laneOf parcel.1.context = dest
  listed : ∀ event ∈ events, crosses event = true →
    ∃ index, outbound[laneOf event.key.context]? = some index ∧
      (event.key, laneOf event.prevContext) ∈ index.parcels

namespace Entered

variable {crosses : Event → Bool} {events others : List Event} {outbound : List Outbound}

private theorem fewer (entered : Entered crosses events outbound)
    (kept : ∀ event ∈ others, crosses event = true → event ∈ events) :
    Entered crosses others outbound :=
  ⟨entered.ordered, fun event member crossing =>
    entered.listed event (kept event member crossing) crossing⟩

private theorem modify_found {dest place : Nat} {change : Outbound → Outbound} {index : Outbound}
    (found : outbound[place]? = some index) : (outbound.modify dest change)[place]? =
      some (if dest = place then change index else index) := by
  rw [List.getElem?_modify, found]
  rfl

private theorem insert (entered : Entered crosses events outbound) (event : Event)
    (within : laneOf event.key.context < outbound.length)
    (fresh : ∀ other ∈ events, other.key.uid ≠ event.key.uid) :
    Entered crosses (event :: events) (outbound.modify (laneOf event.key.context)
      (·.insert event.key (laneOf event.prevContext))) := by
  have atDest := List.getElem?_eq_getElem within
  obtain ⟨_, ofDest⟩ := entered.ordered _ _ atDest
  constructor
  · intro dest index found
    cases old : outbound[dest]? with
    | none =>
        rw [List.getElem?_modify, old] at found
        cases found
    | some before =>
        obtain ⟨ordered, addressed⟩ := entered.ordered dest before old
        rw [modify_found old] at found
        by_cases here : laneOf event.key.context = dest
        · rw [if_pos here] at found
          cases found
          refine ⟨ordered.insert _ _, fun parcel member => ?_⟩
          rcases Outbound.key_of_mem_insert member with same | ⟨earlier, present, same⟩
          · rw [same]
            exact here
          · rw [← same]
            exact addressed earlier present
        · rw [if_neg here] at found
          cases found
          exact ⟨ordered, addressed⟩
  · intro other member crossing
    rcases List.mem_cons.mp member with same | earlier
    · rw [same]
      refine ⟨_, modify_found atDest, ?_⟩
      rw [if_pos rfl]
      apply Outbound.mem_insert_self
      -- Keys of one rank and one destination are the same.
      intro parcel present tied
      obtain ⟨instants, serials⟩ := EventKey.rank_eq_iff.mp tied
      have owner := laneOf_injective (ofDest parcel present)
      obtain ⟨⟨ts, uid, context⟩, lane⟩ := parcel
      cases instants
      cases serials
      cases owner
      rfl
    · obtain ⟨index, found, present⟩ := entered.listed other earlier crossing
      refine ⟨_, modify_found found, ?_⟩
      split
      · exact Outbound.mem_insert_of_mem present
          (EventKey.rank_ne_of_uid_ne (fresh other earlier))
      · exact present

/-- A key may be struck that no message among the events has. -/
theorem erase (entered : Entered crosses events outbound) (key : EventKey)
    (unheld : ∀ event ∈ events, crosses event = true → event.key ≠ key) :
    Entered crosses events (outbound.modify (laneOf key.context) (·.erase key)) := by
  constructor
  · intro dest index found
    cases old : outbound[dest]? with
    | none =>
        rw [List.getElem?_modify, old] at found
        cases found
    | some before =>
        obtain ⟨ordered, addressed⟩ := entered.ordered dest before old
        rw [modify_found old] at found
        split at found
        · cases found
          exact ⟨ordered.erase _, fun parcel member =>
            addressed parcel (List.mem_of_mem_eraseP member)⟩
        · cases found
          exact ⟨ordered, addressed⟩
  · intro event member crossing
    obtain ⟨index, found, present⟩ := entered.listed event member crossing
    obtain ⟨ordered, _⟩ := entered.ordered _ _ found
    refine ⟨_, modify_found found, ?_⟩
    split
    · exact (Outbound.mem_erase ordered).mpr ⟨present, unheld event member crossing⟩
    · exact present

end Entered

namespace LaneQueue

/-- What every state of a queue keeps, whatever was asked of it. -/
structure Charted (queue : LaneQueue) : Prop where
  indexCount : queue.outbound.length = queue.lanes.length
  lists : ∀ list ∈ queue.lanes, list.Sound
  housed : Housed queue.homeLane queue.lanes
  entered : Entered queue.isCrossing queue.events queue.outbound
  distinct : (queue.events.map fun event => event.key.uid).Nodup

variable {queue after : LaneQueue}

theorem Sound.charted {entities : Nat} (sound : queue.Sound entities) : queue.Charted where
  indexCount := sound.indexCount.trans sound.laneCount.symm
  lists := sound.lists
  housed := sound.housed
  entered := by
    constructor
    · intro dest index found
      obtain ⟨ordered, exactly⟩ := sound.indexed dest index found
      refine ⟨ordered, fun parcel member => ?_⟩
      obtain ⟨_, _, _, _, owner, _⟩ := (exactly parcel.1 parcel.2).mp member
      exact owner
    · intro event member crossing
      have known := (sound.addressed event member).1
      have within : laneOf event.key.context < queue.outbound.length := by
        rw [sound.indexCount]
        omega
      have found := List.getElem?_eq_getElem within
      refine ⟨_, found, ?_⟩
      obtain ⟨_, exactly⟩ := sound.indexed _ _ found
      exact (exactly _ _).mpr ⟨event, member, crossing, rfl, rfl, rfl⟩
  distinct := sound.distinct

namespace Charted

theorem eq_of_uid (charted : queue.Charted) {left right : Event}
    (leftMember : left ∈ queue.events) (rightMember : right ∈ queue.events)
    (same : left.key.uid = right.key.uid) : left = right :=
  Event.eq_of_uid charted.distinct leftMember rightMember same

theorem list_sound (charted : queue.Charted) {lane : Nat} {list : BarrierList}
    (found : queue.lanes[lane]? = some list) : list.Sound :=
  charted.lists list (List.mem_of_getElem? found)

theorem home_lane (charted : queue.Charted) {event : Event} (member : event ∈ queue.events) :
    ∃ list, queue.lanes[queue.homeLane event]? = some list ∧ event ∈ list.events := by
  obtain ⟨lane, list, found, held⟩ := mem_events.mp member
  rw [charted.housed lane list found event held]
  exact ⟨list, found, held⟩

theorem mem_list_iff (charted : queue.Charted) {lane : Nat} {list : BarrierList}
    (found : queue.lanes[lane]? = some list) (event : Event) :
    event ∈ list.events ↔ event ∈ queue.events ∧ queue.homeLane event = lane := by
  refine ⟨fun inside => ⟨mem_events.mpr ⟨lane, list, found, inside⟩,
    charted.housed lane list found event inside⟩, ?_⟩
  rintro ⟨member, rfl⟩
  obtain ⟨held, atHome, inside⟩ := charted.home_lane member
  cases found.symm.trans atHome
  exact inside

private theorem relist (charted : queue.Charted) {lane : Nat} {list other : BarrierList}
    {outbound : List Outbound} (found : queue.lanes[lane]? = some list) (sound : other.Sound)
    (kept : ∀ event ∈ other.events, event ∈ list.events ∨ queue.homeLane event = lane)
    (count : outbound.length = queue.outbound.length)
    (entered : Entered queue.isCrossing (queue.putLane lane other).events outbound)
    (distinct : ((queue.putLane lane other).events.map fun event => event.key.uid).Nodup) :
    Charted { queue with lanes := queue.lanes.set lane other, outbound } where
  indexCount := by
    simp only [List.length_set]
    exact count.trans charted.indexCount
  lists := by
    intro held member
    rcases List.mem_or_eq_of_mem_set member with before | same
    · exact charted.lists held before
    · rw [same]
      exact sound
  housed := charted.housed.set found kept
  entered := entered
  distinct := distinct

theorem recount (charted : queue.Charted) (credits : Option CreditTable)
    (deadlocks conversions : Nat) (same : credits.isSome = queue.credits.isSome) :
    Charted { queue with credits, deadlocks, conversions } where
  indexCount := charted.indexCount
  lists := charted.lists
  housed := by
    rw [homeLane_congr queue { queue with credits, deadlocks, conversions } same]
    exact charted.housed
  entered := by
    rw [isCrossing_congr queue { queue with credits, deadlocks, conversions } same]
    exact charted.entered
  distinct := charted.distinct

/-- An event has left its lane; its entry in the index may stay. -/
theorem take (charted : queue.Charted) {event : Event} {lane : Nat} {list rest : BarrierList}
    (found : queue.lanes[lane]? = some list) (restSound : rest.Sound)
    (taken : list.events.Perm (event :: rest.events)) :
    (queue.putLane lane rest).Charted ∧
      queue.events.Perm (event :: (queue.putLane lane rest).events) := by
  obtain ⟨others, before, after⟩ := events_putLane found
  have shrunk : queue.events.Perm (event :: (queue.putLane lane rest).events) :=
    before.trans ((taken.append_right others).trans ((after rest).symm.cons event))
  have distinct := ((shrunk.map fun event => event.key.uid).nodup_iff).mp charted.distinct
  refine ⟨charted.relist found restSound ?_ rfl ?_ (List.nodup_cons.mp distinct).2, shrunk⟩
  · exact fun other member => Or.inl (taken.mem_iff.mpr (List.mem_cons_of_mem _ member))
  · exact charted.entered.fewer fun other member _ =>
      shrunk.mem_iff.mpr (List.mem_cons_of_mem _ member)

theorem strike (charted : queue.Charted) (key : EventKey)
    (unheld : ∀ event ∈ queue.events, queue.isCrossing event = true → event.key ≠ key) :
    Charted { queue with
      outbound := queue.outbound.modify (laneOf key.context) (·.erase key) } where
  indexCount := by
    rw [List.length_modify]
    exact charted.indexCount
  lists := charted.lists
  housed := charted.housed
  entered := charted.entered.erase key unheld
  distinct := charted.distinct

/-- An event has been put into its home lane and, if it is a message, into the index. -/
theorem put (charted : queue.Charted) (event : Event) {list : BarrierList}
    (found : queue.lanes[queue.homeLane event]? = some list)
    (within : queue.isCrossing event = true → laneOf event.key.context < queue.lanes.length)
    (fresh : ∀ other ∈ queue.events, other.key.uid ≠ event.key.uid) :
    Charted { queue with
      lanes := queue.lanes.set (queue.homeLane event) (list.insert event)
      outbound := queue.enter event } ∧
    (events { queue with
      lanes := queue.lanes.set (queue.homeLane event) (list.insert event)
      outbound := queue.enter event }).Perm (event :: queue.events) := by
  have listSound := charted.list_sound found
  obtain ⟨others, before, after⟩ := events_putLane found
  have grown : (queue.putLane (queue.homeLane event) (list.insert event)).events.Perm
      (event :: queue.events) :=
    (after _).trans (((listSound.insert_events event).append_right others).trans
      (before.symm.cons event))
  refine ⟨charted.relist found (listSound.insert event) ?_ ?_ ?_ ?_, grown⟩
  · intro other member
    rcases List.mem_cons.mp ((listSound.insert_events event).mem_iff.mp member) with
      same | present
    · rw [same]
      exact Or.inr rfl
    · exact Or.inl present
  · unfold enter
    split
    · rw [List.length_modify]
    · rfl
  · suffices entered : Entered queue.isCrossing (event :: queue.events) (queue.enter event) from
      entered.fewer fun other member _ => grown.mem_iff.mp member
    unfold enter
    split
    · rename_i crossing
      exact charted.entered.insert event (charted.indexCount.symm ▸ within crossing) fresh
    · rename_i stays
      refine charted.entered.fewer fun other member crossing => ?_
      rcases List.mem_cons.mp member with same | present
      · rw [same] at crossing
        exact absurd crossing stays
      · exact present
  · refine ((grown.map _).nodup_iff).mpr (List.nodup_cons.mpr ⟨?_, charted.distinct⟩)
    intro member
    obtain ⟨other, present, same⟩ := List.mem_map.mp member
    exact fresh other present same

end Charted

/-- Every entry of the index is that of a message held, except for keys that have gone astray. -/
def Tracks (queue : LaneQueue) (astray : List EventKey) : Prop :=
  ∀ (dest : Nat) (index : Outbound), queue.outbound[dest]? = some index →
    ∀ parcel ∈ index.parcels, parcel.1 ∈ astray ∨
      ∃ event ∈ queue.events, queue.isCrossing event = true ∧ event.key = parcel.1

/-- What is listed when an event was entered: its key and its sender, or what was listed before. -/
theorem entries_of_enter {event : Event} {dest : Nat} {index : Outbound}
    (found : (queue.enter event)[dest]? = some index) {parcel : EventKey × Nat}
    (member : parcel ∈ index.parcels) :
    (queue.isCrossing event = true ∧ parcel.1 = event.key ∨
      ∃ before, queue.outbound[dest]? = some before ∧ ∃ old ∈ before.parcels, old.1 = parcel.1) ∧
    (queue.isCrossing event = true ∧ dest = laneOf event.key.context ∧
        parcel.2 = laneOf event.prevContext ∨
      ∃ before, queue.outbound[dest]? = some before ∧ ∃ old ∈ before.parcels,
        old.2 = parcel.2) := by
  unfold enter at found
  split at found
  · rename_i crossing
    rw [List.getElem?_modify] at found
    obtain ⟨before, atDest, same⟩ := Option.map_eq_some_iff.mp found
    split at same
    · rename_i here
      rw [← same] at member
      constructor
      · exact (Outbound.key_of_mem_insert member).imp (fun named => ⟨crossing, named⟩)
          fun old => ⟨before, atDest, old⟩
      · exact (Outbound.lane_of_mem_insert member).imp (fun sender => ⟨crossing, here.symm, sender⟩)
          fun old => ⟨before, atDest, old⟩
    · rw [← same] at member
      exact ⟨.inr ⟨before, atDest, parcel, member, rfl⟩, .inr ⟨before, atDest, parcel, member, rfl⟩⟩
  · exact ⟨.inr ⟨index, found, parcel, member, rfl⟩, .inr ⟨index, found, parcel, member, rfl⟩⟩

theorem Charted.struck (charted : queue.Charted) {key : EventKey} {dest : Nat} {index : Outbound}
    (found : (queue.outbound.modify (laneOf key.context) (·.erase key))[dest]? = some index)
    {parcel : EventKey × Nat} (member : parcel ∈ index.parcels) :
    ∃ before : Outbound, queue.outbound[dest]? = some before ∧ parcel ∈ before.parcels ∧
      parcel.1 ≠ key := by
  rw [List.getElem?_modify] at found
  obtain ⟨before, atDest, same⟩ := Option.map_eq_some_iff.mp found
  obtain ⟨ordered, addressed⟩ := charted.entered.ordered dest before atDest
  refine ⟨before, atDest, ?_⟩
  split at same
  · rw [← same] at member
    exact (Outbound.mem_erase ordered).mp member
  · rename_i away
    rw [← same] at member
    exact ⟨member, fun named => away (named ▸ addressed parcel member)⟩

namespace Tracks

variable {astray : List EventKey} (tracks : queue.Tracks astray)

include tracks

theorem weaken {more : List EventKey} (among : ∀ key ∈ astray, key ∈ more) : queue.Tracks more :=
  fun dest index found parcel member =>
    (tracks dest index found parcel member).imp_left (among _)

theorem recount (credits : Option CreditTable) (deadlocks conversions : Nat)
    (same : credits.isSome = queue.credits.isSome) :
    Tracks { queue with credits, deadlocks, conversions } astray := by
  unfold Tracks
  rw [isCrossing_congr queue { queue with credits, deadlocks, conversions } same]
  exact tracks

/-- An event leaves its lane; if it is a message, its key goes astray. -/
theorem take {event : Event} {lane : Nat} {rest : BarrierList}
    (left : queue.events.Perm (event :: (queue.putLane lane rest).events))
    (noted : queue.isCrossing event = true → event.key ∈ astray) :
    (queue.putLane lane rest).Tracks astray := by
  intro dest index atDest parcel member
  rcases tracks dest index atDest parcel member with lost | ⟨other, present, crossing, named⟩
  · exact .inl lost
  · rcases List.mem_cons.mp (left.mem_iff.mp present) with same | stays
    · rw [same] at crossing named
      exact .inl (named ▸ noted crossing)
    · exact .inr ⟨other, stays, crossing, named⟩

theorem strike (charted : queue.Charted) {key : EventKey} {fewer : List EventKey}
    (noted : ∀ other ∈ astray, other = key ∨ other ∈ fewer) :
    Tracks { queue with
      outbound := queue.outbound.modify (laneOf key.context) (·.erase key) } fewer := by
  intro dest index found parcel member
  obtain ⟨before, atDest, remains, different⟩ := charted.struck found member
  exact (tracks dest before atDest parcel remains).imp_left fun lost =>
    (noted _ lost).resolve_left different

/-- An event is put into its home lane and, if it is a message, into the index. -/
theorem put (event : Event) {list : BarrierList}
    (grown : (events { queue with
      lanes := queue.lanes.set (queue.homeLane event) list
      outbound := queue.enter event }).Perm (event :: queue.events)) :
    Tracks { queue with
      lanes := queue.lanes.set (queue.homeLane event) list
      outbound := queue.enter event } astray := by
  intro dest index atDest parcel member
  rcases (entries_of_enter atDest member).1 with ⟨crossing, named⟩ | ⟨before, found, old,
    present, named⟩
  · exact .inr ⟨event, grown.mem_iff.mpr List.mem_cons_self, crossing, named.symm⟩
  · rw [← named]
    refine (tracks dest before found old present).imp_right ?_
    rintro ⟨held, inside, crossing⟩
    exact ⟨held, grown.mem_iff.mpr (List.mem_cons_of_mem _ inside), crossing⟩

end Tracks

theorem Sound.tracks {entities : Nat} (sound : queue.Sound entities) : queue.Tracks [] := by
  intro dest index atLane parcel member
  obtain ⟨_, exactly⟩ := sound.indexed dest index atLane
  obtain ⟨message, present, crossing, named, _⟩ := (exactly parcel.1 parcel.2).mp member
  exact .inr ⟨message, present, crossing, named⟩

end LaneQueue

end EventKernel.Queue
