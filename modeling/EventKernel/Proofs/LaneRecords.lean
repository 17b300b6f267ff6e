import EventKernel.Proofs.LaneContents

set_option autoImplicit false

/-! What the index of a partitioned queue lists in any state that operations can reach. A message
that is taken under another key than its own leaves its entry behind; such keys have gone astray.
Every other entry is that of a message that is held. Insertions for known owners and removals
never fail. -/

namespace EventKernel.Queue

namespace LaneQueue

/-- A state of a queue for so many entities, where no entry of the index is left of a message that
is gone, except for keys that have gone astray. -/
structure Recorded (queue : LaneQueue) (entities : Nat) (astray : List EventKey) : Prop
    extends queue.Charted where
  laneCount : queue.lanes.length = entities + 1
  credited : ∀ table, queue.credits = some table → table.Covers entities
  addressed : ∀ event ∈ queue.events, queue.Addressed entities event
  senders : ∀ (dest : Nat) (index : Outbound), queue.outbound[dest]? = some index →
    ∀ parcel ∈ index.parcels, parcel.2 ≤ entities
  listed : ∀ (dest : Nat) (index : Outbound), queue.outbound[dest]? = some index →
    ∀ parcel ∈ index.parcels, parcel.1 ∈ astray ∨
      ∃ event ∈ queue.events, queue.isCrossing event = true ∧ event.key = parcel.1

variable {queue after : LaneQueue} {entities lane : Nat} {astray : List EventKey}

theorem Sound.recorded (sound : queue.Sound entities) : queue.Recorded entities [] where
  toCharted := sound.charted
  laneCount := sound.laneCount
  credited := sound.credited
  addressed := sound.addressed
  senders := by
    intro dest index found parcel member
    obtain ⟨_, exactly⟩ := sound.indexed dest index found
    obtain ⟨event, held, crossing, _, _, sender⟩ := (exactly parcel.1 parcel.2).mp member
    rw [← sender]
    exact (sound.addressed event held).2 (isCrossing_iff.mp crossing).1
  listed := sound.tracks

namespace Recorded

variable (recorded : queue.Recorded entities astray)

include recorded

private theorem recount (credits : Option CreditTable) (deadlocks conversions : Nat)
    (same : credits.isSome = queue.credits.isSome)
    (credited : ∀ table, credits = some table → table.Covers entities) :
    Recorded { queue with credits, deadlocks, conversions } entities astray where
  toCharted := recorded.toCharted.recount credits deadlocks conversions same
  laneCount := recorded.laneCount
  credited := credited
  addressed := fun event member =>
    ⟨(recorded.addressed event member).1, fun counted =>
      (recorded.addressed event member).2 (same ▸ counted)⟩
  senders := recorded.senders
  listed := Tracks.recount recorded.listed credits deadlocks conversions same

private theorem take {event : Event} {list rest : BarrierList}
    (found : queue.lanes[lane]? = some list)
    (restSound : rest.Sound) (taken : list.events.Perm (event :: rest.events))
    (noted : queue.isCrossing event = true → event.key ∈ astray) :
    (queue.putLane lane rest).Recorded entities astray ∧
      queue.events.Perm (event :: (queue.putLane lane rest).events) := by
  obtain ⟨charted, left⟩ := recorded.toCharted.take found restSound taken
  refine ⟨{ toCharted := charted, laneCount := ?_, credited := recorded.credited,
            addressed := ?_, senders := recorded.senders,
            listed := Tracks.take recorded.listed left noted }, left⟩
  · unfold putLane
    rw [List.length_set]
    exact recorded.laneCount
  · exact fun other member =>
      recorded.addressed other (left.mem_iff.mpr (List.mem_cons_of_mem _ member))

/-- An event is put into its home lane and, if it is a message, into the index. -/
theorem put (event : Event) {list : BarrierList}
    (found : queue.lanes[queue.homeLane event]? = some list)
    (known : queue.Addressed entities event)
    (fresh : ∀ other ∈ queue.events, other.key.uid ≠ event.key.uid) :
    Recorded { queue with
      lanes := queue.lanes.set (queue.homeLane event) (list.insert event)
      outbound := queue.enter event } entities astray := by
  have within : laneOf event.key.context < queue.lanes.length := by
    rw [recorded.laneCount]
    exact Nat.lt_succ_of_le known.1
  obtain ⟨charted, grown⟩ := recorded.toCharted.put event found (fun _ => within) fresh
  refine { toCharted := charted, laneCount := ?_, credited := recorded.credited,
           addressed := ?_, senders := ?_, listed := Tracks.put recorded.listed event grown }
  · rw [List.length_set]
    exact recorded.laneCount
  · intro other member
    rcases List.mem_cons.mp (grown.mem_iff.mp member) with same | present
    · rw [same]
      exact known
    · exact recorded.addressed other present
  · intro dest index atDest parcel member
    rcases (entries_of_enter atDest member).2 with ⟨crossing, _, sender⟩ | ⟨before, found, old,
      present, sender⟩
    · rw [sender]
      exact known.2 (isCrossing_iff.mp crossing).1
    · rw [← sender]
      exact recorded.senders dest before found old present

theorem twins : queue.Twins 0 queue where
  elsewhere := rfl
  conversions := rfl
  deadlocks := rfl
  laneCount := rfl
  lists := by
    intro lane list other found there
    cases found.symm.trans there
    exact BarrierList.Twins.refl (recorded.list_sound found)
  distinct := recorded.distinct

omit recorded in
private theorem departs {queue after : LaneQueue} {message : Event}
    (departs : queue.Departs message after)
    (recorded : queue.Recorded entities astray) : after.Recorded entities astray where
  toCharted := departs.charted recorded.toCharted
  laneCount := departs.outline.laneCount.trans recorded.laneCount
  credited := departs.covers recorded.credited
  addressed := fun event member =>
    have known : queue.Addressed entities event :=
      departs.forall_events recorded.toCharted (fun _ known => known) recorded.addressed event
        member
    ⟨known.1, fun counted => known.2 (departs.outline.counts ▸ counted)⟩
  senders := by
    intro dest index found parcel member
    obtain ⟨before, atDest, listed⟩ := departs.parcels recorded.toCharted found member
    exact recorded.senders dest before atDest parcel listed
  listed := departs.tracks recorded.toCharted recorded.listed

omit recorded in
private theorem course {queue after : LaneQueue} {departures : List Departure}
    (course : queue.Course departures after) (recorded : queue.Recorded entities astray) :
    after.Recorded entities astray := by
  induction course with
  | ends => exact recorded
  | departs first _ ih => exact ih (.departs first recorded)

private theorem settle {lane? : Option Nat} (settled : queue.settle = .ok (lane?, after)) :
    after.Recorded entities astray := by
  obtain ⟨departures, last, course, selected, _⟩ := recorded.toCharted.course settled
  have kept : last.Recorded entities astray := .course course recorded
  obtain ⟨deadlocks, rfl⟩ := select_eq_ok selected
  exact kept.recount _ deadlocks _ rfl kept.credited

private theorem consumeCredit {event : Event} (consumed : queue.consumeCredit event = .ok after) :
    after.Recorded entities astray := by
  obtain ⟨credits, recounts, rfl⟩ := consumeCredit_eq_ok consumed
  exact recorded.recount credits _ _ recounts.isSome_eq (recounts.covers recorded.credited)

theorem next? {key? : Option EventKey} (looked : queue.next? = .ok (key?, after)) :
    after.Recorded entities astray := by
  obtain ⟨lane?, settles⟩ := next_eq_ok looked
  exact recorded.settle settles

/-- What is handed out is no message, so its key goes astray in no index. -/
theorem pop {event? : Option Event} (popped : queue.pop = .ok (event?, after)) :
    after.Recorded entities astray := by
  obtain ⟨lane?, settled, settles, _, takes⟩ := recorded.toCharted.takes popped
  have kept := recorded.settle settles
  cases takes with
  | nothing => exact kept
  | front atFront stays found removed consumed =>
      obtain ⟨restSound, taken⟩ := kept.toCharted.popped atFront found removed
      refine (kept.take found restSound taken fun crossing => ?_).1.consumeCredit consumed
      rw [stays] at crossing
      cases crossing

theorem insert {event : Event} (known : queue.Addressed entities event)
    (fresh : ∀ other ∈ queue.events, other.key.uid ≠ event.key.uid) :
    ∃ after, queue.insert event = .ok after ∧ after.Recorded entities astray := by
  have homeKnown : queue.homeLane event < queue.lanes.length := by
    rw [recorded.laneCount]
    unfold homeLane
    split
    · rename_i crossing
      exact Nat.lt_succ_of_le (known.2 (isCrossing_iff.mp crossing).1)
    · exact Nat.lt_succ_of_le known.1
  obtain ⟨list, found⟩ : ∃ list, queue.lanes[queue.homeLane event]? = some list :=
    ⟨_, List.getElem?_eq_getElem homeKnown⟩
  refine ⟨_, ?_, recorded.put event found known fresh⟩
  unfold LaneQueue.insert enter putLane
  simp only [found]
  split
  · rename_i crossing
    rw [if_pos (recorded.laneCount.symm ▸ Nat.lt_succ_of_le known.1),
      homeLane_of_crossing crossing]
  · rfl

private theorem erase_returns (key : EventKey) :
    ∃ event? after, queue.erase key = .ok (event?, after) := by
  unfold LaneQueue.erase
  simp only
  split
  · exact ⟨_, _, rfl⟩
  · rename_i index atDest
    split
    · rename_i sender holder
      have listed :=
        (Outbound.holder?_eq_some_iff (recorded.entered.ordered _ _ atDest).1).mp holder
      have within : sender < queue.lanes.length := by
        rw [recorded.laneCount]
        exact Nat.lt_succ_of_le (recorded.senders _ _ atDest _ listed)
      have found := List.getElem?_eq_getElem within
      simp only [laneAt_of_found found, bind, Except.bind]
      rcases (recorded.list_sound found).erase key.uid with ⟨event, rest, took, _⟩ | ⟨took, _⟩
      · simp only [took]
        exact ⟨_, _, rfl⟩
      · simp only [took]
        exact ⟨_, _, rfl⟩
    · split
      · exact ⟨_, _, rfl⟩
      · rename_i list found
        rcases (recorded.list_sound found).erase key.uid with
          ⟨event, rest, took, _, _, _, taken⟩ | ⟨took, _⟩
        · have known := recorded.addressed event
            (mem_events.mpr ⟨_, list, found, taken.mem_iff.mpr List.mem_cons_self⟩)
          obtain ⟨after, consumed⟩ := LaneQueue.consumeCredit_returns
            (queue.putLane (laneOf key.context) rest) recorded.credited known
          simp only [took, bind, Except.bind, consumed]
          exact ⟨_, _, rfl⟩
        · simp only [took, bind, Except.bind]
          exact ⟨_, _, rfl⟩

theorem erase (key : EventKey) : ∃ event? after, queue.erase key = .ok (event?, after) ∧
    after.Recorded entities (mislaid key event? ++ astray) ∧
    ∀ event, event? = some event → event ∈ queue.events := by
  obtain ⟨event?, after, erased⟩ := recorded.erase_returns key
  have removing := recorded.toCharted.removing erased
  have left := removing.left recorded.toCharted
  have outline := erase_outline erased
  refine ⟨event?, after, erased, ⟨?_, ?_, ?_, ?_, ?_, ?_⟩, ?_⟩
  · exact removing.charted recorded.toCharted
  · exact outline.laneCount.trans recorded.laneCount
  · obtain ⟨_, _, _, _, recounts, rfl⟩ := erase_eq_ok erased
    exact recounts.covers recorded.credited
  · intro event member
    have known := recorded.addressed event (left.mem_iff.mpr (List.mem_append_right _ member))
    exact ⟨known.1, fun counted => known.2 (outline.counts ▸ counted)⟩
  · intro dest index found parcel member
    obtain ⟨before, atDest, listed⟩ := removing.parcels recorded.toCharted found member
    exact recorded.senders dest before atDest parcel listed
  · exact removing.tracks recorded.toCharted recorded.listed
      (fun _ => List.mem_append_right _) fun event took _ other =>
        List.mem_append_left _ (took ▸ mem_mislaid other)
  · rintro event rfl
    exact left.mem_iff.mpr List.mem_cons_self

theorem drain : queue.drain.2.Recorded entities astray where
  toCharted := recorded.toCharted.drain.1
  laneCount := (List.length_map _).trans recorded.laneCount
  credited := recorded.credited
  addressed := by
    rw [events_drained]
    exact List.forall_mem_nil _
  senders := by
    intro dest index found
    obtain ⟨before, _, same⟩ := List.mem_map.mp (List.mem_of_getElem? found)
    rw [← same]
    exact List.forall_mem_nil _
  listed := by
    intro dest index found
    obtain ⟨before, _, same⟩ := List.mem_map.mp (List.mem_of_getElem? found)
    rw [← same]
    exact List.forall_mem_nil _

end Recorded

end LaneQueue

end EventKernel.Queue
