import EventKernel.Proofs.LaneState
import EventKernel.Proofs.QueueRuns

set_option autoImplicit false

/-! What an operation on lanes has done when it has returned, whatever the state it found. Lanes
are exchanged for others and the index may change; the settings stay, and nothing but a
selection counts deadlocks. -/

namespace EventKernel.Queue.LaneQueue

variable {queue after : LaneQueue} {lane : Nat} {event : Event}

theorem new_eq_ok {configuration : Configuration} (built : new configuration = .ok queue) :
    ∃ credits : Option CreditTable,
      credits.isSome = configuration.strategies.localListsV2 ∧ queue = {
        lanes := List.replicate (configuration.entities + 1)
          (.empty (.ofStrategies configuration.strategies))
        latency := configuration.latency
        boundary := configuration.boundary
        credits
        outbound := List.replicate (configuration.entities + 1) .empty
        deadlocks := 0
        conversions := 0 } := by
  unfold new at built
  simp only at built
  split at built
  · rename_i counted
    obtain ⟨credits, made, built⟩ := bind_eq_ok built
    obtain ⟨table, _, rfl⟩ := map_eq_ok made
    exact ⟨some table, counted.symm, (Except.ok.inj built).symm⟩
  · rename_i uncounted
    exact ⟨none, (Bool.eq_false_iff.mpr uncounted).symm, (Except.ok.inj built).symm⟩

theorem select_eq_ok {lane? : Option Nat} (selected : queue.select = .ok (lane?, after)) :
    ∃ deadlocks, after = { queue with deadlocks } := by
  obtain ⟨candidates, _, selected⟩ := bind_eq_ok selected
  split at selected
  · cases selected
    exact ⟨queue.deadlocks, rfl⟩
  · cases selected
    exact ⟨_, rfl⟩

theorem found_of_laneAt {list : BarrierList} (read : queue.laneAt lane = .ok list) :
    queue.lanes[lane]? = some list := by
  unfold laneAt at read
  split at read
  · rename_i held found
    rw [found, Except.ok.inj read]
  · cases read

theorem convert_eq_ok {message : Event} (converted : queue.convert message = .ok after) :
    ∃ credits list, CreditTable.Recounts queue.credits credits ∧
      queue.laneAt (laneOf message.key.context) = .ok list ∧
      after = { queue with
        lanes := queue.lanes.set (laneOf message.key.context) (list.insert (delivered message))
        outbound := queue.outbound.modify (laneOf message.key.context) (·.erase message.key)
        credits
        conversions := queue.conversions + 1 } := by
  unfold LaneQueue.convert at converted
  split at converted
  · rename_i table credited
    obtain ⟨credits, counted, converted⟩ := bind_eq_ok converted
    obtain ⟨list, read, converted⟩ := bind_eq_ok converted
    obtain ⟨_, delivered, same⟩ := map_eq_ok counted
    obtain ⟨count, _, _, rfl⟩ := CreditTable.deliver_eq_ok delivered
    refine ⟨credits, list, ?_, read, (Except.ok.inj converted).symm⟩
    rw [← same, credited]
    exact .put table _ _ (count + 1)
  · rename_i uncredited
    obtain ⟨credits, none_, converted⟩ := bind_eq_ok converted
    obtain ⟨list, read, converted⟩ := bind_eq_ok converted
    refine ⟨credits, list, ?_, read, (Except.ok.inj converted).symm⟩
    rw [← Except.ok.inj none_, uncredited]
    exact .same none

theorem convert_counts {message : Event} (converted : queue.convert message = .ok after)
    {table : CreditTable} (credited : queue.credits = some table) :
    ∃ count, table.credit (laneOf message.key.context - 1) (laneOf message.prevContext - 1) =
        .ok count ∧ count + 1 < CreditTable.countLimit ∧
      after.credits = some (table.put (laneOf message.key.context - 1)
        (laneOf message.prevContext - 1) (count + 1)) := by
  unfold LaneQueue.convert at converted
  simp only [credited] at converted
  obtain ⟨credits, counted, converted⟩ := bind_eq_ok converted
  obtain ⟨list, _, converted⟩ := bind_eq_ok converted
  obtain ⟨_, delivered, rfl⟩ := map_eq_ok counted
  obtain ⟨count, read, fits, rfl⟩ := CreditTable.deliver_eq_ok delivered
  cases converted
  exact ⟨count, read, fits, rfl⟩

theorem consumeCredit_eq_ok
    (consumed : queue.consumeCredit event = .ok after) :
    ∃ credits, CreditTable.Recounts queue.credits credits ∧ after = { queue with credits } := by
  unfold LaneQueue.consumeCredit at consumed
  split at consumed
  · rename_i table _ _ _ credited
    obtain ⟨discounted, counted, same⟩ := bind_eq_ok consumed
    obtain ⟨count, _, rfl⟩ := CreditTable.consume_eq_ok counted
    refine ⟨some _, ?_, (Except.ok.inj same).symm⟩
    rw [credited]
    exact .put table _ _ (count - 1)
  · exact ⟨queue.credits, .same _, (Except.ok.inj consumed).symm⟩

theorem consumeCredit_returns (queue : LaneQueue) {entities : Nat}
    (covers : ∀ table, queue.credits = some table → table.Covers entities)
    (known : queue.Addressed entities event) : ∃ after, queue.consumeCredit event = .ok after := by
  unfold LaneQueue.consumeCredit
  split
  · rename_i dest sender table _ atDest fromSender credited
    have senderKnown := known.2 (by rw [credited]; rfl)
    have destKnown := known.1
    rw [fromSender] at senderKnown
    rw [atDest] at destKnown
    obtain ⟨count, _, consumed⟩ := (covers table credited).consume dest.index sender.index
      destKnown senderKnown
    rw [consumed]
    exact ⟨_, rfl⟩
  · exact ⟨queue, rfl⟩

/-- An event is put into its home lane and, if it is a message, into the index. -/
theorem insert_put (inserted : queue.insert event = .ok after) :
    ∃ list, queue.lanes[queue.homeLane event]? = some list ∧
      (queue.isCrossing event = true → laneOf event.key.context < queue.lanes.length) ∧
      after = { queue with
        lanes := queue.lanes.set (queue.homeLane event) (list.insert event)
        outbound := queue.enter event } := by
  unfold LaneQueue.insert at inserted
  simp only at inserted
  split at inserted
  · cases inserted
  · rename_i list found
    unfold enter
    split at inserted
    · rename_i crossing
      split at inserted
      · rename_i within
        cases inserted
        refine ⟨list, found, fun _ => within, ?_⟩
        rw [if_pos crossing, homeLane_of_crossing crossing]
        rfl
      · cases inserted
    · rename_i stays
      cases inserted
      refine ⟨list, found, fun crossing => absurd crossing stays, ?_⟩
      rw [if_neg stays]
      rfl

theorem insert_eq_ok (inserted : queue.insert event = .ok after) :
    ∃ lanes outbound, lanes.length = queue.lanes.length ∧
      after = { queue with lanes, outbound } := by
  obtain ⟨list, _, _, rfl⟩ := insert_put inserted
  exact ⟨_, _, List.length_set, rfl⟩

theorem erase_eq_ok {key : EventKey} {event? : Option Event}
    (erased : queue.erase key = .ok (event?, after)) :
    ∃ lanes outbound credits, lanes.length = queue.lanes.length ∧
      CreditTable.Recounts queue.credits credits ∧
      after = { queue with lanes, outbound, credits } := by
  unfold LaneQueue.erase at erased
  simp only at erased
  split at erased
  · cases erased
    exact ⟨queue.lanes, queue.outbound, queue.credits, rfl, .same _, rfl⟩
  · split at erased
    · obtain ⟨list, _, erased⟩ := bind_eq_ok erased
      obtain ⟨taken, _, erased⟩ := bind_eq_ok erased
      cases erased
      exact ⟨_, _, queue.credits, List.length_set, .same _, rfl⟩
    · split at erased
      · cases erased
        exact ⟨queue.lanes, queue.outbound, queue.credits, rfl, .same _, rfl⟩
      · obtain ⟨⟨taken?, rest⟩, _, erased⟩ := bind_eq_ok erased
        simp only at erased
        split at erased
        · cases erased
          exact ⟨_, queue.outbound, queue.credits, List.length_set, .same _, rfl⟩
        · obtain ⟨last, consumed, erased⟩ := bind_eq_ok erased
          cases erased
          obtain ⟨credits, recounts, same⟩ := consumeCredit_eq_ok consumed
          rw [same]
          exact ⟨_, queue.outbound, credits, List.length_set, recounts, rfl⟩

theorem next_eq_ok {key? : Option EventKey} (looked : queue.next? = .ok (key?, after)) :
    ∃ lane?, queue.settle = .ok (lane?, after) := by
  obtain ⟨⟨lane?, settled⟩, settles, looked⟩ := bind_eq_ok looked
  refine ⟨lane?, ?_⟩
  cases lane? with
  | none =>
      cases looked
      exact settles
  | some lane =>
      obtain ⟨list, _, looked⟩ := bind_eq_ok looked
      cases looked
      exact settles

/-- After it has settled, no more than a lane and the credit change. -/
theorem pop_eq_ok {event? : Option Event} (popped : queue.pop = .ok (event?, after)) :
    ∃ lane? settled lanes credits, queue.settle = .ok (lane?, settled) ∧
      lanes.length = settled.lanes.length ∧ CreditTable.Recounts settled.credits credits ∧
      after = { settled with lanes, credits } := by
  obtain ⟨⟨lane?, settled⟩, settles, popped⟩ := bind_eq_ok popped
  refine ⟨lane?, settled, ?_⟩
  simp only at popped
  split at popped
  · cases popped
    exact ⟨_, _, settles, rfl, .same _, rfl⟩
  · obtain ⟨list, _, popped⟩ := bind_eq_ok popped
    obtain ⟨⟨taken?, rest⟩, _, popped⟩ := bind_eq_ok popped
    simp only at popped
    split at popped
    · cases popped
      exact ⟨_, settled.credits, settles, List.length_set, .same _, rfl⟩
    · obtain ⟨last, consumed, popped⟩ := bind_eq_ok popped
      cases popped
      obtain ⟨credits, recounts, same⟩ := consumeCredit_eq_ok consumed
      rw [same]
      exact ⟨_, credits, settles, List.length_set, recounts, rfl⟩

/-- What each operation comes to. -/
inductive Performs (queue : LaneQueue) : Operation → Answer → LaneQueue → Prop
  | insert {event : Event} {after : LaneQueue} (inserts : queue.insert event = .ok after) :
      Performs queue (.insert event) (.inserted (.ok event.key)) after
  | reinsert {event : Event} {after : LaneQueue} (inserts : queue.insert event = .ok after) :
      Performs queue (.reinsert event) .reinserted after
  | next {key? : Option EventKey} {lane? : Option Nat} {after : LaneQueue}
      (settles : queue.settle = .ok (lane?, after)) : Performs queue .next (.next key?) after
  | pop {event? : Option Event} {after : LaneQueue} (popped : queue.pop = .ok (event?, after)) :
      Performs queue .pop (.taken event?) after
  | erase {key : EventKey} {event? : Option Event} {after : LaneQueue}
      (erased : queue.erase key = .ok (event?, after)) :
      Performs queue (.erase key) (.taken event?) after
  | drain : Performs queue .drain (.drained queue.drain.1) queue.drain.2

theorem perform_eq_ok {operation : Operation} {answer : Answer}
    (performed : queue.perform operation = .ok (answer, after)) :
    queue.Performs operation answer after := by
  cases operation with
  | insert event =>
      obtain ⟨_, inserts, same⟩ := bind_eq_ok performed
      cases same
      exact .insert inserts
  | reinsert event =>
      obtain ⟨_, inserts, same⟩ := bind_eq_ok performed
      cases same
      exact .reinsert inserts
  | next =>
      obtain ⟨_, looked, same⟩ := bind_eq_ok performed
      cases same
      obtain ⟨lane?, settles⟩ := next_eq_ok looked
      exact .next settles
  | pop =>
      obtain ⟨_, popped, same⟩ := bind_eq_ok performed
      cases same
      exact .pop popped
  | erase key =>
      obtain ⟨_, erased, same⟩ := bind_eq_ok performed
      cases same
      exact .erase erased
  | drain =>
      cases performed
      exact .drain

end EventKernel.Queue.LaneQueue
