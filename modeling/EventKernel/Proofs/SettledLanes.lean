import EventKernel.Proofs.OwnerOrder

set_option autoImplicit false

/-! Lanes that have settled stay as they are. Whatever was removed before, messages leave until the
selected front is none, and then the same front is selected again without any change. So the next
event may be looked at any number of times before it is taken. Settling fails only where a cell of
the credit table could not count the messages on their way. -/

namespace EventKernel.Queue.LaneQueue

variable {queue after : LaneQueue} {entities lane : Nat} {message : Event}

/-- A state that operations can reach, in a queue for so many entities. -/
structure Serviceable (queue : LaneQueue) (entities : Nat) : Prop where
  charted : queue.Charted
  equipped : queue.Equipped entities

private theorem Equipped.outline (equipped : queue.Equipped entities)
    (outline : queue.SameOutline after) (charted : after.Charted)
    (covers : ∀ table, after.credits = some table → table.Covers entities) :
    after.Equipped entities where
  laneCount := outline.laneCount.trans equipped.laneCount
  indexCount := charted.indexCount.trans (outline.laneCount.trans equipped.laneCount)
  latencies := outline.latency ▸ equipped.latencies
  credited := covers

private theorem Equipped.recount (equipped : queue.Equipped entities) (deadlocks : Nat) :
    Equipped { queue with deadlocks } entities :=
  ⟨equipped.laneCount, equipped.indexCount, equipped.latencies, equipped.credited⟩

namespace Serviceable

theorem departs (departs : queue.Departs message after) (serviceable : queue.Serviceable entities) :
    after.Serviceable entities :=
  have charted := departs.charted serviceable.charted
  ⟨charted, serviceable.equipped.outline departs.outline charted
    (departs.covers serviceable.equipped.credited)⟩

theorem course {departures : List Departure} (course : queue.Course departures after)
    (serviceable : queue.Serviceable entities) : after.Serviceable entities := by
  induction course with
  | ends => exact serviceable
  | departs first _ ih => exact ih (.departs first serviceable)

private theorem recount (serviceable : queue.Serviceable entities) (deadlocks : Nat) :
    Serviceable { queue with deadlocks } entities :=
  ⟨serviceable.charted.recount queue.credits deadlocks queue.conversions rfl,
    serviceable.equipped.recount deadlocks⟩

variable (serviceable : queue.Serviceable entities)

include serviceable

theorem addressed_of_crossing (member : message ∈ queue.events)
    (crossing : queue.isCrossing message = true) : queue.Addressed entities message := by
  have ⟨charted, equipped⟩ := serviceable
  obtain ⟨index, listed, _⟩ := charted.entered.listed message member crossing
  obtain ⟨list, found, _⟩ := charted.home_lane member
  rw [homeLane_of_crossing crossing] at found
  refine ⟨?_, fun _ => equipped.lane_le found⟩
  have within := (List.getElem?_eq_some_iff.mp listed).1
  rw [equipped.indexCount] at within
  exact Nat.le_of_lt_succ within

private theorem settle {lane? : Option Nat} (settled : queue.settle = .ok (lane?, after)) :
    after.Serviceable entities := by
  obtain ⟨departures, last, course, selected, _⟩ := serviceable.charted.course settled
  obtain ⟨deadlocks, rfl⟩ := select_eq_ok selected
  exact (Serviceable.course course serviceable).recount deadlocks

private theorem perform_covers {operation : Operation} {answer : Answer}
    (performed : queue.perform operation = .ok (answer, after)) :
    ∀ table, after.credits = some table → table.Covers entities := by
  have inserted {event : Event} {last : LaneQueue} (inserts : queue.insert event = .ok last) :
      ∀ table, last.credits = some table → table.Covers entities := by
    obtain ⟨_, _, _, rfl⟩ := insert_eq_ok inserts
    exact serviceable.equipped.credited
  cases perform_eq_ok performed with
  | insert inserts => exact inserted inserts
  | reinsert inserts => exact inserted inserts
  | next settles => exact (serviceable.settle settles).equipped.credited
  | pop popped =>
      obtain ⟨_, _, _, _, settles, _, recounts, rfl⟩ := pop_eq_ok popped
      exact recounts.covers (serviceable.settle settles).equipped.credited
  | erase erased =>
      obtain ⟨_, _, _, _, recounts, rfl⟩ := erase_eq_ok erased
      exact recounts.covers serviceable.equipped.credited
  | drain => exact serviceable.equipped.credited

theorem perform {operation : Operation} (fresh : operation.Fresh queue.keys) {answer : Answer}
    (performed : queue.perform operation = .ok (answer, after)) : after.Serviceable entities :=
  have charted := (serviceable.charted.perform (.refl _) fresh performed).1
  ⟨charted, serviceable.equipped.outline (perform_outline performed) charted
    (serviceable.perform_covers performed)⟩

end Serviceable

/-- The messages from a sender that have not been converted. -/
def waiting (queue : LaneQueue) (dest sender : Nat) : Nat :=
  queue.events.countP fun event => queue.isCrossing event && travels dest sender event

/-- Some cell cannot count all messages on their way to it. -/
def Overfull (queue : LaneQueue) : Prop :=
  ∃ table dest sender count, queue.credits = some table ∧
    table.credit dest sender = .ok count ∧
    CreditTable.countLimit ≤ count + queue.waiting dest sender

theorem Departs.waiting_eq (departs : queue.Departs message after) (charted : queue.Charted)
    (dest sender : Nat) :
    queue.waiting dest sender =
      after.waiting dest sender + if travels dest sender message then 1 else 0 := by
  obtain ⟨others, before, arrived⟩ := departs.moved charted
  unfold waiting
  rw [isCrossing_congr queue after departs.outline.counts, before.countP_eq, arrived.countP_eq,
    List.countP_cons, List.countP_cons, departs.crossing, delivered_not_crossing]
  rfl

private theorem Departs.overfull (departs : queue.Departs message after) (charted : queue.Charted)
    (overfull : after.Overfull) : queue.Overfull := by
  obtain ⟨held, dest, sender, amount, credited, read, full⟩ := overfull
  obtain ⟨table, counting⟩ := Option.isSome_iff_exists.mp (isCrossing_iff.mp departs.crossing).1
  obtain ⟨count, cell, _, counted⟩ := departs.counts counting
  cases counted.symm.trans credited
  have waits := departs.waiting_eq charted dest sender
  rcases CreditTable.credit_put read with ⟨rfl, rfl, rfl⟩ | ⟨_, old⟩
  · rw [if_pos (travels_of_crossing departs.crossing)] at waits
    exact ⟨table, _, _, count, counting, cell, by omega⟩
  · exact ⟨table, dest, sender, amount, counting, old, by omega⟩

namespace Serviceable

variable (serviceable : queue.Serviceable entities)

include serviceable

/-- A selected message leaves, unless its cell is full. -/
theorem leaves {deadlocks : Nat} {list rest : BarrierList}
    (selected : queue.select = .ok (some lane, { queue with deadlocks }))
    (atFront : queue.FrontAt lane message) (crossing : queue.isCrossing message = true)
    (found : queue.lanes[lane]? = some list) (popped : list.pop = .ok (some message, rest)) :
    (∃ next, (putLane { queue with deadlocks } lane rest).convert message = .ok next ∧
      queue.Departs message next) ∨
    ((putLane { queue with deadlocks } lane rest).convert message = .error .arithmeticOverflow ∧
      queue.Overfull) := by
  have ⟨charted, equipped⟩ := serviceable
  obtain ⟨table, credited⟩ := Option.isSome_iff_exists.mp (isCrossing_iff.mp crossing).1
  obtain ⟨_, _, senderNode, destNode, _⟩ := isCrossing_iff.mp crossing
  obtain ⟨destKnown, senderKnown⟩ := serviceable.addressed_of_crossing atFront.mem crossing
  have senderKnown := senderKnown (by rw [credited]; rfl)
  obtain ⟨destList, destFound⟩ :=
    (equipped.putLane lane rest queue.outbound rfl).lane_exists _ destKnown
  have read : laneAt (putLane { queue with deadlocks } lane rest) (laneOf message.key.context) =
      .ok destList := laneAt_of_found destFound
  obtain ⟨count, cell, delivery⟩ := (equipped.credited table credited).deliver
    (laneOf message.key.context - 1) (laneOf message.prevContext - 1) (by omega) (by omega)
  rcases delivery with delivers | ⟨fails, full⟩
  · left
    obtain ⟨next, converted⟩ : ∃ next,
        (putLane { queue with deadlocks } lane rest).convert message = .ok next := by
      unfold LaneQueue.convert
      simp only [putLane, credited, delivers] at read ⊢
      simp only [Functor.map, Except.map, bind, Except.bind, read]
      exact ⟨_, rfl⟩
    exact ⟨next, converted, .leaves selected atFront crossing found popped converted⟩
  · right
    refine ⟨?_, table, _, _, count, credited, cell, ?_⟩
    · unfold LaneQueue.convert
      simp only [putLane, credited, fails]
      rfl
    · have waits : 0 < queue.waiting (laneOf message.key.context - 1)
          (laneOf message.prevContext - 1) := by
        refine List.countP_pos_iff.mpr ⟨message, atFront.mem, ?_⟩
        rw [crossing, travels_of_crossing crossing]
        rfl
      omega

private theorem settlesWithin (moves : Nat) :
    (∃ answer, settleWithin moves queue = .ok answer) ∨
      (settleWithin moves queue = .error .arithmeticOverflow ∧ queue.Overfull) := by
  induction moves generalizing queue with
  | zero =>
      obtain ⟨lane?, after, selected, _⟩ :=
        (serviceable.charted.judged serviceable.equipped).select
      exact .inl ⟨_, selected⟩
  | succ moves ih =>
      obtain ⟨lane?, after, selected, _⟩ :=
        (serviceable.charted.judged serviceable.equipped).select
      obtain ⟨deadlocks, rfl⟩ := select_eq_ok selected
      unfold LaneQueue.settleWithin
      simp only [selected, bind, Except.bind]
      cases lane? with
      | none => exact .inl ⟨_, rfl⟩
      | some lane =>
          obtain ⟨front, leads⟩ := (serviceable.charted.select selected).2.2 lane rfl
          obtain ⟨list, entry, found, first, atEntry⟩ := leads.atFront
          have read : laneAt { queue with deadlocks } lane = .ok list := laneAt_of_found found
          simp only [read, first]
          rw [atEntry]
          split
          · rename_i crossing
            obtain ⟨rest, popped, _⟩ := (serviceable.charted.list_sound found).pop first
            rw [atEntry] at popped
            simp only [popped]
            rcases serviceable.leaves selected leads.atFront crossing found popped with
              ⟨next, converted, departs⟩ | ⟨fails, overfull⟩
            · simp only [converted]
              rcases ih (.departs departs serviceable) with ⟨answer, settles⟩ | ⟨fails, overfull⟩
              · exact .inl ⟨answer, settles⟩
              · exact .inr ⟨fails, departs.overfull serviceable.charted overfull⟩
            · simp only [fails]
              exact .inr ⟨trivial, overfull⟩
          · exact .inl ⟨_, rfl⟩

end Serviceable

structure Rests (queue : LaneQueue) (lane? : Option Nat) : Prop where
  selected : queue.select = .ok (lane?, queue)
  stays : ∀ lane, lane? = some lane →
    ∃ front, queue.FrontAt lane front ∧ queue.isCrossing front = false

private theorem Rests.settle {lane? : Option Nat} (rests : queue.Rests lane?) :
    queue.settle = .ok (lane?, queue) := by
  unfold LaneQueue.settle
  cases queue.outgoingCount with
  | zero => exact rests.selected
  | succ moves =>
      unfold LaneQueue.settleWithin
      simp only [rests.selected, bind, Except.bind]
      cases lane? with
      | none => rfl
      | some lane =>
          obtain ⟨front, ⟨list, entry, found, first, rfl⟩, stays⟩ := rests.stays lane rfl
          simp only [laneAt_of_found found, first, stays, Bool.false_eq_true, if_false]
          rfl

namespace Serviceable

variable (serviceable : queue.Serviceable entities)

include serviceable

/-- A front that resolves a deadlock is a message. So the last selection counts none. -/
theorem rests {lane? : Option Nat} (settled : queue.settle = .ok (lane?, after)) :
    ∃ departures, queue.Course departures after ∧ after.Rests lane? := by
  obtain ⟨departures, last, course, selected, stays⟩ := serviceable.charted.course settled
  have kept := Serviceable.course course serviceable
  obtain ⟨chosen?, answer, selects, verdict⟩ := (kept.charted.judged kept.equipped).select
  cases selected.symm.trans selects
  have fronts : ∀ lane, lane? = some lane →
      ∃ front, last.FrontAt lane front ∧ last.isCrossing front = false := by
    rintro lane rfl
    obtain ⟨front, leads⟩ := (kept.charted.select selected).2.2 lane rfl
    exact ⟨front, leads.atFront, stays lane front rfl leads.atFront⟩
  have unchanged := verdict.eq_of_stays stays
  subst unchanged
  exact ⟨departures, course, selected, fronts⟩

/-- Settling ends, and fails only where a cell cannot count more. -/
theorem settles :
    (∃ lane? after departures, queue.settle = .ok (lane?, after) ∧
      queue.Course departures after ∧ after.Rests lane?) ∨
    (queue.settle = .error .arithmeticOverflow ∧ queue.Overfull) := by
  rcases serviceable.settlesWithin queue.outgoingCount with ⟨⟨lane?, after⟩, settled⟩ | fails
  · obtain ⟨departures, course, rests⟩ := serviceable.rests settled
    exact .inl ⟨lane?, after, departures, settled, course, rests⟩
  · exact .inr fails

/-- Looking once more changes nothing, and taking the event then is taking it at once. -/
theorem look : (∃ key? seen departures, queue.next? = .ok (key?, seen) ∧
      queue.Course departures seen ∧ seen.next? = .ok (key?, seen) ∧ seen.pop = queue.pop) ∨
    (queue.next? = .error .arithmeticOverflow ∧ queue.pop = .error .arithmeticOverflow ∧
      queue.Overfull) := by
  rcases serviceable.settles with ⟨lane?, seen, departures, settled, course, rests⟩ |
    ⟨fails, overfull⟩
  · left
    have again := rests.settle
    cases lane? with
    | none =>
        refine ⟨none, seen, departures, ?_, course, ?_, ?_⟩
        · unfold LaneQueue.next?
          rw [settled]
          rfl
        · unfold LaneQueue.next?
          rw [again]
          rfl
        · unfold LaneQueue.pop
          rw [settled, again]
    | some lane =>
        obtain ⟨front, ⟨list, entry, found, _⟩, _⟩ := rests.stays lane rfl
        refine ⟨list.next?, seen, departures, ?_, course, ?_, ?_⟩
        · unfold LaneQueue.next?
          simp only [settled, laneAt_of_found found, bind, Except.bind]
          rfl
        · unfold LaneQueue.next?
          simp only [again, laneAt_of_found found, bind, Except.bind]
          rfl
        · unfold LaneQueue.pop
          rw [settled, again]
  · right
    refine ⟨?_, ?_, overfull⟩
    · unfold LaneQueue.next?
      rw [fails]
      rfl
    · unfold LaneQueue.pop
      rw [fails]
      rfl

/-- What is taken is what was seen. -/
theorem popped_key {event? : Option Event} (popped : queue.pop = .ok (event?, after))
    {key? : Option EventKey} {seen : LaneQueue} (looked : queue.next? = .ok (key?, seen)) :
    event?.map Event.key = key? := by
  obtain ⟨⟨lane?, settled⟩, settles, popped⟩ := bind_eq_ok popped
  obtain ⟨_, settlesToo, looked⟩ := bind_eq_ok looked
  cases settles.symm.trans settlesToo
  cases lane? with
  | none =>
      cases popped
      cases looked
      rfl
  | some lane =>
      obtain ⟨departures, course, rests⟩ := serviceable.rests settles
      obtain ⟨front, ⟨list, entry, found, first, _⟩, _⟩ := rests.stays lane rfl
      have kept := (Serviceable.course course serviceable).charted
      obtain ⟨rest, removed, _⟩ := (kept.list_sound found).pop first
      simp only [laneAt_of_found found, bind, Except.bind, removed] at popped looked
      obtain ⟨last, _, popped⟩ := bind_eq_ok popped
      cases popped
      cases looked
      unfold BarrierList.next?
      rw [first]
      rfl

/-- The next event can be taken, if it can be seen and the senders of all events are known. -/
theorem pop_returns (senders : ∀ event ∈ queue.events, laneOf event.prevContext ≤ entities)
    {key? : Option EventKey} {seen : LaneQueue} (looked : queue.next? = .ok (key?, seen)) :
    ∃ event? after, queue.pop = .ok (event?, after) := by
  obtain ⟨⟨lane?, settled⟩, settles, looked⟩ := bind_eq_ok looked
  unfold LaneQueue.pop
  simp only [settles, bind, Except.bind]
  cases lane? with
  | none => exact ⟨_, _, rfl⟩
  | some lane =>
      obtain ⟨departures, course, rests⟩ := serviceable.rests settles
      obtain ⟨front, atFront, stays⟩ := rests.stays lane rfl
      have ⟨list, entry, found, first, same⟩ := atFront
      have ⟨kept, equipped⟩ := Serviceable.course course serviceable
      obtain ⟨rest, removed, _⟩ := (kept.list_sound found).pop first
      rw [same] at removed
      have home := kept.front_home atFront
      rw [homeLane_of_not_crossing stays] at home
      have stillKnown : ∀ event ∈ settled.events, laneOf event.prevContext ≤ entities :=
        course.forall_events serviceable.charted (fun _ known => known) senders
      have known : settled.Addressed entities front :=
        ⟨home ▸ equipped.lane_le found, fun _ => stillKnown front atFront.mem⟩
      obtain ⟨last, consumed⟩ := consumeCredit_returns (settled.putLane lane rest)
        equipped.credited known
      simp only [laneAt_of_found found, removed, consumed]
      exact ⟨_, _, rfl⟩

end Serviceable

end EventKernel.Queue.LaneQueue
