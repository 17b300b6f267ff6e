import EventKernel.Proofs.CountedMessages
import EventKernel.Proofs.PeekedQueues

set_option autoImplicit false

/-! Whether an accepted event can always be processed. An insertion checks the lane of its owner, and
for a message also that of its destination. But an event may be put in as if it had arrived, and then
nobody asks whether its sender exists. Under the credit rule such an event cannot be handed out: the
credit table has no cell for it. This is the only fault that a look, a removal or a drain can meet,
for any configuration and any engine, as long as the events put in can be counted. -/

namespace EventKernel

/-- An event that has arrived at an entity, from a sender that does not exist. -/
def Event.FromStranger (entities : Nat) (event : Event) : Prop :=
  event.kind = .incoming ∧ event.key.context ≠ .global ∧ ¬ event.prevContext.Known entities

instance (entities : Nat) (event : Event) : Decidable (event.FromStranger entities) :=
  inferInstanceAs (Decidable (_ ∧ _ ∧ _))

namespace Queue

open Exploration (Hook)

/-- Whether an operation puts an event in. -/
def Operation.putsIn : Operation → Bool
  | insert _ | reinsert _ => true
  | _ => false

private theorem CreditTable.Covers.consume_unknown {table : CreditTable} {entities : Nat}
    (covers : table.Covers entities) (dest : Nat) {sender : Nat} (unknown : entities ≤ sender) :
    table.consume dest sender = .error .indexOutOfRange := by
  have absent : table.credit dest sender = .error .indexOutOfRange := by
    unfold CreditTable.credit
    cases found : table.inbound[dest]? with
    | none => rfl
    | some row =>
        have width := covers.columns row (List.mem_of_getElem? found)
        simp only [Option.bind_eq_bind, Option.bind_some]
        rw [List.getElem?_eq_none (by omega)]
  unfold CreditTable.consume
  rw [absent]
  rfl

namespace LaneQueue

variable {queue after : LaneQueue} {entities entered : Nat} {event message : Event}

/-! ### Credit of an unknown sender -/

private theorem consumeCredit_fails
    (covers : ∀ table, queue.credits = some table → table.Covers entities)
    (counts : queue.credits.isSome = true) (stranger : event.FromStranger entities) :
    queue.consumeCredit event = .error .indexOutOfRange := by
  obtain ⟨arrived, owner, unknown⟩ := stranger
  obtain ⟨table, credited⟩ := Option.isSome_iff_exists.mp counts
  unfold LaneQueue.consumeCredit
  cases atDest : event.key.context with
  | global => exact absurd atDest owner
  | node dest =>
      cases fromSender : event.prevContext with
      | global =>
          rw [fromSender] at unknown
          exact absurd trivial unknown
      | node sender =>
          rw [fromSender] at unknown
          have beyond : entities ≤ sender.index := Nat.le_of_not_lt unknown
          simp only [arrived, credited, (covers table credited).consume_unknown _ beyond]
          rfl

private theorem consumeCredit_succeeds
    (covers : ∀ table, queue.credits = some table → table.Covers entities)
    (owner : laneOf event.key.context ≤ entities)
    (known : queue.credits.isSome = true → ¬ event.FromStranger entities) :
    ∃ after, queue.consumeCredit event = .ok after := by
  unfold LaneQueue.consumeCredit
  split
  · rename_i dest sender table arrived atDest fromSender credited
    have senderKnown : sender.index < entities := by
      refine Nat.lt_of_not_le fun beyond => ?_
      refine known (by rw [credited]; rfl) ⟨arrived, ?_, ?_⟩
      · rw [atDest]
        exact Context.noConfusion
      · rw [fromSender]
        exact Nat.not_lt.mpr beyond
    rw [atDest] at owner
    obtain ⟨count, _, consumed⟩ := (covers table credited).consume dest.index sender.index owner
      senderKnown
    rw [consumed]
    exact ⟨_, rfl⟩
  · exact ⟨queue, rfl⟩

/-! ### Strangers stay while messages leave -/

private theorem Departs.stranger_iff (departs : queue.Departs message after)
    (serviceable : queue.Serviceable entities) (stranger : event.FromStranger entities) :
    event ∈ after.events ↔ event ∈ queue.events := by
  obtain ⟨others, before, arrived⟩ := departs.moved serviceable.charted
  have crossing := departs.crossing
  have stays : event ≠ message := by
    rintro rfl
    have outgoing := (isCrossing_iff.mp crossing).2.1
    rw [stranger.1] at outgoing
    cases outgoing
  have other : event ≠ delivered message := by
    rintro rfl
    have known := (serviceable.addressed_of_crossing (before.mem_iff.mpr List.mem_cons_self)
      crossing).2 (isCrossing_iff.mp crossing).1
    exact stranger.2.2 (Layout.laneOf_le_iff.mp known)
  rw [before.mem_iff, arrived.mem_iff, List.mem_cons, List.mem_cons, or_iff_right stays,
    or_iff_right other]

private theorem Course.stranger_iff {departures : List Departure}
    (course : queue.Course departures after)
    (serviceable : queue.Serviceable entities) (stranger : event.FromStranger entities) :
    event ∈ after.events ↔ event ∈ queue.events := by
  induction course with
  | ends => exact Iff.rfl
  | departs first _ ih =>
      exact (ih (.departs first serviceable)).trans (first.stranger_iff serviceable stranger)

/-! ### Looks and removals -/

namespace Serviceable

variable (serviceable : queue.Serviceable entities)

include serviceable

theorem owner_le (member : event ∈ queue.events) : laneOf event.key.context ≤ entities := by
  cases crossing : queue.isCrossing event with
  | true => exact (serviceable.addressed_of_crossing member crossing).1
  | false =>
      obtain ⟨list, found, _⟩ := serviceable.charted.home_lane member
      rw [homeLane_of_not_crossing crossing] at found
      exact serviceable.equipped.lane_le found

/-- With room in every cell, lanes settle; then there is nothing to take, or what is seen is taken as
soon as its credit is discounted. -/
theorem opens (room : ¬ queue.Overfull) : ∃ departures seen, queue.Course departures seen ∧
    ((queue.next? = .ok (none, seen) ∧ queue.pop = .ok (none, seen)) ∨
      ∃ lane front rest, seen.FrontAt lane front ∧ seen.isCrossing front = false ∧
        queue.next? = .ok (some front.key, seen) ∧
        queue.pop =
          (fun last => (some front, last)) <$> (seen.putLane lane rest).consumeCredit front) := by
  rcases serviceable.settles with ⟨lane?, seen, departures, settled, course, rests⟩ |
    ⟨_, overfull⟩
  · refine ⟨departures, seen, course, ?_⟩
    unfold LaneQueue.next? LaneQueue.pop
    simp only [settled, bind, Except.bind]
    cases lane? with
    | none => exact .inl ⟨rfl, rfl⟩
    | some lane =>
        obtain ⟨front, atFront, stays⟩ := rests.stays lane rfl
        have ⟨list, entry, found, first, same⟩ := atFront
        have kept := (Serviceable.course course serviceable).charted
        obtain ⟨rest, removed, _⟩ := (kept.list_sound found).pop first
        rw [same] at removed
        refine .inr ⟨lane, front, rest, atFront, stays, ?_, ?_⟩
        · simp only [laneAt_of_found found]
          unfold BarrierList.next?
          rw [first, Option.map_some, same]
          rfl
        · simp only [laneAt_of_found found, removed]
          cases (seen.putLane lane rest).consumeCredit front with
          | error | ok => rfl
  · exact absurd overfull room

/-- A removal that the index does not answer looks for the serial number in the lane of the owner,
and discounts the credit of what it finds. -/
theorem erase_cases (senders : ∀ (dest : Nat) (index : Outbound),
      queue.outbound[dest]? = some index → ∀ parcel ∈ index.parcels, parcel.2 ≤ entities)
    (key : EventKey) :
    ((∃ event? after, queue.erase key = .ok (event?, after)) ∧
      ∀ event ∈ queue.events, queue.isCrossing event = false → event.key.uid = key.uid →
        event.key.context = key.context → ∃ index sender,
          queue.outbound[laneOf key.context]? = some index ∧ index.holder? key = some sender) ∨
    ∃ list rest event, queue.lanes[laneOf key.context]? = some list ∧ event ∈ list.events ∧
      event.key.uid = key.uid ∧
      (∀ index, queue.outbound[laneOf key.context]? = some index → index.holder? key = none) ∧
      queue.erase key = (fun last => (some event, last)) <$>
        (queue.putLane (laneOf key.context) rest).consumeCredit event := by
  have ⟨charted, equipped⟩ := serviceable
  -- Whoever stays at home under this owner is in a lane that exists.
  have resident {event : Event} (member : event ∈ queue.events)
      (stays : queue.isCrossing event = false) (owner : event.key.context = key.context) :
      ∃ list, queue.lanes[laneOf key.context]? = some list ∧ event ∈ list.events := by
    have home := charted.home_lane member
    rw [homeLane_of_not_crossing stays, owner] at home
    exact home
  unfold LaneQueue.erase
  simp only
  split
  · rename_i absent
    refine .inl ⟨⟨_, _, rfl⟩, fun event member stays _ owner => ?_⟩
    obtain ⟨list, found, _⟩ := resident member stays owner
    have within := (List.getElem?_eq_some_iff.mp found).1
    rw [← charted.indexCount] at within
    rw [List.getElem?_eq_getElem within] at absent
    cases absent
  · rename_i index atDest
    split
    · rename_i sender holder
      have entry := (Outbound.holder?_eq_some_iff (charted.entered.ordered _ _ atDest).1).mp holder
      obtain ⟨list, found⟩ := equipped.lane_exists sender (senders _ _ atDest _ entry)
      refine .inl ⟨?_, fun _ _ _ _ _ => ⟨index, sender, atDest, holder⟩⟩
      simp only [laneAt_of_found found, bind, Except.bind]
      rcases (charted.list_sound found).erase key.uid with ⟨event, rest, took, _⟩ | ⟨took, _⟩
      · simp only [took]
        exact ⟨_, _, rfl⟩
      · simp only [took]
        exact ⟨_, _, rfl⟩
    · rename_i unlisted
      split
      · rename_i absent
        refine .inl ⟨⟨_, _, rfl⟩, fun event member stays _ owner => ?_⟩
        obtain ⟨list, found, _⟩ := resident member stays owner
        cases absent.symm.trans found
      · rename_i list found
        rcases (charted.list_sound found).erase key.uid with
          ⟨event, rest, took, named, _, _, taken⟩ | ⟨took, absent⟩
        · refine .inr ⟨list, rest, event, found, taken.mem_iff.mpr List.mem_cons_self, named,
            fun other there => ?_, ?_⟩
          · cases atDest.symm.trans there
            exact unlisted
          · simp only [took, bind, Except.bind]
            cases (queue.putLane (laneOf key.context) rest).consumeCredit event with
            | error | ok => rfl
        · refine .inl ⟨?_, fun event member stays same owner => ?_⟩
          · simp only [took, bind, Except.bind]
            exact ⟨_, _, rfl⟩
          · obtain ⟨other, there, inside⟩ := resident member stays owner
            cases found.symm.trans there
            exact absurd same (absent event inside)

end Serviceable

/-- The next event to be taken is a stranger. -/
def NextIsStranger (queue : LaneQueue) (entities : Nat) : Prop :=
  ∃ event ∈ queue.events, event.FromStranger entities ∧
    ∃ seen, queue.next? = .ok (some event.key, seen)

/-- The event that a key names is a stranger, and no entry of the index misleads the removal. -/
def NamesStranger (queue : LaneQueue) (entities : Nat) (key : EventKey) : Prop :=
  ∃ event ∈ queue.events, event.FromStranger entities ∧ event.key.uid = key.uid ∧
    event.key.context = key.context ∧
    ∀ index, queue.outbound[laneOf key.context]? = some index → index.holder? key = none

namespace Serviceable

variable (serviceable : queue.Serviceable entities)

include serviceable

/-- The next event is taken, unless it is a stranger under the credit rule. -/
theorem pop_outcome (room : ¬ queue.Overfull) :
    (queue.credits.isSome = true ∧ queue.NextIsStranger entities ∧
      queue.pop = .error .indexOutOfRange) ∨
    (¬ (queue.credits.isSome = true ∧ queue.NextIsStranger entities) ∧
      ∃ answer, queue.pop = .ok answer) := by
  obtain ⟨departures, seen, course, ⟨looked, popped⟩ |
    ⟨lane, front, rest, atFront, stays, looked, popped⟩⟩ := serviceable.opens room
  · refine .inr ⟨?_, _, popped⟩
    rintro ⟨_, event, _, _, other, again⟩
    cases looked.symm.trans again
  · have ⟨charted, equipped⟩ := Serviceable.course course serviceable
    have counts := course.outline.counts
    have covered : ∀ table, (seen.putLane lane rest).credits = some table → table.Covers entities :=
      equipped.credited
    by_cases strange : queue.credits.isSome = true ∧ front.FromStranger entities
    · obtain ⟨counting, stranger⟩ := strange
      refine .inl ⟨counting, ⟨front, (course.stranger_iff serviceable stranger).mp atFront.mem,
        stranger, seen, looked⟩, ?_⟩
      rw [popped, consumeCredit_fails covered (counts.trans counting) stranger]
      rfl
    · right
      constructor
      · rintro ⟨counting, event, member, stranger, other, again⟩
        have same := looked.symm.trans again
        simp only [Except.ok.injEq, Prod.mk.injEq, Option.some.injEq] at same
        have present := (course.stranger_iff serviceable stranger).mpr member
        have isFront := charted.eq_of_uid atFront.mem present (by rw [same.1])
        exact strange ⟨counting, isFront ▸ stranger⟩
      · obtain ⟨last, consumed⟩ := consumeCredit_succeeds covered
          (Serviceable.owner_le ⟨charted, equipped⟩ atFront.mem)
          fun counting stranger => strange ⟨counts.symm.trans counting, stranger⟩
        rw [popped, consumed]
        exact ⟨_, rfl⟩

/-- A named event is taken or not found, unless it is a stranger under the credit rule. -/
theorem erase_outcome (senders : ∀ (dest : Nat) (index : Outbound),
      queue.outbound[dest]? = some index → ∀ parcel ∈ index.parcels, parcel.2 ≤ entities)
    (key : EventKey) :
    (queue.credits.isSome = true ∧ queue.NamesStranger entities key ∧
      queue.erase key = .error .indexOutOfRange) ∨
    (¬ (queue.credits.isSome = true ∧ queue.NamesStranger entities key) ∧
      ∃ answer, queue.erase key = .ok answer) := by
  have ⟨charted, equipped⟩ := serviceable
  rcases serviceable.erase_cases senders key with
    ⟨⟨event?, after, erased⟩, listed⟩ | ⟨list, rest, event, found, inside, named, unlisted, erased⟩
  · refine .inr ⟨?_, _, erased⟩
    rintro ⟨_, event, member, stranger, named, owner, unlisted⟩
    have stays : queue.isCrossing event = false :=
      not_crossing_of_kind (by rw [stranger.1]; exact EventKind.noConfusion)
    obtain ⟨index, sender, atDest, holder⟩ := listed event member stays named owner
    cases (unlisted index atDest).symm.trans holder
  · have member := mem_events.mpr ⟨_, list, found, inside⟩
    have covered : ∀ table, (queue.putLane (laneOf key.context) rest).credits = some table →
        table.Covers entities := equipped.credited
    by_cases strange : queue.credits.isSome = true ∧ event.FromStranger entities
    · obtain ⟨counting, stranger⟩ := strange
      have stays : queue.isCrossing event = false :=
        not_crossing_of_kind (by rw [stranger.1]; exact EventKind.noConfusion)
      have home := charted.housed _ list found event inside
      rw [homeLane_of_not_crossing stays] at home
      refine .inl ⟨counting, ⟨event, member, stranger, named, laneOf_injective home, unlisted⟩, ?_⟩
      rw [erased, consumeCredit_fails covered counting stranger]
      rfl
    · right
      constructor
      · rintro ⟨counting, other, present, stranger, same, _⟩
        exact strange ⟨counting,
          charted.eq_of_uid present member (same.trans named.symm) ▸ stranger⟩
      · obtain ⟨last, consumed⟩ := consumeCredit_succeeds covered (serviceable.owner_le member)
          fun counting stranger => strange ⟨counting, stranger⟩
        rw [erased, consumed]
        exact ⟨_, rfl⟩

private theorem next_returns (room : ¬ queue.Overfull) : ∃ answer, queue.next? = .ok answer := by
  obtain ⟨_, _, _, ⟨looked, _⟩ | ⟨_, _, _, _, _, looked, _⟩⟩ := serviceable.opens room
  · exact ⟨_, looked⟩
  · exact ⟨_, looked⟩

end Serviceable

end LaneQueue

/-! ### Layouts -/

namespace Layout

def Counted (layout : Layout) (entities entered : Nat) : Prop :=
  match layout with
  | single _ => True
  | partitioned lanes => lanes.Counted entities entered

/-- What an operation takes is a stranger, and the credit rule is active. -/
def Trips (layout : Layout) (entities : Nat) (operation : Operation) : Prop :=
  match layout, operation with
  | partitioned lanes, .pop => lanes.credits.isSome = true ∧ lanes.NextIsStranger entities
  | partitioned lanes, .erase key =>
      lanes.credits.isSome = true ∧ lanes.NamesStranger entities key
  | _, _ => False

variable {layout after : Layout} {entities entered : Nat}

theorem new_counted {configuration : Configuration} (accepted : configuration.Accepted)
    (built : new configuration = .ok layout) : layout.Counted configuration.entities 0 := by
  unfold new at built
  split at built
  · obtain ⟨lanes, made, rfl⟩ := map_eq_ok built
    exact LaneQueue.new_counted accepted made
  · cases built
    exact trivial

theorem Counted.perform (counted : layout.Counted entities entered)
    (serviceable : layout.Serviceable entities) {operation : Operation}
    (fresh : operation.Fresh (layout.events.map Event.key)) {answer : Answer}
    (performed : layout.perform operation = .ok (answer, after)) :
    after.Counted entities (entered + answer.enters) := by
  cases layout with
  | single list =>
      obtain ⟨⟨_, rest⟩, _, same⟩ := map_eq_ok performed
      cases same
      exact trivial
  | partitioned lanes =>
      obtain ⟨⟨_, rest⟩, done, same⟩ := map_eq_ok performed
      cases same
      exact LaneQueue.Counted.perform counted serviceable fresh done

private theorem Counted.mono (counted : layout.Counted entities entered) (more : Nat) :
    layout.Counted entities (entered + more) := by
  cases layout with
  | single list => exact trivial
  | partitioned lanes =>
      refine ⟨counted.senders, fun table credited dest sender count read => ?_⟩
      have bounded := counted.cells table credited dest sender count read
      omega

/-- An operation that puts nothing in returns, unless what it takes is a stranger under the credit
rule. -/
theorem perform_outcome (serviceable : layout.Serviceable entities)
    (counted : layout.Counted entities entered) (few : entered < CreditTable.countLimit)
    {operation : Operation} (takes : operation.putsIn = false) :
    (layout.Trips entities operation ∧ layout.perform operation = .error .indexOutOfRange) ∨
    (¬ layout.Trips entities operation ∧ ∃ answer, layout.perform operation = .ok answer) := by
  cases layout with
  | single list =>
      obtain ⟨answer, rest, performed, _⟩ := BarrierList.Sound.perform serviceable operation
      refine .inr ⟨id, (answer, single rest), ?_⟩
      unfold Layout.perform
      simp only [performed]
      rfl
  | partitioned lanes =>
      have room := LaneQueue.Counted.not_overfull counted few
      cases operation with
      | insert | reinsert => cases takes
      | drain => exact .inr ⟨id, _, rfl⟩
      | next =>
          obtain ⟨answer, looked⟩ := LaneQueue.Serviceable.next_returns serviceable room
          refine .inr ⟨id, ?_⟩
          unfold Layout.perform LaneQueue.perform
          simp only [looked]
          exact ⟨_, rfl⟩
      | pop =>
          unfold Layout.perform LaneQueue.perform
          rcases LaneQueue.Serviceable.pop_outcome serviceable room with
            ⟨counts, stranger, fails⟩ | ⟨known, answer, popped⟩
          · simp only [fails]
            exact .inl ⟨⟨counts, stranger⟩, rfl⟩
          · simp only [popped]
            exact .inr ⟨known, _, rfl⟩
      | erase key =>
          unfold Layout.perform LaneQueue.perform
          rcases LaneQueue.Serviceable.erase_outcome serviceable counted.senders key with
            ⟨counts, stranger, fails⟩ | ⟨known, answer, erased⟩
          · simp only [fails]
            exact .inl ⟨⟨counts, stranger⟩, rfl⟩
          · simp only [erased]
            exact .inr ⟨known, _, rfl⟩

private theorem perform_counts {operation : Operation} {answer : Answer}
    (performed : layout.perform operation = .ok (answer, after)) :
    after.counts = layout.counts := by
  cases layout with
  | single list =>
      obtain ⟨⟨_, rest⟩, _, same⟩ := map_eq_ok performed
      cases same
      rfl
  | partitioned lanes =>
      obtain ⟨⟨_, rest⟩, done, same⟩ := map_eq_ok performed
      cases same
      exact (LaneQueue.perform_outline done).counts

private theorem Trips.stranger {operation : Operation} (trips : layout.Trips entities operation) :
    layout.counts = true ∧ ∃ event ∈ layout.events, event.FromStranger entities := by
  cases layout with
  | single list => exact trips.elim
  | partitioned lanes =>
      cases operation with
      | pop =>
          obtain ⟨counts, event, member, stranger, _⟩ := trips
          exact ⟨counts, event, member, stranger⟩
      | erase key =>
          obtain ⟨counts, event, member, stranger, _⟩ := trips
          exact ⟨counts, event, member, stranger⟩
      | insert | reinsert | next | drain => exact trips.elim

end Layout

/-! ### Queues -/

namespace EventQueue

variable {σ : Type}

/-- The states that a queue can come to, each with the number of events put in. Serial numbers of
events held are never used again; apart from that, events may have any kind and any contexts, and
removals may ask for any key. -/
inductive Filled [Hook σ] (start : EventQueue σ) : Nat → EventQueue σ → Prop
  | start : Filled start 0 start
  | performed {entered : Nat} {queue after : EventQueue σ} {answer : Answer}
      (operation : Operation) (earlier : Filled start entered queue)
      (fresh : operation.Fresh queue.keys)
      (done : queue.perform operation = .ok (answer, after)) :
      Filled start (entered + answer.enters) after
  | described {entered : Nat} {queue : EventQueue σ} (earlier : Filled start entered queue) :
      Filled start entered queue.describeConcrete.2

variable {start queue after : EventQueue σ} {configuration : Configuration} {entered : Nat}

private theorem Filled.sound [Hook σ] {hook : σ}
    (built : EventQueue.new configuration hook = .ok (.ok start))
    (filled : start.Filled entered queue) :
    queue.layout.Serviceable configuration.entities ∧
      queue.layout.Counted configuration.entities entered ∧
      queue.layout.counts = configuration.strategies.localListsV2 := by
  induction filled with
  | start =>
      obtain ⟨valid, placed, _⟩ := new_eq_ok built
      have accepted := Configuration.accepted_of_validate valid
      exact ⟨Layout.new_serviceable accepted placed, Layout.new_counted accepted placed,
        (sound_of_new built).2.2⟩
  | performed operation _ fresh done ih =>
      obtain ⟨serviceable, counted, counts⟩ := ih
      rcases perform_layout done with same | ⟨asked, askedFresh, does⟩
      · rw [same]
        exact ⟨serviceable, counted.mono _, counts⟩
      · exact ⟨serviceable.perform (askedFresh _ fresh) does,
          counted.perform serviceable (askedFresh _ fresh) does,
          (Layout.perform_counts does).trans counts⟩
  | described _ ih => exact ih

/-- Whatever was put in, an operation that takes events or looks at them returns, unless what it
would hand out is an event that has arrived from a sender that does not exist. Then it reads past the
end of the credit table. This takes the credit rule, and an event that was put in as if it had
arrived. -/
theorem processed_unless_stranger [Hook σ] {hook : σ}
    (built : EventQueue.new configuration hook = .ok (.ok start))
    (filled : start.Filled entered queue) (few : entered < UInt32.size) {operation : Operation}
    (takes : operation.putsIn = false) :
    ((queue.layout.Trips configuration.entities operation ∧
        queue.perform operation = .error .indexOutOfRange) ∨
      (¬ queue.layout.Trips configuration.entities operation ∧
        ∃ answer, queue.perform operation = .ok answer)) ∧
    (queue.layout.Trips configuration.entities operation →
      configuration.strategies.localListsV2 = true ∧
        ∃ event ∈ queue.layout.events, event.FromStranger configuration.entities) := by
  obtain ⟨serviceable, counted, counts⟩ := filled.sound built
  have plain : operation.isInsertion = false := by
    cases operation with
    | insert event => cases takes
    | reinsert | next | pop | erase | drain => rfl
  refine ⟨?_, fun trips => ?_⟩
  · rw [perform_frame queue plain]
    rcases Layout.perform_outcome serviceable counted few takes with
      ⟨trips, fails⟩ | ⟨known, answer, performed⟩
    · rw [fails]
      exact .inl ⟨trips, rfl⟩
    · rw [performed]
      exact .inr ⟨known, _, rfl⟩
  · obtain ⟨active, stranger⟩ := trips.stranger
    exact ⟨counts.symm.trans active, stranger⟩

def strangersMessage : Event := ⟨⟨⟨10⟩, ⟨4⟩, .node ⟨0⟩⟩, .incoming, .node ⟨7⟩, none⟩

/-- It is accepted and seen, but cannot be taken. -/
theorem processed_unless_stranger_seven :
    ∃ start queue : EventQueue Exploration.Silent,
      EventQueue.new LaneQueue.waitingConfiguration .silent = .ok (.ok start) ∧
      start.Filled 1 queue ∧ strangersMessage.FromStranger 3 ∧
      strangersMessage ∈ queue.layout.events ∧
      queue.layout.Trips LaneQueue.waitingConfiguration.entities .pop ∧
      queue.perform .pop = .error .indexOutOfRange ∧
      ∃ answer, queue.perform .next = .ok answer := by
  obtain ⟨start, built⟩ : ∃ start : EventQueue Exploration.Silent,
      EventQueue.new LaneQueue.waitingConfiguration Exploration.Silent.silent =
        .ok (.ok start) := ⟨_, rfl⟩
  obtain ⟨queue, accepted⟩ : ∃ queue, start.perform (.insert strangersMessage) =
      .ok (.inserted (.ok strangersMessage.key), queue) := by
    cases built
    exact ⟨_, rfl⟩
  obtain ⟨held, seen, looked⟩ : strangersMessage ∈ queue.layout.events ∧
      ∃ seen, queue.perform .next = .ok (.next (some strangersMessage.key), seen) := by
    cases built
    cases accepted
    exact ⟨List.mem_singleton_self _, _, rfl⟩
  have fails : queue.perform .pop = .error .indexOutOfRange := by
    cases built
    cases accepted
    rfl
  have filled : start.Filled 1 queue := .performed (.insert strangersMessage) .start
    (by cases built; decide) accepted
  have takes : Operation.pop.putsIn = false := rfl
  obtain ⟨⟨trips, _⟩ | ⟨_, answer, popped⟩, _⟩ :=
    processed_unless_stranger built filled (by decide) takes
  · exact ⟨start, queue, built, filled, by decide, held, trips, fails, _, looked⟩
  · cases fails.symm.trans popped

end EventQueue

end Queue

end EventKernel
