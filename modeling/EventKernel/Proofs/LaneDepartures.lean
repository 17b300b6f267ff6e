import EventKernel.Proofs.LeadingFronts
import EventKernel.Proofs.LaneSettings
import EventKernel.Proofs.LaneSettling

set_option autoImplicit false

/-! What happens on the way to the next event, whatever was removed before. A message is selected
and leaves for its destination; this is repeated until the selected front is no message. So a queue
that has settled has gone through the departures of some messages, one after another, and what it
answers was selected after the last of them. -/

namespace EventKernel.Queue.LaneQueue

variable {queue next after : LaneQueue} {lane : Nat} {message : Event}

theorem Charted.popped (charted : queue.Charted) {list rest : BarrierList}
    (atFront : queue.FrontAt lane message) (found : queue.lanes[lane]? = some list)
    (popped : list.pop = .ok (some message, rest)) :
    rest.Sound ∧ list.events.Perm (message :: rest.events) := by
  obtain ⟨held, entry, there, first, rfl⟩ := atFront
  cases there.symm.trans found
  obtain ⟨others, removed, othersSound, _, taken⟩ := (charted.list_sound found).pop first
  cases removed.symm.trans popped
  exact ⟨othersSound, taken⟩

/-- A message that is delivered is struck from the index, and held by its owner. -/
theorem Charted.convert (charted : queue.Charted) {list rest : BarrierList}
    (atFront : queue.FrontAt lane message) (found : queue.lanes[lane]? = some list)
    (popped : list.pop = .ok (some message, rest))
    (converted : (queue.putLane lane rest).convert message = .ok after) :
    after.Charted ∧ (∀ astray, queue.Tracks astray → after.Tracks astray) ∧
      ∃ others, queue.events.Perm (message :: others) ∧
        after.events.Perm (delivered message :: others) := by
  obtain ⟨restSound, taken⟩ := charted.popped atFront found popped
  obtain ⟨takenCharted, left⟩ := charted.take found restSound taken
  have distinct := ((left.map fun event => event.key.uid).nodup_iff).mp charted.distinct
  rw [List.map_cons, List.nodup_cons] at distinct
  have fresh : ∀ other ∈ (queue.putLane lane rest).events, other.key.uid ≠ message.key.uid := by
    intro other member same
    exact distinct.1 (same ▸ List.mem_map_of_mem member)
  have struck := takenCharted.strike message.key fun other member _ same =>
    fresh other member (by rw [same])
  obtain ⟨credits, destList, recounts, read, rfl⟩ := convert_eq_ok converted
  obtain ⟨putCharted, grown⟩ := struck.put (delivered message)
    (by
      rw [homeLane_of_not_crossing (delivered_not_crossing _ message)]
      exact found_of_laneAt read)
    (fun crossing => by
      rw [delivered_not_crossing] at crossing
      cases crossing) fresh
  have stays : ∀ waiting : LaneQueue, waiting.enter (delivered message) = waiting.outbound :=
    fun waiting => if_neg (by rw [delivered_not_crossing]; exact Bool.false_ne_true)
  have arrival (astray : List EventKey) (tracks : queue.Tracks astray) :=
    have noted : queue.Tracks (message.key :: astray) :=
      tracks.weaken fun _ => List.mem_cons_of_mem _
    have left := noted.take left fun _ => List.mem_cons_self
    (left.strike takenCharted fun _ => List.mem_cons.mp).put (delivered message) grown
  rw [stays, homeLane_of_not_crossing (delivered_not_crossing _ message)] at putCharted grown
  refine ⟨putCharted.recount credits queue.deadlocks (queue.conversions + 1) recounts.isSome_eq,
    fun astray tracks => ?_, _, left, grown⟩
  have put := arrival astray tracks
  rw [stays, homeLane_of_not_crossing (delivered_not_crossing _ message)] at put
  exact put.recount credits queue.deadlocks (queue.conversions + 1) recounts.isSome_eq

/-- A message at the front of the selected lane leaves for its destination. -/
inductive Departs (queue : LaneQueue) (message : Event) : LaneQueue → Prop
  | leaves {lane deadlocks : Nat} {list rest : BarrierList} {after : LaneQueue}
      (selected : queue.select = .ok (some lane, { queue with deadlocks }))
      (atFront : queue.FrontAt lane message) (crossing : queue.isCrossing message = true)
      (found : queue.lanes[lane]? = some list) (popped : list.pop = .ok (some message, rest))
      (converted : (putLane { queue with deadlocks } lane rest).convert message = .ok after) :
      Departs queue message after

namespace Departs

variable (departs : queue.Departs message after)

include departs

theorem crossing : queue.isCrossing message = true := by
  cases departs with
  | leaves _ _ crossing => exact crossing

theorem outline : queue.SameOutline after := by
  cases departs with
  | @leaves lane deadlocks _ rest _ _ _ _ _ _ converted =>
      have taken : queue.SameOutline (putLane { queue with deadlocks } lane rest) :=
        ⟨⟨rfl, rfl, rfl⟩, List.length_set⟩
      exact taken.trans (convert_outline converted)

private theorem conversions : after.conversions = queue.conversions + 1 := by
  cases departs with
  | leaves _ _ _ _ _ converted =>
      obtain ⟨_, _, _, _, rfl⟩ := convert_eq_ok converted
      rfl

theorem charted (charted : queue.Charted) : after.Charted := by
  cases departs with
  | @leaves lane deadlocks _ _ _ _ atFront _ found popped converted =>
      have selected := charted.recount queue.credits deadlocks queue.conversions rfl
      exact (selected.convert atFront found popped converted).1

theorem moved (charted : queue.Charted) : ∃ others, queue.events.Perm (message :: others) ∧
    after.events.Perm (delivered message :: others) := by
  cases departs with
  | @leaves lane deadlocks _ _ _ _ atFront _ found popped converted =>
      have selected := charted.recount queue.credits deadlocks queue.conversions rfl
      exact (selected.convert atFront found popped converted).2.2

private theorem carried (charted : queue.Charted) :
    Carried queue.isCrossing queue.events after.events := by
  obtain ⟨others, before, arrived⟩ := departs.moved charted
  exact .of_moved departs.crossing charted.distinct before arrived

theorem forall_events (charted : queue.Charted) {holds : Event → Prop}
    (arrives : ∀ event, holds event → holds (delivered event))
    (all : ∀ event ∈ queue.events, holds event) : ∀ event ∈ after.events, holds event := by
  obtain ⟨others, before, arrived⟩ := departs.moved charted
  intro event member
  rcases List.mem_cons.mp (arrived.mem_iff.mp member) with rfl | other
  · exact arrives _ (all _ (before.mem_iff.mpr List.mem_cons_self))
  · exact all event (before.mem_iff.mpr (List.mem_cons_of_mem _ other))

theorem tracks (charted : queue.Charted) {astray : List EventKey} (tracks : queue.Tracks astray) :
    after.Tracks astray := by
  cases departs with
  | @leaves lane deadlocks _ _ _ _ atFront _ found popped converted =>
      have selected := charted.recount queue.credits deadlocks queue.conversions rfl
      exact (selected.convert atFront found popped converted).2.1 astray
        (tracks.recount queue.credits deadlocks queue.conversions rfl)

theorem parcels (charted : queue.Charted) {dest : Nat} {index : Outbound}
    (found : after.outbound[dest]? = some index) {parcel : EventKey × Nat}
    (member : parcel ∈ index.parcels) :
    ∃ before, queue.outbound[dest]? = some before ∧ parcel ∈ before.parcels := by
  cases departs with
  | leaves _ _ _ _ _ converted =>
      obtain ⟨_, _, _, _, rfl⟩ := convert_eq_ok converted
      obtain ⟨before, atDest, present, _⟩ := charted.struck found member
      exact ⟨before, atDest, present⟩

private theorem outgoingCount (charted : queue.Charted) :
    after.outgoingCount + 1 = queue.outgoingCount := by
  obtain ⟨others, before, arrived⟩ := departs.moved charted
  unfold LaneQueue.outgoingCount
  rw [before.countP_eq, arrived.countP_eq, List.countP_cons, List.countP_cons,
    (isCrossing_iff.mp departs.crossing).2.1]
  rfl

theorem counts {table : CreditTable} (credited : queue.credits = some table) :
    ∃ count, table.credit (laneOf message.key.context - 1) (laneOf message.prevContext - 1) =
        .ok count ∧ count + 1 < CreditTable.countLimit ∧
      after.credits = some (table.put (laneOf message.key.context - 1)
        (laneOf message.prevContext - 1) (count + 1)) := by
  cases departs with
  | leaves _ _ _ _ _ converted => exact convert_counts converted credited

theorem covers {entities : Nat}
    (covers : ∀ table, queue.credits = some table → table.Covers entities) :
    ∀ table, after.credits = some table → table.Covers entities := by
  obtain ⟨table, credited⟩ := Option.isSome_iff_exists.mp (isCrossing_iff.mp departs.crossing).1
  obtain ⟨count, _, _, counted⟩ := departs.counts credited
  intro held same
  cases counted.symm.trans same
  exact (covers table credited).put _ _ _

end Departs

/-- A message that has left, and the queue as it was when the message was selected. -/
structure Departure where
  queue : LaneQueue
  message : Event

/-- Messages leave one after another. -/
inductive Course : LaneQueue → List Departure → LaneQueue → Prop
  | ends (queue : LaneQueue) : Course queue [] queue
  | departs {queue next after : LaneQueue} {message : Event} {later : List Departure}
      (first : queue.Departs message next) (rest : Course next later after) :
      Course queue (⟨queue, message⟩ :: later) after

namespace Course

variable {departures : List Departure} (course : queue.Course departures after)

include course

theorem outline : queue.SameOutline after := by
  induction course with
  | ends => exact .refl _
  | departs first _ ih => exact first.outline.trans ih

theorem conversions : after.conversions = queue.conversions + departures.length := by
  induction course with
  | ends => rfl
  | departs first _ ih =>
      rw [ih, first.conversions, List.length_cons]
      omega

theorem charted (charted : queue.Charted) : after.Charted := by
  induction course with
  | ends => exact charted
  | departs first _ ih => exact ih (first.charted charted)

theorem tracks (charted : queue.Charted) {astray : List EventKey} (tracks : queue.Tracks astray) :
    after.Tracks astray := by
  induction course with
  | ends => exact tracks
  | departs first _ ih => exact ih (first.charted charted) (first.tracks charted tracks)

theorem carried (charted : queue.Charted) :
    Carried queue.isCrossing queue.events after.events := by
  induction course with
  | ends => exact .refl _ _
  | departs first _ ih =>
      have later := ih (first.charted charted)
      rw [isCrossing_congr _ _ first.outline.counts] at later
      exact (first.carried charted).trans later

theorem forall_events (charted : queue.Charted) {holds : Event → Prop}
    (arrives : ∀ event, holds event → holds (delivered event))
    (all : ∀ event ∈ queue.events, holds event) : ∀ event ∈ after.events, holds event := by
  induction course with
  | ends => exact all
  | departs first _ ih =>
      exact ih (first.charted charted) (first.forall_events charted arrives all)

end Course

private theorem Charted.courseWithin (moves : Nat) (charted : queue.Charted)
    (enough : queue.outgoingCount ≤ moves) {lane? : Option Nat}
    (settled : settleWithin moves queue = .ok (lane?, after)) :
    ∃ departures last, queue.Course departures last ∧ last.select = .ok (lane?, after) ∧
      ∀ lane front, lane? = some lane → last.FrontAt lane front →
        last.isCrossing front = false := by
  induction moves generalizing queue with
  | zero =>
      exact ⟨[], queue, .ends queue, settled, fun _ _ _ atFront =>
        crossing_uncounted (Nat.le_zero.mp enough) atFront.mem⟩
  | succ moves ih =>
      unfold LaneQueue.settleWithin at settled
      obtain ⟨⟨chosen?, selected⟩, selects, settled⟩ := bind_eq_ok settled
      obtain ⟨deadlocks, rfl⟩ := select_eq_ok selects
      cases chosen? with
      | none =>
          cases settled
          exact ⟨[], queue, .ends queue, selects, fun _ _ impossible => by cases impossible⟩
      | some lane =>
          obtain ⟨front, leads⟩ := (charted.select selects).2.2 lane rfl
          obtain ⟨list, entry, found, first, atEntry⟩ := leads.atFront
          have read : laneAt { queue with deadlocks } lane = .ok list := laneAt_of_found found
          simp only [read, first, bind, Except.bind] at settled
          rw [atEntry] at settled
          cases crossing : queue.isCrossing front with
          | false =>
              have stays : isCrossing { queue with deadlocks } front = false := crossing
              simp only [stays, Bool.false_eq_true, if_false] at settled
              cases settled
              refine ⟨[], queue, .ends queue, selects, fun other rival chosen atRival => ?_⟩
              cases chosen
              rw [atRival.unique leads.atFront]
              exact crossing
          | true =>
              have leaves : isCrossing { queue with deadlocks } front = true := crossing
              obtain ⟨rest, popped, _⟩ := (charted.list_sound found).pop first
              rw [atEntry] at popped
              simp only [leaves, if_true, popped] at settled
              obtain ⟨next, converted, settled⟩ := bind_eq_ok settled
              have departs : queue.Departs front next :=
                .leaves selects leads.atFront crossing found popped converted
              have fewer := departs.outgoingCount charted
              obtain ⟨departures, last, course, answer⟩ :=
                ih (departs.charted charted) (by omega) settled
              exact ⟨_, last, .departs departs course, answer⟩

/-- A queue that has settled has gone through departures, and then selected a front that is no
message. -/
theorem Charted.course (charted : queue.Charted) {lane? : Option Nat}
    (settled : queue.settle = .ok (lane?, after)) :
    ∃ departures last, queue.Course departures last ∧ last.select = .ok (lane?, after) ∧
      ∀ lane front, lane? = some lane → last.FrontAt lane front →
        last.isCrossing front = false :=
  charted.courseWithin queue.outgoingCount (Nat.le_refl _) settled

/-- What is taken from lanes that have settled: the selected front, and the credit it holds. -/
inductive Takes (settled : LaneQueue) : Option Nat → Option Event → LaneQueue → Prop
  | nothing : Takes settled none none settled
  | front {lane : Nat} {front : Event} {list rest : BarrierList} {after : LaneQueue}
      (atFront : settled.FrontAt lane front) (stays : settled.isCrossing front = false)
      (found : settled.lanes[lane]? = some list) (popped : list.pop = .ok (some front, rest))
      (consumed : (settled.putLane lane rest).consumeCredit front = .ok after) :
      Takes settled (some lane) (some front) after

theorem Charted.takes (charted : queue.Charted) {event? : Option Event}
    (popped : queue.pop = .ok (event?, after)) :
    ∃ lane? settled, queue.settle = .ok (lane?, settled) ∧ settled.Charted ∧
      settled.Takes lane? event? after := by
  obtain ⟨⟨lane?, settled⟩, settles, popped⟩ := bind_eq_ok popped
  obtain ⟨departures, last, course, selected, stays⟩ := charted.course settles
  have lastCharted := course.charted charted
  obtain ⟨⟨deadlocks, rfl⟩, _, leading⟩ := lastCharted.select selected
  refine ⟨lane?, _, settles,
    lastCharted.recount last.credits deadlocks last.conversions rfl, ?_⟩
  cases lane? with
  | none =>
      cases popped
      exact .nothing
  | some lane =>
      obtain ⟨front, leads⟩ := leading lane rfl
      have atFront := leads.atFront
      obtain ⟨list, entry, found, first, rfl⟩ := leads.atFront
      obtain ⟨rest, removed, _⟩ := (lastCharted.list_sound found).pop first
      have read : laneAt { last with deadlocks } lane = .ok list := laneAt_of_found found
      simp only [read, bind, Except.bind, removed] at popped
      obtain ⟨paid, consumed, popped⟩ := bind_eq_ok popped
      cases popped
      exact .front atFront (stays lane _ rfl atFront) found removed consumed

end EventKernel.Queue.LaneQueue
