import EventKernel.Proofs.CreditAccounts

set_option autoImplicit false

/-! How far the cells of the credit table count. A message is counted once, when it leaves its
sender, and draining the lanes lowers no cell. So a cell and the messages on their way to it together
never exceed the number of events that were put in, whatever these were and whatever was removed. As
long as that number can be counted no cell is overfull. -/

namespace EventKernel.Queue

/-- The number of events that an operation has put in. -/
def Answer.enters : Answer → Nat
  | .inserted (.ok _) => 1
  | .reinserted => 1
  | _ => 0

namespace LaneQueue

/-- The index leads to lanes that there are, and each cell has room for all messages on their way to
it, within the number of events put in. -/
structure Counted (queue : LaneQueue) (entities entered : Nat) : Prop where
  senders : ∀ (dest : Nat) (index : Outbound), queue.outbound[dest]? = some index →
    ∀ parcel ∈ index.parcels, parcel.2 ≤ entities
  cells : ∀ table, queue.credits = some table → ∀ dest sender count,
    table.credit dest sender = .ok count → count + queue.waiting dest sender ≤ entered

variable {queue after : LaneQueue} {configuration : Configuration} {entities entered : Nat}
  {event message : Event}

theorem Counted.not_overfull (counted : queue.Counted entities entered)
    (few : entered < CreditTable.countLimit) : ¬ queue.Overfull := by
  rintro ⟨table, dest, sender, count, credited, read, full⟩
  have bounded := counted.cells table credited dest sender count read
  omega

private theorem waiting_le_of_left (same : after.credits.isSome = queue.credits.isSome)
    {gone : List Event} (left : queue.events.Perm (gone ++ after.events)) (dest sender : Nat) :
    after.waiting dest sender ≤ queue.waiting dest sender := by
  unfold waiting
  rw [isCrossing_congr queue after same, left.countP_eq, List.countP_append]
  exact Nat.le_add_left _ _

private theorem consumeCredit_le (consumed : queue.consumeCredit event = .ok after) :
    ∀ table, after.credits = some table → ∀ dest sender count,
      table.credit dest sender = .ok count →
        ∃ earlier held, queue.credits = some earlier ∧ earlier.credit dest sender = .ok held ∧
          count ≤ held := by
  intro table credited dest sender count read
  obtain ⟨credits, recounts, same⟩ := consumeCredit_eq_ok consumed
  have present : queue.credits.isSome = true := by
    rw [← recounts.isSome_eq, ← show after.credits = credits by rw [same], credited]
    rfl
  obtain ⟨earlier, counting⟩ := Option.isSome_iff_exists.mp present
  rcases consumeCredit_counts consumed counting with
    ⟨place, source, held, _, _, before, rfl⟩ | ⟨rfl, _⟩
  · cases credited
    rcases CreditTable.credit_put read with ⟨rfl, rfl, rfl⟩ | ⟨_, old⟩
    · exact ⟨earlier, held, counting, before, Nat.sub_le _ _⟩
    · exact ⟨earlier, count, counting, old, Nat.le_refl _⟩
  · cases credited.symm.trans counting
    exact ⟨table, count, credited, read, Nat.le_refl _⟩

namespace Counted

section

variable (counted : queue.Counted entities entered)

include counted

private theorem recount (deadlocks : Nat) : Counted { queue with deadlocks } entities entered :=
  ⟨counted.senders, counted.cells⟩

private theorem departs (charted : queue.Charted) (departs : queue.Departs message after) :
    after.Counted entities entered where
  senders := by
    intro dest index found parcel member
    obtain ⟨before, atDest, listed⟩ := departs.parcels charted found member
    exact counted.senders dest before atDest parcel listed
  cells := by
    obtain ⟨table, credited⟩ := Option.isSome_iff_exists.mp (isCrossing_iff.mp departs.crossing).1
    obtain ⟨count, read, _, grown⟩ := departs.counts credited
    intro held same dest sender amount cell
    cases grown.symm.trans same
    have waits := departs.waiting_eq charted dest sender
    rcases CreditTable.credit_put cell with ⟨rfl, rfl, rfl⟩ | ⟨_, old⟩
    · rw [if_pos (travels_of_crossing departs.crossing)] at waits
      have bounded := counted.cells table credited _ _ count read
      omega
    · have bounded := counted.cells table credited dest sender amount old
      omega

/-- An event is put in, and may wait from then on. -/
theorem insert (serviceable : queue.Serviceable entities)
    (fresh : ∀ other ∈ queue.events, other.key.uid ≠ event.key.uid)
    (inserted : queue.insert event = .ok after) : after.Counted entities (entered + 1) := by
  obtain ⟨list, found, within, rfl⟩ := insert_put inserted
  obtain ⟨_, grown⟩ := serviceable.charted.put event found within fresh
  refine ⟨fun dest index atDest parcel member => ?_,
    fun table credited dest sender count read => ?_⟩
  · rcases (entries_of_enter atDest member).2 with ⟨crossing, _, sender⟩ | ⟨before, there, old,
      present, sender⟩
    · rw [homeLane_of_crossing crossing] at found
      rw [sender]
      exact serviceable.equipped.lane_le found
    · rw [← sender]
      exact counted.senders dest before there old present
  · have bounded := counted.cells table credited dest sender count read
    have atMost : List.countP (fun event => queue.isCrossing event && travels dest sender event)
        (event :: queue.events) ≤ queue.waiting dest sender + 1 := by
      rw [List.countP_cons]
      unfold waiting
      split
      · exact Nat.le_refl _
      · exact Nat.le_succ _
    unfold waiting
    rw [grown.countP_eq]
    change count + List.countP (fun event => queue.isCrossing event && travels dest sender event)
      (event :: queue.events) ≤ _
    omega

private theorem take {lane : Nat} {rest : BarrierList}
    (left : queue.events.Perm (event :: (queue.putLane lane rest).events)) :
    (queue.putLane lane rest).Counted entities entered where
  senders := counted.senders
  cells := by
    intro table credited dest sender count read
    have bounded := counted.cells table credited dest sender count read
    have fewer : (queue.putLane lane rest).waiting dest sender ≤ queue.waiting dest sender :=
      @waiting_le_of_left queue (queue.putLane lane rest) rfl [event] left dest sender
    omega

private theorem consume (consumed : queue.consumeCredit event = .ok after) :
    after.Counted entities entered := by
  have lowered := consumeCredit_le consumed
  obtain ⟨credits, recounts, rfl⟩ := consumeCredit_eq_ok consumed
  refine ⟨counted.senders, fun table credited dest sender count read => ?_⟩
  obtain ⟨earlier, held, counting, before, atMost⟩ := lowered table credited dest sender count read
  have bounded := counted.cells earlier counting dest sender held before
  have same := @waiting_le_of_left queue { queue with credits } recounts.isSome_eq [] (.refl _)
    dest sender
  omega

private theorem takes (charted : queue.Charted) {lane? : Option Nat} {event? : Option Event}
    (takes : queue.Takes lane? event? after) : after.Counted entities entered := by
  cases takes with
  | nothing => exact counted
  | front atFront stays found popped consumed =>
      obtain ⟨restSound, took⟩ := charted.popped atFront found popped
      exact (counted.take (charted.take found restSound took).2).consume consumed

private theorem removing (charted : queue.Charted) {key : EventKey} {event? : Option Event}
    (removing : queue.Removing key event? after) : after.Counted entities entered where
  senders := by
    intro dest index found parcel member
    obtain ⟨before, atDest, listed⟩ := removing.parcels charted found member
    exact counted.senders dest before atDest parcel listed
  cells := by
    cases removing with
    | nothing => exact counted.cells
    | stale => exact counted.cells
    | listed _ _ found restSound _ took =>
        exact (counted.take (charted.take found restSound took).2).cells
    | owned _ found restSound _ took consumed =>
        exact ((counted.take (charted.take found restSound took).2).consume consumed).cells

private theorem drain : queue.drain.2.Counted entities entered where
  senders := by
    intro dest index found
    obtain ⟨before, _, same⟩ := List.mem_map.mp (List.mem_of_getElem? found)
    rw [← same]
    exact List.forall_mem_nil _
  cells := by
    intro table credited dest sender count read
    have bounded := counted.cells table credited dest sender count read
    unfold waiting
    rw [events_drained, List.countP_nil]
    omega

end

private theorem course {departures : List Departure} (course : queue.Course departures after)
    (charted : queue.Charted) (counted : queue.Counted entities entered) :
    after.Counted entities entered := by
  induction course with
  | ends => exact counted
  | departs first _ ih => exact ih (first.charted charted) (counted.departs charted first)

private theorem settle {lane? : Option Nat} (counted : queue.Counted entities entered)
    (charted : queue.Charted) (settles : queue.settle = .ok (lane?, after)) :
    after.Counted entities entered := by
  obtain ⟨departures, last, course, selected, _⟩ := charted.course settles
  obtain ⟨deadlocks, rfl⟩ := select_eq_ok selected
  exact (Counted.course course charted counted).recount deadlocks

theorem perform (counted : queue.Counted entities entered)
    (serviceable : queue.Serviceable entities) {operation : Operation}
    (fresh : operation.Fresh queue.keys) {answer : Answer}
    (performed : queue.perform operation = .ok (answer, after)) :
    after.Counted entities (entered + answer.enters) := by
  have charted := serviceable.charted
  cases perform_eq_ok performed with
  | insert inserts =>
      exact counted.insert serviceable
        (fun other member => fresh other.key (List.mem_map_of_mem member)) inserts
  | reinsert inserts =>
      exact counted.insert serviceable
        (fun other member => fresh other.key (List.mem_map_of_mem member)) inserts
  | next settles => exact counted.settle charted settles
  | pop popped =>
      obtain ⟨lane?, settled, settles, settledCharted, takes⟩ := charted.takes popped
      exact (counted.settle charted settles).takes settledCharted takes
  | erase erased => exact counted.removing charted (charted.removing erased)
  | drain => exact counted.drain

end Counted

theorem new_counted (accepted : configuration.Accepted) (built : new configuration = .ok queue) :
    queue.Counted configuration.entities 0 := by
  obtain ⟨_, made, sound, noEvents, _, _, _, _, _, _, backed⟩ := new_sound accepted
  cases made.symm.trans built
  refine ⟨fun dest index found parcel member => ?_,
    fun table credited dest sender count read => ?_⟩
  · obtain ⟨message, held, _⟩ := (sound.tracks dest index found parcel member).resolve_left
      List.not_mem_nil
    rw [noEvents] at held
    cases held
  · have blank := backed table credited dest sender count read
    unfold waiting
    rw [noEvents] at blank ⊢
    exact blank

end LaneQueue

end EventKernel.Queue
