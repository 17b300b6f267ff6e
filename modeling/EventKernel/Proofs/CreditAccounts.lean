import EventKernel.Proofs.InterfaceCredit
import EventKernel.Proofs.SettledLanes

set_option autoImplicit false

/-! The credit table as an account of the messages that have arrived. A cell is raised when a
message is delivered, be it that the next event was only looked at, and lowered when the message is
handed out. So each cell counts the messages from its sender that have arrived and are still held,
and none is lowered below zero.

A removal gives the credit of a message back if it names the owner. A removal under another name may
find the message all the same, through an entry that was left in the index. Then its credit is never
given back, and the cell counts it among the messages held from then on. -/

namespace EventKernel.Queue

namespace LaneQueue

variable {queue taken after : LaneQueue} {configuration : Configuration} {lost : List Event}
  {event message : Event}

/-- Every cell counts the messages that have arrived and are held or were lost. -/
def Balanced (queue : LaneQueue) (lost : List Event) : Prop :=
  ∀ table, queue.credits = some table → ∀ dest sender count,
    table.credit dest sender = .ok count →
      count = arrivals queue.events dest sender + arrivals lost dest sender ∧
        count < CreditTable.countLimit

/-- A message that has arrived gives its credit back; nothing else holds credit. -/
theorem consumeCredit_counts (consumed : queue.consumeCredit event = .ok after)
    {table : CreditTable} (credited : queue.credits = some table) :
    (∃ dest sender count, event.kind = .incoming ∧ travels dest sender event = true ∧
      table.credit dest sender = .ok count ∧
      after = { queue with credits := some (table.put dest sender (count - 1)) }) ∨
    after = queue ∧
      ∀ dest sender, (event.kind == .incoming && travels dest sender event) = false := by
  unfold LaneQueue.consumeCredit at consumed
  split at consumed
  · rename_i dest sender held arrived atDest fromSender counted
    cases credited.symm.trans counted
    obtain ⟨discounted, consumes, same⟩ := bind_eq_ok consumed
    obtain ⟨count, read, rfl⟩ := CreditTable.consume_eq_ok consumes
    refine .inl ⟨dest.index, sender.index, count, arrived, ?_, read, (Except.ok.inj same).symm⟩
    unfold travels
    rw [atDest, fromSender, laneOf, laneOf, BEq.rfl, BEq.rfl]
    rfl
  · rename_i other
    refine .inr ⟨(Except.ok.inj consumed).symm, fun dest sender => ?_⟩
    apply Bool.eq_false_iff.mpr
    intro arrived
    unfold travels at arrived
    simp only [Bool.and_eq_true, beq_iff_eq] at arrived
    obtain ⟨kind, atDest, fromSender⟩ := arrived
    cases owner : event.key.context with
    | global => rw [owner] at atDest; cases atDest
    | node dest =>
        cases cause : event.prevContext with
        | global => rw [cause] at fromSender; cases fromSender
        | node sender => exact other dest sender table kind owner cause credited

namespace Balanced

variable (balanced : queue.Balanced lost)

include balanced

private theorem unchanged (same : after.credits = queue.credits) {more : List Event}
    (counted : ∀ dest sender, arrivals after.events dest sender + arrivals more dest sender =
      arrivals queue.events dest sender + arrivals lost dest sender) : after.Balanced more := by
  intro table credited dest sender count read
  rw [counted]
  exact balanced table (same ▸ credited) dest sender count read

private theorem departs (charted : queue.Charted) (departs : queue.Departs message after) :
    after.Balanced lost := by
  obtain ⟨table, credited⟩ := Option.isSome_iff_exists.mp (isCrossing_iff.mp departs.crossing).1
  obtain ⟨count, read, fits, counted⟩ := departs.counts credited
  obtain ⟨others, before, arrived⟩ := departs.moved charted
  have grown := arrivals_delivered (isCrossing_iff.mp departs.crossing).2.1 before arrived
  intro held same dest sender amount cell
  cases counted.symm.trans same
  rw [grown]
  rcases CreditTable.credit_put cell with ⟨rfl, rfl, rfl⟩ | ⟨elsewhere, old⟩
  · have exactly := balanced table credited _ _ count read
    rw [if_pos (travels_of_crossing departs.crossing)]
    omega
  · have apart : travels dest sender message = false := Bool.eq_false_iff.mpr fun also =>
      elsewhere (travels_unique also (travels_of_crossing departs.crossing))
    rw [apart]
    exact balanced table credited _ _ amount old

/-- An event that leaves gives back the credit that it holds. -/
theorem consume (left : queue.events.Perm (event :: taken.events))
    (same : taken.credits = queue.credits) (consumed : taken.consumeCredit event = .ok after) :
    after.Balanced lost := by
  intro held counted dest sender amount cell
  have credited : taken.credits.isSome = true := by
    obtain ⟨credits, recounts, rfl⟩ := consumeCredit_eq_ok consumed
    rw [← recounts.isSome_eq, show credits = some held from counted]
    rfl
  obtain ⟨table, credited⟩ := Option.isSome_iff_exists.mp credited
  have before := balanced table (same.symm.trans credited)
  have shrunk := arrivals_cons event taken.events
  rw [← arrivals_perm left] at shrunk
  rcases consumeCredit_counts consumed credited with
    ⟨place, source, count, arrived, travelled, read, rfl⟩ | ⟨rfl, uncounted⟩
  · cases counted
    change amount = arrivals taken.events dest sender + _ ∧ _
    have gone := shrunk dest sender
    rw [arrived, BEq.rfl, Bool.true_and] at gone
    rcases CreditTable.credit_put cell with ⟨rfl, rfl, rfl⟩ | ⟨elsewhere, old⟩
    · have exactly := before _ _ count read
      rw [travelled, if_pos rfl] at gone
      omega
    · have exactly := before _ _ amount old
      have apart : travels dest sender event = false := Bool.eq_false_iff.mpr fun also =>
        elsewhere (travels_unique also travelled)
      rw [apart, if_neg Bool.false_ne_true] at gone
      omega
  · cases credited.symm.trans counted
    have exactly := before _ _ amount cell
    rw [shrunk, uncounted, if_neg Bool.false_ne_true] at exactly
    exact exactly

end Balanced

/-- An event that is taken under the name of another than its owner. -/
def forfeited (key : EventKey) (event? : Option Event) : List Event :=
  event?.toList.filter fun event => event.key.context != key.context

private theorem forfeited_some (key : EventKey) (event : Event) :
    forfeited key (some event) = if event.key.context = key.context then [] else [event] := by
  unfold forfeited
  rw [Option.toList_some, List.filter_cons, List.filter_nil]
  by_cases own : event.key.context = key.context
  · rw [if_pos own, own, bne_self_eq_false, if_neg Bool.false_ne_true]
  · rw [if_neg own, bne_iff_ne.mpr own, if_pos rfl]

/-- Entries lead away from their own lane, what has arrived came from another entity, and the cells
are balanced. -/
structure Books (queue : LaneQueue) (entities : Nat) (lost : List Event) : Prop where
  abroad : ∀ (dest : Nat) (index : Outbound), queue.outbound[dest]? = some index →
    ∀ parcel ∈ index.parcels, parcel.2 ≠ dest
  arrived : ∀ event ∈ queue.events, event.kind = .incoming → ∃ dest sender,
    dest < entities ∧ sender < entities ∧ travels dest sender event = true
  balanced : queue.Balanced lost

namespace Books

variable {entities : Nat}

section

variable (books : queue.Books entities lost)

include books

private theorem recount (deadlocks : Nat) : Books { queue with deadlocks } entities lost :=
  ⟨books.abroad, books.arrived, books.balanced⟩

private theorem departs (serviceable : queue.Serviceable entities)
    (departs : queue.Departs message after) : after.Books entities lost where
  abroad := by
    intro dest index found parcel member
    obtain ⟨before, atDest, listed⟩ := departs.parcels serviceable.charted found member
    exact books.abroad dest before atDest parcel listed
  arrived := by
    obtain ⟨others, held, grown⟩ := departs.moved serviceable.charted
    intro event member kind
    rcases List.mem_cons.mp (grown.mem_iff.mp member) with rfl | other
    · obtain ⟨counted, _, fromEntity, toEntity, _⟩ := isCrossing_iff.mp departs.crossing
      obtain ⟨destKnown, senderKnown⟩ := serviceable.addressed_of_crossing
        (held.mem_iff.mpr List.mem_cons_self) departs.crossing
      have senderKnown := senderKnown counted
      have travelled := travels_of_crossing departs.crossing
      exact ⟨_, _, by omega, by omega, travelled⟩
    · exact books.arrived event (held.mem_iff.mpr (List.mem_cons_of_mem _ other)) kind
  balanced := books.balanced.departs serviceable.charted departs

private theorem insert (charted : queue.Charted)
    (fresh : ∀ other ∈ queue.events, other.key.uid ≠ event.key.uid)
    (sent : event.kind ≠ .incoming) (inserted : queue.insert event = .ok after) :
    after.Books entities lost := by
  obtain ⟨list, found, within, rfl⟩ := insert_put inserted
  obtain ⟨_, grown⟩ := charted.put event found within fresh
  refine ⟨fun dest index atDest parcel member => ?_, fun other member kind => ?_,
    books.balanced.unchanged (by rfl) fun dest sender => ?_⟩
  · rcases (entries_of_enter atDest member).2 with ⟨crossing, here, sender⟩ | ⟨before, there,
      old, present, sender⟩
    · rw [sender, here]
      exact fun same => (isCrossing_iff.mp crossing).2.2.2.2 (laneOf_injective same)
    · rw [← sender]
      exact books.abroad dest before there old present
  · rcases List.mem_cons.mp (grown.mem_iff.mp member) with rfl | present
    · exact absurd kind sent
    · exact books.arrived other present kind
  · rw [arrivals_perm grown, arrivals_cons, beq_eq_false_iff_ne.mpr sent]
    rfl

private theorem takes (charted : queue.Charted) {lane? : Option Nat} {event? : Option Event}
    (takes : queue.Takes lane? event? after) : after.Books entities lost := by
  cases takes with
  | nothing => exact books
  | front atFront stays found popped consumed =>
      obtain ⟨restSound, took⟩ := charted.popped atFront found popped
      have left := (charted.take found restSound took).2
      have balanced := books.balanced.consume left rfl consumed
      obtain ⟨credits, _, rfl⟩ := consumeCredit_eq_ok consumed
      exact ⟨books.abroad, fun other member => books.arrived other
        (left.mem_iff.mpr (List.mem_cons_of_mem _ member)), balanced⟩

/-- Entries lead away from the lane of their destination, and what has arrived is there. So nothing
that has arrived is found through an entry under the name of its owner. -/
private theorem not_arrived_of_listed (charted : queue.Charted) {key : EventKey} {index : Outbound}
    {sender : Nat} {list : BarrierList}
    (atDest : queue.outbound[laneOf key.context]? = some index)
    (entry : (key, sender) ∈ index.parcels) (found : queue.lanes[sender]? = some list)
    (member : event ∈ list.events) (own : event.key.context = key.context) :
    event.kind ≠ .incoming := by
  intro kind
  refine books.abroad _ _ atDest _ entry ?_
  have home := charted.housed _ _ found event member
  have stays : queue.isCrossing event = false :=
    not_crossing_of_kind (by rw [kind]; exact EventKind.noConfusion)
  rw [homeLane_of_not_crossing stays, own] at home
  exact home.symm

/-- A removal that finds an entry gives no credit back. But there it finds nothing that has arrived
and whose owner it names. -/
theorem removing (charted : queue.Charted) {key : EventKey} {event? : Option Event}
    (removing : queue.Removing key event? after) :
    after.Books entities (forfeited key event? ++ lost) := by
  have left := removing.left charted
  refine ⟨fun dest index found parcel member => ?_, fun other member => books.arrived other
    (left.mem_iff.mpr (List.mem_append_right _ member)), ?_⟩
  · obtain ⟨before, atDest, listed⟩ := removing.parcels charted found member
    exact books.abroad dest before atDest parcel listed
  cases removing with
  | nothing => exact books.balanced
  | stale => exact books.balanced.unchanged (by rfl) fun _ _ => rfl
  | @listed index lane list rest event atDest entry found restSound named took =>
      have left := (charted.take found restSound took).2
      refine books.balanced.unchanged (by rfl) fun dest sender => ?_
      have shrunk := arrivals_cons event (queue.putLane lane rest).events dest sender
      rw [← arrivals_perm left] at shrunk
      rw [forfeited_some]
      split
      · rename_i own
        have waits := books.not_arrived_of_listed charted atDest entry found
          (took.mem_iff.mpr List.mem_cons_self) own
        rw [beq_eq_false_iff_ne.mpr waits] at shrunk
        exact congrArg (· + arrivals lost dest sender) shrunk.symm
      · rw [List.singleton_append, arrivals_cons]
        change arrivals (queue.putLane lane rest).events dest sender + _ = _
        omega
  | @owned list rest event _ _ found restSound named took consumed =>
      have left := (charted.take found restSound took).2
      have balanced := books.balanced.consume left rfl consumed
      rw [forfeited_some]
      split
      · exact balanced
      · rename_i other
        refine balanced.unchanged rfl fun dest sender => ?_
        have crossing : queue.isCrossing event = true := by
          refine (Bool.not_eq_false _).mp fun stays => ?_
          have home := charted.housed _ _ found event (took.mem_iff.mpr List.mem_cons_self)
          rw [homeLane_of_not_crossing stays] at home
          exact other (laneOf_injective home)
        rw [List.singleton_append,
          arrivals_cons_outgoing (isCrossing_iff.mp crossing).2.1]

end

private theorem course {departures : List Departure} (course : queue.Course departures after)
    (serviceable : queue.Serviceable entities) (books : queue.Books entities lost) :
    after.Books entities lost := by
  induction course with
  | ends => exact books
  | departs first _ ih =>
      exact ih (Serviceable.departs first serviceable) (books.departs serviceable first)

private theorem settle {lane? : Option Nat} (books : queue.Books entities lost)
    (serviceable : queue.Serviceable entities)
    (settles : queue.settle = .ok (lane?, after)) : after.Books entities lost := by
  obtain ⟨departures, last, course, selected, _⟩ := serviceable.charted.course settles
  obtain ⟨deadlocks, rfl⟩ := select_eq_ok selected
  exact (Books.course course serviceable books).recount deadlocks

end Books

end LaneQueue

/-- Puts in nothing as if it had arrived, and takes events one at a time. -/
def Operation.Trades : Operation → Prop
  | .insert event | .reinsert event => event.kind ≠ .incoming
  | .next | .pop | .erase _ => True
  | .drain => False

/-- What an operation takes under the name of another than its owner. -/
def Operation.forfeits : Operation → Answer → List Event
  | .erase key, .taken event? => LaneQueue.forfeited key event?
  | _, _ => []

namespace LaneQueue

/-- The states that operations can reach, each with what was taken under the name of another than
its owner. Serial numbers of events held are never used again. -/
inductive Trades (start : LaneQueue) : List Event → LaneQueue → Prop
  | start : Trades start [] start
  | step {lost : List Event} {queue after : LaneQueue} {answer : Answer} (operation : Operation)
      (earlier : Trades start lost queue) (fresh : operation.Fresh queue.keys)
      (trades : operation.Trades) (performed : queue.perform operation = .ok (answer, after)) :
      Trades start (operation.forfeits answer ++ lost) after

variable {start queue after : LaneQueue} {configuration : Configuration} {lost : List Event}

private theorem Books.perform {entities : Nat} (books : queue.Books entities lost)
    (serviceable : queue.Serviceable entities) {operation : Operation}
    (fresh : operation.Fresh queue.keys) (trades : operation.Trades) {answer : Answer}
    (performed : queue.perform operation = .ok (answer, after)) :
    after.Books entities (operation.forfeits answer ++ lost) := by
  have charted := serviceable.charted
  cases perform_eq_ok performed with
  | insert inserts =>
      exact books.insert charted
        (fun other member => fresh other.key (List.mem_map_of_mem member)) trades inserts
  | reinsert inserts =>
      exact books.insert charted
        (fun other member => fresh other.key (List.mem_map_of_mem member)) trades inserts
  | next settles => exact books.settle serviceable settles
  | pop popped =>
      obtain ⟨lane?, settled, settles, settledCharted, takes⟩ := charted.takes popped
      exact (books.settle serviceable settles).takes settledCharted takes
  | erase erased => exact books.removing charted (charted.removing erased)
  | drain => exact absurd trades id

private theorem new_books (accepted : configuration.Accepted)
    (built : new configuration = .ok start) :
    start.Serviceable configuration.entities ∧ start.Books configuration.entities [] := by
  obtain ⟨_, made, sound, noEvents, _, _, _, _, _, _, backed⟩ := new_sound accepted
  cases made.symm.trans built
  refine ⟨⟨sound.charted, sound.toEquipped⟩, fun dest index found parcel member => ?_, ?_,
    fun table credited dest sender count read => ?_⟩
  · obtain ⟨message, held, _⟩ := (sound.tracks dest index found parcel member).resolve_left
      List.not_mem_nil
    rw [noEvents] at held
    cases held
  · rw [noEvents]
    exact List.forall_mem_nil _
  · have none_ := backed table credited dest sender count read
    rw [noEvents] at none_ ⊢
    have limit : 0 < CreditTable.countLimit := by decide
    change count ≤ 0 at none_
    change count = 0 ∧ _
    omega

private theorem Trades.books (accepted : configuration.Accepted)
    (credits : configuration.strategies.localListsV2 = true)
    (built : new configuration = .ok start) (trades : start.Trades lost queue) :
    queue.Serviceable configuration.entities ∧ queue.CountsFor configuration ∧
      queue.Books configuration.entities lost := by
  induction trades with
  | start =>
      obtain ⟨serviceable, books⟩ := new_books accepted built
      exact ⟨serviceable, new_countsFor accepted credits built, books⟩
  | step operation _ fresh trades performed ih =>
      obtain ⟨serviceable, counts, books⟩ := ih
      have kept := serviceable.perform fresh performed
      exact ⟨kept, counts.outline (perform_outline performed) kept.equipped,
        books.perform serviceable fresh trades performed⟩

private theorem Balanced.credit? (balanced : queue.Balanced lost)
    (counts : queue.CountsFor configuration)
    {dest sender : Nat} (destKnown : dest < configuration.entities)
    (senderKnown : sender < configuration.entities) :
    queue.credit? dest sender =
        some (arrivals queue.events dest sender + arrivals lost dest sender) ∧
      arrivals queue.events dest sender + arrivals lost dest sender < CreditTable.countLimit := by
  obtain ⟨table, credited, covers, _⟩ := counts
  obtain ⟨count, read⟩ := covers.credit destKnown senderKnown
  obtain ⟨rfl, fits⟩ := balanced table credited dest sender count read
  refine ⟨?_, fits⟩
  unfold LaneQueue.credit?
  rw [credited, Option.bind_some, read]
  rfl

/-- The credit of an entity from another is the number of messages from there that have arrived and
are held, and of those that were lost to removals under another name than that of the owner. No cell
counts less than one for a message that is held, so none is lowered below zero; and an entity may
send once it has such a message from each neighbour. -/
theorem credit_counts_arrivals (valid : configuration.validate = .ok (.ok ()))
    (credits : configuration.strategies.localListsV2 = true) :
    ∃ start, new configuration = .ok start ∧ ∀ lost queue, start.Trades lost queue →
      (∀ dest sender, dest < configuration.entities → sender < configuration.entities →
        queue.credit? dest sender =
            some (arrivals queue.events dest sender + arrivals lost dest sender) ∧
          arrivals queue.events dest sender + arrivals lost dest sender <
            CreditTable.countLimit) ∧
      (∀ event ∈ queue.events, event.kind = .incoming → ∃ dest sender count,
        travels dest sender event = true ∧ queue.credit? dest sender = some (count + 1)) ∧
      ∀ dest, dest < configuration.entities → ∃ table, queue.credits = some table ∧
        table.maySend dest = .ok ((configuration.neighbours dest).all fun neighbour =>
          decide (0 < arrivals queue.events dest neighbour + arrivals lost dest neighbour)) := by
  have accepted := Configuration.accepted_of_validate valid
  obtain ⟨start, built, _⟩ := new_sound accepted
  refine ⟨start, built, fun lost queue trades => ?_⟩
  obtain ⟨_, counts, books⟩ := trades.books accepted credits built
  refine ⟨fun dest sender => books.balanced.credit? counts, fun event member arrived => ?_,
    fun dest known => ?_⟩
  · obtain ⟨dest, sender, destKnown, senderKnown, travelled⟩ := books.arrived event member arrived
    obtain ⟨counted, _⟩ := books.balanced.credit? counts destKnown senderKnown
    have some_ : 0 < arrivals queue.events dest sender := by
      refine List.countP_pos_iff.mpr ⟨event, member, ?_⟩
      rw [arrived, travelled]
      rfl
    refine ⟨dest, sender, arrivals queue.events dest sender + arrivals lost dest sender - 1,
      travelled, ?_⟩
    rw [counted]
    exact congrArg some (by omega)
  · obtain ⟨table, credited, asked⟩ := counts.maySend known
    refine ⟨table, credited, ?_⟩
    rw [asked, List.not_any_eq_all_not]
    refine congrArg Except.ok (Bool.eq_iff_iff.mpr ?_)
    rw [List.all_eq_true, List.all_eq_true]
    refine forall₂_congr fun neighbour member => ?_
    rw [(books.balanced.credit? counts known (counts.neighbours_known known neighbour member)).1,
      decide_eq_true_iff]
    simp only [Bool.not_eq_true', beq_eq_false_iff_ne, ne_eq, Option.some.injEq]
    omega

def returnMessage : Event := ⟨⟨⟨20⟩, ⟨4⟩, .node ⟨0⟩⟩, .outgoing, .node ⟨1⟩, none⟩

/-- A message is taken under the name of its sender, which leaves its entry behind. The entry then
leads to a message that has arrived there, and its credit is lost. -/
theorem credit_counts_arrivals_lost :
    ∃ start queue, new waitingConfiguration = .ok start ∧
      start.Trades [delivered returnMessage, blockedMessage] queue ∧ queue.events = [] ∧
      arrivals [delivered returnMessage, blockedMessage] 0 1 = 1 ∧ queue.credit? 0 1 = some 1 := by
  obtain ⟨start, built, counted⟩ :=
    credit_counts_arrivals (show waitingConfiguration.validate = .ok (.ok ()) from rfl) rfl
  cases show (.ok (waitingQueue [] [] []) : Except Fault LaneQueue) = .ok start from built
  have outgoing : EventKind.outgoing ≠ .incoming := EventKind.noConfusion
  have first : (waitingQueue [] [] []).Trades [] (waitingQueue [blockedMessage] [] []) :=
    .step (.insert blockedMessage) .start (by decide) outgoing rfl
  obtain ⟨left, took⟩ : ∃ left, (waitingQueue [blockedMessage] [] []).perform
      (.erase ⟨⟨10⟩, ⟨4⟩, .node ⟨0⟩⟩) = .ok (.taken (some blockedMessage), left) := ⟨_, rfl⟩
  have second : (waitingQueue [] [] []).Trades [blockedMessage] left :=
    .step (.erase ⟨⟨10⟩, ⟨4⟩, .node ⟨0⟩⟩) first trivial trivial took
  obtain ⟨sent, inserted, fresh⟩ : ∃ sent, left.perform (.insert returnMessage) =
      .ok (.inserted (.ok returnMessage.key), sent) ∧
        Operation.Fresh left.keys (.insert returnMessage) := by
    cases took
    exact ⟨_, rfl, by decide⟩
  have third := Trades.step (.insert returnMessage) second fresh outgoing inserted
  obtain ⟨seen, looked⟩ :
      ∃ seen, sent.perform .next = .ok (.next (some returnMessage.key), seen) := by
    cases took
    cases inserted
    exact ⟨_, rfl⟩
  have fourth := Trades.step .next third trivial trivial looked
  obtain ⟨last, lost, noEvents⟩ : ∃ last, seen.perform (.erase blockedMessage.key) =
      .ok (.taken (some (delivered returnMessage)), last) ∧ last.events = [] := by
    cases took
    cases inserted
    cases looked
    exact ⟨_, rfl, rfl⟩
  have fifth := Trades.step (.erase blockedMessage.key) fourth trivial trivial lost
  obtain ⟨credit, _⟩ := (counted _ _ fifth).1 0 1 (by decide) (by decide)
  rw [noEvents] at credit
  exact ⟨_, last, rfl, fifth, noEvents, rfl, credit⟩

end LaneQueue

end EventKernel.Queue
