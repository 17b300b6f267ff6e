import EventKernel.Proofs.InterfaceCredit
import EventKernel.Proofs.SettledLanes
import EventKernel.Proofs.StrayEntries

set_option autoImplicit false

/-! How deadlocks are resolved. The index tells each destination which messages are on their way to
it. As long as it lists only messages that are held, the lane of the least event is safe: there is
always something to select, and when every safe front waits for credit, it is the least event of all
that goes ahead. Every deadlock that is counted is one departure of a message whose sender lacks
credit, and every such departure is counted.

A removal that names the sender of a message as its owner leaves the entry of the message behind.
Only such removals do; after one of them the least event may be found unsafe. -/

namespace EventKernel.Queue

namespace LaneQueue

variable {queue after : LaneQueue} {configuration : Configuration} {message : Event}

/-- A front that is found safe. -/
structure SafeFront (queue : LaneQueue) (lane : Nat) (front : Event) : Prop where
  atFront : queue.FrontAt lane front
  safe : queue.isSafe lane front.key = .ok true

def Stuck (queue : LaneQueue) (configuration : Configuration) : Prop :=
  ∀ lane front, queue.SafeFront lane front → queue.lacksCredit configuration front = true

/-- What is selected as long as the least event is safe. -/
structure SelectsSafely (queue : LaneQueue) (configuration : Configuration) : Prop where
  least : ∀ event, event.LeastOf queue.events → queue.SafeFront (queue.homeLane event) event
  idle : queue.events = [] → queue.select = .ok (none, queue)
  ready : ¬ queue.Stuck configuration → ∃ lane front, queue.SafeFront lane front ∧
    queue.lacksCredit configuration front = false ∧ queue.select = .ok (some lane, queue)
  deadlock : queue.Stuck configuration → ∀ event, event.LeastOf queue.events →
    queue.select = .ok (some (queue.homeLane event),
      { queue with deadlocks := queue.deadlocks + 1 })

structure Reliable (queue : LaneQueue) (configuration : Configuration) : Prop where
  serviceable : queue.Serviceable configuration.entities
  tracks : queue.Tracks []
  counts : queue.CountsFor configuration

namespace Reliable

section

variable (reliable : queue.Reliable configuration)

include reliable

private theorem safeFront_iff {lane : Nat} {front : Event} :
    queue.SafeFront lane front ↔ queue.FrontAt lane front ∧ queue.SafeAt lane front.key := by
  constructor
  · rintro ⟨atFront, safe⟩
    obtain ⟨answer, checked, exactly⟩ :=
      (reliable.serviceable.charted.judged reliable.serviceable.equipped).safety _ _ atFront
    cases checked.symm.trans safe
    exact ⟨atFront, exactly.mp rfl⟩
  · rintro ⟨atFront, safe⟩
    obtain ⟨answer, checked, exactly⟩ :=
      (reliable.serviceable.charted.judged reliable.serviceable.equipped).safety _ _ atFront
    exact ⟨atFront, by rw [checked, exactly.mpr safe]⟩

private theorem selection : ∃ lane? after, queue.select = .ok (lane?, after) ∧
    queue.Selection lane? after := by
  have ⟨charted, equipped⟩ := reliable.serviceable
  obtain ⟨lane?, after, selected, verdict⟩ := (charted.judged equipped).select
  exact ⟨lane?, after, selected, verdict.selection charted equipped reliable.tracks⟩

private theorem blocked_iff {lane : Nat} {front : Event} (atFront : queue.FrontAt lane front) :
    queue.Blocked lane front ↔ queue.lacksCredit configuration front = true :=
  reliable.counts.blocked_iff reliable.serviceable.charted reliable.serviceable.equipped atFront

private theorem least_safe {event : Event} (leastOf : event.LeastOf queue.events) :
    queue.SafeFront (queue.homeLane event) event :=
  reliable.safeFront_iff.mpr
    (reliable.serviceable.charted.least_safe reliable.serviceable.equipped reliable.tracks leastOf)

private theorem selectsSafely : queue.SelectsSafely configuration := by
  obtain ⟨lane?, after, selected, selection⟩ := reliable.selection
  refine ⟨fun _ => reliable.least_safe, fun nothing => ?_, fun free => ?_,
    fun stuck event leastOf => ?_⟩
  · cases selection with
    | nothing => exact selected
    | ready _ _ atFront => exact absurd (nothing ▸ atFront.mem) List.not_mem_nil
    | deadlock _ _ atFront => exact absurd (nothing ▸ atFront.mem) List.not_mem_nil
  · cases selection with
    | nothing noEvents =>
        refine absurd (fun lane front safe => ?_) free
        exact absurd (noEvents ▸ safe.atFront.mem) List.not_mem_nil
    | ready lane front atFront safe unblocked =>
        refine ⟨lane, front, reliable.safeFront_iff.mpr ⟨atFront, safe⟩, ?_, selected⟩
        exact Bool.eq_false_iff.mpr fun lacks =>
          unblocked ((reliable.blocked_iff atFront).mpr lacks)
    | deadlock _ _ _ stuck =>
        refine absurd (fun lane front safe => ?_) free
        exact (reliable.blocked_iff safe.atFront).mp
          (stuck lane front safe.atFront (reliable.safeFront_iff.mp safe).2)
  · cases selection with
    | nothing noEvents => exact absurd (noEvents ▸ leastOf.member) List.not_mem_nil
    | ready lane front atFront safe unblocked =>
        have lacks := stuck lane front (reliable.safeFront_iff.mpr ⟨atFront, safe⟩)
        exact absurd ((reliable.blocked_iff atFront).mpr lacks) unblocked
    | deadlock lane front atFront _ least =>
        have tied := Nat.le_antisymm (least.below event leastOf.member)
          (leastOf.below front atFront.mem)
        have same := reliable.serviceable.charted.eq_of_uid least.member leastOf.member
          (EventKey.rank_eq_iff.mp tied).2
        rw [selected, ← reliable.serviceable.charted.front_home atFront, same]

/-- A message departs for want of anything better, or its sender holds credit. -/
theorem departed (departs : queue.Departs message after) :
    queue.lacksCredit configuration message = true ∧ message.LeastOf queue.events ∧
        after.deadlocks = queue.deadlocks + 1 ∨
      queue.lacksCredit configuration message = false ∧ after.deadlocks = queue.deadlocks := by
  cases departs with
  | @leaves lane deadlocks _ _ _ chosen atFront _ _ _ converted =>
      obtain ⟨_, _, _, _, rfl⟩ := convert_eq_ok converted
      obtain ⟨lane?, selected, selects, selection⟩ := reliable.selection
      obtain ⟨sameLane, sameQueue⟩ := Prod.mk.inj (Except.ok.inj (chosen.symm.trans selects))
      cases selection with
      | nothing => cases sameLane
      | ready other front atOther _ unblocked =>
          cases sameLane
          cases atOther.unique atFront
          have same : deadlocks = queue.deadlocks := congrArg LaneQueue.deadlocks sameQueue
          refine .inr ⟨Bool.eq_false_iff.mpr fun lacks => ?_, same⟩
          exact unblocked ((reliable.blocked_iff atFront).mpr lacks)
      | deadlock other front atOther stuck least =>
          cases sameLane
          cases atOther.unique atFront
          have more : deadlocks = queue.deadlocks + 1 := congrArg LaneQueue.deadlocks sameQueue
          refine .inl ⟨?_, least, more⟩
          have safe := reliable.safeFront_iff.mp (reliable.least_safe least)
          rw [reliable.serviceable.charted.front_home atFront] at safe
          exact (reliable.blocked_iff atFront).mp (stuck _ _ atFront safe.2)

private theorem departs (departs : queue.Departs message after) : after.Reliable configuration :=
  have kept := Serviceable.departs departs reliable.serviceable
  ⟨kept, departs.tracks reliable.serviceable.charted reliable.tracks,
    reliable.counts.outline departs.outline kept.equipped⟩

end

private theorem course {departures : List Departure} (course : queue.Course departures after)
    (reliable : queue.Reliable configuration) : after.Reliable configuration := by
  induction course with
  | ends => exact reliable
  | departs first _ ih => exact ih (reliable.departs first)

end Reliable

/-- A message has left a queue that selects safely: it was the least event of all if its sender
lacked credit, and its sender held credit from all neighbours otherwise. -/
structure Departure.Accounted (departure : Departure) (configuration : Configuration) : Prop where
  selects : departure.queue.SelectsSafely configuration
  least : departure.queue.lacksCredit configuration departure.message = true →
    departure.message.LeastOf departure.queue.events
  holds : departure.queue.lacksCredit configuration departure.message = false →
    ∀ neighbour ∈ configuration.neighbours (laneOf departure.message.prevContext - 1), ∃ count,
      departure.queue.credit? (laneOf departure.message.prevContext - 1) neighbour =
        some (count + 1)

/-- How many of the messages left while their senders lacked credit. -/
def starved (configuration : Configuration) (departures : List Departure) : Nat :=
  departures.countP fun departure => departure.queue.lacksCredit configuration departure.message

private theorem Course.accounted {departures : List Departure}
    (course : queue.Course departures after) (reliable : queue.Reliable configuration) :
    after.deadlocks = queue.deadlocks + starved configuration departures ∧
      ∀ departure ∈ departures, departure.Accounted configuration := by
  induction course with
  | ends => exact ⟨rfl, List.forall_mem_nil _⟩
  | @departs queue next after message later first rest ih =>
      obtain ⟨counted, accounted⟩ := ih (reliable.departs first)
      have sender : laneOf message.prevContext ≤ configuration.entities := by
        obtain ⟨others, held, _⟩ := first.moved reliable.serviceable.charted
        exact (reliable.serviceable.addressed_of_crossing
          (held.mem_iff.mpr List.mem_cons_self) first.crossing).2 reliable.counts.counted
      unfold starved
      rw [List.countP_cons, counted]
      refine ⟨?_, List.forall_mem_cons.mpr ⟨⟨reliable.selectsSafely, fun lacks => ?_,
        reliable.counts.holds_of_not_lacks first.crossing sender⟩, accounted⟩⟩
      · unfold starved
        rcases reliable.departed first with ⟨lacks, _, more⟩ | ⟨has, same⟩
        · rw [lacks, more, if_pos rfl]
          omega
        · rw [has, same, if_neg Bool.false_ne_true]
          omega
      · rcases reliable.departed first with ⟨_, least, _⟩ | ⟨has, _⟩
        · exact least
        · exact absurd (has.symm.trans lacks) Bool.false_ne_true

end LaneQueue

/-- A removal that names a message by its serial number under its sender, where it waits. -/
def Operation.Bypasses (queue : LaneQueue) : Operation → Prop
  | .erase key => ∃ event ∈ queue.events, queue.isCrossing event = true ∧
      event.key.uid = key.uid ∧ event.prevContext = key.context
  | .insert _ | .reinsert _ | .next | .pop | .drain => False

/-- The messages that depart during an operation, each with the queue that it leaves. -/
def Operation.Sends (queue : LaneQueue) (departures : List LaneQueue.Departure) : Operation → Prop
  | .next | .pop => ∃ lane? settled last, queue.settle = .ok (lane?, settled) ∧
      queue.Course departures last ∧ last.select = .ok (lane?, settled)
  | .insert _ | .reinsert _ | .erase _ | .drain => departures = []

namespace LaneQueue

/-- The states that operations can reach, each with all departures so far. Serial numbers of events
held are never used again, and no removal bypasses the index. -/
inductive Logs (start : LaneQueue) : List Departure → LaneQueue → Prop
  | start : Logs start [] start
  | step {log departures : List Departure} {queue after : LaneQueue} {answer : Answer}
      (operation : Operation) (earlier : Logs start log queue)
      (fresh : operation.Fresh queue.keys) (indexed : ¬ operation.Bypasses queue)
      (performed : queue.perform operation = .ok (answer, after))
      (sends : operation.Sends queue departures) : Logs start (log ++ departures) after

variable {queue after : LaneQueue} {configuration : Configuration}

private theorem Charted.sends (charted : queue.Charted) {operation : Operation} {answer : Answer}
    (performed : queue.perform operation = .ok (answer, after)) :
    ∃ departures, operation.Sends queue departures := by
  cases perform_eq_ok performed with
  | insert | reinsert | erase | drain => exact ⟨[], rfl⟩
  | next settles =>
      obtain ⟨departures, last, course, selected, _⟩ := charted.course settles
      exact ⟨departures, _, _, last, settles, course, selected⟩
  | pop popped =>
      obtain ⟨lane?, settled, settles, _⟩ := charted.takes popped
      obtain ⟨departures, last, course, selected, _⟩ := charted.course settles
      exact ⟨departures, lane?, settled, last, settles, course, selected⟩

namespace Reliable

variable (reliable : queue.Reliable configuration)

include reliable

private theorem strands_nothing {operation : Operation} (indexed : ¬ operation.Bypasses queue)
    {answer : Answer} (performed : queue.perform operation = .ok (answer, after)) :
    queue.strandedBy operation answer = [] := by
  have charted := reliable.serviceable.charted
  refine strandedBy_eq_nil performed fun key event asked erased crossing => ?_
  have removing := charted.removing erased
  rcases removing.named_of_crossing charted reliable.tracks rfl crossing with own | ⟨uid, sender⟩
  · exact own
  · have held := (removing.left charted).mem_iff.mpr List.mem_cons_self
    rw [asked] at indexed
    exact absurd ⟨event, held, crossing, uid, sender⟩ indexed

private theorem perform_tracks {operation : Operation} (fresh : operation.Fresh queue.keys)
    (indexed : ¬ operation.Bypasses queue) {answer : Answer}
    (performed : queue.perform operation = .ok (answer, after)) : after.Tracks [] := by
  have kept := reliable.serviceable.charted.perform_tracks reliable.tracks fresh performed
  rw [reliable.strands_nothing indexed performed] at kept
  exact kept

private theorem perform {operation : Operation} (fresh : operation.Fresh queue.keys)
    (indexed : ¬ operation.Bypasses queue) {answer : Answer}
    (performed : queue.perform operation = .ok (answer, after)) : after.Reliable configuration :=
  have kept := reliable.serviceable.perform fresh performed
  ⟨kept, reliable.perform_tracks fresh indexed performed,
    reliable.counts.outline (perform_outline performed) kept.equipped⟩

private theorem settled_counts {lane? : Option Nat} {last : LaneQueue}
    {departures : List Departure} (settles : queue.settle = .ok (lane?, after))
    (course : queue.Course departures last) (selected : last.select = .ok (lane?, after)) :
    after.conversions = queue.conversions + departures.length ∧
      after.deadlocks = queue.deadlocks + starved configuration departures ∧
      ∀ departure ∈ departures, departure.Accounted configuration := by
  have ⟨charted, equipped⟩ := (reliable.course course).serviceable
  obtain ⟨_, _, rests⟩ := reliable.serviceable.rests settles
  obtain ⟨deadlocks, rfl⟩ := select_eq_ok selected
  obtain ⟨chosen?, answer, selects, verdict⟩ := (charted.judged equipped).select
  cases selected.symm.trans selects
  have unchanged : { last with deadlocks } = last := by
    refine verdict.eq_of_stays fun lane front chosen atFront => ?_
    obtain ⟨rested, atRested, stays⟩ := rests.stays lane chosen
    rw [atFront.unique atRested]
    exact stays
  rw [unchanged]
  obtain ⟨counted, accounted⟩ := course.accounted reliable
  exact ⟨course.conversions, counted, accounted⟩

/-- Only departures are counted, and only while messages depart are deadlocks. -/
theorem perform_counts {operation : Operation} {answer : Answer}
    (performed : queue.perform operation = .ok (answer, after)) {departures : List Departure}
    (sends : operation.Sends queue departures) :
    after.conversions = queue.conversions + departures.length ∧
      after.deadlocks = queue.deadlocks + starved configuration departures ∧
      ∀ departure ∈ departures, departure.Accounted configuration := by
  have inserted {event : Event} {last : LaneQueue} (inserts : queue.insert event = .ok last) :
      last.conversions = queue.conversions ∧ last.deadlocks = queue.deadlocks := by
    obtain ⟨_, _, _, rfl⟩ := insert_eq_ok inserts
    exact ⟨rfl, rfl⟩
  cases perform_eq_ok performed with
  | insert inserts =>
      cases sends
      exact ⟨(inserted inserts).1, (inserted inserts).2, List.forall_mem_nil _⟩
  | reinsert inserts =>
      cases sends
      exact ⟨(inserted inserts).1, (inserted inserts).2, List.forall_mem_nil _⟩
  | next settles =>
      obtain ⟨_, _, last, settlesToo, course, selected⟩ := sends
      cases settles.symm.trans settlesToo
      exact reliable.settled_counts settles course selected
  | pop popped =>
      obtain ⟨_, _, _, _, settles, _, _, rfl⟩ := pop_eq_ok popped
      obtain ⟨_, _, last, settlesToo, course, selected⟩ := sends
      cases settles.symm.trans settlesToo
      exact (reliable.settled_counts settles course selected :)
  | erase erased =>
      cases sends
      obtain ⟨_, _, _, _, _, rfl⟩ := erase_eq_ok erased
      exact ⟨rfl, rfl, List.forall_mem_nil _⟩
  | drain =>
      cases sends
      exact ⟨rfl, rfl, List.forall_mem_nil _⟩

end Reliable

private theorem new_reliable (accepted : configuration.Accepted)
    (credits : configuration.strategies.localListsV2 = true) :
    ∃ start, new configuration = .ok start ∧ start.Reliable configuration ∧
      start.conversions = 0 ∧ start.deadlocks = 0 := by
  obtain ⟨start, built, sound, _, _, _, conversions, deadlocks, _⟩ := new_sound accepted
  exact ⟨start, built, ⟨⟨sound.charted, sound.toEquipped⟩, sound.tracks,
    new_countsFor accepted credits built⟩, conversions, deadlocks⟩

private theorem Logs.counts {start : LaneQueue} {log : List Departure} (logs : start.Logs log queue)
    (reliable : start.Reliable configuration) (noConversions : start.conversions = 0)
    (noDeadlocks : start.deadlocks = 0) :
    queue.Reliable configuration ∧ queue.conversions = log.length ∧
      queue.deadlocks = starved configuration log ∧
      ∀ departure ∈ log, departure.Accounted configuration := by
  induction logs with
  | start => exact ⟨reliable, noConversions, noDeadlocks, List.forall_mem_nil _⟩
  | step operation _ fresh indexed performed sends ih =>
      obtain ⟨before, conversions, deadlocks, accounted⟩ := ih
      obtain ⟨converted, met, more⟩ := before.perform_counts performed sends
      refine ⟨before.perform fresh indexed performed, ?_, ?_, ?_⟩
      · rw [converted, conversions, List.length_append]
      · unfold starved at *
        rw [met, deadlocks, List.countP_append]
      · exact List.forall_mem_append.mpr ⟨accounted, more⟩

/-- Whatever the latencies and the boundary, a queue under the credit rule selects safely as long as
no removal bypasses its index: the least event of all is safe, it goes ahead if every safe front
waits for credit, and such departures are all that is counted as deadlocks. With two entities, one
removal that does bypass the index is enough for the least event to be found unsafe and to be
taken all the same. -/
theorem deadlock_resolved_by_least (valid : configuration.validate = .ok (.ok ()))
    (credits : configuration.strategies.localListsV2 = true) :
    ∃ start, new configuration = .ok start ∧
      (∀ log queue, start.Logs log queue →
        queue.SelectsSafely configuration ∧ queue.conversions = log.length ∧
        queue.deadlocks = starved configuration log ∧
        (∀ departure ∈ log, departure.Accounted configuration) ∧
        ∀ operation answer after, queue.perform operation = .ok (answer, after) →
          ∃ departures, operation.Sends queue departures) ∧
      (2 ≤ configuration.entities → ∃ queue event, start.Attains [event.key] queue ∧
        event.LeastOf queue.events ∧ queue.FrontAt (queue.homeLane event) event ∧
        queue.isSafe (queue.homeLane event) event.key = .ok false ∧
        queue.select = .ok (some (queue.homeLane event), queue)) := by
  have accepted := Configuration.accepted_of_validate valid
  obtain ⟨start, built, reliable, noConversions, noDeadlocks⟩ := new_reliable accepted credits
  refine ⟨start, built, fun log queue logs => ?_, fun several => ?_⟩
  · obtain ⟨kept, conversions, deadlocks, accounted⟩ :=
      logs.counts reliable noConversions noDeadlocks
    exact ⟨kept.selectsSafely, conversions, deadlocks, accounted,
      fun _ _ _ => kept.serviceable.charted.sends⟩
  · obtain ⟨_, queue, event, made, attained, found⟩ := exists_refused_least accepted credits several
    cases built.symm.trans made
    exact ⟨queue, event, attained, found⟩

/-- A message whose sender holds no credit departs alone, and one deadlock is counted. -/
theorem deadlock_resolved_by_least_waiting :
    ∃ start departure queue, new waitingConfiguration = .ok start ∧
      start.Logs [departure] queue ∧ queue.deadlocks = 1 ∧
      departure.queue.lacksCredit waitingConfiguration departure.message = true ∧
      departure.message.LeastOf departure.queue.events := by
  obtain ⟨start, built, safely, _⟩ :=
    deadlock_resolved_by_least (show waitingConfiguration.validate = .ok (.ok ()) from rfl) rfl
  cases show (.ok (waitingQueue [] [] []) : Except Fault LaneQueue) = .ok start from built
  have inserted : (waitingQueue [] [] []).perform (.insert blockedMessage) =
    .ok (.inserted (.ok blockedMessage.key), waitingQueue [blockedMessage] [] []) := rfl
  have first : (waitingQueue [] [] []).Logs [] (waitingQueue [blockedMessage] [] []) :=
    .step (.insert blockedMessage) .start (by decide) id inserted rfl
  obtain ⟨seen, looked, deadlocks, conversions⟩ : ∃ seen,
      (waitingQueue [blockedMessage] [] []).perform .next =
        .ok (.next (some blockedMessage.key), seen) ∧ seen.deadlocks = 1 ∧ seen.conversions = 1 :=
    ⟨_, rfl, rfl, rfl⟩
  obtain ⟨departures, sends⟩ := (safely _ _ first).2.2.2.2 _ _ _ looked
  have second : (waitingQueue [] [] []).Logs departures seen :=
    .step .next first trivial id looked sends
  obtain ⟨_, converted, met, accounted, _⟩ := safely _ _ second
  obtain ⟨departure, rfl⟩ := List.length_eq_one_iff.mp (converted.symm.trans conversions)
  have lacks : departure.queue.lacksCredit waitingConfiguration departure.message = true := by
    have counted := met.symm.trans deadlocks
    unfold starved at counted
    exact (List.countP_eq_length.mp counted) departure (List.mem_singleton_self _)
  exact ⟨_, departure, seen, rfl, second, deadlocks, lacks,
    (accounted departure (List.mem_singleton_self _)).least lacks⟩

end LaneQueue

end EventKernel.Queue
