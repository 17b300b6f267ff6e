import EventKernel.Proofs.LaneDepartures
import EventKernel.Proofs.LaneRemovals

set_option autoImplicit false

/-! The order in which a partitioned queue under the credit rule returns its events. Fronts
may be passed over while they wait for credit, so there is no order of all events. But what
is returned comes before everything else of the same owner, messages that still wait with
their senders included. An event of the simulation is a barrier: nothing overtakes it, and it
is returned only when it is the least of all. This holds in every state that operations can
reach, whatever keys removals were asked for. -/

namespace EventKernel.Queue

namespace LaneQueue

variable {queue after : LaneQueue} {lane : Nat}

def keys (queue : LaneQueue) : List EventKey := queue.events.map Event.key

theorem Course.keys {departures : List Departure} (course : queue.Course departures after)
    (charted : queue.Charted) : after.keys.Perm queue.keys := by
  induction course with
  | ends => exact .refl _
  | departs first _ ih =>
      obtain ⟨others, before, arrived⟩ := first.moved charted
      exact (ih (first.charted charted)).trans
        ((arrived.map Event.key).trans (before.map Event.key).symm)

/-- What settling leaves: the same keys and, if there are any, a front that leads its owner. -/
structure Settling (queue : LaneQueue) (lane? : Option Nat) (after : LaneQueue) : Prop where
  charted : after.Charted
  keys : after.keys.Perm queue.keys
  idle : lane? = none → after.events = []
  leading : ∀ lane, lane? = some lane →
    ∃ front, after.Leading lane front ∧ after.isCrossing front = false

private theorem Charted.settle (charted : queue.Charted) {lane? : Option Nat}
    (settled : queue.settle = .ok (lane?, after)) : queue.Settling lane? after := by
  obtain ⟨departures, last, course, selected, stays⟩ := charted.course settled
  have lastCharted := course.charted charted
  obtain ⟨⟨deadlocks, rfl⟩, idle, leading⟩ := lastCharted.select selected
  refine ⟨lastCharted.recount last.credits deadlocks last.conversions rfl, course.keys charted,
    idle, fun lane chosen => ?_⟩
  obtain ⟨front, leads⟩ := leading lane chosen
  exact ⟨front, leads.recount deadlocks, stays lane front chosen leads.atFront⟩

def HandsOut (queue : LaneQueue) (event? : Option Event) (after : LaneQueue) : Prop :=
  queue.keys.Perm ((event?.map Event.key).toList ++ after.keys)

/-- What a pop leaves: the lanes as they have settled, and the lane of what it returned without
its front. -/
inductive Popping (queue : LaneQueue) : Option Event → LaneQueue → Prop
  | nothing {after : LaneQueue} (settling : queue.Settling none after) : Popping queue none after
  | event {before : LaneQueue} {lane : Nat} {front : Event} {list rest : BarrierList}
      (credits : Option CreditTable) (settling : queue.Settling (some lane) before)
      (leading : before.Leading lane front) (stays : before.isCrossing front = false)
      (found : before.lanes[lane]? = some list) (restSound : rest.Sound)
      (taken : list.events.Perm (front :: rest.events))
      (rule : credits.isSome = before.credits.isSome) :
      Popping queue (some front) { before.putLane lane rest with credits }

theorem Charted.popping (charted : queue.Charted) {event? : Option Event}
    (popped : queue.pop = .ok (event?, after)) : queue.Popping event? after := by
  obtain ⟨lane?, settled, settles, settledCharted, takes⟩ := charted.takes popped
  have settling := charted.settle settles
  cases takes with
  | nothing => exact .nothing settling
  | front atFront stays found removed consumed =>
      obtain ⟨restSound, taken⟩ := settledCharted.popped atFront found removed
      obtain ⟨front, leading, _⟩ := settling.leading _ rfl
      cases leading.atFront.unique atFront
      obtain ⟨credits, recounts, rfl⟩ := consumeCredit_eq_ok consumed
      exact .event credits settling leading stays found restSound taken recounts.isSome_eq

/-- An event that is returned led its owner once its queue had settled. -/
theorem Charted.pop (charted : queue.Charted) {event? : Option Event}
    (popped : queue.pop = .ok (event?, after)) :
    after.Charted ∧ queue.HandsOut event? after ∧ (event? = none → queue.keys = []) ∧
      ∀ event, event? = some event → ∃ (before : LaneQueue) (lane : Nat), before.Charted ∧
        before.keys.Perm queue.keys ∧ before.Leading lane event ∧
        before.isCrossing event = false := by
  cases charted.popping popped with
  | nothing settling =>
      have noKeys : queue.keys = [] := by
        have none_ := settling.keys
        unfold keys at none_
        rw [settling.idle rfl] at none_
        exact none_.symm.eq_nil
      exact ⟨settling.charted, settling.keys.symm, fun _ => noKeys,
        fun event impossible => nomatch impossible⟩
  | @event before lane front list rest credits settling leading stays found restSound taken
      rule =>
      obtain ⟨takenCharted, takenPerm⟩ := settling.charted.take found restSound taken
      refine ⟨takenCharted.recount credits before.deadlocks before.conversions rule, ?_,
        (fun impossible => nomatch impossible), fun event returned => ?_⟩
      · exact settling.keys.symm.trans (takenPerm.map Event.key)
      · cases returned
        exact ⟨before, lane, settling.charted, settling.keys, leading, stays⟩

private theorem Charted.erase (charted : queue.Charted) {key : EventKey} {event? : Option Event}
    (erased : queue.erase key = .ok (event?, after)) :
    after.Charted ∧ queue.HandsOut event? after := by
  have removing := charted.removing erased
  refine ⟨removing.charted charted, ?_⟩
  have left := (removing.left charted).map Event.key
  cases event? with
  | none => exact left
  | some event => exact left

private theorem Charted.insert (charted : queue.Charted) {event : Event}
    (fresh : ∀ key ∈ queue.keys, key.uid ≠ event.key.uid)
    (inserted : queue.insert event = .ok after) :
    after.Charted ∧ after.keys.Perm (event.key :: queue.keys) := by
  have newUid : ∀ other ∈ queue.events, other.key.uid ≠ event.key.uid :=
    fun other member => fresh other.key (List.mem_map_of_mem member)
  obtain ⟨list, found, within, rfl⟩ := insert_put inserted
  obtain ⟨putCharted, grown⟩ := charted.put event found within newUid
  exact ⟨putCharted, grown.map Event.key⟩

theorem Charted.drain (charted : queue.Charted) :
    queue.drain.2.Charted ∧ queue.drain.2.keys = [] := by
  have noEvents := events_drained queue
  refine ⟨{ indexCount := ?_, lists := ?_, housed := ?_, entered := ?_, distinct := ?_ }, ?_⟩
  · unfold LaneQueue.drain
    simp only [List.length_map]
    exact charted.indexCount
  · intro list member
    obtain ⟨before, _, same⟩ := List.mem_map.mp member
    rw [← same]
    exact BarrierList.empty_sound _
  · intro lane list found event member
    obtain ⟨before, _, same⟩ := List.mem_map.mp (List.mem_of_getElem? found)
    rw [← same] at member
    cases member
  · rw [noEvents]
    refine ⟨fun dest index found => ?_, List.forall_mem_nil _⟩
    obtain ⟨before, _, same⟩ := List.mem_map.mp (List.mem_of_getElem? found)
    rw [← same]
    exact ⟨Outbound.empty_ordered, List.forall_mem_nil _⟩
  · rw [noEvents]
    exact List.nodup_nil
  · unfold keys
    rw [noEvents]
    rfl

theorem new_charted {configuration : Configuration}
    (built : new configuration = .ok queue) :
    queue.Charted ∧ queue.keys = [] := by
  obtain ⟨credits, _, same⟩ := new_eq_ok built
  have noEvents : queue.events = [] := by
    rw [same]
    exact replicate_events _ _
  refine ⟨{ indexCount := ?_, lists := ?_, housed := ?_, entered := ?_, distinct := ?_ }, ?_⟩
  · rw [same]
    exact List.length_replicate.trans List.length_replicate.symm
  · rw [same]
    intro list member
    rw [List.eq_of_mem_replicate member]
    exact BarrierList.empty_sound _
  · intro lane list found event member
    have none_ := mem_events.mpr ⟨lane, list, found, member⟩
    rw [noEvents] at none_
    cases none_
  · rw [noEvents]
    refine ⟨fun dest index found => ?_, List.forall_mem_nil _⟩
    rw [same] at found
    rw [List.eq_of_mem_replicate (List.mem_of_getElem? found)]
    exact ⟨Outbound.empty_ordered, List.forall_mem_nil _⟩
  · rw [noEvents]
    exact List.nodup_nil
  · unfold keys
    rw [noEvents]
    rfl

end LaneQueue

/-- The keys of the events that were put in and have not been handed out, after one more
operation and its answer. -/
def liveAfter (live : List EventKey) : Operation → Answer → List EventKey
  | .insert event, _ => event.key :: live
  | .reinsert event, _ => event.key :: live
  | .drain, _ => []
  | _, .taken (some event) => live.erase event.key
  | _, _ => live

theorem perm_liveAfter_of_taken {live rest : List EventKey} {event? : Option Event}
    (left : live.Perm ((event?.map Event.key).toList ++ rest)) :
    rest.Perm (liveAfter live .pop (.taken event?)) ∧
      ∀ key, rest.Perm (liveAfter live (.erase key) (.taken event?)) := by
  cases event? with
  | none => exact ⟨left.symm, fun _ => left.symm⟩
  | some event =>
      have erased := left.erase event.key
      change (live.erase event.key).Perm ((event.key :: rest).erase event.key) at erased
      rw [List.erase_cons_head] at erased
      exact ⟨erased.symm, fun _ => erased.symm⟩

/-- Whatever is put in has a serial number that no live event has. -/
def Operation.Fresh (live : List EventKey) : Operation → Prop
  | .insert event => ∀ key ∈ live, key.uid ≠ event.key.uid
  | .reinsert event => ∀ key ∈ live, key.uid ≠ event.key.uid
  | _ => True

instance (live : List EventKey) : (operation : Operation) → Decidable (operation.Fresh live)
  | .insert event => inferInstanceAs (Decidable (∀ key ∈ live, key.uid ≠ event.key.uid))
  | .reinsert event => inferInstanceAs (Decidable (∀ key ∈ live, key.uid ≠ event.key.uid))
  | .next | .pop | .erase _ | .drain => inferInstanceAs (Decidable True)

/-- The states that a queue can reach, each with its live keys. Removals may ask for any key. -/
inductive LaneQueue.Attains (start : LaneQueue) : List EventKey → LaneQueue → Prop
  | start : Attains start [] start
  | step {live : List EventKey} {queue after : LaneQueue} {answer : Answer}
      (operation : Operation) (earlier : Attains start live queue) (fresh : operation.Fresh live)
      (performed : queue.perform operation = .ok (answer, after)) :
      Attains start (liveAfter live operation answer) after

/-- A live key that may be returned: it comes before all others of its owner and passes no
key of the simulation; and if it is one itself, it comes before all others. -/
structure GoesFirst (key : EventKey) (live : List EventKey) : Prop where
  isLive : key ∈ live
  ofOwner : ∀ other ∈ live, other ≠ key → other.context = key.context → key.Precedes other
  passesNoBarrier : ∀ other ∈ live, other.context = .global → key = other ∨ key.Precedes other
  asBarrier : key.context = .global → ∀ other ∈ live, other ≠ key → key.Precedes other

namespace LaneQueue

variable {start queue after : LaneQueue} {live : List EventKey}

theorem Charted.perform (charted : queue.Charted) (known : queue.keys.Perm live)
    {operation : Operation} (fresh : operation.Fresh live) {answer : Answer}
    (performed : queue.perform operation = .ok (answer, after)) :
    after.Charted ∧ after.keys.Perm (liveAfter live operation answer) := by
  have entered {event : Event} {last : LaneQueue}
      (fresh : ∀ key ∈ live, key.uid ≠ event.key.uid)
      (inserted : queue.insert event = .ok last) :
      last.Charted ∧ last.keys.Perm (event.key :: live) := by
    obtain ⟨lastCharted, keys⟩ :=
      charted.insert (fun key member => fresh key (known.mem_iff.mp member)) inserted
    exact ⟨lastCharted, keys.trans (known.cons _)⟩
  cases perform_eq_ok performed with
  | insert inserts => exact entered fresh inserts
  | reinsert inserts => exact entered fresh inserts
  | next settles =>
      have settling := charted.settle settles
      exact ⟨settling.charted, settling.keys.trans known⟩
  | @pop event? _ popped =>
      obtain ⟨afterCharted, left, _⟩ := charted.pop popped
      exact ⟨afterCharted, (perm_liveAfter_of_taken (known.symm.trans left)).1⟩
  | @erase _ event? _ erased =>
      obtain ⟨afterCharted, left⟩ := charted.erase erased
      exact ⟨afterCharted, (perm_liveAfter_of_taken (known.symm.trans left)).2 _⟩
  | drain =>
      obtain ⟨afterCharted, noKeys⟩ := charted.drain
      refine ⟨afterCharted, ?_⟩
      rw [noKeys]
      exact List.Perm.refl _

theorem Attains.charted {configuration : Configuration}
    (built : new configuration = .ok start) (attained : start.Attains live queue) :
    queue.Charted ∧ queue.keys.Perm live := by
  induction attained with
  | start =>
      obtain ⟨charted, noKeys⟩ := new_charted built
      exact ⟨charted, noKeys ▸ List.Perm.refl _⟩
  | step operation _ fresh performed ih => exact ih.1.perform ih.2 fresh performed

theorem Leading.goesFirst {lane : Nat} {front : Event} (charted : queue.Charted)
    (leading : queue.Leading lane front) (stays : queue.isCrossing front = false)
    (known : queue.keys.Perm live) : GoesFirst front.key live := by
  have home := charted.front_home leading.atFront
  rw [homeLane_of_not_crossing stays] at home
  have held : ∀ key ∈ live, ∃ event ∈ queue.events, event.key = key :=
    fun key member => List.mem_map.mp (known.mem_iff.mpr member)
  have ofBarrier : ∀ event : Event, event.key.context = .global → queue.homeLane event = 0 := by
    intro event owner
    unfold homeLane
    have stays : queue.isCrossing event = false := by
      apply Bool.eq_false_iff.mpr
      intro crossing
      exact (isCrossing_iff.mp crossing).2.2.2.1 (by rw [owner]; rfl)
    rw [stays, owner]
    rfl
  refine ⟨known.mem_iff.mp (List.mem_map_of_mem leading.atFront.mem), ?_, ?_, ?_⟩
  · intro key member different owner
    obtain ⟨event, inside, same⟩ := held key member
    rw [← same] at different owner ⊢
    exact EventKey.precedes_iff_rank_lt.mpr (leading.before_owner charted inside
      (fun equal => different (by rw [equal])) stays owner)
  · intro key member owner
    obtain ⟨event, inside, same⟩ := held key member
    rw [← same] at owner ⊢
    by_cases equal : event = front
    · left
      rw [equal]
    · right
      exact EventKey.precedes_iff_rank_lt.mpr (leading.before_lane charted inside equal
        (Or.inr (Or.inr (ofBarrier event owner))))
  · intro owner key member different
    obtain ⟨event, inside, same⟩ := held key member
    rw [← same] at different ⊢
    have lane0 : lane = 0 := by rw [← home, owner]; rfl
    exact EventKey.precedes_iff_rank_lt.mpr (leading.before_lane charted inside
      (fun equal => different (by rw [equal])) (Or.inr (Or.inl lane0)))

/-- Per owner, events are returned in removal order, and those of the simulation are barriers
for all. Nothing is returned only when nothing is live. -/
theorem pop_in_owner_order {configuration : Configuration}
    (built : LaneQueue.new configuration = .ok start) (attained : start.Attains live queue)
    {event? : Option Event} (popped : queue.pop = .ok (event?, after)) :
    (event? = none → live = []) ∧ ∀ event, event? = some event → GoesFirst event.key live := by
  obtain ⟨charted, known⟩ := attained.charted built
  obtain ⟨_, _, none_, led⟩ := charted.pop popped
  constructor
  · intro nothing
    rw [none_ nothing] at known
    exact known.symm.eq_nil
  · intro event returned
    obtain ⟨before, lane, beforeCharted, sameKeys, leading, stays⟩ := led event returned
    exact leading.goesFirst beforeCharted stays (sameKeys.trans known)

/-- Three entities, the first of which may send nothing before the second has sent to it. -/
def waitingConfiguration : Configuration where
  entities := 3
  latency := ⟨3, #[0, 5, 5, 5, 0, 5, 5, 5, 0]⟩
  interfaces := [[⟨1⟩]]
  strategies := ⟨false, true, false, true, true⟩
  boundary := .sequenced
  exploration := .standard

def blockedMessage : Event := ⟨⟨⟨10⟩, ⟨4⟩, .node ⟨1⟩⟩, .outgoing, .node ⟨0⟩, none⟩

def laterMessage : Event := ⟨⟨⟨20⟩, ⟨5⟩, .node ⟨2⟩⟩, .outgoing, .node ⟨0⟩, none⟩

def freeEvent : Event := ⟨⟨⟨12⟩, ⟨6⟩, .node ⟨2⟩⟩, .undefined, .node ⟨2⟩, none⟩

def waitingQueue (toSecond toThird third : List Event) : LaneQueue :=
  let policy := ListPolicy.ofStrategies waitingConfiguration.strategies
  { lanes := [.empty policy, ⟨policy, (toSecond ++ toThird).map .plain, 0, 0⟩, .empty policy,
      ⟨policy, third.map .plain, 0, 0⟩]
    latency := waitingConfiguration.latency
    boundary := .sequenced
    credits := some ⟨[[1], [], []], [[0, 0, 0], [0, 0, 0], [0, 0, 0]]⟩
    outbound := [.empty, .empty, ⟨toSecond.map fun message => (message.key, 1)⟩,
      ⟨toThird.map fun message => (message.key, 1)⟩]
    deadlocks := 0
    conversions := 0 }

/-- An event of the third entity overtakes a message to the second, and comes before one to the
third that waits with the same sender. -/
theorem pop_in_owner_order_overtaking :
    ∃ start queue after, LaneQueue.new waitingConfiguration = .ok start ∧
      start.Attains [freeEvent.key, laterMessage.key, blockedMessage.key] queue ∧
      queue.pop = .ok (some freeEvent, after) ∧
      GoesFirst freeEvent.key [freeEvent.key, laterMessage.key, blockedMessage.key] := by
  have built : LaneQueue.new waitingConfiguration = .ok (waitingQueue [] [] []) := rfl
  have inserted : (waitingQueue [] [] []).perform (.insert blockedMessage) =
    .ok (.inserted (.ok blockedMessage.key), waitingQueue [blockedMessage] [] []) := rfl
  have first := Attains.step (.insert blockedMessage) .start (by decide) inserted
  have inserted : (waitingQueue [blockedMessage] [] []).perform (.insert laterMessage) =
    .ok (.inserted (.ok laterMessage.key), waitingQueue [blockedMessage] [laterMessage] []) := rfl
  have second := Attains.step (.insert laterMessage) first (by decide) inserted
  have inserted : (waitingQueue [blockedMessage] [laterMessage] []).perform (.insert freeEvent) =
    .ok (.inserted (.ok freeEvent.key),
      waitingQueue [blockedMessage] [laterMessage] [freeEvent]) := rfl
  have third := Attains.step (.insert freeEvent) second (by decide) inserted
  have popped : (waitingQueue [blockedMessage] [laterMessage] [freeEvent]).pop =
    .ok (some freeEvent, waitingQueue [blockedMessage] [laterMessage] []) := rfl
  exact ⟨_, _, _, built, third, popped, (pop_in_owner_order built third popped).2 _ rfl⟩

end LaneQueue

end EventKernel.Queue
