import EventKernel.Proofs.MessageConservation
import EventKernel.Proofs.RemovalSearch

set_option autoImplicit false

/-! Where events are held, and what the index lists. Callers number events apart, name contexts that
exist, and remove by the key of a live event or by a serial number that no live event has. Then every
live event is held once, in the lane where it belongs: with its sender while it is a message that
waits, with its owner otherwise. The index of a destination lists exactly the messages to it that
wait, each with the lane that holds it, whether it is in the list there or parked behind a barrier.
Without the credit rule it lists nothing.

None of this depends on what the configuration is like. If it is an accepted one, operations also
return, unless a cell of credit cannot count the messages on their way to it. -/

namespace EventKernel

def Event.Within (entities : Nat) (event : Event) : Prop :=
  event.key.context.Known entities ∧ event.prevContext.Known entities

instance (entities : Nat) (event : Event) : Decidable (event.Within entities) :=
  inferInstanceAs (Decidable (_ ∧ _))

namespace Queue

open LaneQueue (laneOf arrive delivered Carried)

/-! ### What callers promise -/

/-- Contexts are known, a serial number is new, and a key is that of a live event or absent. -/
def Operation.Proper (entities : Nat) (live : List EventKey) : Operation → Prop
  | insert event => event.Within entities ∧ ∀ key ∈ live, key.uid ≠ event.key.uid
  | reinsert event => event.Within entities ∧ ∀ key ∈ live, key.uid ≠ event.key.uid
  | erase key => key ∈ live ∨ ∀ other ∈ live, other.uid ≠ key.uid
  | next | pop | drain => True

instance (entities : Nat) (live : List EventKey) :
    (operation : Operation) → Decidable (operation.Proper entities live)
  | .insert event | .reinsert event => inferInstanceAs (Decidable
      (event.Within entities ∧ ∀ key ∈ live, key.uid ≠ event.key.uid))
  | .erase key => inferInstanceAs (Decidable (key ∈ live ∨ ∀ other ∈ live, other.uid ≠ key.uid))
  | .next | .pop | .drain => inferInstanceAs (Decidable True)

namespace Operation.Proper

variable {entities : Nat} {live : List EventKey} {operation : Operation}

private theorem fresh (proper : operation.Proper entities live) : operation.Fresh live := by
  cases operation with
  | insert | reinsert => exact proper.2
  | next | pop | erase | drain => trivial

private theorem perm {others : List EventKey} (proper : operation.Proper entities live)
    (same : others.Perm live) : operation.Proper entities others := by
  cases operation with
  | insert | reinsert =>
      exact ⟨proper.1, fun key member => proper.2 key (same.mem_iff.mp member)⟩
  | erase key =>
      rcases proper with isLive | absent
      · exact .inl (same.mem_iff.mpr isLive)
      · exact .inr fun other member => absent other (same.mem_iff.mp member)
  | next | pop | drain => trivial

end Operation.Proper

/-! ### What callers are owed -/

def remaining (live : List Event) : Option Event → List Event
  | some event => live.filter fun other => other.key != event.key
  | none => live

/-- The events that were put in and have not been handed out, as they were put in, after one more
operation and its answer. -/
def owedAfter (live : List Event) : Operation → Answer → List Event
  | .insert event, _ => event :: live
  | .reinsert event, _ => event :: live
  | .drain, _ => []
  | _, .taken event? => remaining live event?
  | _, _ => live

/-- The states that a queue comes to when callers keep their promises, each with its live events. -/
inductive LaneQueue.Develops (start : LaneQueue) (entities : Nat) : List Event → LaneQueue → Prop
  | start : Develops start entities [] start
  | step {live : List Event} {queue after : LaneQueue} {answer : Answer} (operation : Operation)
      (earlier : Develops start entities live queue)
      (proper : operation.Proper entities (live.map Event.key))
      (performed : queue.perform operation = .ok (answer, after)) :
      Develops start entities (owedAfter live operation answer) after

/-! ### Where events belong -/

def Configuration.waits (configuration : Configuration) (event : Event) : Bool :=
  configuration.strategies.localListsV2 && event.crosses

def Configuration.home (configuration : Configuration) (event : Event) : Nat :=
  if configuration.waits event then laneOf event.prevContext else laneOf event.key.context

private theorem Configuration.home_of_waits {configuration : Configuration} {event : Event}
    (waits : configuration.waits event = true) :
    configuration.home event = laneOf event.prevContext := if_pos waits

namespace LaneQueue

def Holds (queue : LaneQueue) (lane : Nat) (event : Event) : Prop :=
  ∃ list entry, queue.lanes[lane]? = some list ∧ entry ∈ list.entries ∧
    (event = entry.event ∨ event ∈ entry.parked)

/-- Events and index are where they belong, when these events are live. -/
structure Placed (queue : LaneQueue) (configuration : Configuration) (live : List Event) :
    Prop where
  laneCount : queue.lanes.length = configuration.entities + 1
  indexCount : queue.outbound.length = configuration.entities + 1
  /-- What is held are the live events, but some messages that waited have arrived. -/
  held : Carried configuration.waits live queue.events
  distinct : (queue.events.map fun event => event.key.uid).Nodup
  /-- An event is held in the lane where it belongs, and in no other. -/
  housed : ∀ event ∈ queue.events, ∀ lane, queue.Holds lane event ↔ lane = configuration.home event
  /-- An index maps the keys of the messages that wait for its destination to their lanes. -/
  indexed : ∀ dest index, queue.outbound[dest]? = some index → index.Ordered ∧
    ∀ key lane, index.holder? key = some lane ↔
      ∃ event, queue.Holds lane event ∧ configuration.waits event = true ∧
        laneOf event.key.context = dest ∧ event.key = key
  unindexed : configuration.strategies.localListsV2 = false →
    ∀ index ∈ queue.outbound, index = .empty

variable {queue after start : LaneQueue} {configuration : Configuration} {live : List Event}
  {operation : Operation} {answer : Answer} {event : Event} {lane : Nat}

private theorem holds_iff : queue.Holds lane event ↔
    ∃ list, queue.lanes[lane]? = some list ∧ event ∈ list.events := by
  unfold Holds BarrierList.events Entry.events
  simp only [List.mem_flatMap, List.mem_cons, exists_and_left]

private theorem mem_events_iff_holds : event ∈ queue.events ↔ ∃ lane, queue.Holds lane event := by
  simp only [mem_events, holds_iff]

/-! ### Live events in the form in which they are held -/

namespace Carried

variable {crosses : Event → Bool} {events later rest : List Event}

private theorem insert (carried : Carried crosses events later)
    (fresh : ∀ other ∈ events, other.key.uid ≠ event.key.uid) {more : List Event}
    (grown : more.Perm (event :: later)) : Carried crosses (event :: events) more := by
  obtain ⟨moved, cross, perm⟩ := carried
  refine ⟨fun other => moved other && other != event, fun other gone => ?_, grown.trans ?_⟩
  · exact cross other (Bool.and_eq_true_iff.mp gone).1
  · rw [map_arrive_new moved fresh]
    exact perm.cons event

private theorem handOut (carried : Carried crosses events later)
    (distinct : (later.map fun event => event.key.uid).Nodup) {event? : Option Event}
    (left : later.Perm (event?.toList ++ rest)) : Carried crosses (remaining events event?) rest := by
  obtain ⟨moved, cross, perm⟩ := carried
  refine ⟨moved, cross, ?_⟩
  cases event? with
  | none => exact left.symm.trans perm
  | some event =>
      have apart : ∀ other ∈ rest, (other.key != event.key) = true := fun other member =>
        bne_iff_ne.mpr fun same =>
          apart_of_taken distinct left other member (congrArg EventKey.uid same)
      -- Arrival keeps the key, so both lists lose the same event when they are filtered by it.
      have others := (left.symm.trans perm).filter fun other => other.key != event.key
      change ((event :: rest).filter _).Perm _ at others
      rw [List.filter_cons_of_neg (by rw [bne_self_eq_false]; exact Bool.false_ne_true),
        List.filter_eq_self.mpr apart, List.filter_map] at others
      have same : (fun other : Event => other.key != event.key) ∘ arrive moved =
          fun other => other.key != event.key := by
        funext other
        rw [Function.comp_apply, arrive_key]
      rw [same] at others
      exact others

end Carried

/-! ### Which events are held after an operation -/

private theorem Charted.settle_carried (charted : queue.Charted) {lane? : Option Nat}
    (settles : queue.settle = .ok (lane?, after)) :
    Carried queue.isCrossing queue.events after.events := by
  obtain ⟨departures, last, course, selected, _⟩ := charted.course settles
  obtain ⟨deadlocks, rfl⟩ := select_eq_ok selected
  exact course.carried charted

private theorem Charted.insert_carried (charted : queue.Charted)
    (held : Carried queue.isCrossing live queue.events)
    (fresh : ∀ key ∈ queue.keys, key.uid ≠ event.key.uid)
    (inserts : queue.insert event = .ok after) :
    Carried queue.isCrossing (event :: live) after.events := by
  obtain ⟨list, found, within, rfl⟩ := insert_put inserts
  have grown := (charted.put event found within
    fun other member => fresh other.key (List.mem_map_of_mem member)).2
  refine held.insert (fun other member => fresh other.key ?_) grown
  exact held.keys.mem_iff.mpr (List.mem_map_of_mem member)

private theorem Charted.perform_carried (charted : queue.Charted)
    (held : Carried queue.isCrossing live queue.events) (fresh : operation.Fresh queue.keys)
    (performed : queue.perform operation = .ok (answer, after)) :
    Carried queue.isCrossing (owedAfter live operation answer) after.events := by
  cases perform_eq_ok performed with
  | insert inserts => exact charted.insert_carried held fresh inserts
  | reinsert inserts => exact charted.insert_carried held fresh inserts
  | next settles => exact held.trans (charted.settle_carried settles)
  | pop popped =>
      obtain ⟨lane?, settled, settles, settledCharted, takes⟩ := charted.takes popped
      have kept := held.trans (charted.settle_carried settles)
      refine kept.handOut settledCharted.distinct ?_
      cases takes with
      | nothing => exact .refl _
      | front atFront _ found removed consumed =>
          obtain ⟨restSound, taken⟩ := settledCharted.popped atFront found removed
          obtain ⟨credits, _, rfl⟩ := consumeCredit_eq_ok consumed
          exact (settledCharted.take found restSound taken).2
  | erase erased => exact held.handOut charted.distinct ((charted.removing erased).left charted)
  | drain =>
      rw [events_drained]
      exact .refl _ _

/-! ### The invariant -/

structure Tended (queue : LaneQueue) (configuration : Configuration) (live : List Event) :
    Prop where
  charted : queue.Charted
  tracks : queue.Tracks []
  counts : queue.credits.isSome = configuration.strategies.localListsV2
  laneCount : queue.lanes.length = configuration.entities + 1
  equipped : configuration.Accepted → queue.Equipped configuration.entities
  held : Carried configuration.waits live queue.events
  known : ∀ event ∈ live, event.Within configuration.entities

private theorem new_tended (built : new configuration = .ok start) :
    start.Tended configuration [] where
  charted := (new_charted built).1
  tracks := by
    obtain ⟨credits, _, rfl⟩ := new_eq_ok built
    intro dest index found parcel member
    rw [List.eq_of_mem_replicate (List.mem_of_getElem? found)] at member
    cases member
  counts := by
    obtain ⟨credits, counts, rfl⟩ := new_eq_ok built
    exact counts
  laneCount := by
    obtain ⟨credits, _, rfl⟩ := new_eq_ok built
    exact List.length_replicate
  equipped := by
    intro accepted
    obtain ⟨queue, made, sound, _⟩ := new_sound accepted
    cases made.symm.trans built
    exact sound.toEquipped
  held := by
    rw [List.map_eq_nil_iff.mp (new_charted built).2]
    exact .refl _ _
  known := List.forall_mem_nil _

namespace Tended

variable (tended : queue.Tended configuration live)

include tended

private theorem keys : queue.keys.Perm (live.map Event.key) := tended.held.keys

private theorem isCrossing_eq : queue.isCrossing = configuration.waits := by
  funext event
  unfold isCrossing Configuration.waits Event.crosses
  rw [tended.counts]
  simp only [Bool.and_assoc]

private theorem homeLane_eq : queue.homeLane = configuration.home := by
  funext event
  unfold homeLane Configuration.home
  rw [tended.isCrossing_eq]

private theorem strands_nothing
    (proper : operation.Proper configuration.entities (live.map Event.key))
    (performed : queue.perform operation = .ok (answer, after)) :
    queue.strandedBy operation answer = [] := by
  refine strandedBy_eq_nil performed fun key event asked erased _ => ?_
  obtain ⟨held, named, _⟩ := (tended.charted.erase_finds erased event).mp rfl
  rw [asked] at proper
  -- The serial number tells which event was taken: the one that was meant, if any.
  rcases proper.perm tended.keys with isLive | absent
  · obtain ⟨meant, present, same⟩ := List.mem_map.mp isLive
    rw [tended.charted.eq_of_uid held present (by rw [named, same])]
    exact same
  · exact absurd named (absent event.key (List.mem_map_of_mem held))

private theorem owed_known (proper : operation.Proper configuration.entities (live.map Event.key)) :
    ∀ event ∈ owedAfter live operation answer, event.Within configuration.entities := by
  have fewer (event? : Option Event) :
      ∀ event ∈ remaining live event?, event.Within configuration.entities := by
    intro event member
    cases event? with
    | none => exact tended.known event member
    | some taken => exact tended.known event (List.mem_of_mem_filter member)
  cases operation with
  | insert | reinsert => exact List.forall_mem_cons.mpr ⟨proper.1, tended.known⟩
  | drain => exact List.forall_mem_nil _
  | next | pop | erase =>
      cases answer with
      | taken event? => exact fewer event?
      | inserted | reinserted | next | drained => exact tended.known

private theorem perform (proper : operation.Proper configuration.entities (live.map Event.key))
    (performed : queue.perform operation = .ok (answer, after)) :
    after.Tended configuration (owedAfter live operation answer) := by
  have fresh := (proper.perm tended.keys).fresh
  have outline := perform_outline performed
  have charted := (tended.charted.perform (.refl _) fresh performed).1
  refine { charted := charted, tracks := ?_, counts := outline.counts.trans tended.counts,
           laneCount := outline.laneCount.trans tended.laneCount, equipped := fun accepted => ?_,
           held := ?_, known := tended.owed_known proper }
  · have tracks := tended.charted.perform_tracks tended.tracks fresh performed
    rw [tended.strands_nothing proper performed] at tracks
    exact tracks
  · exact (Serviceable.perform ⟨tended.charted, tended.equipped accepted⟩ fresh performed).equipped
  · have held := tended.held
    rw [← tended.isCrossing_eq] at held ⊢
    exact tended.charted.perform_carried held fresh performed

/-! ### What it means -/

private theorem housed (member : event ∈ queue.events) (lane : Nat) :
    queue.Holds lane event ↔ lane = configuration.home event := by
  rw [holds_iff, ← tended.homeLane_eq]
  constructor
  · rintro ⟨list, found, inside⟩
    exact (tended.charted.housed lane list found event inside).symm
  · rintro rfl
    exact tended.charted.home_lane member

private theorem indexed {dest : Nat} {index : Outbound} (found : queue.outbound[dest]? = some index)
    (key : EventKey) (lane : Nat) : index.holder? key = some lane ↔
      ∃ event, queue.Holds lane event ∧ configuration.waits event = true ∧
        laneOf event.key.context = dest ∧ event.key = key := by
  obtain ⟨ordered, exactly⟩ := tended.charted.indexed tended.tracks dest index found
  rw [Outbound.holder?_eq_some_iff ordered, exactly, tended.isCrossing_eq]
  constructor
  · rintro ⟨event, member, waits, rfl, rfl, rfl⟩
    have same := Configuration.home_of_waits waits
    exact ⟨event, (tended.housed member _).mpr same.symm, waits, rfl, rfl⟩
  · rintro ⟨event, holds, waits, rfl, rfl⟩
    have member := mem_events_iff_holds.mpr ⟨lane, holds⟩
    have atHome := (tended.housed member lane).mp holds
    exact ⟨event, member, waits, rfl, rfl, (atHome.trans (Configuration.home_of_waits waits)).symm⟩

private theorem placed : queue.Placed configuration live where
  laneCount := tended.laneCount
  indexCount := tended.charted.indexCount.trans tended.laneCount
  held := tended.held
  distinct := tended.charted.distinct
  housed := fun _ member => tended.housed member
  indexed := fun _ _ found =>
    ⟨(tended.charted.entered.ordered _ _ found).1, tended.indexed found⟩
  unindexed := by
    intro plain index member
    obtain ⟨dest, found⟩ := List.mem_iff_getElem?.mp member
    have nothing : index.parcels = [] := by
      apply List.eq_nil_iff_forall_not_mem.mpr
      intro parcel inside
      obtain ⟨event, _, crossing, _⟩ :=
        (tended.tracks dest index found parcel inside).resolve_left List.not_mem_nil
      have counted := (isCrossing_iff.mp crossing).1
      rw [tended.counts, plain] at counted
      cases counted
    exact congrArg Outbound.mk nothing

private theorem sound (accepted : configuration.Accepted) : queue.Sound configuration.entities := by
  refine Serviceable.sound ⟨tended.charted, tended.equipped accepted⟩ tended.tracks ?_
  intro event member
  obtain ⟨origin, isLive, named, form⟩ := tended.held.origin member
  obtain ⟨owner, sender⟩ := tended.known origin isLive
  have same : event.prevContext = origin.prevContext := by
    rcases form with rfl | rfl
    · rfl
    · rfl
  refine ⟨Layout.laneOf_le_iff.mpr ?_, fun _ => Layout.laneOf_le_iff.mpr ?_⟩
  · rw [← named]
    exact owner
  · rw [same]
    exact sender

end Tended

private theorem Develops.tended (built : new configuration = .ok start)
    (develops : start.Develops configuration.entities live queue) :
    queue.Tended configuration live := by
  induction develops with
  | start => exact new_tended built
  | step operation _ proper performed ih => exact ih.perform proper performed

/-- Whatever keeps a key from being safe is held: no entry outlives its message. -/
theorem Placed.safeAt_iff (placed : queue.Placed configuration live)
    (known : lane ≤ configuration.entities) (key : EventKey) :
    queue.SafeAt lane key ↔
      (∀ other rival, other ≠ lane → queue.FrontAt other rival →
        queue.Allows lane key other rival.key) ∧
      ∀ event ∈ queue.events, configuration.waits event = true →
        laneOf event.key.context = lane → key.Precedes event.key := by
  constructor
  · intro safe
    refine ⟨safe.fronts, fun event member waits addressed => ?_⟩
    have within : lane < queue.outbound.length := by
      rw [placed.indexCount]
      exact Nat.lt_succ_of_le known
    have found := List.getElem?_eq_getElem within
    obtain ⟨ordered, exactly⟩ := placed.indexed lane _ found
    have holds := (placed.housed event member _).mpr rfl
    have listed := (exactly event.key _).mpr ⟨event, holds, waits, addressed, rfl⟩
    have entry := (Outbound.holder?_eq_some_iff ordered).mp listed
    exact EventKey.precedes_iff_rank_lt.mpr (safe.inbound _ found (event.key, _) entry)
  · rintro ⟨fronts, waiting⟩
    refine ⟨fronts, fun index found parcel inside => ?_⟩
    obtain ⟨ordered, exactly⟩ := placed.indexed lane index found
    obtain ⟨event, holds, waits, addressed, named⟩ :=
      (exactly parcel.1 parcel.2).mp ((Outbound.holder?_eq_some_iff ordered).mpr inside)
    rw [← named]
    exact EventKey.precedes_iff_rank_lt.mp
      (waiting event (mem_events_iff_holds.mpr ⟨_, holds⟩) waits addressed)

/-! ### Whether operations return -/

/-- In sound lanes an operation returns, unless a cell of credit is full. -/
theorem Sound.returns {entities : Nat} (sound : queue.Sound entities)
    (proper : operation.Proper entities queue.keys) :
    (∃ answer after, queue.perform operation = .ok (answer, after)) ∨
      (queue.perform operation = .error .arithmeticOverflow ∧ queue.Overfull) := by
  have serviceable : queue.Serviceable entities := ⟨sound.charted, sound.toEquipped⟩
  have entered {event : Event} (within : event.Within entities)
      (fresh : ∀ key ∈ queue.keys, key.uid ≠ event.key.uid) :
      ∃ after, queue.insert event = .ok after := by
    obtain ⟨_, _, inserted, _⟩ := sound.insert event
      ⟨Layout.laneOf_le_iff.mpr within.1, fun _ => Layout.laneOf_le_iff.mpr within.2⟩
      fun other member => fresh other.key (List.mem_map_of_mem member)
    exact ⟨_, inserted⟩
  unfold LaneQueue.perform
  cases operation with
  | insert event =>
      obtain ⟨after, inserted⟩ := entered proper.1 proper.2
      simp only [inserted]
      exact .inl ⟨_, _, rfl⟩
  | reinsert event =>
      obtain ⟨after, inserted⟩ := entered proper.1 proper.2
      simp only [inserted]
      exact .inl ⟨_, _, rfl⟩
  | next =>
      rcases serviceable.look with ⟨key?, seen, _, looked, _⟩ | ⟨fails, _, overfull⟩
      · simp only [looked]
        exact .inl ⟨_, _, rfl⟩
      · simp only [fails]
        exact .inr ⟨rfl, overfull⟩
  | pop =>
      rcases sound.pop with ⟨event?, after, popped, _⟩ | ⟨fails, _⟩
      · simp only [popped]
        exact .inl ⟨_, _, rfl⟩
      · by_cases overfull : queue.Overfull
        · simp only [fails]
          exact .inr ⟨rfl, overfull⟩
        · rcases serviceable.pop_outcome overfull with ⟨_, _, other⟩ | ⟨_, answer, popped⟩
          · cases fails.symm.trans other
          · cases fails.symm.trans popped
  | erase key =>
      rcases proper with isLive | absent
      · obtain ⟨event, member, rfl⟩ := List.mem_map.mp isLive
        obtain ⟨after, erased, _⟩ := sound.erase_live member
        simp only [erased]
        exact .inl ⟨_, _, rfl⟩
      · have erased := sound.erase_absent fun event member =>
          absent event.key (List.mem_map_of_mem member)
        simp only [erased]
        exact .inl ⟨_, _, rfl⟩
  | drain => exact .inl ⟨_, _, rfl⟩

/-! ### Every run -/

/-- Every live event is held once, in the lane where it belongs, and each index lists exactly the
messages that wait for its destination, with the lanes that hold them. Without the credit rule
nothing is listed. An accepted configuration gives a queue of which every proper operation returns,
unless a cell of credit is full. -/
theorem index_lists_waiting_messages (configuration : Configuration) :
    (∀ start live queue, new configuration = .ok start →
      start.Develops configuration.entities live queue → queue.Placed configuration live) ∧
    (configuration.validate = .ok (.ok ()) → ∃ start, new configuration = .ok start ∧
      ∀ live queue, start.Develops configuration.entities live queue →
        ∀ operation, operation.Proper configuration.entities (live.map Event.key) →
          (∃ answer after, queue.perform operation = .ok (answer, after)) ∨
            (queue.perform operation = .error .arithmeticOverflow ∧ queue.Overfull)) := by
  constructor
  · intro start live queue built develops
    exact (develops.tended built).placed
  · intro valid
    have accepted := Configuration.accepted_of_validate valid
    obtain ⟨start, built, _⟩ := new_sound accepted
    refine ⟨start, built, fun live queue develops operation proper => ?_⟩
    have tended := develops.tended built
    exact (tended.sound accepted).returns (proper.perm tended.keys)

def barredConfiguration : Configuration := { pairedConfiguration with strategies := .all }

def dueEvent : Event := ⟨⟨⟨1⟩, ⟨6⟩, .node ⟨0⟩⟩, .undefined, .node ⟨0⟩, none⟩

def deadlineEvent : Event := ⟨⟨⟨5⟩, ⟨7⟩, .node ⟨0⟩⟩, .timeout, .node ⟨0⟩, none⟩

def barredQueue (first second : List Entry) (barriers deferred count : Nat)
    (listed : List (EventKey × Nat)) : LaneQueue :=
  let policy := ListPolicy.ofStrategies .all
  { lanes := [.empty policy, ⟨policy, first, barriers, deferred⟩, ⟨policy, second, 0, 0⟩]
    latency := pairedConfiguration.latency
    boundary := .sequenced
    credits := some ⟨[[], []], [[0, 0], [count, 0]]⟩
    outbound := [.empty, .empty, ⟨listed⟩]
    deadlocks := 0
    conversions := count }

def barredParked : LaneQueue :=
  barredQueue [.plain dueEvent, ⟨deadlineEvent, [pairedMessage]⟩] [] 1 1 0 [(pairedMessage.key, 1)]

def barredArrived : LaneQueue :=
  barredQueue [] [.plain (delivered pairedMessage)] 0 0 1 []

/-- A message is listed while it is parked behind a barrier of its sender, and no longer once it has
arrived. -/
theorem index_lists_waiting_messages_parked :
    ∃ start, new barredConfiguration = .ok start ∧
      start.Develops 2 [pairedMessage, deadlineEvent, dueEvent] barredParked ∧
      barredParked.Placed barredConfiguration [pairedMessage, deadlineEvent, dueEvent] ∧
      barredParked.Holds 1 pairedMessage ∧ barredConfiguration.waits pairedMessage = true ∧
      (∃ answer after, barredParked.perform (.erase pairedMessage.key) = .ok (answer, after)) ∧
      start.Develops 2 [pairedMessage] barredArrived ∧
      barredArrived.Placed barredConfiguration [pairedMessage] ∧
      barredArrived.Holds 2 (delivered pairedMessage) := by
  obtain ⟨placed, returns⟩ := index_lists_waiting_messages barredConfiguration
  obtain ⟨start, built, returned⟩ := returns rfl
  have same : start = barredQueue [] [] 0 0 0 [] := by
    cases built
    rfl
  subst same
  have inserted : (barredQueue [] [] 0 0 0 []).perform (.insert dueEvent) =
    .ok (.inserted (.ok dueEvent.key), barredQueue [.plain dueEvent] [] 0 0 0 []) := rfl
  have first : Develops _ 2 [dueEvent] _ := .step (.insert dueEvent) .start (by decide) inserted
  have inserted : (barredQueue [.plain dueEvent] [] 0 0 0 []).perform (.insert deadlineEvent) =
    .ok (.inserted (.ok deadlineEvent.key),
      barredQueue [.plain dueEvent, .plain deadlineEvent] [] 1 0 0 []) := rfl
  have second : Develops _ 2 [deadlineEvent, dueEvent] _ :=
    .step (.insert deadlineEvent) first (by decide) inserted
  have inserted : (barredQueue [.plain dueEvent, .plain deadlineEvent] [] 1 0 0 []).perform
    (.insert pairedMessage) = .ok (.inserted (.ok pairedMessage.key), barredParked) := rfl
  have parked : Develops _ 2 [pairedMessage, deadlineEvent, dueEvent] barredParked :=
    .step (.insert pairedMessage) second (by decide) inserted
  have popped : barredParked.perform .pop = .ok (.taken (some dueEvent),
    barredQueue [.plain deadlineEvent, .plain pairedMessage] [] 1 0 0
      [(pairedMessage.key, 1)]) := rfl
  have fourth : Develops _ 2 [pairedMessage, deadlineEvent] _ := .step .pop parked trivial popped
  have popped : (barredQueue [.plain deadlineEvent, .plain pairedMessage] [] 1 0 0
    [(pairedMessage.key, 1)]).perform .pop = .ok (.taken (some deadlineEvent),
      barredQueue [.plain pairedMessage] [] 0 0 0 [(pairedMessage.key, 1)]) := rfl
  have fifth : Develops _ 2 [pairedMessage] _ := .step .pop fourth trivial popped
  have looked : (barredQueue [.plain pairedMessage] [] 0 0 0 [(pairedMessage.key, 1)]).perform
    .next = .ok (.next (some pairedMessage.key), barredArrived) := rfl
  have arrived : Develops _ 2 [pairedMessage] barredArrived := .step .next fifth trivial looked
  refine ⟨_, built, parked, placed _ _ _ built parked, ?_, rfl, ?_, arrived,
    placed _ _ _ built arrived, ?_⟩
  · exact ⟨_, ⟨deadlineEvent, [pairedMessage]⟩, rfl, List.mem_cons_of_mem _ List.mem_cons_self,
      .inr List.mem_cons_self⟩
  · have isLive : (Operation.erase pairedMessage.key).Proper 2
        ([pairedMessage, deadlineEvent, dueEvent].map Event.key) := by decide
    rcases returned _ _ parked _ isLive with done | ⟨fails, _⟩
    · exact done
    · cases fails
  · exact ⟨_, .plain (delivered pairedMessage), rfl, List.mem_cons_self, .inl rfl⟩

end LaneQueue

end Queue

end EventKernel
