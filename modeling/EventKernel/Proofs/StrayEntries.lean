import EventKernel.Proofs.LaneSelection
import EventKernel.Proofs.OwnerOrder

set_option autoImplicit false

/-! A message that stays in the index. A removal that names the sender of a message as its owner
takes it from the lane where it waits, and leaves its entry behind; nothing else does. Whatever the
configuration, two entities are enough for this. What the destination puts in afterwards stands
behind a message that is gone. -/

namespace EventKernel.Queue.LaneQueue

variable {queue after : LaneQueue} {lane : Nat} {event : Event} {astray : List EventKey}

def stranded (queue : LaneQueue) (key : EventKey) (event? : Option Event) : List EventKey :=
  (event?.toList.filter fun event => queue.isCrossing event && event.key != key).map Event.key

/-- The key of a waiting message that an operation took under another key. -/
def strandedBy (queue : LaneQueue) : Operation → Answer → List EventKey
  | .erase key, .taken event? => queue.stranded key event?
  | _, _ => []

theorem mem_stranded {key left : EventKey} {event? : Option Event} :
    left ∈ queue.stranded key event? ↔ ∃ event, event? = some event ∧
      queue.isCrossing event = true ∧ event.key ≠ key ∧ event.key = left := by
  unfold stranded
  simp only [List.mem_map, List.mem_filter, Option.mem_toList, Bool.and_eq_true,
    bne_iff_ne, and_assoc]

/-- Nothing goes astray, unless a removal takes a message under another key. -/
theorem strandedBy_eq_nil {operation : Operation} {answer : Answer}
    (performed : queue.perform operation = .ok (answer, after))
    (named : ∀ key event, operation = .erase key → queue.erase key = .ok (some event, after) →
      queue.isCrossing event = true → event.key = key) : queue.strandedBy operation answer = [] := by
  cases perform_eq_ok performed with
  | @erase key event? _ erased =>
      apply List.eq_nil_iff_forall_not_mem.mpr
      intro left member
      obtain ⟨event, rfl, crossing, other, _⟩ := mem_stranded.mp member
      exact other (named key event rfl erased crossing)
  | insert | reinsert | next | pop | drain => rfl

private theorem Charted.insert_tracks (charted : queue.Charted) (tracks : queue.Tracks astray)
    (fresh : ∀ key ∈ queue.keys, key.uid ≠ event.key.uid)
    (inserts : queue.insert event = .ok after) : after.Tracks astray := by
  obtain ⟨list, found, within, rfl⟩ := insert_put inserts
  exact tracks.put event (charted.put event found within
    fun other member => fresh other.key (List.mem_map_of_mem member)).2

private theorem Charted.settle_tracks (charted : queue.Charted) (tracks : queue.Tracks astray)
    {lane? : Option Nat} (settles : queue.settle = .ok (lane?, after)) : after.Tracks astray := by
  obtain ⟨departures, last, course, selected, _⟩ := charted.course settles
  obtain ⟨deadlocks, rfl⟩ := select_eq_ok selected
  exact (course.tracks charted tracks).recount last.credits deadlocks last.conversions rfl

/-- An entry outlives its message only if the message was taken under another key. -/
theorem Charted.perform_tracks (charted : queue.Charted) (tracks : queue.Tracks astray)
    {operation : Operation} (fresh : operation.Fresh queue.keys) {answer : Answer}
    (performed : queue.perform operation = .ok (answer, after)) :
    after.Tracks (queue.strandedBy operation answer ++ astray) := by
  cases perform_eq_ok performed with
  | insert inserts => exact charted.insert_tracks tracks fresh inserts
  | reinsert inserts => exact charted.insert_tracks tracks fresh inserts
  | next settles => exact charted.settle_tracks tracks settles
  | pop popped =>
      obtain ⟨lane?, before, settles, beforeCharted, takes⟩ := charted.takes popped
      have kept := charted.settle_tracks tracks settles
      cases takes with
      | nothing => exact kept
      | front atFront stays found removed consumed =>
          obtain ⟨restSound, taken⟩ := beforeCharted.popped atFront found removed
          obtain ⟨credits, recounts, rfl⟩ := consumeCredit_eq_ok consumed
          refine (kept.take (beforeCharted.take found restSound taken).2 fun crossing => ?_).recount
            credits before.deadlocks before.conversions recounts.isSome_eq
          rw [stays] at crossing
          cases crossing
  | erase erased =>
      refine (charted.removing erased).tracks charted tracks (fun _ => List.mem_append_right _)
        fun event took crossing other => List.mem_append_left _ ?_
      exact mem_stranded.mpr ⟨event, took, crossing, other, rfl⟩
  | drain =>
      intro dest index found parcel member
      obtain ⟨before, _, same⟩ := List.mem_map.mp (List.mem_of_getElem? found)
      rw [← same] at member
      cases member

theorem undefined_not_crossing (undefined : event.kind = .undefined) :
    queue.isCrossing event = false := by
  apply not_crossing_of_kind
  rw [undefined]
  exact EventKind.noConfusion

theorem Charted.insert_local {entities : Nat} (charted : queue.Charted)
    (equipped : queue.Equipped entities) (stays : queue.isCrossing event = false)
    (known : laneOf event.key.context ≤ entities)
    (fresh : ∀ other ∈ queue.events, other.key.uid ≠ event.key.uid) :
    ∃ lanes, queue.insert event = .ok { queue with lanes } ∧ Charted { queue with lanes } ∧
      Equipped { queue with lanes } entities ∧
      (events { queue with lanes }).Perm (event :: queue.events) := by
  have home := homeLane_of_not_crossing stays
  obtain ⟨list, found⟩ := equipped.lane_exists _ known
  rw [← home] at found
  obtain ⟨put, grown⟩ := charted.put event found (fun crossing => by
    rw [stays] at crossing
    cases crossing) fresh
  have unlisted : queue.enter event = queue.outbound :=
    if_neg (by rw [stays]; exact Bool.false_ne_true)
  rw [unlisted] at put grown
  refine ⟨_, ?_, put, equipped.putLane _ _ queue.outbound rfl, grown⟩
  unfold LaneQueue.insert
  simp only [found, stays, Bool.false_eq_true, if_false]
  rfl

section

variable {entities : Nat} {message : Event} (sound : queue.Sound entities)
  (alone : queue.events.Perm [message]) (crossing : queue.isCrossing message = true)

include sound alone crossing

private theorem Sound.unlisted_at_sender :
    ∀ index, queue.outbound[laneOf message.prevContext]? = some index → index.parcels = [] := by
  intro index found
  obtain ⟨_, exactly⟩ := sound.indexed _ index found
  apply List.eq_nil_iff_forall_not_mem.mpr
  intro parcel inside
  obtain ⟨event, present, _, named, dest, _⟩ := (exactly parcel.1 parcel.2).mp inside
  rw [← named, List.mem_singleton.mp (alone.mem_iff.mp present)] at dest
  exact (isCrossing_iff.mp crossing).2.2.2.2 (laneOf_injective dest).symm

private theorem Sound.erase_astray : ∃ rest,
    queue.erase ⟨message.key.ts, message.key.uid, message.prevContext⟩ =
      .ok (some message, queue.putLane (laneOf message.prevContext) rest) := by
  have member := alone.mem_iff.mpr (List.mem_singleton_self message)
  obtain ⟨counted, outgoing, _⟩ := isCrossing_iff.mp crossing
  obtain ⟨list, found, inside⟩ := sound.home_lane member
  rw [homeLane_of_crossing crossing] at found
  rcases (sound.list_sound found).erase message.key.uid with
    ⟨taken, rest, removed, _, _, _, perm⟩ | ⟨_, absent⟩
  · have inQueue : taken ∈ queue.events :=
      mem_events.mpr ⟨_, list, found, perm.mem_iff.mpr List.mem_cons_self⟩
    rw [List.mem_singleton.mp (alone.mem_iff.mp inQueue)] at removed
    have atSender : laneOf message.prevContext < queue.outbound.length := by
      rw [sound.indexCount]
      exact Nat.lt_succ_of_le ((sound.addressed message member).2 counted)
    have listed := List.getElem?_eq_getElem atSender
    have unheld : queue.outbound[laneOf message.prevContext].holder?
        ⟨message.key.ts, message.key.uid, message.prevContext⟩ = none := by
      unfold Outbound.holder?
      rw [sound.unlisted_at_sender alone crossing _ listed]
      rfl
    have uncounted : (queue.putLane (laneOf message.prevContext) rest).consumeCredit message =
        .ok (queue.putLane (laneOf message.prevContext) rest) := by
      unfold LaneQueue.consumeCredit
      rw [outgoing]
      rfl
    refine ⟨rest, ?_⟩
    unfold LaneQueue.erase
    simp only [listed, unheld, found, bind, Except.bind, removed, uncounted]
    rfl
  · exact absurd rfl (absent message inside)

end

def strayMessage (sender owner : NodeId) : Event :=
  ⟨⟨⟨0⟩, ⟨4⟩, .node owner⟩, .outgoing, .node sender, none⟩

def heldEvent (owner : NodeId) : Event :=
  ⟨⟨⟨0⟩, ⟨6⟩, .node owner⟩, .undefined, .node owner, none⟩

/-- Nothing is held, but the index of one entity lists a message from another. -/
structure Haunted (queue : LaneQueue) (sender owner : NodeId) : Prop where
  noEvents : queue.events = []
  atSender : ∀ index, queue.outbound[laneOf (.node sender)]? = some index → index.parcels = []
  atOwner : ∃ index parcel, queue.outbound[laneOf (.node owner)]? = some index ∧
    parcel ∈ index.parcels ∧ parcel.1 = (strayMessage sender owner).key

variable {configuration : Configuration} {sender owner : NodeId}

theorem exists_haunted (accepted : configuration.Accepted)
    (credits : configuration.strategies.localListsV2 = true) (different : sender ≠ owner)
    (senderKnown : sender.index < configuration.entities)
    (ownerKnown : owner.index < configuration.entities) :
    ∃ start queue, new configuration = .ok start ∧ start.Attains [] queue ∧
      queue.Equipped configuration.entities ∧ queue.Haunted sender owner := by
  obtain ⟨start, built, startSound, noEvents, _, _, _, _, _, counted, _⟩ := new_sound accepted
  obtain ⟨table, credited, _⟩ := counted credits
  obtain ⟨lanes, outbound, inserted, sound, held⟩ := startSound.insert
    (strayMessage sender owner) ⟨Nat.succ_le_of_lt ownerKnown, fun _ =>
      Nat.succ_le_of_lt senderKnown⟩ (by rw [noEvents]; exact List.forall_mem_nil _)
  have entered : start.perform (.insert (strayMessage sender owner)) =
      .ok (.inserted (.ok (strayMessage sender owner).key), { start with lanes, outbound }) := by
    simp only [perform, inserted, bind, Except.bind, pure, Except.pure]
  have sent : start.Attains [(strayMessage sender owner).key] { start with lanes, outbound } :=
    Attains.step (.insert (strayMessage sender owner)) .start (List.forall_mem_nil _) entered
  generalize same : { start with lanes, outbound } = queue at sound held sent
  have crossing : queue.isCrossing (strayMessage sender owner) = true := by
    rw [← same]
    apply isCrossing_iff.mpr
    refine ⟨by rw [credited]; rfl, rfl, Nat.succ_ne_zero _, Nat.succ_ne_zero _, ?_⟩
    exact fun same => different (Context.node.inj same)
  rw [noEvents] at held
  obtain ⟨rest, erased⟩ := sound.erase_astray held crossing
  change queue.erase ⟨⟨0⟩, ⟨4⟩, .node sender⟩ = _ at erased
  have taken : queue.perform (.erase ⟨⟨0⟩, ⟨4⟩, .node sender⟩) =
      .ok (.taken (some (strayMessage sender owner)),
        queue.putLane (laneOf (.node sender)) rest) := by
    simp only [perform, erased, bind, Except.bind, pure, Except.pure]
    rfl
  have left : start.Attains
      ([(strayMessage sender owner).key].erase (strayMessage sender owner).key) _ :=
    Attains.step (.erase ⟨⟨0⟩, ⟨4⟩, .node sender⟩) sent trivial taken
  rw [List.erase_cons_head] at left
  obtain ⟨_, known⟩ := left.charted built
  refine ⟨start, _, built, left, sound.toEquipped.putLane _ rest queue.outbound rfl,
    List.map_eq_nil_iff.mp known.eq_nil, sound.unlisted_at_sender held crossing, ?_⟩
  have atOwner : laneOf (.node owner) < queue.outbound.length := by
    rw [sound.indexCount]
    exact Nat.succ_lt_succ ownerKnown
  have listed := List.getElem?_eq_getElem atOwner
  refine ⟨_, ((strayMessage sender owner).key, laneOf (.node sender)), listed, ?_, rfl⟩
  exact ((sound.indexed _ _ listed).2 _ _).mpr ⟨strayMessage sender owner,
    held.mem_iff.mpr (List.mem_singleton_self _), crossing, rfl, rfl, rfl⟩

theorem heldEvent_not_safe
    (listed : ∃ index parcel, queue.outbound[laneOf (.node owner)]? = some index ∧
      parcel ∈ index.parcels ∧ parcel.1 = (strayMessage sender owner).key) :
    ¬ queue.SafeAt (laneOf (.node owner)) (heldEvent owner).key := by
  intro safe
  obtain ⟨index, parcel, found, member, stray⟩ := listed
  have before := safe.inbound index found parcel member
  rw [stray] at before
  rcases EventKey.precedes_iff_rank_lt.mpr before with earlier | ⟨_, older⟩
  · have never : ¬ (⟨0⟩ : Timestamp) < ⟨0⟩ := by decide
    exact never earlier
  · have never : ¬ (⟨6⟩ : EventUid) < ⟨4⟩ := by decide
    exact never older

private theorem Charted.select_refused {entities : Nat} (charted : queue.Charted)
    (equipped : queue.Equipped entities) (alone : queue.events.Perm [event])
    (refused : ¬ queue.SafeAt (queue.homeLane event) event.key) :
    event.LeastOf queue.events ∧ queue.FrontAt (queue.homeLane event) event ∧
      queue.isSafe (queue.homeLane event) event.key = .ok false ∧
      queue.select = .ok (some (queue.homeLane event), queue) := by
  have only : ∀ other ∈ queue.events, other = event :=
    fun other member => List.mem_singleton.mp (alone.mem_iff.mp member)
  have leastOf : event.LeastOf queue.events :=
    ⟨alone.mem_iff.mpr (List.mem_singleton_self _), fun other member =>
      Nat.le_of_eq (by rw [only other member])⟩
  have atFront := charted.least_front leastOf
  have judged := charted.judged equipped
  refine ⟨leastOf, atFront, ?_, ?_⟩
  · obtain ⟨answer, checked, exactly⟩ := judged.safety _ event atFront
    cases answer with
    | true => exact absurd (exactly.mp rfl) refused
    | false => exact checked
  · have noneSafe : ∀ other rival, queue.FrontAt other rival → ¬ queue.SafeAt other rival.key := by
      intro other rival atRival safe
      rw [← charted.front_home atRival, only rival atRival.mem] at safe
      exact refused safe
    obtain ⟨lane?, after, selected, verdict⟩ := judged.select
    cases verdict with
    | nothing noFront => exact absurd atFront (noFront _ event)
    | ready other rival atRival safe => exact absurd safe (noneSafe other rival atRival)
    | deadlock other rival atRival safe => exact absurd safe (noneSafe other rival atRival)
    | forced other rival atRival =>
        rw [selected, ← charted.front_home atRival, only rival atRival.mem]

/-- So the least event of all may be found unsafe, and be taken for want of any that is safe. -/
theorem exists_refused_least (accepted : configuration.Accepted)
    (credits : configuration.strategies.localListsV2 = true)
    (several : 2 ≤ configuration.entities) :
    ∃ start queue event, new configuration = .ok start ∧ start.Attains [event.key] queue ∧
      event.LeastOf queue.events ∧ queue.FrontAt (queue.homeLane event) event ∧
      queue.isSafe (queue.homeLane event) event.key = .ok false ∧
      queue.select = .ok (some (queue.homeLane event), queue) := by
  obtain ⟨start, before, built, attained, equipped, haunted⟩ := exists_haunted accepted credits
    (show (⟨0⟩ : NodeId) ≠ ⟨1⟩ by decide) (Nat.lt_of_lt_of_le (by decide) several)
    (Nat.lt_of_lt_of_le (by decide) several)
  obtain ⟨lanes, inserted, charted, stillEquipped, held⟩ :=
    (attained.charted built).1.insert_local equipped
      (show before.isCrossing (heldEvent ⟨1⟩) = false from undefined_not_crossing rfl) several
      (by rw [haunted.noEvents]; exact List.forall_mem_nil _)
  rw [haunted.noEvents] at held
  have entered : before.perform (.insert (heldEvent ⟨1⟩)) =
      .ok (.inserted (.ok (heldEvent ⟨1⟩).key), { before with lanes }) := by
    simp only [perform, inserted, bind, Except.bind, pure, Except.pure]
  have reached : start.Attains [(heldEvent ⟨1⟩).key] { before with lanes } :=
    .step (.insert (heldEvent ⟨1⟩)) attained (List.forall_mem_nil _) entered
  refine ⟨start, _, heldEvent ⟨1⟩, built, reached,
    charted.select_refused stillEquipped held ?_⟩
  rw [homeLane_of_not_crossing (undefined_not_crossing rfl)]
  exact heldEvent_not_safe haunted.atOwner

end EventKernel.Queue.LaneQueue
