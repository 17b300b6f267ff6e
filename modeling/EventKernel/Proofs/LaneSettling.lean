import EventKernel.Proofs.LaneOperations
import EventKernel.Proofs.LaneSelection

set_option autoImplicit false

/-! How a queue settles. A selected message moves to its destination and the selection is
repeated; every move leaves one message fewer, so the loop ends, and its bound on the number
of moves is never the reason. Moving a message changes its kind and nothing else. -/

namespace EventKernel.Queue.LaneQueue

variable {queue after : LaneQueue} {entities : Nat}

/-! ### One message moves -/

/-- A message has moved from the lane of its sender to the lane of its destination. -/
structure Passage (queue : LaneQueue) (message : Event) (after : LaneQueue) : Prop where
  crossing : queue.isCrossing message = true
  moved : ∃ others, queue.events.Perm (message :: others) ∧
    after.events.Perm (delivered message :: others)
  settings : queue.SameSettings after
  deadlocks : after.deadlocks = queue.deadlocks
  conversions : after.conversions = queue.conversions + 1
  sound : ∀ entities, queue.Sound entities → after.Sound entities
  backed : ∀ drained, queue.Backed drained → after.Backed drained

private theorem Sound.convert (sound : queue.Sound entities) {lane : Nat} {message : Event}
    {list rest : BarrierList} (found : queue.lanes[lane]? = some list)
    (crossing : queue.isCrossing message = true) (restSound : rest.Sound)
    (taken : list.events.Perm (message :: rest.events)) :
    (∃ after, (queue.putLane lane rest).convert message = .ok after ∧
      queue.Passage message after) ∨
    ((queue.putLane lane rest).convert message = .error .arithmeticOverflow ∧
      queue.Overdrawn) := by
  obtain ⟨counted, outgoing, senderNode, destNode, _⟩ := isCrossing_iff.mp crossing
  obtain ⟨table, credited⟩ := Option.isSome_iff_exists.mp counted
  obtain ⟨takenSound, takenPerm⟩ := sound.take found restSound taken
  have known := sound.addressed message (takenPerm.mem_iff.mpr List.mem_cons_self)
  have left : queue.leave message =
      queue.outbound.modify (laneOf message.key.context) (·.erase message.key) :=
    if_pos crossing
  rw [left] at takenSound takenPerm
  have home := homeLane_of_not_crossing
    (delivered_not_crossing { queue with
      lanes := queue.lanes.set lane rest
      outbound := queue.outbound.modify (laneOf message.key.context) (·.erase message.key) }
      message)
  obtain ⟨destList, destFound⟩ := takenSound.lane_exists (laneOf message.key.context)
    known.1
  have distinct := ((takenPerm.map fun event => event.key.uid).nodup_iff).mp sound.distinct
  rw [List.map_cons, List.nodup_cons] at distinct
  obtain ⟨putSound, putPerm⟩ := takenSound.put (delivered message) (by rw [home]; exact destFound)
    known (fun other member same => distinct.1 (same ▸ List.mem_map_of_mem member))
  have stays : enter { queue with
      lanes := queue.lanes.set lane rest
      outbound := queue.outbound.modify (laneOf message.key.context) (·.erase message.key) }
      (delivered message) =
        queue.outbound.modify (laneOf message.key.context) (·.erase message.key) :=
    if_neg (by rw [delivered_not_crossing]; exact Bool.false_ne_true)
  rw [stays, home] at putSound putPerm
  obtain ⟨count, read, delivery⟩ := (sound.credited table credited).deliver
    (laneOf message.key.context - 1) (laneOf message.prevContext - 1)
    (by have := known.1; omega) (by have := known.2 counted; omega)
  unfold LaneQueue.convert putLane
  simp only [credited]
  rcases delivery with delivers | ⟨fails, full⟩
  · left
    simp only [delivers, bind, Except.bind, Functor.map, Except.map, laneAt, destFound]
    refine ⟨_, rfl, crossing, ⟨_, takenPerm, putPerm⟩, ⟨rfl, rfl, by rw [credited]; rfl⟩, rfl,
      rfl, ?_, ?_⟩
    · intro others otherSound
      have same : others = entities :=
        Nat.succ.inj (otherSound.laneCount.symm.trans sound.laneCount)
      rw [same]
      refine putSound.recount (some (table.put _ _ (count + 1))) queue.deadlocks
        (queue.conversions + 1) (by rw [credited]; rfl) ?_
      intro held same
      cases same
      exact (sound.credited table credited).put _ _ _
    · intro drained backed
      exact backed.deliver credited crossing read takenPerm putPerm rfl
  · right
    refine ⟨?_, counted, ?_⟩
    · rw [fails]
      rfl
    · intro drained backed affordable
      exact absurd full
        (Nat.not_le_of_lt (backed.room credited crossing read takenPerm affordable))

/-! ### The loop -/

/-- A lane whose front is returned next: safe, and the least among those with credit. -/
structure Settled (queue : LaneQueue) (lane : Nat) (front : Event) : Prop where
  atFront : queue.FrontAt lane front
  stays : queue.isCrossing front = false
  safe : queue.SafeAt lane front.key
  least : ∀ other rival, queue.FrontAt other rival → queue.SafeAt other rival.key →
    ¬ queue.Blocked other rival → front.key.rank ≤ rival.key.rank

/-- The loop without a bound on its moves. -/
inductive Settles : LaneQueue → Option Nat → LaneQueue → Prop
  | idle {queue : LaneQueue} (noEvents : queue.events = []) : Settles queue none queue
  | ready {queue : LaneQueue} {lane : Nat} {front : Event} (settled : queue.Settled lane front) :
      Settles queue (some lane) queue
  | moves {queue selected next after : LaneQueue} {lane : Nat} {lane? : Option Nat}
      {message : Event} (selection : Selection queue (some lane) selected)
      (atFront : queue.FrontAt lane message) (passage : selected.Passage message next)
      (later : Settles next lane? after) : Settles queue lane? after

theorem Selection.recounts {lane? : Option Nat} (selection : Selection queue lane? after) :
    ∃ deadlocks, after = { queue with deadlocks } := by
  cases selection with
  | nothing => exact ⟨queue.deadlocks, rfl⟩
  | ready => exact ⟨queue.deadlocks, rfl⟩
  | deadlock => exact ⟨queue.deadlocks + 1, rfl⟩

private theorem Selection.sound {lane? : Option Nat} (selection : Selection queue lane? after)
    (sound : queue.Sound entities) : after.Sound entities := by
  obtain ⟨deadlocks, same⟩ := selection.recounts
  rw [same]
  exact sound.recount queue.credits deadlocks queue.conversions rfl sound.credited

private theorem Selection.front {lane : Nat} (selection : Selection queue (some lane) after) :
    ∃ front, queue.FrontAt lane front := by
  cases selection with
  | ready _ front atFront => exact ⟨front, atFront⟩
  | deadlock _ front atFront => exact ⟨front, atFront⟩

private theorem Selection.settled (sound : queue.Sound entities) {lane : Nat} {front : Event}
    (selection : Selection queue (some lane) after) (atFront : queue.FrontAt lane front)
    (stays : queue.isCrossing front = false) : queue.Settled lane front ∧ after = queue := by
  cases selection with
  | ready _ other atOther safe _ least =>
      rw [atOther.unique atFront] at safe least
      exact ⟨⟨atFront, stays, safe, least⟩, rfl⟩
  | deadlock _ other atOther stuck leastOf =>
      rw [atOther.unique atFront] at leastOf
      have blocked := stuck _ front (sound.least_safe leastOf).1 (sound.least_safe leastOf).2
      have crossing := blocked.1
      rw [stays] at crossing
      cases crossing

private theorem Passage.outgoingCount {message : Event} (passage : queue.Passage message after) :
    after.outgoingCount + 1 = queue.outgoingCount := by
  obtain ⟨others, before, arrived⟩ := passage.moved
  unfold LaneQueue.outgoingCount
  rw [before.countP_eq, arrived.countP_eq, List.countP_cons, List.countP_cons,
    (isCrossing_iff.mp passage.crossing).2.1]
  rfl

private theorem Passage.overdrawn {message : Event} (passage : queue.Passage message after)
    (overdrawn : after.Overdrawn) : queue.Overdrawn := by
  refine ⟨passage.settings.counts ▸ overdrawn.1, fun drained backed affordable => ?_⟩
  obtain ⟨others, before, arrived⟩ := passage.moved
  apply overdrawn.2 drained (passage.backed drained backed)
  intro dest sender
  rw [messages_perm arrived, messages_delivered (isCrossing_iff.mp passage.crossing).2.1,
    ← messages_perm before]
  exact affordable dest sender

private theorem Selection.idle (selection : Selection queue none after) :
    Settles queue none after := by
  cases selection with
  | nothing noEvents => exact .idle noEvents

theorem crossing_uncounted (noneLeft : queue.outgoingCount = 0) {event : Event}
    (member : event ∈ queue.events) : queue.isCrossing event = false := by
  cases crossing : queue.isCrossing event with
  | false => rfl
  | true =>
      have different := List.countP_eq_zero.mp noneLeft event member
      rw [(isCrossing_iff.mp crossing).2.1] at different
      exact absurd rfl different

private theorem Sound.settleWithin (moves : Nat) (sound : queue.Sound entities)
    (enough : queue.outgoingCount ≤ moves) :
    (∃ lane? after, settleWithin moves queue = .ok (lane?, after) ∧
      Settles queue lane? after) ∨
    (settleWithin moves queue = .error .arithmeticOverflow ∧ queue.Overdrawn) := by
  -- Every move leaves one message less to be moved, and `moves` bounds how many there are.
  induction moves generalizing queue with
  | zero =>
      left
      obtain ⟨lane?, after, selects, selection⟩ := sound.select
      refine ⟨lane?, after, selects, ?_⟩
      cases lane? with
      | none => exact selection.idle
      | some lane =>
          obtain ⟨front, atFront⟩ := selection.front
          obtain ⟨settled, same⟩ := selection.settled sound atFront
            (crossing_uncounted (Nat.le_zero.mp enough) atFront.mem)
          rw [same]
          exact .ready settled
  | succ moves ih =>
      obtain ⟨lane?, selected, selects, selection⟩ := sound.select
      unfold LaneQueue.settleWithin
      simp only [selects, bind, Except.bind]
      cases lane? with
      | none => exact Or.inl ⟨none, selected, rfl, selection.idle⟩
      | some lane =>
          obtain ⟨front, atFront⟩ := selection.front
          have ⟨list, entry, found, first, same⟩ := atFront
          obtain ⟨deadlocks, counted⟩ := selection.recounts
          have selectedSound := selection.sound sound
          have selectedFound : selected.lanes[lane]? = some list := by
            rw [counted]
            exact found
          simp only [laneAt_of_found selectedFound, first]
          cases crossing : selected.isCrossing entry.event with
          | false =>
              have stays : queue.isCrossing front = false := by
                rw [← crossing, same, counted]
                rfl
              obtain ⟨settled, unchanged⟩ := selection.settled sound atFront stays
              rw [unchanged]
              exact Or.inl ⟨some lane, queue, rfl, .ready settled⟩
          | true =>
              obtain ⟨rest, popped, restSound, _, taken⟩ :=
                (selectedSound.list_sound selectedFound).pop first
              have left : selected.outgoingCount = queue.outgoingCount := by
                rw [counted]
                rfl
              have lifted (overdrawn : selected.Overdrawn) : queue.Overdrawn := by
                rw [counted] at overdrawn
                exact overdrawn
              simp only [if_true, popped]
              rcases selectedSound.convert selectedFound crossing restSound taken with
                ⟨next, converts, passage⟩ | ⟨fails, overdrawn⟩
              · have fewer := passage.outgoingCount
                simp only [converts]
                rcases ih (passage.sound entities selectedSound) (by omega) with
                  ⟨last?, after, settles, later⟩ | ⟨fails, overdrawn⟩
                · exact Or.inl ⟨last?, after, settles,
                    .moves selection (same ▸ atFront) passage later⟩
                · exact Or.inr ⟨fails, lifted (passage.overdrawn overdrawn)⟩
              · simp only [fails]
                exact Or.inr ⟨trivial, lifted overdrawn⟩

theorem Sound.settle (sound : queue.Sound entities) :
    (∃ lane? after, queue.settle = .ok (lane?, after) ∧ Settles queue lane? after) ∨
    (queue.settle = .error .arithmeticOverflow ∧ queue.Overdrawn) :=
  sound.settleWithin queue.outgoingCount (Nat.le_refl _)

/-! ### What settling leaves -/

theorem Settles.sound {lane? : Option Nat} (settles : Settles queue lane? after)
    (sound : queue.Sound entities) : after.Sound entities := by
  induction settles with
  | idle => exact sound
  | ready => exact sound
  | moves selection _ passage _ ih => exact ih (passage.sound entities (selection.sound sound))

theorem Settles.settings {lane? : Option Nat} (settles : Settles queue lane? after) :
    queue.SameSettings after := by
  induction settles with
  | idle => exact .refl _
  | ready => exact .refl _
  | moves selection _ passage _ ih =>
      obtain ⟨deadlocks, same⟩ := selection.recounts
      rw [same] at passage
      exact .trans ⟨passage.settings.latency, passage.settings.boundary,
        passage.settings.interfaces⟩ ih

theorem Settles.backed {drained : Nat → Nat → Nat} {lane? : Option Nat}
    (settles : Settles queue lane? after) (backed : queue.Backed drained) :
    after.Backed drained := by
  induction settles with
  | idle => exact backed
  | ready => exact backed
  | moves selection _ passage _ ih =>
      obtain ⟨deadlocks, same⟩ := selection.recounts
      rw [same] at passage
      exact ih (passage.backed drained backed)

private theorem Settles.settled {lane? : Option Nat} (settles : Settles queue lane? after) :
    match lane? with
    | none => queue.events = [] ∧ after = queue
    | some lane => ∃ front, after.Settled lane front := by
  induction settles with
  | idle noEvents => exact ⟨noEvents, rfl⟩
  | ready settled => exact ⟨_, settled⟩
  | @moves queue selected next after lane lane? message selection atFront passage later ih =>
      cases lane? with
      | some _ => exact ih
      | none =>
          obtain ⟨others, _, arrived⟩ := passage.moved
          rw [ih.1] at arrived
          exact absurd arrived.symm.eq_nil (List.cons_ne_nil _ _)

/-! ### Which messages have moved -/

def arrive (moved : Event → Bool) (event : Event) : Event :=
  if moved event then delivered event else event

/-- The events of two states agree, except that some messages have moved. -/
def Carried (crosses : Event → Bool) (before after : List Event) : Prop :=
  ∃ moved : Event → Bool, (∀ event, moved event = true → crosses event = true) ∧
    after.Perm (before.map (arrive moved))

theorem arrive_of_moved {moved : Event → Bool} {event : Event} (gone : moved event = true) :
    arrive moved event = delivered event := if_pos gone

theorem arrive_of_waiting {moved : Event → Bool} {event : Event} (waits : moved event = false) :
    arrive moved event = event := if_neg (by rw [waits]; exact Bool.false_ne_true)

theorem arrive_key (moved : Event → Bool) (event : Event) :
    (arrive moved event).key = event.key := by
  unfold arrive
  split <;> rfl

/-- A new event has not moved. Moves are told by value, so an equal event that has left already has
to be excepted. -/
theorem map_arrive_new (moved : Event → Bool) {event : Event} {events : List Event}
    (fresh : ∀ other ∈ events, other.key.uid ≠ event.key.uid) :
    (event :: events).map (arrive fun other => moved other && other != event) =
      event :: events.map (arrive moved) := by
  rw [List.map_cons, arrive_of_waiting (by rw [bne_self_eq_false, Bool.and_false])]
  refine congrArg (event :: ·) (List.map_congr_left fun other member => ?_)
  have different : (other != event) = true :=
    bne_iff_ne.mpr fun same => fresh other member (congrArg (fun event => event.key.uid) same)
  unfold arrive
  simp only [different, Bool.and_true]

theorem Carried.refl (crosses : Event → Bool) (events : List Event) :
    Carried crosses events events := by
  refine ⟨fun _ => false, (fun _ impossible => nomatch impossible), ?_⟩
  have same : arrive (fun _ => false) = id := rfl
  rw [same, List.map_id]

theorem Carried.trans {first second third : List Event}
    (former : Carried queue.isCrossing first second)
    (latter : Carried queue.isCrossing second third) :
    Carried queue.isCrossing first third := by
  obtain ⟨early, earlyCross, toSecond⟩ := former
  obtain ⟨late, lateCross, toThird⟩ := latter
  refine ⟨fun event => early event || late event, ?_, toThird.trans ?_⟩
  · intro event moved
    rcases (Bool.or_eq_true _ _).mp moved with before | after
    · exact earlyCross event before
    · exact lateCross event after
  · have twice : arrive late ∘ arrive early = arrive fun event => early event || late event := by
      funext event
      rw [Function.comp_apply]
      cases movedEarly : early event with
      | true =>
          have movedBoth : arrive (fun event => early event || late event) event =
              delivered event := arrive_of_moved (by rw [movedEarly]; rfl)
          rw [arrive_of_moved movedEarly, movedBoth]
          -- What has arrived crosses nothing any more.
          refine arrive_of_waiting (Bool.eq_false_iff.mpr fun movedLate => ?_)
          have crossing := lateCross _ movedLate
          rw [delivered_not_crossing] at crossing
          cases crossing
      | false =>
          rw [arrive_of_waiting movedEarly]
          unfold arrive
          simp only [movedEarly, Bool.false_or]
    rw [← twice, ← List.map_map]
    exact toSecond.map _

theorem Carried.keys {crosses : Event → Bool} {before later : List Event}
    (carried : Carried crosses before later) :
    (later.map Event.key).Perm (before.map Event.key) := by
  obtain ⟨moved, _, perm⟩ := carried
  have same : Event.key ∘ arrive moved = Event.key := funext (arrive_key moved)
  have mapped := perm.map Event.key
  rw [List.map_map, same] at mapped
  exact mapped

/-- Every event of a later state was there before, in the same form or on its way. -/
theorem Carried.origin {crosses : Event → Bool} {before later : List Event}
    (carried : Carried crosses before later) {event : Event} (member : event ∈ later) :
    ∃ origin ∈ before, origin.key = event.key ∧ (event = origin ∨ event = delivered origin) := by
  obtain ⟨moved, _, perm⟩ := carried
  obtain ⟨origin, present, same⟩ := List.mem_map.mp (perm.mem_iff.mp member)
  refine ⟨origin, present, ?_, ?_⟩
  · rw [← same, arrive_key]
  · cases gone : moved origin with
    | true =>
        right
        rw [← same, arrive_of_moved gone]
    | false =>
        left
        rw [← same, arrive_of_waiting gone]

theorem Carried.of_moved {crosses : Event → Bool} {message : Event}
    {events others later : List Event} (crossing : crosses message = true)
    (distinct : (events.map fun event => event.key.uid).Nodup)
    (before : events.Perm (message :: others))
    (arrived : later.Perm (delivered message :: others)) : Carried crosses events later := by
  refine ⟨fun event => event == message, ?_, arrived.trans ?_⟩
  · intro event same
    rw [eq_of_beq same]
    exact crossing
  · have apart := ((before.map fun event => event.key.uid).nodup_iff).mp distinct
    rw [List.map_cons, List.nodup_cons] at apart
    refine List.Perm.trans ?_ (before.symm.map _)
    rw [List.map_cons]
    have here : arrive (fun event => event == message) message = delivered message :=
      if_pos BEq.rfl
    have elsewhere : others.map (arrive fun event => event == message) = others := by
      refine (List.map_congr_left fun event member => ?_).trans (List.map_id _)
      refine if_neg fun same => apart.1 ?_
      rw [← eq_of_beq same]
      exact List.mem_map_of_mem member
    rw [here, elsewhere]

private theorem Passage.carried {message : Event} (passage : queue.Passage message after)
    (sound : queue.Sound entities) : Carried queue.isCrossing queue.events after.events := by
  obtain ⟨others, before, arrived⟩ := passage.moved
  exact .of_moved passage.crossing sound.distinct before arrived

theorem Settles.carried {lane? : Option Nat} (settles : Settles queue lane? after)
    (sound : queue.Sound entities) : Carried queue.isCrossing queue.events after.events := by
  induction settles with
  | idle => exact .refl _ _
  | ready => exact .refl _ _
  | moves selection _ passage _ ih =>
      have selectedSound := selection.sound sound
      obtain ⟨deadlocks, same⟩ := selection.recounts
      have first := passage.carried selectedSound
      have later := ih (passage.sound entities selectedSound)
      rw [isCrossing_congr _ _ passage.settings.counts] at later
      rw [same] at first later
      exact first.trans later

/-! ### The next event -/

inductive Look (queue : LaneQueue) : Option EventKey → LaneQueue → Prop
  | nothing (noEvents : queue.events = []) : Look queue none queue
  | next {after : LaneQueue} {lane : Nat} {front : Event}
      (settles : Settles queue (some lane) after) (settled : after.Settled lane front) :
      Look queue (some front.key) after

inductive Removal (queue : LaneQueue) : Option Event → LaneQueue → Prop
  | nothing (noEvents : queue.events = []) : Removal queue none queue
  | next {before after : LaneQueue} {lane : Nat} {front : Event}
      (settles : Settles queue (some lane) before) (settled : before.Settled lane front)
      (left : before.events.Perm (front :: after.events))
      (settings : before.SameSettings after) : Removal queue (some front) after

theorem Sound.next? (sound : queue.Sound entities) :
    (∃ key? after, queue.next? = .ok (key?, after) ∧ Look queue key? after) ∨
    (queue.next? = .error .arithmeticOverflow ∧ queue.Overdrawn) := by
  unfold LaneQueue.next?
  rcases sound.settle with ⟨lane?, after, done, settles⟩ | ⟨fails, overdrawn⟩
  · left
    simp only [done, bind, Except.bind]
    cases lane? with
    | none =>
        obtain ⟨noEvents, same⟩ := settles.settled
        rw [same]
        exact ⟨none, queue, rfl, .nothing noEvents⟩
    | some lane =>
        obtain ⟨front, settled⟩ := settles.settled
        obtain ⟨list, entry, found, first, same⟩ := settled.atFront
        refine ⟨some front.key, after, ?_, .next settles settled⟩
        simp only [laneAt_of_found found]
        rw [BarrierList.next?, first, ← same]
        rfl
  · right
    rw [fails]
    exact ⟨rfl, overdrawn⟩

theorem Sound.pop (sound : queue.Sound entities) :
    (∃ event? after, queue.pop = .ok (event?, after) ∧ Removal queue event? after ∧
      after.Sound entities ∧ ∀ drained, queue.Backed drained → after.Backed drained) ∨
    (queue.pop = .error .arithmeticOverflow ∧ queue.Overdrawn) := by
  unfold LaneQueue.pop
  rcases sound.settle with ⟨lane?, before, done, settles⟩ | ⟨fails, overdrawn⟩
  · left
    simp only [done, bind, Except.bind]
    have beforeSound := settles.sound sound
    cases lane? with
    | none =>
        obtain ⟨noEvents, same⟩ := settles.settled
        rw [same]
        exact ⟨none, queue, rfl, .nothing noEvents, sound, fun _ backed => backed⟩
    | some lane =>
        obtain ⟨front, settled⟩ := settles.settled
        have ⟨list, entry, found, first, same⟩ := settled.atFront
        obtain ⟨rest, popped, restSound, _, taken⟩ := (beforeSound.list_sound found).pop first
        rw [same] at popped taken
        obtain ⟨takenSound, takenPerm⟩ := beforeSound.take found restSound taken
        have outbound : before.leave front = before.outbound :=
          if_neg (by rw [settled.stays]; exact Bool.false_ne_true)
        rw [outbound] at takenSound takenPerm
        obtain ⟨credits, consumed, settings, consumedSound, backed⟩ :=
          takenSound.consumeCredit front (beforeSound.addressed front settled.atFront.mem)
        refine ⟨some front, { before with lanes := before.lanes.set lane rest, credits }, ?_,
          .next settles settled takenPerm ⟨rfl, rfl, settings.interfaces⟩, consumedSound,
          fun drained start => backed before drained (settles.backed start) rfl takenPerm⟩
        simp only [laneAt_of_found found, popped, putLane]
        rw [consumed]
        rfl
  · right
    rw [fails]
    exact ⟨rfl, overdrawn⟩

theorem Look.kept {key? : Option EventKey} (look : Look queue key? after)
    (sound : queue.Sound entities) :
    after.Sound entities ∧ queue.SameSettings after ∧
      Carried queue.isCrossing queue.events after.events ∧
      ∀ drained, queue.Backed drained → after.Backed drained := by
  cases look with
  | nothing => exact ⟨sound, .refl _, .refl _ _, fun _ backed => backed⟩
  | next settles _ =>
      exact ⟨settles.sound sound, settles.settings, settles.carried sound,
        fun _ => settles.backed⟩

private theorem Sound.settle_of_no_events (sound : queue.Sound entities)
    (noEvents : queue.events = []) :
    queue.settle = .ok (none, queue) := by
  have noMoves : queue.outgoingCount = 0 := by
    unfold outgoingCount
    rw [noEvents]
    rfl
  obtain ⟨lane?, after, selects, selection⟩ := sound.select
  unfold LaneQueue.settle
  rw [noMoves, LaneQueue.settleWithin, selects]
  cases selection with
  | nothing => rfl
  | ready _ _ atFront =>
      have member := atFront.mem
      rw [noEvents] at member
      cases member
  | deadlock _ _ atFront =>
      have member := atFront.mem
      rw [noEvents] at member
      cases member

theorem Sound.next?_of_no_events (sound : queue.Sound entities) (noEvents : queue.events = []) :
    queue.next? = .ok (none, queue) := by
  unfold LaneQueue.next?
  rw [sound.settle_of_no_events noEvents]
  rfl

theorem Sound.pop_of_no_events (sound : queue.Sound entities) (noEvents : queue.events = []) :
    queue.pop = .ok (none, queue) := by
  unfold LaneQueue.pop
  rw [sound.settle_of_no_events noEvents]
  rfl

/-! ### Without the credit rule -/

/-- A settled front other than the least event is due to a message that lacks credit. -/
theorem Settled.front_eq {lane : Nat} {front : Event} (settled : queue.Settled lane front)
    (sound : queue.Sound entities) {least : Event} (leastOf : least.LeastOf queue.events)
    (free : ¬ queue.Blocked (queue.homeLane least) least) : front = least := by
  obtain ⟨atFront, safe⟩ := sound.least_safe leastOf
  have tied : front.key.rank = least.key.rank :=
    Nat.le_antisymm (settled.least _ least atFront safe free)
      (leastOf.below front settled.atFront.mem)
  exact sound.eq_of_uid settled.atFront.mem leastOf.member (EventKey.rank_eq_iff.mp tied).2

private theorem not_blocked_of_no_credits (plain : queue.credits = none) (lane : Nat)
    (event : Event) :
    ¬ queue.Blocked lane event := by
  rintro ⟨_, table, counted, _⟩
  rw [plain] at counted
  cases counted

private theorem not_overdrawn_of_no_credits (plain : queue.credits = none) : ¬ queue.Overdrawn := by
  rintro ⟨counted, _⟩
  rw [plain] at counted
  cases counted

theorem Settles.eq_of_no_credits {lane? : Option Nat} (settles : Settles queue lane? after)
    (plain : queue.credits = none) : after = queue := by
  cases settles with
  | idle => rfl
  | ready => rfl
  | moves selection _ passage _ =>
      obtain ⟨deadlocks, same⟩ := selection.recounts
      have counted := (isCrossing_iff.mp passage.crossing).1
      rw [same, plain] at counted
      cases counted

theorem Sound.next?_least (sound : queue.Sound entities) (plain : queue.credits = none)
    {least : Event} (leastOf : least.LeastOf queue.events) :
    queue.next? = .ok (some least.key, queue) := by
  rcases sound.next? with ⟨key?, after, seen, look⟩ | ⟨_, overdrawn⟩
  · cases look with
    | nothing noEvents =>
        have member := leastOf.member
        rw [noEvents] at member
        cases member
    | next settles settled =>
        have same := settles.eq_of_no_credits plain
        rw [same] at seen settled
        rw [settled.front_eq sound leastOf (not_blocked_of_no_credits plain _ _)] at seen
        exact seen
  · exact absurd overdrawn (not_overdrawn_of_no_credits plain)

theorem Sound.pop_least (sound : queue.Sound entities) (plain : queue.credits = none)
    {least : Event} (leastOf : least.LeastOf queue.events) :
    ∃ after, queue.pop = .ok (some least, after) ∧ after.Sound entities ∧
      after.credits = none ∧ queue.events.Perm (least :: after.events) := by
  rcases sound.pop with ⟨event?, after, taken, removal, afterSound, _⟩ | ⟨_, overdrawn⟩
  · cases removal with
    | nothing noEvents =>
        have member := leastOf.member
        rw [noEvents] at member
        cases member
    | next settles settled left settings =>
        have same := settles.eq_of_no_credits plain
        rw [same] at settled left settings
        rw [settled.front_eq sound leastOf (not_blocked_of_no_credits plain _ _)] at taken left
        refine ⟨after, taken, afterSound, ?_, left⟩
        have counts := settings.counts
        rw [plain] at counts
        exact Option.isNone_iff_eq_none.mp (Option.isSome_eq_false_iff.mp counts)
  · exact absurd overdrawn (not_overdrawn_of_no_credits plain)

end EventKernel.Queue.LaneQueue
