import EventKernel.Proofs.LaneCausality

set_option autoImplicit false

/-! What leaves a queue next while its credit cells are empty: the least event where no
message waits, an event that is alone, and an event that may go ahead of the one message
that waits for credit. -/

namespace EventKernel.Queue.LaneQueue

variable {queue after : LaneQueue} {entities : Nat} {event message : Event}
  {others : List Event}

structure Yields (queue : LaneQueue) (entities : Nat) (key : EventKey) (others : List Event)
    (after : LaneQueue) : Prop where
  popped : ∃ front, queue.pop = .ok (some front, after) ∧ front.key = key
  sound : after.Sound entities
  settings : queue.SameSettings after
  backed : after.Backed fun _ _ => 0
  events : after.events.Perm others

private theorem Selection.free {lane : Nat} (selection : Selection queue (some lane) after)
    (atFront : queue.FrontAt lane message) {other : Nat} {rival : Event}
    (rivalFront : queue.FrontAt other rival) (safe : queue.SafeAt other rival.key)
    (free : ¬ queue.Blocked other rival) : ¬ queue.Blocked lane message := by
  cases selection with
  | ready _ front frontThere _ unblocked _ =>
      rw [frontThere.unique atFront] at unblocked
      exact unblocked
  | deadlock _ _ _ stuck _ => exact absurd (stuck other rival rivalFront safe) free

private theorem Settles.unmoved {lane? : Option Nat} (settles : Settles queue lane? after)
    (stays : ∀ lane selected front, Selection queue (some lane) selected →
      queue.FrontAt lane front → queue.isCrossing front = false) : after = queue := by
  cases settles with
  | idle => rfl
  | ready => rfl
  | moves selection atFront passage _ =>
      have crossing := passage.crossing
      obtain ⟨deadlocks, same⟩ := selection.recounts
      rw [same] at crossing
      change queue.isCrossing _ = true at crossing
      rw [stays _ _ _ selection atFront] at crossing
      cases crossing

private theorem not_overdrawn_of_few (backed : queue.Backed fun _ _ => 0)
    (few : queue.events.length < CreditTable.countLimit) : ¬ queue.Overdrawn := by
  rintro ⟨_, overdrawn⟩
  apply overdrawn _ backed
  intro dest sender
  exact Nat.lt_of_le_of_lt List.countP_le_length few

private theorem Sound.pop_of_few (sound : queue.Sound entities) (backed : queue.Backed fun _ _ => 0)
    (few : queue.events.length < CreditTable.countLimit) (some : queue.events ≠ []) :
    ∃ lane before front after, queue.pop = .ok (.some front, after) ∧
      Settles queue (.some lane) before ∧ before.Settled lane front ∧
      before.events.Perm (front :: after.events) ∧ after.Sound entities ∧
      queue.SameSettings after ∧ after.Backed fun _ _ => 0 := by
  rcases sound.pop with ⟨event?, after, popped, removal, afterSound, kept⟩ | ⟨_, overdrawn⟩
  · cases removal with
    | nothing noEvents => exact absurd noEvents some
    | next settles settled left settings =>
        exact ⟨_, _, _, after, popped, settles, settled, left, afterSound,
          settles.settings.trans settings, kept _ backed⟩
  · exact absurd overdrawn (not_overdrawn_of_few backed few)

theorem Sound.pop_of_no_messages (sound : queue.Sound entities)
    (backed : queue.Backed fun _ _ => 0) (few : queue.events.length < CreditTable.countLimit)
    (leastOf : event.LeastOf queue.events) (held : queue.events.Perm (event :: others))
    (stays : ∀ other ∈ queue.events, queue.isCrossing other = false) :
    ∃ after, queue.Yields entities event.key others after := by
  obtain ⟨lane, before, front, after, popped, settles, settled, left, afterSound, settings,
    kept⟩ := sound.pop_of_few backed few (List.ne_nil_of_mem leastOf.member)
  have same := settles.unmoved fun _ _ _ _ atFront => stays _ atFront.mem
  rw [same] at settled left
  have first : front = event := by
    apply settled.front_eq sound leastOf
    rintro ⟨crossing, _⟩
    rw [stays event leastOf.member] at crossing
    cases crossing
  rw [first] at popped left
  exact ⟨after, ⟨event, popped, rfl⟩, afterSound, settings, kept,
    (left.symm.trans held).cons_inv⟩

theorem Sound.pop_single (sound : queue.Sound entities) (backed : queue.Backed fun _ _ => 0)
    (alone : queue.events.Perm [event]) : ∃ after, queue.Yields entities event.key [] after := by
  have few : queue.events.length < CreditTable.countLimit := by
    rw [alone.length_eq, List.length_singleton]
    decide
  obtain ⟨lane, before, front, after, popped, settles, settled, left, afterSound, settings,
    kept⟩ := sound.pop_of_few backed few
      (List.ne_nil_of_mem (alone.mem_iff.mpr List.mem_cons_self))
  have carried := settles.carried sound
  obtain ⟨origin, present, named, _⟩ := carried.origin settled.atFront.mem
  rw [List.mem_singleton.mp (alone.mem_iff.mp present)] at named
  obtain ⟨moved, _, perm⟩ := carried
  have one : after.events.length + 1 = 1 := by
    rw [← List.length_cons (a := front), ← left.length_eq, perm.length_eq, List.length_map,
      alone.length_eq]
    rfl
  refine ⟨after, ⟨front, popped, named.symm⟩, afterSound, settings, kept, ?_⟩
  rw [List.length_eq_zero_iff.mp (Nat.succ.inj one)]

theorem Sound.blocked_of_waits (sound : queue.Sound entities)
    (backed : queue.Backed fun _ _ => 0) {sender : Nat} (known : sender < entities)
    (waits : queue.Waits sender) (none : ∀ event ∈ queue.events, event.kind ≠ .incoming)
    (crossing : queue.isCrossing message = true) : queue.Blocked (sender + 1) message := by
  obtain ⟨table, senders, credited, found, some⟩ := waits
  refine ⟨crossing, table, credited, ?_⟩
  apply (sound.credited table credited).maySend_of_empty known found some
  intro source count read
  have held := backed table credited sender source count read
  have noArrivals : arrivals queue.events sender source = 0 := by
    apply List.countP_eq_zero.mpr
    intro event member arrived
    rw [Bool.and_eq_true] at arrived
    exact none event member (eq_of_beq arrived.1)
  rw [noArrivals] at held
  exact Nat.le_zero.mp held

section

variable (sound : queue.Sound entities) (held : queue.events.Perm [event, message])
  (stays : queue.isCrossing event = false)

include sound held

private theorem Sound.front_of_two (apart : queue.homeLane message ≠ queue.homeLane event) :
    queue.FrontAt (queue.homeLane event) event := by
  have member := held.mem_iff.mpr List.mem_cons_self
  obtain ⟨list, found, inside⟩ := sound.home_lane member
  cases first : list.front? with
  | none =>
      rw [BarrierList.front?_eq_none_iff.mp first] at inside
      cases inside
  | some entry =>
      have atFront : queue.FrontAt (queue.homeLane event) entry.event :=
        ⟨list, entry, found, first, rfl⟩
      have home := sound.front_home atFront
      rcases List.mem_cons.mp (held.mem_iff.mp atFront.mem) with same | other
      · rw [same] at atFront
        exact atFront
      · rw [List.mem_singleton.mp other] at home
        exact absurd home apart

include stays

private theorem Sound.safe_of_two (elsewhere : message.key.context ≠ event.key.context)
    (allows : queue.Allows (queue.homeLane event) event.key (queue.homeLane message)
      message.key) : queue.SafeAt (queue.homeLane event) event.key := by
  constructor
  · intro other rival different atFront
    have home := sound.front_home atFront
    rcases List.mem_cons.mp (held.mem_iff.mp atFront.mem) with same | later
    · rw [same] at home
      exact absurd home.symm different
    · rw [List.mem_singleton.mp later] at home ⊢
      rw [← home]
      exact allows
  · intro index found parcel inside
    obtain ⟨_, exactly⟩ := sound.indexed _ index found
    obtain ⟨other, present, onWay, named, dest, _⟩ := (exactly parcel.1 parcel.2).mp inside
    rcases List.mem_cons.mp (held.mem_iff.mp present) with same | later
    · rw [same, stays] at onWay
      cases onWay
    · rw [← named, List.mem_singleton.mp later, homeLane_of_not_crossing stays] at dest
      exact absurd (laneOf_injective dest) elsewhere

/-- An event goes ahead of a message that lacks credit, if the latency to where the message
waits allows it. -/
theorem Sound.pop_ahead (crossing : queue.isCrossing message = true)
    (backed : queue.Backed fun _ _ => 0)
    (apart : queue.homeLane message ≠ queue.homeLane event)
    (elsewhere : message.key.context ≠ event.key.context)
    (allows : queue.Allows (queue.homeLane event) event.key (queue.homeLane message)
      message.key) (blocked : queue.Blocked (queue.homeLane message) message) :
    ∃ after, queue.Yields entities event.key [message] after := by
  have few : queue.events.length < CreditTable.countLimit := by
    rw [held.length_eq, List.length_cons, List.length_singleton]
    decide
  have atFront := sound.front_of_two held apart
  have safe := sound.safe_of_two held stays elsewhere allows
  have free : ¬ queue.Blocked (queue.homeLane event) event := by
    rintro ⟨impossible, _⟩
    rw [stays] at impossible
    cases impossible
  obtain ⟨lane, before, front, after, popped, settles, settled, left, afterSound, settings,
    kept⟩ := sound.pop_of_few backed few
      (List.ne_nil_of_mem (held.mem_iff.mpr List.mem_cons_self))
  have same : before = queue := by
    apply settles.unmoved
    intro lane selected front selection frontThere
    have home := sound.front_home frontThere
    rcases List.mem_cons.mp (held.mem_iff.mp frontThere.mem) with here | later
    · rw [here]
      exact stays
    · rw [List.mem_singleton.mp later] at home frontThere
      rw [home] at blocked
      exact absurd blocked (selection.free frontThere atFront safe free)
  rw [same] at settled left
  have first : front = event := by
    rcases List.mem_cons.mp (held.mem_iff.mp settled.atFront.mem) with here | later
    · exact here
    · have onWay := settled.stays
      rw [List.mem_singleton.mp later, crossing] at onWay
      cases onWay
  rw [first] at popped left
  exact ⟨after, ⟨event, popped, rfl⟩, afterSound, settings, kept,
    (left.symm.trans held).cons_inv⟩

end

end EventKernel.Queue.LaneQueue
