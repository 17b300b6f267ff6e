import EventKernel.Proofs.PathReduction
import EventKernel.Proofs.QueueContents
import EventKernel.Proofs.QueueInversions
import EventKernel.Proofs.SettledLanes

set_option autoImplicit false

/-! Looking at the next event. Under the credit rule a look may move messages, grant credit and
count deadlocks. But all this is the first part of taking the event: a look and then a removal leave
what a removal alone leaves and hand out the same event, which is the one that was seen. Another
look changes nothing. This holds for every configuration, explored or not, in every state that
operations can reach, whatever removals were asked for. -/

namespace EventKernel.Queue

open Exploration (Hook)

/-- Whether exploration comes before an operation. -/
def Operation.isInsertion : Operation → Bool
  | insert _ => true
  | _ => false

namespace Layout

/-- The same operations on a layout, where every insertion is as it is. -/
def perform : Layout → Operation → Except Fault (Answer × Layout)
  | single list, operation =>
      (fun (answer, list) => (answer, single list)) <$> list.perform operation
  | partitioned lanes, operation =>
      (fun (answer, lanes) => (answer, partitioned lanes)) <$> lanes.perform operation

def Serviceable (layout : Layout) (entities : Nat) : Prop :=
  match layout with
  | single list => list.Sound
  | partitioned lanes => lanes.Serviceable entities

/-- Some cell of the credit table cannot count all messages on their way to it. -/
def Overfull : Layout → Prop
  | single _ => False
  | partitioned lanes => lanes.Overfull

variable {layout after : Layout} {entities : Nat}

theorem perform_insert {event : Event} (inserted : layout.insert event = .ok after) :
    layout.perform (.insert event) = .ok (.inserted (.ok event.key), after) := by
  cases layout with
  | single list =>
      cases inserted
      rfl
  | partitioned lanes =>
      obtain ⟨rest, inserts, rfl⟩ := map_eq_ok inserted
      unfold Layout.perform LaneQueue.perform
      simp only [inserts]
      rfl

private theorem perform_settings {operation : Operation} {answer : Answer}
    (performed : layout.perform operation = .ok (answer, after)) : layout.SameSettings after := by
  cases layout with
  | single list =>
      obtain ⟨⟨_, rest⟩, _, same⟩ := map_eq_ok performed
      cases same
      exact .single list rest
  | partitioned lanes =>
      obtain ⟨⟨_, rest⟩, done, same⟩ := map_eq_ok performed
      cases same
      exact .partitioned (LaneQueue.perform_outline done).toSameSettings

theorem new_serviceable {configuration : Configuration} (accepted : configuration.Accepted)
    (built : new configuration = .ok layout) : layout.Serviceable configuration.entities := by
  obtain ⟨fresh, made, sound, _⟩ := new_sound accepted
  cases made.symm.trans built
  cases layout with
  | single list => exact sound.1
  | partitioned lanes => exact ⟨sound.charted, sound.toEquipped⟩

namespace Serviceable

variable (serviceable : layout.Serviceable entities)

include serviceable

theorem perform {operation : Operation}
    (fresh : operation.Fresh (layout.events.map Event.key)) {answer : Answer}
    (performed : layout.perform operation = .ok (answer, after)) : after.Serviceable entities := by
  cases layout with
  | single list =>
      obtain ⟨⟨_, rest⟩, done, same⟩ := map_eq_ok performed
      cases same
      obtain ⟨_, _, performs, kept, _⟩ := BarrierList.Sound.perform serviceable operation
      cases performs.symm.trans done
      exact kept
  | partitioned lanes =>
      obtain ⟨⟨_, rest⟩, done, same⟩ := map_eq_ok performed
      cases same
      exact LaneQueue.Serviceable.perform serviceable fresh done

/-- Looking once more changes nothing, and taking the event then is taking it at once. -/
theorem look : (∃ key? seen, layout.next? = .ok (key?, seen) ∧ seen.next? = .ok (key?, seen) ∧
      seen.pop = layout.pop ∧ (seen.events.map Event.key).Perm (layout.events.map Event.key) ∧
      seen.size = layout.size) ∨
    (layout.next? = .error .arithmeticOverflow ∧ layout.pop = .error .arithmeticOverflow ∧
      layout.Overfull) := by
  cases layout with
  | single list => exact .inl ⟨_, _, rfl, rfl, rfl, .refl _, rfl⟩
  | partitioned lanes =>
      have lanesKept : lanes.Serviceable entities := serviceable
      rcases lanesKept.look with ⟨key?, seen, departures, looked, course, again, popped⟩ |
        ⟨noLook, noPop, overfull⟩
      · left
        have sameKeys := course.keys lanesKept.charted
        have kept := course.charted lanesKept.charted
        refine ⟨key?, partitioned seen, ?_, ?_, ?_, sameKeys, ?_⟩
        · unfold Layout.next?
          simp only [looked]
          rfl
        · unfold Layout.next?
          simp only [again]
          rfl
        · unfold Layout.pop
          simp only [popped]
        · change seen.size = lanes.size
          rw [LaneQueue.size_eq_of_lists kept.lists,
            LaneQueue.size_eq_of_lists lanesKept.charted.lists]
          have count := sameKeys.length_eq
          unfold LaneQueue.keys at count
          rw [List.length_map, List.length_map] at count
          exact count
      · right
        refine ⟨?_, ?_, overfull⟩
        · unfold Layout.next?
          simp only [noLook]
          rfl
        · unfold Layout.pop
          simp only [noPop]
          rfl

/-- What is taken is what was seen. -/
theorem popped_key {event? : Option Event} {seen : Layout}
    (popped : layout.pop = .ok (event?, after)) {key? : Option EventKey}
    (looked : layout.next? = .ok (key?, seen)) : event?.map Event.key = key? := by
  cases layout with
  | single list =>
      cases looked
      obtain ⟨⟨_, rest⟩, pops, same⟩ := map_eq_ok popped
      cases same
      cases front : list.front? with
      | none =>
          cases (BarrierList.pop_of_no_events (BarrierList.front?_eq_none_iff.mp front)).symm.trans
            pops
          unfold BarrierList.next?
          rw [front]
          rfl
      | some entry =>
          obtain ⟨_, removed, _⟩ := BarrierList.Sound.pop serviceable front
          cases removed.symm.trans pops
          unfold BarrierList.next?
          rw [front]
          rfl
  | partitioned lanes =>
      obtain ⟨⟨_, rest⟩, pops, same⟩ := map_eq_ok popped
      cases same
      obtain ⟨⟨_, settled⟩, looks, same⟩ := map_eq_ok looked
      cases same
      exact LaneQueue.Serviceable.popped_key serviceable pops looks

private theorem pop_returns (causes : ∀ event ∈ layout.events, event.prevContext.Known entities)
    {key? : Option EventKey} {seen : Layout} (looked : layout.next? = .ok (key?, seen)) :
    ∃ event? after, layout.pop = .ok (event?, after) := by
  cases layout with
  | single list =>
      obtain ⟨answer, rest, performed, _⟩ := BarrierList.Sound.perform serviceable .pop
      obtain ⟨⟨event?, left⟩, popped, _⟩ := bind_eq_ok performed
      refine ⟨event?, single left, ?_⟩
      unfold Layout.pop
      simp only [popped]
      rfl
  | partitioned lanes =>
      obtain ⟨⟨_, settled⟩, looks, _⟩ := map_eq_ok looked
      obtain ⟨event?, rest, popped⟩ := LaneQueue.Serviceable.pop_returns serviceable
        (fun event member => laneOf_le_iff.mpr (causes event member)) looks
      refine ⟨event?, partitioned rest, ?_⟩
      unfold Layout.pop
      simp only [popped]
      rfl

end Serviceable

end Layout

namespace EventQueue

variable {σ : Type}

/-- The states that operations can reach. Serial numbers of events held are never used again; apart
from that, whatever is put in may have any contexts and removals may ask for any key. -/
inductive Reached [Hook σ] (start : EventQueue σ) : EventQueue σ → Prop
  | start : Reached start start
  | step {queue after : EventQueue σ} {answer : Answer} (operation : Operation)
      (earlier : Reached start queue) (fresh : operation.Fresh queue.keys)
      (performed : queue.perform operation = .ok (answer, after)) : Reached start after

variable {start queue after : EventQueue σ} {entities : Nat}

/-- Whatever is asked is asked of the layout, except for insertions, which exploration can refuse. -/
theorem perform_frame [Hook σ] (queue : EventQueue σ) {operation : Operation}
    (plain : operation.isInsertion = false) :
    queue.perform operation =
      (fun (answer, layout) => (answer, { queue with layout })) <$>
        queue.layout.perform operation := by
  obtain ⟨configuration, layout, perturbation, hook⟩ := queue
  cases layout with
  | single list =>
      cases operation with
      | insert event => cases plain
      | reinsert | next | drain => rfl
      | pop =>
          unfold perform EventQueue.pop Layout.pop Layout.perform BarrierList.perform
          cases popped : list.pop with
          | error | ok => simp only [popped]; rfl
      | erase key =>
          unfold perform EventQueue.erase Layout.erase Layout.perform BarrierList.perform
          cases erased : list.erase key.uid with
          | error | ok => simp only [erased]; rfl
  | partitioned lanes =>
      cases operation with
      | insert event => cases plain
      | drain => rfl
      | reinsert event =>
          unfold perform EventQueue.reinsert Layout.insert Layout.perform LaneQueue.perform
          cases inserted : lanes.insert event with
          | error | ok => simp only [inserted]; rfl
      | next =>
          unfold perform EventQueue.next? Layout.next? Layout.perform LaneQueue.perform
          cases looked : lanes.next? with
          | error | ok => simp only [looked]; rfl
      | pop =>
          unfold perform EventQueue.pop Layout.pop Layout.perform LaneQueue.perform
          cases popped : lanes.pop with
          | error | ok => simp only [popped]; rfl
      | erase key =>
          unfold perform EventQueue.erase Layout.erase Layout.perform LaneQueue.perform
          cases erased : lanes.erase key with
          | error | ok => simp only [erased]; rfl

/-- Whatever an operation does to the layout is one operation on it; an insertion that exploration
refuses does nothing. -/
theorem perform_layout [Hook σ] {operation : Operation} {answer : Answer}
    (performed : queue.perform operation = .ok (answer, after)) :
    after.layout = queue.layout ∨ ∃ done, (∀ live, operation.Fresh live → done.Fresh live) ∧
      queue.layout.perform done = .ok (answer, after.layout) := by
  cases plain : operation.isInsertion with
  | false =>
      rw [perform_frame queue plain] at performed
      obtain ⟨⟨_, layout⟩, done, same⟩ := map_eq_ok performed
      cases same
      exact .inr ⟨operation, fun _ fresh => fresh, done⟩
  | true =>
      cases operation with
      | insert event =>
          obtain ⟨⟨result, last⟩, inserted, same⟩ := bind_eq_ok performed
          cases same
          cases result with
          | error ended => exact .inl (insert_refused inserted)
          | ok key =>
              obtain ⟨ts, layout, _, same, placed, rfl⟩ := insert_accepted inserted
              refine .inr ⟨.insert { event with key }, fun live fresh other member => ?_,
                Layout.perform_insert placed⟩
              rw [same]
              exact fresh other member
      | reinsert | next | pop | erase | drain => cases plain

private theorem insert_configuration [Hook σ] {event : Event}
    {result : Except BranchEnded EventKey} (inserted : queue.insert event = .ok (result, after)) :
    after.configuration = queue.configuration := by
  obtain ⟨⟨prepared, perturbation, hook⟩, _, rest⟩ := bind_eq_ok inserted
  cases prepared with
  | error ended =>
      cases rest
      rfl
  | ok shifted =>
      obtain ⟨layout, _, answered⟩ := bind_eq_ok rest
      cases answered
      split
      · rfl
      · rfl

theorem perform_settings [Hook σ] {operation : Operation} {answer : Answer}
    (performed : queue.perform operation = .ok (answer, after)) :
    after.configuration = queue.configuration ∧ queue.layout.SameSettings after.layout := by
  constructor
  · cases plain : operation.isInsertion with
    | false =>
        rw [perform_frame queue plain] at performed
        obtain ⟨⟨_, layout⟩, _, same⟩ := map_eq_ok performed
        cases same
        rfl
    | true =>
        cases operation with
        | insert event =>
            obtain ⟨⟨result, last⟩, inserted, same⟩ := bind_eq_ok performed
            cases same
            exact insert_configuration inserted
        | reinsert | next | pop | erase | drain => cases plain
  · rcases perform_layout performed with same | ⟨done, _, does⟩
    · rw [same]
      exact .refl _
    · exact Layout.perform_settings does

private theorem Reached.serviceable [Hook σ] {configuration : Configuration} {hook : σ}
    (built : EventQueue.new configuration hook = .ok (.ok start)) (reached : start.Reached queue) :
    queue.layout.Serviceable configuration.entities := by
  induction reached with
  | start =>
      obtain ⟨valid, placed, _⟩ := new_eq_ok built
      exact Layout.new_serviceable (Configuration.accepted_of_validate valid) placed
  | step operation _ fresh performed ih =>
      rcases perform_layout performed with same | ⟨done, doneFresh, does⟩
      · rw [same]
        exact ih
      · exact ih.perform (doneFresh _ fresh) does

/-- In every state that can be reached: another look answers the same key and changes nothing; after
a look the removal of the next event has the same outcome, fault or state, as at once; and it hands
out the event that was seen. A look changes neither the keys held nor their number. The removal
returns if the causes of all events are known. A look fails only where the removal does: where a
cell of the credit table cannot count all messages on their way. -/
theorem peek_agrees_with_pop [Hook σ] {configuration : Configuration} {hook : σ}
    (built : EventQueue.new configuration hook = .ok (.ok start)) (reached : start.Reached queue) :
    (∃ key? seen, queue.next? = .ok (key?, seen) ∧ seen.next? = .ok (key?, seen) ∧
      seen.pop = queue.pop ∧ seen.keys.Perm queue.keys ∧ seen.size = queue.size ∧
      (∀ event? after, queue.pop = .ok (event?, after) → event?.map Event.key = key?) ∧
      ((∀ event ∈ queue.layout.events, event.prevContext.Known configuration.entities) →
        ∃ event? after, queue.pop = .ok (event?, after))) ∨
    (queue.next? = .error .arithmeticOverflow ∧ queue.pop = .error .arithmeticOverflow ∧
      queue.layout.Overfull) := by
  have serviceable := reached.serviceable built
  rcases serviceable.look with ⟨key?, layout, looked, again, popped, sameKeys, sameSize⟩ |
    ⟨noLook, noPop, overfull⟩
  · left
    refine ⟨key?, { queue with layout }, ?_, ?_, ?_, sameKeys, sameSize, ?_, ?_⟩
    · unfold EventQueue.next?
      rw [looked]
      rfl
    · unfold EventQueue.next?
      rw [again]
      rfl
    · unfold EventQueue.pop
      rw [popped]
    · intro event? after taken
      obtain ⟨⟨_, rest⟩, pops, returned⟩ := bind_eq_ok taken
      cases returned
      exact serviceable.popped_key pops looked
    · intro causes
      obtain ⟨event?, rest, pops⟩ := serviceable.pop_returns causes looked
      refine ⟨event?, { queue with layout := rest }, ?_⟩
      unfold EventQueue.pop
      rw [pops]
      rfl
  · right
    refine ⟨?_, ?_, overfull⟩
    · unfold EventQueue.next?
      rw [noLook]
      rfl
    · unfold EventQueue.pop
      rw [noPop]
      rfl

/-- A look moves a message whose sender may not send yet, and counts a deadlock. -/
theorem peek_agrees_with_pop_blocked :
    ∃ start queue seen after : EventQueue Exploration.Silent,
      EventQueue.new LaneQueue.waitingConfiguration .silent = .ok (.ok start) ∧
      start.Reached queue ∧ queue.deadlocks = 0 ∧
      queue.next? = .ok (some LaneQueue.blockedMessage.key, seen) ∧ seen.deadlocks = 1 ∧
      seen.next? = .ok (some LaneQueue.blockedMessage.key, seen) ∧
      seen.pop = .ok (some (LaneQueue.delivered LaneQueue.blockedMessage), after) ∧
      queue.pop = .ok (some (LaneQueue.delivered LaneQueue.blockedMessage), after) := by
  obtain ⟨start, built⟩ : ∃ start : EventQueue Exploration.Silent,
      EventQueue.new LaneQueue.waitingConfiguration Exploration.Silent.silent =
        .ok (.ok start) := ⟨_, rfl⟩
  obtain ⟨queue, performed⟩ : ∃ queue, start.perform (.insert LaneQueue.blockedMessage) =
      .ok (.inserted (.ok LaneQueue.blockedMessage.key), queue) := by
    cases built
    exact ⟨_, rfl⟩
  have reached : start.Reached queue := .step (.insert LaneQueue.blockedMessage) .start
    (by cases built; decide) performed
  obtain ⟨after, taken⟩ : ∃ after, queue.pop =
      .ok (some (LaneQueue.delivered LaneQueue.blockedMessage), after) := by
    cases built
    cases performed
    exact ⟨_, rfl⟩
  rcases peek_agrees_with_pop built reached with
    ⟨key?, seen, looked, again, popped, _⟩ | ⟨_, fails, _⟩
  · obtain ⟨unmet, met, rfl⟩ : queue.deadlocks = 0 ∧ seen.deadlocks = 1 ∧
        key? = some LaneQueue.blockedMessage.key := by
      cases built
      cases performed
      cases looked
      exact ⟨rfl, rfl, rfl⟩
    exact ⟨start, queue, seen, after, built, reached, unmet, looked, met, again,
      popped.trans taken, taken⟩
  · cases taken.symm.trans fails

end EventQueue

end EventKernel.Queue
