import EventKernel.Proofs.LaneRecords
import EventKernel.Proofs.PeekedQueues

set_option autoImplicit false

/-! A barrier that is taken away again leaves no trace. While it is there, later events may be
parked behind it, further barriers among them, and they return to their list in another order when
it goes. But then the events held are those of a queue that never knew the barrier, and nothing
else of them shows. The queue may be in any state that operations can reach. -/

namespace EventKernel.Queue

open Exploration (Hook)

/-- The keys of what a list holds go by its answers. -/
theorem BarrierList.Sound.perform_keys {list rest : BarrierList} (sound : list.Sound)
    (distinct : (list.events.map fun event => event.key.uid).Nodup) {operation : Operation}
    {answer : Answer} (performed : list.perform operation = .ok (answer, rest)) :
    (rest.events.map Event.key).Perm
      (liveAfter (list.events.map Event.key) operation answer) := by
  have taken {event? : Option Event} {rest : BarrierList}
      (left : list.events.Perm (event?.toList ++ rest.events)) :
      (list.events.map Event.key).Perm
        ((event?.map Event.key).toList ++ rest.events.map Event.key) := by
    have keys := left.map Event.key
    rw [List.map_append] at keys
    cases event? with
    | none => exact keys
    | some event => exact keys
  have twins := BarrierList.Twins.refl sound
  cases operation with
  | insert event =>
      cases performed
      exact (sound.insert_events event).map Event.key
  | reinsert event =>
      cases performed
      exact (sound.insert_events event).map Event.key
  | next =>
      cases performed
      exact .refl _
  | pop =>
      obtain ⟨⟨event?, _⟩, popped, same⟩ := bind_eq_ok performed
      cases same
      obtain ⟨_, _, _, pops, _, _, left⟩ := twins.pop distinct
      cases pops.symm.trans popped
      exact (perm_liveAfter_of_taken (taken left)).1
  | erase key =>
      obtain ⟨⟨event?, _⟩, erased, same⟩ := bind_eq_ok performed
      cases same
      have unhosted : ∀ guest ∈ ([] : List Event), guest.key.uid ≠ key.uid := List.forall_mem_nil _
      obtain ⟨_, _, _, erases, _, _, left⟩ := twins.erase distinct unhosted
      cases erases.symm.trans erased
      exact (perm_liveAfter_of_taken (taken left)).2 key
  | drain =>
      cases performed
      exact .refl _

private theorem forall_liveAfter {live : List EventKey} {operation : Operation} {unused : EventKey}
    {answer : Answer} (others : operation.Fresh [unused])
    (apart : ∀ key ∈ live, key.uid ≠ unused.uid) :
    ∀ key ∈ liveAfter live operation answer, key.uid ≠ unused.uid := by
  have entered {event : Event} (new : ∀ key ∈ [unused], key.uid ≠ event.key.uid) :
      ∀ key ∈ event.key :: live, key.uid ≠ unused.uid :=
    List.forall_mem_cons.mpr ⟨(new unused List.mem_cons_self).symm, apart⟩
  cases operation with
  | insert event => exact entered others
  | reinsert event => exact entered others
  | drain => exact List.forall_mem_nil _
  | next | pop | erase _ =>
      cases answer with
      | taken event? =>
          cases event? with
          | none => exact apart
          | some event => exact fun key member => apart key (List.mem_of_mem_erase member)
      | inserted | reinserted | next | drained => exact apart

/-! ### Layouts with records -/

namespace Layout

def Recorded (layout : Layout) (entities : Nat) (astray : List EventKey) : Prop :=
  match layout with
  | single list => list.Sound ∧ (list.events.map fun event => event.key.uid).Nodup
  | partitioned lanes => lanes.Recorded entities astray

variable {layout after first second : Layout} {entities : Nat} {astray : List EventKey}

private theorem Sound.recorded (sound : layout.Sound entities) : layout.Recorded entities [] := by
  cases layout with
  | single list => exact sound
  | partitioned lanes => exact LaneQueue.Sound.recorded sound

namespace Recorded

variable (recorded : layout.Recorded entities astray)

include recorded

private theorem twins : layout.Twins 0 layout := by
  cases layout with
  | single list => exact .single (BarrierList.Twins.refl recorded.1) recorded.2
  | partitioned lanes => exact .partitioned (LaneQueue.Recorded.twins recorded)

private theorem insert {event : Event} (owner : event.key.context.Known entities)
    (cause : event.prevContext.Known entities)
    (fresh : ∀ other ∈ layout.events, other.key.uid ≠ event.key.uid) :
    ∃ after, layout.insert event = .ok after ∧ after.Recorded entities astray := by
  cases layout with
  | single list =>
      rw [events_single] at fresh
      exact ⟨_, rfl, recorded.1.insert event, LaneQueue.distinct_added event recorded.2 fresh
        (recorded.1.insert_events event)⟩
  | partitioned lanes =>
      obtain ⟨after, inserted, kept⟩ := LaneQueue.Recorded.insert recorded
        ⟨laneOf_le_iff.mpr owner, fun _ => laneOf_le_iff.mpr cause⟩ fresh
      refine ⟨partitioned after, ?_, kept⟩
      unfold Layout.insert
      simp only [inserted]
      rfl

private theorem erase (key : EventKey) : ∃ event? after, layout.erase key = .ok (event?, after) ∧
    after.Recorded entities (LaneQueue.mislaid key event? ++ astray) ∧
    ∀ event, event? = some event → event ∈ layout.events := by
  cases layout with
  | single list =>
      have unhosted : ∀ guest ∈ ([] : List Event), guest.key.uid ≠ key.uid := List.forall_mem_nil _
      obtain ⟨event?, left, _, erased, _, kept, taken⟩ :=
        (BarrierList.Twins.refl recorded.1).erase recorded.2 unhosted
      refine ⟨event?, single left, ?_,
        ⟨kept.left, LaneQueue.distinct_taken event? recorded.2 taken⟩, ?_⟩
      · unfold Layout.erase
        simp only [erased]
        rfl
      · rintro event rfl
        rw [events_single]
        exact taken.mem_iff.mpr List.mem_cons_self
  | partitioned lanes =>
      obtain ⟨event?, after, erased, kept, held⟩ := LaneQueue.Recorded.erase recorded key
      refine ⟨event?, partitioned after, ?_, kept, held⟩
      unfold Layout.erase
      simp only [erased]
      rfl

private theorem next? {key? : Option EventKey} (looked : layout.next? = .ok (key?, after)) :
    after.Recorded entities astray := by
  cases layout with
  | single list =>
      cases looked
      exact recorded
  | partitioned lanes =>
      obtain ⟨⟨_, last⟩, looks, same⟩ := map_eq_ok looked
      cases same
      exact LaneQueue.Recorded.next? recorded looks

private theorem pop {event? : Option Event} (popped : layout.pop = .ok (event?, after)) :
    after.Recorded entities astray := by
  cases layout with
  | single list =>
      obtain ⟨⟨_, rest⟩, pops, same⟩ := map_eq_ok popped
      cases same
      obtain ⟨_, left, _, returned, _, kept, taken⟩ :=
        (BarrierList.Twins.refl recorded.1).pop recorded.2
      cases returned.symm.trans pops
      exact ⟨kept.left, LaneQueue.distinct_taken _ recorded.2 taken⟩
  | partitioned lanes =>
      obtain ⟨⟨_, last⟩, pops, same⟩ := map_eq_ok popped
      cases same
      exact LaneQueue.Recorded.pop recorded pops

private theorem drain : layout.drain.2.Recorded entities astray := by
  cases layout with
  | single list => exact ⟨BarrierList.empty_sound _, List.nodup_nil⟩
  | partitioned lanes => exact LaneQueue.Recorded.drain recorded

end Recorded

/-- The keys of what is held go by the answer, whatever the layout. -/
private theorem Recorded.perform_keys (recorded : layout.Recorded entities astray)
    {operation : Operation} (fresh : operation.Fresh (layout.events.map Event.key))
    {answer : Answer} (performed : layout.perform operation = .ok (answer, after)) :
    (after.events.map Event.key).Perm
      (liveAfter (layout.events.map Event.key) operation answer) := by
  cases layout with
  | single list =>
      obtain ⟨⟨_, rest⟩, done, same⟩ := map_eq_ok performed
      cases same
      rw [events_single, events_single]
      exact recorded.1.perform_keys recorded.2 done
  | partitioned lanes =>
      obtain ⟨⟨_, rest⟩, done, same⟩ := map_eq_ok performed
      cases same
      have recorded : lanes.Recorded entities astray := recorded
      exact (recorded.toCharted.perform (.refl _) fresh done).2

/-! ### A barrier comes and goes -/

variable {guest : Event}

private theorem Recorded.invite (recorded : layout.Recorded entities astray)
    (owner : guest.key.context.Known entities) (barrier : guest.kind = .timeout)
    (fresh : ∀ other ∈ layout.events, other.key.uid ≠ guest.key.uid) :
    ∃ after, layout.insert guest = .ok after ∧ after.Hosts 0 [guest] layout := by
  have twins := recorded.twins
  cases layout with
  | single list =>
      rw [events_single] at fresh
      exact ⟨_, rfl, .single (BarrierList.Hosts.invite (BarrierList.Twins.refl recorded.1) guest)
        (LaneQueue.distinct_added guest recorded.2 fresh (recorded.1.insert_events guest))⟩
  | partitioned lanes =>
      have recorded : lanes.Recorded entities astray := recorded
      have within : LaneQueue.laneOf guest.key.context < lanes.lanes.length := by
        rw [recorded.laneCount]
        exact Nat.lt_succ_of_le (laneOf_le_iff.mpr owner)
      have stays : lanes.isCrossing guest = false := by
        refine Bool.eq_false_iff.mpr fun crossing => ?_
        have outgoing := (LaneQueue.isCrossing_iff.mp crossing).2.1
        rw [barrier] at outgoing
        cases outgoing
      obtain ⟨after, inserted, hosts⟩ := recorded.twins.invite stays within fresh
      refine ⟨partitioned after, ?_, .partitioned hosts⟩
      unfold Layout.insert
      simp only [inserted]
      rfl

private theorem Hosts.guest_events (hosts : Hosts 0 [guest] first second)
    (recorded : second.Recorded entities astray) (owner : guest.key.context.Known entities) :
    first.events.Perm (guest :: second.events) := by
  cases hosts with
  | single lists =>
      rw [events_single, events_single]
      exact lists.events
  | @partitioned lanes others queues =>
      have recorded : others.Recorded entities astray := recorded
      refine queues.guest_events ?_
      rw [← queues.laneCount, recorded.laneCount]
      exact Nat.lt_succ_of_le (laneOf_le_iff.mpr owner)

private theorem Hosts.dismiss (hosts : Hosts 0 [guest] first second)
    (recorded : second.Recorded entities astray) (owner : guest.key.context.Known entities)
    (barrier : guest.kind = .timeout) (known : guest.key ∉ astray) :
    ∃ after, first.erase guest.key = .ok (some guest, after) ∧ after.Twins 0 second := by
  have guests := hosts.guest_events recorded owner
  cases hosts with
  | single lists distinct =>
      obtain ⟨left, erased, twins, taken⟩ := lists.dismiss distinct
      refine ⟨.single left, ?_, .single twins
        (LaneQueue.distinct_taken (some guest) distinct taken)⟩
      unfold Layout.erase
      simp only [erased]
      rfl
  | @partitioned lanes others queues =>
      have recorded : others.Recorded entities astray := recorded
      have within : LaneQueue.laneOf guest.key.context < lanes.lanes.length := by
        rw [← queues.laneCount, recorded.laneCount]
        exact Nat.lt_succ_of_le (laneOf_le_iff.mpr owner)
      obtain ⟨index, atDest⟩ : ∃ index,
          others.outbound[LaneQueue.laneOf guest.key.context]? = some index :=
        ⟨_, List.getElem?_eq_getElem (by
          rw [recorded.indexCount, queues.laneCount]
          exact within)⟩
      have unlisted : index.holder? guest.key = none := by
        cases holder : index.holder? guest.key with
        | none => rfl
        | some sender =>
            have holds := (Outbound.holder?_eq_some_iff
              (recorded.entered.ordered _ _ atDest).1).mp holder
            rcases recorded.listed _ _ atDest _ holds with lost | ⟨event, held, _, named⟩
            · exact absurd lost known
            · exact absurd (congrArg EventKey.uid named)
                (LaneQueue.apart_of_taken queues.distinct guests event held)
      obtain ⟨after, erased, twins⟩ := queues.dismiss within
        (queues.outbound_eq ▸ atDest) unlisted (by rw [barrier]; exact EventKind.noConfusion)
      refine ⟨.partitioned after, ?_, .partitioned twins⟩
      unfold Layout.erase
      simp only [erased]
      rfl

end Layout

/-! ### Operations of a caller -/

namespace Operation

/-- Whatever is put in has an owner and a cause among so many entities. -/
def Known (entities : Nat) : Operation → Prop
  | .insert event => event.key.context.Known entities ∧ event.prevContext.Known entities
  | .reinsert event => event.key.context.Known entities ∧ event.prevContext.Known entities
  | _ => True

/-- The key of an event that was taken under another key. -/
def mislays : Operation → Answer → List EventKey
  | .erase key, .taken event? => LaneQueue.mislaid key event?
  | _, _ => []

/-- Insertions for known entities, and removals of events with another serial number. -/
inductive Spares (entities : Nat) (uid : EventUid) : Operation → Prop
  | insert {event : Event} (owner : event.key.context.Known entities)
      (cause : event.prevContext.Known entities) : Spares entities uid (.insert event)
  | erase {key : EventKey} (other : key.uid ≠ uid) : Spares entities uid (.erase key)

end Operation

namespace EventQueue

variable {σ : Type}

/-- The states that a queue for so many entities can reach, each with the keys of the events that
were taken under another key than their own. Serial numbers of events held are never used
again. -/
inductive Attains [Hook σ] (start : EventQueue σ) (entities : Nat) :
    List EventKey → EventQueue σ → Prop
  | start : Attains start entities [] start
  | step {astray : List EventKey} {queue after : EventQueue σ} {answer : Answer}
      (operation : Operation) (earlier : Attains start entities astray queue)
      (fresh : operation.Fresh queue.keys) (known : operation.Known entities)
      (performed : queue.perform operation = .ok (answer, after)) :
      Attains start entities (operation.mislays answer ++ astray) after

structure Recorded (queue : EventQueue σ) (entities : Nat) (astray : List EventKey) : Prop
    extends queue.Unexplored where
  layout : queue.layout.Recorded entities astray

variable {queue start after first second : EventQueue σ} {entities : Nat}
  {astray : List EventKey} {guest : Event}

private theorem Recorded.of_new {configuration : Configuration} {hook : σ}
    (quiet : configuration.exploration.enabled = false)
    (built : EventQueue.new configuration hook = .ok (.ok queue)) :
    queue.Recorded configuration.entities [] := by
  obtain ⟨sound, _⟩ := sound_of_new built
  exact ⟨.of_new quiet built, sound.recorded⟩

namespace Recorded

variable (recorded : queue.Recorded entities astray)

include recorded

private theorem relayout {layout : Layout} {more : List EventKey}
    (kept : layout.Recorded entities more) :
    Recorded { queue with layout } entities more :=
  ⟨⟨recorded.quiet, recorded.unexplored⟩, kept⟩

private theorem insert [Hook σ] {event : Event} (owner : event.key.context.Known entities)
    (cause : event.prevContext.Known entities)
    (fresh : ∀ key ∈ queue.keys, key.uid ≠ event.key.uid) :
    ∃ after, queue.insert event = .ok (.ok event.key, after) ∧
      after.Recorded entities astray := by
  obtain ⟨layout, inserted, kept⟩ := recorded.layout.insert owner cause
    fun other member => fresh other.key (List.mem_map_of_mem member)
  refine ⟨_, ?_, recorded.relayout kept⟩
  rw [recorded.insert_eq, inserted]
  rfl

private theorem erase (key : EventKey) : ∃ event? after, queue.erase key = .ok (event?, after) ∧
    after.Recorded entities (LaneQueue.mislaid key event? ++ astray) ∧
    ∀ event, event? = some event → event ∈ queue.layout.events := by
  obtain ⟨event?, layout, erased, kept, held⟩ := recorded.layout.erase key
  refine ⟨event?, _, ?_, recorded.relayout kept, held⟩
  unfold EventQueue.erase
  rw [erased]
  rfl

private theorem perform [Hook σ] {operation : Operation} (fresh : operation.Fresh queue.keys)
    (known : operation.Known entities) {answer : Answer}
    (performed : queue.perform operation = .ok (answer, after)) :
    after.Recorded entities (operation.mislays answer ++ astray) := by
  cases operation with
  | insert event =>
      obtain ⟨last, inserted, kept⟩ := recorded.insert known.1 known.2 fresh
      obtain ⟨_, inserts, same⟩ := bind_eq_ok performed
      cases inserted.symm.trans inserts
      cases same
      exact kept
  | reinsert event =>
      obtain ⟨layout, inserted, kept⟩ := recorded.layout.insert known.1 known.2
        fun other member => fresh other.key (List.mem_map_of_mem member)
      obtain ⟨last, inserts, same⟩ := bind_eq_ok performed
      obtain ⟨_, places, returned⟩ := bind_eq_ok inserts
      cases inserted.symm.trans places
      cases returned
      cases same
      exact recorded.relayout kept
  | next =>
      obtain ⟨_, looked, same⟩ := bind_eq_ok performed
      obtain ⟨_, looks, returned⟩ := bind_eq_ok looked
      cases returned
      cases same
      exact recorded.relayout (recorded.layout.next? looks)
  | pop =>
      obtain ⟨_, popped, same⟩ := bind_eq_ok performed
      obtain ⟨_, pops, returned⟩ := bind_eq_ok popped
      cases returned
      cases same
      exact recorded.relayout (recorded.layout.pop pops)
  | erase key =>
      obtain ⟨event?, last, erased, kept, _⟩ := recorded.erase key
      obtain ⟨_, erases, same⟩ := bind_eq_ok performed
      cases erased.symm.trans erases
      cases same
      exact kept
  | drain =>
      cases performed
      exact recorded.relayout recorded.layout.drain

end Recorded

/-! ### While the barrier is there -/

private theorem Hosts.apart (hosts : Hosts 0 [guest] first second)
    (recorded : second.Recorded entities astray) (owner : guest.key.context.Known entities) :
    (∀ key ∈ second.keys, key ∈ first.keys) ∧
      ∀ event ∈ second.layout.events, event.key ≠ guest.key := by
  have guests := hosts.layouts.guest_events recorded.layout owner
  have apart := LaneQueue.apart_of_taken hosts.layouts.distinct guests
  refine ⟨fun key member => ?_, fun event member same =>
    apart event member (congrArg EventKey.uid same)⟩
  obtain ⟨event, held, named⟩ := List.mem_map.mp member
  exact named ▸ List.mem_map_of_mem (guests.mem_iff.mpr (List.mem_cons_of_mem _ held))

private theorem Hosts.answer [Hook σ] (hosts : Hosts 0 [guest] first second)
    (recorded : second.Recorded entities astray) (owner : guest.key.context.Known entities)
    (known : guest.key ∉ astray) {operation : Operation}
    (spares : operation.Spares entities guest.key.uid) (fresh : operation.Fresh first.keys) :
    ∃ answer held plain more, first.perform operation = .ok (answer, held) ∧
      second.perform operation = .ok (answer, plain) ∧ Hosts 0 [guest] held plain ∧
      plain.Recorded entities more ∧ guest.key ∉ more := by
  obtain ⟨among, apart⟩ := hosts.apart recorded owner
  cases spares with
  | @insert event owner cause =>
      obtain ⟨plain, there, noted⟩ := recorded.insert owner cause
        fun key member => fresh key (among key member)
      obtain ⟨⟨_, held⟩, here, rfl, kept⟩ := (hosts.insert event
        fun other member => fresh other.key (List.mem_map_of_mem member)).returned there
      refine ⟨.inserted (.ok event.key), held, plain, astray, ?_, ?_, kept, noted, known⟩
      · simp only [perform, here, bind, Except.bind]
        rfl
      · simp only [perform, there, bind, Except.bind]
        rfl
  | @erase key other =>
      obtain ⟨event?, plain, there, noted, taken⟩ := recorded.erase key
      obtain ⟨⟨returned?, held⟩, here, rfl, kept⟩ := (hosts.erase key
        fun _ single => List.mem_singleton.mp single ▸ other.symm).returned there
      refine ⟨.taken returned?, held, plain, _, ?_, ?_, kept, noted, fun member => ?_⟩
      · simp only [perform, here, bind, Except.bind]
        rfl
      · simp only [perform, there, bind, Except.bind]
        rfl
      · rcases List.mem_append.mp member with lost | before
        · obtain ⟨event, returned, named⟩ := Option.map_eq_some_iff.mp
            (Option.mem_toList.mp (List.mem_of_mem_filter lost))
          exact apart event (taken event returned) named
        · exact known before

/-- Insertions and removals of other events are answered as if the guest was not there. -/
theorem Hosts.answers [Hook σ] (hosts : Hosts 0 [guest] first second)
    (recorded : second.Recorded entities astray) (owner : guest.key.context.Known entities)
    (known : guest.key ∉ astray) {operations : List Operation}
    (spares : ∀ operation ∈ operations, operation.Spares entities guest.key.uid)
    (numbered : Numbered EventQueue.perform keys first operations) :
    ∃ replies held plain more,
      Queue.answers EventQueue.perform first operations = .ok (replies, held) ∧
      Queue.answers EventQueue.perform second operations = .ok (replies, plain) ∧
      Hosts 0 [guest] held plain ∧ plain.Recorded entities more ∧ guest.key ∉ more := by
  induction operations generalizing first second astray with
  | nil => exact ⟨[], first, second, astray, rfl, rfl, hosts, recorded, known⟩
  | cons operation rest ih =>
      obtain ⟨fresh, later⟩ := numbered
      obtain ⟨answer, held, plain, more, here, there, kept, noted, stillKnown⟩ :=
        hosts.answer recorded owner known (spares operation List.mem_cons_self) fresh
      rw [here] at later
      obtain ⟨replies, last, bare, most, answered, otherAnswered, rest⟩ := ih kept noted stillKnown
        (fun other member => spares other (List.mem_cons_of_mem _ member)) later
      refine ⟨answer :: replies, last, bare, most, ?_, ?_, rest⟩
      · unfold Queue.answers
        simp only [here, answered, bind, Except.bind]
        rfl
      · unfold Queue.answers
        simp only [there, otherAnswered, bind, Except.bind]
        rfl

theorem Attains.recorded [Hook σ] {configuration : Configuration} {hook : σ}
    (quiet : configuration.exploration.enabled = false)
    (built : EventQueue.new configuration hook = .ok (.ok start))
    (attained : start.Attains configuration.entities astray queue) :
    queue.Recorded configuration.entities astray := by
  induction attained with
  | start => exact .of_new quiet built
  | step operation _ fresh known performed ih => exact ih.perform fresh known performed

/-- A serial number that an operation does not put in stays unused, by what is held and by what has
gone astray. -/
private theorem Recorded.apart_perform [Hook σ] (recorded : queue.Recorded entities astray)
    {operation : Operation} (fresh : operation.Fresh queue.keys) {answer : Answer}
    (performed : queue.perform operation = .ok (answer, after)) {unused : EventKey}
    (others : operation.Fresh [unused])
    (apart : ∀ key ∈ queue.keys ++ astray, key.uid ≠ unused.uid) :
    ∀ key ∈ after.keys ++ (operation.mislays answer ++ astray), key.uid ≠ unused.uid := by
  obtain ⟨held, strays⟩ := List.forall_mem_append.mp apart
  refine List.forall_mem_append.mpr ⟨?_, List.forall_mem_append.mpr ⟨?_, strays⟩⟩
  · rcases perform_layout performed with same | ⟨done, keeps, does⟩
    · unfold keys
      rw [same]
      exact held
    · intro key member
      have live := (recorded.layout.perform_keys (keeps _ fresh) does).mem_iff.mp member
      exact forall_liveAfter (keeps _ others) held key live
  · cases operation with
    | insert | reinsert | next | pop | drain => exact List.forall_mem_nil _
    | erase key =>
        obtain ⟨event?, last, erased, _, taken⟩ := recorded.erase key
        obtain ⟨_, erases, same⟩ := bind_eq_ok performed
        cases erased.symm.trans erases
        cases same
        intro lost member
        obtain ⟨event, returned, named⟩ := Option.map_eq_some_iff.mp
          (Option.mem_toList.mp (List.mem_of_mem_filter member))
        exact held lost (named ▸ List.mem_map_of_mem (taken event returned))

private theorem Attains.apart_answers [Hook σ] {configuration : Configuration} {hook : σ}
    (quiet : configuration.exploration.enabled = false)
    (built : EventQueue.new configuration hook = .ok (.ok start))
    (attained : start.Attains configuration.entities astray queue) {unused : EventKey}
    (apart : ∀ key ∈ queue.keys ++ astray, key.uid ≠ unused.uid) {operations : List Operation}
    {replies : List Answer} (performed : answers perform queue operations = .ok (replies, after))
    (numbered : Numbered perform keys queue operations)
    (known : ∀ operation ∈ operations, operation.Known configuration.entities)
    (others : ∀ operation ∈ operations, operation.Fresh [unused]) :
    ∃ lost, start.Attains configuration.entities lost after ∧
      ∀ key ∈ after.keys ++ lost, key.uid ≠ unused.uid := by
  induction operations generalizing queue astray replies with
  | nil =>
      cases performed
      exact ⟨astray, attained, apart⟩
  | cons operation rest ih =>
      obtain ⟨⟨answer, next⟩, first, performed⟩ := bind_eq_ok performed
      obtain ⟨⟨later, last⟩, second, same⟩ := bind_eq_ok performed
      cases same
      obtain ⟨fresh, numbered⟩ := numbered
      rw [first] at numbered
      obtain ⟨firstKnown, known⟩ := List.forall_mem_cons.mp known
      obtain ⟨firstOther, others⟩ := List.forall_mem_cons.mp others
      exact ih (.step operation attained fresh firstKnown first)
        ((attained.recorded quiet built).apart_perform fresh first firstOther apart) second
        numbered known others

/-- Where operations one after another have led, a serial number that none of them put in is that
of nothing held, and of nothing that has gone astray. -/
theorem exists_attains_of_unused [Hook σ] {configuration : Configuration} {hook : σ}
    (quiet : configuration.exploration.enabled = false)
    (built : EventQueue.new configuration hook = .ok (.ok start)) {operations : List Operation}
    {replies : List Answer} (performed : answers perform start operations = .ok (replies, queue))
    (numbered : Numbered perform keys start operations)
    (known : ∀ operation ∈ operations, operation.Known configuration.entities)
    {unused : EventKey} (others : ∀ operation ∈ operations, operation.Fresh [unused]) :
    ∃ astray, start.Attains configuration.entities astray queue ∧
      (∀ key ∈ queue.keys, key.uid ≠ unused.uid) ∧ unused ∉ astray := by
  have nothing : ∀ key ∈ start.keys ++ [], key.uid ≠ unused.uid := by
    obtain ⟨_, noEvents, _⟩ := sound_of_new built
    unfold keys
    rw [noEvents]
    exact List.forall_mem_nil _
  obtain ⟨astray, attained, apart⟩ := Attains.start.apart_answers quiet built nothing performed
    numbered known others
  obtain ⟨held, lost⟩ := List.forall_mem_append.mp apart
  exact ⟨astray, attained, held, fun stray => lost unused stray rfl⟩

/-- A barrier is inserted into a queue, other events are inserted and removed, and the barrier is
removed by its key. The removal returns it, and from then on the queue answers as one that was
asked for the rest only. The key of the barrier must not be that of a message which was taken under
another key, as a removal looks for messages first; a serial number that is used for the first
time is never part of such a key (`exists_attains_of_unused`). -/
theorem cancelled_barrier_leaves_no_trace [Hook σ] {configuration : Configuration} {hook : σ}
    (quiet : configuration.exploration.enabled = false)
    (built : EventQueue.new configuration hook = .ok (.ok start))
    (attained : start.Attains configuration.entities astray queue) {barrier : Event}
    (timeout : barrier.kind = .timeout)
    (owner : barrier.key.context.Known configuration.entities)
    (fresh : ∀ key ∈ queue.keys, key.uid ≠ barrier.key.uid) (known : barrier.key ∉ astray) :
    ∃ entered, queue.insert barrier = .ok (.ok barrier.key, entered) ∧
      ∀ operations, (∀ operation ∈ operations,
          operation.Spares configuration.entities barrier.key.uid) →
        Numbered perform keys entered operations →
        ∃ replies held plain released,
          answers perform entered operations = .ok (replies, held) ∧
          answers perform queue operations = .ok (replies, plain) ∧
          held.erase barrier.key = .ok (some barrier, released) ∧
          released.reading = plain.reading ∧
          ∀ future, Numbered perform keys released future →
            TracesAgree (trace perform reading released future)
              (trace perform reading plain future) := by
  have recorded := attained.recorded quiet built
  obtain ⟨layout, inserted, hosting⟩ := recorded.layout.invite owner timeout
    fun other member => fresh other.key (List.mem_map_of_mem member)
  have hosts : Hosts 0 [barrier] { queue with layout } queue :=
    ⟨rfl, ⟨recorded.quiet, recorded.unexplored⟩, recorded.toUnexplored, hosting⟩
  refine ⟨{ queue with layout }, ?_, fun operations spares numbered => ?_⟩
  · rw [recorded.insert_eq, inserted]
    rfl
  · obtain ⟨replies, held, plain, more, here, there, kept, noted, stillKnown⟩ :=
      hosts.answers recorded owner known spares numbered
    obtain ⟨left, erased, twins⟩ := kept.layouts.dismiss noted.layout owner timeout stillKnown
    have same : Twins 0 { held with layout := left } plain :=
      ⟨kept.configuration, ⟨kept.left.quiet, kept.left.unexplored⟩, kept.right, twins⟩
    refine ⟨replies, held, plain, { held with layout := left }, here, there, ?_,
      same.reading_eq rfl, fun _ => same.traces_agree rfl⟩
    unfold EventQueue.erase
    rw [erased]
    rfl

def parkingConfiguration : Configuration :=
  { LaneQueue.waitingConfiguration with strategies := .all }

def outerBarrier : Event := ⟨⟨⟨13⟩, ⟨7⟩, .node ⟨2⟩⟩, .timeout, .node ⟨2⟩, none⟩

def innerBarrier : Event := ⟨⟨⟨14⟩, ⟨9⟩, .node ⟨2⟩⟩, .timeout, .node ⟨2⟩, none⟩

def lateEvent : Event := ⟨⟨⟨14⟩, ⟨8⟩, .node ⟨2⟩⟩, .undefined, .node ⟨2⟩, none⟩

def parkedOperations : List Operation :=
  [.insert innerBarrier, .insert LaneQueue.laterMessage, .insert lateEvent]

/-- What is parked leaves the barrier in another order than it came in. -/
theorem cancelled_barrier_leaves_no_trace_nested :
    ∃ (start queue entered held plain released : EventQueue Exploration.Silent)
      (replies : List Answer),
      EventQueue.new parkingConfiguration .silent = .ok (.ok start) ∧
      start.Attains 3 [] queue ∧ queue.keys = [LaneQueue.freeEvent.key] ∧
      queue.insert outerBarrier = .ok (.ok outerBarrier.key, entered) ∧
      answers perform entered parkedOperations = .ok (replies, held) ∧
      answers perform queue parkedOperations = .ok (replies, plain) ∧
      held.erase outerBarrier.key = .ok (some outerBarrier, released) ∧
      TracesAgree (trace perform reading released [.pop, .pop, .pop, .pop])
        (trace perform reading plain [.pop, .pop, .pop, .pop]) := by
  obtain ⟨start, built⟩ : ∃ start : EventQueue Exploration.Silent,
      EventQueue.new parkingConfiguration Exploration.Silent.silent = .ok (.ok start) := ⟨_, rfl⟩
  obtain ⟨queue, performed⟩ : ∃ queue, start.perform (.insert LaneQueue.freeEvent) =
      .ok (.inserted (.ok LaneQueue.freeEvent.key), queue) := by
    cases built
    exact ⟨_, rfl⟩
  have attained : start.Attains 3 [] queue := .step (.insert LaneQueue.freeEvent) .start
    (by cases built; decide) ⟨by decide, by decide⟩ performed
  obtain ⟨entered, inserted, alike⟩ := cancelled_barrier_leaves_no_trace rfl built attained
    (rfl : outerBarrier.kind = .timeout) (by decide)
    (by cases built; cases performed; decide) List.not_mem_nil
  have spares : ∀ operation ∈ parkedOperations, operation.Spares 3 outerBarrier.key.uid := by
    unfold parkedOperations
    simp only [List.forall_mem_cons]
    exact ⟨.insert (by decide) (by decide), .insert (by decide) (by decide),
      .insert (by decide) (by decide), List.forall_mem_nil _⟩
  obtain ⟨replies, held, plain, released, here, there, erased, _, agree⟩ :=
    alike parkedOperations spares (by cases built; cases performed; cases inserted; decide)
  refine ⟨start, queue, entered, held, plain, released, replies, built, attained, ?_, inserted,
    here, there, erased, agree _ ?_⟩
  · cases built
    cases performed
    rfl
  · cases built
    cases performed
    cases inserted
    cases here
    cases erased
    decide

end EventQueue

end EventKernel.Queue
