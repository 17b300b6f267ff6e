import EventKernel.Proofs.HeldKeys

set_option autoImplicit false

/-! The books of a simulation: the queue, the table of callbacks, and the count of events that
are scheduled. Every operation keeps the three in step, whatever the strategies and whatever
exploration refuses. So no operation finds an event in one of them that another has lost. -/

namespace EventKernel

namespace Simulation

open Queue (EventQueue)
open Exploration (Hook)

variable {σ β : Type} {simulation after : Simulation σ β} {entities : Nat}
  {keys : List EventKey} {given : Handle → Prop}

/-- The queue holds these keys, and the other books list the same. A handle that was given out
names the event that is queued under its number, if there is one. -/
structure Booked (simulation : Simulation σ β) (entities : Nat) (keys : List EventKey)
    (given : Handle → Prop) : Prop where
  holds : simulation.queue.Holds entities keys
  clocks : simulation.localClocks.length = entities
  ordinary : EventUid.first.value.toNat ≤ simulation.nextUid.value.toNat
  numbered : ∀ key ∈ keys, EventUid.first.value.toNat ≤ key.uid.value.toNat ∧
    key.uid.value.toNat < simulation.nextUid.value.toNat
  slots : simulation.slots.uids.Perm (keys.map EventKey.uid)
  counted : simulation.unscheduled = keys.length
  handles : ∀ handle, given handle → handle.isDestroy = false →
    handle.key.uid.value.toNat < simulation.nextUid.value.toNat ∧
      ∀ key ∈ keys, key.uid = handle.key.uid → key = handle.key

/-- A key under which a planned event may be queued: that of its owner, with the next number, and
not before the planned instant. -/
structure Planned (simulation : Simulation σ β) (plan : Plan) (key : EventKey) : Prop where
  owner : key.context = plan.context
  number : key.uid = simulation.nextUid
  later : ∃ clock, simulation.clock plan.base = .ok clock ∧
    clock.now.value.toNat + plan.delay.toNat ≤ key.ts.value.toNat

theorem known_of_clock {context : Context} {clock : Clock}
    (read : simulation.clock context = .ok clock) :
    context.Known simulation.localClocks.length := by
  cases context with
  | global => trivial
  | node id =>
      unfold Simulation.clock at read
      simp only at read
      split at read
      · rename_i held found
        exact (List.getElem?_eq_some_iff.mp found).1
      · cases read

theorem exists_clock {context : Context} (known : context.Known simulation.localClocks.length) :
    ∃ clock, simulation.clock context = .ok clock := by
  cases context with
  | global => exact ⟨simulation.globalClock, rfl⟩
  | node id =>
      refine ⟨simulation.localClocks[id.index], ?_⟩
      unfold Simulation.clock
      simp only [List.getElem?_eq_getElem known]

private theorem exists_advanceClock {key : EventKey}
    (known : key.context.Known simulation.localClocks.length) :
    ∃ after, simulation.advanceClock key = .ok after := by
  unfold advanceClock
  cases owner : key.context with
  | global => exact ⟨_, rfl⟩
  | node id =>
      rw [owner] at known
      exact ⟨_, if_pos known⟩

private theorem advanceClock_length {key : EventKey}
    (moved : simulation.advanceClock key = .ok after) :
    after.localClocks.length = simulation.localClocks.length := by
  unfold advanceClock at moved
  split at moved
  · cases moved
    rfl
  · split at moved
    · cases moved
      exact List.length_set
    · cases moved

namespace Booked

/-! ### What the books say -/

theorem distinct (booked : simulation.Booked entities keys given) :
    (keys.map EventKey.uid).Nodup :=
  booked.holds.distinct

theorem slot_iff (booked : simulation.Booked entities keys given) {uid : EventUid} :
    (∃ slot, simulation.slots.find? uid = some slot) ↔ uid ∈ keys.map EventKey.uid :=
  Slots.exists_find?_iff.trans booked.slots.mem_iff

theorem key_of_slot (booked : simulation.Booked entities keys given) {handle : Handle}
    (known : given handle) (queued : handle.isDestroy = false) {slot : Slot β}
    (found : simulation.slots.find? handle.key.uid = some slot) : handle.key ∈ keys := by
  obtain ⟨key, member, same⟩ := List.mem_map.mp (booked.slot_iff.mp ⟨slot, found⟩)
  rw [← (booked.handles handle known queued).2 key member same]
  exact member

theorem counts_some (booked : simulation.Booked entities keys given) {key : EventKey}
    (member : key ∈ keys) : 1 ≤ simulation.unscheduled := by
  rw [booked.counted]
  exact List.length_pos_of_mem member

theorem fresh (booked : simulation.Booked entities keys given) :
    simulation.nextUid ∉ keys.map EventKey.uid := by
  intro member
  obtain ⟨key, present, same⟩ := List.mem_map.mp member
  have below := (booked.numbered key present).2
  rw [same] at below
  exact Nat.lt_irrefl _ below

theorem exists_isExpired (booked : simulation.Booked entities keys given) {handle : Handle}
    (known : given handle) : ∃ expired, simulation.isExpired handle = .ok expired := by
  unfold isExpired
  cases destroy : handle.isDestroy with
  | true => exact ⟨_, rfl⟩
  | false =>
      rw [if_neg Bool.false_ne_true]
      cases found : simulation.slots.find? handle.key.uid with
      | none => exact ⟨true, rfl⟩
      | some slot =>
          cases slot with
          | cancelled => exact ⟨true, rfl⟩
          | armed callback =>
              have owner := booked.holds.knows (booked.key_of_slot known destroy found)
              obtain ⟨clock, read⟩ := exists_clock (booked.clocks.symm ▸ owner)
              simp only [read, bind, Except.bind]
              exact ⟨_, rfl⟩

/-- A handle that has not expired names an event with a callback. -/
theorem live_listed (booked : simulation.Booked entities keys given) {handle : Handle}
    (known : given handle) (queued : handle.isDestroy = false)
    (live : simulation.isExpired handle = .ok false) : handle.key ∈ keys := by
  unfold isExpired at live
  rw [queued, if_neg Bool.false_ne_true] at live
  cases found : simulation.slots.find? handle.key.uid with
  | none =>
      rw [found] at live
      cases live
  | some slot => exact booked.key_of_slot known queued found

theorem exists_remove (booked : simulation.Booked entities keys given) {handle : Handle}
    (known : given handle) : ∃ after, simulation.remove handle = .ok after := by
  obtain ⟨expired, asked⟩ := booked.exists_isExpired known
  unfold remove
  cases destroy : handle.isDestroy with
  | true => exact ⟨_, rfl⟩
  | false =>
      rw [if_neg Bool.false_ne_true]
      simp only [asked, bind, Except.bind]
      cases expired with
      | true => exact ⟨simulation, rfl⟩
      | false =>
          have member := booked.live_listed known destroy asked
          obtain ⟨event, _, _, queue, erased, _⟩ := booked.holds.erase member
          obtain ⟨slot, found⟩ := booked.slot_iff.mpr (List.mem_map_of_mem member)
          have some_ := booked.counts_some member
          simp only [erased, found, Bool.false_eq_true, if_false, Option.isNone_some]
          rw [Queue.decrement_of_le some_]
          exact ⟨_, rfl⟩

theorem exists_cancel (booked : simulation.Booked entities keys given) {handle : Handle}
    (known : given handle) : ∃ after, simulation.cancel handle = .ok after := by
  obtain ⟨expired, asked⟩ := booked.exists_isExpired known
  unfold cancel
  simp only [asked, bind, Except.bind]
  cases expired with
  | true => exact ⟨simulation, rfl⟩
  | false =>
      rw [if_neg Bool.false_ne_true]
      split
      · exact booked.exists_remove known
      · exact ⟨_, rfl⟩

/-- Taking the next event fails only where the queue itself does. -/
theorem dequeue_error (booked : simulation.Booked entities keys given) {fault : Fault}
    (failed : simulation.dequeue = .error fault) : simulation.queue.pop = .error fault := by
  unfold dequeue at failed
  rcases booked.holds.pop with ⟨event?, queue, popped, _, left⟩ | fails
  · simp only [popped, bind, Except.bind] at failed
    cases event? with
    | none => cases failed
    | some event =>
        obtain ⟨member, _⟩ := left event rfl
        have some_ := booked.counts_some member
        rw [Queue.decrement_of_le some_] at failed
        have owner : event.key.context.Known simulation.localClocks.length :=
          booked.clocks.symm ▸ booked.holds.knows member
        have moves : ∃ advanced, advanceClock
            { simulation with queue, unscheduled := simulation.unscheduled - 1 } event.key =
              .ok advanced := exists_advanceClock owner
        obtain ⟨advanced, moved⟩ := moves
        obtain ⟨globalClock, localClocks, same⟩ := advanceClock_eq_ok moved
        obtain ⟨slot, found⟩ := booked.slot_iff.mpr (List.mem_map_of_mem member)
        have atSlot : advanced.slots.find? event.key.uid = some slot := by
          rw [same]
          exact found
        simp only [moved, atSlot] at failed
        cases slot <;> cases failed
  · simp only [fails, bind, Except.bind] at failed
    cases failed
    exact fails

theorem exists_endRun (booked : simulation.Booked entities keys given) (before : Nat) :
    ∃ result, simulation.endRun before = .ok result := by
  unfold endRun
  cases simulation.terminated with
  | some reason => exact ⟨_, rfl⟩
  | none =>
      simp only
      split
      · exact ⟨_, rfl⟩
      · rename_i counted
        rw [Bool.or_eq_true, Bool.not_eq_true', not_or] at counted
        have nothing := booked.holds.isEmpty_iff.mp (Bool.not_eq_false _ ▸ counted.1)
        exact absurd (beq_iff_eq.mpr (by rw [booked.counted, nothing]; rfl)) counted.2

theorem goesOn_iff (booked : simulation.Booked entities keys given) :
    simulation.goesOn = true ↔ simulation.stopRequested = false ∧ keys ≠ [] := by
  unfold goesOn
  rw [Bool.and_eq_true, Bool.not_eq_true', Bool.not_eq_true', ← Bool.not_eq_true
    simulation.queue.isEmpty, booked.holds.isEmpty_iff]

/-! ### What keeps the books -/

/-- Parts of a simulation that no book is about. -/
theorem of_same (booked : simulation.Booked entities keys given)
    (queue : after.queue = simulation.queue) (clocks : after.localClocks = simulation.localClocks)
    (slots : after.slots = simulation.slots) (number : after.nextUid = simulation.nextUid)
    (count : after.unscheduled = simulation.unscheduled) : after.Booked entities keys given where
  holds := queue ▸ booked.holds
  clocks := clocks ▸ booked.clocks
  ordinary := number ▸ booked.ordinary
  numbered := number ▸ booked.numbered
  slots := slots ▸ booked.slots
  counted := count ▸ booked.counted
  handles := number ▸ booked.handles

theorem perm {others : List EventKey} (booked : simulation.Booked entities keys given)
    (same : keys.Perm others) : simulation.Booked entities others given where
  holds := booked.holds.perm same
  clocks := booked.clocks
  ordinary := booked.ordinary
  numbered := fun key member => booked.numbered key (same.mem_iff.mpr member)
  slots := booked.slots.trans (same.map EventKey.uid)
  counted := booked.counted.trans same.length_eq
  handles := fun handle known queued => ⟨(booked.handles handle known queued).1,
    fun key member => (booked.handles handle known queued).2 key (same.mem_iff.mpr member)⟩

theorem weaken {fewer : Handle → Prop} (booked : simulation.Booked entities keys given)
    (among : ∀ handle, fewer handle → given handle) : simulation.Booked entities keys fewer :=
  { booked with handles := fun handle known => booked.handles handle (among handle known) }

private theorem renumber (booked : simulation.Booked entities keys given) (nextUid : EventUid)
    (following : simulation.nextUid.value.toNat ≤ nextUid.value.toNat) :
    { simulation with nextUid }.Booked entities keys given where
  holds := booked.holds
  clocks := booked.clocks
  ordinary := Nat.le_trans booked.ordinary following
  numbered := fun key member => ⟨(booked.numbered key member).1,
    Nat.lt_of_lt_of_le (booked.numbered key member).2 following⟩
  slots := booked.slots
  counted := booked.counted
  handles := fun handle known queued => ⟨Nat.lt_of_lt_of_le
    (booked.handles handle known queued).1 following, (booked.handles handle known queued).2⟩

private theorem uids_distinct (booked : simulation.Booked entities keys given) :
    simulation.slots.uids.Nodup :=
  (booked.slots.nodup_iff).mpr booked.distinct

theorem drop (booked : simulation.Booked entities keys given) {key : EventKey}
    (member : key ∈ keys) {queue : EventQueue σ} (holds : queue.Holds entities (keys.erase key))
    {unscheduled : Nat} (one : unscheduled + 1 = simulation.unscheduled) :
    { simulation with
      queue, unscheduled
      slots := simulation.slots.erase key.uid }.Booked entities (keys.erase key) given where
  holds := holds
  clocks := booked.clocks
  ordinary := booked.ordinary
  numbered := fun other present => booked.numbered other (List.mem_of_mem_erase present)
  slots := by
    rw [Slots.uids_erase booked.uids_distinct]
    have shrunk := (booked.slots.trans ((List.perm_cons_erase member).map _)).erase key.uid
    rw [List.map_cons, List.erase_cons_head] at shrunk
    exact shrunk
  counted := by
    have length := List.length_erase_of_mem member
    have counted := booked.counted
    have positive := List.length_pos_of_mem member
    change unscheduled = _
    omega
  handles := fun handle known queued => ⟨(booked.handles handle known queued).1,
    fun other present => (booked.handles handle known queued).2 other
      (List.mem_of_mem_erase present)⟩

theorem registered (booked : simulation.Booked entities keys given) {callback : β}
    {handle : Handle} (registers : simulation.scheduleDestroy callback = .ok (handle, after)) :
    after.Booked entities keys fun other => given other ∨ other = handle := by
  obtain ⟨nextUid, following, same, rfl⟩ := scheduleDestroy_eq_ok registers
  have kept := booked.renumber nextUid (by omega)
  refine { kept.of_same rfl rfl rfl rfl rfl with handles := ?_ }
  intro other known queued
  rcases known with before | new
  · exact kept.handles other before queued
  · rw [new, same] at queued
    cases queued

theorem removed (booked : simulation.Booked entities keys given) {handle : Handle}
    (known : given handle) (queued : handle.isDestroy = false) {queue : EventQueue σ}
    {event : Event} {unscheduled : Nat}
    (erased : simulation.queue.erase handle.key = .ok (some event, queue))
    (live : simulation.isExpired handle = .ok false)
    (one : unscheduled + 1 = simulation.unscheduled) :
    { simulation with
      queue, unscheduled
      slots := simulation.slots.erase handle.key.uid }.Booked entities
        (keys.erase handle.key) given := by
  have member := booked.live_listed known queued live
  obtain ⟨held, _, _, rest, taken, holds⟩ := booked.holds.erase member
  rw [taken] at erased
  cases erased
  exact booked.drop member holds one

theorem cancelled (booked : simulation.Booked entities keys given) {handle : Handle}
    (known : given handle) (queued : handle.isDestroy = false)
    (live : simulation.isExpired handle = .ok false) :
    { simulation with
      slots := simulation.slots.insert handle.key.uid .cancelled }.Booked entities keys given := by
  have member := booked.live_listed known queued live
  have listed := Slots.exists_find?_iff.mp (booked.slot_iff.mpr (List.mem_map_of_mem member))
  refine { booked with slots := ?_ }
  rw [Slots.uids_insert_present .cancelled listed]
  exact booked.slots

theorem withdrawn (booked : simulation.Booked entities keys given) {handle : Handle}
    (known : given handle) (withdrawn : Withdrawn simulation handle after) :
    ∃ others, after.Booked entities others given ∧ others ⊆ keys := by
  cases withdrawn with
  | unregistered destroy =>
      exact ⟨keys, booked.of_same rfl rfl rfl rfl rfl, List.Subset.refl keys⟩
  | ignored expired => exact ⟨keys, booked, List.Subset.refl keys⟩
  | removed queued queue event unscheduled erased live one =>
      exact ⟨_, booked.removed known queued erased live one, List.erase_subset⟩
  | cancelled queued live =>
      exact ⟨keys, booked.cancelled known queued live, List.Subset.refl keys⟩

theorem entered (booked : simulation.Booked entities keys given) {queue : EventQueue σ}
    {event : Event} {unscheduled : Nat} {advanced : Simulation σ β}
    (popped : simulation.queue.pop = .ok (some event, queue))
    (one : unscheduled + 1 = simulation.unscheduled)
    (moved : { simulation with queue, unscheduled }.advanceClock event.key = .ok advanced) :
    event.key ∈ keys ∧
      { advanced with
        context := event.key.context
        slots := simulation.slots.erase event.key.uid }.Booked entities
          (keys.erase event.key) given := by
  rcases booked.holds.pop with ⟨event?, rest, pops, _, left⟩ | fails
  · rw [pops] at popped
    cases popped
    obtain ⟨member, holds⟩ := left event rfl
    have dropped := booked.drop member holds one
    have length := advanceClock_length moved
    obtain ⟨globalClock, localClocks, same⟩ := advanceClock_eq_ok moved
    rw [same] at length ⊢
    exact ⟨member, { dropped with clocks := length.trans booked.clocks }⟩
  · rw [fails] at popped
    cases popped

theorem starved (booked : simulation.Booked entities keys given) {queue : EventQueue σ}
    (popped : simulation.queue.pop = .ok (none, queue)) :
    keys = [] ∧ { simulation with queue }.Booked entities keys given := by
  rcases booked.holds.pop with ⟨event?, rest, pops, none_, _⟩ | fails
  · rw [pops] at popped
    cases popped
    obtain ⟨nothing, same⟩ := none_ rfl
    exact ⟨nothing, booked.of_same same rfl rfl rfl rfl⟩
  · rw [fails] at popped
    cases popped

theorem taken (booked : simulation.Booked entities keys given) {dequeued : Dequeued β}
    (taken : Taken simulation dequeued after) :
    ∃ others, after.Booked entities others given ∧ others ⊆ keys := by
  cases taken with
  | nothing queue popped => exact ⟨keys, (booked.starved popped).2, List.Subset.refl keys⟩
  | entered queue event unscheduled advanced slot popped one moved found =>
      exact ⟨_, (booked.entered popped one moved).2, List.erase_subset⟩

theorem dispose (booked : simulation.Booked entities keys given) :
    simulation.dispose.Booked entities [] given where
  holds := booked.holds.drain.2
  clocks := booked.clocks
  ordinary := booked.ordinary
  numbered := List.forall_mem_nil _
  slots := .refl _
  counted := rfl
  handles := fun handle known queued =>
    ⟨(booked.handles handle known queued).1, List.forall_mem_nil _⟩

theorem replaceQueue (booked : simulation.Booked entities keys given)
    {replacement : EventQueue σ} (empty : replacement.Holds replacement.entities [])
    (replaced : simulation.replaceQueue replacement = .ok after) :
    after.Booked entities keys given := by
  unfold Simulation.replaceQueue at replaced
  split at replaced
  · rename_i same
    rw [same, booked.clocks] at empty
    obtain ⟨all, _⟩ := booked.holds.drain
    obtain ⟨layout, moved, holds, _⟩ := booked.holds.move empty
    rw [all, moved] at replaced
    cases replaced
    exact { booked with holds }
  · cases replaced

section

variable [Hook σ] {event : Event} {callback : Callback β} {handle : Handle} {nextUid : EventUid}

/-- An event that the queue has accepted is entered in all books. -/
theorem queued (booked : simulation.Booked entities keys given)
    (owner : event.key.context.Known entities) (cause : event.prevContext.Known entities)
    (numbered : event.key.uid = simulation.nextUid)
    (following : simulation.nextUid.value.toNat + 1 = nextUid.value.toNat)
    {queue : EventQueue σ} {key : EventKey}
    (inserted : simulation.queue.insert event = .ok (.ok key, queue)) :
    { simulation with
      nextUid, queue
      slots := simulation.slots.insert event.key.uid (.armed callback)
      unscheduled := simulation.unscheduled + 1 }.Booked entities (key :: keys)
        fun other => given other ∨ other = Handle.ofEvent key event.kind := by
  have fresh := booked.fresh
  obtain ⟨uid, context, holds⟩ :=
    booked.holds.accepted owner cause (numbered ▸ fresh) inserted
  rw [numbered] at uid
  have kept := booked.renumber nextUid (by omega)
  refine ⟨holds, booked.clocks, kept.ordinary, ?_, ?_, ?_, ?_⟩
  · intro other member
    rcases List.mem_cons.mp member with new | before
    · rw [new, uid]
      exact ⟨booked.ordinary, Nat.lt_of_succ_le (Nat.le_of_eq following)⟩
    · exact kept.numbered other before
  · rw [numbered, Slots.uids_insert_absent _ (fun listed => fresh (booked.slots.mem_iff.mp listed)),
      List.map_cons, uid]
    exact (booked.slots.append_right _).trans List.perm_append_comm
  · change simulation.unscheduled + 1 = _
    rw [booked.counted]
    rfl
  · intro other known queued
    rcases known with before | new
    · obtain ⟨below, named⟩ := booked.handles other before queued
      refine ⟨(kept.handles other before queued).1, fun candidate member tied => ?_⟩
      rcases List.mem_cons.mp member with same | present
      · rw [same, uid] at tied
        rw [← tied] at below
        exact absurd below (Nat.lt_irrefl _)
      · exact named candidate present tied
    · rw [new]
      refine ⟨?_, fun candidate member tied => ?_⟩
      · change key.uid.value.toNat < nextUid.value.toNat
        rw [uid]
        omega
      · rcases List.mem_cons.mp member with same | present
        · exact same
        · change candidate.uid = key.uid at tied
          rw [uid] at tied
          exact absurd (tied ▸ List.mem_map_of_mem present) fresh

theorem refused (booked : simulation.Booked entities keys given)
    (numbered : event.key.uid = simulation.nextUid)
    (following : simulation.nextUid.value.toNat + 1 = nextUid.value.toNat)
    {queue : EventQueue σ} {ended : BranchEnded}
    (inserted : simulation.queue.insert event = .ok (.error ended, queue)) :
    ({ simulation with nextUid, queue }.terminate ended.reason).Booked entities keys
      fun other => given other ∨ other = refusedHandle event := by
  have kept := booked.renumber nextUid (by omega)
  refine { kept with holds := booked.holds.refused inserted, handles := ?_ }
  intro other known queued
  rcases known with before | new
  · exact kept.handles other before queued
  · rw [new]
    refine ⟨?_, fun candidate member tied => ?_⟩
    · change event.key.uid.value.toNat < nextUid.value.toNat
      rw [numbered]
      omega
    · change candidate.uid = event.key.uid at tied
      rw [numbered] at tied
      exact absurd (tied ▸ List.mem_map_of_mem member) booked.fresh

private theorem enqueued (booked : simulation.Booked entities keys given)
    (owner : event.key.context.Known entities) (cause : event.prevContext.Known entities)
    (numbered : event.key.uid = simulation.nextUid)
    (following : simulation.nextUid.value.toNat + 1 = nextUid.value.toNat)
    (enqueued : Enqueued { simulation with nextUid } event callback handle after) :
    ∃ others, after.Booked entities others (fun other => given other ∨ other = handle) ∧
      ∀ key ∈ others, key ∈ keys ∨ key.context = event.key.context ∧
        key.uid = event.key.uid ∧ event.key.ts.value.toNat ≤ key.ts.value.toNat := by
  cases enqueued with
  | queued queue key inserted =>
      refine ⟨_, booked.queued owner cause numbered following inserted, fun other member => ?_⟩
      obtain ⟨ts, layout, later, same, _, _⟩ := EventQueue.insert_accepted inserted
      rcases List.mem_cons.mp member with new | before
      · rw [new, same]
        exact Or.inr ⟨rfl, rfl, later⟩
      · exact Or.inl before
  | refused queue ended inserted =>
      exact ⟨_, booked.refused numbered following inserted, fun _ => Or.inl⟩

theorem schedule (booked : simulation.Booked entities keys given) {plan : Plan}
    (scheduled : simulation.schedule plan callback = .ok (handle, after)) :
    ∃ others, after.Booked entities others (fun other => given other ∨ other = handle) ∧
      ∀ key ∈ others, key ∈ keys ∨ simulation.Planned plan key := by
  obtain ⟨base, ts, nextUid, owner, atBase, stamped, atOwner, following, enqueued⟩ :=
    schedule_eq_ok scheduled
  obtain ⟨others, afterBooked, origins⟩ := booked.enqueued
    (booked.clocks ▸ known_of_clock atOwner) (booked.clocks ▸ known_of_clock atBase) rfl following
    enqueued
  refine ⟨others, afterBooked, fun key member => (origins key member).imp_right ?_⟩
  rintro ⟨context, uid, later⟩
  exact ⟨context, uid, base, atBase, Nat.le_trans (Nat.le_of_eq (Clock.after_eq_ok stamped).symm)
    later⟩

theorem merge (booked : simulation.Booked entities keys given) {request : RemoteRequest β}
    (merged : simulation.merge request = .ok after) :
    ∃ others, after.Booked entities others given := by
  obtain ⟨ts, nextUid, owner, handle, stamped, atOwner, following, enqueued⟩ := merge_eq_ok merged
  have known := booked.clocks ▸ known_of_clock atOwner
  obtain ⟨others, afterBooked, _⟩ := booked.enqueued known known rfl following enqueued
  exact ⟨others, afterBooked.weaken fun _ => Or.inl⟩

private theorem mergeAll (booked : simulation.Booked entities keys given)
    (requests : List (RemoteRequest β)) (merged : simulation.mergeAll requests = .ok after) :
    ∃ others, after.Booked entities others given := by
  induction requests generalizing simulation keys with
  | nil =>
      cases merged
      exact ⟨keys, booked⟩
  | cons request rest ih =>
      obtain ⟨next, first, others⟩ := bind_eq_ok merged
      obtain ⟨_, nextBooked⟩ := booked.merge first
      exact ih nextBooked others

private theorem drainInbox (booked : simulation.Booked entities keys given)
    (drained : simulation.drainInbox = .ok after) :
    ∃ others, after.Booked entities others given := by
  have emptied : Booked { simulation with inbox := simulation.inbox.drain.2 } entities keys given :=
    booked.of_same rfl rfl rfl rfl rfl
  exact emptied.mergeAll simulation.inbox.drain.1 drained

theorem beginRun (booked : simulation.Booked entities keys given)
    (begun : simulation.beginRun = .ok after) : ∃ others, after.Booked entities others given := by
  obtain ⟨drained, stopRequested, merged, rfl⟩ := beginRun_eq_ok begun
  obtain ⟨others, drainedBooked⟩ := booked.drainInbox merged
  exact ⟨others, drainedBooked.of_same rfl rfl rfl rfl rfl⟩

theorem leaveEvent (booked : simulation.Booked entities keys given)
    (left : simulation.leaveEvent = .ok after) :
    ∃ others, after.Booked entities others given := by
  have outside : Booked { simulation with context := .global } entities keys given :=
    booked.of_same rfl rfl rfl rfl rfl
  exact outside.drainInbox left

theorem finishEvent (booked : simulation.Booked entities keys given)
    (finished : simulation.finishEvent = .ok after) :
    ∃ others, after.Booked entities others given := by
  have counted : Booked { simulation with processed := simulation.processed + 1 } entities keys
      given := booked.of_same rfl rfl rfl rfl rfl
  exact counted.leaveEvent finished

end

end Booked

end Simulation

end EventKernel
