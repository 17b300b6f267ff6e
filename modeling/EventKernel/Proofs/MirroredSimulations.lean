import EventKernel.Proofs.CoupledSimulations
import EventKernel.Proofs.PlainSimulations

set_option autoImplicit false

/-! Two simulations that differ in what has been cancelled: one keeps cancelled events in its
queue, the other has removed them. As long as their clocks agree, each operation fails in both
or in none, answers alike, and leaves them as they were to each other. Only the turn of a
cancelled event has no counterpart. -/

namespace EventKernel

open Queue (EventQueue)
open Exploration (Hook)

namespace Simulation

variable {σ β : Type} {keeping removing : Simulation σ β} {entities : Nat}
  {keys dead : List EventKey} {given : Handle → Prop}

/-- One simulation still holds cancelled events that the other has removed. All else is the
same: the same callbacks wait under the same keys. -/
structure Mirrors (entities : Nat) (given : Handle → Prop) (keys dead : List EventKey)
    (keeping removing : Simulation σ β) : Prop where
  keeps : keeping.Booked entities (keys ++ dead) given
  removes : removing.Booked entities keys given
  keepingPlain : keeping.queue.Plain false
  removingPlain : removing.queue.Plain true
  armed : ∀ key ∈ keys, ∃ callback,
    keeping.slots.find? key.uid = some (.armed callback) ∧
      removing.slots.find? key.uid = some (.armed callback)
  cancelled : ∀ key ∈ dead, keeping.slots.find? key.uid = some .cancelled
  hinted : keeping.inbox.Hinted
  elsewhere : ∃ queue slots unscheduled,
    removing = { keeping with queue, slots, unscheduled }

def Mirrored (entities : Nat) (given : Handle → Prop) (keeping removing : Simulation σ β) : Prop :=
  ∃ keys dead, Mirrors entities given keys dead keeping removing

namespace Mirrors

variable (mirrors : Mirrors entities given keys dead keeping removing)

include mirrors

private theorem distinct : ((keys ++ dead).map EventKey.uid).Nodup := mirrors.keeps.distinct

private theorem apart {key other : EventKey} (member : key ∈ keys ++ dead)
    (present : other ∈ (keys ++ dead).erase key) : other.uid ≠ key.uid := by
  intro same
  have unlisted := ((List.perm_cons_erase member).map EventKey.uid).nodup_iff.mp mirrors.distinct
  rw [List.map_cons, List.nodup_cons] at unlisted
  exact unlisted.1 (same ▸ List.mem_map_of_mem present)

private theorem not_dead {key : EventKey} (member : key ∈ keys) : key ∉ dead := by
  intro present
  have nodup := mirrors.distinct
  rw [List.map_append, List.nodup_append] at nodup
  exact nodup.2.2 key.uid (List.mem_map_of_mem member) key.uid (List.mem_map_of_mem present) rfl

/-! A key that is held is the only one of its number. -/

private theorem apart_live {key other : EventKey} (member : key ∈ keys)
    (present : other ∈ keys.erase key ++ dead) : other.uid ≠ key.uid :=
  mirrors.apart (List.mem_append_left dead member)
    ((List.erase_append_left dead member).symm ▸ present)

private theorem apart_dead {key other : EventKey} (member : key ∈ dead)
    (present : other ∈ keys ++ dead.erase key) : other.uid ≠ key.uid :=
  mirrors.apart (List.mem_append_right keys member)
    ((List.erase_append_right dead fun live => mirrors.not_dead live member).symm ▸ present)

theorem turned {bearings : Bearings} (clocks : bearings.localClocks.length = entities) :
    Mirrors entities given keys dead (keeping.restored bearings) (removing.restored bearings) := by
  obtain ⟨queue, slots, unscheduled, rfl⟩ := mirrors.elsewhere
  exact ⟨mirrors.keeps.turned clocks, mirrors.removes.turned clocks, mirrors.keepingPlain,
    mirrors.removingPlain, mirrors.armed, mirrors.cancelled, mirrors.hinted, _, _, _, rfl⟩

theorem drop {key : EventKey} (member : key ∈ keys) {kept removed : EventQueue σ}
    {keptCount removedCount : Nat} (keptPlain : kept.Plain false)
    (removedPlain : removed.Plain true)
    (keptBooked : (keeping.without key kept keptCount).Booked entities
      ((keys ++ dead).erase key) given)
    (removedBooked : (removing.without key removed removedCount).Booked entities
      (keys.erase key) given) :
    Mirrors entities given (keys.erase key) dead
      (keeping.without key kept keptCount)
      (removing.without key removed removedCount) := by
  have left := List.erase_append_left dead member
  refine ⟨left ▸ keptBooked, removedBooked, keptPlain, removedPlain, ?_, ?_, mirrors.hinted, ?_⟩
  · intro other present
    obtain ⟨callback, inKept, inRemoved⟩ := mirrors.armed other (List.mem_of_mem_erase present)
    have different := mirrors.apart_live member (List.mem_append_left dead present)
    refine ⟨callback, ?_, ?_⟩
    · exact (find?_without different).trans inKept
    · exact (find?_without different).trans inRemoved
  · intro other present
    exact (find?_without (mirrors.apart_live member (List.mem_append_right _ present))).trans
      (mirrors.cancelled other present)
  · obtain ⟨queue, slots, unscheduled, rfl⟩ := mirrors.elsewhere
    exact ⟨_, _, _, rfl⟩

theorem skip {key : EventKey} (member : key ∈ dead) {kept : EventQueue σ} {keptCount : Nat}
    (keptPlain : kept.Plain false)
    (keptBooked : (keeping.without key kept keptCount).Booked entities
      ((keys ++ dead).erase key) given) :
    Mirrors entities given keys (dead.erase key)
      (keeping.without key kept keptCount) removing := by
  have right := List.erase_append_right dead fun live => mirrors.not_dead live member
  refine ⟨right ▸ keptBooked, mirrors.removes, keptPlain, mirrors.removingPlain, ?_, ?_,
    mirrors.hinted, ?_⟩
  · intro other present
    obtain ⟨callback, inKept, inRemoved⟩ := mirrors.armed other present
    refine ⟨callback, ?_, inRemoved⟩
    exact (find?_without (mirrors.apart_dead member (List.mem_append_left _ present))).trans inKept
  · intro other present
    exact (find?_without (mirrors.apart_dead member (List.mem_append_right _ present))).trans
      (mirrors.cancelled other (List.mem_of_mem_erase present))
  · obtain ⟨queue, slots, unscheduled, rfl⟩ := mirrors.elsewhere
    exact ⟨_, _, _, rfl⟩

/-- An event is cancelled: it is marked where it is kept, and leaves the other queue. -/
theorem cancel {key : EventKey} (member : key ∈ keys) {removed : EventQueue σ}
    {removedCount : Nat} (removedPlain : removed.Plain true)
    (keptBooked : { keeping with
      slots := keeping.slots.insert key.uid .cancelled }.Booked entities (keys ++ dead) given)
    (removedBooked : (removing.without key removed removedCount).Booked entities
      (keys.erase key) given) :
    Mirrors entities given (keys.erase key) (key :: dead)
      { keeping with slots := keeping.slots.insert key.uid .cancelled }
      (removing.without key removed removedCount) := by
  have moved : (keys ++ dead).Perm (keys.erase key ++ key :: dead) :=
    ((List.perm_cons_erase member).append_right dead).trans List.perm_middle.symm
  refine ⟨keptBooked.perm moved, removedBooked, mirrors.keepingPlain, removedPlain, ?_, ?_,
    mirrors.hinted, ?_⟩
  · intro other present
    obtain ⟨callback, inKept, inRemoved⟩ := mirrors.armed other (List.mem_of_mem_erase present)
    have different := mirrors.apart_live member (List.mem_append_left dead present)
    refine ⟨callback, ?_, ?_⟩
    · rw [Slots.find?_insert, if_neg different]
      exact inKept
    · exact (find?_without different).trans inRemoved
  · intro other present
    rw [Slots.find?_insert]
    rcases List.mem_cons.mp present with same | before
    · rw [same, if_pos rfl]
    · rw [if_neg (mirrors.apart_live member (List.mem_append_right _ before))]
      exact mirrors.cancelled other before
  · obtain ⟨queue, slots, unscheduled, rfl⟩ := mirrors.elsewhere
    exact ⟨_, _, _, rfl⟩

end Mirrors

namespace Mirrors

variable (mirrors : Mirrors entities given keys dead keeping removing)

include mirrors

theorem changed {kept : Simulation σ β} (queue : kept.queue = keeping.queue)
    (clocks : kept.localClocks = keeping.localClocks) (slots : kept.slots = keeping.slots)
    (number : kept.nextUid = keeping.nextUid) (count : kept.unscheduled = keeping.unscheduled)
    (hinted : kept.inbox.Hinted) :
    Mirrors entities given keys dead kept { kept with
      queue := removing.queue
      slots := removing.slots
      unscheduled := removing.unscheduled } := by
  obtain ⟨removed, removedSlots, unscheduled, rfl⟩ := mirrors.elsewhere
  exact ⟨mirrors.keeps.of_same queue clocks slots number count,
    mirrors.removes.of_same rfl clocks rfl number rfl, queue ▸ mirrors.keepingPlain,
    mirrors.removingPlain, slots ▸ mirrors.armed, slots ▸ mirrors.cancelled, hinted, _, _, _, rfl⟩

private theorem isExpired_eq (handle : Handle) :
    removing.isExpired handle = keeping.isExpired handle := by
  obtain ⟨removed, removedSlots, unscheduled, rfl⟩ := mirrors.elsewhere
  unfold isExpired
  cases destroy : handle.isDestroy with
  | true => rfl
  | false =>
      rw [if_neg Bool.false_ne_true, if_neg Bool.false_ne_true]
      have absent : handle.key.uid ∉ keys.map EventKey.uid →
          removedSlots.find? handle.key.uid = none := fun unlisted =>
        Option.eq_none_iff_forall_ne_some.mpr fun slot found =>
          unlisted (mirrors.removes.slot_iff.mp ⟨slot, found⟩)
      cases found : keeping.slots.find? handle.key.uid with
      | none =>
          rw [absent fun listed => ?_]
          have held := mirrors.keeps.slot_iff.mpr
            (List.map_append ▸ List.mem_append_left (dead.map EventKey.uid) listed)
          rw [found] at held
          exact nomatch held
      | some slot =>
          obtain ⟨key, listed, same⟩ := List.mem_map.mp (mirrors.keeps.slot_iff.mp ⟨slot, found⟩)
          rw [← same] at found absent ⊢
          rcases List.mem_append.mp listed with member | member
          · obtain ⟨callback, inKept, inRemoved⟩ := mirrors.armed key member
            rw [found] at inKept
            cases inKept
            simp only [inRemoved]
            rfl
          · rw [mirrors.cancelled key member] at found
            cases found
            rw [absent fun listed => ?_]
            have nodup := mirrors.distinct
            rw [List.map_append, List.nodup_append] at nodup
            exact nodup.2.2 _ listed _ (List.mem_map_of_mem member) rfl

private theorem live {handle : Handle} (known : given handle) (queued : handle.isDestroy = false)
    (alive : keeping.isExpired handle = .ok false) : handle.key ∈ keys := by
  rcases List.mem_append.mp (mirrors.keeps.live_listed known queued alive) with member | member
  · exact member
  · unfold isExpired at alive
    rw [queued, if_neg Bool.false_ne_true, mirrors.cancelled handle.key member] at alive
    cases alive

end Mirrors

private theorem scheduleDestroy_elsewhere {simulation after : Simulation σ β} {callback : β}
    {handle : Handle} (registers : simulation.scheduleDestroy callback = .ok (handle, after))
    (queue : EventQueue σ) (slots : Slots β) (unscheduled : Nat) :
    Simulation.scheduleDestroy { simulation with queue, slots, unscheduled } callback =
      .ok (handle, { after with queue, slots, unscheduled }) := by
  unfold Simulation.scheduleDestroy Simulation.allocateUid at registers ⊢
  cases next : simulation.nextUid.next? with
  | none =>
      rw [next] at registers
      cases registers
  | some nextUid =>
      rw [next] at registers
      cases registers
      simp only [bind, Except.bind, pure, Except.pure]

namespace Mirrored

variable (mirrored : Mirrored entities given keeping removing)

include mirrored

private theorem weaken {fewer : Handle → Prop} (among : ∀ handle, fewer handle → given handle) :
    Mirrored entities fewer keeping removing := by
  obtain ⟨keys, dead, mirrors⟩ := mirrored
  exact ⟨keys, dead, { mirrors with
    keeps := mirrors.keeps.weaken among
    removes := mirrors.removes.weaken among }⟩

private theorem removeLive {handle : Handle} (known : given handle)
    (queued : handle.isDestroy = false) (asked : keeping.isExpired handle = .ok false) :
    Alike (Mirrored entities given) (keeping.remove handle) (removing.remove handle) := by
  obtain ⟨keys, dead, mirrors⟩ := mirrored
  have other := (mirrors.isExpired_eq handle).trans asked
  obtain ⟨kept, keptCount, keptPlain, removes, keptBooked⟩ :=
    mirrors.keeps.remove_plain mirrors.keepingPlain known queued asked
  obtain ⟨left, leftCount, leftPlain, others, leftBooked⟩ :=
    mirrors.removes.remove_plain mirrors.removingPlain known queued other
  rw [removes, others]
  exact ⟨_, _, mirrors.drop (mirrors.live known queued asked) keptPlain leftPlain
    keptBooked leftBooked⟩

private theorem cancelLive {handle : Handle} (known : given handle)
    (queued : handle.isDestroy = false) (asked : keeping.isExpired handle = .ok false) :
    Alike (Mirrored entities given) (keeping.cancel handle) (removing.cancel handle) := by
  obtain ⟨keys, dead, mirrors⟩ := mirrored
  have other := (mirrors.isExpired_eq handle).trans asked
  obtain ⟨left, leftCount, leftPlain, others, leftBooked⟩ :=
    mirrors.removes.remove_plain mirrors.removingPlain known queued other
  unfold Simulation.cancel
  simp only [asked, other, others, queued, bind, Except.bind, mirrors.keepingPlain.removeCancelled,
    mirrors.removingPlain.removeCancelled, Bool.or_true, Bool.or_false, Bool.false_eq_true,
    if_true, if_false]
  exact ⟨_, _, mirrors.cancel (mirrors.live known queued asked) leftPlain
    (mirrors.keeps.cancelled known queued asked) leftBooked⟩

private theorem enqueue [Hook σ] {event : Event} {nextUid : EventUid}
    (owner : event.key.context.Known entities) (cause : event.prevContext.Known entities)
    (numbered : event.key.uid = keeping.nextUid)
    (following : keeping.nextUid.value.toNat + 1 = nextUid.value.toNat)
    (callback : Callback β) :
    Alike (fun first second => first.1 = second.1 ∧
        Mirrored entities (fun other => given other ∨ other = first.1) first.2 second.2)
      (Simulation.enqueue { keeping with nextUid } event callback)
      (Simulation.enqueue { removing with nextUid } event callback) := by
  obtain ⟨keys, dead, mirrors⟩ := mirrored
  obtain ⟨queue, slots, unscheduled, rfl⟩ := mirrors.elsewhere
  obtain ⟨kept, keptPlain, enters, keptBooked⟩ := mirrors.keeps.enqueue_plain
    mirrors.keepingPlain owner cause numbered following callback
  obtain ⟨removed, removedPlain, others, removedBooked⟩ := mirrors.removes.enqueue_plain
    mirrors.removingPlain owner cause numbered following callback
  have fresh : ∀ other ∈ keys ++ dead, other.uid ≠ event.key.uid := fun other present same =>
    mirrors.keeps.fresh (numbered ▸ same ▸ List.mem_map_of_mem present)
  rw [enters, others]
  refine ⟨rfl, event.key :: keys, dead, keptBooked, removedBooked, keptPlain, removedPlain, ?_, ?_,
    mirrors.hinted, _, _, _, rfl⟩
  · intro other present
    rw [Slots.find?_insert, Slots.find?_insert]
    rcases List.mem_cons.mp present with same | before
    · rw [same, if_pos rfl, if_pos rfl]
      exact ⟨callback, rfl, rfl⟩
    · have different := fresh other (List.mem_append_left dead before)
      rw [if_neg different, if_neg different]
      exact mirrors.armed other before
  · intro other present
    rw [Slots.find?_insert, if_neg (fresh other (List.mem_append_right keys present))]
    exact mirrors.cancelled other present

omit mirrored in
theorem coupling [Hook σ] : Coupling entities (Mirrored (σ := σ) (β := β) entities) where
  elsewhere := fun ⟨_, _, mirrors⟩ => mirrors.elsewhere
  clocks := fun ⟨_, _, mirrors⟩ => mirrors.keeps.clocks
  weaken := fun mirrored => mirrored.weaken
  changed := fun ⟨keys, dead, mirrors⟩ _ queue clocks slots number count hinted =>
    ⟨keys, dead, mirrors.changed queue clocks slots number count (hinted mirrors.hinted)⟩
  enqueue := fun mirrored owner cause numbered following callback =>
    mirrored.enqueue owner cause numbered following callback
  register := fun ⟨keys, dead, mirrors⟩ registers => by
    have keeps := mirrors.keeps.registered registers
    obtain ⟨queue, slots, unscheduled, rfl⟩ := mirrors.elsewhere
    have removes := mirrors.removes.registered
      (scheduleDestroy_elsewhere registers queue slots unscheduled)
    obtain ⟨nextUid, _, _, rfl⟩ := scheduleDestroy_eq_ok registers
    exact ⟨keys, dead, keeps, removes, mirrors.keepingPlain, mirrors.removingPlain,
      mirrors.armed, mirrors.cancelled, mirrors.hinted, _, _, _, rfl⟩
  isExpired := fun ⟨_, _, mirrors⟩ => mirrors.isExpired_eq
  removeLive := fun mirrored => mirrored.removeLive
  cancelLive := fun mirrored => mirrored.cancelLive
  dispose := fun ⟨_, _, mirrors⟩ => by
    obtain ⟨queue, slots, unscheduled, rfl⟩ := mirrors.elsewhere
    exact ⟨[], [], mirrors.keeps.dispose, mirrors.removes.dispose, mirrors.keepingPlain.drain,
      mirrors.removingPlain.drain, List.forall_mem_nil _, List.forall_mem_nil _,
      mirrors.hinted.drained, _, _, _, rfl⟩

end Mirrored

end Simulation

end EventKernel
