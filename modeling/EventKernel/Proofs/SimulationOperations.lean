import EventKernel.Proofs.QueueInversions
import EventKernel.Proofs.SlotTable
import EventKernel.Simulation.Machine

set_option autoImplicit false

/-! What the operations of a simulation can do, one inversion for each. An operation that
returns has passed all its checks, so each inversion names the intermediate values and gives
the state that results from them. -/

namespace EventKernel

theorem EventUid.next?_eq_some {uid nextUid : EventUid} (following : uid.next? = some nextUid) :
    uid.value.toNat + 1 = nextUid.value.toNat := by
  obtain ⟨value, sum, same⟩ := Option.map_eq_some_iff.mp following
  rw [← same]
  exact Word.checkedAdd_eq_some_iff.mp sum

theorem EventUid.eq_of_following {uid next : EventUid}
    (following : uid.value.toNat + 1 = next.value.toNat) : next = ⟨uid.value + 1⟩ := by
  obtain ⟨value⟩ := next
  change uid.value.toNat + 1 = value.toNat at following
  congr 1
  apply UInt64.toNat_inj.mp
  rw [← following, Word.toNat_add_of_lt]
  · rfl
  · exact Nat.lt_of_le_of_lt (Nat.le_of_eq following) value.toNat_lt

theorem Clock.after_eq_ok {clock : Clock} {delay : UInt64} {ts : Timestamp}
    (stamped : clock.after delay = .ok ts) :
    ts.value.toNat = clock.now.value.toNat + delay.toNat := by
  unfold after at stamped
  split at stamped
  · rename_i sum added
    cases stamped
    obtain ⟨value, exact_, same⟩ := Option.map_eq_some_iff.mp added
    rw [← same]
    exact (Word.checkedAdd_eq_some_iff.mp exact_).symm
  · cases stamped

namespace Simulation

open Queue (EventQueue)
open Exploration (Hook)

variable {σ β : Type} {simulation after : Simulation σ β}

private theorem allocateUid_eq_ok {uid : EventUid}
    (allocated : simulation.allocateUid = .ok (uid, after)) :
    uid = simulation.nextUid ∧ ∃ nextUid, simulation.nextUid.value.toNat + 1 = nextUid.value.toNat ∧
      after = { simulation with nextUid } := by
  unfold allocateUid at allocated
  cases following : simulation.nextUid.next? with
  | none =>
      rw [following] at allocated
      cases allocated
  | some nextUid =>
      rw [following] at allocated
      cases allocated
      exact ⟨rfl, nextUid, EventUid.next?_eq_some following, rfl⟩

section

variable [Hook σ]

inductive Enqueued (simulation : Simulation σ β) (event : Event) (callback : Callback β) :
    Handle → Simulation σ β → Prop
  | queued (queue : EventQueue σ) (key : EventKey)
      (inserted : simulation.queue.insert event = .ok (.ok key, queue)) :
      Enqueued simulation event callback (.ofEvent key event.kind) { simulation with
        queue
        slots := simulation.slots.insert event.key.uid (.armed callback)
        unscheduled := simulation.unscheduled + 1 }
  | refused (queue : EventQueue σ) (ended : BranchEnded)
      (inserted : simulation.queue.insert event = .ok (.error ended, queue)) :
      Enqueued simulation event callback (refusedHandle event)
        ({ simulation with queue }.terminate ended.reason)

theorem enqueue_eq_ok {event : Event} {callback : Callback β} {handle : Handle}
    (enqueued : simulation.enqueue event callback = .ok (handle, after)) :
    Enqueued simulation event callback handle after := by
  obtain ⟨⟨answer, queue⟩, inserted, rest⟩ := bind_eq_ok enqueued
  cases answer with
  | ok key =>
      cases rest
      exact .queued queue key inserted
  | error ended =>
      cases rest
      exact .refused queue ended inserted

theorem schedule_eq_ok {plan : Plan} {callback : Callback β} {handle : Handle}
    (scheduled : simulation.schedule plan callback = .ok (handle, after)) :
    ∃ base ts nextUid owner, simulation.clock plan.base = .ok base ∧
      base.after plan.delay = .ok ts ∧ simulation.clock plan.context = .ok owner ∧
      simulation.nextUid.value.toNat + 1 = nextUid.value.toNat ∧
      Enqueued { simulation with nextUid }
        ⟨⟨ts, simulation.nextUid, plan.context⟩, plan.kind, plan.base, plan.transmit⟩ callback
        handle after := by
  obtain ⟨base, atBase, rest⟩ := bind_eq_ok scheduled
  obtain ⟨ts, stamped, rest⟩ := bind_eq_ok rest
  obtain ⟨owner, atOwner, rest⟩ := bind_eq_ok rest
  obtain ⟨⟨uid, numbered⟩, allocated, enqueued⟩ := bind_eq_ok rest
  obtain ⟨rfl, nextUid, following, rfl⟩ := allocateUid_eq_ok allocated
  exact ⟨base, ts, nextUid, owner, atBase, stamped, atOwner, following, enqueue_eq_ok enqueued⟩

theorem merge_eq_ok {request : RemoteRequest β} (merged : simulation.merge request = .ok after) :
    ∃ ts nextUid owner handle, simulation.globalClock.after request.delay = .ok ts ∧
      simulation.clock request.context = .ok owner ∧
      simulation.nextUid.value.toNat + 1 = nextUid.value.toNat ∧
      Enqueued { simulation with nextUid }
        ⟨⟨ts, simulation.nextUid, request.context⟩, .undefined, request.context, none⟩
        (.user request.callback) handle after := by
  obtain ⟨ts, stamped, rest⟩ := bind_eq_ok merged
  obtain ⟨owner, atOwner, rest⟩ := bind_eq_ok rest
  obtain ⟨⟨uid, numbered⟩, allocated, rest⟩ := bind_eq_ok rest
  obtain ⟨⟨handle, last⟩, enqueued, returned⟩ := bind_eq_ok rest
  obtain ⟨rfl, nextUid, following, rfl⟩ := allocateUid_eq_ok allocated
  cases returned
  exact ⟨ts, nextUid, owner, handle, stamped, atOwner, following, enqueue_eq_ok enqueued⟩

end

theorem scheduleDestroy_eq_ok {callback : β} {handle : Handle}
    (registered : simulation.scheduleDestroy callback = .ok (handle, after)) :
    ∃ nextUid, simulation.nextUid.value.toNat + 1 = nextUid.value.toNat ∧
      handle = .ofDestroy simulation.globalClock.now simulation.nextUid ∧
      after = { simulation with
        nextUid
        destroyEvents := simulation.destroyEvents ++ [(handle, callback)] } := by
  obtain ⟨⟨serial, numbered⟩, allocated, returned⟩ := bind_eq_ok registered
  obtain ⟨rfl, nextUid, following, rfl⟩ := allocateUid_eq_ok allocated
  cases returned
  exact ⟨nextUid, following, rfl, rfl⟩

theorem scheduleDestroy_of_allocated {serial : EventUid} (callback : β)
    (allocated : simulation.allocateUid = .ok (serial, after)) :
    simulation.scheduleDestroy callback = .ok (.ofDestroy after.globalClock.now serial,
      { after with
        destroyEvents := after.destroyEvents ++
          [(.ofDestroy after.globalClock.now serial, callback)] }) := by
  unfold scheduleDestroy
  rw [allocated]
  rfl

inductive Withdrawn (simulation : Simulation σ β) (handle : Handle) : Simulation σ β → Prop
  | unregistered (destroy : handle.isDestroy = true) : Withdrawn simulation handle
      { simulation with
        destroyEvents := simulation.destroyEvents.filter fun (queued, _) =>
          queued.serial != handle.serial }
  | ignored (expired : simulation.isExpired handle = .ok true) :
      Withdrawn simulation handle simulation
  | removed (queued : handle.isDestroy = false) (queue : EventQueue σ) (event : Event)
      (unscheduled : Nat) (erased : simulation.queue.erase handle.key = .ok (some event, queue))
      (live : simulation.isExpired handle = .ok false)
      (one : unscheduled + 1 = simulation.unscheduled) : Withdrawn simulation handle
      { simulation with
        queue
        slots := simulation.slots.erase handle.key.uid
        unscheduled }
  | cancelled (queued : handle.isDestroy = false)
      (live : simulation.isExpired handle = .ok false) : Withdrawn simulation handle
      { simulation with slots := simulation.slots.insert handle.key.uid .cancelled }

theorem decrement_one {count less : Nat} (lowered : decrement count 1 = .ok less) :
    less + 1 = count := by
  unfold decrement at lowered
  split at lowered
  · cases lowered
    omega
  · cases lowered

theorem remove_eq_ok {handle : Handle} (removed : simulation.remove handle = .ok after) :
    Withdrawn simulation handle after := by
  unfold remove at removed
  cases destroy : handle.isDestroy with
  | true =>
      rw [destroy, if_pos rfl] at removed
      cases removed
      exact .unregistered destroy
  | false =>
      rw [destroy, if_neg Bool.false_ne_true] at removed
      obtain ⟨expired, asked, rest⟩ := bind_eq_ok removed
      cases expired with
      | true =>
          cases rest
          exact .ignored asked
      | false =>
          obtain ⟨⟨event?, queue⟩, erased, rest⟩ := bind_eq_ok rest
          cases event? with
          | none => cases rest
          | some event =>
              simp only [Option.isNone_some, Bool.false_eq_true, if_false] at rest
              split at rest
              · cases rest
              · obtain ⟨unscheduled, lowered, returned⟩ := bind_eq_ok rest
                cases returned
                exact .removed destroy queue event unscheduled erased asked
                  (decrement_one lowered)

theorem cancel_eq_ok {handle : Handle} (cancelled : simulation.cancel handle = .ok after) :
    Withdrawn simulation handle after := by
  obtain ⟨expired, asked, rest⟩ := bind_eq_ok cancelled
  cases expired with
  | true =>
      cases rest
      exact .ignored asked
  | false =>
      rw [if_neg Bool.false_ne_true] at rest
      split at rest
      · exact remove_eq_ok rest
      · rename_i stays
        cases rest
        refine .cancelled ?_ asked
        cases destroy : handle.isDestroy with
        | false => rfl
        | true =>
            rw [destroy] at stays
            exact absurd rfl stays

inductive Taken (simulation : Simulation σ β) : Dequeued β → Simulation σ β → Prop
  | nothing (queue : EventQueue σ) (popped : simulation.queue.pop = .ok (none, queue)) :
      Taken simulation .nothing { simulation with queue }
  | entered (queue : EventQueue σ) (event : Event) (unscheduled : Nat)
      (advanced : Simulation σ β) (slot : Slot β)
      (popped : simulation.queue.pop = .ok (some event, queue))
      (one : unscheduled + 1 = simulation.unscheduled)
      (moved : { simulation with queue, unscheduled }.advanceClock event.key = .ok advanced)
      (found : simulation.slots.find? event.key.uid = some slot) :
      Taken simulation
        (match slot with
          | .armed callback => .invoke event.key callback
          | .cancelled => .skipped)
        { advanced with
          context := event.key.context
          slots := simulation.slots.erase event.key.uid }

theorem advanceClock_eq_ok {key : EventKey} (moved : simulation.advanceClock key = .ok after) :
    ∃ globalClock localClocks, after = { simulation with globalClock, localClocks } := by
  unfold advanceClock at moved
  split at moved
  · cases moved
    exact ⟨_, _, rfl⟩
  · split at moved
    · cases moved
      exact ⟨_, _, rfl⟩
    · cases moved

theorem dequeue_eq_ok {dequeued : Dequeued β}
    (taken : simulation.dequeue = .ok (dequeued, after)) : Taken simulation dequeued after := by
  obtain ⟨⟨event?, queue⟩, popped, rest⟩ := bind_eq_ok taken
  cases event? with
  | none =>
      cases rest
      exact .nothing queue popped
  | some event =>
      obtain ⟨unscheduled, lowered, rest⟩ := bind_eq_ok rest
      obtain ⟨advanced, moved, rest⟩ := bind_eq_ok rest
      have one := decrement_one lowered
      obtain ⟨globalClock, localClocks, same⟩ := advanceClock_eq_ok moved
      have slots : advanced.slots = simulation.slots := by rw [same]
      rw [slots] at rest
      cases found : simulation.slots.find? event.key.uid with
      | none =>
          rw [found] at rest
          cases rest
      | some slot =>
          rw [found] at rest
          cases slot with
          | armed callback =>
              cases rest
              exact .entered queue event unscheduled advanced (.armed callback) popped one moved
                found
          | cancelled =>
              cases rest
              exact .entered queue event unscheduled advanced .cancelled popped one moved found

theorem Taken.armed {key : EventKey} {callback : Callback β}
    (taken : Taken simulation (.invoke key callback) after) :
    simulation.slots.find? key.uid = some (.armed callback) := by
  generalize same : Dequeued.invoke key callback = dequeued at taken
  cases taken with
  | nothing queue popped => cases same
  | entered queue event unscheduled advanced slot popped one moved found =>
      cases slot with
      | armed held =>
          cases same
          exact found
      | cancelled => cases same

private theorem Withdrawn.clocks {handle : Handle} (withdrawn : Withdrawn simulation handle after) :
    after.localClocks = simulation.localClocks ∧ after.context = simulation.context ∧
      after.globalClock = simulation.globalClock := by
  cases withdrawn with
  | unregistered | ignored | removed | cancelled => exact ⟨rfl, rfl, rfl⟩

section

variable [Hook σ]

theorem schedule_clocks {plan : Plan} {callback : Callback β} {handle : Handle}
    (scheduled : simulation.schedule plan callback = .ok (handle, after)) :
    after.localClocks = simulation.localClocks ∧ after.context = simulation.context ∧
      after.globalClock = simulation.globalClock := by
  obtain ⟨base, ts, nextUid, owner, atBase, stamped, atOwner, following, enqueued⟩ :=
    schedule_eq_ok scheduled
  cases enqueued with
  | queued | refused => exact ⟨rfl, rfl, rfl⟩

theorem answer_clocks {reply : Reply} (request : Request σ β reply) {value : reply.Value}
    (answered : request.answer simulation = .ok (value, after)) :
    after.localClocks = simulation.localClocks ∧ after.context = simulation.context ∧
      after.globalClock = simulation.globalClock := by
  cases request with
  | schedule placement callback => exact schedule_clocks answered
  | stopAfter delay => exact schedule_clocks answered
  | scheduleDestroy callback =>
      obtain ⟨nextUid, following, _, rfl⟩ := scheduleDestroy_eq_ok answered
      exact ⟨rfl, rfl, rfl⟩
  | cancel handle =>
      obtain ⟨next, cancelled, returned⟩ := bind_eq_ok answered
      cases returned
      exact (cancel_eq_ok cancelled).clocks
  | remove handle =>
      obtain ⟨next, removed, returned⟩ := bind_eq_ok answered
      cases returned
      exact (remove_eq_ok removed).clocks
  | replaceQueue replacement =>
      obtain ⟨next, replaced, returned⟩ := bind_eq_ok answered
      cases returned
      unfold replaceQueue at replaced
      split at replaced
      · obtain ⟨queue, moved, same⟩ := bind_eq_ok replaced
        cases same
        exact ⟨rfl, rfl, rfl⟩
      · cases replaced
  | isExpired _ | delayLeft _ | now | nowIn _ =>
      obtain ⟨answer, asked, returned⟩ := bind_eq_ok answered
      cases returned
      exact ⟨rfl, rfl, rfl⟩
  | requestRemote _ _ _ | stop | dispose | currentContext | pending | remotePending | describe
  | detail | trace | configuration =>
      cases answered
      exact ⟨rfl, rfl, rfl⟩

end

theorem exhausted_of_endRun {before : Nat} {summary : RunSummary}
    (ended : simulation.endRun before = .ok (.ok summary)) (unstopped : summary.stopped = false)
    (stays : simulation.goesOn = false) : simulation.queue.isEmpty = true := by
  unfold endRun at ended
  split at ended
  · cases ended
  · split at ended
    · cases ended
      unfold goesOn at stays
      simp only at unstopped
      rw [unstopped, Bool.not_false, Bool.true_and, Bool.not_eq_false'] at stays
      exact stays
    · cases ended

theorem Taken.inbox {dequeued : Dequeued β} (taken : Taken simulation dequeued after) :
    after.inbox = simulation.inbox ∧ after.nextUid = simulation.nextUid := by
  cases taken with
  | nothing queue popped => exact ⟨rfl, rfl⟩
  | entered queue event unscheduled advanced slot popped one moved found =>
      obtain ⟨globalClock, localClocks, rfl⟩ := advanceClock_eq_ok moved
      exact ⟨rfl, rfl⟩

theorem Withdrawn.inbox {handle : Handle} (withdrawn : Withdrawn simulation handle after) :
    after.inbox = simulation.inbox := by
  cases withdrawn with
  | unregistered | ignored | removed | cancelled => rfl

theorem replaceQueue_same {replacement : EventQueue σ}
    (replaced : simulation.replaceQueue replacement = .ok after) :
    ∃ queue, after = { simulation with queue } := by
  unfold replaceQueue at replaced
  split at replaced
  · obtain ⟨queue, moved, returned⟩ := bind_eq_ok replaced
    cases returned
    exact ⟨queue, rfl⟩
  · cases replaced

/-- An event that begins has its context entered, and its clock stands at its instant. -/
theorem Taken.begins {key : EventKey} {callback : Callback β}
    (taken : Taken simulation (.invoke key callback) after) :
    after.context = key.context ∧ after.now = .ok key.ts := by
  generalize same : Dequeued.invoke key callback = dequeued at taken
  cases taken with
  | nothing queue popped => cases same
  | entered queue event unscheduled advanced slot popped one moved found =>
      cases slot with
      | cancelled => cases same
      | armed held =>
          cases same
          refine ⟨rfl, ?_⟩
          unfold advanceClock at moved
          unfold now nowIn clock
          split at moved
          · rename_i owner
            cases moved
            simp only [owner]
            rfl
          · rename_i id owner
            split at moved
            · rename_i known
              cases moved
              simp only [owner, List.getElem?_set_self known]
              rfl
            · cases moved

section

variable [Hook σ]

private theorem Enqueued.inbox {event : Event} {callback : Callback β} {handle : Handle}
    (enqueued : Enqueued simulation event callback handle after) :
    after.inbox = simulation.inbox := by
  cases enqueued with
  | queued | refused => rfl

theorem schedule_inbox {plan : Plan} {callback : Callback β} {handle : Handle}
    (scheduled : simulation.schedule plan callback = .ok (handle, after)) :
    after.inbox = simulation.inbox := by
  obtain ⟨base, ts, nextUid, owner, atBase, stamped, atOwner, following, enqueued⟩ :=
    schedule_eq_ok scheduled
  exact enqueued.inbox

private theorem mergeAll_same {requests : List (RemoteRequest β)}
    (merged : simulation.mergeAll requests = .ok after) :
    ∃ queue slots nextUid unscheduled stopRequested terminated, after = { simulation with
      queue, slots, nextUid, unscheduled, stopRequested, terminated } := by
  induction requests generalizing simulation with
  | nil =>
      cases merged
      exact ⟨_, _, _, _, _, _, rfl⟩
  | cons request rest ih =>
      obtain ⟨next, first, others⟩ := bind_eq_ok merged
      obtain ⟨_, _, _, _, _, _, _, enqueued⟩ := merge_eq_ok first
      obtain ⟨_, _, _, _, _, _, rfl⟩ := ih others
      cases enqueued with
      | queued | refused => exact ⟨_, _, _, _, _, _, rfl⟩

theorem drainInbox_same (drained : simulation.drainInbox = .ok after) :
    ∃ queue slots nextUid unscheduled stopRequested terminated, after = { simulation with
      queue, slots, nextUid, unscheduled, stopRequested, terminated
      inbox := simulation.inbox.drain.2 } :=
  mergeAll_same drained

theorem mergeAll_inbox {requests : List (RemoteRequest β)}
    (merged : simulation.mergeAll requests = .ok after) : after.inbox = simulation.inbox := by
  obtain ⟨_, _, _, _, _, _, rfl⟩ := mergeAll_same merged
  rfl

theorem drainInbox_inbox (drained : simulation.drainInbox = .ok after) :
    after.inbox = simulation.inbox.drain.2 :=
  mergeAll_inbox drained

theorem beginRun_eq_ok (begun : simulation.beginRun = .ok after) :
    ∃ drained stopRequested, simulation.drainInbox = .ok drained ∧
      after = { drained with stopRequested } := by
  obtain ⟨drained, merged, rest⟩ := bind_eq_ok begun
  split at rest
  · cases rest
    exact ⟨drained, false, merged, rfl⟩
  · cases rest
    exact ⟨after, after.stopRequested, merged, rfl⟩

theorem beginRun_inbox (begun : simulation.beginRun = .ok after) :
    after.inbox = simulation.inbox.drain.2 := by
  obtain ⟨drained, stopRequested, merged, rfl⟩ := beginRun_eq_ok begun
  have emptied := drainInbox_inbox merged
  exact emptied

end

end Simulation

end EventKernel
