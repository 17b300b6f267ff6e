import Mathlib.Tactic.IntervalCases
import EventKernel.Proofs.HandleFinality
import EventKernel.Proofs.ParcelLedger
import EventKernel.Proofs.QueueContents
import EventKernel.Proofs.QueueProperties
import EventKernel.Proofs.RefusedEvents

set_option autoImplicit false

/-! Requests from outside are merged once, in order, and at the right time. Whatever a lawful
program without exploration does, each request that was not dropped becomes one queued event
when the next run begins or the event that executes is left; its serial number is new, and it is
stamped against the global clock of that moment. No request is hidden by the hint of the inbox. -/

namespace EventKernel

open Queue (Configuration EventQueue)
open Exploration (Hook)

variable {σ β μ : Type}

/-! ### Exploration stays off -/

namespace Queue.EventQueue

variable {queue after : EventQueue σ}

private theorem Unexplored.insert_eq_ok [Hook σ] (unexplored : queue.Unexplored) {event : Event}
    {answer : Except BranchEnded EventKey} (inserted : queue.insert event = .ok (answer, after)) :
    answer = .ok event.key ∧ ∃ layout, queue.layout.insert event = .ok layout ∧
      after = { queue with layout } := by
  rw [unexplored.insert_eq] at inserted
  obtain ⟨layout, placed, same⟩ := map_eq_ok inserted
  cases same
  exact ⟨rfl, layout, placed, rfl⟩

theorem lasting_unexplored [Hook σ] :
    Lasting fun queue : EventQueue σ => queue.Unexplored where
  insert := by
    intro queue after event answer inserted unexplored
    obtain ⟨_, layout, _, rfl⟩ := unexplored.insert_eq_ok inserted
    exact ⟨unexplored.quiet, unexplored.unexplored⟩
  reinsert := by
    intro queue after event inserted unexplored
    obtain ⟨layout, _, returned⟩ := bind_eq_ok inserted
    cases returned
    exact ⟨unexplored.quiet, unexplored.unexplored⟩
  pop := by
    intro queue after event? popped unexplored
    obtain ⟨_, _, returned⟩ := bind_eq_ok popped
    cases returned
    exact ⟨unexplored.quiet, unexplored.unexplored⟩
  erase := by
    intro queue after key event? erased unexplored
    obtain ⟨_, _, returned⟩ := bind_eq_ok erased
    cases returned
    exact ⟨unexplored.quiet, unexplored.unexplored⟩
  drain := fun unexplored => ⟨unexplored.quiet, unexplored.unexplored⟩

end Queue.EventQueue

private theorem Request.Quiet.brings {history : List (Signal σ β)} {reply : Reply}
    {request : Request σ β reply} (quiet : request.Quiet) (lawful : request.Lawful history) :
    request.Brings EventQueue.Unexplored := by
  cases request with
  | replaceQueue replacement =>
      obtain ⟨configuration, hook, built⟩ := lawful
      have disabled : replacement.configuration.exploration.enabled = false := quiet
      rw [EventQueue.configuration_of_new built] at disabled
      exact EventQueue.Unexplored.of_new disabled built
  | _ => trivial

/-! ### Merging -/

private theorem Clock.eq_of_after {clock : Clock} {delay : UInt64} {ts : Timestamp}
    (stamped : clock.after delay = .ok ts) : ts = ⟨clock.now.value + delay⟩ := by
  have sum := Clock.after_eq_ok stamped
  obtain ⟨value⟩ := ts
  change value.toNat = _ at sum
  congr 1
  apply UInt64.toNat_inj.mp
  rw [sum, Word.toNat_add_of_lt]
  exact sum ▸ value.toNat_lt

namespace Simulation

variable {simulation after : Simulation σ β} {entities : Nat} {keys : List EventKey}
  {given : Handle → Prop}

/-- The requests are queued and armed, in order, under the next numbers. -/
structure Receives (simulation : Simulation σ β) (requests : List (RemoteRequest β))
    (after : Simulation σ β) : Prop where
  queued : after.queue.layout.events.Perm
    ((RemoteRequest.arrivals simulation.globalClock.now simulation.nextUid requests).map Prod.snd ++
      simulation.queue.layout.events)
  armed : ∀ arrival ∈
      RemoteRequest.arrivals simulation.globalClock.now simulation.nextUid requests,
    after.slots.find? arrival.2.key.uid = some (.armed (.user arrival.1.callback))
  kept : ∀ uid, uid.value.toNat < simulation.nextUid.value.toNat →
    after.slots.find? uid = simulation.slots.find? uid
  stamped : ∀ request ∈ requests, simulation.globalClock.after request.delay =
    .ok ⟨simulation.globalClock.now.value + request.delay⟩
  numbered : after.nextUid.value.toNat = simulation.nextUid.value.toNat + requests.length
  clock : after.globalClock = simulation.globalClock

section

variable [Hook σ]

/-- The first request is queued under the next number. -/
theorem Booked.merge_eq_ok (booked : simulation.Booked entities keys given)
    (unexplored : simulation.queue.Unexplored) {request : RemoteRequest β}
    (merged : simulation.merge request = .ok after) :
    ∃ queue nextUid, after = { simulation with
        nextUid, queue
        slots := simulation.slots.insert simulation.nextUid (.armed (.user request.callback))
        unscheduled := simulation.unscheduled + 1 } ∧
      nextUid = ⟨simulation.nextUid.value + 1⟩ ∧
      simulation.nextUid.value.toNat + 1 = nextUid.value.toNat ∧
      simulation.globalClock.after request.delay =
        .ok ⟨simulation.globalClock.now.value + request.delay⟩ ∧
      queue.layout.events.Perm (request.event simulation.globalClock.now simulation.nextUid ::
        simulation.queue.layout.events) := by
  obtain ⟨ts, nextUid, owner, handle, stamped, atOwner, following, enqueued⟩ :=
    Simulation.merge_eq_ok merged
  cases Clock.eq_of_after stamped
  have known := booked.clocks ▸ known_of_clock atOwner
  obtain ⟨layout, placed, _, grown, _⟩ := booked.holds.place
    (request.event simulation.globalClock.now simulation.nextUid) known known booked.fresh
  cases enqueued with
  | queued queue key inserted =>
      obtain ⟨_, filled, inserts, rfl⟩ := unexplored.insert_eq_ok inserted
      cases placed.symm.trans inserts
      exact ⟨_, nextUid, rfl, EventUid.eq_of_following following, following, stamped, grown⟩
  | refused queue ended inserted =>
      obtain ⟨impossible, _⟩ := unexplored.insert_eq_ok inserted
      cases impossible

private theorem Booked.receives (booked : simulation.Booked entities keys given)
    (unexplored : simulation.queue.Unexplored) {requests : List (RemoteRequest β)}
    (merged : simulation.mergeAll requests = .ok after) : simulation.Receives requests after := by
  induction requests generalizing simulation keys with
  | nil =>
      cases merged
      exact ⟨.refl _, fun _ impossible => (nomatch impossible), fun _ _ => rfl,
        fun _ impossible => (nomatch impossible), rfl, rfl⟩
  | cons request rest ih =>
      obtain ⟨next, first, others⟩ := bind_eq_ok merged
      obtain ⟨_, nextBooked⟩ := booked.merge first
      have stays : next.queue.Unexplored := by
        have one : simulation.mergeAll [request] = .ok next := by
          unfold Simulation.mergeAll
          simp only [first, bind, Except.bind]
          rfl
        exact EventQueue.lasting_unexplored.mergeAll one unexplored
      have later := ih nextBooked stays others
      obtain ⟨queue, nextUid, rfl, same, following, stamped, grown⟩ :=
        booked.merge_eq_ok unexplored first
      obtain ⟨queued, armed, kept, stampedRest, numbered, clock⟩ := later
      rw [same] at queued armed
      refine ⟨?_, ?_, ?_, ?_, ?_, clock⟩
      · exact queued.trans ((grown.append_left _).trans List.perm_middle)
      · intro arrival member
        rcases List.mem_cons.mp member with here | after
        · rw [here]
          exact (kept _ (Nat.lt_of_succ_le (Nat.le_of_eq following))).trans
            ((Slots.find?_insert _ _ _ _).trans (if_pos rfl))
        · exact armed arrival after
      · intro uid below
        rw [kept uid (Nat.lt_trans below (Nat.lt_of_succ_le (Nat.le_of_eq following)))]
        refine (Slots.find?_insert _ _ _ _).trans (if_neg ?_)
        rintro rfl
        exact Nat.lt_irrefl _ below
      · exact List.forall_mem_cons.mpr ⟨stamped, stampedRest⟩
      · rw [numbered, List.length_cons, ← following]
        omega

private theorem Booked.drainInbox_receives (booked : simulation.Booked entities keys given)
    (unexplored : simulation.queue.Unexplored) (hinted : simulation.inbox.Hinted)
    (drained : simulation.drainInbox = .ok after) :
    simulation.Receives simulation.inbox.requests after := by
  have emptied : Booked { simulation with inbox := simulation.inbox.drain.2 } entities keys given :=
    booked.of_same rfl rfl rfl rfl rfl
  have received : Receives { simulation with inbox := simulation.inbox.drain.2 }
      simulation.inbox.drain.1 after := emptied.receives unexplored drained
  have all : simulation.inbox.drain.1 = simulation.inbox.requests :=
    congrArg Prod.fst hinted.drain_eq
  rw [all] at received
  exact ⟨received.queued, received.armed, received.kept, received.stamped, received.numbered,
    received.clock⟩

end

end Simulation

namespace Machine

variable [Hook σ] {body : β → Script σ β μ} {machine after : Machine σ β μ}
  {history signals : List (Signal σ β)} {parcels : List (Parcel β)} {entities : Nat}

/-! ### The ledger after each kind of step -/

omit [Hook σ] in
private theorem post_performed {reply : Reply} {request : Request σ β reply}
    {next : reply.Value → Script σ β μ} {below : List (Frame σ β μ)}
    (here : machine.frames = .script (.perform request next) :: below) :
    machine.post parcels = request.post parcels := by
  unfold post
  rw [here]

omit [Hook σ] in
private theorem post_moved {frames : List (Frame σ β μ)} (shifts : Shifts machine.frames frames) :
    machine.post parcels = parcels := by
  obtain ⟨simulation, memory, present⟩ := machine
  cases shifts with
  | halted | ended | recalled | remembered | destroys | destroyed => rfl

omit [Hook σ] in
private theorem post_running (here : machine.IsRunning) : machine.post parcels = parcels := by
  obtain ⟨before, next, below, top⟩ := here
  unfold post
  rw [top]

omit [Hook σ] in
private theorem post_destroying {next : Script σ β μ} {below : List (Frame σ β μ)}
    (here : machine.frames = .destroying next :: below) : machine.post parcels = parcels := by
  unfold post
  rw [here]

omit [Hook σ] in
private theorem post_drains (drains : machine.Drains) : machine.post parcels =
    Parcel.mergeAll machine.simulation.globalClock.now machine.simulation.nextUid parcels := by
  unfold post
  cases drains with
  | begins next below here => rw [here]
  | leaves below here => rw [here]

/-! ### What is true of every lawful program -/

/-- What the ledger tells of a machine. -/
structure Posted (history : List (Signal σ β)) (parcels : List (Parcel β))
    (machine : Machine σ β μ) : Prop where
  /-- The ledger lists every request that was pushed, in order. -/
  requests : parcels.map Parcel.request = history.filterMap Signal.pushed?
  inbox : parcels.filterMap Parcel.waiting? = machine.simulation.inbox.requests
  hinted : machine.simulation.inbox.emptyHint = machine.simulation.inbox.requests.isEmpty
  /-- While a run takes events no request waits. -/
  idle : machine.IsRunning → machine.simulation.inbox.requests = []
  increasing : Parcel.Increasing parcels machine.simulation.nextUid

/-- What waits is merged: it is queued besides what was queued before, with its callback, in the
context that was asked for and after the global clock, under new numbers. -/
structure Merges (machine : Machine σ β μ) (parcels : List (Parcel β))
    (arrivals : List (RemoteRequest β × Event)) (after : Machine σ β μ) : Prop where
  requests : arrivals.map Prod.fst = parcels.filterMap Parcel.waiting?
  ledger : (machine.post parcels).filterMap Parcel.arrival? =
    parcels.filterMap Parcel.arrival? ++ arrivals
  queued : after.simulation.queue.layout.events.Perm
    (arrivals.map Prod.snd ++ machine.simulation.queue.layout.events)
  armed : ∀ arrival ∈ arrivals, after.simulation.slots.find? arrival.2.key.uid =
    some (.armed (.user arrival.1.callback))
  owned : ∀ arrival ∈ arrivals, arrival.2.key.context = arrival.1.context
  stamped : ∀ arrival ∈ arrivals,
    machine.simulation.globalClock.after arrival.1.delay = .ok arrival.2.key.ts
  fresh : ∀ arrival ∈ arrivals, machine.simulation.nextUid ≤ arrival.2.key.uid
  emptied : after.simulation.inbox = .empty

/-- What the next step plans to queue. -/
def plan? (machine : Machine σ β μ) : Option Simulation.Plan :=
  match machine.frames with
  | .script (.perform request _) :: _ => request.plan? machine.simulation.context
  | _ => none

structure Mailed (entities : Nat) (history : List (Signal σ β)) (parcels : List (Parcel β))
    (machine : Machine σ β μ) : Prop where
  booked : ∃ keys, machine.simulation.Booked entities keys (Given history)
  unexplored : machine.simulation.queue.Unexplored
  nested : Frame.Nested machine.frames
  hinted : machine.simulation.inbox.Hinted
  idle : machine.IsRunning → machine.simulation.inbox = .empty
  filed : Parcel.Filed parcels machine.simulation.inbox
  requests : parcels.map Parcel.request = history.filterMap Signal.pushed?
  increasing : Parcel.Increasing parcels machine.simulation.nextUid

/-- A step that merges makes nothing visible. -/
theorem Drains.receives (drains : machine.Drains)
    (mailed : machine.Mailed entities history parcels)
    (stepped : machine.step body = .ok (signals, after)) :
    machine.simulation.Receives machine.simulation.inbox.requests after.simulation ∧
      after.simulation.inbox = .empty ∧ signals = [] := by
  obtain ⟨keys, booked⟩ := mailed.booked
  cases drains with
  | begins next below here =>
      rw [step_script here] at stepped
      obtain ⟨simulation, began, returned⟩ := bind_eq_ok stepped
      cases returned
      refine ⟨?_, (Simulation.beginRun_inbox began).trans mailed.hinted.drain, rfl⟩
      obtain ⟨drained, stopRequested, merged, rfl⟩ := Simulation.beginRun_eq_ok began
      have received := booked.drainInbox_receives mailed.unexplored mailed.hinted merged
      exact ⟨received.queued, received.armed, received.kept, received.stamped,
        received.numbered, received.clock⟩
  | leaves below here =>
      unfold step at stepped
      simp only [here] at stepped
      obtain ⟨simulation, done, returned⟩ := bind_eq_ok stepped
      cases returned
      refine ⟨?_, (Simulation.drainInbox_inbox done).trans mailed.hinted.drain, rfl⟩
      have counted : Simulation.Booked
          { machine.simulation with
            processed := machine.simulation.processed + 1
            context := .global } entities keys (Given history) :=
        booked.of_same rfl rfl rfl rfl rfl
      have received := counted.drainInbox_receives mailed.unexplored mailed.hinted done
      exact ⟨received.queued, received.armed, received.kept, received.stamped,
        received.numbered, received.clock⟩

namespace Mailed

variable (mailed : machine.Mailed entities history parcels)

include mailed

private theorem files (stepped : Stepped body machine signals after)
    (apart : ¬ machine.Drains) :
    Parcel.Filed (machine.post parcels) after.simulation.inbox ∧
      (machine.post parcels).map Parcel.request =
        parcels.map Parcel.request ++ signals.filterMap Signal.pushed? ∧
      (machine.post parcels).filterMap Parcel.arrival? = parcels.filterMap Parcel.arrival? := by
  cases stepped with
  | moved memory frames shifts =>
      rw [post_moved shifts]
      exact ⟨mailed.filed, (List.append_nil _).symm, rfl⟩
  | ran result frames before next below here =>
      rw [post_running ⟨before, next, below, here⟩]
      exact ⟨mailed.filed, (List.append_nil _).symm, rfl⟩
  | performed request next below value simulation here answered =>
      obtain ⟨filed, same⟩ := mailed.filed.post mailed.hinted request
      rw [post_performed here]
      exact ⟨Simulation.answer_inbox request answered ▸ filed,
        request.post_requests parcels value, same⟩
  | begun next below simulation here => exact absurd (.begins next below here) apart
  | finished below simulation here => exact absurd (.leaves below here) apart
  | starved simulation here taken =>
      rw [post_running here]
      exact ⟨(Simulation.dequeue_eq_ok taken).inbox.1 ▸ mailed.filed, (List.append_nil _).symm,
        rfl⟩
  | skipped entered simulation here taken left =>
      have same := (Simulation.dequeue_eq_ok taken).inbox.1
      rw [Simulation.leaveEvent_idle (same.trans (mailed.idle here))] at left
      cases left
      rw [post_running here]
      exact ⟨same ▸ mailed.filed, (List.append_nil _).symm, rfl⟩
  | fired key work simulation here taken =>
      rw [post_running here]
      exact ⟨(Simulation.dequeue_eq_ok taken).inbox.1 ▸ mailed.filed, (List.append_nil _).symm,
        rfl⟩
  | halted key simulation here taken =>
      rw [post_running here]
      exact ⟨(Simulation.dequeue_eq_ok taken).inbox.1 ▸ mailed.filed, (List.append_nil _).symm,
        rfl⟩
  | destroying handle work destroyEvents next below here =>
      rw [post_destroying here]
      exact ⟨mailed.filed, (List.append_nil _).symm, rfl⟩

private theorem step (lawful : machine.AsksLawfully history) (quiet : machine.Asks Request.Quiet)
    (stepped : machine.step body = .ok (signals, after)) :
    after.Mailed entities (history ++ signals) (machine.post parcels) := by
  have one := step_eq_ok stepped
  have brings : machine.Asks (Request.Brings EventQueue.Unexplored) :=
    fun reply request next below here =>
      (quiet reply request next below here).brings (lawful reply request next below here)
  obtain ⟨keys, booked⟩ := mailed.booked
  have posting : Parcel.Filed (machine.post parcels) after.simulation.inbox ∧
      (machine.post parcels).map Parcel.request =
        parcels.map Parcel.request ++ signals.filterMap Signal.pushed? ∧
      Parcel.Increasing (machine.post parcels) after.simulation.nextUid := by
    by_cases drains : machine.Drains
    · obtain ⟨received, emptied, rfl⟩ := drains.receives mailed stepped
      obtain ⟨filed, requests, arrivals⟩ := mailed.filed.merged
        machine.simulation.globalClock.now machine.simulation.nextUid
      rw [post_drains drains, emptied]
      exact ⟨filed, requests.trans (List.append_nil _).symm,
        mailed.increasing.merged arrivals received.numbered⟩
    · obtain ⟨filed, requests, same⟩ := mailed.files one drains
      exact ⟨filed, requests, mailed.increasing.onward same one.onward.numbers⟩
  obtain ⟨filed, requests, increasing⟩ := posting
  refine ⟨one.booked lawful booked,
    EventQueue.lasting_unexplored.step one brings mailed.unexplored, one.nested mailed.nested,
    one.hinted mailed.hinted, one.idle mailed.nested mailed.hinted mailed.idle, filed, ?_,
    increasing⟩
  rw [requests, List.filterMap_append, mailed.requests]

omit [Hook σ] in
private theorem posted : machine.Posted history parcels where
  requests := mailed.requests
  inbox := mailed.filed.waiting
  hinted := mailed.hinted
  idle := fun running => congrArg Inbox.requests (mailed.idle running)
  increasing := mailed.increasing

private theorem merges (drains : machine.Drains)
    (stepped : machine.step body = .ok (signals, after)) :
    ∃ arrivals, machine.Merges parcels arrivals after := by
  obtain ⟨received, emptied, _⟩ := drains.receives mailed stepped
  obtain ⟨_, _, ledger⟩ := mailed.filed.merged
    machine.simulation.globalClock.now machine.simulation.nextUid
  have room : machine.simulation.nextUid.value.toNat +
      machine.simulation.inbox.requests.length < UInt64.size :=
    received.numbered ▸ after.simulation.nextUid.value.toNat_lt
  obtain ⟨_, bounds⟩ :=
    RemoteRequest.arrivals_numbered machine.simulation.globalClock.now room
  refine ⟨_, ?_, (congrArg _ (post_drains drains)).trans ledger, received.queued, received.armed,
    fun arrival member => ?_, fun arrival member => ?_, fun arrival member => ?_, emptied⟩
  · exact (RemoteRequest.arrivals_requests _ _ _).trans mailed.filed.waiting.symm
  · rw [(RemoteRequest.eq_event_of_arrival member).1]
    rfl
  · obtain ⟨same, among⟩ := RemoteRequest.eq_event_of_arrival member
    rw [received.stamped arrival.1 among, same]
    rfl
  · exact UInt64.le_iff_toNat_le.mpr (bounds arrival member).1

/-- A step that merges nothing queues nothing but what it plans itself. -/
theorem unmerged (lawful : machine.AsksLawfully history) (apart : ¬ machine.Drains)
    (stepped : machine.step body = .ok (signals, after)) :
    ∀ key ∈ after.simulation.queue.keys, key ∈ machine.simulation.queue.keys ∨
      ∃ plan, machine.plan? = some plan ∧ machine.simulation.Planned plan key := by
  obtain ⟨keys, booked⟩ := mailed.booked
  have among {queue : EventQueue σ} {others : List EventKey} (holds : queue.Holds entities others)
      (origins : ∀ key ∈ others, key ∈ keys ∨
        ∃ plan, machine.plan? = some plan ∧ machine.simulation.Planned plan key) :
      ∀ key ∈ queue.keys, key ∈ machine.simulation.queue.keys ∨
        ∃ plan, machine.plan? = some plan ∧ machine.simulation.Planned plan key :=
    fun key member => (origins key (holds.listed.mem_iff.mp member)).imp_left
      booked.holds.listed.mem_iff.mpr
  cases step_eq_ok stepped with
  | moved | ran | destroying => exact fun _ => Or.inl
  | performed request next below value simulation here answered =>
      obtain ⟨others, kept, origins⟩ := booked.answer (lawful _ request next below here) answered
      have plans : machine.plan? = request.plan? machine.simulation.context := by
        unfold plan?
        rw [here]
      exact among kept.holds (plans ▸ origins)
  | begun next below simulation here => exact absurd (.begins next below here) apart
  | finished below simulation here => exact absurd (.leaves below here) apart
  | starved simulation here taken =>
      obtain ⟨others, kept, fewer⟩ := booked.taken (Simulation.dequeue_eq_ok taken)
      exact among kept.holds fun key member => Or.inl (fewer member)
  | skipped entered simulation here taken left =>
      obtain ⟨others, kept, fewer⟩ := booked.taken (Simulation.dequeue_eq_ok taken)
      have same := (Simulation.dequeue_eq_ok taken).inbox.1
      rw [Simulation.leaveEvent_idle (same.trans (mailed.idle here))] at left
      cases left
      exact among kept.holds fun key member => Or.inl (fewer member)
  | fired key work simulation here taken =>
      obtain ⟨others, kept, fewer⟩ := booked.taken (Simulation.dequeue_eq_ok taken)
      exact among kept.holds fun key member => Or.inl (fewer member)
  | halted key simulation here taken =>
      obtain ⟨others, kept, fewer⟩ := booked.taken (Simulation.dequeue_eq_ok taken)
      exact among kept.holds fun key member => Or.inl (fewer member)

/-- What waits can be merged as long as instants and numbers last. -/
theorem drains_returns (drains : machine.Drains)
    (mergeable : machine.simulation.Mergeable machine.simulation.inbox.requests) :
    ∃ after, machine.step body = .ok ([], after) := by
  obtain ⟨keys, booked⟩ := mailed.booked
  have all : machine.simulation.inbox.drain.1 = machine.simulation.inbox.requests :=
    congrArg Prod.fst mailed.hinted.drain_eq
  rw [← all] at mergeable
  cases drains with
  | begins next below here =>
      obtain ⟨drained, merged⟩ := booked.exists_drainInbox mergeable
      have began : ∃ simulation, machine.simulation.beginRun = .ok simulation := by
        unfold Simulation.beginRun
        simp only [merged, bind, Except.bind]
        split
        · exact ⟨_, rfl⟩
        · exact ⟨_, rfl⟩
      obtain ⟨simulation, begins⟩ := began
      exact ⟨_, step_begun here begins⟩
  | leaves below here =>
      have counted : Simulation.Booked
          { machine.simulation with
            processed := machine.simulation.processed + 1
            context := .global } entities keys (Given history) :=
        booked.of_same rfl rfl rfl rfl rfl
      obtain ⟨simulation, done⟩ := counted.exists_drainInbox
        ⟨mergeable.known, mergeable.timely, mergeable.room⟩
      exact ⟨_, step_finished here done⟩

end Mailed

omit [Hook σ] in
private theorem mailed_of_new {configuration : Configuration} {hook : σ} (memory : μ)
    (script : Script σ β μ) {simulation : Simulation σ β}
    (quiet : configuration.exploration.enabled = false)
    (started : Simulation.new configuration hook = .ok (.ok simulation))
    (booked : simulation.Booked configuration.entities [] (Given ([] : List (Signal σ β)))) :
    Mailed configuration.entities [] [] (start simulation memory script) := by
  obtain ⟨queue, built, rfl⟩ := Simulation.ofQueue_of_new started
  exact ⟨⟨[], booked⟩, .of_new quiet built, ⟨fun _ impossible => (nomatch impossible), trivial⟩,
    rfl, fun _ => rfl, ⟨[], rfl, fun _ impossible => (nomatch impossible)⟩, rfl, .nil,
    fun _ impossible => nomatch impossible⟩

private theorem Posts.mailed {start : Machine σ β μ} (begins : start.Mailed entities [] [])
    (posts : Posts body [] [] start history parcels machine) :
    machine.Mailed entities history parcels := by
  refine posts.keeps (motive := fun noted machine =>
    machine.Mailed entities noted.1 noted.2) begins ?_
  exact fun _ allowed stepped mailed => mailed.step allowed.1 allowed.2 stepped

end Machine

/-- Requests from outside are merged once, whatever lawful program pushes them, wherever. Each is
listed until it is dropped or merged, and stays so. The next step that begins a run or leaves an
event merges all that wait, if contexts exist and instants and numbers last: one event is queued
for each, in order. No other step queues what was not planned. -/
theorem Machine.remote_requests_merged_once (configuration : Configuration) (hook : σ)
    (valid : configuration.validate = .ok (.ok ()))
    (quiet : configuration.exploration.enabled = false) [Hook σ] (memory : μ)
    (script : Script σ β μ) (body : β → Script σ β μ) :
    ∃ simulation : Simulation σ β, Simulation.new configuration hook = .ok (.ok simulation) ∧
      ∀ history parcels machine,
        Posts body [] [] (.start simulation memory script) history parcels machine →
        machine.Posted history parcels ∧
        (∀ onward later last, Posts body history parcels machine onward later last →
          Parcel.Progress parcels later) ∧
        (machine.Drains → machine.simulation.Mergeable machine.simulation.inbox.requests →
          ∃ after, machine.step body = .ok ([], after)) ∧
        ∀ signals after, machine.step body = .ok (signals, after) →
          (machine.Drains → ∃ arrivals, machine.Merges parcels arrivals after) ∧
          (¬ machine.Drains → machine.AsksLawfully history →
            ∀ key ∈ after.simulation.queue.keys, key ∈ machine.simulation.queue.keys ∨
              ∃ plan, machine.plan? = some plan ∧ machine.simulation.Planned plan key) := by
  obtain ⟨simulation, started, booked⟩ := Simulation.booked_of_new hook valid
  refine ⟨simulation, started, fun history parcels machine posts => ?_⟩
  have mailed := posts.mailed (mailed_of_new memory script quiet started booked)
  exact ⟨mailed.posted, fun _ _ _ following => following.progress, mailed.drains_returns,
    fun signals after stepped => ⟨fun drains => mailed.merges drains stepped,
      fun apart lawful => mailed.unmerged lawful apart stepped⟩⟩

def announcedOnce : Script Exploration.Silent Bool Unit :=
  .perform (.schedule (.within .global 1) true) fun _ => .run fun _ => .done

def requestingAndStopping : Bool → Script Exploration.Silent Bool Unit
  | true =>
      .perform (.requestRemote (.node ⟨0⟩) 3 false) fun _ => .perform .stop fun _ => .done
  | false => .done

/-- A request is merged at the end of the callback that has pushed it, although that callback has
stopped the run: at instant one, for instant four. -/
theorem Machine.remote_requests_merged_once_stopped :
    ∃ simulation history machine after arrivals,
      Simulation.new keepingConfiguration Exploration.Silent.silent = .ok (.ok simulation) ∧
      Posts requestingAndStopping [] [] (.start simulation () announcedOnce) history
        [⟨⟨.node ⟨0⟩, 3, false⟩, .waiting⟩] machine ∧
      machine.simulation.stopRequested = true ∧ machine.Drains ∧
      machine.simulation.Mergeable machine.simulation.inbox.requests ∧
      machine.step requestingAndStopping = .ok ([], after) ∧
      machine.Merges [⟨⟨.node ⟨0⟩, 3, false⟩, .waiting⟩] arrivals after ∧
      arrivals.map (fun arrival => arrival.2.key) = [⟨⟨4⟩, ⟨5⟩, .node ⟨0⟩⟩] := by
  obtain ⟨simulation, started, posted⟩ := Machine.remote_requests_merged_once keepingConfiguration
    Exploration.Silent.silent rfl rfl () announcedOnce requestingAndStopping
  have reached : ∃ history parcels machine,
      Posts requestingAndStopping [] [] (.start simulation () announcedOnce) history parcels
        machine ∧
      parcels = [⟨⟨.node ⟨0⟩, 3, false⟩, .waiting⟩] ∧ machine.simulation.stopRequested = true ∧
      machine.Drains ∧ machine.simulation.Mergeable machine.simulation.inbox.requests ∧
      (machine.post parcels).filterMap Parcel.arrival? =
        [(⟨.node ⟨0⟩, 3, false⟩, ⟨⟨⟨4⟩, ⟨5⟩, .node ⟨0⟩⟩, .undefined, .node ⟨0⟩, none⟩)] := by
    cases started
    refine ⟨_, _, _, .of_steps 6 rfl fun fewer below past before taken => ⟨?_, ?_⟩, rfl, rfl,
      .leaves _ rfl,
      ⟨List.forall_mem_singleton.mpr Nat.one_pos, List.forall_mem_singleton.mpr (by decide),
        by decide⟩, rfl⟩
    all_goals
      intro reply request next under here
      interval_cases fewer <;> cases taken <;> cases here
    all_goals trivial
  obtain ⟨history, parcels, machine, posts, rfl, stopped, drains, mergeable, later⟩ := reached
  obtain ⟨_, _, returns, delivers⟩ := posted history _ machine posts
  obtain ⟨after, stepped⟩ := returns drains mergeable
  obtain ⟨arrivals, merges⟩ := (delivers [] after stepped).1 drains
  have same : [] ++ arrivals = _ := merges.ledger.symm.trans later
  refine ⟨simulation, history, machine, after, arrivals, started, posts, stopped, drains,
    mergeable, stepped, merges, ?_⟩
  rw [List.nil_append] at same
  rw [same]
  rfl

end EventKernel
