import EventKernel.Proofs.BookkeepingRuns

set_option autoImplicit false

/-! Properties of a queue that every operation on it keeps. A simulation keeps them as well, and so
does a program, as long as a queue that takes the place of the present one has them. -/

namespace EventKernel

open Queue (EventQueue)
open Exploration (Hook)

variable {σ β μ : Type}

/-- What stays true of a queue, whatever is done with it. -/
structure Queue.EventQueue.Lasting [Hook σ] (property : EventQueue σ → Prop) : Prop where
  insert : ∀ {queue after : EventQueue σ} {event : Event} {answer : Except BranchEnded EventKey},
    queue.insert event = .ok (answer, after) → property queue → property after
  reinsert : ∀ {queue after : EventQueue σ} {event : Event},
    queue.reinsert event = .ok after → property queue → property after
  pop : ∀ {queue after : EventQueue σ} {event? : Option Event},
    queue.pop = .ok (event?, after) → property queue → property after
  erase : ∀ {queue after : EventQueue σ} {key : EventKey} {event? : Option Event},
    queue.erase key = .ok (event?, after) → property queue → property after
  drain : ∀ {queue : EventQueue σ}, property queue → property queue.drain.2

def Request.Brings (property : EventQueue σ → Prop) :
    {reply : Reply} → Request σ β reply → Prop
  | _, .replaceQueue replacement => property replacement
  | _, _ => True

namespace Queue.EventQueue.Lasting

open Simulation (Enqueued Taken Withdrawn)

variable [Hook σ] {property : EventQueue σ → Prop} (lasting : Lasting property)
  {simulation after : Simulation σ β}

include lasting

private theorem reinsertAll {events : List Event} {queue later : EventQueue σ}
    (moved : queue.reinsertAll events = .ok later) (holds : property queue) : property later := by
  induction events generalizing queue with
  | nil =>
      cases moved
      exact holds
  | cons event rest ih =>
      obtain ⟨next, first, others⟩ := bind_eq_ok moved
      exact ih others (lasting.reinsert first holds)

private theorem withdrawn {handle : Handle} (withdrawn : Withdrawn simulation handle after)
    (holds : property simulation.queue) : property after.queue := by
  cases withdrawn with
  | unregistered | ignored | cancelled => exact holds
  | removed queued queue event unscheduled erased => exact lasting.erase erased holds

private theorem taken {dequeued : Simulation.Dequeued β} (taken : Taken simulation dequeued after)
    (holds : property simulation.queue) : property after.queue := by
  cases taken with
  | nothing queue popped => exact lasting.pop popped holds
  | entered queue event unscheduled advanced slot popped one moved found =>
      obtain ⟨globalClock, localClocks, rfl⟩ := Simulation.advanceClock_eq_ok moved
      exact lasting.pop popped holds

private theorem enqueued {event : Event} {callback : Callback β} {handle : Handle}
    (enqueued : Enqueued simulation event callback handle after)
    (holds : property simulation.queue) : property after.queue := by
  cases enqueued with
  | queued queue key inserted => exact lasting.insert inserted holds
  | refused queue ended inserted => exact lasting.insert inserted holds

private theorem schedule {plan : Simulation.Plan} {callback : Callback β} {handle : Handle}
    (scheduled : simulation.schedule plan callback = .ok (handle, after))
    (holds : property simulation.queue) : property after.queue := by
  obtain ⟨_, _, _, _, _, _, _, _, enqueued⟩ := Simulation.schedule_eq_ok scheduled
  exact lasting.enqueued enqueued holds

theorem mergeAll {requests : List (RemoteRequest β)}
    (merged : simulation.mergeAll requests = .ok after)
    (holds : property simulation.queue) : property after.queue := by
  induction requests generalizing simulation with
  | nil =>
      cases merged
      exact holds
  | cons request rest ih =>
      obtain ⟨next, first, others⟩ := bind_eq_ok merged
      obtain ⟨_, _, _, _, _, _, _, enqueued⟩ := Simulation.merge_eq_ok first
      exact ih others (lasting.enqueued enqueued holds)

theorem beginRun (begun : simulation.beginRun = .ok after)
    (holds : property simulation.queue) : property after.queue := by
  obtain ⟨drained, stopRequested, merged, rfl⟩ := Simulation.beginRun_eq_ok begun
  have kept : property drained.queue := lasting.mergeAll merged holds
  exact kept

theorem answer {reply : Reply} {request : Request σ β reply} {value : reply.Value}
    (brings : request.Brings property) (answered : request.answer simulation = .ok (value, after))
    (holds : property simulation.queue) : property after.queue := by
  cases request with
  | schedule placement callback => exact lasting.schedule answered holds
  | stopAfter delay => exact lasting.schedule answered holds
  | scheduleDestroy callback =>
      obtain ⟨nextUid, following, _, rfl⟩ := Simulation.scheduleDestroy_eq_ok answered
      exact holds
  | cancel handle =>
      obtain ⟨next, cancelled, returned⟩ := bind_eq_ok answered
      cases returned
      exact lasting.withdrawn (Simulation.cancel_eq_ok cancelled) holds
  | remove handle =>
      obtain ⟨next, removed, returned⟩ := bind_eq_ok answered
      cases returned
      exact lasting.withdrawn (Simulation.remove_eq_ok removed) holds
  | replaceQueue replacement =>
      obtain ⟨next, replaced, returned⟩ := bind_eq_ok answered
      cases returned
      unfold Simulation.replaceQueue at replaced
      split at replaced
      · obtain ⟨queue, moved, same⟩ := bind_eq_ok replaced
        cases same
        exact lasting.reinsertAll moved brings
      · cases replaced
  | dispose =>
      cases answered
      exact lasting.drain holds
  | isExpired _ | delayLeft _ | now | nowIn _ =>
      obtain ⟨answer, asked, returned⟩ := bind_eq_ok answered
      cases returned
      exact holds
  | requestRemote _ _ _ | stop | currentContext | pending | remotePending | describe | detail
  | trace | configuration =>
      cases answered
      exact holds

theorem step {body : β → Script σ β μ} {machine later : Machine σ β μ}
    {signals : List (Signal σ β)} (stepped : machine.Stepped body signals later)
    (brings : machine.Asks (Request.Brings property)) (holds : property machine.simulation.queue) :
    property later.simulation.queue := by
  cases stepped with
  | moved | ran | destroying => exact holds
  | performed request next below value simulation here answered =>
      exact lasting.answer (brings _ request next below here) answered holds
  | begun next below simulation here began => exact lasting.beginRun began holds
  | starved simulation here taken => exact lasting.taken (Simulation.dequeue_eq_ok taken) holds
  | skipped entered simulation here taken left =>
      have entered := lasting.taken (Simulation.dequeue_eq_ok taken) holds
      exact lasting.mergeAll left entered
  | fired key work simulation here taken =>
      exact lasting.taken (Simulation.dequeue_eq_ok taken) holds
  | halted key simulation here taken =>
      have entered : property simulation.queue :=
        lasting.taken (Simulation.dequeue_eq_ok taken) holds
      exact entered
  | finished below simulation here done => exact lasting.mergeAll done holds

end Queue.EventQueue.Lasting

end EventKernel
