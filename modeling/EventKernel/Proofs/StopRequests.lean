import EventKernel.Proofs.AlikeComputations
import EventKernel.Proofs.Bearings
import EventKernel.Proofs.WaitingRequests

set_option autoImplicit false

/-! A request to stop sets one flag, and only a run reads it. Whatever else is asked of two
simulations that differ in the flag alone fails on both or on none, is answered alike, and leaves
them differing in nothing more. The flag stays as it is until a run begins, unless a stop is asked
for or the branch ends. -/

namespace EventKernel

open Queue (EventQueue)
open Exploration (Hook)

variable {σ β : Type}

/-- A request for a look at the simulation that can always be answered. -/
def Request.Looks : {reply : Reply} → Request σ β reply → Prop
  | _, .now => True
  | _, .currentContext => True
  | _, .pending => True
  | _, .remotePending => True
  | _, .describe => True
  | _, .detail => True
  | _, .trace => True
  | _, .configuration => True
  | _, _ => False

namespace Simulation

/-- The simulation as it would be had nobody asked for a stop. -/
def calm (simulation : Simulation σ β) : Simulation σ β :=
  { simulation with stopRequested := false }

def Restopped (first second : Simulation σ β) : Prop :=
  ∃ stopRequested, second = { first with stopRequested }

namespace Restopped

theorem refl (simulation : Simulation σ β) : Restopped simulation simulation :=
  ⟨simulation.stopRequested, rfl⟩

variable {first second : Simulation σ β} (restopped : Restopped first second)

include restopped

theorem calm_eq : second.calm = first.calm := by
  obtain ⟨stopRequested, rfl⟩ := restopped
  rfl

theorem processed_eq : second.processed = first.processed := by
  obtain ⟨stopRequested, rfl⟩ := restopped
  rfl

theorem stop : Restopped first second.stop := by
  obtain ⟨stopRequested, rfl⟩ := restopped
  exact ⟨true, rfl⟩

theorem destroyEvents_eq : second.destroyEvents = first.destroyEvents := by
  obtain ⟨stopRequested, rfl⟩ := restopped
  rfl

theorem unregister (destroyEvents : List (Handle × β)) :
    Restopped { first with destroyEvents } { second with destroyEvents } := by
  obtain ⟨stopRequested, rfl⟩ := restopped
  exact ⟨stopRequested, rfl⟩

theorem eq_of_stopRequested (same : second.stopRequested = first.stopRequested) :
    second = first := by
  obtain ⟨stopRequested, rfl⟩ := restopped
  change stopRequested = first.stopRequested at same
  rw [same]

theorem looks {reply : Reply} {request : Request σ β reply} (looks : request.Looks)
    {instant : Timestamp} (located : first.now = .ok instant) [Hook σ] :
    ∃ value, request.answer second = .ok (value, second) := by
  obtain ⟨stopRequested, rfl⟩ := restopped
  cases request with
  | now =>
      refine ⟨instant, ?_⟩
      change (do return (← first.now, _)) = _
      rw [located]
      rfl
  | currentContext | pending | remotePending | describe | detail | trace | configuration =>
      exact ⟨_, rfl⟩
  | _ => exact looks.elim

section

variable [Hook σ]

private theorem enqueue (event : Event) (callback : Callback β) :
    Alike (fun left right => left.1 = right.1 ∧ Restopped left.2 right.2)
      (first.enqueue event callback) (second.enqueue event callback) := by
  obtain ⟨stopRequested, rfl⟩ := restopped
  refine (Alike.of_eq rfl).bind ?_
  rintro ⟨answer, queue⟩ _ _ _ rfl
  cases answer with
  | ok key => exact ⟨rfl, stopRequested, rfl⟩
  | error ended => exact ⟨rfl, true, rfl⟩

omit [Hook σ] in
private theorem allocateUid :
    Alike (fun left right => left.1 = right.1 ∧ Restopped left.2 right.2)
      first.allocateUid second.allocateUid := by
  obtain ⟨stopRequested, rfl⟩ := restopped
  unfold Simulation.allocateUid
  cases first.nextUid.next? with
  | none => exact rfl
  | some nextUid => exact ⟨rfl, stopRequested, rfl⟩

omit [Hook σ] in
private theorem clock_eq (context : Context) : second.clock context = first.clock context := by
  obtain ⟨stopRequested, rfl⟩ := restopped
  rfl

private theorem schedule (plan : Plan) (callback : Callback β) :
    Alike (fun left right => left.1 = right.1 ∧ Restopped left.2 right.2)
      (first.schedule plan callback) (second.schedule plan callback) := by
  refine (Alike.of_eq (restopped.clock_eq plan.base)).bind ?_
  rintro base _ _ _ rfl
  refine (Alike.of_eq rfl).bind ?_
  rintro ts _ _ _ rfl
  refine (Alike.of_eq (restopped.clock_eq plan.context)).bind ?_
  rintro owner _ _ _ rfl
  refine restopped.allocateUid.bind ?_
  rintro ⟨uid, _⟩ ⟨_, _⟩ _ _ ⟨rfl, numbered⟩
  exact numbered.enqueue _ callback

private theorem merge (request : RemoteRequest β) :
    Alike Restopped (first.merge request) (second.merge request) := by
  have globalClock := Except.ok.inj (restopped.clock_eq .global)
  refine (Alike.of_eq (congrArg (Clock.after · request.delay) globalClock)).bind ?_
  rintro ts _ _ _ rfl
  refine (Alike.of_eq (restopped.clock_eq request.context)).bind ?_
  rintro owner _ _ _ rfl
  refine restopped.allocateUid.bind ?_
  rintro ⟨uid, _⟩ ⟨_, _⟩ _ _ ⟨rfl, numbered⟩
  exact (numbered.enqueue _ _).bind fun _ _ _ _ kept => kept.2

omit restopped in
private theorem mergeAll (requests : List (RemoteRequest β)) {first second : Simulation σ β}
    (restopped : Restopped first second) :
    Alike Restopped (first.mergeAll requests) (second.mergeAll requests) := by
  induction requests generalizing first second with
  | nil => exact restopped
  | cons request rest ih => exact (restopped.merge request).bind fun _ _ _ _ kept => ih kept

private theorem drainInbox : Alike Restopped first.drainInbox second.drainInbox := by
  obtain ⟨stopRequested, rfl⟩ := restopped
  exact mergeAll first.inbox.drain.1 ⟨stopRequested, rfl⟩

theorem beginRun : Alike (fun left right => Restopped left right ∧
    (left.terminated = none → left.stopRequested = false ∧ right.stopRequested = false))
      first.beginRun second.beginRun := by
  refine restopped.drainInbox.bind ?_
  rintro left right _ _ kept
  have ended : right.terminated = left.terminated := by
    obtain ⟨stopRequested, rfl⟩ := kept
    rfl
  rw [ended]
  split
  · obtain ⟨stopRequested, rfl⟩ := kept
    exact ⟨⟨false, rfl⟩, fun _ => ⟨rfl, rfl⟩⟩
  · rename_i alive
    refine ⟨kept, fun lives => ?_⟩
    rw [lives] at alive
    exact absurd rfl alive

private theorem leaveEvent : Alike Restopped first.leaveEvent second.leaveEvent := by
  obtain ⟨stopRequested, rfl⟩ := restopped
  have outside : Restopped { first with context := .global }
      { first with context := .global, stopRequested } := ⟨stopRequested, rfl⟩
  exact outside.drainInbox

theorem finishEvent : Alike Restopped first.finishEvent second.finishEvent := by
  obtain ⟨stopRequested, rfl⟩ := restopped
  have counted : Restopped { first with processed := first.processed + 1 }
      { first with processed := first.processed + 1, stopRequested } := ⟨stopRequested, rfl⟩
  exact counted.leaveEvent

end

private theorem isExpired_eq (handle : Handle) :
    second.isExpired handle = first.isExpired handle := by
  obtain ⟨stopRequested, rfl⟩ := restopped
  rfl

private theorem remove (handle : Handle) :
    Alike Restopped (first.remove handle) (second.remove handle) := by
  have expired := restopped.isExpired_eq handle
  obtain ⟨stopRequested, rfl⟩ := restopped
  unfold Simulation.remove
  split
  · exact ⟨stopRequested, rfl⟩
  · refine (Alike.of_eq expired).bind ?_
    rintro gone _ _ _ rfl
    cases gone with
    | true => exact ⟨stopRequested, rfl⟩
    | false =>
        refine (Alike.of_eq rfl).bind ?_
        rintro ⟨removed?, queue⟩ _ _ _ rfl
        cases removed? with
        | none => exact rfl
        | some event =>
            simp only [Option.isNone_some, Bool.false_eq_true, if_false]
            split
            · exact rfl
            · refine (Alike.of_eq rfl).bind ?_
              rintro unscheduled _ _ _ rfl
              exact ⟨stopRequested, rfl⟩

private theorem cancel (handle : Handle) :
    Alike Restopped (first.cancel handle) (second.cancel handle) := by
  have removed := restopped.remove handle
  refine (Alike.of_eq (restopped.isExpired_eq handle)).bind ?_
  obtain ⟨stopRequested, rfl⟩ := restopped
  rintro gone _ _ _ rfl
  split
  · exact ⟨stopRequested, rfl⟩
  · split
    · exact removed
    · exact ⟨stopRequested, rfl⟩

private theorem replaceQueue (replacement : EventQueue σ) :
    Alike Restopped (first.replaceQueue replacement) (second.replaceQueue replacement) := by
  obtain ⟨stopRequested, rfl⟩ := restopped
  unfold Simulation.replaceQueue
  split
  · refine (Alike.of_eq rfl).bind ?_
    rintro queue _ _ _ rfl
    exact ⟨stopRequested, rfl⟩
  · exact rfl

/-- No request is answered otherwise because a stop was asked for. -/
theorem answer [Hook σ] {reply : Reply} (request : Request σ β reply) :
    Alike (fun left right => left.1 = right.1 ∧ Restopped left.2 right.2)
      (request.answer first) (request.answer second) := by
  cases request with
  | schedule placement callback =>
      have scheduled := restopped.schedule (placement.plan first.context) (.user callback)
      obtain ⟨stopRequested, rfl⟩ := restopped
      exact scheduled
  | stopAfter delay =>
      have scheduled := restopped.schedule (Placement.plan first.context (.here .stop delay none))
        .stop
      obtain ⟨stopRequested, rfl⟩ := restopped
      exact scheduled
  | scheduleDestroy callback =>
      refine restopped.allocateUid.bind ?_
      rintro ⟨serial, left⟩ ⟨_, _⟩ _ _ ⟨rfl, stopRequested, rfl⟩
      exact ⟨rfl, stopRequested, rfl⟩
  | cancel handle => exact (restopped.cancel handle).bind fun _ _ _ _ kept => ⟨rfl, kept⟩
  | remove handle => exact (restopped.remove handle).bind fun _ _ _ _ kept => ⟨rfl, kept⟩
  | replaceQueue replacement =>
      exact (restopped.replaceQueue replacement).bind fun _ _ _ _ kept => ⟨rfl, kept⟩
  | stop =>
      obtain ⟨stopRequested, rfl⟩ := restopped
      exact ⟨rfl, true, rfl⟩
  | isExpired _ | delayLeft _ | now | nowIn _ =>
      obtain ⟨stopRequested, rfl⟩ := restopped
      refine (Alike.of_eq rfl).bind ?_
      rintro answer _ _ _ rfl
      exact ⟨rfl, stopRequested, rfl⟩
  | requestRemote _ _ _ | dispose | currentContext | pending | remotePending | describe | detail
  | trace | configuration =>
      obtain ⟨stopRequested, rfl⟩ := restopped
      exact ⟨rfl, stopRequested, rfl⟩

end Restopped

theorem now_of_bearings {simulation after : Simulation σ β}
    (same : after.bearings = simulation.bearings) : after.now = simulation.now := by
  obtain ⟨globalClock, localClocks, context⟩ := Bearings.mk.inj same
  unfold now nowIn clock
  rw [globalClock, localClocks, context]

/-- Clocks, context and count are as before, and so is the flag, unless the branch has ended. -/
structure Continues (simulation after : Simulation σ β) : Prop where
  bearings : after.bearings = simulation.bearings
  processed : after.processed = simulation.processed
  flag : after.terminated = none →
    simulation.terminated = none ∧ after.stopRequested = simulation.stopRequested

namespace Continues

variable {first second third simulation after : Simulation σ β}

private theorem refl (simulation : Simulation σ β) : simulation.Continues simulation :=
  ⟨rfl, rfl, fun lives => ⟨lives, rfl⟩⟩

private theorem trans (former : first.Continues second) (latter : second.Continues third) :
    first.Continues third := by
  refine ⟨latter.bearings.trans former.bearings, latter.processed.trans former.processed, ?_⟩
  intro lives
  obtain ⟨between, same⟩ := latter.flag lives
  obtain ⟨before, unchanged⟩ := former.flag between
  exact ⟨before, same.trans unchanged⟩

private theorem withdrawn {handle : Handle} (withdrawn : Withdrawn simulation handle after) :
    simulation.Continues after := by
  cases withdrawn with
  | unregistered | ignored | removed | cancelled => exact ⟨rfl, rfl, fun lives => ⟨lives, rfl⟩⟩

variable [Hook σ]

private theorem enqueued {event : Event} {callback : Callback β} {handle : Handle}
    {nextUid : EventUid}
    (enqueued : Enqueued { simulation with nextUid } event callback handle after) :
    simulation.Continues after := by
  cases enqueued with
  | queued queue key inserted => exact ⟨rfl, rfl, fun lives => ⟨lives, rfl⟩⟩
  | refused queue ended inserted => exact ⟨rfl, rfl, fun lives => nomatch lives⟩

private theorem schedule {plan : Plan} {callback : Callback β} {handle : Handle}
    (scheduled : simulation.schedule plan callback = .ok (handle, after)) :
    simulation.Continues after := by
  obtain ⟨_, _, _, _, _, _, _, _, queued⟩ := schedule_eq_ok scheduled
  exact enqueued queued

private theorem mergeAll {requests : List (RemoteRequest β)}
    (merged : simulation.mergeAll requests = .ok after) : simulation.Continues after := by
  induction requests generalizing simulation with
  | nil =>
      cases merged
      exact refl _
  | cons request rest ih =>
      obtain ⟨next, first, others⟩ := bind_eq_ok merged
      obtain ⟨_, _, _, _, _, _, _, queued⟩ := merge_eq_ok first
      exact (enqueued queued).trans (ih others)

theorem drainInbox (drained : simulation.drainInbox = .ok after) : simulation.Continues after := by
  have emptied : simulation.Continues { simulation with inbox := simulation.inbox.drain.2 } :=
    ⟨rfl, rfl, fun lives => ⟨lives, rfl⟩⟩
  exact emptied.trans (mergeAll drained)

/-- Only a request to stop asks for a stop. -/
theorem answer {reply : Reply} {request : Request σ β reply} {value : reply.Value}
    (answered : request.answer simulation = .ok (value, after)) :
    simulation.Continues after ∨
      Signal.answered request value = .answered .stop () ∧ after = simulation.stop := by
  cases request with
  | schedule placement callback => exact Or.inl (schedule answered)
  | stopAfter delay => exact Or.inl (schedule answered)
  | scheduleDestroy callback =>
      obtain ⟨nextUid, _, _, rfl⟩ := scheduleDestroy_eq_ok answered
      exact Or.inl ⟨rfl, rfl, fun lives => ⟨lives, rfl⟩⟩
  | cancel handle =>
      obtain ⟨next, cancelled, returned⟩ := bind_eq_ok answered
      cases returned
      exact Or.inl (withdrawn (cancel_eq_ok cancelled))
  | remove handle =>
      obtain ⟨next, removed, returned⟩ := bind_eq_ok answered
      cases returned
      exact Or.inl (withdrawn (remove_eq_ok removed))
  | replaceQueue replacement =>
      obtain ⟨next, replaced, returned⟩ := bind_eq_ok answered
      cases returned
      obtain ⟨queue, rfl⟩ := replaceQueue_same replaced
      exact Or.inl ⟨rfl, rfl, fun lives => ⟨lives, rfl⟩⟩
  | stop =>
      cases answered
      exact Or.inr ⟨rfl, rfl⟩
  | isExpired _ | delayLeft _ | now | nowIn _ =>
      obtain ⟨answer, asked, returned⟩ := bind_eq_ok answered
      cases returned
      exact Or.inl (refl simulation)
  | requestRemote _ _ _ | dispose | currentContext | pending | remotePending | describe | detail
  | trace | configuration =>
      cases answered
      exact Or.inl ⟨rfl, rfl, fun lives => ⟨lives, rfl⟩⟩

theorem finishEvent (done : simulation.finishEvent = .ok after) :
    after.context = .global ∧ after.processed = simulation.processed + 1 ∧
      (after.terminated = none →
        simulation.terminated = none ∧ after.stopRequested = simulation.stopRequested) := by
  obtain ⟨bearings, processed, flag⟩ := drainInbox done
  exact ⟨congrArg Bearings.context bearings, processed, flag⟩

end Continues

theorem flag_of_beginRun [Hook σ] {simulation after : Simulation σ β}
    (begun : simulation.beginRun = .ok after) : after.bearings = simulation.bearings ∧
      after.processed = simulation.processed ∧
      (after.terminated = none → simulation.terminated = none ∧ after.stopRequested = false) := by
  obtain ⟨drained, merged, rest⟩ := bind_eq_ok begun
  obtain ⟨bearings, processed, flag⟩ := Continues.drainInbox merged
  cases ended : drained.terminated with
  | none =>
      rw [ended] at rest
      cases rest
      exact ⟨bearings, processed, fun lives => ⟨(flag ended).1, rfl⟩⟩
  | some reason =>
      rw [ended] at rest
      cases rest
      refine ⟨bearings, processed, fun lives => ?_⟩
      cases ended.symm.trans lives

theorem beginRun_idle [Hook σ] {simulation : Simulation σ β} (idle : simulation.inbox = .empty)
    (alive : simulation.terminated = none) : simulation.beginRun = .ok simulation.calm := by
  have lives : simulation.terminated.isNone = true := Option.isNone_iff_eq_none.mpr alive
  unfold beginRun
  simp only [drainInbox_idle idle, bind, Except.bind, lives, if_true]
  rfl

/-- A run that ends tells what it has done, unless the branch has ended. -/
theorem Booked.endRun_eq {simulation : Simulation σ β} {entities : Nat} {keys : List EventKey}
    {given : Handle → Prop} (booked : simulation.Booked entities keys given)
    (alive : simulation.terminated = none) (before : Nat) :
    simulation.endRun before = .ok (.ok ⟨simulation.processed - before,
      simulation.globalClock.now, simulation.queue.deadlocks, simulation.stopRequested⟩) := by
  obtain ⟨result, ended⟩ := booked.exists_endRun before
  rw [ended]
  unfold endRun at ended
  rw [alive] at ended
  simp only at ended
  split at ended
  · exact ended.symm
  · cases ended

theorem flag_of_endRun {simulation : Simulation σ β} {before : Nat} {summary : RunSummary}
    (ended : simulation.endRun before = .ok (.ok summary)) :
    simulation.terminated = none ∧ summary.stopped = simulation.stopRequested := by
  unfold endRun at ended
  split at ended
  · cases ended
  · rename_i alive
    split at ended
    · cases ended
      exact ⟨alive, rfl⟩
    · cases ended

theorem unstopped_of_goesOn {simulation : Simulation σ β} (goes : simulation.goesOn = true) :
    simulation.stopRequested = false := by
  unfold goesOn at goes
  rw [Bool.and_eq_true, Bool.not_eq_true'] at goes
  exact goes.1

theorem Taken.flag {simulation after : Simulation σ β} {dequeued : Dequeued β}
    (taken : Taken simulation dequeued after) : after.processed = simulation.processed ∧
      after.stopRequested = simulation.stopRequested ∧
      after.terminated = simulation.terminated := by
  cases taken with
  | nothing queue popped => exact ⟨rfl, rfl, rfl⟩
  | entered queue event unscheduled advanced slot popped one moved found =>
      obtain ⟨globalClock, localClocks, rfl⟩ := advanceClock_eq_ok moved
      exact ⟨rfl, rfl, rfl⟩

end Simulation

end EventKernel
