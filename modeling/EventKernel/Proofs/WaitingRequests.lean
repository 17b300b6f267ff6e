import EventKernel.Proofs.MachineSteps

set_option autoImplicit false

/-! Requests from outside wait in the inbox until a run begins or leaves an event. The hint of the
inbox tells exactly whether any waits, so it never hides one; and while a run takes events, none
does. -/

namespace EventKernel

open Exploration (Hook)

variable {σ β μ : Type}

def Inbox.Hinted (inbox : Inbox β) : Prop := inbox.emptyHint = inbox.requests.isEmpty

namespace Inbox

variable {inbox : Inbox β}

theorem drain_idle (idle : inbox.requests = []) :
    inbox.drain.1 = [] ∧ inbox.drain.2.requests = [] := by
  unfold drain
  split
  · exact ⟨rfl, idle⟩
  · exact ⟨idle, rfl⟩

namespace Hinted

theorem push (inbox : Inbox β) (request : RemoteRequest β) : (inbox.push request).Hinted :=
  (List.isEmpty_eq_false_iff.mpr (List.append_ne_nil_of_right_ne_nil _ (List.cons_ne_nil _ _))).symm

theorem drain_eq (hinted : inbox.Hinted) : inbox.drain = (inbox.requests, .empty) := by
  unfold Inbox.drain
  cases hint : inbox.emptyHint with
  | true =>
      obtain ⟨requests, emptyHint⟩ := inbox
      have nothing : requests.isEmpty = true := hinted.symm.trans hint
      cases List.isEmpty_iff.mp nothing
      cases hint
      rfl
  | false => rfl

theorem drain (hinted : inbox.Hinted) : inbox.drain.2 = .empty :=
  congrArg Prod.snd hinted.drain_eq

theorem drained (hinted : inbox.Hinted) : inbox.drain.2.Hinted := by
  rw [hinted.drain]
  rfl

end Hinted

end Inbox

def Request.inbox (inbox : Inbox β) : {reply : Reply} → Request σ β reply → Inbox β
  | _, .requestRemote context delay callback => inbox.push ⟨context, delay, callback⟩
  | _, .dispose => inbox.drain.2
  | _, _ => inbox

theorem Inbox.Hinted.request {inbox : Inbox β} (hinted : inbox.Hinted) {reply : Reply}
    (request : Request σ β reply) : (request.inbox inbox).Hinted := by
  cases request with
  | requestRemote context delay callback => exact .push inbox _
  | dispose => exact hinted.drained
  | _ => exact hinted

namespace Simulation

variable [Hook σ] {simulation after : Simulation σ β}

theorem answer_inbox {reply : Reply} (request : Request σ β reply) {value : reply.Value}
    (answered : request.answer simulation = .ok (value, after)) :
    after.inbox = request.inbox simulation.inbox := by
  cases request with
  | schedule placement callback => exact schedule_inbox answered
  | stopAfter delay => exact schedule_inbox answered
  | scheduleDestroy callback =>
      obtain ⟨nextUid, following, _, rfl⟩ := scheduleDestroy_eq_ok answered
      rfl
  | cancel handle =>
      obtain ⟨next, cancelled, returned⟩ := bind_eq_ok answered
      cases returned
      exact (cancel_eq_ok cancelled).inbox
  | remove handle =>
      obtain ⟨next, removed, returned⟩ := bind_eq_ok answered
      cases returned
      exact (remove_eq_ok removed).inbox
  | replaceQueue replacement =>
      obtain ⟨next, replaced, returned⟩ := bind_eq_ok answered
      cases returned
      obtain ⟨queue, rfl⟩ := replaceQueue_same replaced
      rfl
  | isExpired _ | delayLeft _ | now | nowIn _ =>
      obtain ⟨answer, asked, returned⟩ := bind_eq_ok answered
      cases returned
      rfl
  | requestRemote _ _ _ | dispose | stop | currentContext | pending | remotePending | describe
  | detail | trace | configuration =>
      cases answered
      rfl

private theorem drainInbox_of_idle (idle : simulation.inbox.requests = [])
    (drained : simulation.drainInbox = .ok after) :
    after = { simulation with inbox := simulation.inbox.drain.2 } := by
  change ({ simulation with inbox := simulation.inbox.drain.2 }.mergeAll
    simulation.inbox.drain.1) = .ok after at drained
  rw [(Inbox.drain_idle idle).1] at drained
  cases drained
  rfl

theorem beginRun_of_idle (idle : simulation.inbox.requests = [])
    (begun : simulation.beginRun = .ok after) : ∃ stopRequested, after =
      { simulation with inbox := simulation.inbox.drain.2, stopRequested } := by
  obtain ⟨drained, stopRequested, merged, rfl⟩ := beginRun_eq_ok begun
  rw [drainInbox_of_idle idle merged]
  exact ⟨stopRequested, rfl⟩

theorem leaveEvent_of_idle (idle : simulation.inbox.requests = [])
    (left : simulation.leaveEvent = .ok after) :
    after = { simulation with context := .global, inbox := simulation.inbox.drain.2 } := by
  have outside : ({ simulation with context := .global } : Simulation σ β).inbox.requests = [] :=
    idle
  exact drainInbox_of_idle outside left

theorem finishEvent_of_idle (idle : simulation.inbox.requests = [])
    (finished : simulation.finishEvent = .ok after) :
    after = { simulation with
      processed := simulation.processed + 1
      context := .global
      inbox := simulation.inbox.drain.2 } := by
  have counted : ({ simulation with
      processed := simulation.processed + 1 } : Simulation σ β).inbox.requests = [] := idle
  exact leaveEvent_of_idle counted finished

theorem drainInbox_idle (idle : simulation.inbox = .empty) :
    simulation.drainInbox = .ok simulation := by
  have nothing : simulation.inbox.drain = ([], simulation.inbox) := by
    rw [idle]
    rfl
  unfold drainInbox
  simp only [nothing]
  rfl

theorem leaveEvent_idle (idle : simulation.inbox = .empty) :
    simulation.leaveEvent = .ok { simulation with context := .global } :=
  drainInbox_idle idle

end Simulation

namespace Machine

variable [Hook σ] {body : β → Script σ β μ} {machine after : Machine σ β μ}
  {signals : List (Signal σ β)}

omit [Hook σ] in
theorem isRunning_iff :
    machine.IsRunning ↔ ∃ top ∈ machine.frames.head?, top.isRunning = true := by
  constructor
  · rintro ⟨before, next, below, here⟩
    exact ⟨.running before next, by rw [here]; rfl, rfl⟩
  · rintro ⟨top, first, runs⟩
    obtain ⟨below, here⟩ := List.head?_eq_some_iff.mp first
    cases top with
    | running before next => exact ⟨before, next, below, here⟩
    | script | firing | destroying => cases runs

theorem Stepped.hinted (stepped : Stepped body machine signals after)
    (hinted : machine.simulation.inbox.Hinted) : after.simulation.inbox.Hinted := by
  cases stepped with
  | moved | ran | destroying => exact hinted
  | performed request next below value simulation here answered =>
      exact Simulation.answer_inbox request answered ▸ hinted.request request
  | begun next below simulation here began =>
      exact Simulation.beginRun_inbox began ▸ hinted.drained
  | starved simulation here taken =>
      exact (Simulation.dequeue_eq_ok taken).inbox.1 ▸ hinted
  | skipped entered simulation here taken left =>
      have entered := (Simulation.dequeue_eq_ok taken).inbox.1 ▸ hinted
      exact Simulation.drainInbox_inbox left ▸ entered.drained
  | fired key work simulation here taken =>
      exact (Simulation.dequeue_eq_ok taken).inbox.1 ▸ hinted
  | halted key simulation here taken =>
      exact (Simulation.dequeue_eq_ok taken).inbox.1 ▸ hinted
  | finished below simulation here done =>
      exact Simulation.drainInbox_inbox done ▸ hinted.drained

/-- While a run takes events nothing waits. -/
theorem Stepped.idle (stepped : Stepped body machine signals after)
    (nested : Frame.Nested machine.frames) (hinted : machine.simulation.inbox.Hinted)
    (idle : machine.IsRunning → machine.simulation.inbox = .empty) :
    after.IsRunning → after.simulation.inbox = .empty := by
  intro running
  cases stepped with
  | moved memory frames shifts =>
      obtain ⟨top, first, runs⟩ := isRunning_iff.mp running
      rw [(shifts.nested nested).2 top first] at runs
      cases runs
  | ran result frames before next below here followed =>
      obtain ⟨_, _, _, top⟩ := running
      simp only [followed] at top
      cases top
  | performed | fired | halted | destroying =>
      obtain ⟨_, _, _, top⟩ := running
      cases top
  | begun next below simulation here began =>
      exact (Simulation.beginRun_inbox began).trans hinted.drain
  | starved simulation here taken =>
      exact (Simulation.dequeue_eq_ok taken).inbox.1.trans (idle here)
  | skipped entered simulation here taken left =>
      have empty := (Simulation.dequeue_eq_ok taken).inbox.1.trans (idle here)
      rw [Simulation.leaveEvent_idle empty] at left
      cases left
      exact empty
  | finished below simulation here done =>
      exact (Simulation.drainInbox_inbox done).trans hinted.drain

end Machine

end EventKernel
