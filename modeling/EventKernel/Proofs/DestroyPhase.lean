import Mathlib.Tactic.IntervalCases
import EventKernel.Proofs.BookkeepingRuns
import EventKernel.Proofs.HandleFinality
import EventKernel.Proofs.Registrations

set_option autoImplicit false

/-! The destroy phase, for any lawful program. Callbacks of the phase may register and withdraw
others, and may call the phase themselves; still each registered callback begins at most once, in
the order of registration and in the phase only, and whenever the phase returns, nothing waits. To
cancel or remove a registration concerns no other handle, although all of them share one serial
number in their keys. -/

namespace EventKernel

open Exploration (Hook)

variable {σ β μ : Type}

namespace Simulation

variable [Hook σ] {simulation after : Simulation σ β} {history : List (Signal σ β)}

private theorem schedule_ordinary (regular : simulation.Regular) {plan : Plan}
    {callback : Callback β}
    {handle : Handle} (scheduled : simulation.schedule plan callback = .ok (handle, after)) :
    handle.isDestroy = false ∧ after.destroyEvents = simulation.destroyEvents := by
  obtain ⟨base, ts, nextUid, owner, atBase, stamped, atOwner, following, enqueued⟩ :=
    schedule_eq_ok scheduled
  have ordinary : (simulation.nextUid == EventUid.destroy) = false := by
    refine beq_eq_false_iff_ne.mpr fun same => ?_
    have least := regular.ordinary
    rw [same] at least
    exact absurd least (by decide)
  cases enqueued with
  | queued queue key inserted =>
      obtain ⟨_, _, _, rfl, _, _⟩ := Queue.EventQueue.insert_accepted inserted
      exact ⟨ordinary, rfl⟩
  | refused queue ended inserted => exact ⟨ordinary, rfl⟩

namespace Registered

private theorem answer (registered : simulation.Registered history) (regular : simulation.Regular)
    {reply : Reply} {request : Request σ β reply} {value : reply.Value}
    (lawful : request.Lawful history)
    (answered : request.answer simulation = .ok (value, after)) :
    after.Registered (history ++ [.answered request value]) := by
  have kept (same : after.destroyEvents = simulation.destroyEvents) : after.Registered history :=
    registered.of_same same (answer_onward request answered).numbers
  have withdraws (handle : Handle) (signal : Signal σ β) (known : Given history handle)
      (files : signal.file (registry history) =
        (registry history).map (Registration.settle handle .withdrawn))
      (silent : signal.destroying? = none ∧ signal.registered? = none)
      (gives : ∀ other, ¬ signal.Gives other)
      (both : handle.isDestroy = true → after = simulation.unregister handle)
      (withdrawn : Withdrawn simulation handle after) :
      after.Registered (history ++ [signal]) := by
    cases destroy : handle.isDestroy with
    | true =>
        rw [both destroy]
        exact registered.unregister known destroy files silent gives
    | false =>
        refine (kept (withdrawn.destroyEvents destroy)).told ?_ silent
          fun other given => absurd given (gives other)
        rw [files]
        refine Registration.map_settle_of_absent fun registration member same => ?_
        have phase := (registered.numbered registration member).1
        rw [same, destroy] at phase
        cases phase
  cases request with
  | schedule placement callback =>
      obtain ⟨ordinary, same⟩ := schedule_ordinary regular answered
      refine (kept same).told rfl ⟨rfl, rfl⟩ fun handle gives => ?_
      cases gives
      exact ordinary
  | stopAfter delay =>
      obtain ⟨ordinary, same⟩ := schedule_ordinary regular answered
      refine (kept same).told rfl ⟨rfl, rfl⟩ fun handle gives => ?_
      cases gives
      exact ordinary
  | scheduleDestroy callback => exact registered.scheduleDestroy answered
  | cancel handle =>
      obtain ⟨next, cancelled, returned⟩ := bind_eq_ok answered
      cases returned
      refine withdraws handle _ lawful rfl ⟨rfl, rfl⟩ (fun _ gives => nomatch gives)
        (fun destroy => ?_) (cancel_eq_ok cancelled)
      rw [cancel_destroy destroy] at cancelled
      exact (Except.ok.inj cancelled).symm
  | remove handle =>
      obtain ⟨next, removed, returned⟩ := bind_eq_ok answered
      cases returned
      refine withdraws handle _ lawful rfl ⟨rfl, rfl⟩ (fun _ gives => nomatch gives)
        (fun destroy => ?_) (remove_eq_ok removed)
      rw [remove_destroy destroy] at removed
      exact (Except.ok.inj removed).symm
  | replaceQueue replacement =>
      obtain ⟨next, replaced, returned⟩ := bind_eq_ok answered
      cases returned
      obtain ⟨queue, rfl⟩ := replaceQueue_same replaced
      exact (kept rfl).told rfl ⟨rfl, rfl⟩ fun _ gives => nomatch gives
  | isExpired _ | delayLeft _ | now | nowIn _ =>
      obtain ⟨answer, asked, returned⟩ := bind_eq_ok answered
      cases returned
      exact registered.told rfl ⟨rfl, rfl⟩ fun _ gives => nomatch gives
  | requestRemote _ _ _ | stop | dispose | currentContext | pending | remotePending | describe
  | detail | trace | configuration =>
      cases answered
      exact (kept rfl).told rfl ⟨rfl, rfl⟩ fun _ gives => nomatch gives

end Registered

end Simulation

namespace Machine

variable [Hook σ] {body : β → Script σ β μ} {machine after : Machine σ β μ}
  {history signals : List (Signal σ β)}

private theorem Stepped.registered (stepped : Stepped body machine signals after)
    (lawful : machine.AsksLawfully history) (regular : machine.simulation.Regular)
    (registered : machine.simulation.Registered history) :
    after.simulation.Registered (history ++ signals) := by
  have numbers := stepped.onward.numbers
  have taken {dequeued : Simulation.Dequeued β} {simulation : Simulation σ β}
      (taken : Simulation.Taken machine.simulation dequeued simulation) :
      simulation.Registered history := by
    refine registered.of_same ?_ taken.onward.numbers
    cases taken with
    | nothing queue popped => rfl
    | entered queue event unscheduled advanced slot popped one moved found =>
        obtain ⟨globalClock, localClocks, rfl⟩ := Simulation.advanceClock_eq_ok moved
        rfl
  cases stepped with
  | moved memory frames =>
      rw [List.append_nil]
      exact registered
  | ran result frames =>
      exact registered.told rfl ⟨rfl, rfl⟩ fun _ gives => nomatch gives
  | performed request next below value simulation here answered =>
      exact registered.answer regular (lawful _ request next below here) answered
  | begun next below simulation here began =>
      rw [List.append_nil]
      refine registered.of_same ?_ numbers
      obtain ⟨drained, stopRequested, merged, rfl⟩ := Simulation.beginRun_eq_ok began
      obtain ⟨_, _, _, _, _, _, rfl⟩ := Simulation.drainInbox_same merged
      rfl
  | starved simulation here dequeued =>
      rw [List.append_nil]
      exact taken (Simulation.dequeue_eq_ok dequeued)
  | skipped entered simulation here dequeued left =>
      rw [List.append_nil]
      refine (taken (Simulation.dequeue_eq_ok dequeued)).of_same ?_
        (Simulation.leaveEvent_onward left).numbers
      obtain ⟨_, _, _, _, _, _, rfl⟩ := Simulation.drainInbox_same left
      rfl
  | fired key work simulation here dequeued =>
      exact (taken (Simulation.dequeue_eq_ok dequeued)).told rfl ⟨rfl, rfl⟩
        fun _ gives => nomatch gives
  | halted key simulation here dequeued =>
      have kept : simulation.stop.Registered history :=
        (taken (Simulation.dequeue_eq_ok dequeued)).of_same rfl (Nat.le_refl _)
      exact kept.told rfl ⟨rfl, rfl⟩ fun _ gives => nomatch gives
  | finished below simulation here done =>
      rw [List.append_nil]
      refine registered.of_same ?_ numbers
      obtain ⟨_, _, _, _, _, _, rfl⟩ := Simulation.drainInbox_same done
      rfl
  | destroying handle work destroyEvents next below here first => exact registered.begins first

private theorem Stepped.fired_ordinary (stepped : Stepped body machine signals after)
    (regular : machine.simulation.Regular) {key : EventKey} {callback : Callback β}
    (fired : Signal.fired key callback ∈ signals) :
    EventUid.first.value.toNat ≤ key.uid.value.toNat := by
  cases stepped with
  | fired other work simulation here taken =>
      cases List.mem_singleton.mp fired
      exact regular.armed _ _ (Simulation.dequeue_eq_ok taken).armed
  | halted other simulation here taken =>
      cases List.mem_singleton.mp fired
      exact regular.armed _ _ (Simulation.dequeue_eq_ok taken).armed
  | moved | begun | starved | skipped | finished => cases fired
  | ran result | performed request | destroying handle work =>
      cases List.mem_singleton.mp fired

private theorem Reaches.registered {start : Machine σ β μ} (regular : start.simulation.Regular)
    (begins : start.simulation.Registered []) (reached : Reaches body start history machine) :
    machine.simulation.Regular ∧ machine.simulation.Registered history ∧
      ∀ key callback, Signal.fired key callback ∈ history →
        EventUid.first.value.toNat ≤ key.uid.value.toNat := by
  refine reached.keeps (motive := fun history machine =>
    machine.simulation.Regular ∧ machine.simulation.Registered history ∧
      ∀ key callback, Signal.fired key callback ∈ history →
        EventUid.first.value.toNat ≤ key.uid.value.toNat)
    ⟨regular, begins, fun key callback fired => by cases fired⟩ ?_
  rintro history signals machine after _ lawful stepped ⟨reachedRegular, registered, ordinary⟩
  have took := step_eq_ok stepped
  refine ⟨reachedRegular.onward took.onward, took.registered lawful reachedRegular registered,
    fun key callback fired => ?_⟩
  rcases List.mem_append.mp fired with before | now
  · exact ordinary key callback before
  · exact took.fired_ordinary reachedRegular now

/-- What the destroy phase has done so far and does from here on, read off the registrations. -/
structure DestroyPhase (body : β → Script σ β μ) (history : List (Signal σ β))
    (machine : Machine σ β μ) : Prop where
  listed : (registry history).map Registration.entry = history.filterMap Signal.registered?
  distinct : ((registry history).map Registration.handle).Nodup
  /-- Callbacks have begun in the order of registration. -/
  invoked : history.filterMap Signal.destroying? =
    (registry history).filterMap (Registration.at? .begun)
  once : ((history.filterMap Signal.destroying?).map Prod.fst).Nodup
  /-- Nothing else stands for a registered callback. -/
  apart : ∀ registration ∈ registry history, ∀ signal ∈ history,
    signal.Invokes registration.handle →
      signal = .destroying registration.handle registration.callback
  /-- Callbacks of the phase begin in a call of it only. -/
  only : ∀ signals after handle work, machine.step body = .ok (signals, after) →
    Signal.destroying handle work ∈ signals →
      ∃ next below, machine.frames = .destroying next :: below
  /-- A call returns when all that was not withdrawn has begun, in the order of registration. -/
  returns : ∀ next below after, machine.frames = .destroying next :: below →
    machine.step body = .ok ([], after) →
      (∀ registration ∈ registry history, registration.turn ≠ .waiting) ∧
        history.filterMap Signal.destroying? =
          ((registry history).filter fun registration => registration.turn != .withdrawn).map
            Registration.entry
  expired : ∀ registration ∈ registry history,
    machine.simulation.isExpired registration.handle = .ok (registration.turn != .waiting)
  /-- To cancel a registration and to remove it is the same, and concerns no other handle. -/
  withdraws : ∀ registration ∈ registry history,
    machine.simulation.cancel registration.handle =
      .ok (machine.simulation.unregister registration.handle) ∧
    machine.simulation.remove registration.handle =
      .ok (machine.simulation.unregister registration.handle) ∧
    ∀ other, Given history other → other ≠ registration.handle →
      (machine.simulation.unregister registration.handle).isExpired other =
        machine.simulation.isExpired other
  ordinary : ∀ handle after, handle.isDestroy = false →
    machine.simulation.cancel handle = .ok after ∨ machine.simulation.remove handle = .ok after →
      after.destroyEvents = machine.simulation.destroyEvents

/-- Under any configuration and any lawful program, whatever callbacks register, withdraw, schedule
or run, the callbacks of the destroy phase run once, in the order of registration. -/
theorem destroy_phase_runs_registrations {configuration : Queue.Configuration} {hook : σ}
    {simulation : Simulation σ β}
    (started : Simulation.new configuration hook = .ok (.ok simulation)) (memory : μ)
    (program : Script σ β μ)
    (reached : Reaches body (.start simulation memory program) history machine) :
    machine.DestroyPhase body history := by
  have regular := Simulation.regular_of_new started
  obtain ⟨queue, _, rfl⟩ := Simulation.ofQueue_of_new started
  obtain ⟨_, registered, fired⟩ := reached.registered regular (.of_ofQueue queue)
  constructor
  case listed => exact registered.listed
  case distinct => exact registered.handles_distinct
  case invoked => exact registered.begun
  case once =>
    rw [registered.begun, Registration.filterMap_at?, List.map_map]
    exact registered.handles_distinct.sublist (List.filter_sublist.map _)
  case apart =>
    intro registration member signal told invokes
    have destroy := Simulation.uid_eq_destroy (registered.numbered registration member).1
    cases invokes with
    | fired key callback same =>
        have least := fired key callback told
        rw [same, destroy] at least
        exact absurd least (by decide)
    | destroying work => rw [registered.begun_registered told member rfl]
  case only =>
    intro signals after handle work stepped begun
    cases step_eq_ok stepped with
    | destroying other held destroyEvents next below here first => exact ⟨next, below, here⟩
    | moved | begun | starved | skipped | finished => cases begun
    | ran | performed | fired | halted => cases List.mem_singleton.mp begun
  case returns =>
    intro next below after here stepped
    have nothing : machine.simulation.destroyEvents = [] := by
      cases events : machine.simulation.destroyEvents with
      | nil => rfl
      | cons first others =>
          obtain ⟨handle, work⟩ := first
          rw [step_destroying here events] at stepped
          cases stepped
    rw [registered.waiting, List.filterMap_eq_nil_iff] at nothing
    have done : ∀ registration ∈ registry history, registration.turn ≠ .waiting :=
      fun registration member => Registration.at?_eq_none (nothing registration member)
    refine ⟨done, ?_⟩
    rw [registered.begun, Registration.filterMap_at?]
    refine congrArg (List.map Registration.entry) (List.filter_congr fun registration member => ?_)
    cases turn : registration.turn with
    | waiting => exact absurd turn (done registration member)
    | begun | withdrawn => rfl
  case expired => exact fun registration member => registered.isExpired member
  case withdraws =>
    intro registration member
    have destroy := (registered.numbered registration member).1
    exact ⟨Simulation.cancel_destroy destroy, Simulation.remove_destroy destroy,
      fun other known different => registered.unregister_isExpired member known different⟩
  case ordinary =>
    intro handle after queued either
    rcases either with cancelled | removed
    · exact (Simulation.cancel_eq_ok cancelled).destroyEvents queued
    · exact (Simulation.remove_eq_ok removed).destroyEvents queued

def withdrawingWithin : Nat → Script Exploration.Silent Nat Handle
  | 0 => .recall fun handle => .perform (.cancel handle) fun _ =>
      .perform (.scheduleDestroy 3) fun _ => .done
  | _ => .done

def registeringThree : Script Exploration.Silent Nat Handle :=
  .perform (.scheduleDestroy 0) fun _ => .perform (.scheduleDestroy 1) fun second =>
    .remember second (.perform (.scheduleDestroy 2) fun _ => .destroy .done)

/-- Of three callbacks the first withdraws the second and registers a fourth: when the phase
returns, the first, the third and the fourth have begun, in this order. -/
theorem destroy_phase_runs_registrations_within :
    ∃ simulation history machine after,
      Simulation.new twoEntities Exploration.Silent.silent = .ok (.ok simulation) ∧
      Reaches withdrawingWithin (.start simulation cancelledHandle registeringThree) history
        machine ∧
      machine.DestroyPhase withdrawingWithin history ∧
      machine.step withdrawingWithin = .ok ([], after) ∧
      (history.filterMap Signal.destroying?).map Prod.snd = [0, 2, 3] ∧
      (registry history).map Registration.turn = [.begun, .withdrawn, .begun, .begun] := by
  have reached : ∃ simulation history machine after,
      Simulation.new twoEntities Exploration.Silent.silent = .ok (.ok simulation) ∧
      Reaches withdrawingWithin (.start simulation cancelledHandle registeringThree) history
        machine ∧
      machine.step withdrawingWithin = .ok ([], after) ∧
      (history.filterMap Signal.destroying?).map Prod.snd = [0, 2, 3] ∧
      (registry history).map Registration.turn = [.begun, .withdrawn, .begun, .begun] := by
    refine ⟨_, _, _, _, rfl, .of_steps 14 rfl ?_, rfl, rfl, rfl⟩
    intro fewer below past before taken reply request next under here
    interval_cases fewer <;> cases taken <;> cases here
    all_goals first | trivial | exact ⟨_, List.mem_cons_of_mem _ List.mem_cons_self, .registered 1⟩
  obtain ⟨simulation, history, machine, after, started, reaches, stepped, begun, turns⟩ := reached
  exact ⟨simulation, history, machine, after, started, reaches,
    destroy_phase_runs_registrations started _ _ reaches, stepped, begun, turns⟩

end Machine

end EventKernel
