import Mathlib.Tactic.IntervalCases
import EventKernel.Proofs.HandleFinality
import EventKernel.Proofs.NextKeys

set_option autoImplicit false

/-! Programs that schedule against the clock of the owner only. Each of their events comes after
the clock of its owner for as long as it is queued, so that clock moves on whenever an event is
taken, and no event is overtaken by it: a callback that has not run can be withdrawn. This holds
under the credit rule as well, where events of different owners leave in no common order. -/

namespace EventKernel

open Queue (Configuration EventQueue)
open Exploration (Hook)

variable {σ β μ : Type}

/-- A request that plans no event against the clock of another context, and none from outside. -/
def Request.ByOwnClock : {reply : Reply} → Request σ β reply → Prop
  | _, .schedule (.message _ _ _ _) _ => False
  | _, .requestRemote _ _ _ => False
  | _, _ => True

namespace Request.ByOwnClock

variable {reply : Reply} {request : Request σ β reply}

private theorem fromInside (own : request.ByOwnClock) : request.FromInside := by
  cases request with
  | requestRemote _ _ _ => exact own
  | _ => trivial

private theorem base_eq (own : request.ByOwnClock) {current : Context} {plan : Simulation.Plan}
    (planned : request.plan? current = some plan) : plan.base = plan.context := by
  cases request with
  | schedule placement callback =>
      cases planned
      cases placement with
      | here | within => rfl
      | message => exact own.elim
  | stopAfter delay =>
      cases planned
      rfl
  | _ => cases planned

end Request.ByOwnClock

namespace Simulation

variable {simulation after : Simulation σ β} {entities : Nat} {keys others : List EventKey}
  {given : Handle → Prop} {history : List (Signal σ β)}

/-- Every queued event comes after the clock of its owner, and every number that is still to be
given out after all clocks. -/
structure Punctual (simulation : Simulation σ β) (keys : List EventKey) : Prop where
  ahead : ∀ key ∈ keys, ∀ clock, simulation.clock key.context = .ok clock → clock.Precedes key
  numbered : ∀ context clock, simulation.clock context = .ok clock →
    clock.lastUid.value.toNat < simulation.nextUid.value.toNat
  idle : simulation.inbox.requests = []

/-- What a program that schedules by the clocks of the owners relies on. -/
structure RunsOnTime (simulation : Simulation σ β) (given : Handle → Prop) : Prop where
  queued : ∀ event ∈ simulation.queue.layout.events, ∃ clock,
    simulation.clock event.key.context = .ok clock ∧ clock.Precedes event.key
  /-- Taking an event moves the clock of its owner on to it, and no other clock. -/
  advances : ∀ dequeued after, simulation.dequeue = .ok (dequeued, after) →
    (dequeued = .nothing ∧ simulation.queue.layout.events = [] ∧ after = simulation) ∨
    ∃ event queue clock, simulation.queue.pop = .ok (some event, queue) ∧
      (dequeued = .skipped ∨ ∃ callback, dequeued = .invoke event.key callback) ∧
      simulation.clock event.key.context = .ok clock ∧ clock.Precedes event.key ∧
      ∀ context, after.clock context =
        if context = event.key.context then .ok ⟨event.key.ts, event.key.uid⟩
        else simulation.clock context
  /-- An event has expired exactly if its callback is gone. -/
  expires : ∀ handle, given handle → handle.isDestroy = false →
    ∃ expired, simulation.isExpired handle = .ok expired ∧
      (expired = true ↔ simulation.slots.find? handle.key.uid = none ∨
        simulation.slots.find? handle.key.uid = some .cancelled)
  cancels : ∀ handle, given handle →
    ∃ after, simulation.cancel handle = .ok after ∧ after.Gone handle
  removes : ∀ handle, given handle →
    ∃ after, simulation.remove handle = .ok after ∧ after.Gone handle

namespace Punctual

private theorem of_ofQueue (queue : EventQueue σ) :
    (ofQueue queue : Simulation σ β).Punctual [] where
  ahead := List.forall_mem_nil _
  numbered := by
    intro context clock read
    have fresh : clock = .start := by
      unfold Simulation.clock at read
      split at read
      · exact (Except.ok.inj read).symm
      · split at read
        · rename_i held found
          cases read
          exact List.eq_of_mem_replicate (List.mem_of_getElem? found)
        · cases read
    rw [fresh]
    change EventUid.invalid.value.toNat < EventUid.first.value.toNat
    decide
  idle := rfl

private theorem still (punctual : simulation.Punctual keys) (fewer : others ⊆ keys)
    (clock : after.clock = simulation.clock)
    (numbers : simulation.nextUid.value.toNat ≤ after.nextUid.value.toNat)
    (idle : after.inbox.requests = []) : after.Punctual others where
  ahead := by
    rw [clock]
    exact fun key member => punctual.ahead key (fewer member)
  numbered := by
    rw [clock]
    exact fun context held read => Nat.lt_of_lt_of_le (punctual.numbered context held read) numbers
  idle := idle

private theorem of_same (punctual : simulation.Punctual keys)
    (globalClock : after.globalClock = simulation.globalClock)
    (localClocks : after.localClocks = simulation.localClocks)
    (number : after.nextUid = simulation.nextUid) (idle : after.inbox.requests = []) :
    after.Punctual keys :=
  punctual.still (List.Subset.refl keys) (clock_congr globalClock localClocks)
    (Nat.le_of_eq (by rw [number])) idle

private theorem planned (punctual : simulation.Punctual keys) {plan : Plan}
    (own : plan.base = plan.context) {key : EventKey} (planned : simulation.Planned plan key)
    {clock : Clock} (read : simulation.clock key.context = .ok clock) : clock.Precedes key := by
  rw [planned.owner, ← own] at read
  exact planned.after_base read (punctual.numbered plan.base clock read)

private theorem answer [Hook σ] (punctual : simulation.Punctual keys) {reply : Reply}
    {request : Request σ β reply} {value : reply.Value} (own : request.ByOwnClock)
    (answered : request.answer simulation = .ok (value, after))
    (origins : ∀ key ∈ others, key ∈ keys ∨
      ∃ plan, request.plan? simulation.context = some plan ∧ simulation.Planned plan key) :
    after.Punctual others := by
  have clock := answer_clock request answered
  refine ⟨fun key member held read => ?_, fun context held read => ?_,
    answer_idle own.fromInside punctual.idle answered⟩
  · rw [clock] at read
    rcases origins key member with before | ⟨plan, asked, planned⟩
    · exact punctual.ahead key before held read
    · exact punctual.planned (own.base_eq asked) planned read
  · rw [clock] at read
    exact Nat.lt_of_lt_of_le (punctual.numbered context held read)
      (answer_onward request answered).numbers

private theorem takes (punctual : simulation.Punctual keys)
    (booked : simulation.Booked entities keys given) {key : EventKey} {dequeued : Dequeued β}
    (takes : simulation.Takes entities keys given key dequeued after) :
    after.Punctual (keys.erase key) := by
  obtain ⟨inbox, nextUid⟩ := takes.others
  refine ⟨fun other member clock read => ?_, fun context clock read => ?_,
    inbox ▸ punctual.idle⟩
  · have before := List.mem_of_mem_erase member
    rw [takes.clock] at read
    split at read
    · rename_i owner
      cases read
      have apart : other ≠ key := by
        rintro rfl
        exact booked.holds.keys_nodup.not_mem_erase member
      exact takes.goesFirst.ofOwner other before apart owner
    · exact punctual.ahead other before clock read
  · rw [takes.clock] at read
    rw [nextUid]
    split at read
    · cases read
      exact (booked.numbered key takes.goesFirst.isLive).2
    · exact punctual.numbered context clock read

private theorem not_overtaken (punctual : simulation.Punctual keys)
    (booked : simulation.Booked entities keys given) {handle : Handle} (known : given handle) :
    ¬ simulation.Overtaken handle := by
  rintro ⟨queued, callback, clock, found, read, passed⟩
  have ahead := punctual.ahead _ (booked.key_of_slot known queued found) clock read
  rw [Clock.precedes_iff_not_hasPassed.mp ahead] at passed
  cases passed

private theorem runsOnTime (punctual : simulation.Punctual keys)
    (booked : simulation.Booked entities keys given) (regular : simulation.Regular) :
    simulation.RunsOnTime given where
  queued := by
    intro event member
    have listed := booked.holds.listed.mem_iff.mp (List.mem_map_of_mem member)
    obtain ⟨clock, read⟩ := exists_clock (booked.clocks.symm ▸ booked.holds.knows listed)
    exact ⟨clock, read, punctual.ahead event.key listed clock read⟩
  advances := by
    intro dequeued after taken
    rcases booked.takes (dequeue_eq_ok taken) with
      ⟨nothing, noKeys, same, _⟩ | ⟨key, takes⟩
    · exact Or.inl ⟨nothing, Queue.Layout.isEmpty_iff.mp (booked.holds.isEmpty_iff.mpr noKeys),
        same⟩
    · right
      obtain ⟨event, queue, popped, rfl⟩ := takes.popped
      have member := takes.goesFirst.isLive
      obtain ⟨clock, read⟩ := exists_clock (booked.clocks.symm ▸ booked.holds.knows member)
      exact ⟨event, queue, clock, popped, takes.named, read,
        punctual.ahead event.key member clock read, takes.clock⟩
  expires := by
    intro handle known queued
    obtain ⟨expired, asked⟩ := booked.exists_isExpired known
    refine ⟨expired, asked, fun same => ?_, fun disarmed => ?_⟩
    · subst same
      have gone := (overtaken_or_gone regular asked).resolve_left
        (punctual.not_overtaken booked known)
      cases found : simulation.slots.find? handle.key.uid with
      | none => exact Or.inl rfl
      | some slot =>
          cases slot with
          | cancelled => exact Or.inr rfl
          | armed callback => exact absurd found (gone.disarmed callback)
    · unfold isExpired at asked
      rw [queued, if_neg Bool.false_ne_true] at asked
      rcases disarmed with absent | cancelled
      · rw [absent] at asked
        exact (Except.ok.inj asked).symm
      · rw [cancelled] at asked
        exact (Except.ok.inj asked).symm
  cancels := by
    intro handle known
    obtain ⟨after, cancelled⟩ := booked.exists_cancel known
    refine ⟨after, cancelled, ?_⟩
    rcases (cancel_eq_ok cancelled).ends regular with ⟨overtaken, _⟩ | ⟨_, gone⟩
    · exact absurd overtaken (punctual.not_overtaken booked known)
    · exact gone
  removes := by
    intro handle known
    obtain ⟨after, removed⟩ := booked.exists_remove known
    refine ⟨after, removed, ?_⟩
    rcases (remove_eq_ok removed).ends regular with ⟨overtaken, _⟩ | ⟨_, gone⟩
    · exact absurd overtaken (punctual.not_overtaken booked known)
    · exact gone

end Punctual

end Simulation

namespace Machine

variable [Hook σ]

/-- The machines that a lawful program reaches which schedules against the clocks of the owners
only, each with all that was visible on the way. -/
def KeepsToOwners (body : β → Script σ β μ) (start : Machine σ β μ) :
    List (Signal σ β) → Machine σ β μ → Prop :=
  LeadsTo body (Watch.lawful.only fun machine => machine.Asks Request.ByOwnClock) [] start

variable {body : β → Script σ β μ} {machine after start : Machine σ β μ}
  {history signals : List (Signal σ β)} {entities : Nat} {keys : List EventKey}

private theorem Stepped.punctual (stepped : Stepped body machine signals after)
    (lawful : machine.AsksLawfully history) (own : machine.Asks Request.ByOwnClock)
    (booked : machine.simulation.Booked entities keys (Given history))
    (punctual : machine.simulation.Punctual keys) :
    ∃ others, after.simulation.Booked entities others (Given (history ++ signals)) ∧
      after.simulation.Punctual others := by
  have taken {dequeued : Simulation.Dequeued β} {entered : Simulation σ β}
      (taken : machine.simulation.dequeue = .ok (dequeued, entered)) :
      ∃ others, entered.Booked entities others (Given history) ∧ entered.Punctual others := by
    rcases booked.takes (Simulation.dequeue_eq_ok taken) with ⟨_, _, rfl, _⟩ | ⟨key, takes⟩
    · exact ⟨keys, booked, punctual⟩
    · exact ⟨keys.erase key, takes.booked, punctual.takes booked takes⟩
  have unmoved {others : List EventKey} {later : Simulation σ β}
      (kept : later.Booked entities others (Given history)) (still : later.Punctual others) :
      ∃ others, later.Booked entities others (Given (history ++ [])) ∧ later.Punctual others :=
    ⟨others, (List.append_nil history).symm ▸ kept, still⟩
  -- Clocks move only where an event is taken, and nothing enters the queue but through requests.
  cases stepped with
  | moved memory frames => exact unmoved booked punctual
  | ran result frames => exact ⟨keys, booked.told fun _ gives => (nomatch gives), punctual⟩
  | performed request next below value simulation here answered =>
      obtain ⟨others, kept, origins⟩ :=
        booked.answer (lawful _ request next below here) answered
      exact ⟨others, kept, punctual.answer (own _ request next below here) answered origins⟩
  | begun next below simulation here began =>
      obtain ⟨stopRequested, rfl⟩ := Simulation.beginRun_of_idle punctual.idle began
      exact unmoved (booked.of_same rfl rfl rfl rfl rfl)
        (punctual.of_same rfl rfl rfl (Inbox.drain_idle punctual.idle).2)
  | starved simulation here dequeued =>
      obtain ⟨others, kept, still⟩ := taken dequeued
      exact unmoved kept still
  | skipped entered simulation here dequeued left =>
      obtain ⟨others, enteredBooked, enteredPunctual⟩ := taken dequeued
      rw [Simulation.leaveEvent_of_idle enteredPunctual.idle left]
      exact unmoved (enteredBooked.of_same rfl rfl rfl rfl rfl)
        (enteredPunctual.of_same rfl rfl rfl (Inbox.drain_idle enteredPunctual.idle).2)
  | fired key work simulation here dequeued =>
      obtain ⟨others, kept, still⟩ := taken dequeued
      exact ⟨others, kept.told fun _ gives => (nomatch gives), still⟩
  | halted key simulation here dequeued =>
      obtain ⟨others, kept, still⟩ := taken dequeued
      have stopped : simulation.stop.Booked entities others (Given history) :=
        kept.of_same rfl rfl rfl rfl rfl
      exact ⟨others, stopped.told fun _ gives => (nomatch gives),
        still.of_same rfl rfl rfl still.idle⟩
  | finished below simulation here done =>
      rw [Simulation.finishEvent_of_idle punctual.idle done]
      exact unmoved (booked.of_same rfl rfl rfl rfl rfl)
        (punctual.of_same rfl rfl rfl (Inbox.drain_idle punctual.idle).2)
  | destroying handle work destroyEvents next below here first =>
      have kept : Simulation.Booked { machine.simulation with destroyEvents } entities keys
          (Given history) := booked.of_same rfl rfl rfl rfl rfl
      exact ⟨keys, kept.told fun _ gives => (nomatch gives),
        punctual.of_same rfl rfl rfl punctual.idle⟩

private theorem KeepsToOwners.punctual
    (begins : start.simulation.Booked entities [] (Given ([] : List (Signal σ β))))
    (punctual : start.simulation.Punctual []) (regular : start.simulation.Regular)
    (kept : KeepsToOwners body start history machine) :
    machine.simulation.Regular ∧ ∃ keys,
      machine.simulation.Booked entities keys (Given history) ∧
        machine.simulation.Punctual keys := by
  refine kept.keeps (motive := fun history machine => machine.simulation.Regular ∧ ∃ keys,
    machine.simulation.Booked entities keys (Given history) ∧ machine.simulation.Punctual keys)
    ⟨regular, [], begins, punctual⟩ ?_
  rintro history signals machine after _ ⟨lawful, own⟩ stepped ⟨regular, keys, booked, still⟩
  have one := step_eq_ok stepped
  exact ⟨regular.onward one.onward, one.punctual lawful own booked still⟩

/-- If a program schedules against the clocks of the owners only, then in every state that it
reaches all events come after the clocks of their owners, each event that is taken moves the
clock of its owner on, and whatever has not run can be withdrawn. -/
theorem own_clocks_run_on_time (configuration : Configuration) (hook : σ)
    (valid : configuration.validate = .ok (.ok ())) (memory : μ) (script : Script σ β μ)
    (body : β → Script σ β μ) :
    ∃ simulation : Simulation σ β, Simulation.new configuration hook = .ok (.ok simulation) ∧
      ∀ history machine, KeepsToOwners body (.start simulation memory script) history machine →
        machine.simulation.RunsOnTime (Given history) := by
  obtain ⟨simulation, started, booked⟩ := Simulation.booked_of_new (β := β) hook valid
  refine ⟨simulation, started, fun history machine kept => ?_⟩
  have regular := Simulation.regular_of_new started
  obtain ⟨queue, _, rfl⟩ := Simulation.ofQueue_of_new started
  obtain ⟨reachedRegular, keys, reachedBooked, punctual⟩ :=
    kept.punctual booked (.of_ofQueue queue) regular
  exact punctual.runsOnTime reachedBooked reachedRegular

def planningForAnother : Script Exploration.Silent Bool Unit :=
  .perform (.schedule (.within (.node ⟨0⟩) 10) false) fun _ =>
    .perform (.schedule (.within (.node ⟨1⟩) 20) true) fun _ => .run fun _ => .done

def planningBehind : Bool → Script Exploration.Silent Bool Unit
  | true => .perform (.schedule (.within (.node ⟨0⟩) 1) false) fun _ => .done
  | false => .done

/-- What an event plans for another entity may lie before the event itself, and still comes
after the clock of its owner. -/
theorem own_clocks_run_on_time_behind :
    ∃ simulation history machine,
      Simulation.new Queue.LaneQueue.waitingConfiguration Exploration.Silent.silent =
        .ok (.ok simulation) ∧
      KeepsToOwners planningBehind (.start simulation () planningForAnother) history machine ∧
      machine.simulation.now = .ok ⟨20⟩ ∧
      machine.simulation.queue.layout.events.map Event.key = [⟨⟨11⟩, ⟨6⟩, .node ⟨0⟩⟩] ∧
      machine.simulation.RunsOnTime (Given history) := by
  obtain ⟨simulation, started, onTime⟩ :=
    own_clocks_run_on_time Queue.LaneQueue.waitingConfiguration Exploration.Silent.silent rfl ()
      planningForAnother planningBehind
  have reached : ∃ history machine,
      KeepsToOwners planningBehind (.start simulation () planningForAnother) history machine ∧
      machine.simulation.now = .ok ⟨20⟩ ∧
      machine.simulation.queue.layout.events.map Event.key = [⟨⟨11⟩, ⟨6⟩, .node ⟨0⟩⟩] := by
    cases started
    refine ⟨_, _, .of_steps 8 rfl fun fewer below past before taken => ⟨?_, ?_⟩, rfl, rfl⟩
    all_goals
      intro reply request next under here
      interval_cases fewer <;> cases taken <;> cases here
    all_goals trivial
  obtain ⟨history, machine, kept, now, keys⟩ := reached
  exact ⟨simulation, history, machine, started, kept, now, keys, onTime history machine kept⟩

end Machine

end EventKernel
