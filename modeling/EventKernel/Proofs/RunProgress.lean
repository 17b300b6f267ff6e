import EventKernel.Proofs.SimulationProgress

set_option autoImplicit false

/-! Runs that go on. Between two events of a run it is enough to know the events that are held,
the instants of the entities and the next serial number; from these follows what the next
event does, and the run is again between two events when it has done so. -/

namespace EventKernel.Machine

open Queue (Configuration LaneQueue LatencyMatrix)
open Exploration (Hook)

variable {σ β μ : Type} [Hook σ] {body : β → Script σ β μ} {start machine : Machine σ β μ}
  {simulation : Simulation σ β} {latency : LatencyMatrix} {history : List (Signal σ β)}

section

variable {reply : Reply} {request : Request σ β reply} {value : reply.Value}
  {next : reply.Value → Script σ β μ} {below : List (Frame σ β μ)}

private theorem Prepared.performs (prepared : Prepared body start history machine)
    (here : machine.frames = .script (.perform request next) :: below)
    (allowed : request.Prepares history)
    (answered : request.answer machine.simulation = .ok (value, simulation)) :
    Prepared body start (history ++ [.answered request value])
      { machine with simulation, frames := .script (next value) :: below } :=
  prepared.step ⟨_, _, here, allowed⟩ (step_performed here answered)

private theorem Underway.step (underway : Underway latency body start history machine)
    {signals : List (Signal σ β)} {after : Machine σ β μ}
    (keeps : ∀ rest below, machine.frames = .script rest :: below →
      rest.Keeps (Request.Follows latency machine.simulation.context history))
    (stepped : machine.step body = .ok (signals, after)) :
    Underway latency body start (history ++ signals) after := by
  obtain ⟨past, ready, below, early, first, prepared, begun, leads⟩ := underway
  exact ⟨past, ready, below, early, first, prepared, begun, leads.step keeps stepped⟩

private theorem Underway.performs (underway : Underway latency body start history machine)
    (here : machine.frames = .script (.perform request next) :: below)
    (allowed : request.Follows latency machine.simulation.context history)
    (answered : request.answer machine.simulation = .ok (value, simulation)) :
    Underway latency body start (history ++ [.answered request value])
      { machine with simulation, frames := .script (next value) :: below } := by
  apply underway.step _ (step_performed here answered)
  intro rest others atHead
  rw [here] at atHead
  cases atHead
  exact allowed

end

private theorem Underway.finishes (underway : Underway latency body start history machine)
    {below : List (Frame σ β μ)} (here : machine.frames = .script .done :: .firing :: below)
    (done : machine.simulation.finishEvent = .ok simulation) :
    ∃ history, Underway latency body start history
      { machine with simulation, frames := below } := by
  have ended : machine.step body = .ok ([], { machine with frames := .firing :: below }) :=
    step_script here
  have left : Machine.step body { machine with frames := .firing :: below } =
      .ok ([], { machine with simulation, frames := below }) := step_finished rfl done
  have popped : Underway latency body start (history ++ [])
      { machine with frames := .firing :: below } := by
    apply underway.step _ ended
    intro rest others atHead
    rw [here] at atHead
    cases atHead
    exact trivial
  refine ⟨_, popped.step ?_ left⟩
  intro rest others impossible
  cases impossible

/-- A program that is about to run, with what it still does before. -/
structure Preparing (configuration : Configuration) (body : β → Script σ β μ)
    (start machine : Machine σ β μ) (rest : Script σ β μ) (lanes : LaneQueue)
    (planned : List (Event × β)) (number : Nat) : Prop where
  prepared : ∃ history, Prepared body start history machine
  here : machine.frames = [.script rest]
  holds : machine.simulation.Holds configuration lanes planned
  start : machine.simulation.time = fun _ => 0
  number : machine.simulation.nextUid.value.toNat = number

structure Pausing (configuration : Configuration) (body : β → Script σ β μ)
    (start machine : Machine σ β μ) (lanes : LaneQueue) (planned : List (Event × β))
    (times : Nat → Nat) (number : Nat) : Prop where
  underway : ∃ history, Underway configuration.latency body start history machine
  running : machine.IsRunning
  holds : machine.simulation.Holds configuration lanes planned
  times : machine.simulation.time = times
  number : machine.simulation.nextUid.value.toNat = number

variable {configuration : Configuration} {lanes rest : LaneQueue} {event : Event} {work : β}
  {planned others : List (Event × β)} {times : Nat → Nat} {number : Nat} {owner : NodeId}

theorem Preparing.schedules {delay : UInt64} {next : Handle → Script σ β μ}
    (preparing : Preparing configuration body start machine
      (.perform (.schedule (.within (.node owner) delay) work) next) lanes planned number)
    (known : owner.index < configuration.entities) (room : number + 1 < UInt64.size) :
    ∃ handle after grown uid, uid.value.toNat = number ∧
      Preparing configuration body start after (next handle) grown
        ((⟨⟨⟨delay⟩, uid, .node owner⟩, .undefined, .node owner, none⟩, work) :: planned)
        (number + 1) := by
  obtain ⟨history, prepared⟩ := preparing.prepared
  have sum : (Timestamp.mk delay).value.toNat =
      machine.simulation.time owner.index + delay.toNat := by
    rw [preparing.start, Nat.zero_add]
  obtain ⟨handle, simulation, grown, scheduled, holds, numbered⟩ := preparing.holds.schedule
    known known sum (preparing.number.symm ▸ room) .undefined none work
  refine ⟨handle, _, grown, machine.simulation.nextUid, preparing.number,
    ⟨_, prepared.performs preparing.here trivial scheduled⟩, rfl, holds, ?_, ?_⟩
  · rw [Simulation.time_congr (Simulation.schedule_clocks scheduled).1]
    exact preparing.start
  · rw [numbered, preparing.number]

theorem Preparing.runs {next : Except BranchEnded RunSummary → Script σ β μ}
    (preparing : Preparing configuration body start machine (.run next) lanes planned number) :
    ∃ after, Pausing configuration body start after lanes planned (fun _ => 0) number := by
  obtain ⟨history, prepared⟩ := preparing.prepared
  obtain ⟨simulation, began, holds, times, uid⟩ := preparing.holds.beginRun
  have stepped : machine.step body = .ok ([], { machine with
      simulation, frames := [.running machine.simulation.processed next] }) :=
    step_begun preparing.here began
  refine ⟨_, ⟨_, _, _, _, _, _, prepared, ⟨⟨_, preparing.here⟩, stepped⟩, .start⟩, ⟨_, _, _, rfl⟩, holds,
    times.trans preparing.start, ?_⟩
  rw [uid]
  exact preparing.number

namespace Pausing

theorem perm (pausing : Pausing configuration body start machine lanes planned times number)
    (same : planned.Perm others) :
    Pausing configuration body start machine lanes others times number :=
  { pausing with holds := pausing.holds.perm same }

def advanced (times : Nat → Nat) (owner : NodeId) (key : EventKey) (entity : Nat) : Nat :=
  if owner.index = entity then key.ts.value.toNat else times entity

theorem advanced_self (times : Nat → Nat) (owner : NodeId) (key : EventKey) :
    advanced times owner key owner.index = key.ts.value.toNat :=
  if_pos rfl

theorem advanced_other (times : Nat → Nat) {owner : NodeId} {entity : Nat}
    (apart : owner.index ≠ entity) (key : EventKey) :
    advanced times owner key entity = times entity :=
  if_neg apart

section

variable (pausing : Pausing configuration body start machine lanes ((event, work) :: others)
    times number)
  (yields : lanes.Yields configuration.entities event.key (others.map Prod.fst) rest)
  (owned : event.key.context = .node owner)

include pausing yields owned

theorem fires : ∃ entered, machine.step body = .ok ([.fired event.key (.user work)],
      { machine with
        simulation := entered
        frames := .script (body work) :: .firing :: machine.frames }) ∧
    (∃ history, Underway configuration.latency body start history { machine with
      simulation := entered
      frames := .script (body work) :: .firing :: machine.frames }) ∧
    entered.Holds configuration rest others ∧ entered.context = .node owner ∧
    entered.time = advanced times owner event.key ∧
    entered.nextUid.value.toNat = number := by
  obtain ⟨history, underway⟩ := pausing.underway
  obtain ⟨before, next, below, here⟩ := pausing.running
  obtain ⟨entered, taken, holds, context, numbered, moved⟩ :=
    pausing.holds.dequeue yields owned
  have stepped : machine.step body = _ := step_fired here
    (pausing.holds.goesOn (List.cons_ne_nil _ _)) taken
  refine ⟨entered, stepped, ⟨_, underway.step ?_ stepped⟩, holds, context, ?_, ?_⟩
  · intro rest others impossible
    rw [here] at impossible
    cases impossible
  · funext entity
    rw [moved, ← pausing.times]
    rfl
  · rw [numbered]
    exact pausing.number

theorem passes (nothing : body work = .done) :
    ∃ after, Pausing configuration body start after rest others
      (advanced times owner event.key) number := by
  obtain ⟨entered, _, ⟨history, underway⟩, holds, _, moved, numbered⟩ :=
    pausing.fires yields owned
  rw [nothing] at underway
  obtain ⟨left, done, leftHolds, times, uid⟩ := holds.finishEvent
  refine ⟨_, underway.finishes rfl done, pausing.running, leftHolds, times.trans moved, ?_⟩
  rw [uid]
  exact numbered

theorem sends {dest : NodeId} {delay : UInt64} {onward : β} {ts : Timestamp}
    (sending : body work =
      .perform (.schedule (.message (.node owner) (.node dest) delay none) onward) fun _ => .done)
    (destKnown : dest.index < configuration.entities)
    (far : configuration.latency.between owner.index dest.index ≤ delay.toNat)
    (sum : ts.value.toNat = event.key.ts.value.toNat + delay.toNat)
    (room : number + 1 < UInt64.size) :
    ∃ after grown uid, uid.value.toNat = number ∧
      Pausing configuration body start after grown
        ((⟨⟨ts, uid, .node dest⟩, .outgoing, .node owner, none⟩, onward) :: others)
        (advanced times owner event.key) (number + 1) := by
  obtain ⟨entered, _, ⟨history, underway⟩, holds, context, moved, numbered⟩ :=
    pausing.fires yields owned
  have ownerKnown : owner.index < configuration.entities := by
    have member := pausing.holds.events.mem_iff.mpr List.mem_cons_self
    have known := (pausing.holds.sound.addressed event member).1
    rw [owned] at known
    exact known
  have here : entered.time owner.index = event.key.ts.value.toNat := by
    rw [moved]
    exact if_pos rfl
  rw [← here] at sum
  obtain ⟨handle, sent, grown, scheduled, sentHolds, next⟩ :=
    holds.schedule ownerKnown destKnown sum (numbered.symm ▸ room) .outgoing none onward
  rw [sending] at underway
  have asked := underway.performs rfl ⟨context, far⟩ scheduled
  obtain ⟨left, done, leftHolds, times, uid⟩ := sentHolds.finishEvent
  refine ⟨_, grown, entered.nextUid, numbered, asked.finishes rfl done, pausing.running,
    leftHolds, ?_, ?_⟩
  · rw [times, Simulation.time_congr (Simulation.schedule_clocks scheduled).1]
    exact moved
  · rw [uid, next, numbered]

end

end Pausing

end EventKernel.Machine
