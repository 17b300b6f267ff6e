import EventKernel.Proofs.MirroredSimulations

set_option autoImplicit false

/-! Two executions of one program step by step. The one that keeps cancelled events has the
turn of such an event for itself; every other step has its counterpart, and invokes the same
callback in the same bearings or none. -/

namespace EventKernel

open Queue (EventQueue)
open Exploration (Hook)
open Simulation (Mirrored)

variable {σ β μ : Type}

namespace Machine

/-- A program that does not look at the queue, between two steps. While a run takes events,
nothing waits to be merged. -/
structure Orderly (machine : Machine σ β μ) (entities : Nat) : Prop where
  clocks : machine.simulation.localClocks.length = entities
  blind : ∀ frame ∈ machine.frames, frame.Blind
  nested : Frame.Nested machine.frames
  idle : ∀ top ∈ machine.frames.head?, top.isRunning = true → machine.simulation.inbox = .empty

section

variable [Hook σ] {body : β → Script σ β μ} {machine after : Machine σ β μ}
  {history signals : List (Signal σ β)} {entities : Nat}

omit [Hook σ] in
private theorem Shifts.blind {frames later : List (Frame σ β μ)} (shifts : Shifts frames later)
    (blind : ∀ frame ∈ frames, frame.Blind) : ∀ frame ∈ later, frame.Blind := by
  cases shifts with
  | halted => exact blind
  | ended below => exact (List.forall_mem_cons.mp blind).2
  | recalled next memory below =>
      obtain ⟨here, rest⟩ := List.forall_mem_cons.mp blind
      exact List.forall_mem_cons.mpr ⟨here memory, rest⟩
  | remembered | destroys | destroyed =>
      obtain ⟨here, rest⟩ := List.forall_mem_cons.mp blind
      exact List.forall_mem_cons.mpr ⟨here, rest⟩

private theorem Stepped.blind (stepped : Stepped body machine signals after)
    (bodies : ∀ work, (body work).Blind) (blind : ∀ frame ∈ machine.frames, frame.Blind) :
    ∀ frame ∈ after.frames, frame.Blind := by
  cases stepped with
  | moved memory frames shifts => exact shifts.blind blind
  | ran result frames before next below here followed =>
      rw [here] at blind
      obtain ⟨top, rest⟩ := List.forall_mem_cons.mp blind
      simp only [followed]
      exact List.forall_mem_cons.mpr ⟨top.2 result, rest⟩
  | performed request next below value simulation here =>
      rw [here] at blind
      obtain ⟨top, rest⟩ := List.forall_mem_cons.mp blind
      exact List.forall_mem_cons.mpr ⟨top.2 value, rest⟩
  | begun next below simulation here =>
      rw [here] at blind
      obtain ⟨top, rest⟩ := List.forall_mem_cons.mp blind
      exact List.forall_mem_cons.mpr ⟨top, rest⟩
  | starved | skipped => exact blind
  | fired key work simulation here =>
      exact List.forall_mem_cons.mpr ⟨bodies work, List.forall_mem_cons.mpr ⟨trivial, blind⟩⟩
  | halted key simulation here => exact List.forall_mem_cons.mpr ⟨trivial, blind⟩
  | finished below simulation here =>
      rw [here] at blind
      exact (List.forall_mem_cons.mp blind).2
  | destroying handle work destroyEvents next below here =>
      rw [here] at blind
      exact List.forall_mem_cons.mpr ⟨bodies work, blind⟩

theorem Stepped.orderly (stepped : Stepped body machine signals after)
    (lawful : machine.AsksLawfully history) (bodies : ∀ work, (body work).Blind)
    {keys : List EventKey}
    (booked : machine.simulation.Booked entities keys (Given history))
    (hinted : machine.simulation.inbox.Hinted) (orderly : machine.Orderly entities) :
    after.Orderly entities := by
  obtain ⟨others, afterBooked⟩ := stepped.booked lawful booked
  refine ⟨afterBooked.clocks, stepped.blind bodies orderly.blind, stepped.nested orderly.nested,
    fun top first runs => stepped.idle orderly.nested hinted (fun running => ?_)
      (isRunning_iff.mpr ⟨top, first, runs⟩)⟩
  obtain ⟨upper, here, takes⟩ := isRunning_iff.mp running
  exact orderly.idle upper here takes

end

/-- The two machines stand at the same place of the program, and their simulations differ in
cancelled events only, once what these have done to the bearings is undone. -/
structure Abreast (entities : Nat) (history : List (Signal σ β)) (bearings : Bearings)
    (keeping removing : Machine σ β μ) : Prop where
  mirrored : Mirrored entities (Given history)
    (keeping.simulation.restored bearings) removing.simulation
  memory : removing.memory = keeping.memory
  frames : removing.frames = keeping.frames

/-- Two steps that lead on side by side and show the same invocations. -/
def Counterparts (entities : Nat) (history : List (Signal σ β)) (bearings : Bearings)
    (machine : Machine σ β μ) (first second : List (Signal σ β) × Machine σ β μ) : Prop :=
  Abreast entities (history ++ first.1) (machine.carry first.1 bearings) first.2 second.2 ∧
    first.1.filterMap (Signal.invocation? first.2.simulation) =
      second.1.filterMap (Signal.invocation? second.2.simulation)

namespace Abreast

variable [Hook σ] {body : β → Script σ β μ} {keeping removing : Machine σ β μ}
  {history : List (Signal σ β)} {bearings : Bearings} {entities : Nat}
  {below : List (Frame σ β μ)}

private theorem script (abreast : Abreast entities history bearings keeping removing)
    {rest : Script σ β μ} (here : keeping.frames = .script rest :: below) (blind : rest.Blind)
    (lawful : keeping.AsksLawfully history) (steady : keeping.Steady bearings) :
    Alike (Counterparts entities history bearings keeping) (keeping.step body)
      (removing.step body) := by
  obtain ⟨simulation, memory, frames⟩ := keeping
  obtain ⟨other, otherMemory, otherFrames⟩ := removing
  obtain ⟨mirrored, rfl, rfl⟩ := abreast
  cases here
  have unheard : Mirrored entities (Given (history ++ []))
      (simulation.restored bearings) other := (List.append_nil history).symm ▸ mirrored
  match rest, blind, lawful, steady with
  | .done, _, _, _ => exact ⟨⟨unheard, rfl, rfl⟩, rfl⟩
  | .fail fault, _, _, _ => exact rfl
  | .recall next, _, _, _ => exact ⟨⟨unheard, rfl, rfl⟩, rfl⟩
  | .remember memory next, _, _, _ => exact ⟨⟨unheard, rfl, rfl⟩, rfl⟩
  | .destroy next, _, _, _ => exact ⟨⟨unheard, rfl, rfl⟩, rfl⟩
  | .perform request next, blind, lawful, steady =>
      have asked := lawful _ request next below rfl
      have answers := Mirrored.coupling.answer mirrored blind.1 asked
      change request.answer (simulation.restored bearings) = _ at steady
      rw [steady] at answers
      refine answers.of_map.bind ?_
      rintro ⟨value, after⟩ ⟨_, last⟩ _ _ ⟨rfl, kept⟩
      exact ⟨⟨kept, rfl, rfl⟩, rfl⟩
  | .run next, _, _, steady =>
      have begins := Mirrored.coupling.beginRun mirrored
      have processed := Mirrored.coupling.processed_eq mirrored
      change (simulation.restored bearings).beginRun = _ at steady
      rw [steady] at begins
      refine begins.of_map.bind ?_
      rintro after last _ _ kept
      refine ⟨⟨(List.append_nil history).symm ▸ kept, rfl, ?_⟩, rfl⟩
      exact congrArg (Frame.running · next :: below) processed

private theorem firing (abreast : Abreast entities history bearings keeping removing)
    (here : keeping.frames = .firing :: below) (steady : keeping.Steady bearings) :
    Alike (Counterparts entities history bearings keeping) (keeping.step body)
      (removing.step body) := by
  obtain ⟨simulation, memory, frames⟩ := keeping
  obtain ⟨other, otherMemory, otherFrames⟩ := removing
  obtain ⟨mirrored, rfl, rfl⟩ := abreast
  cases here
  have finishes := Mirrored.coupling.finishEvent mirrored
  change (simulation.restored bearings).finishEvent = _ at steady
  rw [steady] at finishes
  refine finishes.of_map.bind ?_
  rintro after last _ _ kept
  exact ⟨⟨(List.append_nil history).symm ▸ kept, rfl, rfl⟩, rfl⟩

private theorem destroying (abreast : Abreast entities history bearings keeping removing)
    {next : Script σ β μ} (here : keeping.frames = .destroying next :: below)
    (steady : keeping.Steady bearings) :
    Alike (Counterparts entities history bearings keeping) (keeping.step body)
      (removing.step body) := by
  obtain ⟨simulation, memory, frames⟩ := keeping
  obtain ⟨other, otherMemory, otherFrames⟩ := removing
  obtain ⟨⟨keys, dead, mirrors⟩, rfl, rfl⟩ := abreast
  cases here
  change Simulation.Mirrors _ _ _ _ (simulation.restored bearings) other at mirrors
  obtain ⟨queue, slots, unscheduled, rfl⟩ := mirrors.elsewhere
  cases events : simulation.destroyEvents with
  | nil =>
      rw [step_destroyed rfl events, step_destroyed rfl events]
      exact ⟨⟨⟨keys, dead, (List.append_nil history).symm ▸ mirrors⟩, rfl, rfl⟩, rfl⟩
  | cons first destroyEvents =>
      obtain ⟨handle, work⟩ := first
      rw [step_destroying rfl events, step_destroying rfl events]
      have same := steady (by rw [events]; exact List.cons_ne_nil _ _)
      have kept : Mirrored entities (Given history)
          ({ simulation with destroyEvents }.restored bearings) _ :=
        ⟨keys, dead, mirrors.changed rfl rfl rfl rfl rfl mirrors.hinted⟩
      refine ⟨⟨Mirrored.coupling.told kept fun _ gives => (nomatch gives), rfl, rfl⟩, ?_⟩
      have alike : [Invocation.mk (.user work) simulation.context simulation.now] =
          [Invocation.mk (.user work) (simulation.restored bearings).context
            (simulation.restored bearings).now] := by
        rw [same.1, same.2]
      exact alike

private theorem ends (abreast : Abreast entities history bearings keeping removing) {before : Nat}
    {next : Except BranchEnded RunSummary → Script σ β μ}
    (here : keeping.frames = .running before next :: below)
    (constant : ∀ first second, next first = next second)
    (booked : ∃ keys, keeping.simulation.Booked entities keys (Given history))
    (stays : keeping.simulation.goesOn = false) (otherStays : removing.simulation.goesOn = false) :
    Alike (Counterparts entities history bearings keeping) (keeping.step body)
      (removing.step body) := by
  obtain ⟨simulation, memory, frames⟩ := keeping
  obtain ⟨other, otherMemory, otherFrames⟩ := removing
  obtain ⟨mirrored, rfl, rfl⟩ := abreast
  cases here
  obtain ⟨held, keeps⟩ := booked
  obtain ⟨result, ended⟩ := keeps.exists_endRun before
  obtain ⟨keys, dead, mirrors⟩ := mirrored
  obtain ⟨otherResult, otherEnded⟩ := mirrors.removes.exists_endRun before
  rw [step_ran rfl stays ended, step_ran rfl otherStays otherEnded]
  have kept : Mirrored entities (Given history) (simulation.restored bearings) other :=
    ⟨keys, dead, mirrors⟩
  refine ⟨⟨Mirrored.coupling.told kept fun _ gives => (nomatch gives), rfl, ?_⟩, rfl⟩
  exact congrArg (Frame.script · :: below) (constant otherResult result)

/-- Both runs take the same event. -/
theorem fires (abreast : Abreast entities history bearings keeping removing) {before : Nat}
    {next : Except BranchEnded RunSummary → Script σ β μ}
    (here : keeping.frames = .running before next :: below) {key : EventKey}
    {callback : Callback β} {entered otherEntered : Simulation σ β}
    (goes : keeping.simulation.goesOn = true) (otherGoes : removing.simulation.goesOn = true)
    (taken : keeping.simulation.dequeue = .ok (.invoke key callback, entered))
    (otherTaken : removing.simulation.dequeue = .ok (.invoke key callback, otherEntered))
    (mirrored : Mirrored entities (Given history)
      (entered.restored (bearings.enter key)) otherEntered) :
    Alike (Counterparts entities history bearings keeping) (keeping.step body)
      (removing.step body) := by
  obtain ⟨simulation, memory, frames⟩ := keeping
  obtain ⟨other, otherMemory, otherFrames⟩ := removing
  obtain ⟨_, rfl, rfl⟩ := abreast
  cases here
  obtain ⟨context, now⟩ := (Simulation.dequeue_eq_ok taken).begins
  obtain ⟨otherContext, otherNow⟩ := (Simulation.dequeue_eq_ok otherTaken).begins
  have alike : [Invocation.mk callback entered.context entered.now] =
      [Invocation.mk callback otherEntered.context otherEntered.now] := by
    rw [context, now, otherContext, otherNow]
  cases callback with
  | user work =>
      rw [step_fired rfl goes taken, step_fired rfl otherGoes otherTaken]
      exact ⟨⟨Mirrored.coupling.told mirrored fun _ gives => (nomatch gives), rfl, rfl⟩, alike⟩
  | stop =>
      rw [step_halted rfl goes taken, step_halted rfl otherGoes otherTaken]
      obtain ⟨keys, dead, mirrors⟩ := mirrored
      obtain ⟨queue, slots, unscheduled, rfl⟩ := mirrors.elsewhere
      have stopped : Mirrored entities (Given history)
          (entered.stop.restored (bearings.enter key)) _ :=
        ⟨keys, dead, mirrors.changed rfl rfl rfl rfl rfl mirrors.hinted⟩
      exact ⟨⟨Mirrored.coupling.told stopped fun _ gives => (nomatch gives), rfl, rfl⟩, alike⟩

/-- The run takes its next event. A cancelled one is passed over where it was kept, while the
other machine waits; any other is taken by both. -/
theorem running (abreast : Abreast entities history bearings keeping removing) {before : Nat}
    {next : Except BranchEnded RunSummary → Script σ β μ}
    (here : keeping.frames = .running before next :: below)
    (orderly : keeping.Orderly entities) :
    (∃ after, keeping.step body = .ok ([], after) ∧
      Abreast entities history bearings after removing ∧
      after.simulation.queue.size < keeping.simulation.queue.size) ∨
    Alike (Counterparts entities history bearings keeping) (keeping.step body)
      (removing.step body) := by
  have constant : ∀ first second, next first = next second :=
    (orderly.blind (.running before next) (by rw [here]; exact List.mem_cons_self)).1
  have together := abreast
  obtain ⟨simulation, memory, frames⟩ := keeping
  obtain ⟨other, otherMemory, otherFrames⟩ := removing
  obtain ⟨⟨keys, dead, mirrors⟩, rfl, rfl⟩ := abreast
  cases here
  change Simulation.Mirrors _ _ _ _ (simulation.restored bearings) other at mirrors
  have keeps : ((simulation.restored bearings).restored simulation.bearings).Booked entities
      (keys ++ dead) (Given history) := mirrors.keeps.turned orderly.clocks
  change simulation.Booked entities (keys ++ dead) (Given history) at keeps
  have requested : other.stopRequested = simulation.stopRequested := by
    obtain ⟨queue, slots, unscheduled, rfl⟩ := mirrors.elsewhere
    rfl
  cases goes : simulation.goesOn with
  | false =>
      right
      refine together.ends rfl constant ⟨_, keeps⟩ goes ?_
      cases otherGoes : other.goesOn with
      | false => rfl
      | true =>
          obtain ⟨running, some_⟩ := mirrors.removes.goesOn_iff.mp otherGoes
          rw [keeps.goesOn_iff.mpr ⟨requested ▸ running,
            fun nothing => some_ (List.append_eq_nil_iff.mp nothing).1⟩] at goes
          cases goes
  | true =>
      obtain ⟨running, some_⟩ := keeps.goesOn_iff.mp goes
      obtain ⟨key, member, least⟩ := keeps.holds.exists_least some_
      rcases List.mem_append.mp member with live | cancelled
      · right
        obtain ⟨callback, inKept, inRemoved⟩ := mirrors.armed key live
        obtain ⟨kept, keptCount, keptPlain, keptBooked, taken⟩ :=
          keeps.dequeue_least mirrors.keepingPlain member least inKept
        obtain ⟨left, leftCount, leftPlain, leftBooked, otherTaken⟩ :=
          mirrors.removes.dequeue_least mirrors.removingPlain live
            (fun rival present => least rival (List.mem_append_left dead present)) inRemoved
        have otherGoes := mirrors.removes.goesOn_iff.mpr
          ⟨requested.trans running, List.ne_nil_of_mem live⟩
        have dropped := mirrors.drop live keptPlain leftPlain
          (keptBooked.turned mirrors.keeps.clocks) leftBooked
        have entered := dropped.turned ((bearings.enter_length key).trans mirrors.keeps.clocks)
        have same : other.bearings = bearings := by
          obtain ⟨queue, slots, unscheduled, rfl⟩ := mirrors.elsewhere
          rfl
        rw [same] at otherTaken
        exact together.fires rfl goes otherGoes taken otherTaken ⟨_, _, entered⟩
      · left
        obtain ⟨kept, keptCount, keptPlain, keptBooked, taken⟩ :=
          keeps.dequeue_least mirrors.keepingPlain member least (mirrors.cancelled key cancelled)
        have idle : simulation.inbox = .empty := orderly.idle (.running before next) rfl rfl
        have left := mirrors.skip cancelled keptPlain (keptBooked.turned mirrors.keeps.clocks)
        refine ⟨_, step_skipped rfl goes taken (Simulation.leaveEvent_idle idle),
          ⟨⟨_, _, left⟩, rfl, rfl⟩, ?_⟩
        change (simulation.without key kept keptCount).queue.size < simulation.queue.size
        rw [keptBooked.holds.size_eq, keeps.holds.size_eq, List.length_erase_of_mem member]
        exact Nat.sub_lt (List.length_pos_of_mem member) Nat.one_pos

/-- One step of the machine that keeps cancelled events. -/
theorem step (abreast : Abreast entities history bearings keeping removing)
    (orderly : keeping.Orderly entities) (lawful : keeping.AsksLawfully history)
    (steady : keeping.Steady bearings) :
    (∃ after, keeping.step body = .ok ([], after) ∧ keeping.IsRunning ∧
      Abreast entities history bearings after removing ∧
      after.simulation.queue.size < keeping.simulation.queue.size) ∨
    Alike (Counterparts entities history bearings keeping) (keeping.step body)
      (removing.step body) := by
  cases here : keeping.frames with
  | nil =>
      right
      obtain ⟨simulation, memory, frames⟩ := keeping
      obtain ⟨other, otherMemory, otherFrames⟩ := removing
      obtain ⟨mirrored, rfl, rfl⟩ := abreast
      cases here
      exact ⟨⟨(List.append_nil history).symm ▸ mirrored, rfl, rfl⟩, rfl⟩
  | cons top below =>
      have blind := orderly.blind top (by rw [here]; exact List.mem_cons_self)
      cases top with
      | script rest => exact Or.inr (abreast.script here blind lawful steady)
      | firing => exact Or.inr (abreast.firing here steady)
      | destroying next => exact Or.inr (abreast.destroying here steady)
      | running before next =>
          rcases abreast.running here orderly with ⟨after, stepped, waits⟩ | both
          · exact Or.inl ⟨after, stepped, ⟨before, next, below, here⟩, waits⟩
          · exact Or.inr both

omit [Hook σ] in
theorem booked (abreast : Abreast entities history bearings keeping removing)
    (orderly : keeping.Orderly entities) :
    ∃ keys, keeping.simulation.Booked entities keys (Given history) := by
  obtain ⟨keys, dead, mirrors⟩ := abreast.mirrored
  have keeps : ((keeping.simulation.restored bearings).restored
      keeping.simulation.bearings).Booked entities (keys ++ dead) (Given history) :=
    mirrors.keeps.turned orderly.clocks
  exact ⟨keys ++ dead, keeps⟩

omit [Hook σ] in
theorem hinted (abreast : Abreast entities history bearings keeping removing) :
    keeping.simulation.inbox.Hinted := by
  obtain ⟨keys, dead, mirrors⟩ := abreast.mirrored
  exact mirrors.hinted

end Abreast

end Machine

end EventKernel
