import EventKernel.Proofs.ResumedPrograms

set_option autoImplicit false

/-! Where a stopped run ends, in programs whose callbacks do not run the simulation. The flag is
down whenever an event is taken, so it is the callback of the last event that has asked for the
stop. Nothing happens between the end of that event and the end of the run: what is queued stays
queued, with its callback. -/

namespace EventKernel

open Exploration (Hook)

variable {σ β μ : Type}

/-- What becomes visible while one event executes: no other begins, and no run ends. -/
def Signal.Inner : Signal σ β → Prop
  | .fired _ _ => False
  | .ran _ => False
  | _ => True

namespace Simulation

/-- What is queued stays queued, with its callback or the mark that it was cancelled. -/
def Retains (simulation after : Simulation σ β) : Prop :=
  ∀ event ∈ simulation.queue.layout.events, event ∈ after.queue.layout.events ∧
    after.slots.find? event.key.uid = simulation.slots.find? event.key.uid

private theorem Retains.trans {first second third : Simulation σ β} (former : first.Retains second)
    (latter : second.Retains third) : first.Retains third := by
  intro event queued
  obtain ⟨still, same⟩ := former event queued
  obtain ⟨later, kept⟩ := latter event still
  exact ⟨later, kept.trans same⟩

namespace Booked

variable [Hook σ] {simulation after : Simulation σ β} {entities : Nat} {keys : List EventKey}
  {given : Handle → Prop}

private theorem enqueued_retains (booked : simulation.Booked entities keys given) {event : Event}
    {callback : Callback β} {handle : Handle} {nextUid : EventUid}
    (owner : event.key.context.Known entities) (cause : event.prevContext.Known entities)
    (numbered : event.key.uid = simulation.nextUid)
    (enqueued : Enqueued { simulation with nextUid } event callback handle after) :
    simulation.Retains after := by
  intro other queued
  cases enqueued with
  | queued queue key inserted =>
      obtain ⟨ts, layout, _, same, placed, rfl⟩ := Queue.EventQueue.insert_accepted inserted
      obtain ⟨_, made, _, grown, _⟩ := booked.holds.place { event with key } (same ▸ owner) cause
        (by rw [same]; exact numbered ▸ booked.fresh)
      cases made.symm.trans placed
      refine ⟨grown.mem_iff.mpr (List.mem_cons_of_mem _ queued), ?_⟩
      refine (Slots.find?_insert _ _ _ _).trans (if_neg fun tied => ?_)
      have listed := booked.holds.listed.mem_iff.mp (List.mem_map_of_mem queued)
      apply booked.fresh
      rw [← numbered, ← tied]
      exact List.mem_map_of_mem listed
  | refused queue ended inserted =>
      obtain ⟨⟨prepared, perturbation, hook⟩, applied, rest⟩ := bind_eq_ok inserted
      cases prepared with
      | error reason =>
          cases rest
          exact ⟨queued, rfl⟩
      | ok shifted =>
          obtain ⟨layout, _, answered⟩ := bind_eq_ok rest
          cases answered

private theorem mergeAll_retains {requests : List (RemoteRequest β)}
    (booked : simulation.Booked entities keys given)
    (merged : simulation.mergeAll requests = .ok after) : simulation.Retains after := by
  induction requests generalizing simulation keys with
  | nil =>
      cases merged
      exact fun event queued => ⟨queued, rfl⟩
  | cons request rest ih =>
      obtain ⟨next, first, others⟩ := bind_eq_ok merged
      obtain ⟨_, nextBooked⟩ := booked.merge first
      obtain ⟨ts, nextUid, owner, handle, stamped, atOwner, following, enqueued⟩ :=
        Simulation.merge_eq_ok first
      have known := booked.clocks ▸ known_of_clock atOwner
      exact (booked.enqueued_retains known known rfl enqueued).trans (ih nextBooked others)

private theorem finishEvent_retains (booked : simulation.Booked entities keys given)
    (done : simulation.finishEvent = .ok after) : simulation.Retains after := by
  have emptied : Booked { simulation with
      processed := simulation.processed + 1
      context := .global
      inbox := simulation.inbox.drain.2 } entities keys given :=
    booked.of_same rfl rfl rfl rfl rfl
  have retained := emptied.mergeAll_retains done
  exact retained

end Booked

end Simulation

namespace Machine

/-- An event executes, and if a stop is due, then because its callback has asked for it. -/
def Executing (history : List (Signal σ β)) (simulation : Simulation σ β) : Prop :=
  ∃ earlier key callback during, history = earlier ++ .fired key callback :: during ∧
    (∀ signal ∈ during, Signal.Inner signal) ∧
    (simulation.terminated = none → simulation.stopRequested = true →
      callback = .stop ∨ .answered .stop () ∈ during)

/-- A run is over right after an event whose callback has asked for a stop. -/
structure EndsAfter [Hook σ] (body : β → Script σ β μ) (start : Machine σ β μ)
    (history : List (Signal σ β)) (machine : Machine σ β μ) (key : EventKey)
    (callback : Callback β) (leaving : Machine σ β μ) : Prop where
  /-- It was the last event to begin, and its callback asked for the stop. -/
  last : ∃ earlier during, history = earlier ++ .fired key callback :: during ∧
    (∀ signal ∈ during, Signal.Inner signal) ∧
    (callback = .stop ∨ .answered .stop () ∈ during)
  reached : ∃ reports, Tells RunsOutside body start history reports leaving
  /-- The callback has ended, and the event is left in one step. -/
  frames : leaving.frames = .firing :: machine.frames
  left : leaving.simulation.finishEvent = .ok machine.simulation
  retains : leaving.simulation.Retains machine.simulation

structure Watched [Hook σ] (body : β → Script σ β μ) (start : Machine σ β μ)
    (history : List (Signal σ β)) (machine : Machine σ β μ) : Prop where
  nested : Frame.Nested machine.frames
  flat : Frame.Flat machine.frames
  executing : machine.executes = true → Executing history machine.simulation
  due : machine.IsRunning → machine.simulation.terminated = none →
    machine.simulation.stopRequested = true →
      ∃ key callback leaving, EndsAfter body start history machine key callback leaving

variable {history signals : List (Signal σ β)} {simulation after : Simulation σ β}

private theorem Executing.silently (executing : Executing history simulation)
    (flag : after.terminated = none →
      simulation.terminated = none ∧ after.stopRequested = simulation.stopRequested) :
    Executing (history ++ []) after := by
  obtain ⟨earlier, key, callback, during, same, inner, asked⟩ := executing
  refine ⟨earlier, key, callback, during, (List.append_nil _).trans same, inner, ?_⟩
  intro alive stops
  exact asked (flag alive).1 ((flag alive).2 ▸ stops)

private theorem Executing.telling (executing : Executing history simulation) {signal : Signal σ β}
    (shows : signal.Inner)
    (flag : after.terminated = none → after.stopRequested = true →
      signal = .answered .stop () ∨
        simulation.terminated = none ∧ simulation.stopRequested = true) :
    Executing (history ++ [signal]) after := by
  obtain ⟨earlier, key, callback, during, rfl, inner, asked⟩ := executing
  refine ⟨earlier, key, callback, during ++ [signal], ?_, ?_, ?_⟩
  · rw [List.append_assoc, List.cons_append]
  · intro other member
    rcases List.mem_append.mp member with before | now
    · exact inner other before
    · exact List.mem_singleton.mp now ▸ shows
  · intro alive stops
    rcases flag alive stops with rfl | ⟨lived, stopped⟩
    · exact Or.inr (List.mem_append_right _ List.mem_cons_self)
    · exact (asked lived stopped).imp_right (List.mem_append_left _)

private theorem Executing.begun (history : List (Signal σ β)) (key : EventKey)
    {callback : Callback β} (asked : after.stopRequested = true → callback = .stop) :
    Executing (history ++ [.fired key callback]) after :=
  ⟨history, key, callback, [], rfl, fun _ impossible => (nomatch impossible),
    fun _ stops => Or.inl (asked stops)⟩

variable [Hook σ] {body : β → Script σ β μ} {start machine later : Machine σ β μ}
  {reports : List (Report σ β)} {entities : Nat}

private theorem Stepped.executing (stepped : Stepped body machine signals later)
    (outside : machine.RunsOutside) (watched : Watched body start history machine)
    (executes : later.executes = true) : Executing (history ++ signals) later.simulation := by
  obtain ⟨_, flat, executing, _⟩ := watched
  have still (here : machine.IsRunning) : machine.executes = false :=
    not_executes_of_running here flat
  cases stepped with
  | moved memory frames shifts =>
      have before : machine.executes = true := (shifts.flat flat).2.symm.trans executes
      exact (executing before).silently fun alive => ⟨alive, rfl⟩
  | ran result frames before next below here followed =>
      have nothing := still ⟨before, next, below, here⟩
      rw [executes_of_frames here] at nothing
      rw [executes_of_frames followed] at executes
      cases nothing.symm.trans executes
  | performed request next below value simulation here answered =>
      have before : machine.executes = true := (executes_of_frames here).trans executes
      refine (executing before).telling trivial fun alive stops => ?_
      rcases Simulation.Continues.answer answered with continues | ⟨same, _⟩
      · exact Or.inr ⟨(continues.flag alive).1, (continues.flag alive).2 ▸ stops⟩
      · exact Or.inl same
  | begun next below simulation here =>
      cases outside next below here
      cases executes
  | starved simulation here => cases (still here).symm.trans executes
  | skipped entered simulation here => cases (still here).symm.trans executes
  | fired key work simulation here taken goes =>
      refine .begun history key fun stops => ?_
      rw [(Simulation.dequeue_eq_ok taken).flag.2.1, Simulation.unstopped_of_goesOn goes] at stops
      cases stops
  | halted key simulation here taken => exact .begun history key fun _ => rfl
  | finished below simulation here =>
      rw [here] at flat
      obtain ⟨before, next, rfl⟩ := flat
      cases executes
  | destroying handle work destroyEvents next below here first =>
      have before : machine.executes = true := (executes_of_frames here).trans executes
      exact (executing before).telling trivial fun alive stops => Or.inr ⟨alive, stops⟩

private theorem Stepped.due (stepped : Stepped body machine signals later)
    (tells : Tells RunsOutside body start history reports machine)
    (settled : machine.Settled entities history) (watched : Watched body start history machine)
    (running : later.IsRunning) (alive : later.simulation.terminated = none)
    (stops : later.simulation.stopRequested = true) :
    ∃ key callback leaving,
      EndsAfter body start (history ++ signals) later key callback leaving := by
  obtain ⟨nested, _, executing, _⟩ := watched
  cases stepped with
  | moved memory frames shifts =>
      obtain ⟨top, first, runs⟩ := isRunning_iff.mp running
      rw [(shifts.nested nested).2 top first] at runs
      cases runs
  | ran result frames before next below here followed =>
      obtain ⟨_, _, _, top⟩ := running
      simp only [followed] at top
      cases top
  | performed | fired | halted | destroying =>
      obtain ⟨_, _, _, top⟩ := running
      cases top
  | begun next below simulation here began =>
      cases ((Simulation.flag_of_beginRun began).2.2 alive).2.symm.trans stops
  | starved simulation here taken goes =>
      rw [(Simulation.dequeue_eq_ok taken).flag.2.1, Simulation.unstopped_of_goesOn goes] at stops
      cases stops
  | skipped entered simulation here taken left goes =>
      have flag := ((Simulation.Continues.drainInbox left).flag alive).2
      have before := (Simulation.dequeue_eq_ok taken).flag.2.1
      cases (Simulation.unstopped_of_goesOn goes).symm.trans
        (before.symm.trans (flag.symm.trans stops))
  | finished below simulation here done =>
      obtain ⟨lived, same⟩ := (Simulation.Continues.finishEvent done).2.2 alive
      have executes : machine.executes = true := executes_of_frames here
      obtain ⟨earlier, key, callback, during, told, inner, asked⟩ := executing executes
      obtain ⟨keys, booked⟩ := settled.booked
      rw [List.append_nil]
      exact ⟨key, callback, machine,
        ⟨earlier, during, told, inner, asked lived (same.symm.trans stops)⟩, ⟨reports, tells⟩, here,
        done, booked.finishEvent_retains done⟩

private theorem Tells.watched (settled : start.Settled entities []) (script : Script σ β μ)
    (begins : start.frames = [.script script])
    (tells : Tells RunsOutside body start history reports machine) :
    Watched body start history machine := by
  refine tells.keeps (motive := fun noted machine => Watched body start noted.1 machine) ?_ ?_
  · refine ⟨?_, ?_, fun executes => ?_, fun running => ?_⟩
    · rw [begins]
      exact ⟨fun _ impossible => (nomatch impossible), trivial⟩
    · rw [begins]
      trivial
    · cases (executes_of_frames begins).symm.trans executes
    · obtain ⟨_, _, _, top⟩ := running
      cases begins.symm.trans top
  · rintro ⟨history, reports⟩ signals machine after before ⟨_, outside⟩ stepped watched
    have steps := step_eq_ok stepped
    exact ⟨steps.nested watched.nested, steps.flat outside watched.flat,
      steps.executing outside watched,
      steps.due before (Tells.settled settled before) watched⟩

theorem Tells.endsAfter (settled : start.Settled entities []) (script : Script σ β μ)
    (begins : start.frames = [.script script])
    (tells : Tells RunsOutside body start history reports machine) {summary : RunSummary}
    (stepped : machine.step body = .ok ([.ran (.ok summary)], later))
    (stopped : summary.stopped = true) : later.simulation = machine.simulation ∧
      ∃ key callback leaving, EndsAfter body start history machine key callback leaving := by
  have watched := tells.watched settled script begins
  generalize same : [Signal.ran (.ok summary)] = signals at stepped
  cases step_eq_ok stepped with
  | ran result frames before next below here followed stays ended =>
      cases same
      obtain ⟨alive, flag⟩ := Simulation.flag_of_endRun ended
      exact ⟨rfl, watched.due ⟨before, next, below, here⟩ alive (flag.symm.trans stopped)⟩
  | moved | performed | begun | starved | skipped | fired | halted | finished | destroying =>
      cases same

end Machine

end EventKernel
