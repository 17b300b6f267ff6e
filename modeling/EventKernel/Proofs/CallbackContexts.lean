import EventKernel.Proofs.EventFollowers
import EventKernel.Proofs.HandleFinality

set_option autoImplicit false

/-! Which context a simulation reports while callbacks execute. Callbacks may run the simulation
themselves, so beside each execution come the activations of callbacks, the innermost first: the
context in which each was invoked, and whether a run within it has taken an event since. Every
event that is taken sets the reported context, and the global one follows it. A callback is thus
told its own context until the first event that a run of its own takes, and the global one from
then until it returns. -/

namespace EventKernel

open Exploration (Hook)

variable {σ β μ : Type}

/-- The callback of an event, invoked and not returned. -/
structure Activation where
  context : Context
  /-- A run within the callback has taken an event. -/
  interrupted : Bool
deriving DecidableEq, Repr

namespace Activation

def interrupt (activation : Activation) : Activation := { activation with interrupted := true }

def reported : List Activation → Context
  | [] => .global
  | innermost :: _ => if innermost.interrupted then .global else innermost.context

private theorem reported_of_interrupted {activations : List Activation}
    (all : ∀ activation ∈ activations, activation.interrupted = true) :
    reported activations = .global := by
  cases activations with
  | nil => rfl
  | cons innermost outer => exact if_pos (all innermost List.mem_cons_self)

private theorem interrupted_of_mem {activations : List Activation} {activation : Activation}
    (member : activation ∈ activations.map interrupt) : activation.interrupted = true := by
  obtain ⟨before, _, rfl⟩ := List.mem_map.mp member
  rfl

end Activation

/-- The activations after a step of the machine: one ends with its event, one begins with an event
that is invoked, and all that are open are interrupted by an event that is taken, one that was
cancelled in place included. -/
def Machine.activate (machine : Machine σ β μ) (activations : List Activation)
    (signals : List (Signal σ β)) : List Activation :=
  match machine.frames with
  | .firing :: _ => activations.tail
  | _ =>
      match signals.filterMap Signal.fired? with
      | (key, _) :: _ => ⟨key.context, false⟩ :: activations.map Activation.interrupt
      | [] => if machine.takes?.isSome then activations.map Activation.interrupt else activations

/-- The machines that any program reaches, each with its activations. -/
def Machine.Activates [Hook σ] (body : β → Script σ β μ) (start : Machine σ β μ) :
    List Activation → Machine σ β μ → Prop :=
  LeadsTo body ⟨fun _ _ => True, fun activations machine signals _ =>
    machine.activate activations signals⟩ [] start

namespace Simulation

/-- A callback is told a context, its clock, and has events planned there. -/
structure Reports [Hook σ] (simulation : Simulation σ β) (context : Context) : Prop where
  told : simulation.context = context
  now : simulation.now = simulation.nowIn context
  schedules : ∀ (kind : EventKind) (delay : UInt64) (transmit : Option Transmission)
    (callback : β) (handle : Handle) (after : Simulation σ β),
    (Request.schedule (.here kind delay transmit) callback).answer simulation =
      .ok (handle, after) →
    ∃ clock ts nextUid, simulation.clock context = .ok clock ∧ clock.after delay = .ok ts ∧
      Enqueued { simulation with nextUid }
        ⟨⟨ts, simulation.nextUid, context⟩, kind, context, transmit⟩ (.user callback) handle after

variable [Hook σ] {simulation after : Simulation σ β}

private theorem reports_of_context {context : Context} (same : simulation.context = context) :
    simulation.Reports context := by
  subst same
  refine ⟨rfl, rfl, fun kind delay transmit callback handle after scheduled => ?_⟩
  obtain ⟨clock, ts, nextUid, _, read, stamped, _, _, enqueued⟩ := schedule_eq_ok scheduled
  exact ⟨clock, ts, nextUid, read, stamped, enqueued⟩

omit [Hook σ] in
private theorem Taken.popped {dequeued : Dequeued β} (taken : Taken simulation dequeued after) :
    (dequeued = .nothing ∧ after.context = simulation.context ∧
      ∃ queue, simulation.queue.pop = .ok (none, queue)) ∨
    (dequeued ≠ .nothing ∧ ∃ event queue, simulation.queue.pop = .ok (some event, queue)) := by
  cases taken with
  | nothing queue popped => exact .inl ⟨rfl, rfl, queue, popped⟩
  | entered queue event unscheduled advanced slot popped =>
      refine .inr ⟨fun same => ?_, event, queue, popped⟩
      cases slot with
      | armed callback => cases same
      | cancelled => cases same

private theorem beginRun_context (begun : simulation.beginRun = .ok after) :
    after.context = simulation.context := by
  obtain ⟨drained, stopRequested, merged, rfl⟩ := beginRun_eq_ok begun
  obtain ⟨_, _, _, _, _, _, rfl⟩ := drainInbox_same merged
  rfl

private theorem leaveEvent_context (left : simulation.leaveEvent = .ok after) :
    after.context = .global := by
  obtain ⟨_, _, _, _, _, _, rfl⟩ := drainInbox_same left
  rfl

end Simulation

namespace Machine

/-- The open callbacks and the frames belong together, only the innermost callback is not
interrupted, and its context is the present one. -/
structure Tracked (activations : List Activation) (machine : Machine σ β μ) : Prop where
  count : activations.length = (machine.frames.filter Frame.isFiring).length
  outer : ∀ activation ∈ activations.tail, activation.interrupted = true
  context : machine.simulation.context = Activation.reported activations

variable {body : β → Script σ β μ} {machine after : Machine σ β μ}
  {activations : List Activation} {signals : List (Signal σ β)}

private theorem activate_of_calm (calm : ∀ top ∈ machine.frames.head?, top.isRunning = false)
    (apart : ∀ top ∈ machine.frames.head?, top.isFiring = false)
    (silent : signals.filterMap Signal.fired? = []) :
    machine.activate activations signals = activations := by
  unfold activate
  split
  · rename_i below here
    cases apart .firing (by rw [here]; rfl)
  · rw [silent, takes?_of_calm calm]
    rfl

private theorem activate_of_top {top : Frame σ β μ} {below : List (Frame σ β μ)}
    (here : machine.frames = top :: below) (calm : top.isRunning = false)
    (apart : top.isFiring = false) (silent : signals.filterMap Signal.fired? = []) :
    machine.activate activations signals = activations := by
  have only {holds : Frame σ β μ → Bool} (fails : holds top = false) :
      ∀ frame ∈ machine.frames.head?, holds frame = false := by
    rw [here]
    rintro frame first
    cases first
    exact fails
  exact activate_of_calm (only calm) (only apart) silent

private theorem activate_of_running (here : machine.IsRunning) :
    machine.activate activations signals =
      match signals.filterMap Signal.fired? with
      | (key, _) :: _ => ⟨key.context, false⟩ :: activations.map Activation.interrupt
      | [] => if machine.takes?.isSome then activations.map Activation.interrupt
          else activations := by
  obtain ⟨before, next, below, top⟩ := here
  unfold activate
  rw [top]

private theorem Shifts.unfired {frames later : List (Frame σ β μ)} (shifts : Shifts frames later) :
    ∀ top ∈ frames.head?, top.isFiring = false := by
  intro top first
  cases shifts with
  | halted => cases first
  | ended | recalled | remembered | destroys | destroyed =>
      cases first
      rfl

private theorem Shifts.firing {frames later : List (Frame σ β μ)} (shifts : Shifts frames later) :
    (later.filter Frame.isFiring).length = (frames.filter Frame.isFiring).length := by
  cases shifts with
  | halted | ended | recalled | remembered | destroys | destroyed => rfl

variable [Hook σ]

private theorem Stepped.tracked (stepped : Stepped body machine signals after)
    (tracked : machine.Tracked activations) :
    after.Tracked (machine.activate activations signals) := by
  obtain ⟨count, outer, context⟩ := tracked
  -- Where no event is taken, begun or left, the activations stay.
  have stays {simulation : Simulation σ β} {frames : List (Frame σ β μ)} {memory : μ}
      (same : machine.activate activations signals = activations)
      (firing : (frames.filter Frame.isFiring).length = (machine.frames.filter Frame.isFiring).length)
      (kept : simulation.context = machine.simulation.context) :
      Tracked (machine.activate activations signals) ⟨simulation, memory, frames⟩ := by
    rw [same]
    exact ⟨count.trans firing.symm, outer, kept.trans context⟩
  -- Whatever is taken from the queue interrupts all that is open.
  have interrupts (simulation : Simulation σ β) (left : simulation.context = .global) :
      Tracked (activations.map Activation.interrupt) { machine with simulation } := by
    refine ⟨?_, fun activation member => ?_, ?_⟩
    · rw [List.length_map]
      exact count
    · exact Activation.interrupted_of_mem (List.mem_of_mem_tail member)
    · rw [Activation.reported_of_interrupted fun _ => Activation.interrupted_of_mem]
      exact left
  have begins (key : EventKey) (simulation : Simulation σ β) (frames : List (Frame σ β μ))
      (entered : simulation.context = key.context)
      (one : (frames.filter Frame.isFiring).length = (machine.frames.filter Frame.isFiring).length + 1) :
      Tracked (⟨key.context, false⟩ :: activations.map Activation.interrupt)
        { machine with simulation, frames } := by
    refine ⟨?_, fun activation => Activation.interrupted_of_mem, entered⟩
    rw [List.length_cons, List.length_map, count, one]
  cases stepped with
  | moved memory frames shifts =>
      exact stays (activate_of_calm shifts.calm shifts.unfired rfl) shifts.firing rfl
  | ran result frames before next below here followed ends ended =>
      refine stays ?_ (by rw [here, followed]; rfl) rfl
      rw [activate_of_running ⟨before, next, below, here⟩]
      unfold takes?
      rw [here]
      simp only [ends, Bool.false_eq_true, if_false]
      rfl
  | performed request next below value simulation here answered =>
      exact stays (activate_of_top here rfl rfl rfl) (by rw [here]; rfl)
        (Simulation.answer_clocks request answered).2.1
  | begun next below simulation here began =>
      exact stays (activate_of_top here rfl rfl rfl) (by rw [here]; rfl)
        (Simulation.beginRun_context began)
  | starved simulation here taken goes =>
      rcases (Simulation.dequeue_eq_ok taken).popped with ⟨_, kept, queue, popped⟩ | ⟨some_, _⟩
      · refine stays ?_ rfl kept
        rw [activate_of_running here, takes?_of_running here goes, popped]
        rfl
      · exact absurd rfl some_
  | skipped entered simulation here taken left goes =>
      rcases (Simulation.dequeue_eq_ok taken).popped with ⟨nothing, _⟩ | ⟨_, event, queue, popped⟩
      · cases nothing
      · rw [activate_of_running here, takes?_of_running here goes, popped]
        exact interrupts simulation (Simulation.leaveEvent_context left)
  | fired key work simulation here taken goes =>
      rw [activate_of_running here]
      exact begins key simulation _ (Simulation.dequeue_eq_ok taken).begins.1 rfl
  | halted key simulation here taken goes =>
      rw [activate_of_running here]
      exact begins key simulation.stop _ (Simulation.dequeue_eq_ok taken).begins.1 rfl
  | finished below simulation here done =>
      have open_ : activations.length = (below.filter Frame.isFiring).length + 1 := by
        rw [count, here]
        rfl
      have left : machine.activate activations [] = activations.tail := by
        unfold activate
        rw [here]
      rw [left]
      refine ⟨?_, fun activation member => outer activation (List.mem_of_mem_tail member), ?_⟩
      · rw [List.length_tail, open_]
        rfl
      · rw [Activation.reported_of_interrupted outer]
        exact Simulation.leaveEvent_context done
  | destroying handle work destroyEvents next below here first =>
      exact stays (activate_of_top here rfl rfl rfl) (by rw [here]; rfl) rfl

private theorem Activates.tracked {start : Machine σ β μ} (begins : start.Tracked [])
    (reached : Activates body start activations machine) : machine.Tracked activations := by
  refine reached.keeps (motive := fun activations machine => machine.Tracked activations) begins ?_
  exact fun _ _ stepped tracked => (step_eq_ok stepped).tracked tracked

private theorem Activates.begins {start : Machine σ β μ} {key : EventKey} {callback : Callback β}
    (reached : Activates body start activations machine)
    (stepped : machine.step body = .ok ([.fired key callback], after)) :
    Activates body start (⟨key.context, false⟩ :: activations.map Activation.interrupt) after ∧
      after.simulation.now = .ok key.ts := by
  have next : Activates body start (machine.activate activations [.fired key callback]) after :=
    reached.step trivial stepped
  cases step_eq_ok stepped with
  | fired key work simulation here taken goes =>
      rw [activate_of_running here] at next
      exact ⟨next, (Simulation.dequeue_eq_ok taken).begins.2⟩
  | halted key simulation here taken goes =>
      rw [activate_of_running here] at next
      exact ⟨next, (Simulation.dequeue_eq_ok taken).begins.2⟩

/-- Whatever a program and its callbacks do, runs within callbacks included: outside all callbacks
of events the simulation reports the global context. A callback begins with the context and the
instant of its event, and is told that context, its clock, and has events planned there, exactly
until a run within it takes an event; from then on it is told the global context until it
returns. -/
theorem callback_told_its_context {configuration : Queue.Configuration} {hook : σ}
    {simulation : Simulation σ β}
    (started : Simulation.new configuration hook = .ok (.ok simulation)) (memory : μ)
    (program : Script σ β μ)
    (reached : Activates body (.start simulation memory program) activations machine) :
    machine.simulation.Reports (Activation.reported activations) ∧
    activations.length = (machine.frames.filter Frame.isFiring).length ∧
    (activations = [] → machine.simulation.Reports .global) ∧
    (∀ innermost outer, activations = innermost :: outer →
      (machine.simulation.context = innermost.context ↔
        innermost.interrupted = false ∨ innermost.context = .global) ∧
      ∀ activation ∈ outer, activation.interrupted = true) ∧
    ∀ key callback after, machine.step body = .ok ([.fired key callback], after) →
      Activates body (.start simulation memory program)
          (⟨key.context, false⟩ :: activations.map Activation.interrupt) after ∧
        after.simulation.Reports key.context ∧ after.simulation.now = .ok key.ts := by
  obtain ⟨queue, _, rfl⟩ := Simulation.ofQueue_of_new started
  have begins : Tracked [] (Machine.start (Simulation.ofQueue queue) memory program) :=
    ⟨rfl, fun _ impossible => (List.not_mem_nil impossible).elim, rfl⟩
  obtain ⟨count, outside, context⟩ := reached.tracked begins
  refine ⟨Simulation.reports_of_context context, count, ?_, ?_, ?_⟩
  · rintro rfl
    exact Simulation.reports_of_context context
  · rintro ⟨owner, interrupted⟩ outer rfl
    refine ⟨?_, outside⟩
    rw [context]
    unfold Activation.reported
    cases interrupted with
    | false => exact ⟨fun _ => .inl rfl, fun _ => rfl⟩
    | true =>
        refine ⟨fun same => .inr same.symm, fun either => ?_⟩
        rcases either with impossible | global
        · cases impossible
        · exact global.symm
  · intro key callback after stepped
    obtain ⟨next, instant⟩ := reached.begins stepped
    exact ⟨next, Simulation.reports_of_context (next.tracked begins).context, instant⟩

def runningWithin : Bool → Script Exploration.Silent Bool Unit
  | true =>
      .perform (.schedule (.within (.node ⟨1⟩) 3) false) fun _ => .run fun _ =>
        .perform .currentContext fun _ => .done
  | false => .done

/-- After the inner event the outer callback, which is one of node 0, is told the global context. -/
theorem callback_told_its_context_nested :
    ∃ simulation machine after,
      Simulation.new twoEntities Exploration.Silent.silent = .ok (.ok simulation) ∧
      Activates runningWithin (.start simulation () (.perform
        (.schedule (.within (.node ⟨0⟩) 5) true) fun _ => .run fun _ => .done))
        [⟨.node ⟨0⟩, true⟩] machine ∧
      machine.step runningWithin = .ok ([.answered .currentContext .global], after) ∧
      machine.simulation.Reports .global ∧
      machine.simulation.context ≠ .node ⟨0⟩ := by
  have reached : ∃ simulation activations machine after,
      Simulation.new twoEntities Exploration.Silent.silent = .ok (.ok simulation) ∧
      Activates runningWithin (.start simulation () (.perform
        (.schedule (.within (.node ⟨0⟩) 5) true) fun _ => .run fun _ => .done)) activations machine ∧
      activations = [⟨.node ⟨0⟩, true⟩] ∧
      machine.step runningWithin = .ok ([.answered .currentContext .global], after) := by
    exact ⟨_, _, _, _, rfl, .of_steps 9 rfl fun _ _ _ _ _ => trivial, rfl, rfl⟩
  obtain ⟨simulation, _, machine, after, started, activates, rfl, stepped⟩ := reached
  obtain ⟨reports, _, _, exactly, _⟩ := callback_told_its_context started () _ activates
  refine ⟨simulation, machine, after, started, activates, stepped, reports, fun told => ?_⟩
  rcases (exactly _ _ rfl).1.mp told with impossible | impossible
  · cases impossible
  · cases impossible

end Machine

end EventKernel
