import EventKernel.Simulation.Script

set_option autoImplicit false

/-! The execution of scripts, one small step at a time. Callbacks interrupt the run that
invokes them and may run the simulation themselves; the frames of a machine hold what is
interrupted, the innermost first. A step either faults, before anything of it has
happened, or tells what it made visible. -/

namespace EventKernel

open Exploration (Hook)

/-- What is executing, or interrupted by the frames before it. -/
inductive Frame (σ β μ : Type) where
  | script (rest : Script σ β μ)
  /-- A run, with the number of callbacks invoked before it and what follows it. -/
  | running (before : Nat) (next : Except BranchEnded RunSummary → Script σ β μ)
  | firing
  /-- The destroy phase, with what follows it. -/
  | destroying (next : Script σ β μ)

/-- What a step makes visible. -/
inductive Signal (σ β : Type) where
  /-- The callback of an event begins, in the context and at the instant of the key. -/
  | fired (key : EventKey) (callback : Callback β)
  | destroying (handle : Handle) (callback : β)
  | answered {reply : Reply} (request : Request σ β reply) (value : reply.Value)
  | ran (result : Except BranchEnded RunSummary)

structure Machine (σ β μ : Type) where
  simulation : Simulation σ β
  memory : μ
  frames : List (Frame σ β μ)

namespace Machine

variable {σ β μ : Type}

def start (simulation : Simulation σ β) (memory : μ) (script : Script σ β μ) :
    Machine σ β μ :=
  ⟨simulation, memory, [.script script]⟩

def isHalted (machine : Machine σ β μ) : Bool := machine.frames.isEmpty

variable [Hook σ]

def stepScript (machine : Machine σ β μ) (below : List (Frame σ β μ)) :
    Script σ β μ → Except Fault (List (Signal σ β) × Machine σ β μ)
  | .done => .ok ([], { machine with frames := below })
  | .fail fault => .error fault
  | .recall next => .ok ([], { machine with frames := .script (next machine.memory) :: below })
  | .remember memory next => .ok ([], { machine with memory, frames := .script next :: below })
  | .perform request next => do
      let (value, simulation) ← request.answer machine.simulation
      return ([.answered request value],
        { machine with simulation, frames := .script (next value) :: below })
  | .run next => do
      let simulation ← machine.simulation.beginRun
      return ([], { machine with
        simulation, frames := .running machine.simulation.processed next :: below })
  | .destroy next => .ok ([], { machine with frames := .destroying next :: below })

/-- A step of the innermost run: it takes an event or ends. -/
def stepRun (body : β → Script σ β μ) (machine : Machine σ β μ) (before : Nat)
    (next : Except BranchEnded RunSummary → Script σ β μ) (below : List (Frame σ β μ)) :
    Except Fault (List (Signal σ β) × Machine σ β μ) :=
  if machine.simulation.goesOn then do
    let (dequeued, simulation) ← machine.simulation.dequeue
    match dequeued with
    | .nothing => return ([], { machine with simulation })
    | .skipped => return ([], { machine with simulation := ← simulation.leaveEvent })
    | .invoke key (.user work) =>
        return ([.fired key (.user work)], { machine with
          simulation
          frames := .script (body work) :: .firing :: .running before next :: below })
    | .invoke key .stop =>
        return ([.fired key .stop], { machine with
          simulation := simulation.stop
          frames := .firing :: .running before next :: below })
  else do
    let result ← machine.simulation.endRun before
    return ([.ran result], { machine with frames := .script (next result) :: below })

/-- A step of the destroy phase: it invokes the first registered callback or ends. -/
def stepDestroy (body : β → Script σ β μ) (machine : Machine σ β μ)
    (next : Script σ β μ) (below : List (Frame σ β μ)) :
    List (Signal σ β) × Machine σ β μ :=
  match machine.simulation.destroyEvents with
  | [] => ([], { machine with frames := .script next :: below })
  | (handle, work) :: destroyEvents =>
      ([.destroying handle work], { machine with
        simulation := { machine.simulation with destroyEvents }
        frames := .script (body work) :: .destroying next :: below })

/-- One step, where `body` tells what each callback does. A halted machine stays. -/
def step (body : β → Script σ β μ) (machine : Machine σ β μ) :
    Except Fault (List (Signal σ β) × Machine σ β μ) :=
  match machine.frames with
  | [] => .ok ([], machine)
  | .script rest :: below => machine.stepScript below rest
  | .running before next :: below => machine.stepRun body before next below
  | .firing :: below => do
      return ([], { machine with
        simulation := ← machine.simulation.finishEvent, frames := below })
  | .destroying next :: below => .ok (machine.stepDestroy body next below)

def steps (body : β → Script σ β μ) :
    Nat → Machine σ β μ → Except Fault (List (Signal σ β) × Machine σ β μ)
  | 0, machine => .ok ([], machine)
  | count + 1, machine => do
      let (first, machine) ← machine.step body
      let (others, machine) ← steps body count machine
      return (first ++ others, machine)

end Machine

end EventKernel
