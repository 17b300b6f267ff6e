import EventKernel.Simulation.Basic

set_option autoImplicit false

/-! What callbacks, and the program around them, may do with a simulation. A script is a
finite sequence of requests whose continuation depends on the answers. Callbacks are
named by values of a type of the program's own, so a callback may schedule itself again;
what callbacks share lies in a memory that scripts may read and write. -/

namespace EventKernel

open Queue (EventQueue Configuration)
open Exploration (Hook)

inductive Reply where
  | nothing
  | handle
  | flag
  | delay
  | count
  | instant
  | context
  | text
  | trace
  | configuration
deriving DecidableEq, Repr

def Reply.Value : Reply → Type
  | nothing => Unit
  | handle => Handle
  | flag => Bool
  | delay => UInt64
  | count => Nat
  | instant => Timestamp
  | context => Context
  | text => String
  | trace => Option Exploration.Trace
  | configuration => Configuration

/-- Where and when a new event is to take place. -/
inductive Placement where
  | here (kind : EventKind) (delay : UInt64) (transmit : Option Transmission)
  | within (context : Context) (delay : UInt64)
  /-- In a context, as a message sent `delay` after the clock of its sender. -/
  | message (sender context : Context) (delay : UInt64) (transmit : Option Transmission)
deriving DecidableEq, Repr

/-- The plan that a placement stands for in the current context. -/
def Placement.plan (current : Context) : Placement → Simulation.Plan
  | here kind delay transmit => ⟨current, current, delay, kind, transmit⟩
  | within context delay => ⟨context, context, delay, .undefined, none⟩
  | message sender context delay transmit => ⟨sender, context, delay, .outgoing, transmit⟩

/-- A request that a simulation answers at once. -/
inductive Request (σ β : Type) : Reply → Type where
  | schedule (placement : Placement) (callback : β) : Request σ β .handle
  | scheduleDestroy (callback : β) : Request σ β .handle
  /-- An event in the current context that stops the run. -/
  | stopAfter (delay : UInt64) : Request σ β .handle
  /-- From outside: in a context, `delay` after the global clock when it is merged. -/
  | requestRemote (context : Context) (delay : UInt64) (callback : β) : Request σ β .nothing
  | cancel (handle : Handle) : Request σ β .nothing
  | remove (handle : Handle) : Request σ β .nothing
  | isExpired (handle : Handle) : Request σ β .flag
  | delayLeft (handle : Handle) : Request σ β .delay
  | stop : Request σ β .nothing
  | dispose : Request σ β .nothing
  | replaceQueue (replacement : EventQueue σ) : Request σ β .nothing
  | now : Request σ β .instant
  | nowIn (context : Context) : Request σ β .instant
  | currentContext : Request σ β .context
  | pending : Request σ β .count
  | remotePending : Request σ β .count
  | describe : Request σ β .text
  | detail : Request σ β .text
  | trace : Request σ β .trace
  | configuration : Request σ β .configuration

namespace Request

variable {σ β : Type}

def answer [Hook σ] (simulation : Simulation σ β) : {reply : Reply} → Request σ β reply →
    Except Fault (reply.Value × Simulation σ β)
  | _, schedule placement callback =>
      simulation.schedule (placement.plan simulation.context) (.user callback)
  | _, scheduleDestroy callback => simulation.scheduleDestroy callback
  | _, stopAfter delay =>
      simulation.schedule (Placement.plan simulation.context (.here .stop delay none)) .stop
  | _, requestRemote context delay callback =>
      .ok ((), simulation.requestRemote ⟨context, delay, callback⟩)
  | _, cancel handle => do return ((), ← simulation.cancel handle)
  | _, remove handle => do return ((), ← simulation.remove handle)
  | _, isExpired handle => do return (← simulation.isExpired handle, simulation)
  | _, delayLeft handle => do return (← simulation.delayLeft handle, simulation)
  | _, stop => .ok ((), simulation.stop)
  | _, dispose => .ok ((), simulation.dispose)
  | _, replaceQueue replacement => do return ((), ← simulation.replaceQueue replacement)
  | _, now => do return (← simulation.now, simulation)
  | _, nowIn context => do return (← simulation.nowIn context, simulation)
  | _, currentContext => .ok (simulation.context, simulation)
  | _, pending => .ok (simulation.pending, simulation)
  | _, remotePending => .ok (simulation.inbox.size, simulation)
  | _, describe => .ok (simulation.queue.describe, simulation)
  | _, detail => .ok (simulation.detail, simulation)
  | _, trace => .ok (Hook.trace? simulation.queue.hook, simulation)
  | _, configuration => .ok (simulation.queue.configuration, simulation)

end Request

inductive Script (σ β μ : Type) where
  | done
  | fail (fault : Fault)
  | recall (next : μ → Script σ β μ)
  | remember (memory : μ) (next : Script σ β μ)
  | perform {reply : Reply} (request : Request σ β reply)
      (next : reply.Value → Script σ β μ)
  | run (next : Except BranchEnded RunSummary → Script σ β μ)
  | destroy (next : Script σ β μ)

end EventKernel
