import EventKernel.Proofs.LaneCausality
import EventKernel.Proofs.WatchedExecutions

set_option autoImplicit false

/-! Programs that keep to the latencies. Events are scheduled on entities before a single
run. During the run an event may schedule others for its own entity, or send messages to
other entities that take at least the latency; events that were scheduled may be cancelled
or removed again, and the run may be stopped. -/

namespace EventKernel

open Queue (Configuration LatencyMatrix)

variable {σ β μ : Type}

def Given (history : List (Signal σ β)) (handle : Handle) : Prop :=
  ∃ signal ∈ history, signal.Gives handle

theorem Given.append_singleton {history : List (Signal σ β)} {signal : Signal σ β}
    {handle : Handle} (known : Given (history ++ [signal]) handle) :
    Given history handle ∨ signal.Gives handle := by
  obtain ⟨other, member, gives⟩ := known
  rcases List.mem_append.mp member with before | now
  · exact Or.inl ⟨other, before, gives⟩
  · rw [List.mem_singleton.mp now] at gives
    exact Or.inr gives

/-- What may be asked for before the run. -/
def Request.Prepares (history : List (Signal σ β)) : {reply : Reply} → Request σ β reply → Prop
  | _, .schedule (.within (.node _) _) _ => True
  | _, .schedule _ _ => False
  | _, .stopAfter _ => False
  | _, .requestRemote _ _ _ => False
  | _, .replaceQueue _ => False
  | _, .cancel handle => Given history handle
  | _, .remove handle => Given history handle
  | _, _ => True

/-- What an event may ask for that executes in the given context. -/
def Request.Follows (latency : LatencyMatrix) (context : Context)
    (history : List (Signal σ β)) : {reply : Reply} → Request σ β reply → Prop
  | _, .schedule (.here _ _ _) _ => context ≠ .global
  | _, .schedule (.within owner _) _ => context ≠ .global ∧ owner = context
  | _, .schedule (.message (.node sender) (.node dest) delay _) _ =>
      context = .node sender ∧ latency.between sender.index dest.index ≤ delay.toNat
  | _, .schedule (.message _ _ _ _) _ => False
  | _, .stopAfter _ => context ≠ .global
  | _, .requestRemote _ _ _ => False
  | _, .replaceQueue _ => False
  | _, .cancel handle => Given history handle
  | _, .remove handle => Given history handle
  | _, _ => True

/-- The next instruction of a script is no further run, and what it asks for is allowed. -/
def Script.Keeps (allowed : {reply : Reply} → Request σ β reply → Prop) : Script σ β μ → Prop
  | .perform request _ => allowed request
  | .run _ => False
  | _ => True

namespace Machine

variable [Exploration.Hook σ]

/-- A machine that is about to run, and the answers so far. -/
def Prepared (body : β → Script σ β μ) (start : Machine σ β μ) :
    List (Signal σ β) → Machine σ β μ → Prop :=
  LeadsTo body { Watch.history with
    allows := fun history machine => ∃ rest below, machine.frames = .script rest :: below ∧
      rest.Keeps (Request.Prepares history) } [] start

/-- A machine in the single run of such a program. -/
def Underway (latency : LatencyMatrix) (body : β → Script σ β μ) (start : Machine σ β μ)
    (history : List (Signal σ β)) (machine : Machine σ β μ) : Prop :=
  ∃ past ready below signals first, Prepared body start past ready ∧
    BeginsRun body ready below signals first ∧
    LeadsTo body { Watch.history with
      allows := fun history machine => ∀ rest below, machine.frames = .script rest :: below →
        rest.Keeps (Request.Follows latency machine.simulation.context history) }
      (past ++ signals) first history machine

end Machine

def Simulation.ClocksAdvance (before after : Simulation σ β) : Prop :=
  ∀ (entity : Nat) (earlier later : Clock), before.localClocks[entity]? = some earlier →
    after.localClocks[entity]? = some later → earlier.now ≤ later.now

namespace Queue.Configuration

/-- The entities that wait for credit before they send. -/
def Waits (configuration : Configuration) (entity : Nat) : Prop :=
  ∃ neighbours, configuration.interfaces[entity]? = some neighbours ∧ neighbours ≠ []

/-- The entities that wait for credit are the nearest to all others that they reach. -/
def WaitsNearby (configuration : Configuration) : Prop :=
  ∀ entity, entity < configuration.entities → configuration.Waits entity →
    configuration.latency.Nearest configuration.entities entity

/-- No program that keeps to the latencies ever turns back the clock of an entity. -/
def ClocksAdvance (configuration : Configuration) : Prop :=
  ∀ (σ β μ : Type) [Exploration.Hook σ] (hook : σ) (simulation : Simulation σ β) (memory : μ)
    (script : Script σ β μ) (body : β → Script σ β μ) (history signals : List (Signal σ β))
    (machine after : Machine σ β μ),
    Simulation.new configuration hook = .ok (.ok simulation) →
    Machine.Underway configuration.latency body (.start simulation memory script)
      history machine →
    machine.step body = .ok (signals, after) →
      machine.simulation.ClocksAdvance after.simulation

end Queue.Configuration

end EventKernel
