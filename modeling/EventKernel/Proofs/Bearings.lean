import EventKernel.Proofs.BookkeepingRuns

set_option autoImplicit false

/-! Where a program finds itself: the clocks and the current context. A cancelled event that
stays in the queue moves them when its turn comes, although it invokes nothing. Beside an
execution stand the bearings that its invoked events alone would have left. A program is
undisturbed if nothing that it does comes out otherwise from these. -/

namespace EventKernel

open Exploration (Hook)

variable {σ β μ : Type}

structure Bearings where
  globalClock : Clock
  localClocks : List Clock
  context : Context
deriving DecidableEq, Repr

namespace Bearings

/-- An event begins: its clock moves to it, and its context is entered. -/
def enter (bearings : Bearings) (key : EventKey) : Bearings :=
  match key.context with
  | .global => { bearings with
      globalClock := .advance key.ts key.uid
      context := .global }
  | .node id => { bearings with
      localClocks := bearings.localClocks.set id.index (.advance key.ts key.uid)
      context := .node id }

def leave (bearings : Bearings) : Bearings := { bearings with context := .global }

theorem enter_context (bearings : Bearings) (key : EventKey) :
    (bearings.enter key).context = key.context := by
  unfold enter
  cases key.context with
  | global => rfl
  | node id => rfl

theorem enter_length (bearings : Bearings) (key : EventKey) :
    (bearings.enter key).localClocks.length = bearings.localClocks.length := by
  unfold enter
  cases key.context with
  | global => rfl
  | node id => exact List.length_set

end Bearings

namespace Simulation

def bearings (simulation : Simulation σ β) : Bearings :=
  ⟨simulation.globalClock, simulation.localClocks, simulation.context⟩

/-- The simulation as it would be with these clocks and this current context. -/
def restored (simulation : Simulation σ β) (bearings : Bearings) : Simulation σ β :=
  { simulation with
    globalClock := bearings.globalClock
    localClocks := bearings.localClocks
    context := bearings.context }

end Simulation

/-- A request whose answer tells neither how many events are queued nor which, nor how the
queue is configured. -/
def Request.Blind : {reply : Reply} → Request σ β reply → Prop
  | _, .replaceQueue _ => False
  | _, .pending => False
  | _, .describe => False
  | _, .detail => False
  | _, .trace => False
  | _, .configuration => False
  | _, _ => True

/-- A script that looks at the queue nowhere, and goes on alike whatever a run answers. -/
def Script.Blind : Script σ β μ → Prop
  | .done => True
  | .fail _ => True
  | .recall next => ∀ memory, (next memory).Blind
  | .remember _ next => next.Blind
  | .perform request next => request.Blind ∧ ∀ value, (next value).Blind
  | .run next => (∀ first second, next first = next second) ∧ ∀ result, (next result).Blind
  | .destroy next => next.Blind

def Frame.Blind : Frame σ β μ → Prop
  | .script rest => rest.Blind
  | .running _ next => (∀ first second, next first = next second) ∧ ∀ result, (next result).Blind
  | .firing => True
  | .destroying next => next.Blind

/-- A callback with the context and the instant that it finds when it is invoked. -/
structure Invocation (β : Type) where
  callback : Callback β
  context : Context
  now : Except Fault Timestamp

/-- What a signal tells of an invocation, in the state that follows it. -/
def Signal.invocation? (after : Simulation σ β) : Signal σ β → Option (Invocation β)
  | .fired _ callback => some ⟨callback, after.context, after.now⟩
  | .destroying _ callback => some ⟨.user callback, after.context, after.now⟩
  | .answered _ _ => none
  | .ran _ => none

namespace Machine

/-- The machines that steps lead to, each with all that was invoked on the way. -/
def Invokes [Hook σ] (body : β → Script σ β μ) (start : Machine σ β μ) :
    List (Invocation β) → Machine σ β μ → Prop :=
  LeadsTo body ⟨fun _ _ => True, Watch.seen Signal.invocation?⟩ [] start

/-- The bearings after a step. Those of cancelled events are passed over. -/
def carry (machine : Machine σ β μ) (signals : List (Signal σ β)) (bearings : Bearings) :
    Bearings :=
  match machine.frames, signals with
  | .running _ _ :: _, [.fired key _] => bearings.enter key
  | .firing :: _, _ => bearings.leave
  | _, _ => bearings

/-- Whatever comes next comes out of these bearings as it does out of the actual ones. -/
def Steady [Hook σ] (machine : Machine σ β μ) (bearings : Bearings) : Prop :=
  let restored := machine.simulation.restored bearings
  match machine.frames with
  | .script (.perform request _) :: _ => request.answer restored =
      (fun (value, after) => (value, after.restored bearings)) <$>
        request.answer machine.simulation
  | .script (.run _) :: _ =>
      restored.beginRun = (·.restored bearings) <$> machine.simulation.beginRun
  | .firing :: _ =>
      restored.finishEvent = (·.restored bearings.leave) <$> machine.simulation.finishEvent
  | .destroying _ :: _ => machine.simulation.destroyEvents ≠ [] →
      restored.context = machine.simulation.context ∧ restored.now = machine.simulation.now
  | _ => True

def Watch.bearings : Watch σ β μ (List (Signal σ β) × Bearings) :=
  Watch.history.beside fun bearings machine signals _ => machine.carry signals bearings

/-- The machines that steps lead to, each with all that was visible and with the bearings that
invoked events have left. -/
def Oriented [Hook σ] (body : β → Script σ β μ) (past : List (Signal σ β))
    (bearings : Bearings) (start : Machine σ β μ) (history : List (Signal σ β))
    (current : Bearings) (machine : Machine σ β μ) : Prop :=
  LeadsTo body .bearings (past, bearings) start (history, current) machine

/-- A lawful program never relies on what cancelled events have done to its bearings. -/
def Undisturbed [Hook σ] (body : β → Script σ β μ) (past : List (Signal σ β))
    (bearings : Bearings) (start : Machine σ β μ) : Prop :=
  ∀ history current machine, Oriented body past bearings start history current machine →
    machine.AsksLawfully history ∧ machine.Steady current

theorem Undisturbed.of_steps [Hook σ] {body : β → Script σ β μ} {past : List (Signal σ β)}
    {bearings : Bearings} {start machine : Machine σ β μ} {last : List (Signal σ β) × Bearings}
    (count : Nat)
    (taken : Watch.bearings.steps body (past, bearings) start count = .ok (last, machine))
    (halted : machine.frames = [])
    (calm : ∀ fewer < count, ∀ noted before,
      Watch.bearings.steps body (past, bearings) start fewer = .ok (noted, before) →
        before.AsksLawfully noted.1 ∧ before.Steady noted.2) :
    Undisturbed body past bearings start := by
  intro history current reached oriented
  obtain ⟨more, arrived⟩ := oriented.exists_steps
  rcases Nat.lt_or_ge more count with below | onward
  · exact calm more below (history, current) reached arrived
  · cases Watch.steps_of_halted taken halted onward arrived
    refine ⟨fun reply request next under here => ?_, ?_⟩
    · rw [halted] at here
      cases here
    · unfold Steady
      rw [halted]
      trivial

end Machine

end EventKernel
