import Mathlib.Tactic.IntervalCases
import EventKernel.Proofs.PolicyLockstep

set_option autoImplicit false

/-! The policy about cancelled events, as callbacks see it. An event that was cancelled in place
still moves its clock and leaves its context when its turn comes, so a program that afterwards
relies on either can tell. A program that relies on neither invokes the same callbacks in the
same bearings under both policies. -/

namespace EventKernel

open Queue (Configuration EventQueue)
open Exploration (Hook)

variable {σ β μ : Type}

def Queue.Configuration.underPolicy (configuration : Configuration) (removeCancelled : Bool) :
    Configuration :=
  { configuration with strategies := { configuration.strategies with removeCancelled } }

namespace Machine

variable [Hook σ] {body : β → Script σ β μ} {first second keeping removing after : Machine σ β μ}
  {invocations : List (Invocation β)} {start bearings : Bearings}
  {history signals : List (Signal σ β)} {entities : Nat}

structure Alongside (body : β → Script σ β μ) (start : Bearings) (first second : Machine σ β μ)
    (entities : Nat) (invocations : List (Invocation β)) (history : List (Signal σ β))
    (bearings : Bearings) (keeping removing : Machine σ β μ) : Prop where
  oriented : Oriented body [] start first history bearings keeping
  keeps : Invokes body first invocations keeping
  removes : Invokes body second invocations removing
  abreast : Abreast entities history bearings keeping removing
  orderly : keeping.Orderly entities

namespace Alongside

variable (alongside : Alongside body start first second entities invocations history bearings
    keeping removing)
  (bodies : ∀ work, (body work).Blind) (undisturbed : Undisturbed body [] start first)

include alongside bodies undisturbed

/-- A step of the one machine is a turn of its own, or has its counterpart. -/
theorem step :
    (∃ after, keeping.step body = .ok ([], after) ∧
      Alongside body start first second entities invocations history bearings after removing ∧
      after.simulation.queue.size < keeping.simulation.queue.size) ∨
    Alike (fun left right => left.1.filterMap (Signal.invocation? left.2.simulation) =
          right.1.filterMap (Signal.invocation? right.2.simulation) ∧
        Alongside body start first second entities
          (invocations ++ left.1.filterMap (Signal.invocation? left.2.simulation))
          (history ++ left.1) (keeping.carry left.1 bearings) left.2 right.2)
      (keeping.step body) (removing.step body) := by
  obtain ⟨oriented, keeps, removes, abreast, orderly⟩ := alongside
  obtain ⟨lawful, steady⟩ := undisturbed history bearings keeping oriented
  obtain ⟨held, booked⟩ := abreast.booked orderly
  have advances {signals : List (Signal σ β)} {after : Machine σ β μ}
      (stepped : keeping.step body = .ok (signals, after)) : after.Orderly entities :=
    (step_eq_ok stepped).orderly lawful bodies booked abreast.hinted orderly
  rcases abreast.step orderly lawful steady with ⟨after, stepped, here, waits, fewer⟩ | both
  · left
    obtain ⟨before, next, below, here⟩ := here
    have still : keeping.carry ([] : List (Signal σ β)) bearings = bearings := by
      unfold carry
      rw [here]
    have further : Oriented body [] start first history bearings after :=
      (oriented.step trivial stepped).of_eq (Prod.ext (List.append_nil history) still)
    have invoked : Invokes body first invocations after :=
      (keeps.step trivial stepped).of_eq (List.append_nil invocations)
    exact ⟨after, stepped, ⟨further, invoked, removes, waits, advances stepped⟩, fewer⟩
  · right
    refine both.imp ?_
    rintro ⟨signals, after⟩ ⟨otherSignals, last⟩ stepped otherStepped ⟨side, same⟩
    exact ⟨same, oriented.step trivial stepped, keeps.step trivial stepped,
      (removes.step trivial otherStepped).of_eq (congrArg (invocations ++ ·) same.symm), side,
      advances stepped⟩

private theorem follows {signals : List (Signal σ β)} {after : Machine σ β μ}
    (stepped : removing.step body = .ok (signals, after)) :
    ∃ history bearings keeping, Alongside body start first second entities
      (invocations ++ signals.filterMap (Signal.invocation? after.simulation)) history bearings
      keeping after := by
  -- The queue of this machine shrinks while the other one waits.
  induction left : keeping.simulation.queue.size using Nat.strongRecOn generalizing keeping with
  | ind size ih =>
      rcases alongside.step bodies undisturbed with ⟨next, _, further, fewer⟩ | both
      · exact ih _ (left ▸ fewer) further rfl
      · obtain ⟨_, _, same, further⟩ := both.returned stepped
        rw [same] at further
        exact ⟨_, _, _, further⟩

end Alongside

private theorem Invokes.alongside
    (together : Alongside body start first second entities [] [] start first
      second) (bodies : ∀ work, (body work).Blind) (undisturbed : Undisturbed body [] start first)
    (invokes : Invokes body first invocations keeping) :
    ∃ history bearings removing, Alongside body start first second entities invocations history
      bearings keeping removing := by
  refine invokes.keeps (motive := fun invocations keeping =>
    ∃ history bearings removing, Alongside body start first second entities invocations history
      bearings keeping removing) ⟨[], start, second, together⟩ ?_
  rintro invocations signals keeping after _ _ stepped ⟨history, bearings, removing, alongside⟩
  rcases alongside.step bodies undisturbed with ⟨next, skipped, further, _⟩ | both
  · rw [skipped] at stepped
    cases stepped
    have still : invocations ++ [] = invocations := List.append_nil invocations
    exact ⟨_, _, _, still ▸ further⟩
  · obtain ⟨⟨_, _⟩, _, _, further⟩ := both.returns stepped
    exact ⟨_, _, _, further⟩

private theorem Invokes.followed
    (together : Alongside body start first second entities [] [] start first
      second) (bodies : ∀ work, (body work).Blind) (undisturbed : Undisturbed body [] start first)
    (invokes : Invokes body second invocations removing) :
    ∃ history bearings keeping, Alongside body start first second entities invocations history
      bearings keeping removing := by
  refine invokes.keeps (motive := fun invocations removing =>
    ∃ history bearings keeping, Alongside body start first second entities invocations history
      bearings keeping removing) ⟨[], start, first, together⟩ ?_
  rintro invocations signals removing after _ _ stepped ⟨history, bearings, keeping, alongside⟩
  exact alongside.follows bodies undisturbed stepped

end Machine

namespace Simulation

variable {configuration : Configuration}

private theorem started_under (hook : σ) (valid : configuration.validate = .ok (.ok ()))
    (credits : configuration.strategies.localListsV2 = false)
    (quiet : configuration.exploration.enabled = false) (policy : Bool) :
    ∃ queue : EventQueue σ,
      (Simulation.new (configuration.underPolicy policy) hook :
        Except Fault (Except _ (Simulation σ β))) = .ok (.ok (ofQueue queue)) ∧
      (ofQueue queue : Simulation σ β).Booked configuration.entities []
        (Given ([] : List (Signal σ β))) ∧
      queue.Plain policy ∧ queue.entities = configuration.entities := by
  have accepted : (configuration.underPolicy policy).validate = .ok (.ok ()) := valid
  obtain ⟨simulation, started, booked⟩ := booked_of_new (β := β) hook accepted
  obtain ⟨queue, built, rfl⟩ := ofQueue_of_new started
  have uncredited : (configuration.underPolicy policy).strategies.localListsV2 = false := credits
  have same : queue.entities = (configuration.underPolicy policy).entities :=
    congrArg Configuration.entities (EventQueue.configuration_of_new built)
  exact ⟨queue, started, booked, .of_new uncredited quiet built, same⟩

private theorem mirrored_of_new (hook : σ) (valid : configuration.validate = .ok (.ok ()))
    (credits : configuration.strategies.localListsV2 = false)
    (quiet : configuration.exploration.enabled = false) :
    ∃ keeping removing : Simulation σ β,
      Simulation.new (configuration.underPolicy false) hook = .ok (.ok keeping) ∧
      Simulation.new (configuration.underPolicy true) hook = .ok (.ok removing) ∧
      Mirrored configuration.entities (Given ([] : List (Signal σ β))) keeping removing ∧
      keeping.localClocks.length = configuration.entities := by
  obtain ⟨kept, keeps, keptBooked, keptPlain, keptSize⟩ :=
    started_under hook valid credits quiet false
  obtain ⟨left, removes, leftBooked, leftPlain, leftSize⟩ :=
    started_under hook valid credits quiet true
  refine ⟨_, _, keeps, removes, ⟨[], [], keptBooked, leftBooked, keptPlain, leftPlain,
    List.forall_mem_nil _, List.forall_mem_nil _, rfl, left, .empty, 0, ?_⟩, keptBooked.clocks⟩
  unfold ofQueue
  rw [keptSize, leftSize]

end Simulation

namespace Machine

/-- If a program that does not look at the queue is not disturbed by what cancelled events do
to the clocks and to the current context, then it invokes the same callbacks under both
policies, in the same order and each in the same context and at the same instant. -/
theorem policies_invoke_alike (configuration : Configuration) (hook : σ)
    (valid : configuration.validate = .ok (.ok ()))
    (credits : configuration.strategies.localListsV2 = false)
    (quiet : configuration.exploration.enabled = false) [Hook σ] (memory : μ)
    (script : Script σ β μ) (body : β → Script σ β μ) (blind : script.Blind)
    (bodies : ∀ work, (body work).Blind) :
    ∃ keeping removing : Simulation σ β,
      Simulation.new (configuration.underPolicy false) hook = .ok (.ok keeping) ∧
      Simulation.new (configuration.underPolicy true) hook = .ok (.ok removing) ∧
      (Undisturbed body [] keeping.bearings (.start keeping memory script) →
        ∀ invocations halted,
          (∃ last, Invokes body (.start keeping memory script) invocations last ∧
            last.isHalted = halted) ↔
          ∃ last, Invokes body (.start removing memory script) invocations last ∧
            last.isHalted = halted) := by
  obtain ⟨keeping, removing, keeps, removes, mirrored, clocks⟩ :=
    Simulation.mirrored_of_new hook valid credits quiet
  refine ⟨keeping, removing, keeps, removes, fun undisturbed invocations halted => ?_⟩
  have orderly : (start keeping memory script).Orderly configuration.entities :=
    ⟨clocks, List.forall_mem_singleton.mpr blind,
      ⟨fun _ impossible => (nomatch impossible), trivial⟩,
      fun top first runs => by cases first; cases runs⟩
  have together : Alongside body keeping.bearings (start keeping memory script)
      (start removing memory script) configuration.entities [] [] keeping.bearings
      (start keeping memory script) (start removing memory script) :=
    ⟨.start, .start, .start, ⟨mirrored, rfl, rfl⟩, orderly⟩
  constructor
  · rintro ⟨last, invokes, ends⟩
    obtain ⟨_, _, other, alongside⟩ := invokes.alongside together bodies undisturbed
    refine ⟨other, alongside.removes, ?_⟩
    rw [← ends]
    exact congrArg List.isEmpty alongside.abreast.frames
  · rintro ⟨last, invokes, ends⟩
    obtain ⟨_, _, other, alongside⟩ := invokes.followed together bodies undisturbed
    refine ⟨other, alongside.keeps, ?_⟩
    rw [← ends]
    exact (congrArg List.isEmpty alongside.abreast.frames).symm

def planningAfterCancelled : Script Exploration.Silent Bool Unit :=
  .perform (.schedule (.within .global 10) false) fun handle =>
    .perform (.cancel handle) fun _ =>
      .perform (.schedule (.within .global 20) true) fun _ =>
        .run fun _ => .done

def planningOnce : Bool → Script Exploration.Silent Bool Unit
  | true => .perform (.schedule (.here .undefined 5 none) false) fun _ => .done
  | false => .done

/-- A cancelled event passes while a program runs that does not rely on it. -/
theorem policies_invoke_alike_planning :
    ∃ keeping removing : Simulation Exploration.Silent Bool,
      Simulation.new (keepingConfiguration.underPolicy false) .silent = .ok (.ok keeping) ∧
      Simulation.new (keepingConfiguration.underPolicy true) .silent = .ok (.ok removing) ∧
      Undisturbed planningOnce [] keeping.bearings (.start keeping () planningAfterCancelled) ∧
      ∃ last, Invokes planningOnce (.start removing () planningAfterCancelled)
        [⟨.user true, .global, .ok ⟨20⟩⟩, ⟨.user false, .global, .ok ⟨25⟩⟩] last ∧
          last.isHalted = true := by
  obtain ⟨keeping, removing, keeps, removes, alike⟩ := policies_invoke_alike keepingConfiguration
    Exploration.Silent.silent rfl rfl rfl () planningAfterCancelled planningOnce
    ⟨trivial, fun _ => ⟨trivial, fun _ => ⟨trivial, fun _ => ⟨fun _ _ => rfl, fun _ => trivial⟩⟩⟩⟩
    fun work => by
      cases work with
      | true => exact ⟨trivial, fun _ => trivial⟩
      | false => trivial
  have undisturbed : Undisturbed planningOnce [] keeping.bearings
      (.start keeping () planningAfterCancelled) := by
    cases keeps
    refine .of_steps 14 rfl rfl fun fewer below noted before taken => ⟨?_, ?_⟩
    · intro reply request next under here
      interval_cases fewer <;> cases taken <;> cases here
      · trivial
      · exact ⟨_, List.mem_cons_self, .scheduled _ _⟩
      · trivial
      · trivial
    · interval_cases fewer <;> cases taken <;> first | rfl | trivial
  have invoked : ∃ last, Invokes planningOnce (.start keeping () planningAfterCancelled)
      [⟨.user true, .global, .ok ⟨20⟩⟩, ⟨.user false, .global, .ok ⟨25⟩⟩] last ∧
        last.isHalted = true := by
    cases keeps
    exact ⟨_, .of_steps 14 rfl fun _ _ _ _ _ => trivial, rfl⟩
  exact ⟨keeping, removing, keeps, removes, undisturbed, (alike undisturbed _ true).mp invoked⟩

def planningFromCancelled : Script Exploration.Silent Unit Unit :=
  .perform (.schedule (.within .global 10) ()) fun handle =>
    .perform (.cancel handle) fun _ =>
      .run fun _ =>
        .perform (.schedule (.within .global 1) ()) fun _ =>
          .run fun _ => .done

/-- The cancelled event has moved the clock, so what is planned from there comes later than
where the event was removed. -/
theorem policies_invoke_apart :
    ∃ keeping removing : Simulation Exploration.Silent Unit,
      Simulation.new (keepingConfiguration.underPolicy false) .silent = .ok (.ok keeping) ∧
      Simulation.new (keepingConfiguration.underPolicy true) .silent = .ok (.ok removing) ∧
      planningFromCancelled.Blind ∧
      (∃ last, Invokes (fun _ => .done) (.start keeping () planningFromCancelled)
        [⟨.user (), .global, .ok ⟨11⟩⟩] last ∧ last.isHalted = true) ∧
      ∃ last, Invokes (fun _ => .done) (.start removing () planningFromCancelled)
        [⟨.user (), .global, .ok ⟨1⟩⟩] last ∧ last.isHalted = true := by
  refine ⟨_, _, rfl, rfl, ⟨trivial, fun _ => ⟨trivial, fun _ => ⟨fun _ _ => rfl, fun _ =>
    ⟨trivial, fun _ => ⟨fun _ _ => rfl, fun _ => trivial⟩⟩⟩⟩⟩, ?_, ?_⟩
  · exact ⟨_, .of_steps 12 rfl fun _ _ _ _ _ => trivial, rfl⟩
  · exact ⟨_, .of_steps 11 rfl fun _ _ _ _ _ => trivial, rfl⟩

end Machine

end EventKernel
