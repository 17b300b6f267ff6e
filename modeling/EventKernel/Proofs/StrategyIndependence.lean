import Mathlib.Tactic.IntervalCases
import EventKernel.Proofs.HandleFinality
import EventKernel.Proofs.StrategyLockstep

set_option autoImplicit false

/-! What a program observes does not depend on how its events are kept. A single list, barriers
and lanes show the same callbacks in the same order, and give the same answers, also where a
program moves its events from one kind of queue to another while it runs. -/

namespace EventKernel

open Queue (Configuration EventQueue)
open Exploration (Hook)

variable {σ β μ : Type}

namespace Machine

/-- The machines that a lawful program reaches, each with all that was visible on the way, and
with what of that can be observed. -/
def Observes [Hook σ] (body : β → Script σ β μ) (start : Machine σ β μ)
    (history : List (Signal σ β)) (observations : List (Observation σ β))
    (machine : Machine σ β μ) : Prop :=
  LeadsTo body (Watch.lawful.beside (Watch.seen Signal.observation?)) ([], []) start
    (history, observations) machine

/-- The execution of a lawful program ends here: it is through, or the next step faults. -/
inductive Ends [Hook σ] (body : β → Script σ β μ) (history : List (Signal σ β))
    (machine : Machine σ β μ) : Option Fault → Prop
  | through (halted : machine.frames = []) : Ends body history machine none
  | failed (fault : Fault) (lawful : machine.AsksLawfully history)
      (stepped : machine.step body = .error fault) : Ends body history machine (some fault)

variable [Hook σ] {body partner : β → Script σ β μ} {first second machine other : Machine σ β μ}
  {observations : List (Observation σ β)} {history past : List (Signal σ β)}
  {entities : Nat} {policy : Bool}

private theorem Observes.exchange (observes : Observes body first history observations machine)
    {replacement : EventQueue σ} {after : Machine σ β μ}
    (exchanges : Exchanges body entities policy machine replacement after) :
    Observes body first (history ++ [.answered (.replaceQueue replacement) ()]) observations
      after :=
  (observes.step (exchanges.lawful history) exchanges.stepped).of_eq
    (Prod.ext rfl (List.append_nil observations))

structure Agrees (body partner : β → Script σ β μ) (first second : Machine σ β μ) (entities : Nat)
    (policy : Bool) (observations : List (Observation σ β)) (history past : List (Signal σ β))
    (machine other : Machine σ β μ) : Prop where
  observes : Observes body first history observations machine
  follows : Observes partner second past observations other
  beside : Beside entities policy history past machine other

namespace Agrees

variable (bodies : ∀ work, (body work).Parallels (EventQueue.Fresh entities policy) (partner work))

include bodies

/-- The second machine catches up with any step of the first. -/
theorem follow (agrees : Agrees body partner first second entities policy observations history past
      machine other) (lawful : machine.AsksLawfully history) {signals : List (Signal σ β)}
    {after : Machine σ β μ} (stepped : machine.step body = .ok (signals, after)) :
    ∃ past other, Agrees body partner first second entities policy
      (observations ++ signals.filterMap (Signal.observation? after.simulation))
      (history ++ signals) past after other := by
  -- The second machine may exchange its queue several times before it takes the step.
  induction left : other.exchanges using Nat.strongRecOn generalizing other past with
  | ind count ih =>
      have observes : Observes body first (history ++ signals)
          (observations ++ signals.filterMap (Signal.observation? after.simulation)) after :=
        agrees.observes.step lawful stepped
      cases agrees.beside.step bodies lawful with
      | left replacement later exchanges further =>
          cases exchanges.stepped.symm.trans stepped
          have unseen := (List.append_nil observations).symm
          exact ⟨past, other, observes, agrees.follows.of_eq (Prod.ext rfl unseen), further⟩
      | right replacement later exchanges further =>
          exact ih _ (left ▸ exchanges.fewer)
            ⟨agrees.observes, agrees.follows.exchange exchanges, further⟩ rfl
      | both allowed alike =>
          obtain ⟨⟨others, later⟩, otherStepped, further, same⟩ := alike.returns stepped
          exact ⟨_, later, observes,
            (agrees.follows.step allowed otherStepped).of_eq
              (Prod.ext rfl (congrArg (observations ++ ·) same.symm)), further⟩

private theorem ends
    (agrees : Agrees body partner first second entities policy observations history past
      machine other) {ending : Option Fault} (ends : Ends body history machine ending) :
    ∃ past other, Observes partner second past observations other ∧
      Ends partner past other ending := by
  cases ends with
  | through halted =>
      have nothing := agrees.beside.frames
      rw [halted] at nothing
      exact ⟨past, other, agrees.follows, .through (List.forall₂_nil_left_iff.mp nothing)⟩
  | failed fault lawful stepped =>
      induction left : other.exchanges using Nat.strongRecOn generalizing other past with
      | ind count ih =>
          cases agrees.beside.step bodies lawful with
          | left replacement later exchanges further =>
              cases exchanges.stepped.symm.trans stepped
          | right replacement later exchanges further =>
              exact ih _ (left ▸ exchanges.fewer)
                ⟨agrees.observes, agrees.follows.exchange exchanges, further⟩ rfl
          | both allowed alike =>
              exact ⟨past, other, agrees.follows,
                .failed fault allowed (alike.fails stepped)⟩

end Agrees

private theorem Observes.agrees
    (bodies : ∀ work, (body work).Parallels (EventQueue.Fresh entities policy) (partner work))
    (together : Beside entities policy [] [] first second)
    (observes : Observes body first history observations machine) :
    ∃ past other, Agrees body partner first second entities policy observations history past
      machine other := by
  refine observes.keeps (motive := fun noted machine => ∃ past other,
    Agrees body partner first second entities policy noted.2 noted.1 past machine other) ?_ ?_
  · exact ⟨[], second, .start, .start, together⟩
  · rintro noted signals machine after _ lawful stepped ⟨past, other, agrees⟩
    exact agrees.follow bodies lawful stepped

end Machine

private theorem Simulation.interchanged_of_new {configuration partner : Configuration}
    {entities : Nat} {policy : Bool} (hook twin : σ) (valid : configuration.validate = .ok (.ok ()))
    (partnerValid : partner.validate = .ok (.ok ()))
    (ordinary : configuration.Ordinary entities policy)
    (partnerOrdinary : partner.Ordinary entities policy) :
    ∃ first second : Simulation σ β, Simulation.new configuration hook = .ok (.ok first) ∧
      Simulation.new partner twin = .ok (.ok second) ∧
      Interchanged entities policy (Given ([] : List (Signal σ β))) first second := by
  obtain ⟨first, started, booked⟩ := booked_of_new (β := β) hook valid
  obtain ⟨second, otherStarted, _⟩ := booked_of_new (β := β) twin partnerValid
  obtain ⟨queue, built, rfl⟩ := ofQueue_of_new started
  obtain ⟨otherQueue, otherBuilt, rfl⟩ := ofQueue_of_new otherStarted
  have fresh : queue.Fresh entities policy := ⟨configuration, hook, ordinary, built⟩
  have otherFresh : otherQueue.Fresh entities policy :=
    ⟨partner, twin, partnerOrdinary, otherBuilt⟩
  refine ⟨_, _, started, otherStarted, [], otherQueue, ?_, ordinary.covers ▸ booked, fresh.plain,
    otherFresh.holds, otherFresh.plain⟩
  unfold ofQueue
  rw [fresh.entities_eq, otherFresh.entities_eq]

namespace Machine

/-- Two programs that differ in where they exchange their queues, under two configurations that
differ in how events are kept: each observes what the other observes, and each ends where the
other ends, with the same fault if with any. -/
theorem strategies_observe_alike (configuration partner : Configuration) (entities : Nat)
    (policy : Bool) (hook twin : σ) (valid : configuration.validate = .ok (.ok ()))
    (partnerValid : partner.validate = .ok (.ok ()))
    (ordinary : configuration.Ordinary entities policy)
    (partnerOrdinary : partner.Ordinary entities policy) [Hook σ] (memory : μ)
    (script other : Script σ β μ) (body otherBody : β → Script σ β μ)
    (scripts : script.Parallels (EventQueue.Fresh entities policy) other)
    (bodies : ∀ work, (body work).Parallels (EventQueue.Fresh entities policy) (otherBody work)) :
    ∃ first second : Simulation σ β, Simulation.new configuration hook = .ok (.ok first) ∧
      Simulation.new partner twin = .ok (.ok second) ∧ second.view = first.view ∧
      ∀ observations,
        ((∃ history machine, Observes body (.start first memory script) history observations
            machine) ↔
          ∃ history machine, Observes otherBody (.start second memory other) history observations
            machine) ∧
        ∀ ending,
          (∃ history machine, Observes body (.start first memory script) history observations
              machine ∧ Ends body history machine ending) ↔
            ∃ history machine, Observes otherBody (.start second memory other) history
              observations machine ∧ Ends otherBody history machine ending := by
  obtain ⟨first, second, started, otherStarted, interchanged⟩ :=
    Simulation.interchanged_of_new hook twin valid partnerValid ordinary partnerOrdinary
  have together : Beside entities policy [] [] (start first memory script)
      (start second memory other) :=
    ⟨fun _ => Iff.rfl, interchanged, rfl, .cons (.script scripts) .nil⟩
  have others := fun work => (bodies work).symm
  refine ⟨first, second, started, otherStarted, interchanged.view_eq, fun observations =>
    ⟨⟨?_, ?_⟩, fun ending => ⟨?_, ?_⟩⟩⟩
  · rintro ⟨history, machine, observes⟩
    obtain ⟨past, counterpart, agrees⟩ := observes.agrees bodies together
    exact ⟨past, counterpart, agrees.follows⟩
  · rintro ⟨history, machine, observes⟩
    obtain ⟨past, counterpart, agrees⟩ := observes.agrees others together.symm
    exact ⟨past, counterpart, agrees.follows⟩
  · rintro ⟨history, machine, observes, ends⟩
    obtain ⟨past, counterpart, agrees⟩ := observes.agrees bodies together
    exact agrees.ends bodies ends
  · rintro ⟨history, machine, observes, ends⟩
    obtain ⟨past, counterpart, agrees⟩ := observes.agrees others together.symm
    exact agrees.ends others ends

def twoLanes : Configuration :=
  { twoEntities with strategies := ⟨true, true, true, true, false⟩ }

def plannedOnce : Script Exploration.Silent Bool Unit :=
  .perform (.schedule (.within (.node ⟨0⟩) 1) true) fun _ => .run fun _ => .done

def messageOnce : Bool → Script Exploration.Silent Bool Unit
  | true => .perform (.schedule (.message (.node ⟨0⟩) (.node ⟨1⟩) 5 none) false) fun _ => .done
  | false => .done

def messageOnceMoved (replacement : EventQueue Exploration.Silent) :
    Bool → Script Exploration.Silent Bool Unit
  | true =>
      .perform (.schedule (.message (.node ⟨0⟩) (.node ⟨1⟩) 5 none) false) fun _ =>
        .perform (.replaceQueue replacement) fun _ => .done
  | false => .done

/-- A message is received at instant six, also when it moves from lanes into a single list while
it is under way. -/
theorem strategies_observe_alike_moved :
    ∃ (replacement : EventQueue Exploration.Silent)
      (second : Simulation Exploration.Silent Bool),
      EventQueue.new twoEntities .silent = .ok (.ok replacement) ∧
      Simulation.new twoLanes .silent = .ok (.ok second) ∧
      ∃ observations history machine, Observes (messageOnceMoved replacement)
          (.start second () plannedOnce) history observations machine ∧
        Ends (messageOnceMoved replacement) history machine none ∧
        (observations.map fun observation => (observation.view.context, observation.view.now)) =
          [(.global, .ok ⟨0⟩), (.node ⟨0⟩, .ok ⟨1⟩), (.node ⟨0⟩, .ok ⟨1⟩), (.node ⟨1⟩, .ok ⟨6⟩),
            (.global, .ok ⟨0⟩)] := by
  obtain ⟨replacement, built⟩ : ∃ queue,
      EventQueue.new twoEntities Exploration.Silent.silent = .ok (.ok queue) := ⟨_, rfl⟩
  have fresh : replacement.Fresh 2 true := ⟨twoEntities, .silent, ⟨rfl, rfl, rfl, rfl⟩, built⟩
  obtain ⟨first, second, started, otherStarted, _, alike⟩ := strategies_observe_alike
    twoEntities twoLanes 2 true Exploration.Silent.silent Exploration.Silent.silent rfl rfl
    ⟨rfl, rfl, rfl, rfl⟩ ⟨rfl, rfl, rfl, rfl⟩ () plannedOnce plannedOnce messageOnce
    (messageOnceMoved replacement) (.perform trivial fun _ => .run fun _ => .done)
    fun work => by
      cases work with
      | true => exact .perform trivial fun _ => .exchanged fresh .done
      | false => exact .done
  have observed : ∃ observations history machine, Observes messageOnce
        (.start first () plannedOnce) history observations machine ∧
      Ends messageOnce history machine none ∧
      (observations.map fun observation => (observation.view.context, observation.view.now)) =
        [(.global, .ok ⟨0⟩), (.node ⟨0⟩, .ok ⟨1⟩), (.node ⟨0⟩, .ok ⟨1⟩), (.node ⟨1⟩, .ok ⟨6⟩),
          (.global, .ok ⟨0⟩)] := by
    cases started
    refine ⟨_, _, _, .of_steps 11 rfl ?_, .through rfl, rfl⟩
    intro fewer below past before taken reply request next under here
    interval_cases fewer <;> cases taken <;> cases here
    all_goals trivial
  obtain ⟨observations, history, machine, observes, ends, seen⟩ := observed
  obtain ⟨past, other, otherObserves, otherEnds⟩ :=
    ((alike observations).2 none).mp ⟨history, machine, observes, ends⟩
  exact ⟨replacement, second, built, otherStarted, observations, past, other, otherObserves,
    otherEnds, seen⟩

end Machine

end EventKernel
