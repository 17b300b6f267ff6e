import Mathlib.Tactic.IntervalCases
import EventKernel.Proofs.RenewedQueues
import EventKernel.Proofs.StrategyIndependence

set_option autoImplicit false

/-! A program moves its events into a new queue of the configuration that it has already. What it
observes from there on is what it would have observed if its queue had only forgotten its
credit. Where no credit is held this is nothing at all. Where a message has reached its
destination and has not been consumed, it is forgotten that its receiver may send. -/

namespace EventKernel

open Queue (Configuration EventQueue)
open Exploration (Hook)
open Simulation (Renewed)

variable {σ β μ : Type}

/-! ### Programs -/

/-- A script that goes on alike whatever the description of its queue and the count of deadlocks
are, and replaces its queue by unexplored ones only. -/
inductive Script.Incurious : Script σ β μ → Prop
  | done : Incurious .done
  | fail (fault : Fault) : Incurious (.fail fault)
  | recall {next : μ → Script σ β μ} (follow : ∀ memory, (next memory).Incurious) :
      Incurious (.recall next)
  | remember (memory : μ) {next : Script σ β μ} (follow : next.Incurious) :
      Incurious (.remember memory next)
  | perform {reply : Reply} {request : Request σ β reply} {next : reply.Value → Script σ β μ}
      (comparable : request.Comparable) (follow : ∀ value, (next value).Incurious) :
      Incurious (.perform request next)
  | configuration {next : Configuration → Script σ β μ}
      (follow : ∀ configuration, (next configuration).Incurious) :
      Incurious (.perform .configuration next)
  | inspect {reply : Reply} {request : Request σ β reply} {next : reply.Value → Script σ β μ}
      (inspects : request.Inspects) (same : ∀ value answer, next value = next answer)
      (follow : ∀ value, (next value).Incurious) : Incurious (.perform request next)
  | replaceQueue {replacement : EventQueue σ} {next : Unit → Script σ β μ}
      (quiet : replacement.configuration.exploration.enabled = false)
      (follow : (next ()).Incurious) : Incurious (.perform (.replaceQueue replacement) next)
  | run {next : Except BranchEnded RunSummary → Script σ β μ}
      (same : ∀ summary, next (.ok summary.levelled) = next (.ok summary))
      (follow : ∀ result, (next result).Incurious) : Incurious (.run next)
  | destroy {next : Script σ β μ} (follow : next.Incurious) : Incurious (.destroy next)

inductive Frame.Incurious : Frame σ β μ → Prop
  | script {rest : Script σ β μ} (follow : rest.Incurious) : Incurious (.script rest)
  | running (before : Nat) {next : Except BranchEnded RunSummary → Script σ β μ}
      (same : ∀ summary, next (.ok summary.levelled) = next (.ok summary))
      (follow : ∀ result, (next result).Incurious) : Incurious (.running before next)
  | firing : Incurious .firing
  | destroying {next : Script σ β μ} (follow : next.Incurious) : Incurious (.destroying next)

private theorem next_eq_of_levelled {next : Except BranchEnded RunSummary → Script σ β μ}
    (same : ∀ summary, next (.ok summary.levelled) = next (.ok summary))
    {result other : Except BranchEnded RunSummary}
    (level : RunSummary.levelled <$> result = RunSummary.levelled <$> other) :
    next result = next other := by
  cases result with
  | error ended =>
      cases other with
      | error last => exact congrArg (fun reason => next (.error reason)) (Except.error.inj level)
      | ok summary => cases level
  | ok summary =>
      cases other with
      | error last => cases level
      | ok last =>
          rw [← same summary, ← same last]
          exact congrArg next level

/-! ### Observations -/

/-- The same signal, where the answer of a run does not tell how many deadlocks were met. -/
def Signal.levelled : Signal σ β → Signal σ β
  | .ran result => .ran (RunSummary.levelled <$> result)
  | signal => signal

/-- What a signal lets observe in the state that follows it, apart from counts of deadlocks. -/
def Signal.sight? (after : Simulation σ β) (signal : Signal σ β) : Option (Observation σ β) :=
  (signal.observation? after).map fun observation =>
    { observation with signal := observation.signal.levelled }

namespace Simulation.Renewed

variable {entities : Nat} {given : Handle → Prop} {first second : Simulation σ β}
  {history : List (Signal σ β)}

private theorem view_eq (renewed : Renewed entities given first second) :
    second.view = first.view := by
  have pending := renewed.pending_eq
  have expired := funext renewed.isExpired_eq
  have left := funext renewed.delayLeft_eq
  unfold view
  rw [pending, expired, left, renewed.elsewhere]
  rfl

variable (renewed : Renewed entities (Given history) first second)

include renewed

private theorem answer [Hook σ] {reply : Reply} {request : Request σ β reply}
    (comparable : request.Comparable) (lawful : request.Lawful history) :
    Alike (fun left right => left.1 = right.1 ∧
        Renewed entities (Given (history ++ [.answered request left.1])) left.2 right.2)
      (request.answer first) (request.answer second) := by
  have pending := renewed.pending_eq
  cases request with
  | pending => exact ⟨pending.symm, coupling.told renewed fun _ gives => nomatch gives⟩
  | detail =>
      have same := renewed.elsewhere
      refine ⟨?_, coupling.told renewed fun _ gives => nomatch gives⟩
      change first.detail = second.detail
      unfold detail
      rw [pending, same]
  | replaceQueue | describe | trace | configuration => exact comparable.elim
  | _ => exact coupling.answer renewed trivial lawful

private theorem replaced [Hook σ] {replacement : EventQueue σ} {configuration : Configuration}
    {hook : σ} (built : EventQueue.new configuration hook = .ok (.ok replacement))
    (quiet : configuration.exploration.enabled = false) :
    Alike (fun left right => left.1 = right.1 ∧ Renewed entities
        (Given (history ++ [.answered (.replaceQueue replacement) left.1])) left.2 right.2)
      (Request.answer first (.replaceQueue replacement))
      (Request.answer second (.replaceQueue replacement)) :=
  (renewed.replaceQueue built quiet).bind fun _ _ _ _ kept =>
    ⟨rfl, coupling.told kept fun _ gives => nomatch gives⟩

end Simulation.Renewed

namespace Machine

/-! ### Steps side by side -/

/-- The same program on two machines whose queues hold the same events and the same credit. -/
structure SideBySide (entities : Nat) (history past : List (Signal σ β))
    (first second : Machine σ β μ) : Prop where
  shares : SharesHandles history past
  simulations : Renewed entities (Given history) first.simulation second.simulation
  memory : second.memory = first.memory
  frames : second.frames = first.frames
  incurious : ∀ frame ∈ first.frames, frame.Incurious

/-- Two steps that lead on side by side and let the same be observed. -/
def Concurs (entities : Nat) (history past : List (Signal σ β))
    (left right : List (Signal σ β) × Machine σ β μ) : Prop :=
  SideBySide entities (history ++ left.1) (past ++ right.1) left.2 right.2 ∧
    left.1.filterMap (Signal.sight? left.2.simulation) =
      right.1.filterMap (Signal.sight? right.2.simulation)

section

variable {history past : List (Signal σ β)} {entities : Nat} {after last : Simulation σ β}
  {memory : μ} {frames : List (Frame σ β μ)} (shares : SharesHandles history past)

include shares

private theorem concurs_silently (kept : Renewed entities (Given history) after last)
    (incurious : ∀ frame ∈ frames, frame.Incurious) :
    Concurs entities history past ([], ⟨after, memory, frames⟩) ([], ⟨last, memory, frames⟩) := by
  unfold Concurs
  simp only [List.append_nil]
  exact ⟨⟨shares, kept, rfl, rfl, incurious⟩, rfl⟩

private theorem concurs_telling {signal : Signal σ β}
    (kept : Renewed entities (Given (history ++ [signal])) after last)
    (incurious : ∀ frame ∈ frames, frame.Incurious) :
    Concurs entities history past ([signal], ⟨after, memory, frames⟩)
      ([signal], ⟨last, memory, frames⟩) := by
  refine ⟨⟨shares.append _, kept, rfl, rfl, incurious⟩, ?_⟩
  unfold Signal.sight?
  simp only [List.filterMap_cons, List.filterMap_nil, Signal.observation?_eq kept.view_eq]

private theorem concurs_apart [Hook σ] {signal other : Signal σ β}
    (nothing : ∀ handle, ¬ signal.Gives handle) (others : ∀ handle, ¬ other.Gives handle)
    (kept : Renewed entities (Given history) after last)
    (incurious : ∀ frame ∈ frames, frame.Incurious)
    (same : signal.sight? after = other.sight? last) :
    Concurs entities history past ([signal], ⟨after, memory, frames⟩)
      ([other], ⟨last, memory, frames⟩) := by
  refine ⟨⟨((shares.hear nothing).symm.hear others).symm, Renewed.coupling.told kept nothing,
    rfl, rfl, incurious⟩, ?_⟩
  simp only [List.filterMap_cons, List.filterMap_nil, same]

end

namespace SideBySide

variable [Hook σ] {body : β → Script σ β μ} {first second : Machine σ β μ}
  {history past : List (Signal σ β)} {entities : Nat} {below : List (Frame σ β μ)}
  (together : SideBySide entities history past first second)

include together

omit [Hook σ] in
private theorem symm : SideBySide entities past history second first where
  shares := together.shares.symm
  simulations := together.simulations.symm.weaken fun handle => (together.shares handle).mpr
  memory := together.memory.symm
  frames := together.frames.symm
  incurious := together.frames ▸ together.incurious

omit [Hook σ] in
private theorem lawful (asked : first.AsksLawfully history) : second.AsksLawfully past :=
  fun reply request next below here =>
    together.shares.lawful (asked reply request next below (together.frames ▸ here))

private theorem script {rest : Script σ β μ} (here : first.frames = .script rest :: below)
    (asked : first.AsksLawfully history) :
    Alike (Concurs entities history past) (first.step body) (second.step body) := by
  obtain ⟨simulation, memory, frames⟩ := first
  obtain ⟨otherSimulation, otherMemory, otherFrames⟩ := second
  obtain ⟨shares, renewed, rfl, rfl, incurious⟩ := together
  cases here
  obtain ⟨top, lower⟩ := List.forall_mem_cons.mp incurious
  have on {next : Script σ β μ} (follow : next.Incurious) :
      ∀ frame ∈ Frame.script next :: below, frame.Incurious :=
    List.forall_mem_cons.mpr ⟨.script follow, lower⟩
  cases top with
  | script follow =>
  cases follow with
  | done => exact concurs_silently shares renewed lower
  | fail fault => exact rfl
  | «recall» follow => exact concurs_silently shares renewed (on (follow _))
  | remember memory follow => exact concurs_silently shares renewed (on follow)
  | destroy follow =>
      exact concurs_silently shares renewed (List.forall_mem_cons.mpr ⟨.destroying follow, lower⟩)
  | @perform reply request next comparable follow =>
      refine (renewed.answer comparable (asked _ request next below rfl)).bind ?_
      rintro ⟨value, after⟩ ⟨_, last⟩ _ _ ⟨rfl, kept⟩
      exact concurs_telling shares kept (on (follow value))
  | @configuration next follow =>
      have same : otherSimulation.queue.configuration = simulation.queue.configuration :=
        renewed.configuration_eq
      refine .of_ok rfl rfl ?_
      rw [same]
      exact concurs_telling shares
        (Renewed.coupling.told renewed fun _ gives => (nomatch gives)) (on (follow _))
  | @inspect reply request next inspects same follow =>
      obtain ⟨value, answer, answered, otherAnswered⟩ : ∃ value answer,
          request.answer simulation = .ok (value, simulation) ∧
          request.answer otherSimulation = .ok (answer, otherSimulation) := by
        cases request with
        | describe | trace | configuration => exact ⟨_, _, rfl, rfl⟩
        | _ => exact inspects.elim
      unfold step
      simp only [stepScript, answered, otherAnswered, bind, Except.bind]
      rw [same answer value]
      refine concurs_apart shares (inspects.gives_nothing value) (inspects.gives_nothing answer)
        renewed (on (follow value)) ?_
      unfold Signal.sight?
      rw [Signal.observation?_of_inspects inspects, Signal.observation?_of_inspects inspects]
  | @replaceQueue replacement next quiet follow =>
      obtain ⟨configuration, hook, built⟩ :=
        asked _ (.replaceQueue replacement) next below rfl
      rw [EventQueue.configuration_of_new built] at quiet
      refine (renewed.replaced built quiet).bind ?_
      rintro ⟨_, after⟩ ⟨_, last⟩ _ _ ⟨rfl, kept⟩
      exact concurs_telling shares kept (on follow)
  | run same follow =>
      refine (Renewed.coupling.beginRun renewed).bind ?_
      intro after last _ _ kept
      have processed := Renewed.coupling.processed_eq renewed
      change otherSimulation.processed = simulation.processed at processed
      rw [processed]
      exact concurs_silently shares kept
        (List.forall_mem_cons.mpr ⟨.running _ same follow, lower⟩)

private theorem firing (here : first.frames = .firing :: below) :
    Alike (Concurs entities history past) (first.step body) (second.step body) := by
  obtain ⟨simulation, memory, frames⟩ := first
  obtain ⟨otherSimulation, otherMemory, otherFrames⟩ := second
  obtain ⟨shares, renewed, rfl, rfl, incurious⟩ := together
  cases here
  refine (Renewed.coupling.finishEvent renewed).bind ?_
  intro after last _ _ kept
  exact concurs_silently shares kept (List.forall_mem_cons.mp incurious).2

private theorem destroying (bodies : ∀ work, (body work).Incurious) {next : Script σ β μ}
    (here : first.frames = .destroying next :: below) :
    Alike (Concurs entities history past) (first.step body) (second.step body) := by
  obtain ⟨simulation, memory, frames⟩ := first
  obtain ⟨otherSimulation, otherMemory, otherFrames⟩ := second
  obtain ⟨shares, renewed, rfl, rfl, incurious⟩ := together
  cases here
  have registered : otherSimulation.destroyEvents = simulation.destroyEvents :=
    renewed.destroyEvents_eq
  obtain ⟨top, lower⟩ := List.forall_mem_cons.mp incurious
  cases events : simulation.destroyEvents with
  | nil =>
      rw [step_destroyed rfl events, step_destroyed rfl (registered.trans events)]
      cases top with
      | destroying follow =>
          exact concurs_silently shares renewed
            (List.forall_mem_cons.mpr ⟨.script follow, lower⟩)
  | cons head destroyEvents =>
      obtain ⟨handle, work⟩ := head
      rw [step_destroying rfl events, step_destroying rfl (registered.trans events)]
      have kept := Renewed.coupling.unregister renewed destroyEvents
      exact concurs_telling shares
        (Renewed.coupling.told kept fun _ gives => (nomatch gives))
        (List.forall_mem_cons.mpr ⟨.script (bodies work), incurious⟩)

/-- A run takes the same event on both machines, or ends on both. -/
theorem running (bodies : ∀ work, (body work).Incurious) {before : Nat}
    {next : Except BranchEnded RunSummary → Script σ β μ}
    (here : first.frames = .running before next :: below) :
    Alike (Concurs entities history past) (first.step body) (second.step body) := by
  obtain ⟨simulation, memory, frames⟩ := first
  obtain ⟨otherSimulation, otherMemory, otherFrames⟩ := second
  obtain ⟨shares, renewed, rfl, rfl, incurious⟩ := together
  cases here
  change Renewed entities (Given history) simulation otherSimulation at renewed
  obtain ⟨top, lower⟩ := List.forall_mem_cons.mp incurious
  have goes := renewed.goesOn_eq
  unfold step stepRun
  simp only [goes]
  cases going : simulation.goesOn with
  | false =>
      simp only [Bool.false_eq_true, if_false]
      refine (renewed.endRun before).bind ?_
      intro result other _ _ level
      cases top with
      | running _ same follow =>
          have observed : (Signal.ran result).sight? simulation =
              (Signal.ran other).sight? otherSimulation := by
            change some (Observation.mk (.ran (RunSummary.levelled <$> result)) _) =
              some (Observation.mk (.ran (RunSummary.levelled <$> other)) _)
            rw [level, renewed.view_eq]
          rw [next_eq_of_levelled same level]
          exact concurs_apart shares (fun _ gives => nomatch gives) (fun _ gives => nomatch gives)
            renewed (List.forall_mem_cons.mpr ⟨.script (follow other), lower⟩) observed
  | true =>
      simp only [if_true]
      refine renewed.dequeue.bind ?_
      rintro ⟨dequeued, after⟩ ⟨_, last⟩ _ _ ⟨rfl, kept⟩
      cases dequeued with
      | nothing => exact concurs_silently shares kept incurious
      | skipped =>
          refine (Renewed.coupling.leaveEvent kept).bind ?_
          intro left right _ _ outside
          exact concurs_silently shares outside incurious
      | invoke key callback =>
          cases callback with
          | user work =>
              exact concurs_telling shares
                (Renewed.coupling.told kept fun _ gives => (nomatch gives))
                (List.forall_mem_cons.mpr ⟨.script (bodies work),
                  List.forall_mem_cons.mpr ⟨.firing, incurious⟩⟩)
          | stop =>
              have stopped := Renewed.coupling.stop kept
              exact concurs_telling shares
                (Renewed.coupling.told stopped fun _ gives => (nomatch gives))
                (List.forall_mem_cons.mpr ⟨.firing, incurious⟩)

private theorem step (bodies : ∀ work, (body work).Incurious) (asked : first.AsksLawfully history) :
    Alike (Concurs entities history past) (first.step body) (second.step body) := by
  cases here : first.frames with
  | nil =>
      obtain ⟨simulation, memory, frames⟩ := first
      obtain ⟨otherSimulation, otherMemory, otherFrames⟩ := second
      obtain ⟨shares, renewed, rfl, rfl, incurious⟩ := together
      cases here
      exact concurs_silently shares renewed incurious
  | cons top below =>
      cases top with
      | script rest => exact together.script here asked
      | firing => exact together.firing here
      | destroying next => exact together.destroying bodies here
      | running before next => exact together.running bodies here

end SideBySide

/-! ### What follows -/

/-- The machines that a lawful program reaches from here, each with all that was visible on the way
and with what of that can be observed. What was visible before still counts for its handles. -/
def Continues [Hook σ] (body : β → Script σ β μ) (history : List (Signal σ β))
    (start : Machine σ β μ) (earlier : List (Signal σ β)) (seen : List (Observation σ β))
    (machine : Machine σ β μ) : Prop :=
  LeadsTo body { Watch.history.beside (Watch.seen Signal.sight?) with
    allows := fun noted machine => machine.AsksLawfully (history ++ noted.1) } ([], []) start
    (earlier, seen) machine

/-- Whatever can be observed from the first machine on can be observed from the second on, and the
second execution ends where and as the first one does. -/
def Foretells [Hook σ] (body : β → Script σ β μ) (history past : List (Signal σ β))
    (first second : Machine σ β μ) : Prop :=
  ∀ signals seen machine, Continues body history first signals seen machine →
    ∃ others other, Continues body past second others seen other ∧
      ∀ ending, Ends body (history ++ signals) machine ending →
        Ends body (past ++ others) other ending

def forgetCredit (machine : Machine σ β μ) : Machine σ β μ :=
  { machine with simulation := machine.simulation.forgetCredit }

variable [Hook σ] {body : β → Script σ β μ} {start first second machine other : Machine σ β μ}
  {history past signals : List (Signal σ β)} {seen : List (Observation σ β)} {entities : Nat}

private theorem SideBySide.follow (bodies : ∀ work, (body work).Incurious)
    (together : SideBySide entities history past first second)
    (continues : Continues body history first signals seen machine) :
    ∃ others other, Continues body past second others seen other ∧
      SideBySide entities (history ++ signals) (past ++ others) machine other := by
  refine continues.keeps (motive := fun noted machine => ∃ others other,
    Continues body past second others noted.2 other ∧
      SideBySide entities (history ++ noted.1) (past ++ others) machine other) ?_ ?_
  · refine ⟨[], second, .start, ?_⟩
    rw [List.append_nil, List.append_nil]
    exact together
  · rintro ⟨earlier, seen⟩ signals machine after _ lawful stepped ⟨others, other, follows, beside⟩
    obtain ⟨⟨more, last⟩, otherStepped, further, same⟩ :=
      (beside.step bodies lawful).returns stepped
    refine ⟨others ++ more, last, ?_, ?_⟩
    · exact (follows.step (beside.lawful lawful) otherStepped).of_eq
        (Prod.ext rfl (congrArg (seen ++ ·) same.symm))
    · unfold Watch.beside Watch.history
      rw [← List.append_assoc, ← List.append_assoc]
      exact further

private theorem SideBySide.ends (bodies : ∀ work, (body work).Incurious)
    (together : SideBySide entities history past first second) {ending : Option Fault}
    (ends : Ends body history first ending) : Ends body past second ending := by
  cases ends with
  | through halted => exact .through (together.frames.trans halted)
  | failed fault lawful stepped =>
      exact .failed fault (together.lawful lawful)
        ((together.step bodies lawful).fails stepped)

private theorem SideBySide.foretells (bodies : ∀ work, (body work).Incurious)
    (together : SideBySide entities history past first second) :
    Foretells body history past first second := by
  intro signals seen machine continues
  obtain ⟨others, other, follows, together⟩ := together.follow bodies continues
  exact ⟨others, other, follows, fun ending ends => together.ends bodies ends⟩

private theorem Reaches.sideBySide (bodies : ∀ work, (body work).Incurious)
    (begins : SideBySide entities [] [] start start)
    (reached : Reaches body start history machine) :
    SideBySide entities history history machine machine := by
  refine reached.keeps (motive := fun history machine =>
    SideBySide entities history history machine machine) begins ?_
  rintro history signals machine after _ lawful stepped itself
  obtain ⟨⟨_, _⟩, again, further, _⟩ := (itself.step bodies lawful).returns stepped
  cases again.symm.trans stepped
  exact further

end Machine

private theorem Simulation.renewed_of_new {configuration : Configuration} (hook : σ)
    (valid : configuration.validate = .ok (.ok ()))
    (quiet : configuration.exploration.enabled = false) :
    ∃ simulation : Simulation σ β, Simulation.new configuration hook = .ok (.ok simulation) ∧
      Renewed configuration.entities (Given ([] : List (Signal σ β))) simulation simulation := by
  obtain ⟨simulation, started, booked⟩ := booked_of_new (β := β) hook valid
  obtain ⟨queue, built, rfl⟩ := ofQueue_of_new started
  have unexplored := EventQueue.Unexplored.of_new quiet built
  have refills : queue.Refills queue := ⟨rfl, .refl _, rfl⟩
  exact ⟨_, started, [], queue, rfl, booked, .of_new built, booked.holds, booked.holds,
    refills.twins refills unexplored unexplored booked.holds.sound booked.holds.sound (.refl _)⟩

namespace Machine

/-- At any point of its execution a program may move its events into a new queue of the same
configuration. What can be observed from there on is what could be observed if all credit had
been forgotten; which is nothing new where none is held. -/
theorem replacement_forgets_credit (configuration : Configuration) (hook : σ)
    (valid : configuration.validate = .ok (.ok ()))
    (quiet : configuration.exploration.enabled = false) [Hook σ] (memory : μ)
    (script : Script σ β μ) (body : β → Script σ β μ) (incurious : script.Incurious)
    (bodies : ∀ work, (body work).Incurious) :
    ∃ simulation : Simulation σ β, Simulation.new configuration hook = .ok (.ok simulation) ∧
      ∀ history machine rest below,
        Reaches body (.start simulation memory script) history machine →
        machine.frames = .script rest :: below → ∀ other : σ,
        ∃ replacement replaced,
          EventQueue.new machine.simulation.queue.configuration other = .ok (.ok replacement) ∧
          step body { machine with
            frames := .script (.perform (.replaceQueue replacement) fun _ => rest) :: below } =
              .ok ([.answered (.replaceQueue replacement) ()], replaced) ∧
          Foretells body (history ++ [.answered (.replaceQueue replacement) ()]) history replaced
            machine.forgetCredit ∧
          Foretells body history (history ++ [.answered (.replaceQueue replacement) ()])
            machine.forgetCredit replaced ∧
          (machine.simulation.queue.Creditless → machine.forgetCredit = machine) := by
  obtain ⟨simulation, started, renewed⟩ := Simulation.renewed_of_new (β := β) hook valid quiet
  have begins : SideBySide configuration.entities [] [] (start simulation memory script)
      (start simulation memory script) :=
    ⟨fun _ => Iff.rfl, renewed, rfl, rfl, List.forall_mem_singleton.mpr (.script incurious)⟩
  refine ⟨simulation, started, fun history machine rest below reached here other => ?_⟩
  have itself := reached.sideBySide bodies begins
  obtain ⟨keys, queue, _, booked, paired⟩ := itself.simulations
  obtain ⟨_, twins⟩ := paired.twins
  obtain ⟨replacement, built⟩ := paired.fits.exists_new other
  obtain ⟨after, replaced, kept⟩ := booked.renew paired.fits twins.left built
  have nothing (handle : Handle) :
      ¬ (.answered (.replaceQueue replacement) () : Signal σ β).Gives handle :=
    fun gives => nomatch gives
  have together : SideBySide configuration.entities
      (history ++ [.answered (.replaceQueue replacement) ()]) history
      { machine with simulation := after, frames := .script rest :: below }
      machine.forgetCredit :=
    ⟨SharesHandles.hear (fun _ => Iff.rfl) nothing, Renewed.coupling.told kept nothing, rfl, here,
      here ▸ itself.incurious⟩
  refine ⟨replacement, _, built, ?_, together.foretells bodies, together.symm.foretells bodies,
    fun creditless => ?_⟩
  · unfold step
    simp only [stepScript, Request.answer, replaced, bind, Except.bind]
    rfl
  · unfold forgetCredit Simulation.forgetCredit
    rw [creditless.forget_eq]

/-- Entity 0 sends twice to entity 2 and may not do so before entity 1 has sent to it; an event of
entity 1 comes later. -/
def answeredMessages : Script Exploration.Silent Unit Unit :=
  .perform (.schedule (.message (.node ⟨0⟩) (.node ⟨2⟩) 9 none) ()) fun _ =>
    .perform (.schedule (.message (.node ⟨1⟩) (.node ⟨0⟩) 10 none) ()) fun _ =>
      .perform (.schedule (.message (.node ⟨0⟩) (.node ⟨2⟩) 9 none) ()) fun _ =>
        .perform (.schedule (.within (.node ⟨1⟩) 10) ()) fun _ => .run fun _ => .done

def instants (seen : List (Observation σ β)) : List (Context × Except Fault Timestamp) :=
  seen.map fun observation => (observation.view.context, observation.view.now)

/-- In the first callback entity 0 holds credit from entity 1, and its second message comes next.
After a replacement of the queue there the event of entity 1 overtakes that message. -/
theorem replacement_forgets_credit_answered :
    ∃ simulation history machine replacement replaced below,
      Simulation.new Queue.LaneQueue.waitingConfiguration Exploration.Silent.silent =
        .ok (.ok simulation) ∧
      Reaches (fun _ => .done) (.start simulation () answeredMessages) history machine ∧
      machine.frames = .script .done :: below ∧
      EventQueue.new machine.simulation.queue.configuration .silent = .ok (.ok replacement) ∧
      step (fun _ => .done) { machine with
        frames := .script (.perform (.replaceQueue replacement) fun _ => .done) :: below } =
          .ok ([.answered (.replaceQueue replacement) ()], replaced) ∧
      (∃ signals seen last, Continues (fun _ => .done) history machine signals seen last ∧
        instants seen = [(.node ⟨2⟩, .ok ⟨9⟩), (.node ⟨0⟩, .ok ⟨10⟩), (.node ⟨1⟩, .ok ⟨10⟩)]) ∧
      ∃ signals seen last, Continues (fun _ => .done)
          (history ++ [.answered (.replaceQueue replacement) ()]) replaced signals seen last ∧
        instants seen = [(.node ⟨1⟩, .ok ⟨10⟩), (.node ⟨2⟩, .ok ⟨9⟩), (.node ⟨0⟩, .ok ⟨10⟩)] := by
  obtain ⟨simulation, started, forgets⟩ := replacement_forgets_credit
    Queue.LaneQueue.waitingConfiguration Exploration.Silent.silent rfl rfl () answeredMessages
    (fun _ => .done) (.perform trivial fun _ => .perform trivial fun _ => .perform trivial fun _ =>
      .perform trivial fun _ => .run (fun _ => rfl) fun _ => .done) fun _ => .done
  have reached : ∃ history machine below,
      Reaches (fun _ => .done) (.start simulation () answeredMessages) history machine ∧
      machine.frames = .script .done :: below ∧
      (∃ signals seen last, Continues (fun _ => .done) history machine signals seen last ∧
        instants seen = [(.node ⟨2⟩, .ok ⟨9⟩), (.node ⟨0⟩, .ok ⟨10⟩), (.node ⟨1⟩, .ok ⟨10⟩)]) ∧
      ∃ signals seen last, Continues (fun _ => .done) history machine.forgetCredit signals seen
          last ∧
        instants seen = [(.node ⟨1⟩, .ok ⟨10⟩), (.node ⟨2⟩, .ok ⟨9⟩), (.node ⟨0⟩, .ok ⟨10⟩)] := by
    cases started
    refine ⟨_, _, _, .of_steps 6 rfl ?_, rfl, ⟨_, _, _, .of_steps 9 rfl ?_, rfl⟩,
      _, _, _, .of_steps 9 rfl ?_, rfl⟩
    all_goals
      intro fewer below past before taken reply request next under here
      interval_cases fewer <;> cases taken <;> cases here
    all_goals trivial
  obtain ⟨history, machine, below, reached, here, kept, signals, seen, last, continues, order⟩ :=
    reached
  obtain ⟨replacement, replaced, built, stepped, _, foretold, _⟩ :=
    forgets history machine .done below reached here .silent
  obtain ⟨others, other, follows, _⟩ := foretold signals seen last continues
  exact ⟨simulation, history, machine, replacement, replaced, below, started, reached, here, built,
    stepped, kept, others, seen, other, follows, order⟩

end Machine

end EventKernel
