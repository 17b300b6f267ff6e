import EventKernel.Proofs.InterchangeableQueues
import Mathlib.Data.List.Forall2

set_option autoImplicit false

/-! One program on two machines with different queues, step by step. Either machine may exchange
its queue for a fresh one at any point of the program, while the other waits; there are only
finitely many such points before the next common step. Every other step has its counterpart,
and whatever it makes visible is the same. -/

namespace EventKernel

open Queue (EventQueue)
open Exploration (Hook)
open Simulation (Interchanged)

variable {σ β μ : Type}

/-! ### Programs -/

/-- The same script twice, except that either may put a fresh queue in the place of its own at
any point, and that both may go on alike after different answers about the queue itself. -/
inductive Script.Parallels (fresh : EventQueue σ → Prop) :
    Script σ β μ → Script σ β μ → Prop
  | done : Parallels fresh .done .done
  | fail (fault : Fault) : Parallels fresh (.fail fault) (.fail fault)
  | recall {next other : μ → Script σ β μ}
      (follow : ∀ memory, Parallels fresh (next memory) (other memory)) :
      Parallels fresh (.recall next) (.recall other)
  | remember (memory : μ) {next other : Script σ β μ} (follow : Parallels fresh next other) :
      Parallels fresh (.remember memory next) (.remember memory other)
  | perform {reply : Reply} {request : Request σ β reply} {next other : reply.Value → Script σ β μ}
      (comparable : request.Comparable)
      (follow : ∀ value, Parallels fresh (next value) (other value)) :
      Parallels fresh (.perform request next) (.perform request other)
  | inspect {reply : Reply} {request : Request σ β reply} {next other : reply.Value → Script σ β μ}
      (inspects : request.Inspects)
      (follow : ∀ value answer, Parallels fresh (next value) (other answer)) :
      Parallels fresh (.perform request next) (.perform request other)
  | run {next other : Except BranchEnded RunSummary → Script σ β μ}
      (follow : ∀ result, Parallels fresh (next result) (other result)) :
      Parallels fresh (.run next) (.run other)
  | destroy {next other : Script σ β μ} (follow : Parallels fresh next other) :
      Parallels fresh (.destroy next) (.destroy other)
  | exchange {replacement : EventQueue σ} {next : Unit → Script σ β μ} {other : Script σ β μ}
      (ready : fresh replacement) (follow : Parallels fresh (next ()) other) :
      Parallels fresh (.perform (.replaceQueue replacement) next) other
  | exchanged {replacement : EventQueue σ} {next : Script σ β μ} {other : Unit → Script σ β μ}
      (ready : fresh replacement) (follow : Parallels fresh next (other ())) :
      Parallels fresh next (.perform (.replaceQueue replacement) other)

def Script.exchanges : Script σ β μ → Nat
  | .perform (.replaceQueue _) next => (next ()).exchanges + 1
  | _ => 0

theorem Script.Parallels.symm {fresh : EventQueue σ → Prop} {rest other : Script σ β μ}
    (parallels : rest.Parallels fresh other) : other.Parallels fresh rest := by
  induction parallels with
  | done => exact .done
  | fail fault => exact .fail fault
  | «recall» _ ih => exact .recall ih
  | remember memory _ ih => exact .remember memory ih
  | perform comparable _ ih => exact .perform comparable ih
  | inspect inspects _ ih => exact .inspect inspects fun value answer => ih answer value
  | run _ ih => exact .run ih
  | destroy _ ih => exact .destroy ih
  | exchange ready _ ih => exact .exchanged ready ih
  | exchanged ready _ ih => exact .exchange ready ih

inductive Frame.Parallels (fresh : EventQueue σ → Prop) : Frame σ β μ → Frame σ β μ → Prop
  | script {rest other : Script σ β μ} (follow : rest.Parallels fresh other) :
      Parallels fresh (.script rest) (.script other)
  | running (before : Nat) {next other : Except BranchEnded RunSummary → Script σ β μ}
      (follow : ∀ result, (next result).Parallels fresh (other result)) :
      Parallels fresh (.running before next) (.running before other)
  | firing : Parallels fresh .firing .firing
  | destroying {next other : Script σ β μ} (follow : next.Parallels fresh other) :
      Parallels fresh (.destroying next) (.destroying other)

private theorem Frame.Parallels.symm {fresh : EventQueue σ → Prop} {frame other : Frame σ β μ}
    (parallels : frame.Parallels fresh other) : other.Parallels fresh frame := by
  cases parallels with
  | script follow => exact .script follow.symm
  | running before follow => exact .running before fun result => (follow result).symm
  | firing => exact .firing
  | destroying follow => exact .destroying follow.symm

/-! ### What can be seen -/

/-- What a program can find out at some point: where and when it is, how many events are
queued, and what is the matter with each handle. -/
structure View where
  context : Context
  now : Except Fault Timestamp
  pending : Nat
  isExpired : Handle → Except Fault Bool
  delayLeft : Handle → Except Fault UInt64

def Simulation.view (simulation : Simulation σ β) : View :=
  ⟨simulation.context, simulation.now, simulation.pending, simulation.isExpired,
    simulation.delayLeft⟩

/-- Something made visible, and what can be found out then. -/
structure Observation (σ β : Type) where
  signal : Signal σ β
  view : View

/-- What a signal lets observe in the state that follows it. Exchanges of the queue and answers
about the queue itself do not count. -/
def Signal.observation? (after : Simulation σ β) : Signal σ β → Option (Observation σ β)
  | .answered (.replaceQueue _) _ => none
  | .answered .describe _ => none
  | .answered .trace _ => none
  | .answered .configuration _ => none
  | signal => some ⟨signal, after.view⟩

theorem Signal.observation?_eq {first second : Simulation σ β} (same : second.view = first.view)
    (signal : Signal σ β) : signal.observation? second = signal.observation? first := by
  unfold observation?
  split
  all_goals first | rfl | rw [same]

theorem Signal.observation?_of_inspects {reply : Reply} {request : Request σ β reply}
    (inspects : request.Inspects) (after : Simulation σ β) (value : reply.Value) :
    (Signal.answered request value).observation? after = none := by
  cases request with
  | describe | trace | configuration => rfl
  | _ => exact inspects.elim

theorem Simulation.Interchanged.view_eq {entities : Nat} {policy : Bool} {given : Handle → Prop}
    {first second : Simulation σ β}
    (interchanged : Interchanged entities policy given first second) :
    second.view = first.view := by
  have pending := interchanged.pending_eq
  have expired := funext interchanged.isExpired_eq
  have left := funext interchanged.delayLeft_eq
  unfold view
  rw [pending, expired, left, interchanged.elsewhere]
  rfl

/-! ### Handles -/

private theorem Given.append_iff {history signals : List (Signal σ β)} {handle : Handle} :
    Given (history ++ signals) handle ↔ Given history handle ∨ Given signals handle := by
  unfold Given
  simp only [List.mem_append, or_and_right, exists_or]

theorem Request.Inspects.gives_nothing {reply : Reply} {request : Request σ β reply}
    (inspects : request.Inspects) (value : reply.Value) (handle : Handle) :
    ¬ (Signal.answered request value).Gives handle := by
  intro gives
  cases gives with
  | scheduled | registered | bounded => exact inspects.elim

def SharesHandles (history past : List (Signal σ β)) : Prop :=
  ∀ handle, Given history handle ↔ Given past handle

namespace SharesHandles

variable {history past : List (Signal σ β)} (shares : SharesHandles history past)

include shares

theorem symm : SharesHandles past history := fun handle => (shares handle).symm

theorem append (signals : List (Signal σ β)) :
    SharesHandles (history ++ signals) (past ++ signals) := by
  intro handle
  simp only [Given.append_iff, shares handle]

theorem hear {signal : Signal σ β} (nothing : ∀ handle, ¬ signal.Gives handle) :
    SharesHandles (history ++ [signal]) past := by
  intro handle
  rw [Given.append_iff, shares handle]
  refine ⟨fun given => given.resolve_right ?_, Or.inl⟩
  rintro ⟨other, member, gives⟩
  exact nothing handle (List.mem_singleton.mp member ▸ gives)

theorem lawful {reply : Reply} {request : Request σ β reply} (asked : request.Lawful history) :
    request.Lawful past := by
  cases request with
  | cancel handle | remove handle => exact (shares handle).mp asked
  | _ => exact asked

end SharesHandles

namespace Machine

theorem AsksLawfully.of_request {history : List (Signal σ β)} {machine : Machine σ β μ}
    {reply : Reply} {request : Request σ β reply} {next : reply.Value → Script σ β μ}
    {below : List (Frame σ β μ)} (here : machine.frames = .script (.perform request next) :: below)
    (lawful : request.Lawful history) : machine.AsksLawfully history := by
  intro _ _ _ _ same
  cases here.symm.trans same
  exact lawful

/-- Where nothing is asked for, everything that is asked for is lawful. -/
theorem AsksLawfully.of_silent {history : List (Signal σ β)} {machine : Machine σ β μ}
    (silent : ∀ (reply : Reply) (request : Request σ β reply)
      (next : reply.Value → Script σ β μ) (below : List (Frame σ β μ)),
      machine.frames ≠ .script (.perform request next) :: below) :
    machine.AsksLawfully history :=
  fun reply request next below here => (silent reply request next below here).elim

def exchanges (machine : Machine σ β μ) : Nat :=
  match machine.frames with
  | .script rest :: _ => rest.exchanges
  | _ => 0

/-- A step that puts a fresh queue in the place of the present one. -/
structure Exchanges [Hook σ] (body : β → Script σ β μ) (entities : Nat) (policy : Bool)
    (machine : Machine σ β μ) (replacement : EventQueue σ) (after : Machine σ β μ) : Prop where
  fresh : replacement.Fresh entities policy
  stepped : machine.step body = .ok ([.answered (.replaceQueue replacement) ()], after)
  lawful : ∀ history, machine.AsksLawfully history
  fewer : after.exchanges < machine.exchanges

/-! ### Steps side by side -/

/-- The two machines stand at the same place of the program, and their simulations differ in
their queues only. -/
structure Beside (entities : Nat) (policy : Bool) (history past : List (Signal σ β))
    (first second : Machine σ β μ) : Prop where
  shares : SharesHandles history past
  simulations : Interchanged entities policy (Given history) first.simulation
    second.simulation
  memory : second.memory = first.memory
  frames : List.Forall₂ (Frame.Parallels (EventQueue.Fresh entities policy)) first.frames
    second.frames

/-- Two steps that lead on side by side and let the same be observed. -/
def Matches (entities : Nat) (policy : Bool) (history past : List (Signal σ β))
    (left right : List (Signal σ β) × Machine σ β μ) : Prop :=
  Beside entities policy (history ++ left.1) (past ++ right.1) left.2 right.2 ∧
    left.1.filterMap (Signal.observation? left.2.simulation) =
      right.1.filterMap (Signal.observation? right.2.simulation)

/-- What may come next: one of the machines exchanges its queue while the other waits, or both
step alike. -/
inductive Turn [Hook σ] (body partner : β → Script σ β μ) (entities : Nat) (policy : Bool)
    (history past : List (Signal σ β)) (first second : Machine σ β μ) : Prop
  | left (replacement : EventQueue σ) (after : Machine σ β μ)
      (exchanges : Exchanges body entities policy first replacement after)
      (further : Beside entities policy (history ++ [.answered (.replaceQueue replacement) ()])
        past after second)
  | right (replacement : EventQueue σ) (after : Machine σ β μ)
      (exchanges : Exchanges partner entities policy second replacement after)
      (further : Beside entities policy history
        (past ++ [.answered (.replaceQueue replacement) ()]) first after)
  | both (lawful : second.AsksLawfully past)
      (alike : Alike (Matches entities policy history past) (first.step body)
        (second.step partner))

section

variable {history past : List (Signal σ β)} {entities : Nat} {policy : Bool}
  {after last : Simulation σ β} {memory : μ} {frames otherFrames : List (Frame σ β μ)}

private theorem matches_silently (shares : SharesHandles history past)
    (kept : Interchanged entities policy (Given history) after last)
    (follow : List.Forall₂ (Frame.Parallels (EventQueue.Fresh entities policy)) frames
      otherFrames) :
    Matches entities policy history past ([], ⟨after, memory, frames⟩)
      ([], ⟨last, memory, otherFrames⟩) := by
  unfold Matches
  simp only [List.append_nil]
  exact ⟨⟨shares, kept, rfl, follow⟩, rfl⟩

private theorem matches_telling (shares : SharesHandles history past) {signal : Signal σ β}
    (kept : Interchanged entities policy (Given (history ++ [signal])) after last)
    (follow : List.Forall₂ (Frame.Parallels (EventQueue.Fresh entities policy)) frames
      otherFrames) :
    Matches entities policy history past ([signal], ⟨after, memory, frames⟩)
      ([signal], ⟨last, memory, otherFrames⟩) := by
  refine ⟨⟨shares.append _, kept, rfl, follow⟩, ?_⟩
  simp only [List.filterMap_cons, List.filterMap_nil, Signal.observation?_eq kept.view_eq]

end

namespace Beside

variable [Hook σ] {body partner : β → Script σ β μ} {first second : Machine σ β μ}
  {history past : List (Signal σ β)} {entities : Nat} {policy : Bool}
  {below under : List (Frame σ β μ)}

omit [Hook σ] in
theorem symm (beside : Beside entities policy history past first second) :
    Beside entities policy past history second first :=
  ⟨beside.shares.symm,
    beside.simulations.symm.weaken fun handle => (beside.shares handle).mpr,
    beside.memory.symm, beside.frames.flip.imp fun _ _ => Frame.Parallels.symm⟩

private theorem exchange (beside : Beside entities policy history past first second)
    {replacement : EventQueue σ} {next : Unit → Script σ β μ}
    (here : first.frames = .script (.perform (.replaceQueue replacement) next) :: below)
    (fresh : replacement.Fresh entities policy)
    (frames : List.Forall₂ (Frame.Parallels (EventQueue.Fresh entities policy))
      (.script (next ()) :: below) second.frames) :
    ∃ after, Exchanges body entities policy first replacement after ∧
      Beside entities policy (history ++ [.answered (.replaceQueue replacement) ()]) past after
        second := by
  obtain ⟨later, replaced, kept⟩ := beside.simulations.replace fresh
  have nothing (handle : Handle) :
      ¬ (.answered (.replaceQueue replacement) () : Signal σ β).Gives handle :=
    fun gives => nomatch gives
  refine ⟨{ first with simulation := later, frames := .script (next ()) :: below },
    ⟨fresh, ?_, fun past => .of_request here ?_, ?_⟩,
    beside.shares.hear nothing, Interchanged.coupling.told kept nothing, beside.memory, frames⟩
  · unfold step
    simp only [here, stepScript, Request.answer, replaced, bind, Except.bind]
    rfl
  · obtain ⟨configuration, hook, _, built⟩ := fresh
    exact ⟨configuration, hook, built⟩
  · unfold exchanges
    rw [here]
    exact Nat.lt_succ_self _

/-- Both scripts go on with the same instruction, or one of them is about to exchange its
queue. -/
theorem script (beside : Beside entities policy history past first second)
    {rest other : Script σ β μ} (here : first.frames = .script rest :: below)
    (there : second.frames = .script other :: under)
    (follow : rest.Parallels (EventQueue.Fresh entities policy) other)
    (lower : List.Forall₂ (Frame.Parallels (EventQueue.Fresh entities policy)) below under)
    (lawful : first.AsksLawfully history) :
    Turn body partner entities policy history past first second := by
  have together := beside
  obtain ⟨simulation, memory, frames⟩ := first
  obtain ⟨otherSimulation, otherMemory, otherFrames⟩ := second
  obtain ⟨shares, interchanged, rfl, _⟩ := beside
  cases here
  cases there
  -- An exchange is a step of one machine alone; whatever else comes next, both do it.
  cases follow with
  | exchange ready follow =>
      obtain ⟨after, exchanges, further⟩ :=
        together.exchange rfl ready (.cons (.script follow) lower)
      exact .left _ after exchanges further
  | exchanged ready follow =>
      have waits := List.Forall₂.cons (Frame.Parallels.script follow.symm)
        (lower.flip.imp fun _ _ => Frame.Parallels.symm)
      obtain ⟨after, exchanges, further⟩ := together.symm.exchange rfl ready waits
      exact .right _ after exchanges further.symm
  | done =>
      refine .both (.of_silent fun _ _ _ _ here => (nomatch here)) (.of_ok rfl rfl ?_)
      exact matches_silently shares interchanged lower
  | fail fault => exact .both (.of_silent fun _ _ _ _ here => (nomatch here)) rfl
  | «recall» follow =>
      refine .both (.of_silent fun _ _ _ _ here => (nomatch here)) (.of_ok rfl rfl ?_)
      exact matches_silently shares interchanged (.cons (.script (follow _)) lower)
  | remember memory follow =>
      refine .both (.of_silent fun _ _ _ _ here => (nomatch here)) (.of_ok rfl rfl ?_)
      exact matches_silently shares interchanged (.cons (.script follow) lower)
  | destroy follow =>
      refine .both (.of_silent fun _ _ _ _ here => (nomatch here)) (.of_ok rfl rfl ?_)
      exact matches_silently shares interchanged (.cons (.destroying follow) lower)
  | @perform reply request next other comparable follow =>
      have asked := lawful _ request next below rfl
      refine .both (.of_request rfl (shares.lawful asked)) ?_
      refine (interchanged.answer comparable asked).bind ?_
      rintro ⟨value, after⟩ ⟨_, last⟩ _ _ ⟨rfl, kept⟩
      exact matches_telling shares kept (.cons (.script (follow value)) lower)
  | @inspect reply request next other inspects follow =>
      have asked := lawful _ request next below rfl
      refine .both (.of_request rfl (shares.lawful asked)) ?_
      obtain ⟨value, answer, answered, otherAnswered, kept⟩ := interchanged.inspect inspects
      have stepped : step body ⟨simulation, otherMemory, .script (.perform request next) :: below⟩ =
          .ok ([.answered request value],
            ⟨simulation, otherMemory, .script (next value) :: below⟩) :=
        step_performed rfl answered
      have otherStepped : step partner
          ⟨otherSimulation, otherMemory, .script (.perform request other) :: under⟩ =
          .ok ([.answered request answer],
            ⟨otherSimulation, otherMemory, .script (other answer) :: under⟩) :=
        step_performed rfl otherAnswered
      rw [stepped, otherStepped]
      refine ⟨⟨?_, kept, rfl, .cons (.script (follow value answer)) lower⟩, ?_⟩
      · exact ((shares.hear (inspects.gives_nothing value)).symm.hear
          (inspects.gives_nothing answer)).symm
      · simp only [List.filterMap_cons, List.filterMap_nil,
          Signal.observation?_of_inspects inspects]
  | run follow =>
      refine .both (.of_silent ?_) ((Interchanged.coupling.beginRun interchanged).bind ?_)
      · intro _ _ _ _ here
        cases here
      · intro after last _ _ kept
        have processed := Interchanged.coupling.processed_eq interchanged
        change otherSimulation.processed = simulation.processed at processed
        rw [processed]
        exact matches_silently shares kept (.cons (.running _ follow) lower)

private theorem firing (beside : Beside entities policy history past first second)
    (here : first.frames = .firing :: below) (there : second.frames = .firing :: under)
    (lower : List.Forall₂ (Frame.Parallels (EventQueue.Fresh entities policy)) below under) :
    Alike (Matches entities policy history past) (first.step body) (second.step partner) := by
  obtain ⟨simulation, memory, frames⟩ := first
  obtain ⟨otherSimulation, otherMemory, otherFrames⟩ := second
  obtain ⟨shares, interchanged, rfl, _⟩ := beside
  cases here
  cases there
  refine (Interchanged.coupling.finishEvent interchanged).bind ?_
  intro after last _ _ kept
  exact matches_silently shares kept lower

private theorem destroying (beside : Beside entities policy history past first second)
    (bodies : ∀ work, (body work).Parallels (EventQueue.Fresh entities policy) (partner work))
    {next other : Script σ β μ} (here : first.frames = .destroying next :: below)
    (there : second.frames = .destroying other :: under)
    (follow : next.Parallels (EventQueue.Fresh entities policy) other)
    (lower : List.Forall₂ (Frame.Parallels (EventQueue.Fresh entities policy)) below under) :
    Alike (Matches entities policy history past) (first.step body) (second.step partner) := by
  obtain ⟨simulation, memory, frames⟩ := first
  obtain ⟨otherSimulation, otherMemory, otherFrames⟩ := second
  obtain ⟨shares, interchanged, rfl, _⟩ := beside
  cases here
  cases there
  have registered : otherSimulation.destroyEvents = simulation.destroyEvents :=
    interchanged.destroyEvents_eq
  cases events : simulation.destroyEvents with
  | nil =>
      rw [step_destroyed rfl events, step_destroyed rfl (registered.trans events)]
      exact matches_silently shares interchanged (.cons (.script follow) lower)
  | cons head destroyEvents =>
      obtain ⟨handle, work⟩ := head
      rw [step_destroying rfl events, step_destroying rfl (registered.trans events)]
      have kept := Interchanged.coupling.unregister interchanged destroyEvents
      exact matches_telling shares (Interchanged.coupling.told kept fun _ gives => (nomatch gives))
        (.cons (.script (bodies work)) (.cons (.destroying follow) lower))

/-- A run takes the same event on both machines, or ends on both with the same answer. -/
theorem running (beside : Beside entities policy history past first second)
    (bodies : ∀ work, (body work).Parallels (EventQueue.Fresh entities policy) (partner work))
    {before : Nat} {next other : Except BranchEnded RunSummary → Script σ β μ}
    (here : first.frames = .running before next :: below)
    (there : second.frames = .running before other :: under)
    (follow : ∀ result, (next result).Parallels (EventQueue.Fresh entities policy) (other result))
    (lower : List.Forall₂ (Frame.Parallels (EventQueue.Fresh entities policy)) below under) :
    Alike (Matches entities policy history past) (first.step body) (second.step partner) := by
  obtain ⟨simulation, memory, frames⟩ := first
  obtain ⟨otherSimulation, otherMemory, otherFrames⟩ := second
  obtain ⟨shares, interchanged, rfl, _⟩ := beside
  cases here
  cases there
  change Interchanged entities policy (Given history) simulation otherSimulation
    at interchanged
  have still : List.Forall₂ (Frame.Parallels (EventQueue.Fresh entities policy))
      (.running before next :: below) (.running before other :: under) :=
    .cons (.running before follow) lower
  have goes := interchanged.goesOn_eq
  have ends := interchanged.endRun_eq before
  unfold step stepRun
  simp only [goes]
  cases going : simulation.goesOn with
  | false =>
      simp only [Bool.false_eq_true, if_false, ends]
      refine (Alike.of_eq rfl).bind ?_
      rintro result _ _ _ rfl
      exact matches_telling shares
        (Interchanged.coupling.told interchanged fun _ gives => (nomatch gives))
        (.cons (.script (follow result)) lower)
  | true =>
      simp only [if_true]
      refine (interchanged.dequeue going).bind ?_
      rintro ⟨dequeued, after⟩ ⟨_, last⟩ _ _ ⟨rfl, kept⟩
      cases dequeued with
      | nothing => exact matches_silently shares kept still
      | skipped =>
          refine (Interchanged.coupling.leaveEvent kept).bind ?_
          intro left right _ _ outside
          exact matches_silently shares outside still
      | invoke key callback =>
          cases callback with
          | user work =>
              exact matches_telling shares
                (Interchanged.coupling.told kept fun _ gives => (nomatch gives))
                (.cons (.script (bodies work)) (.cons .firing still))
          | stop =>
              have stopped := Interchanged.coupling.stop kept
              exact matches_telling shares
                (Interchanged.coupling.told stopped fun _ gives => (nomatch gives))
                (.cons .firing still)

theorem step (beside : Beside entities policy history past first second)
    (bodies : ∀ work, (body work).Parallels (EventQueue.Fresh entities policy) (partner work))
    (lawful : first.AsksLawfully history) :
    Turn body partner entities policy history past first second := by
  cases here : first.frames with
  | nil =>
      obtain ⟨simulation, memory, frames⟩ := first
      obtain ⟨otherSimulation, otherMemory, otherFrames⟩ := second
      obtain ⟨shares, interchanged, rfl, follow⟩ := beside
      cases here
      cases follow
      refine .both (.of_silent fun _ _ _ _ here => (nomatch here)) (.of_ok rfl rfl ?_)
      exact matches_silently shares interchanged .nil
  | cons top below =>
      obtain ⟨other, under, follow, lower, there⟩ := List.forall₂_cons_left_iff.mp
        (here ▸ beside.frames)
      cases follow with
      | script follow => exact beside.script here there follow lower lawful
      | firing =>
          refine .both (.of_silent fun _ _ _ _ same => ?_) (beside.firing here there lower)
          cases there.symm.trans same
      | destroying follow =>
          refine .both (.of_silent fun _ _ _ _ same => ?_)
            (beside.destroying bodies here there follow lower)
          cases there.symm.trans same
      | running before follow =>
          refine .both (.of_silent fun _ _ _ _ same => ?_)
            (beside.running bodies here there follow lower)
          cases there.symm.trans same

end Beside

end Machine

end EventKernel
