import EventKernel.Proofs.CallbackLedger
import EventKernel.Proofs.ClockPositions
import EventKernel.Proofs.UncreditedQueues

set_option autoImplicit false

/-! Programs that follow their events. Before the first run they schedule what they like;
afterwards only events that execute plan others, from their own contexts and for any owner, and
no callback runs the simulation. Beside each execution come the keys of the events that were
taken from the queue, those that were cancelled in place included, and the instants that
callbacks observe. -/

namespace EventKernel

open Exploration (Hook)

variable {σ β μ : Type}

def Frame.isFiring : Frame σ β μ → Bool
  | .firing => true
  | _ => false

/-- There is one run at most, and it is interrupted by nothing but an event of its own. -/
def Frame.Flat : List (Frame σ β μ) → Prop
  | [] => True
  | .running _ _ :: below => below = []
  | .firing :: below => ∃ before next, below = [.running before next]
  | .script _ :: below => Flat below
  | .destroying _ :: below => Flat below

def Frame.Unstarted (frames : List (Frame σ β μ)) : Prop :=
  ∀ frame ∈ frames, frame.isRunning = false ∧ frame.isFiring = false

namespace Machine

def executes (machine : Machine σ β μ) : Bool := machine.frames.any Frame.isFiring

/-- The key of the event that the next step takes from the queue, one that was cancelled in place
included. -/
def takes? (machine : Machine σ β μ) : Option EventKey :=
  match machine.frames with
  | .running _ _ :: _ =>
      if machine.simulation.goesOn then
        match machine.simulation.queue.pop with
        | .ok (some event, _) => some event.key
        | _ => none
      else none
  | _ => none

/-- The instant that the callback of an event observes now. -/
def observed (machine : Machine σ β μ) : List Timestamp :=
  if machine.executes then
    match machine.simulation.now with
    | .ok now => [now]
    | .error _ => []
  else []

variable {machine : Machine σ β μ} {frames later : List (Frame σ β μ)}

theorem Shifts.unstarted (shifts : Shifts frames later) (unstarted : Frame.Unstarted frames) :
    Frame.Unstarted later := by
  cases shifts with
  | halted => exact unstarted
  | ended below => exact (List.forall_mem_cons.mp unstarted).2
  | recalled | remembered | destroys | destroyed =>
      exact List.forall_mem_cons.mpr ⟨⟨rfl, rfl⟩, (List.forall_mem_cons.mp unstarted).2⟩

theorem Shifts.flat (shifts : Shifts frames later) (flat : Frame.Flat frames) :
    Frame.Flat later ∧ later.any Frame.isFiring = frames.any Frame.isFiring := by
  cases shifts with
  | halted => exact ⟨flat, rfl⟩
  | ended | recalled | remembered | destroys | destroyed => exact ⟨flat, rfl⟩

theorem Shifts.calm (shifts : Shifts frames later) :
    ∀ top ∈ frames.head?, top.isRunning = false := by
  intro top first
  cases shifts with
  | halted => cases first
  | ended | recalled | remembered | destroys | destroyed =>
      cases first
      rfl

theorem takes?_of_calm (calm : ∀ top ∈ machine.frames.head?, top.isRunning = false) :
    machine.takes? = none := by
  unfold takes?
  split
  · rename_i before next below here
    cases calm (.running before next) (by rw [here]; rfl)
  · rfl

theorem takes?_of_running (here : machine.IsRunning)
    (goes : machine.simulation.goesOn = true) :
    machine.takes? = match machine.simulation.queue.pop with
      | .ok (some event, _) => some event.key
      | _ => none := by
  obtain ⟨before, next, below, top⟩ := here
  unfold takes?
  rw [top, if_pos goes]

theorem executes_of_frames {frames : List (Frame σ β μ)} (here : machine.frames = frames) :
    machine.executes = frames.any Frame.isFiring :=
  congrArg (List.any · Frame.isFiring) here

theorem not_executes_of_running (here : machine.IsRunning) (flat : Frame.Flat machine.frames) :
    machine.executes = false := by
  obtain ⟨before, next, below, top⟩ := here
  rw [top] at flat
  cases flat
  exact executes_of_frames top

private theorem flat_of_running (here : machine.IsRunning) (flat : Frame.Flat machine.frames) :
    Frame.Flat (.firing :: machine.frames) := by
  obtain ⟨before, next, below, top⟩ := here
  rw [top] at flat ⊢
  cases flat
  exact ⟨before, next, rfl⟩

/-- Callbacks do not run the simulation. -/
def RunsOutside (machine : Machine σ β μ) : Prop :=
  ∀ (next : Except BranchEnded RunSummary → Script σ β μ) (below : List (Frame σ β μ)),
    machine.frames = .script (.run next) :: below → below = []

variable [Hook σ]

/-- As long as callbacks do not run the simulation there is one run at most. -/
theorem Stepped.flat {body : β → Script σ β μ} {signals : List (Signal σ β)}
    {after : Machine σ β μ} (stepped : Stepped body machine signals after)
    (outside : machine.RunsOutside) (flat : Frame.Flat machine.frames) :
    Frame.Flat after.frames := by
  cases stepped with
  | moved memory frames shifts => exact (shifts.flat flat).1
  | ran result frames before next below here followed =>
      rw [here] at flat
      cases flat
      rw [followed]
      trivial
  | performed request next below value simulation here =>
      rw [here] at flat
      exact flat
  | begun next below simulation here => exact outside next below here
  | starved | skipped => exact flat
  | fired key work simulation here => exact flat_of_running here flat
  | halted key simulation here => exact flat_of_running here flat
  | finished below simulation here =>
      rw [here] at flat
      obtain ⟨before, next, rfl⟩ := flat
      rfl
  | destroying handle work destroyEvents next below here =>
      rw [here] at flat
      exact flat

/-- The machines that a lawful program reaches before its first run. -/
def Readies (body : β → Script σ β μ) (start : Machine σ β μ) :
    List (Signal σ β) → Machine σ β μ → Prop :=
  LeadsTo body (Watch.lawful.only fun machine => machine.Asks Request.Uncredited ∧
    ∀ next below, machine.frames ≠ .script (.run next) :: below) [] start

omit [Hook σ] in
/-- Nothing is asked for but by an event that executes, and planned from its context, and no
callback runs the simulation. -/
structure KeepsToEvents (machine : Machine σ β μ) : Prop where
  plain : machine.Asks Request.Uncredited
  causal : machine.Asks fun request => request.FromInside ∧
    ∀ plan, request.plan? machine.simulation.context = some plan →
      machine.executes = true ∧ plan.base = machine.simulation.context
  outside : machine.RunsOutside

/-- Beside all that is visible stand the keys of all events that were taken from the queue, and all
instants that callbacks have observed. -/
def Watch.followed : Watch σ β μ (List (Signal σ β) × List EventKey × List Timestamp) :=
  (Watch.lawful.only KeepsToEvents).beside fun noted machine _ after =>
    (noted.1 ++ machine.takes?.toList, noted.2 ++ after.observed)

/-- The machines that such a program reaches afterwards. With each come all that was visible, the
keys of all events that were taken from the queue, and all instants that callbacks have
observed. -/
def Follows (body : β → Script σ β μ) (start : Machine σ β μ) (history : List (Signal σ β))
    (taken : List EventKey) (instants : List Timestamp) (machine : Machine σ β μ) : Prop :=
  ∃ past ready signals first, Readies body start past ready ∧
    BeginsRun body ready [] signals first ∧
    LeadsTo body .followed (past ++ signals, [], []) first (history, taken, instants) machine

end Machine

/-- Time has only moved on. -/
structure Machine.TimeAdvances (history : List (Signal σ β)) (taken : List EventKey)
    (instants : List Timestamp) (machine : Machine σ β μ) : Prop where
  increasing : taken.Pairwise EventKey.Precedes
  invoked : ((history.filterMap Signal.fired?).map Prod.fst).Sublist taken
  observed : instants.Pairwise (· ≤ ·)
  /-- What executes observes the instant of the event that was taken last. -/
  current : machine.executes = true →
    ∃ earlier last, taken = earlier ++ [last] ∧ machine.simulation.now = .ok last.ts

end EventKernel
