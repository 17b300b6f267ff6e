import EventKernel.Proofs.SimulationOperations

set_option autoImplicit false

/-! What one step of a machine can be, and that a run of steps divides at any of them. -/

namespace EventKernel

variable {σ β μ : Type}

/-- The answers that give out a handle. -/
inductive Signal.Gives (handle : Handle) : Signal σ β → Prop
  | scheduled (placement : Placement) (callback : β) :
      Gives handle (.answered (.schedule placement callback) handle)
  | registered (callback : β) : Gives handle (.answered (.scheduleDestroy callback) handle)
  | bounded (delay : UInt64) : Gives handle (.answered (.stopAfter delay) handle)

def Frame.isRunning : Frame σ β μ → Bool
  | .running _ _ => true
  | _ => false

def Frame.Nested : List (Frame σ β μ) → Prop
  | [] => True
  | upper :: below =>
      (∀ lower ∈ below.head?, lower.isRunning = true → upper = .firing) ∧ Nested below

namespace Frame.Nested

variable {upper other : Frame σ β μ} {below : List (Frame σ β μ)}

private theorem under (nested : Nested (upper :: below)) : Nested below := nested.2

private theorem calm (nested : Nested (upper :: below)) (apart : upper ≠ .firing) :
    ∀ lower ∈ below.head?, lower.isRunning = false := by
  intro lower first
  cases runs : lower.isRunning with
  | false => rfl
  | true => exact absurd (nested.1 lower first runs) apart

private theorem swap (nested : Nested (upper :: below)) (apart : upper ≠ .firing) :
    Nested (other :: below) := by
  refine ⟨fun lower first runs => ?_, nested.2⟩
  rw [nested.calm apart lower first] at runs
  cases runs

private theorem above (nested : Nested (upper :: below)) (still : upper.isRunning = false) :
    Nested (other :: upper :: below) := by
  refine ⟨fun lower first runs => ?_, nested⟩
  cases first
  rw [still] at runs
  cases runs

end Frame.Nested

namespace Machine

/-- A run executes, and no callback interrupts it. -/
def IsRunning (machine : Machine σ β μ) : Prop :=
  ∃ before next below, machine.frames = .running before next :: below

open Exploration (Hook)

variable [Hook σ] {body : β → Script σ β μ} {machine after : Machine σ β μ}
  {signals : List (Signal σ β)}

/-- The frames after an instruction that leaves the simulation alone. -/
inductive Shifts : List (Frame σ β μ) → List (Frame σ β μ) → Prop
  | halted : Shifts [] []
  | ended (below : List (Frame σ β μ)) : Shifts (.script .done :: below) below
  | recalled (next : μ → Script σ β μ) (memory : μ) (below : List (Frame σ β μ)) :
      Shifts (.script (.recall next) :: below) (.script (next memory) :: below)
  | remembered (memory : μ) (next : Script σ β μ) (below : List (Frame σ β μ)) :
      Shifts (.script (.remember memory next) :: below) (.script next :: below)
  | destroys (next : Script σ β μ) (below : List (Frame σ β μ)) :
      Shifts (.script (.destroy next) :: below) (.destroying next :: below)
  | destroyed (next : Script σ β μ) (below : List (Frame σ β μ)) :
      Shifts (.destroying next :: below) (.script next :: below)

/-- The steps of a machine. Those that leave the simulation alone only move between frames,
begin an event of the destroy phase, or tell that a run has ended. -/
inductive Stepped (body : β → Script σ β μ) (machine : Machine σ β μ) :
    List (Signal σ β) → Machine σ β μ → Prop
  | moved (memory : μ) (frames : List (Frame σ β μ)) (shifts : Shifts machine.frames frames) :
      Stepped body machine [] { machine with memory, frames }
  | ran (result : Except BranchEnded RunSummary) (frames : List (Frame σ β μ)) (before : Nat)
      (next : Except BranchEnded RunSummary → Script σ β μ) (below : List (Frame σ β μ))
      (here : machine.frames = .running before next :: below)
      (followed : frames = .script (next result) :: below)
      (stays : machine.simulation.goesOn = false)
      (ended : machine.simulation.endRun before = .ok result) :
      Stepped body machine [.ran result] { machine with frames }
  | performed {reply : Reply} (request : Request σ β reply)
      (next : reply.Value → Script σ β μ) (below : List (Frame σ β μ)) (value : reply.Value)
      (simulation : Simulation σ β)
      (here : machine.frames = .script (.perform request next) :: below)
      (answered : request.answer machine.simulation = .ok (value, simulation)) :
      Stepped body machine [.answered request value]
        { machine with simulation, frames := .script (next value) :: below }
  | begun (next : Except BranchEnded RunSummary → Script σ β μ) (below : List (Frame σ β μ))
      (simulation : Simulation σ β) (here : machine.frames = .script (.run next) :: below)
      (began : machine.simulation.beginRun = .ok simulation) :
      Stepped body machine [] { machine with
        simulation, frames := .running machine.simulation.processed next :: below }
  | starved (simulation : Simulation σ β) (here : machine.IsRunning)
      (taken : machine.simulation.dequeue = .ok (.nothing, simulation))
      (goes : machine.simulation.goesOn = true) :
      Stepped body machine [] { machine with simulation }
  | skipped (entered simulation : Simulation σ β) (here : machine.IsRunning)
      (taken : machine.simulation.dequeue = .ok (.skipped, entered))
      (left : entered.leaveEvent = .ok simulation) (goes : machine.simulation.goesOn = true) :
      Stepped body machine [] { machine with simulation }
  | fired (key : EventKey) (work : β) (simulation : Simulation σ β)
      (here : machine.IsRunning)
      (taken : machine.simulation.dequeue = .ok (.invoke key (.user work), simulation))
      (goes : machine.simulation.goesOn = true) :
      Stepped body machine [.fired key (.user work)] { machine with
        simulation, frames := .script (body work) :: .firing :: machine.frames }
  | halted (key : EventKey) (simulation : Simulation σ β) (here : machine.IsRunning)
      (taken : machine.simulation.dequeue = .ok (.invoke key .stop, simulation))
      (goes : machine.simulation.goesOn = true) :
      Stepped body machine [.fired key .stop] { machine with
        simulation := simulation.stop, frames := .firing :: machine.frames }
  | finished (below : List (Frame σ β μ)) (simulation : Simulation σ β)
      (here : machine.frames = .firing :: below)
      (done : machine.simulation.finishEvent = .ok simulation) :
      Stepped body machine [] { machine with simulation, frames := below }
  | destroying (handle : Handle) (work : β) (destroyEvents : List (Handle × β))
      (next : Script σ β μ) (below : List (Frame σ β μ))
      (here : machine.frames = .destroying next :: below)
      (first : machine.simulation.destroyEvents = (handle, work) :: destroyEvents) :
      Stepped body machine [.destroying handle work] { machine with
        simulation := { machine.simulation with destroyEvents }
        frames := .script (body work) :: .destroying next :: below }

private theorem stepScript_eq_ok {script : Script σ β μ} {below : List (Frame σ β μ)}
    (here : machine.frames = .script script :: below)
    (stepped : machine.stepScript below script = .ok (signals, after)) :
    Stepped body machine signals after := by
  match script, here, stepped with
  | .done, here, stepped =>
      cases stepped
      exact .moved machine.memory below (here ▸ .ended below)
  | .fail fault, _, stepped => cases stepped
  | .recall next, here, stepped =>
      cases stepped
      exact .moved machine.memory _ (here ▸ .recalled next machine.memory below)
  | .remember memory next, here, stepped =>
      cases stepped
      exact .moved memory _ (here ▸ .remembered memory next below)
  | .perform request next, here, stepped =>
      obtain ⟨⟨value, simulation⟩, answered, returned⟩ := bind_eq_ok stepped
      cases returned
      exact .performed request next below value simulation here answered
  | .run next, here, stepped =>
      obtain ⟨simulation, began, returned⟩ := bind_eq_ok stepped
      cases returned
      exact .begun next below simulation here began
  | .destroy next, here, stepped =>
      cases stepped
      exact .moved machine.memory _ (here ▸ .destroys next below)

private theorem stepRun_eq_ok {before : Nat} {next : Except BranchEnded RunSummary → Script σ β μ}
    {below : List (Frame σ β μ)} (here : machine.frames = .running before next :: below)
    (stepped : machine.stepRun body before next below = .ok (signals, after)) :
    Stepped body machine signals after := by
  have running : machine.IsRunning := ⟨before, next, below, here⟩
  unfold stepRun at stepped
  rw [← here] at stepped
  split at stepped
  · rename_i goes
    obtain ⟨⟨dequeued, entered⟩, taken, rest⟩ := bind_eq_ok stepped
    cases dequeued with
    | nothing =>
        cases rest
        exact .starved entered running taken goes
    | skipped =>
        obtain ⟨simulation, left, returned⟩ := bind_eq_ok rest
        cases returned
        exact .skipped entered simulation running taken left goes
    | invoke key callback =>
        cases callback with
        | user work =>
            cases rest
            exact .fired key work entered running taken goes
        | stop =>
            cases rest
            exact .halted key entered running taken goes
  · rename_i stays
    obtain ⟨result, ended, returned⟩ := bind_eq_ok stepped
    cases returned
    exact .ran result _ before next below here rfl (Bool.not_eq_true _ ▸ stays) ended

theorem step_eq_ok (stepped : machine.step body = .ok (signals, after)) :
    Stepped body machine signals after := by
  unfold step at stepped
  split at stepped
  · rename_i here
    cases stepped
    exact .moved machine.memory machine.frames (by rw [here]; exact .halted)
  · rename_i rest below here
    exact stepScript_eq_ok here stepped
  · rename_i before next below here
    exact stepRun_eq_ok here stepped
  · rename_i below here
    obtain ⟨simulation, done, returned⟩ := bind_eq_ok stepped
    cases returned
    exact .finished below simulation here done
  · rename_i next below here
    unfold stepDestroy at stepped
    split at stepped
    · cases stepped
      exact .moved machine.memory _ (here ▸ .destroyed next below)
    · rename_i handle work destroyEvents first
      cases stepped
      exact .destroying handle work destroyEvents next below here first

omit [Hook σ] in
theorem Shifts.nested {frames later : List (Frame σ β μ)} (shifts : Shifts frames later)
    (nested : Frame.Nested frames) :
    Frame.Nested later ∧ ∀ top ∈ later.head?, top.isRunning = false := by
  cases shifts with
  | halted => exact ⟨nested, fun _ impossible => nomatch impossible⟩
  | ended => exact ⟨nested.under, nested.calm fun impossible => nomatch impossible⟩
  | recalled | remembered | destroys | destroyed =>
      refine ⟨nested.swap fun impossible => (nomatch impossible), fun top first => ?_⟩
      cases first
      rfl

theorem Stepped.nested (stepped : Stepped body machine signals after)
    (nested : Frame.Nested machine.frames) : Frame.Nested after.frames := by
  cases stepped with
  | moved memory frames shifts => exact (shifts.nested nested).1
  | ran result frames before next below here followed =>
      rw [here] at nested
      simp only [followed]
      exact nested.swap fun impossible => nomatch impossible
  | performed request next below value simulation here =>
      rw [here] at nested
      exact nested.swap fun impossible => nomatch impossible
  | begun next below simulation here =>
      rw [here] at nested
      exact nested.swap fun impossible => nomatch impossible
  | starved | skipped => exact nested
  | fired key work simulation here =>
      obtain ⟨before, next, below, top⟩ := here
      simp only [top] at nested ⊢
      exact Frame.Nested.above ⟨fun _ _ _ => rfl, nested⟩ rfl
  | halted key simulation here => exact ⟨fun _ _ _ => rfl, nested⟩
  | finished below simulation here =>
      rw [here] at nested
      exact nested.under
  | destroying handle work destroyEvents next below here =>
      rw [here] at nested
      exact nested.above rfl

section

variable {below : List (Frame σ β μ)} {reply : Reply} {request : Request σ β reply}
  {next : reply.Value → Script σ β μ} {value : reply.Value} {simulation : Simulation σ β}

theorem step_script {rest : Script σ β μ} (here : machine.frames = .script rest :: below) :
    machine.step body = machine.stepScript below rest := by
  unfold step
  simp only [here]

theorem step_performed (here : machine.frames = .script (.perform request next) :: below)
    (answered : request.answer machine.simulation = .ok (value, simulation)) :
    machine.step body = .ok ([.answered request value],
      { machine with simulation, frames := .script (next value) :: below }) := by
  rw [step_script here]
  simp only [stepScript, answered, bind, Except.bind]
  rfl

theorem step_begun {follow : Except BranchEnded RunSummary → Script σ β μ}
    (here : machine.frames = .script (.run follow) :: below)
    (began : machine.simulation.beginRun = .ok simulation) :
    machine.step body = .ok ([], { machine with
      simulation, frames := .running machine.simulation.processed follow :: below }) := by
  rw [step_script here]
  simp only [stepScript, began, bind, Except.bind]
  rfl

theorem step_finished (here : machine.frames = .firing :: below)
    (done : machine.simulation.finishEvent = .ok simulation) :
    machine.step body = .ok ([], { machine with simulation, frames := below }) := by
  unfold step
  simp only [here, done]
  rfl

end

section

variable {before : Nat} {next : Except BranchEnded RunSummary → Script σ β μ}
  {below : List (Frame σ β μ)} {simulation entered : Simulation σ β} {key : EventKey}

theorem step_ran {result : Except BranchEnded RunSummary}
    (here : machine.frames = .running before next :: below)
    (stays : machine.simulation.goesOn = false)
    (ended : machine.simulation.endRun before = .ok result) :
    machine.step body =
      .ok ([.ran result], { machine with frames := .script (next result) :: below }) := by
  unfold step
  simp only [here, stepRun, stays, Bool.false_eq_true, if_false, ended, bind, Except.bind]
  rfl

theorem step_skipped (here : machine.frames = .running before next :: below)
    (goes : machine.simulation.goesOn = true)
    (taken : machine.simulation.dequeue = .ok (.skipped, entered))
    (left : entered.leaveEvent = .ok simulation) :
    machine.step body = .ok ([], { machine with simulation }) := by
  unfold step
  simp only [here, stepRun, if_pos goes, taken, left, bind, Except.bind]
  rw [← here]
  rfl

theorem step_fired {work : β} (here : machine.frames = .running before next :: below)
    (goes : machine.simulation.goesOn = true)
    (taken : machine.simulation.dequeue = .ok (.invoke key (.user work), entered)) :
    machine.step body = .ok ([.fired key (.user work)], { machine with
      simulation := entered
      frames := .script (body work) :: .firing :: machine.frames }) := by
  unfold step
  simp only [here, stepRun, if_pos goes, taken, bind, Except.bind]
  rfl

theorem step_halted (here : machine.frames = .running before next :: below)
    (goes : machine.simulation.goesOn = true)
    (taken : machine.simulation.dequeue = .ok (.invoke key .stop, entered)) :
    machine.step body = .ok ([.fired key .stop], { machine with
      simulation := entered.stop
      frames := .firing :: machine.frames }) := by
  unfold step
  simp only [here, stepRun, if_pos goes, taken, bind, Except.bind]
  rfl

end

theorem step_destroyed {next : Script σ β μ} {below : List (Frame σ β μ)}
    (here : machine.frames = .destroying next :: below)
    (nothing : machine.simulation.destroyEvents = []) :
    machine.step body = .ok ([], { machine with frames := .script next :: below }) := by
  unfold step stepDestroy
  simp only [here, nothing]

theorem step_destroying {next : Script σ β μ} {below : List (Frame σ β μ)} {handle : Handle}
    {work : β} {destroyEvents : List (Handle × β)}
    (here : machine.frames = .destroying next :: below)
    (first : machine.simulation.destroyEvents = (handle, work) :: destroyEvents) :
    machine.step body = .ok ([.destroying handle work], { machine with
      simulation := { machine.simulation with destroyEvents }
      frames := .script (body work) :: .destroying next :: below }) := by
  unfold step stepDestroy
  simp only [here, first]

theorem steps_succ_eq_ok {count : Nat}
    (ran : machine.steps body (count + 1) = .ok (signals, after)) :
    ∃ first others next, machine.step body = .ok (first, next) ∧
      next.steps body count = .ok (others, after) ∧ signals = first ++ others := by
  obtain ⟨⟨first, next⟩, stepped, rest⟩ := bind_eq_ok ran
  obtain ⟨⟨others, last⟩, remaining, returned⟩ := bind_eq_ok rest
  cases returned
  exact ⟨first, others, next, stepped, remaining, rfl⟩

end Machine

end EventKernel
