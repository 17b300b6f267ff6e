import EventKernel.Proofs.MachineSteps

set_option autoImplicit false

/-! Executions that are watched. Beside the machine stands what was noted so far, and every step
adds to it; an execution may be bound to go on from some machines only, whatever was noted. What
every allowed step keeps, a whole execution keeps, and an execution is nothing but a number of
steps, all of them allowed. -/

namespace EventKernel.Machine

open Exploration (Hook)

variable {σ β μ α ν : Type}

/-- From which machines an execution goes on, and what is noted of a step. -/
structure Watch (σ β μ α : Type) where
  allows : α → Machine σ β μ → Prop
  note : α → Machine σ β μ → List (Signal σ β) → Machine σ β μ → α

namespace Watch

/-- All that is visible is noted, of any execution. -/
def history : Watch σ β μ (List (Signal σ β)) where
  allows _ _ := True
  note history _ signals _ := history ++ signals

/-- The same is noted, of executions from machines of one kind. -/
def only (watch : Watch σ β μ α) (kind : Machine σ β μ → Prop) : Watch σ β μ α where
  allows noted machine := watch.allows noted machine ∧ kind machine
  note := watch.note

/-- Something else is noted beside. -/
def beside (watch : Watch σ β μ α)
    (note : ν → Machine σ β μ → List (Signal σ β) → Machine σ β μ → ν) : Watch σ β μ (α × ν) where
  allows noted := watch.allows noted.1
  note noted machine signals after :=
    (watch.note noted.1 machine signals after, note noted.2 machine signals after)

/-- What can be seen of the signals in the state that follows them is noted. -/
def seen (see : Simulation σ β → Signal σ β → Option ν) (earlier : List ν)
    (_ : Machine σ β μ) (signals : List (Signal σ β)) (after : Machine σ β μ) : List ν :=
  earlier ++ signals.filterMap (see after.simulation)

/-- What this many steps lead to, allowed or not. -/
def steps [Hook σ] (watch : Watch σ β μ α) (body : β → Script σ β μ) (noted : α)
    (start : Machine σ β μ) : Nat → Except Fault (α × Machine σ β μ)
  | 0 => .ok (noted, start)
  | count + 1 => do
      let (current, machine) ← watch.steps body noted start count
      let (signals, after) ← machine.step body
      return (watch.note current machine signals after, after)

end Watch

/-- The machines that allowed steps lead to, each with what was noted by then. -/
inductive LeadsTo [Hook σ] (body : β → Script σ β μ) (watch : Watch σ β μ α) (noted : α)
    (start : Machine σ β μ) : α → Machine σ β μ → Prop
  | start : LeadsTo body watch noted start noted start
  | step {current : α} {signals : List (Signal σ β)} {machine after : Machine σ β μ}
      (earlier : LeadsTo body watch noted start current machine)
      (allowed : watch.allows current machine)
      (stepped : machine.step body = .ok (signals, after)) :
      LeadsTo body watch noted start (watch.note current machine signals after) after

namespace LeadsTo

variable [Hook σ] {body : β → Script σ β μ} {watch : Watch σ β μ α} {noted current other : α}
  {start machine : Machine σ β μ}

/-- What holds at the start, and after each allowed step if it did before, holds throughout. -/
theorem keeps {motive : α → Machine σ β μ → Prop}
    (leads : LeadsTo body watch noted start current machine) (begins : motive noted start)
    (step : ∀ {current : α} {signals : List (Signal σ β)} {machine after : Machine σ β μ},
      LeadsTo body watch noted start current machine → watch.allows current machine →
      machine.step body = .ok (signals, after) → motive current machine →
        motive (watch.note current machine signals after) after) :
    motive current machine := by
  induction leads with
  | start => exact begins
  | step earlier allowed stepped ih => exact step earlier allowed stepped ih

theorem of_eq (leads : LeadsTo body watch noted start current machine) (same : current = other) :
    LeadsTo body watch noted start other machine :=
  same ▸ leads

theorem of_steps (count : Nat)
    (taken : watch.steps body noted start count = .ok (current, machine))
    (allowed : ∀ fewer < count, ∀ past before,
      watch.steps body noted start fewer = .ok (past, before) → watch.allows past before) :
    LeadsTo body watch noted start current machine := by
  induction count generalizing current machine with
  | zero =>
      cases taken
      exact .start
  | succ count ih =>
      obtain ⟨⟨past, before⟩, former, rest⟩ := bind_eq_ok taken
      obtain ⟨⟨signals, after⟩, stepped, returned⟩ := bind_eq_ok rest
      cases returned
      exact .step (ih former fun fewer below => allowed fewer (Nat.lt_succ_of_lt below))
        (allowed count (Nat.lt_succ_self count) past before former) stepped

theorem exists_steps (leads : LeadsTo body watch noted start current machine) :
    ∃ count, watch.steps body noted start count = .ok (current, machine) := by
  induction leads with
  | start => exact ⟨0, rfl⟩
  | step earlier allowed stepped ih =>
      obtain ⟨count, taken⟩ := ih
      refine ⟨count + 1, ?_⟩
      unfold Watch.steps
      simp only [taken, stepped, bind, Except.bind]
      rfl

end LeadsTo

/-- A machine that has nothing left to do stays as it is. -/
theorem Watch.steps_of_halted [Hook σ] {body : β → Script σ β μ} {watch : Watch σ β μ α}
    {noted current other : α} {start machine after : Machine σ β μ} {count more : Nat}
    (taken : watch.steps body noted start count = .ok (current, machine))
    (halted : machine.frames = []) (onward : count ≤ more)
    (arrived : watch.steps body noted start more = .ok (other, after)) : after = machine := by
  induction onward generalizing other after with
  | refl =>
      cases taken.symm.trans arrived
      rfl
  | step _ ih =>
      obtain ⟨⟨_, before⟩, former, rest⟩ := bind_eq_ok arrived
      obtain ⟨⟨_, _⟩, stepped, returned⟩ := bind_eq_ok rest
      cases returned
      cases ih former
      unfold step at stepped
      rw [halted] at stepped
      cases stepped
      rfl

/-- With this step a run begins that is asked for on top of these frames. -/
structure BeginsRun [Hook σ] (body : β → Script σ β μ) (machine : Machine σ β μ)
    (below : List (Frame σ β μ)) (signals : List (Signal σ β)) (after : Machine σ β μ) : Prop where
  here : ∃ next, machine.frames = .script (.run next) :: below
  stepped : machine.step body = .ok (signals, after)

end EventKernel.Machine
