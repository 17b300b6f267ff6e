import EventKernel.Proofs.AlikeComputations
import EventKernel.Proofs.OwnerOrder
import Mathlib.Data.List.Forall2

set_option autoImplicit false

/-! Operations one after another, on whatever kind of queue: what each answers, and what can be read
off the queue after it. Two queues that stay related by every operation have the same traces. -/

namespace EventKernel.Queue

variable {α β ρ : Type}

/-- The answers to operations one after another, each with what can be read after it. They end with
the first fault. -/
def trace (perform : α → Operation → Except Fault (Answer × α)) (read : α → ρ) :
    α → List Operation → List (Answer × ρ) × Option Fault
  | _, [] => ([], none)
  | queue, operation :: rest =>
      match perform queue operation with
      | .error fault => ([], some fault)
      | .ok (answer, after) =>
          let (readings, fault?) := trace perform read after rest
          ((answer, read after) :: readings, fault?)

/-- The answers to operations one after another, and the queue that is left. -/
def answers (perform : α → Operation → Except Fault (Answer × α)) :
    α → List Operation → Except Fault (List Answer × α)
  | queue, [] => return ([], queue)
  | queue, operation :: rest => do
      let (answer, after) ← perform queue operation
      let (others, last) ← answers perform after rest
      return (answer :: others, last)

structure TracesAgree (left right : List (Answer × ρ) × Option Fault) : Prop where
  readings : List.Forall₂ (fun here there => here.1.Agrees there.1 ∧ here.2 = there.2)
    left.1 right.1
  fault : left.2 = right.2

/-- Every event has a serial number, when it is put in, that no event held then has. -/
def Numbered (perform : α → Operation → Except Fault (Answer × α)) (keys : α → List EventKey) :
    α → List Operation → Prop
  | _, [] => True
  | queue, operation :: rest => operation.Fresh (keys queue) ∧
      match perform queue operation with
      | .error _ => True
      | .ok (_, after) => Numbered perform keys after rest

instance Numbered.decidable (perform : α → Operation → Except Fault (Answer × α))
    (keys : α → List EventKey) : (queue : α) → (operations : List Operation) →
      Decidable (Numbered perform keys queue operations)
  | _, [] => inferInstanceAs (Decidable True)
  | queue, operation :: rest =>
      let _ : Decidable (match perform queue operation with
          | .error _ => True
          | .ok (_, after) => Numbered perform keys after rest) :=
        match perform queue operation with
        | .error _ => inferInstanceAs (Decidable True)
        | .ok (_, after) => Numbered.decidable perform keys after rest
      inferInstanceAs (Decidable (operation.Fresh (keys queue) ∧ _))

section

variable {perform : α → Operation → Except Fault (Answer × α)}
  {other : β → Operation → Except Fault (Answer × β)} {read : α → ρ} {reading : β → ρ}
  {keys : α → List EventKey} {related : α → β → Prop}

/-- Two queues that stay related by each operation of a kind have the same traces of these. -/
theorem traces_agree_among (allowed : Operation → Prop)
    (performed : ∀ first second operation, allowed operation → related first second →
      operation.Fresh (keys first) →
      Alike (fun left right => left.1.Agrees right.1 ∧ related left.2 right.2)
        (perform first operation) (other second operation))
    (reads : ∀ first second, related first second → read first = reading second) {first : α}
    {second : β} (relates : related first second) {operations : List Operation}
    (among : ∀ operation ∈ operations, allowed operation)
    (numbered : Numbered perform keys first operations) :
    TracesAgree (trace perform read first operations) (trace other reading second operations) := by
  induction operations generalizing first second with
  | nil => exact ⟨.nil, rfl⟩
  | cons operation rest ih =>
      obtain ⟨fresh, later⟩ := numbered
      have alike := performed first second operation (among operation List.mem_cons_self) relates
        fresh
      unfold trace
      cases here : perform first operation with
      | error fault =>
          rw [alike.fails here]
          exact ⟨.nil, rfl⟩
      | ok result =>
          obtain ⟨answer, after⟩ := result
          obtain ⟨⟨otherAnswer, otherAfter⟩, there, agrees, kept⟩ := alike.returns here
          rw [here] at later
          rw [there]
          obtain ⟨readings, fault⟩ :=
            ih kept (fun asked member => among asked (List.mem_cons_of_mem _ member)) later
          exact ⟨.cons ⟨agrees, reads _ _ kept⟩ readings, fault⟩

/-- Two queues that stay related by each operation have the same traces. -/
theorem traces_agree
    (performed : ∀ first second operation, related first second → operation.Fresh (keys first) →
      Alike (fun left right => left.1.Agrees right.1 ∧ related left.2 right.2)
        (perform first operation) (other second operation))
    (reads : ∀ first second, related first second → read first = reading second) {first : α}
    {second : β} (relates : related first second) {operations : List Operation}
    (numbered : Numbered perform keys first operations) :
    TracesAgree (trace perform read first operations) (trace other reading second operations) :=
  traces_agree_among (fun _ => True) (fun first second operation _ =>
    performed first second operation) reads relates (fun _ _ => trivial) numbered

end

end EventKernel.Queue
