import EventKernel.Proofs.QueueProperties

set_option autoImplicit false

/-! Whether a queue counts credit is settled when it is built. No operation on it makes a
difference, and a simulation gets the credit rule only with another queue. -/

namespace EventKernel

open Queue (Configuration EventQueue)
open Exploration (Hook)

namespace Queue.EventQueue

variable {σ : Type} {queue after : EventQueue σ}

private theorem insert_counts [Hook σ] {event : Event} {answer : Except BranchEnded EventKey}
    (inserted : queue.insert event = .ok (answer, after)) :
    after.layout.counts = queue.layout.counts := by
  obtain ⟨⟨prepared, perturbation, hook⟩, applied, rest⟩ := bind_eq_ok inserted
  cases prepared with
  | error ended =>
      cases rest
      rfl
  | ok shifted =>
      obtain ⟨layout, placed, answered⟩ := bind_eq_ok rest
      have kept := (Layout.insert_settings placed).1.counts_eq
      cases answered
      split
      · exact kept
      · exact kept

theorem lasting_counts [Hook σ] (counts : Bool) :
    Lasting fun queue : EventQueue σ => queue.layout.counts = counts where
  insert := by
    intro queue after event answer inserted same
    exact (insert_counts inserted).trans same
  reinsert := by
    intro queue after event inserted same
    obtain ⟨layout, placed, returned⟩ := bind_eq_ok inserted
    cases returned
    exact (Layout.insert_settings placed).1.counts_eq.trans same
  pop := by
    intro queue after event? popped same
    obtain ⟨_, taken, returned⟩ := bind_eq_ok popped
    cases returned
    exact (Layout.pop_settings taken).counts_eq.trans same
  erase := by
    intro queue after key event? erased same
    obtain ⟨_, removed, returned⟩ := bind_eq_ok erased
    cases returned
    exact (Layout.erase_settings removed).counts_eq.trans same
  drain := by
    intro queue same
    exact queue.layout.drain_settings.counts_eq.trans same

end Queue.EventQueue

def Request.Uncredited {σ β : Type} : {reply : Reply} → Request σ β reply → Prop
  | _, .replaceQueue replacement =>
      replacement.configuration.strategies.localListsV2 = false
  | _, _ => True

namespace Simulation

variable {σ β : Type} {simulation after : Simulation σ β}

def Uncredited (simulation : Simulation σ β) : Prop := simulation.queue.layout.counts = false

variable [Hook σ]

theorem beginRun_uncredited (begun : simulation.beginRun = .ok after)
    (uncredited : simulation.Uncredited) : after.Uncredited :=
  (EventQueue.lasting_counts false).beginRun begun uncredited

theorem answer_uncredited {reply : Reply} {request : Request σ β reply} {value : reply.Value}
    {history : List (Signal σ β)} (plain : request.Uncredited)
    (lawful : request.Lawful history) (answered : request.answer simulation = .ok (value, after))
    (uncredited : simulation.Uncredited) : after.Uncredited := by
  refine (EventQueue.lasting_counts false).answer ?_ answered uncredited
  cases request with
  | replaceQueue replacement =>
      obtain ⟨configuration, hook, built⟩ := lawful
      have settings : replacement.configuration.strategies.localListsV2 = false := plain
      rw [EventQueue.configuration_of_new built] at settings
      exact (EventQueue.sound_of_new built).2.2.trans settings
  | _ => trivial

end Simulation

end EventKernel
