import EventKernel.Proofs.HeldKeys

set_option autoImplicit false

/-! Queues that count no credit and are not explored. An operation on such a queue never
fails, and the next event is the one whose key is the least, so its keys alone tell what comes
out of it. No deadlock is ever met. -/

namespace EventKernel.Queue

open Exploration (Hook Perturbation)

variable {σ : Type} {queue : EventQueue σ} {entities : Nat} {keys : List EventKey}
  {policy : Bool}

namespace EventQueue

/-- A queue without credits and exploration, under this policy about cancelled events. -/
structure Plain (queue : EventQueue σ) (policy : Bool) : Prop where
  ordered : queue.layout.counts = false
  quiet : queue.perturbation.settings.enabled = false
  unexplored : queue.configuration.exploration.enabled = false
  removeCancelled : queue.configuration.strategies.removeCancelled = policy
  untroubled : queue.deadlocks = 0

namespace Plain

theorem of_new {configuration : Configuration} {hook : σ}
    (credits : configuration.strategies.localListsV2 = false)
    (quiet : configuration.exploration.enabled = false)
    (built : EventQueue.new configuration hook = .ok (.ok queue)) :
    queue.Plain configuration.strategies.removeCancelled := by
  obtain ⟨_, placed, same⟩ := new_eq_ok built
  obtain ⟨_, _, counts⟩ := sound_of_new built
  rw [same]
  exact ⟨counts.trans credits, quiet, quiet, rfl, Layout.new_untroubled placed⟩

theorem insert [Hook σ] (plain : queue.Plain policy) (holds : queue.Holds entities keys)
    {event : Event} (owner : event.key.context.Known entities)
    (cause : event.prevContext.Known entities) (fresh : event.key.uid ∉ keys.map EventKey.uid) :
    ∃ after, queue.insert event = .ok (.ok event.key, after) ∧ after.Plain policy := by
  obtain ⟨layout, placed, counts, _⟩ := holds.place event owner cause fresh
  have applied : queue.perturbation.apply queue.hook event =
      .ok (.ok event, queue.perturbation, queue.hook) := by
    unfold Perturbation.apply
    rw [plain.quiet, Bool.not_false, if_pos rfl]
  refine ⟨{ queue with layout }, ?_,
    counts.trans plain.ordered, plain.quiet, plain.unexplored, plain.removeCancelled,
    (Layout.insert_keeps placed).2.trans plain.untroubled⟩
  unfold EventQueue.insert EventQueue.reports
  simp only [applied, placed, bind, Except.bind, plain.unexplored, Bool.false_and]
  rfl

theorem pop (plain : queue.Plain policy) (holds : queue.Holds entities keys) {key : EventKey}
    (member : key ∈ keys) (least : ∀ other ∈ keys, key.rank ≤ other.rank) :
    ∃ event after, event.key = key ∧ queue.pop = .ok (some event, after) ∧
      after.Plain policy := by
  obtain ⟨event, present, rfl⟩ := List.mem_map.mp (holds.listed.mem_iff.mpr member)
  have leastOf : event.LeastOf queue.layout.events := ⟨present, fun other held =>
    least other.key (holds.listed.mem_iff.mp (List.mem_map_of_mem held))⟩
  obtain ⟨layout, popped, _, counts, _⟩ := holds.sound.pop_least plain.ordered leastOf
  refine ⟨event, { queue with layout }, rfl, ?_,
    counts, plain.quiet, plain.unexplored, plain.removeCancelled,
    (holds.sound.pop_keeps plain.ordered popped).trans plain.untroubled⟩
  unfold EventQueue.pop
  simp only [popped, bind, Except.bind]
  rfl

theorem erase (plain : queue.Plain policy) (holds : queue.Holds entities keys) {key : EventKey}
    (member : key ∈ keys) :
    ∃ event after, queue.erase key = .ok (some event, after) ∧ after.Plain policy ∧
      after.Holds entities (keys.erase key) := by
  obtain ⟨event, present, rfl⟩ := List.mem_map.mp (holds.listed.mem_iff.mpr member)
  obtain ⟨other, held, same, after, erased, afterHolds⟩ := holds.erase member
  obtain ⟨layout, removed, _, counts, _⟩ := holds.sound.erase_live present
  refine ⟨other, after, erased, ?_, afterHolds⟩
  unfold EventQueue.erase at erased
  simp only [removed, bind, Except.bind] at erased
  cases erased
  exact ⟨counts.trans plain.ordered, plain.quiet, plain.unexplored, plain.removeCancelled,
    (Layout.erase_keeps removed).2.trans plain.untroubled⟩

theorem drain (plain : queue.Plain policy) : queue.drain.2.Plain policy :=
  ⟨Layout.drain_keeps.1.trans plain.ordered, plain.quiet, plain.unexplored,
    plain.removeCancelled, Layout.drain_keeps.2.trans plain.untroubled⟩

theorem reinsertAll (events : List Event) :
    ∀ {queue after : EventQueue σ}, queue.Plain policy → queue.reinsertAll events = .ok after →
      after.Plain policy := by
  induction events with
  | nil =>
      intro queue after plain moved
      cases moved
      exact plain
  | cons event rest ih =>
      intro queue after plain moved
      obtain ⟨next, placed, moved⟩ := bind_eq_ok moved
      obtain ⟨layout, inserted, returned⟩ := bind_eq_ok placed
      cases returned
      obtain ⟨counts, deadlocks⟩ := Layout.insert_keeps inserted
      have placedPlain : EventQueue.Plain { queue with layout } policy :=
        ⟨counts.trans plain.ordered, plain.quiet, plain.unexplored, plain.removeCancelled,
          deadlocks.trans plain.untroubled⟩
      exact ih placedPlain moved

end Plain

theorem Holds.exists_least (holds : queue.Holds entities keys) (some : keys ≠ []) :
    ∃ key ∈ keys, ∀ other ∈ keys, key.rank ≤ other.rank := by
  have events : queue.layout.events ≠ [] := fun noEvents =>
    some (holds.isEmpty_iff.mp (Layout.isEmpty_iff.mpr noEvents))
  obtain ⟨event, leastOf⟩ := Event.exists_leastOf events
  refine ⟨event.key, holds.listed.mem_iff.mp (List.mem_map_of_mem leastOf.member), ?_⟩
  intro other member
  obtain ⟨held, present, rfl⟩ := List.mem_map.mp (holds.listed.mem_iff.mpr member)
  exact leastOf.below held present

end EventQueue

end EventKernel.Queue
