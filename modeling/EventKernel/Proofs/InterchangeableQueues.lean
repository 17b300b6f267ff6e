import EventKernel.Proofs.CoupledSimulations
import EventKernel.Proofs.PlainSimulations

set_option autoImplicit false

/-! Two simulations that differ in their queues only. Both queues hold the same keys, but one may
keep them in a single list and the other in lanes, with barriers or without. As long as neither
counts credit nor is explored, each operation fails in both or in none, answers alike, and
leaves the two as they were to each other. Either may also move its events into another queue
of this kind. -/

namespace EventKernel

open Queue (EventQueue Configuration)
open Exploration (Hook)

/-- A configuration for so many entities without credits and exploration, under this policy
about cancelled events. Whatever else it says is left open. -/
structure Queue.Configuration.Ordinary (configuration : Configuration) (entities : Nat)
    (policy : Bool) : Prop where
  covers : configuration.entities = entities
  credits : configuration.strategies.localListsV2 = false
  quiet : configuration.exploration.enabled = false
  removeCancelled : configuration.strategies.removeCancelled = policy

namespace Queue.EventQueue

variable {σ : Type} {queue : EventQueue σ} {entities : Nat} {policy : Bool}

/-- A queue that was just built under an ordinary configuration. -/
def Fresh (entities : Nat) (policy : Bool) (queue : EventQueue σ) : Prop :=
  ∃ configuration hook, configuration.Ordinary entities policy ∧
    EventQueue.new configuration hook = .ok (.ok queue)

namespace Fresh

variable (fresh : queue.Fresh entities policy)

include fresh

theorem entities_eq : queue.entities = entities := by
  obtain ⟨configuration, hook, ordinary, built⟩ := fresh
  exact (congrArg Configuration.entities (configuration_of_new built)).trans ordinary.covers

theorem holds : queue.Holds entities [] := by
  have same := fresh.entities_eq
  obtain ⟨configuration, hook, ordinary, built⟩ := fresh
  exact same ▸ new_holds built

theorem plain : queue.Plain policy := by
  obtain ⟨configuration, hook, ordinary, built⟩ := fresh
  exact ordinary.removeCancelled ▸ .of_new ordinary.credits ordinary.quiet built

end Fresh

end Queue.EventQueue

/-- A request that leaves the queue in its place, and whose answer does not tell how the queue is
built. -/
def Request.Comparable {σ β : Type} : {reply : Reply} → Request σ β reply → Prop
  | _, .replaceQueue _ => False
  | _, .describe => False
  | _, .trace => False
  | _, .configuration => False
  | _, _ => True

/-- A request that tells how the queue is built, and changes nothing. -/
def Request.Inspects {σ β : Type} : {reply : Reply} → Request σ β reply → Prop
  | _, .describe => True
  | _, .trace => True
  | _, .configuration => True
  | _, _ => False

namespace Simulation

variable {σ β : Type} {simulation first second : Simulation σ β} {entities : Nat}
  {keys : List EventKey} {given : Handle → Prop} {policy : Bool}

theorem Booked.exchange (booked : simulation.Booked entities keys given) {queue : EventQueue σ}
    (holds : queue.Holds entities keys) : { simulation with queue }.Booked entities keys given :=
  { booked with holds }

private theorem Booked.replaceQueue_fresh (booked : simulation.Booked entities keys given)
    {replacement : EventQueue σ} (fresh : replacement.Fresh entities policy) :
    ∃ queue, simulation.replaceQueue replacement = .ok { simulation with queue } ∧
      queue.Holds entities keys ∧ queue.Plain policy := by
  obtain ⟨all, _⟩ := booked.holds.drain
  obtain ⟨layout, moved, holds, _⟩ := booked.holds.move fresh.holds
  refine ⟨{ replacement with layout }, ?_, holds, fresh.plain.reinsertAll _ moved⟩
  unfold Simulation.replaceQueue
  rw [if_pos (fresh.entities_eq.trans booked.clocks.symm), all]
  simp only [moved, bind, Except.bind]
  rfl

def Interchanged (entities : Nat) (policy : Bool) (given : Handle → Prop)
    (first second : Simulation σ β) : Prop :=
  ∃ keys queue, second = { first with queue } ∧ first.Booked entities keys given ∧
    first.queue.Plain policy ∧ queue.Holds entities keys ∧ queue.Plain policy

namespace Interchanged

variable (interchanged : Interchanged entities policy given first second)

include interchanged

theorem symm : Interchanged entities policy given second first := by
  obtain ⟨keys, queue, rfl, booked, plain, holds, otherPlain⟩ := interchanged
  exact ⟨keys, first.queue, rfl, booked.exchange holds, otherPlain, booked.holds, plain⟩

theorem weaken {fewer : Handle → Prop} (among : ∀ handle, fewer handle → given handle) :
    Interchanged entities policy fewer first second := by
  obtain ⟨keys, queue, same, booked, rest⟩ := interchanged
  exact ⟨keys, queue, same, booked.weaken among, rest⟩

theorem elsewhere : second = { first with queue := second.queue } := by
  obtain ⟨keys, queue, rfl, _⟩ := interchanged
  rfl

theorem destroyEvents_eq : second.destroyEvents = first.destroyEvents := by
  rw [interchanged.elsewhere]

theorem pending_eq : second.pending = first.pending := by
  obtain ⟨keys, queue, rfl, booked, _, holds, _⟩ := interchanged
  exact holds.size_eq.trans booked.holds.size_eq.symm

private theorem isEmpty_eq : second.queue.isEmpty = first.queue.isEmpty := by
  obtain ⟨keys, queue, rfl, booked, _, holds, _⟩ := interchanged
  exact Bool.eq_iff_iff.mpr (holds.isEmpty_iff.trans booked.holds.isEmpty_iff.symm)

theorem isExpired_eq (handle : Handle) : second.isExpired handle = first.isExpired handle := by
  rw [interchanged.elsewhere]
  rfl

theorem delayLeft_eq (handle : Handle) : second.delayLeft handle = first.delayLeft handle := by
  rw [interchanged.elsewhere]
  rfl

theorem goesOn_eq : second.goesOn = first.goesOn := by
  unfold goesOn
  rw [interchanged.isEmpty_eq, interchanged.elsewhere]

theorem endRun_eq (before : Nat) : second.endRun before = first.endRun before := by
  have empty := interchanged.isEmpty_eq
  obtain ⟨keys, queue, rfl, _, plain, _, otherPlain⟩ := interchanged
  unfold endRun
  change queue.isEmpty = _ at empty
  simp only [empty, plain.untroubled, otherPlain.untroubled]

theorem dequeue (goes : first.goesOn = true) :
    Alike (fun left right => left.1 = right.1 ∧
        Interchanged entities policy given left.2 right.2) first.dequeue second.dequeue := by
  obtain ⟨keys, queue, rfl, booked, plain, holds, otherPlain⟩ := interchanged
  obtain ⟨_, some_⟩ := booked.goesOn_iff.mp goes
  obtain ⟨key, member, least⟩ := booked.holds.exists_least some_
  obtain ⟨slot, found⟩ := booked.slot_iff.mpr (List.mem_map_of_mem member)
  obtain ⟨left, leftCount, leftPlain, leftBooked, taken⟩ :=
    booked.dequeue_least plain member least found
  obtain ⟨right, rightCount, rightPlain, rightBooked, otherTaken⟩ :=
    (booked.exchange holds).dequeue_least otherPlain member least found
  have counted : rightCount = leftCount := rightBooked.counted.trans leftBooked.counted.symm
  rw [taken, otherTaken, counted]
  exact ⟨rfl, keys.erase key, right, rfl,
    leftBooked.turned ((first.bearings.enter_length key).trans booked.clocks), leftPlain,
    rightBooked.holds, rightPlain⟩

private theorem removeLive {handle : Handle} (known : given handle)
    (queued : handle.isDestroy = false) (asked : first.isExpired handle = .ok false) :
    Alike (Interchanged entities policy given) (first.remove handle) (second.remove handle) := by
  have expired := (interchanged.isExpired_eq handle).trans asked
  obtain ⟨keys, queue, rfl, booked, plain, holds, otherPlain⟩ := interchanged
  obtain ⟨left, leftCount, leftPlain, removes, leftBooked⟩ :=
    booked.remove_plain plain known queued asked
  obtain ⟨right, rightCount, rightPlain, others, rightBooked⟩ :=
    (booked.exchange holds).remove_plain otherPlain known queued expired
  have counted : rightCount = leftCount := rightBooked.counted.trans leftBooked.counted.symm
  rw [removes, others, counted]
  exact ⟨_, right, rfl, leftBooked, leftPlain, rightBooked.holds, rightPlain⟩

private theorem cancelLive {handle : Handle} (known : given handle)
    (queued : handle.isDestroy = false) (asked : first.isExpired handle = .ok false) :
    Alike (Interchanged entities policy given) (first.cancel handle) (second.cancel handle) := by
  have removes := interchanged.removeLive known queued asked
  have expired := (interchanged.isExpired_eq handle).trans asked
  obtain ⟨keys, queue, rfl, booked, plain, holds, otherPlain⟩ := interchanged
  unfold Simulation.cancel
  simp only [asked, expired, queued, bind, Except.bind, plain.removeCancelled,
    otherPlain.removeCancelled]
  cases policy with
  | true => exact removes
  | false =>
      exact ⟨keys, queue, rfl, booked.cancelled known queued asked, plain, holds, otherPlain⟩

private theorem enqueue [Hook σ] {event : Event} {nextUid : EventUid}
    (owner : event.key.context.Known entities) (cause : event.prevContext.Known entities)
    (numbered : event.key.uid = first.nextUid)
    (following : first.nextUid.value.toNat + 1 = nextUid.value.toNat) (callback : Callback β) :
    Alike (fun left right => left.1 = right.1 ∧
        Interchanged entities policy (fun other => given other ∨ other = left.1) left.2 right.2)
      (Simulation.enqueue { first with nextUid } event callback)
      (Simulation.enqueue { second with nextUid } event callback) := by
  obtain ⟨keys, queue, rfl, booked, plain, holds, otherPlain⟩ := interchanged
  obtain ⟨left, leftPlain, enters, leftBooked⟩ :=
    booked.enqueue_plain plain owner cause numbered following callback
  obtain ⟨right, rightPlain, others, rightBooked⟩ :=
    (booked.exchange holds).enqueue_plain otherPlain owner cause numbered following callback
  change Simulation.enqueue { first with nextUid, queue } event callback = _ at others
  rw [enters, others]
  exact ⟨rfl, _, right, rfl, leftBooked, leftPlain, rightBooked.holds, rightPlain⟩

omit interchanged in
/-- The two stay as they are to each other, whatever is asked of both. -/
theorem coupling [Hook σ] :
    Coupling entities (Interchanged (σ := σ) (β := β) entities policy) where
  elsewhere := fun ⟨_, _, same, _⟩ => ⟨_, _, _, same⟩
  clocks := fun ⟨_, _, _, booked, _⟩ => booked.clocks
  weaken := fun interchanged => interchanged.weaken
  changed := fun interchanged later queue clocks slots number count _ => by
    obtain ⟨keys, other, rfl, booked, plain, rest⟩ := interchanged
    refine ⟨keys, other, ?_, booked.of_same queue clocks slots number count, queue ▸ plain, rest⟩
    simp only [slots, count]
  enqueue := fun interchanged owner cause numbered following callback =>
    interchanged.enqueue owner cause numbered following callback
  register := fun ⟨keys, queue, same, booked, rest⟩ registers => by
    subst same
    have registered := booked.registered registers
    obtain ⟨nextUid, _, _, rfl⟩ := scheduleDestroy_eq_ok registers
    exact ⟨keys, queue, rfl, registered, rest⟩
  isExpired := fun interchanged => interchanged.isExpired_eq
  removeLive := fun interchanged => interchanged.removeLive
  cancelLive := fun interchanged => interchanged.cancelLive
  dispose := fun ⟨_, queue, same, booked, plain, holds, otherPlain⟩ => by
    subst same
    exact ⟨[], _, rfl, booked.dispose, plain.drain, holds.drain.2, otherPlain.drain⟩

end Interchanged

namespace Interchanged

variable {history : List (Signal σ β)}
  (interchanged : Interchanged entities policy (Given history) first second)

include interchanged

theorem answer [Hook σ] {reply : Reply} {request : Request σ β reply}
    (comparable : request.Comparable) (lawful : request.Lawful history) :
    Alike (fun left right => left.1 = right.1 ∧ Interchanged entities policy
        (Given (history ++ [.answered request left.1])) left.2 right.2)
      (request.answer first) (request.answer second) := by
  have pending := interchanged.pending_eq
  cases request with
  | pending => exact ⟨pending.symm, coupling.told interchanged fun _ gives => nomatch gives⟩
  | detail =>
      have same := interchanged.elsewhere
      refine ⟨?_, coupling.told interchanged fun _ gives => nomatch gives⟩
      change first.detail = second.detail
      unfold detail
      rw [pending, same]
  | replaceQueue | describe | trace | configuration => exact comparable.elim
  | _ => exact coupling.answer interchanged trivial lawful

/-- A look at the queue changes neither simulation; the answers may differ. -/
theorem inspect [Hook σ] {reply : Reply} {request : Request σ β reply}
    (inspects : request.Inspects) :
    ∃ value other, request.answer first = .ok (value, first) ∧
      request.answer second = .ok (other, second) ∧
      Interchanged entities policy (Given (history ++ [.answered request value])) first second := by
  cases request with
  | describe | trace | configuration =>
      exact ⟨_, _, rfl, rfl, coupling.told interchanged fun _ gives => nomatch gives⟩
  | _ => exact inspects.elim

theorem replace {replacement : EventQueue σ} (fresh : replacement.Fresh entities policy) :
    ∃ later, first.replaceQueue replacement = .ok later ∧
      Interchanged entities policy (Given history) later second := by
  obtain ⟨keys, queue, rfl, booked, plain, holds, otherPlain⟩ := interchanged
  obtain ⟨other, replaced, otherHolds, stays⟩ := booked.replaceQueue_fresh fresh
  exact ⟨_, replaced, keys, queue, rfl, booked.exchange otherHolds, stays, holds, otherPlain⟩

end Interchanged

end Simulation

end EventKernel
