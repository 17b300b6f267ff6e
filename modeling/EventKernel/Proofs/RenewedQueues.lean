import EventKernel.Proofs.InterchangeableQueues
import EventKernel.Proofs.RefilledQueues

set_option autoImplicit false

/-! Two simulations whose queues hold the same events and the same credit, but may have counted
more or fewer deadlocks. Each operation fails in both or in none, answers alike, and leaves
the two as they were to each other; under the credit rule as well. Both may move their events
into another queue. A simulation that has moved its events into a new queue of its own
configuration is related in this way to what it would be without its credit. -/

namespace EventKernel

open Queue (EventQueue Configuration Layout LaneQueue)
open Exploration (Hook)

namespace Queue.EventQueue

variable {σ : Type} {first second : EventQueue σ} {entities : Nat} {keys : List EventKey}

structure Paired (entities : Nat) (keys : List EventKey) (first second : EventQueue σ) : Prop where
  fits : first.Fits entities
  left : first.Holds entities keys
  right : second.Holds entities keys
  twins : ∃ lead, first.Twins lead second

namespace Paired

variable (paired : Paired entities keys first second)

include paired

private theorem symm : Paired entities keys second first := by
  obtain ⟨lead, twins⟩ := paired.twins
  exact ⟨twins.fits paired.fits, paired.right, paired.left, -lead, twins.symm⟩

private theorem configuration_eq : second.configuration = first.configuration := by
  obtain ⟨lead, twins⟩ := paired.twins
  exact twins.configuration

private theorem size_eq :
    second.size = first.size := paired.right.size_eq.trans paired.left.size_eq.symm

private theorem isEmpty_eq : second.isEmpty = first.isEmpty :=
  Bool.eq_iff_iff.mpr (paired.right.isEmpty_iff.trans paired.left.isEmpty_iff.symm)

private theorem insert [Hook σ] {event : Event} (owner : event.key.context.Known entities)
    (cause : event.prevContext.Known entities) (fresh : event.key.uid ∉ keys.map EventKey.uid) :
    ∃ left right, first.insert event = .ok (.ok event.key, left) ∧
      second.insert event = .ok (.ok event.key, right) ∧
      Paired entities (event.key :: keys) left right := by
  obtain ⟨lead, twins⟩ := paired.twins
  obtain ⟨here, placed, _, _, holds⟩ := paired.left.place event owner cause fresh
  obtain ⟨there, otherPlaced, _, _, others⟩ := paired.right.place event owner cause fresh
  have newUid : ∀ other ∈ first.layout.events, other.key.uid ≠ event.key.uid := by
    intro other member same
    refine fresh (same ▸ ?_)
    exact List.mem_map_of_mem (paired.left.listed.mem_iff.mp (List.mem_map_of_mem member))
  have alike := twins.layouts.insert event newUid
  rw [placed, otherPlaced] at alike
  have inserted : first.insert event = .ok (.ok event.key, { first with layout := here }) := by
    rw [twins.left.insert_eq, placed]
    rfl
  have otherInserted :
      second.insert event = .ok (.ok event.key, { second with layout := there }) := by
    rw [twins.right.insert_eq, otherPlaced]
    rfl
  exact ⟨_, _, inserted, otherInserted, paired.fits.insert twins.left inserted,
    holds _ rfl, others _ rfl, lead, twins.relayout alike⟩

private theorem pop : Alike (fun left right => left.1 = right.1 ∧
      Paired entities (left.1.elim keys fun event => keys.erase event.key) left.2 right.2)
    first.pop second.pop := by
  obtain ⟨lead, twins⟩ := paired.twins
  have held {queue after : EventQueue σ} {event? : Option Event}
      (holds : queue.Holds entities keys) (popped : queue.pop = .ok (event?, after)) :
      after.Holds entities (event?.elim keys fun event => keys.erase event.key) := by
    rcases holds.pop with ⟨_, _, pops, nothing, some_⟩ | fails
    · cases pops.symm.trans popped
      cases event? with
      | none => exact (nothing rfl).2 ▸ holds
      | some event => exact (some_ event rfl).2
    · cases fails.symm.trans popped
  refine twins.pop.imp ?_
  rintro ⟨event?, left⟩ ⟨_, right⟩ popped otherPopped ⟨rfl, kept⟩
  exact ⟨rfl, paired.fits.pop popped, held paired.left popped,
    held paired.right otherPopped, lead, kept⟩

private theorem erase {key : EventKey} (member : key ∈ keys) :
    ∃ event left right, first.erase key = .ok (some event, left) ∧
      second.erase key = .ok (some event, right) ∧
      Paired entities (keys.erase key) left right := by
  obtain ⟨lead, twins⟩ := paired.twins
  obtain ⟨event, _, rfl, left, erased, holds⟩ := paired.left.erase member
  obtain ⟨_, _, _, right, otherErased, others⟩ := paired.right.erase member
  have alike := twins.erase event.key fun _ none_ => nomatch none_
  rw [erased, otherErased] at alike
  obtain ⟨same, kept⟩ := alike
  cases same
  exact ⟨event, left, right, erased, otherErased,
    paired.fits.erase erased, holds, others, lead, kept⟩

private theorem drain : Paired entities [] first.drain.2 second.drain.2 := by
  obtain ⟨lead, twins⟩ := paired.twins
  exact ⟨paired.fits.drain, paired.left.drain.2, paired.right.drain.2, lead, twins.drain⟩

end Paired

private theorem Fits.empty {fresh : EventQueue σ} {configuration : Configuration} {hook : σ}
    (built : EventQueue.new configuration hook = .ok (.ok fresh))
    (covers : configuration.entities = entities) :
    fresh.Fits entities ∧ fresh.Holds entities [] := by
  have same : fresh.entities = entities :=
    (congrArg Configuration.entities (configuration_of_new built)).trans covers
  exact ⟨covers ▸ .of_new built, same ▸ new_holds built⟩

private theorem Paired.move (paired : Paired entities keys first second)
    {replacement : EventQueue σ} {configuration : Configuration} {hook : σ}
    (built : EventQueue.new configuration hook = .ok (.ok replacement))
    (quiet : configuration.exploration.enabled = false)
    (covers : configuration.entities = entities) :
    ∃ left right, replacement.reinsertAll first.drain.1 = .ok left ∧
      replacement.reinsertAll second.drain.1 = .ok right ∧ Paired entities keys left right := by
  obtain ⟨lead, twins⟩ := paired.twins
  obtain ⟨fits, empty⟩ := Fits.empty built covers
  have unexplored := Unexplored.of_new quiet built
  obtain ⟨here, moved, holds, all, settings, credits⟩ := paired.left.move empty
  obtain ⟨there, otherMoved, others, otherAll, otherSettings, otherCredits⟩ :=
    paired.right.move empty
  have refills : replacement.Refills { replacement with layout := here } :=
    ⟨rfl, settings, credits⟩
  have otherRefills : replacement.Refills { replacement with layout := there } :=
    ⟨rfl, otherSettings, otherCredits⟩
  obtain ⟨last, moves⟩ := refills.twins otherRefills ⟨unexplored.quiet, unexplored.unexplored⟩
    ⟨unexplored.quiet, unexplored.unexplored⟩ holds.sound others.sound
    (all.trans ((Layout.Twins.events twins.layouts).trans otherAll.symm))
  rw [paired.left.drain.1, paired.right.drain.1]
  exact ⟨_, _, moved, otherMoved, fits.of_settings rfl settings, holds, others, last, moves⟩

theorem Paired.renew {queue replacement : EventQueue σ} {hook : σ}
    (fits : queue.Fits entities) (holds : queue.Holds entities keys) (unexplored : queue.Unexplored)
    (built : EventQueue.new queue.configuration hook = .ok (.ok replacement)) :
    ∃ renewed, replacement.reinsertAll queue.drain.1 = .ok renewed ∧
      Paired entities keys renewed queue.forgetCredit := by
  obtain ⟨freshFits, empty⟩ := Fits.empty built fits.covers
  have fresh := Unexplored.of_new unexplored.unexplored built
  obtain ⟨layout, moved, others, all, settings, credits⟩ := holds.move empty
  have forgotten : queue.forgetCredit.Holds entities keys :=
    ⟨holds.sound.forgetCredit, queue.layout.forgetCredit_events ▸ holds.listed,
      queue.layout.forgetCredit_events ▸ holds.known⟩
  have refills : replacement.Refills { replacement with layout } := ⟨rfl, settings, credits⟩
  obtain ⟨lead, twins⟩ := refills.twins (fits.refills holds.sound built)
    ⟨fresh.quiet, fresh.unexplored⟩ ⟨unexplored.quiet, unexplored.unexplored⟩ others.sound
    forgotten.sound (queue.layout.forgetCredit_events.symm ▸ all)
  rw [holds.drain.1]
  exact ⟨_, moved, freshFits.of_settings rfl settings, others, forgotten, lead, twins⟩

end Queue.EventQueue

/-- A summary that does not tell how many deadlocks were met. -/
def RunSummary.levelled (summary : RunSummary) : RunSummary := { summary with deadlocks := 0 }

namespace Simulation

variable {σ β : Type} {simulation first second : Simulation σ β} {entities : Nat}
  {keys : List EventKey} {given : Handle → Prop}

def forgetCredit (simulation : Simulation σ β) : Simulation σ β :=
  { simulation with queue := simulation.queue.forgetCredit }

def Renewed (entities : Nat) (given : Handle → Prop) (first second : Simulation σ β) : Prop :=
  ∃ keys queue, second = { first with queue } ∧ first.Booked entities keys given ∧
    first.queue.Paired entities keys queue

namespace Renewed

variable (renewed : Renewed entities given first second)

include renewed

theorem symm : Renewed entities given second first := by
  obtain ⟨keys, queue, rfl, booked, paired⟩ := renewed
  exact ⟨keys, first.queue, rfl, booked.exchange paired.right, paired.symm⟩

theorem weaken {fewer : Handle → Prop} (among : ∀ handle, fewer handle → given handle) :
    Renewed entities fewer first second := by
  obtain ⟨keys, queue, same, booked, paired⟩ := renewed
  exact ⟨keys, queue, same, booked.weaken among, paired⟩

theorem elsewhere : second = { first with queue := second.queue } := by
  obtain ⟨keys, queue, rfl, _⟩ := renewed
  rfl

theorem destroyEvents_eq : second.destroyEvents = first.destroyEvents := by
  rw [renewed.elsewhere]

theorem configuration_eq : second.queue.configuration = first.queue.configuration := by
  obtain ⟨keys, queue, rfl, _, paired⟩ := renewed
  exact paired.configuration_eq

theorem pending_eq : second.pending = first.pending := by
  obtain ⟨keys, queue, rfl, _, paired⟩ := renewed
  exact paired.size_eq

theorem isExpired_eq (handle : Handle) : second.isExpired handle = first.isExpired handle := by
  rw [renewed.elsewhere]
  rfl

theorem delayLeft_eq (handle : Handle) : second.delayLeft handle = first.delayLeft handle := by
  rw [renewed.elsewhere]
  rfl

theorem goesOn_eq : second.goesOn = first.goesOn := by
  obtain ⟨keys, queue, rfl, _, paired⟩ := renewed
  have empty : queue.isEmpty = first.queue.isEmpty := paired.isEmpty_eq
  unfold goesOn
  rw [empty]

theorem endRun (before : Nat) :
    Alike (fun left right => RunSummary.levelled <$> left = RunSummary.levelled <$> right)
      (first.endRun before) (second.endRun before) := by
  obtain ⟨keys, queue, rfl, _, paired⟩ := renewed
  have empty : queue.isEmpty = first.queue.isEmpty := paired.isEmpty_eq
  unfold Simulation.endRun
  simp only [empty]
  cases first.terminated with
  | some reason => exact rfl
  | none =>
      simp only
      split
      · exact rfl
      · exact rfl

omit renewed in
private theorem advanceClock_exchange (simulation : Simulation σ β) (queue : EventQueue σ)
    (key : EventKey) : Alike (fun left right => right = { left with queue })
      (simulation.advanceClock key) ({ simulation with queue }.advanceClock key) := by
  unfold advanceClock
  cases key.context with
  | global => exact rfl
  | node id =>
      by_cases within : id.index < simulation.localClocks.length
      · simp only [if_pos within]
        exact rfl
      · simp only [if_neg within]
        exact rfl

theorem dequeue : Alike (fun left right => left.1 = right.1 ∧
    Renewed entities given left.2 right.2) first.dequeue second.dequeue := by
  obtain ⟨keys, queue, rfl, booked, paired⟩ := renewed
  refine paired.pop.bind ?_
  rintro ⟨event?, left⟩ ⟨_, right⟩ popped _ ⟨rfl, kept⟩
  cases event? with
  | none => exact ⟨rfl, keys, right, rfl, (booked.starved popped).2, kept⟩
  | some event =>
      refine (Alike.of_eq rfl).bind ?_
      rintro unscheduled _ lowered _ rfl
      refine (advanceClock_exchange { first with queue := left, unscheduled } right
        event.key).bind ?_
      rintro advanced _ moved _ rfl
      obtain ⟨_, enteredBooked⟩ := booked.entered popped (decrement_one lowered) moved
      obtain ⟨globalClock, localClocks, rfl⟩ := advanceClock_eq_ok moved
      simp only
      cases first.slots.find? event.key.uid with
      | none => exact rfl
      | some slot =>
          cases slot with
          | armed callback => exact ⟨rfl, _, right, rfl, enteredBooked, kept⟩
          | cancelled => exact ⟨rfl, _, right, rfl, enteredBooked, kept⟩

private theorem removeLive {handle : Handle} (known : given handle)
    (queued : handle.isDestroy = false) (asked : first.isExpired handle = .ok false) :
    Alike (Renewed entities given) (first.remove handle) (second.remove handle) := by
  have expired := (renewed.isExpired_eq handle).trans asked
  obtain ⟨keys, queue, rfl, booked, paired⟩ := renewed
  have member := booked.live_listed known queued asked
  obtain ⟨event, left, right, erased, otherErased, kept⟩ := paired.erase member
  obtain ⟨slot, found⟩ := booked.slot_iff.mpr (List.mem_map_of_mem member)
  have some_ := booked.counts_some member
  have one := Nat.sub_add_cancel some_
  unfold Simulation.remove
  simp only [queued, asked, expired, erased, otherErased, found, bind, Except.bind,
    Bool.false_eq_true, if_false, Option.isNone_some, Queue.decrement_of_le some_]
  exact ⟨_, right, rfl, booked.removed known queued erased asked one, kept⟩

private theorem cancelLive {handle : Handle} (known : given handle)
    (queued : handle.isDestroy = false) (asked : first.isExpired handle = .ok false) :
    Alike (Renewed entities given) (first.cancel handle) (second.cancel handle) := by
  have removes := renewed.removeLive known queued asked
  have expired := (renewed.isExpired_eq handle).trans asked
  have configuration := renewed.configuration_eq
  unfold Simulation.cancel
  simp only [asked, expired, queued, configuration, bind, Except.bind, Bool.false_eq_true,
    if_false]
  split
  · exact removes
  · obtain ⟨keys, queue, rfl, booked, paired⟩ := renewed
    exact ⟨keys, queue, rfl, booked.cancelled known queued asked, paired⟩

private theorem enqueue [Hook σ] {event : Event} {nextUid : EventUid}
    (owner : event.key.context.Known entities) (cause : event.prevContext.Known entities)
    (numbered : event.key.uid = first.nextUid)
    (following : first.nextUid.value.toNat + 1 = nextUid.value.toNat) (callback : Callback β) :
    Alike (fun left right => left.1 = right.1 ∧
        Renewed entities (fun other => given other ∨ other = left.1) left.2 right.2)
      (Simulation.enqueue { first with nextUid } event callback)
      (Simulation.enqueue { second with nextUid } event callback) := by
  obtain ⟨keys, queue, rfl, booked, paired⟩ := renewed
  obtain ⟨left, right, inserted, otherInserted, kept⟩ :=
    paired.insert owner cause (numbered ▸ booked.fresh)
  unfold Simulation.enqueue
  simp only [inserted, otherInserted, bind, Except.bind]
  exact ⟨rfl, _, right, rfl, booked.queued owner cause numbered following inserted, kept⟩

omit renewed in
/-- The two stay as they are to each other, whatever is asked of both. -/
theorem coupling [Hook σ] : Coupling entities (Renewed (σ := σ) (β := β) entities) where
  elsewhere := fun ⟨_, _, same, _⟩ => ⟨_, _, _, same⟩
  clocks := fun ⟨_, _, _, booked, _⟩ => booked.clocks
  weaken := fun renewed => renewed.weaken
  changed := fun renewed later queue clocks slots number count _ => by
    obtain ⟨keys, other, rfl, booked, paired⟩ := renewed
    refine ⟨keys, other, ?_, booked.of_same queue clocks slots number count, queue ▸ paired⟩
    simp only [slots, count]
  enqueue := fun renewed owner cause numbered following callback =>
    renewed.enqueue owner cause numbered following callback
  register := fun ⟨keys, queue, same, booked, paired⟩ registers => by
    subst same
    have registered := booked.registered registers
    obtain ⟨nextUid, _, _, rfl⟩ := scheduleDestroy_eq_ok registers
    exact ⟨keys, queue, rfl, registered, paired⟩
  isExpired := fun renewed => renewed.isExpired_eq
  removeLive := fun renewed => renewed.removeLive
  cancelLive := fun renewed => renewed.cancelLive
  dispose := fun ⟨_, queue, same, booked, paired⟩ => by
    subst same
    exact ⟨[], _, rfl, booked.dispose, paired.drain⟩

theorem replaceQueue {replacement : EventQueue σ} {configuration : Configuration} {hook : σ}
    (built : EventQueue.new configuration hook = .ok (.ok replacement))
    (quiet : configuration.exploration.enabled = false) :
    Alike (Renewed entities given) (first.replaceQueue replacement)
      (second.replaceQueue replacement) := by
  obtain ⟨keys, queue, rfl, booked, paired⟩ := renewed
  unfold Simulation.replaceQueue
  by_cases same : replacement.entities = first.localClocks.length
  · have covers : configuration.entities = entities :=
      (congrArg Configuration.entities (EventQueue.configuration_of_new built)).symm.trans
        (same.trans booked.clocks)
    obtain ⟨left, right, moved, otherMoved, kept⟩ := paired.move built quiet covers
    simp only [if_pos same, moved, otherMoved, bind, Except.bind]
    exact ⟨keys, right, rfl, booked.exchange kept.left, kept⟩
  · simp only [if_neg same]
    exact rfl

end Renewed

/-- The events move into a new queue of the same configuration. What comes of it differs from the
simulation without its credit in nothing that is asked or invoked later. -/
theorem Booked.renew (booked : simulation.Booked entities keys given)
    (fits : simulation.queue.Fits entities) (unexplored : simulation.queue.Unexplored)
    {replacement : EventQueue σ} {hook : σ}
    (built : EventQueue.new simulation.queue.configuration hook = .ok (.ok replacement)) :
    ∃ after, simulation.replaceQueue replacement = .ok after ∧
      Renewed entities given after simulation.forgetCredit := by
  obtain ⟨queue, moved, paired⟩ := EventQueue.Paired.renew fits booked.holds unexplored built
  refine ⟨{ simulation with queue }, ?_, keys, simulation.queue.forgetCredit, rfl,
    booked.exchange paired.left, paired⟩
  have same : replacement.entities = simulation.localClocks.length :=
    (congrArg Configuration.entities (EventQueue.configuration_of_new built)).trans
      (fits.covers.trans booked.clocks.symm)
  unfold Simulation.replaceQueue
  simp only [if_pos same, moved, bind, Except.bind]
  rfl

end Simulation

end EventKernel
