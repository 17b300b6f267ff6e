import EventKernel.Proofs.AlikeComputations
import EventKernel.Proofs.Bearings
import EventKernel.Proofs.WaitingRequests

set_option autoImplicit false

/-! Pairs of simulations that differ in what they hold. Clocks, numbers and the inbox are the same
on both sides, so whatever a program asks for fails in both or in none and is answered alike, as
long as a few operations on what they hold are known to keep the two as they are to each other. -/

namespace EventKernel

open Queue (EventQueue)
open Exploration (Hook)

namespace Simulation

variable {σ β : Type}

/-- What must be known of a relation between simulations for the handles that were given. -/
structure Coupling [Hook σ] (entities : Nat)
    (related : (Handle → Prop) → Simulation σ β → Simulation σ β → Prop) : Prop where
  elsewhere : ∀ {given first second}, related given first second →
    ∃ queue slots unscheduled, second = { first with queue, slots, unscheduled }
  clocks : ∀ {given first second}, related given first second →
    first.localClocks.length = entities
  weaken : ∀ {given fewer first second}, related given first second →
    (∀ handle, fewer handle → given handle) → related fewer first second
  /-- Everything but what is held may change in both alike. -/
  changed : ∀ {given first second}, related given first second → ∀ later : Simulation σ β,
    later.queue = first.queue → later.localClocks = first.localClocks →
    later.slots = first.slots → later.nextUid = first.nextUid →
    later.unscheduled = first.unscheduled → (first.inbox.Hinted → later.inbox.Hinted) →
    related given later { later with
      queue := second.queue
      slots := second.slots
      unscheduled := second.unscheduled }
  enqueue : ∀ {given first second event nextUid}, related given first second →
    event.key.context.Known entities → event.prevContext.Known entities →
    event.key.uid = first.nextUid → first.nextUid.value.toNat + 1 = nextUid.value.toNat →
    ∀ callback, Alike (fun left right => left.1 = right.1 ∧
        related (fun other => given other ∨ other = left.1) left.2 right.2)
      (Simulation.enqueue { first with nextUid } event callback)
      (Simulation.enqueue { second with nextUid } event callback)
  register : ∀ {given first second callback handle later}, related given first second →
    first.scheduleDestroy callback = .ok (handle, later) →
    related (fun other => given other ∨ other = handle) later { later with
      queue := second.queue
      slots := second.slots
      unscheduled := second.unscheduled }
  isExpired : ∀ {given first second}, related given first second → ∀ handle,
    second.isExpired handle = first.isExpired handle
  removeLive : ∀ {given first second handle}, related given first second → given handle →
    handle.isDestroy = false → first.isExpired handle = .ok false →
    Alike (related given) (first.remove handle) (second.remove handle)
  cancelLive : ∀ {given first second handle}, related given first second → given handle →
    handle.isDestroy = false → first.isExpired handle = .ok false →
    Alike (related given) (first.cancel handle) (second.cancel handle)
  dispose : ∀ {given first second}, related given first second →
    related given first.dispose second.dispose

namespace Coupling

variable [Hook σ] {entities : Nat}
  {related : (Handle → Prop) → Simulation σ β → Simulation σ β → Prop} {given : Handle → Prop}
  {first second : Simulation σ β} (coupling : Coupling entities related)
  (relates : related given first second)

include coupling relates

private theorem clock_eq (context : Context) : second.clock context = first.clock context := by
  obtain ⟨queue, slots, unscheduled, rfl⟩ := coupling.elsewhere relates
  rfl

private theorem known {context : Context} {clock : Clock} (read : first.clock context = .ok clock) :
    context.Known entities :=
  coupling.clocks relates ▸ known_of_clock read

theorem processed_eq : second.processed = first.processed := by
  obtain ⟨queue, slots, unscheduled, rfl⟩ := coupling.elsewhere relates
  rfl

private theorem delayLeft_eq (handle : Handle) :
    second.delayLeft handle = first.delayLeft handle := by
  unfold delayLeft
  rw [coupling.isExpired relates handle]
  obtain ⟨queue, slots, unscheduled, rfl⟩ := coupling.elsewhere relates
  rfl

theorem stop : related given first.stop second.stop := by
  have stopped := coupling.changed relates first.stop rfl rfl rfl rfl rfl id
  obtain ⟨queue, slots, unscheduled, rfl⟩ := coupling.elsewhere relates
  exact stopped

theorem unregister (destroyEvents : List (Handle × β)) :
    related given { first with destroyEvents } { second with destroyEvents } := by
  have left := coupling.changed relates { first with destroyEvents } rfl rfl rfl rfl rfl id
  obtain ⟨queue, slots, unscheduled, rfl⟩ := coupling.elsewhere relates
  exact left

private theorem allocateUid : Alike (fun left right => left.1 = first.nextUid ∧
    right.1 = first.nextUid ∧ ∃ nextUid, first.nextUid.value.toNat + 1 = nextUid.value.toNat ∧
      left.2 = { first with nextUid } ∧ right.2 = { second with nextUid })
    first.allocateUid second.allocateUid := by
  obtain ⟨queue, slots, unscheduled, rfl⟩ := coupling.elsewhere relates
  unfold Simulation.allocateUid
  cases next : first.nextUid.next? with
  | none => exact rfl
  | some nextUid => exact ⟨rfl, rfl, nextUid, EventUid.next?_eq_some next, rfl, rfl⟩

private theorem schedule (plan : Plan) (callback : Callback β) :
    Alike (fun left right => left.1 = right.1 ∧
        related (fun other => given other ∨ other = left.1) left.2 right.2)
      (first.schedule plan callback) (second.schedule plan callback) := by
  refine (Alike.of_eq (coupling.clock_eq relates plan.base)).bind ?_
  rintro base _ atBase _ rfl
  refine (Alike.of_eq rfl).bind ?_
  rintro ts _ stamped _ rfl
  refine (Alike.of_eq (coupling.clock_eq relates plan.context)).bind ?_
  rintro owner _ atOwner _ rfl
  refine (coupling.allocateUid relates).bind ?_
  rintro ⟨_, _⟩ ⟨_, _⟩ _ _ ⟨rfl, rfl, nextUid, following, rfl, rfl⟩
  exact coupling.enqueue relates (coupling.known relates atOwner) (coupling.known relates atBase)
    rfl following callback

private theorem merge (request : RemoteRequest β) :
    Alike (related given) (first.merge request) (second.merge request) := by
  have globalClock := Except.ok.inj (coupling.clock_eq relates .global)
  refine (Alike.of_eq (congrArg (Clock.after · request.delay) globalClock)).bind ?_
  rintro ts _ stamped _ rfl
  refine (Alike.of_eq (coupling.clock_eq relates request.context)).bind ?_
  rintro owner _ atOwner _ rfl
  refine (coupling.allocateUid relates).bind ?_
  rintro ⟨_, _⟩ ⟨_, _⟩ _ _ ⟨rfl, rfl, nextUid, following, rfl, rfl⟩
  have known := coupling.known relates atOwner
  refine (coupling.enqueue relates known known rfl following _).bind ?_
  rintro left right _ _ ⟨_, kept⟩
  exact coupling.weaken kept fun _ => Or.inl

omit relates in
private theorem mergeAll (requests : List (RemoteRequest β))
    (relates : related given first second) :
    Alike (related given) (first.mergeAll requests) (second.mergeAll requests) := by
  induction requests generalizing first second with
  | nil => exact relates
  | cons request rest ih => exact (coupling.merge relates request).bind fun _ _ _ _ kept => ih kept

private theorem scheduleDestroy (callback : β) :
    Alike (fun left right => left.1 = right.1 ∧
        related (fun other => given other ∨ other = left.1) left.2 right.2)
      (first.scheduleDestroy callback) (second.scheduleDestroy callback) := by
  have allocated := coupling.allocateUid relates
  have registered := @coupling.register given first second callback
  obtain ⟨queue, slots, unscheduled, rfl⟩ := coupling.elsewhere relates
  unfold Simulation.scheduleDestroy
  refine allocated.bind ?_
  rintro ⟨_, _⟩ ⟨_, _⟩ numbered _ ⟨rfl, rfl, nextUid, following, rfl, rfl⟩
  exact ⟨rfl, registered relates (scheduleDestroy_of_allocated callback numbered)⟩

private theorem drainInbox : Alike (related given) first.drainInbox second.drainInbox := by
  have emptied := coupling.changed relates { first with inbox := first.inbox.drain.2 } rfl rfl rfl
    rfl rfl Inbox.Hinted.drained
  obtain ⟨queue, slots, unscheduled, rfl⟩ := coupling.elsewhere relates
  exact coupling.mergeAll first.inbox.drain.1 emptied

theorem beginRun : Alike (related given) first.beginRun second.beginRun := by
  refine (coupling.drainInbox relates).bind ?_
  intro left right _ _ kept
  have ready := coupling.changed kept { left with stopRequested := false } rfl rfl rfl rfl rfl id
  obtain ⟨queue, slots, unscheduled, rfl⟩ := coupling.elsewhere kept
  cases left.terminated.isNone with
  | true => exact ready
  | false => exact kept

theorem leaveEvent : Alike (related given) first.leaveEvent second.leaveEvent := by
  have outside := coupling.changed relates { first with context := .global } rfl rfl rfl rfl rfl id
  obtain ⟨queue, slots, unscheduled, rfl⟩ := coupling.elsewhere relates
  exact coupling.drainInbox outside

theorem finishEvent : Alike (related given) first.finishEvent second.finishEvent := by
  have counted := coupling.changed relates { first with processed := first.processed + 1 } rfl rfl
    rfl rfl rfl id
  obtain ⟨queue, slots, unscheduled, rfl⟩ := coupling.elsewhere relates
  exact coupling.leaveEvent counted

private theorem remove {handle : Handle} (known : given handle) :
    Alike (related given) (first.remove handle) (second.remove handle) := by
  have expired := coupling.isExpired relates handle
  cases destroy : handle.isDestroy with
  | true =>
      have unregistered := coupling.unregister relates (first.destroyEvents.filter
        fun entry => entry.1.serial != handle.serial)
      obtain ⟨queue, slots, unscheduled, rfl⟩ := coupling.elsewhere relates
      unfold Simulation.remove
      rw [destroy]
      exact unregistered
  | false =>
      cases asked : first.isExpired handle with
      | ok gone =>
          cases gone with
          | true =>
              unfold Simulation.remove
              rw [destroy]
              simp only [expired, asked, bind, Except.bind, Bool.false_eq_true, if_false, if_true]
              exact relates
          | false => exact coupling.removeLive relates known destroy asked
      | error fault =>
          unfold Simulation.remove
          rw [destroy]
          simp only [expired, asked, bind, Except.bind, Bool.false_eq_true, if_false]
          exact rfl

private theorem cancel {handle : Handle} (known : given handle) :
    Alike (related given) (first.cancel handle) (second.cancel handle) := by
  have expired := coupling.isExpired relates handle
  cases asked : first.isExpired handle with
  | ok gone =>
      cases gone with
      | true =>
          unfold Simulation.cancel
          simp only [expired, asked, bind, Except.bind, if_true]
          exact relates
      | false =>
          cases destroy : handle.isDestroy with
          | true =>
              have removed := coupling.remove relates known
              unfold Simulation.cancel
              simp only [expired, asked, destroy, bind, Except.bind, Bool.true_or, if_true]
              exact removed
          | false => exact coupling.cancelLive relates known destroy asked
  | error fault =>
      unfold Simulation.cancel
      simp only [expired, asked, bind, Except.bind]
      exact rfl

omit relates

variable {history : List (Signal σ β)}

private theorem gave {handle : Handle}
    (relates : related (fun other => Given history other ∨ other = handle) first second)
    {signal : Signal σ β} (only : ∀ other, signal.Gives other → other = handle) :
    related (Given (history ++ [signal])) first second :=
  coupling.weaken relates fun other known => known.append_singleton.imp_right (only other)

theorem told (relates : related (Given history) first second) {signal : Signal σ β}
    (nothing : ∀ handle, ¬ signal.Gives handle) :
    related (Given (history ++ [signal])) first second :=
  coupling.weaken relates fun handle known =>
    known.append_singleton.resolve_right (nothing handle)

/-- Both give the same answer to a request that does not look at the queue. -/
theorem answer (relates : related (Given history) first second) {reply : Reply}
    {request : Request σ β reply} (blind : request.Blind) (lawful : request.Lawful history) :
    Alike (fun left right => left.1 = right.1 ∧
        related (Given (history ++ [.answered request left.1])) left.2 right.2)
      (request.answer first) (request.answer second) := by
  have same := coupling.elsewhere relates
  cases request with
  | schedule placement callback =>
      have scheduled := coupling.schedule relates (placement.plan first.context) (.user callback)
      obtain ⟨queue, slots, unscheduled, rfl⟩ := same
      refine scheduled.imp ?_
      rintro left right _ _ ⟨same, kept⟩
      refine ⟨same, coupling.gave kept fun other gives => ?_⟩
      cases gives
      rfl
  | stopAfter delay =>
      have scheduled := coupling.schedule relates
        (Placement.plan first.context (.here .stop delay none)) .stop
      obtain ⟨queue, slots, unscheduled, rfl⟩ := same
      refine scheduled.imp ?_
      rintro left right _ _ ⟨same, kept⟩
      refine ⟨same, coupling.gave kept fun other gives => ?_⟩
      cases gives
      rfl
  | scheduleDestroy callback =>
      refine (coupling.scheduleDestroy relates callback).imp ?_
      rintro left right _ _ ⟨same, kept⟩
      refine ⟨same, coupling.gave kept fun other gives => ?_⟩
      cases gives
      rfl
  | cancel handle =>
      exact (coupling.cancel relates lawful).bind fun _ _ _ _ kept =>
        ⟨rfl, coupling.told kept fun _ gives => nomatch gives⟩
  | remove handle =>
      exact (coupling.remove relates lawful).bind fun _ _ _ _ kept =>
        ⟨rfl, coupling.told kept fun _ gives => nomatch gives⟩
  | requestRemote context delay callback =>
      have pushed := coupling.changed relates (first.requestRemote ⟨context, delay, callback⟩)
        rfl rfl rfl rfl rfl fun _ => .push _ _
      obtain ⟨queue, slots, unscheduled, rfl⟩ := same
      exact ⟨rfl, coupling.told pushed fun _ gives => nomatch gives⟩
  | stop => exact ⟨rfl, coupling.told (coupling.stop relates) fun _ gives => nomatch gives⟩
  | dispose => exact ⟨rfl, coupling.told (coupling.dispose relates) fun _ gives => nomatch gives⟩
  | isExpired handle =>
      refine (Alike.of_eq (coupling.isExpired relates handle)).bind ?_
      rintro answer _ _ _ rfl
      exact ⟨rfl, coupling.told relates fun _ gives => nomatch gives⟩
  | delayLeft handle =>
      refine (Alike.of_eq (coupling.delayLeft_eq relates handle)).bind ?_
      rintro answer _ _ _ rfl
      exact ⟨rfl, coupling.told relates fun _ gives => nomatch gives⟩
  | now | nowIn _ =>
      obtain ⟨queue, slots, unscheduled, rfl⟩ := same
      refine (Alike.of_eq rfl).bind ?_
      rintro answer _ _ _ rfl
      exact ⟨rfl, coupling.told relates fun _ gives => nomatch gives⟩
  | currentContext | remotePending =>
      obtain ⟨queue, slots, unscheduled, rfl⟩ := same
      exact ⟨rfl, coupling.told relates fun _ gives => nomatch gives⟩
  | replaceQueue | pending | describe | detail | trace | configuration => exact blind.elim

end Coupling

end Simulation

end EventKernel
