import EventKernel.Proofs.CallbackBooks

set_option autoImplicit false

/-! Books, ledger and inbox together. Between the operations of a simulation the requests that
the ledger lists as waiting are those of the inbox. -/

namespace EventKernel

open Queue (EventQueue)
open Exploration (Hook)

variable {σ β : Type}

namespace Simulation

variable {simulation after : Simulation σ β} {entities : Nat} {keys : List EventKey}
  {given : Handle → Prop} {ledger : List (Deposit β)} {history : List (Signal σ β)}

/-- What the ledger lists as waiting is in the inbox, and the rest is as the books say. -/
structure Accounted (simulation : Simulation σ β) (entities : Nat) (keys : List EventKey)
    (given : Handle → Prop) (ledger : List (Deposit β)) : Prop where
  booked : simulation.Booked entities keys given
  backs : simulation.Backs simulation.inbox.requests keys ledger
  hint : simulation.inbox.emptyHint = true → simulation.inbox.requests = []

namespace Accounted

private theorem drained (accounted : simulation.Accounted entities keys given ledger) :
    simulation.inbox.drain.1 = simulation.inbox.requests ∧
      simulation.inbox.drain.2.requests = [] := by
  unfold Inbox.drain
  cases empty : simulation.inbox.emptyHint with
  | true =>
      have nothing := accounted.hint empty
      exact ⟨nothing.symm, nothing⟩
  | false => exact ⟨rfl, rfl⟩

private theorem waitingless (backs : after.Backs [] keys ledger)
    (booked : after.Booked entities keys given)
    (nothing : after.inbox.requests = []) : after.Accounted entities keys given ledger :=
  ⟨booked, nothing ▸ backs, fun _ => nothing⟩

theorem of_same (accounted : simulation.Accounted entities keys given ledger)
    (queue : after.queue = simulation.queue) (clocks : after.localClocks = simulation.localClocks)
    (slots : after.slots = simulation.slots) (number : after.nextUid = simulation.nextUid)
    (count : after.unscheduled = simulation.unscheduled)
    (terminated : after.terminated = simulation.terminated)
    (inbox : after.inbox = simulation.inbox) : after.Accounted entities keys given ledger where
  booked := accounted.booked.of_same queue clocks slots number count
  backs := inbox ▸ accounted.backs.of_same slots (Nat.le_of_eq (by rw [number]))
    fun ended => terminated ▸ ended
  hint := inbox ▸ accounted.hint

theorem dequeue (accounted : simulation.Accounted entities keys given ledger)
    {dequeued : Dequeued β} (taken : simulation.dequeue = .ok (dequeued, after)) :
    ∃ others, after.Accounted entities others given (dequeued.record ledger) ∧
      ∀ key callback, dequeued = .invoke key callback → ⟨callback, .queued key⟩ ∈ ledger := by
  have inside := dequeue_eq_ok taken
  obtain ⟨others, booked, queued, backs⟩ := accounted.backs.entered accounted.booked inside
  obtain ⟨inbox, _⟩ := inside.inbox
  exact ⟨others, ⟨booked, inbox ▸ backs, inbox ▸ accounted.hint⟩, queued⟩

theorem settled (accounted : simulation.Accounted entities keys given ledger)
    (nothing : simulation.inbox.requests = []) (empty : simulation.queue.isEmpty = true) :
    ∀ deposit ∈ ledger, deposit.fate.isFinal = true := by
  have noKeys := accounted.booked.holds.isEmpty_iff.mp empty
  have waiting := accounted.backs.waiting
  rw [nothing] at waiting
  rintro ⟨callback, fate⟩ member
  cases fate with
  | waiting => exact absurd rfl (Deposit.waiting?_eq_none.mp
      (List.filterMap_eq_nil_iff.mp waiting _ member))
  | queued key =>
      have held := (accounted.backs.queued callback key member).1
      rw [noKeys] at held
      cases held
  | refused | withdrawn | disposed | invoked => rfl

theorem told (accounted : simulation.Accounted entities keys (Given history) ledger)
    {signal : Signal σ β} (nothing : ∀ handle, ¬ signal.Gives handle) :
    simulation.Accounted entities keys (Given (history ++ [signal])) ledger :=
  { accounted with booked := accounted.booked.told nothing }

private theorem withdrawn (accounted : simulation.Accounted entities keys (Given history) ledger)
    {handle : Handle} {signal : Signal σ β} (known : Given history handle)
    (withdrawn : Withdrawn simulation handle after) (nothing : ∀ handle, ¬ signal.Gives handle) :
    ∃ others, after.Accounted entities others (Given (history ++ [signal]))
      (simulation.withdraw handle ledger) := by
  obtain ⟨others, booked, backs⟩ := accounted.backs.withdrawn accounted.booked known withdrawn
  have inbox := withdrawn.inbox
  exact ⟨others, booked.told nothing, inbox ▸ backs, inbox ▸ accounted.hint⟩

section

variable [Hook σ]

private theorem drainInbox (accounted : simulation.Accounted entities keys given ledger)
    (drained : simulation.drainInbox = .ok after) :
    (∃ others, after.Accounted entities others given
      (Deposit.mergeAll after.fateOf simulation.nextUid ledger)) ∧ after.inbox.requests = [] := by
  obtain ⟨all, nothing⟩ := accounted.drained
  have emptied : Booked { simulation with inbox := simulation.inbox.drain.2 } entities keys given :=
    accounted.booked.of_same rfl rfl rfl rfl rfl
  have waiting : Backs { simulation with inbox := simulation.inbox.drain.2 }
      simulation.inbox.drain.1 keys ledger := by
    rw [all]
    exact accounted.backs.of_same rfl (Nat.le_refl _) id
  obtain ⟨⟨others, booked, backs⟩, _⟩ := Backs.mergeAll emptied waiting drained
  have left : after.inbox.requests = [] := by
    rw [mergeAll_inbox drained]
    exact nothing
  exact ⟨⟨others, waitingless backs booked left⟩, left⟩

theorem beginRun (accounted : simulation.Accounted entities keys given ledger)
    (begun : simulation.beginRun = .ok after) :
    (∃ others, after.Accounted entities others given
      (Deposit.mergeAll after.fateOf simulation.nextUid ledger)) ∧ after.inbox.requests = [] := by
  obtain ⟨drained, stopRequested, merged, rfl⟩ := beginRun_eq_ok begun
  obtain ⟨⟨others, kept⟩, left⟩ := accounted.drainInbox merged
  exact ⟨⟨others, kept.of_same rfl rfl rfl rfl rfl rfl rfl⟩, left⟩

theorem leaveEvent (accounted : simulation.Accounted entities keys given ledger)
    (left : simulation.leaveEvent = .ok after) :
    (∃ others, after.Accounted entities others given
      (Deposit.mergeAll after.fateOf simulation.nextUid ledger)) ∧ after.inbox.requests = [] := by
  have outside : Accounted { simulation with context := .global } entities keys given ledger :=
    accounted.of_same rfl rfl rfl rfl rfl rfl rfl
  exact outside.drainInbox left

theorem finishEvent (accounted : simulation.Accounted entities keys given ledger)
    (finished : simulation.finishEvent = .ok after) :
    (∃ others, after.Accounted entities others given
      (Deposit.mergeAll after.fateOf simulation.nextUid ledger)) ∧ after.inbox.requests = [] := by
  have counted : Accounted { simulation with processed := simulation.processed + 1 } entities keys
      given ledger := accounted.of_same rfl rfl rfl rfl rfl rfl rfl
  exact counted.leaveEvent finished

private theorem scheduled (accounted : simulation.Accounted entities keys (Given history) ledger)
    {plan : Plan} {callback : Callback β} {handle : Handle} {signal : Signal σ β}
    (scheduled : simulation.schedule plan callback = .ok (handle, after))
    (only : ∀ other, signal.Gives other → other = handle) :
    ∃ others, after.Accounted entities others (Given (history ++ [signal]))
      (ledger ++ [⟨callback, after.fateOf simulation.nextUid⟩]) := by
  obtain ⟨others, booked, backs, _⟩ := accounted.backs.schedule accounted.booked scheduled
  have inbox := schedule_inbox scheduled
  exact ⟨others, booked.gave only, inbox ▸ backs, inbox ▸ accounted.hint⟩

theorem answer (accounted : simulation.Accounted entities keys (Given history) ledger)
    {reply : Reply} {request : Request σ β reply} {value : reply.Value}
    (lawful : request.Lawful history)
    (answered : request.answer simulation = .ok (value, after)) :
    ∃ others, after.Accounted entities others (Given (history ++ [.answered request value]))
      (request.record simulation after ledger) := by
  cases request with
  | schedule placement callback =>
      refine accounted.scheduled answered fun other gives => ?_
      cases gives
      rfl
  | stopAfter delay =>
      refine accounted.scheduled answered fun other gives => ?_
      cases gives
      rfl
  | scheduleDestroy callback =>
      have booked := accounted.booked.registered answered
      obtain ⟨nextUid, following, _, rfl⟩ := scheduleDestroy_eq_ok answered
      refine ⟨keys, booked.gave fun other gives => ?_,
        accounted.backs.of_same rfl (by change _ ≤ nextUid.value.toNat; omega) id, accounted.hint⟩
      cases gives
      rfl
  | requestRemote context delay callback =>
      cases answered
      have booked : (simulation.requestRemote ⟨context, delay, callback⟩).Booked entities keys
          (Given history) := accounted.booked.of_same rfl rfl rfl rfl rfl
      exact ⟨keys, booked.told fun _ gives => (nomatch gives), accounted.backs.requested _,
        fun impossible => nomatch impossible⟩
  | cancel handle =>
      obtain ⟨next, cancelled, returned⟩ := bind_eq_ok answered
      cases returned
      exact accounted.withdrawn lawful (cancel_eq_ok cancelled) fun _ gives => nomatch gives
  | remove handle =>
      obtain ⟨next, removed, returned⟩ := bind_eq_ok answered
      cases returned
      exact accounted.withdrawn lawful (remove_eq_ok removed) fun _ gives => nomatch gives
  | dispose =>
      cases answered
      obtain ⟨_, nothing⟩ := accounted.drained
      refine ⟨[], waitingless accounted.backs.disposed ?_ nothing⟩
      exact accounted.booked.dispose.told fun _ gives => nomatch gives
  | replaceQueue replacement =>
      obtain ⟨next, replaced, returned⟩ := bind_eq_ok answered
      cases returned
      obtain ⟨configuration, hook, built⟩ := lawful
      have booked := accounted.booked.replaceQueue (EventQueue.new_holds built) replaced
      obtain ⟨queue, rfl⟩ := replaceQueue_same replaced
      exact ⟨keys, booked.told fun _ gives => (nomatch gives),
        accounted.backs.of_same rfl (Nat.le_refl _) id, accounted.hint⟩
  | isExpired _ | delayLeft _ | now | nowIn _ =>
      obtain ⟨answer, asked, returned⟩ := bind_eq_ok answered
      cases returned
      exact ⟨keys, accounted.told fun _ gives => nomatch gives⟩
  | stop =>
      cases answered
      have kept : simulation.stop.Accounted entities keys (Given history) ledger :=
        accounted.of_same rfl rfl rfl rfl rfl rfl rfl
      exact ⟨keys, kept.told fun _ gives => nomatch gives⟩
  | currentContext | pending | remotePending | describe | detail | trace | configuration =>
      cases answered
      exact ⟨keys, accounted.told fun _ gives => nomatch gives⟩

end

end Accounted

end Simulation

end EventKernel
