import EventKernel.Proofs.SimulationOperations

set_option autoImplicit false

/-! The callbacks and registrations that a handle can still reach. An operation arms no
callback but under a number it has just given out, and registers nothing for the destroy
phase but under such a number; so a handle whose callback is gone never gets one back. -/

namespace EventKernel

namespace Simulation

variable {σ β : Type} {simulation after : Simulation σ β} {handle : Handle}

/-- No callback can be invoked through a handle any more. -/
structure Gone (simulation : Simulation σ β) (handle : Handle) : Prop where
  disarmed : ∀ callback, simulation.slots.find? handle.key.uid ≠ some (.armed callback)
  unregistered : handle.isDestroy = true →
    ∀ registered ∈ simulation.destroyEvents, registered.1.serial ≠ handle.serial

/-- An event that is queued with its callback, although its clock has reached it. -/
def Overtaken (simulation : Simulation σ β) (handle : Handle) : Prop :=
  handle.isDestroy = false ∧
    ∃ callback clock, simulation.slots.find? handle.key.uid = some (.armed callback) ∧
      simulation.clock handle.key.context = .ok clock ∧
      clock.hasPassed handle.key.ts handle.key.uid = true

/-- What armed callbacks and registrations a later state has, an earlier one had, or they go
under numbers that were given out since. -/
structure Onward (before after : Simulation σ β) : Prop where
  numbers : before.nextUid.value.toNat ≤ after.nextUid.value.toNat
  armed : ∀ uid callback, after.slots.find? uid = some (.armed callback) →
    before.slots.find? uid = some (.armed callback) ∨
      before.nextUid.value.toNat ≤ uid.value.toNat ∧ uid.value.toNat < after.nextUid.value.toNat
  registered : ∀ registered ∈ after.destroyEvents, registered ∈ before.destroyEvents ∨
    registered.1.isDestroy = true ∧
      before.nextUid.value.toNat ≤ registered.1.serial.value.toNat

/-- The reserved numbers and those to come arm nothing, and what is registered for the destroy
phase has a handle of that phase. -/
structure Regular (simulation : Simulation σ β) : Prop where
  ordinary : EventUid.first.value.toNat ≤ simulation.nextUid.value.toNat
  armed : ∀ uid callback, simulation.slots.find? uid = some (.armed callback) →
    EventUid.first.value.toNat ≤ uid.value.toNat
  numbered : ∀ uid callback, simulation.slots.find? uid = some (.armed callback) →
    uid.value.toNat < simulation.nextUid.value.toNat
  registered : ∀ registered ∈ simulation.destroyEvents, registered.1.isDestroy = true

structure Issued (simulation : Simulation σ β) (handle : Handle) : Prop where
  known : handle.serial.value.toNat < simulation.nextUid.value.toNat
  queued : handle.isDestroy = false → handle.key.uid = handle.serial

theorem Onward.refl (simulation : Simulation σ β) : simulation.Onward simulation where
  numbers := Nat.le_refl _
  armed := fun _ _ armed => Or.inl armed
  registered := fun _ member => Or.inl member

theorem Onward.trans {first second third : Simulation σ β} (former : first.Onward second)
    (latter : second.Onward third) : first.Onward third where
  numbers := Nat.le_trans former.numbers latter.numbers
  armed := by
    intro uid callback armed
    rcases latter.armed uid callback armed with before | ⟨fresh, below⟩
    · exact (former.armed uid callback before).imp_right fun ⟨fresh, below⟩ =>
        ⟨fresh, Nat.lt_of_lt_of_le below latter.numbers⟩
    · exact Or.inr ⟨Nat.le_trans former.numbers fresh, below⟩
  registered := by
    intro registered member
    rcases latter.registered registered member with before | ⟨destroy, fresh⟩
    · exact former.registered registered before
    · exact Or.inr ⟨destroy, Nat.le_trans former.numbers fresh⟩

theorem Regular.ofQueue (queue : Queue.EventQueue σ) :
    (Simulation.ofQueue queue : Simulation σ β).Regular where
  ordinary := Nat.le_refl _
  armed := by
    intro uid callback armed
    cases armed
  numbered := by
    intro uid callback armed
    cases armed
  registered := by
    intro registered member
    cases member

theorem regular_of_new {configuration : Queue.Configuration} {hook : σ}
    (started : new configuration hook = .ok (.ok simulation)) :
    simulation.Regular := by
  obtain ⟨answer, built, rest⟩ := bind_eq_ok started
  cases answer with
  | error error => cases rest
  | ok queue =>
      cases rest
      exact Regular.ofQueue queue

theorem Regular.onward (regular : simulation.Regular) (onward : simulation.Onward after) :
    after.Regular where
  ordinary := Nat.le_trans regular.ordinary onward.numbers
  armed := by
    intro uid callback armed
    rcases onward.armed uid callback armed with before | ⟨fresh, _⟩
    · exact regular.armed uid callback before
    · exact Nat.le_trans regular.ordinary fresh
  numbered := by
    intro uid callback armed
    rcases onward.armed uid callback armed with before | ⟨_, below⟩
    · exact Nat.lt_of_lt_of_le (regular.numbered uid callback before) onward.numbers
    · exact below
  registered := by
    intro registered member
    rcases onward.registered registered member with before | ⟨destroy, fresh⟩
    · exact regular.registered registered before
    · exact destroy

theorem Issued.onward (issued : simulation.Issued handle) (onward : simulation.Onward after) :
    after.Issued handle :=
  ⟨Nat.lt_of_lt_of_le issued.known onward.numbers, issued.queued⟩

theorem uid_eq_destroy (destroy : handle.isDestroy = true) :
    handle.key.uid = .destroy := by
  unfold Handle.isDestroy at destroy
  exact eq_of_beq destroy

theorem Gone.onward (gone : simulation.Gone handle) (regular : simulation.Regular)
    (issued : simulation.Issued handle) (onward : simulation.Onward after) :
    after.Gone handle where
  disarmed := by
    intro callback armed
    rcases onward.armed _ callback armed with before | ⟨fresh, _⟩
    · exact gone.disarmed callback before
    · have known := issued.known
      have ordinary := regular.ordinary
      cases destroy : handle.isDestroy with
      | true =>
          rw [uid_eq_destroy destroy] at fresh
          have reserved : EventUid.destroy.value.toNat < EventUid.first.value.toNat := by decide
          omega
      | false =>
          rw [issued.queued destroy] at fresh
          omega
  unregistered := by
    intro destroy registered member same
    rcases onward.registered registered member with before | ⟨fresh, number⟩
    · exact gone.unregistered destroy registered before same
    · have known := issued.known
      rw [same] at number
      omega

theorem Gone.expired (gone : simulation.Gone handle) : simulation.isExpired handle = .ok true := by
  unfold isExpired
  cases destroy : handle.isDestroy with
  | true =>
      have absent : (simulation.destroyEvents.any fun queued =>
          queued.1.serial == handle.serial) = false := by
        rw [List.any_eq_false]
        intro registered member same
        exact gone.unregistered destroy registered member (eq_of_beq same)
      rw [if_pos rfl]
      exact congrArg (fun present => Except.ok (!present)) absent
  | false =>
      rw [if_neg Bool.false_ne_true]
      cases found : simulation.slots.find? handle.key.uid with
      | none => rfl
      | some slot =>
          cases slot with
          | cancelled => rfl
          | armed callback => exact absurd found (gone.disarmed callback)

/-- An event that counts as expired has been overtaken in the queue, or is gone. -/
theorem overtaken_or_gone (regular : simulation.Regular)
    (expired : simulation.isExpired handle = .ok true) :
    simulation.Overtaken handle ∨ simulation.Gone handle := by
  unfold isExpired at expired
  cases destroy : handle.isDestroy with
  | true =>
      rw [destroy, if_pos rfl] at expired
      apply Or.inr
      constructor
      · intro callback armed
        have ordinary := regular.armed _ callback armed
        rw [uid_eq_destroy destroy] at ordinary
        exact absurd ordinary (by decide)
      · intro _ registered member same
        have absent : (!simulation.destroyEvents.any fun queued =>
            queued.1.serial == handle.serial) = true := Except.ok.inj expired
        rw [Bool.not_eq_true', List.any_eq_false] at absent
        exact absent registered member (beq_iff_eq.mpr same)
  | false =>
      rw [destroy, if_neg Bool.false_ne_true] at expired
      have vacuous : handle.isDestroy = true → ∀ registered ∈ simulation.destroyEvents,
          registered.1.serial ≠ handle.serial := by
        intro impossible
        rw [destroy] at impossible
        cases impossible
      cases found : simulation.slots.find? handle.key.uid with
      | none => exact Or.inr ⟨fun _ armed => (nomatch found.symm.trans armed), vacuous⟩
      | some slot =>
          cases slot with
          | cancelled =>
              exact Or.inr ⟨fun _ armed => (nomatch found.symm.trans armed), vacuous⟩
          | armed callback =>
              rw [found] at expired
              obtain ⟨clock, read, passed⟩ := bind_eq_ok expired
              exact Or.inl ⟨destroy, callback, clock, found, read, Except.ok.inj passed⟩

theorem Gone.current (gone : simulation.Gone handle) : ¬ simulation.Overtaken handle := by
  rintro ⟨queued, callback, clock, found, read, passed⟩
  exact gone.disarmed callback found

theorem Onward.of_same (numbers : after.nextUid = simulation.nextUid)
    (slots : after.slots = simulation.slots)
    (destroyEvents : after.destroyEvents = simulation.destroyEvents) :
    simulation.Onward after where
  numbers := Nat.le_of_eq (by rw [numbers])
  armed := fun _ _ armed => Or.inl (slots ▸ armed)
  registered := fun _ member => Or.inl (destroyEvents ▸ member)

private theorem Onward.erased (numbers : after.nextUid = simulation.nextUid) (uid : EventUid)
    (slots : after.slots = simulation.slots.erase uid)
    (destroyEvents : after.destroyEvents = simulation.destroyEvents) :
    simulation.Onward after where
  numbers := Nat.le_of_eq (by rw [numbers])
  armed := by
    intro other callback armed
    rw [slots, Slots.find?_erase] at armed
    split at armed
    · cases armed
    · exact Or.inl armed
  registered := fun _ member => Or.inl (destroyEvents ▸ member)

theorem Withdrawn.onward (withdrawn : Withdrawn simulation handle after) :
    simulation.Onward after := by
  cases withdrawn with
  | unregistered destroy =>
      refine ⟨Nat.le_refl _, fun _ _ armed => Or.inl armed, ?_⟩
      intro registered member
      exact Or.inl (List.mem_filter.mp member).1
  | ignored expired => exact Onward.refl simulation
  | removed queued queue event unscheduled erased live one =>
      exact Onward.erased rfl handle.key.uid rfl rfl
  | cancelled queued live =>
      refine ⟨Nat.le_refl _, ?_, fun _ member => Or.inl member⟩
      intro uid callback armed
      rw [Slots.find?_insert] at armed
      split at armed
      · cases armed
      · exact Or.inl armed

theorem Taken.onward {dequeued : Dequeued β} (taken : Taken simulation dequeued after) :
    simulation.Onward after := by
  cases taken with
  | nothing queue popped => exact Onward.of_same rfl rfl rfl
  | entered queue event unscheduled advanced slot popped one moved found =>
      obtain ⟨globalClock, localClocks, rfl⟩ := advanceClock_eq_ok moved
      exact Onward.erased rfl event.key.uid rfl rfl

theorem scheduleDestroy_onward {callback : β}
    (registered : simulation.scheduleDestroy callback = .ok (handle, after)) :
    simulation.Onward after := by
  obtain ⟨nextUid, following, rfl, rfl⟩ := scheduleDestroy_eq_ok registered
  refine ⟨?_, fun _ _ armed => Or.inl armed, ?_⟩
  · show simulation.nextUid.value.toNat ≤ nextUid.value.toNat
    omega
  · intro registered member
    rcases List.mem_append.mp member with before | fresh
    · exact Or.inl before
    · rw [List.mem_singleton.mp fresh]
      exact Or.inr ⟨rfl, Nat.le_refl _⟩

theorem scheduleDestroy_issued {callback : β}
    (registered : simulation.scheduleDestroy callback = .ok (handle, after)) :
    after.Issued handle := by
  obtain ⟨nextUid, following, rfl, rfl⟩ := scheduleDestroy_eq_ok registered
  constructor
  · show simulation.nextUid.value.toNat < nextUid.value.toNat
    omega
  · intro impossible
    cases impossible

private theorem replaceQueue_onward {replacement : Queue.EventQueue σ}
    (replaced : simulation.replaceQueue replacement = .ok after) : simulation.Onward after := by
  unfold replaceQueue at replaced
  split at replaced
  · obtain ⟨queue, moved, returned⟩ := bind_eq_ok replaced
    cases returned
    exact Onward.of_same rfl rfl rfl
  · cases replaced

section

variable [Exploration.Hook σ] {nextUid : EventUid} {event : Event} {callback : Callback β}

theorem Enqueued.onward (following : simulation.nextUid.value.toNat + 1 = nextUid.value.toNat)
    (numbered : event.key.uid = simulation.nextUid)
    (enqueued : Enqueued { simulation with nextUid } event callback handle after) :
    simulation.Onward after := by
  have numbers : simulation.nextUid.value.toNat ≤ nextUid.value.toNat := by omega
  cases enqueued with
  | queued queue key inserted =>
      refine ⟨numbers, ?_, fun _ member => Or.inl member⟩
      intro uid other armed
      rw [Slots.find?_insert] at armed
      split at armed
      · rename_i here
        refine Or.inr ⟨Nat.le_of_eq (by rw [here, numbered]), ?_⟩
        change uid.value.toNat < nextUid.value.toNat
        rw [here, numbered]
        omega
      · exact Or.inl armed
  | refused queue ended inserted =>
      exact ⟨numbers, fun _ _ armed => Or.inl armed, fun _ member => Or.inl member⟩

private theorem Enqueued.issued
    (following : simulation.nextUid.value.toNat + 1 = nextUid.value.toNat)
    (numbered : event.key.uid = simulation.nextUid)
    (enqueued : Enqueued { simulation with nextUid } event callback handle after) :
    after.Issued handle := by
  have fresh : event.key.uid.value.toNat < nextUid.value.toNat := by
    rw [numbered]
    omega
  cases enqueued with
  | queued queue key inserted =>
      obtain ⟨ts, layout, _, rfl, placed, same⟩ := Queue.EventQueue.insert_accepted inserted
      exact ⟨fresh, fun _ => rfl⟩
  | refused queue ended inserted => exact ⟨fresh, fun _ => rfl⟩

private theorem schedule_onward {plan : Plan}
    (scheduled : simulation.schedule plan callback = .ok (handle, after)) :
    simulation.Onward after := by
  obtain ⟨base, ts, nextUid, owner, atBase, stamped, atOwner, following, enqueued⟩ :=
    schedule_eq_ok scheduled
  exact enqueued.onward following rfl

theorem schedule_issued {plan : Plan}
    (scheduled : simulation.schedule plan callback = .ok (handle, after)) :
    after.Issued handle := by
  obtain ⟨base, ts, nextUid, owner, atBase, stamped, atOwner, following, enqueued⟩ :=
    schedule_eq_ok scheduled
  exact enqueued.issued following rfl

private theorem mergeAll_onward (requests : List (RemoteRequest β)) :
    ∀ {simulation : Simulation σ β}, simulation.mergeAll requests = .ok after →
      simulation.Onward after := by
  induction requests with
  | nil =>
      intro simulation merged
      cases merged
      exact Onward.refl _
  | cons request rest ih =>
      intro simulation merged
      obtain ⟨next, first, others⟩ := bind_eq_ok merged
      obtain ⟨ts, nextUid, owner, handle, stamped, atOwner, following, enqueued⟩ :=
        merge_eq_ok first
      exact (enqueued.onward following rfl).trans (ih others)

private theorem drainInbox_onward (drained : simulation.drainInbox = .ok after) :
    simulation.Onward after := by
  have emptied : simulation.Onward { simulation with inbox := simulation.inbox.drain.2 } :=
    Onward.of_same rfl rfl rfl
  exact emptied.trans (mergeAll_onward simulation.inbox.drain.1 drained)

theorem leaveEvent_onward (left : simulation.leaveEvent = .ok after) :
    simulation.Onward after := by
  have outside : simulation.Onward { simulation with context := .global } :=
    Onward.of_same rfl rfl rfl
  exact outside.trans (drainInbox_onward left)

theorem finishEvent_onward (finished : simulation.finishEvent = .ok after) :
    simulation.Onward after := by
  have counted : simulation.Onward { simulation with processed := simulation.processed + 1 } :=
    Onward.of_same rfl rfl rfl
  exact counted.trans (leaveEvent_onward finished)

theorem beginRun_onward (begun : simulation.beginRun = .ok after) :
    simulation.Onward after := by
  obtain ⟨drained, stopRequested, merged, rfl⟩ := beginRun_eq_ok begun
  exact (drainInbox_onward merged).trans (Onward.of_same rfl rfl rfl)

theorem answer_onward {reply : Reply} (request : Request σ β reply) {value : reply.Value}
    (answered : request.answer simulation = .ok (value, after)) : simulation.Onward after := by
  cases request with
  | schedule placement callback => exact schedule_onward answered
  | scheduleDestroy callback => exact scheduleDestroy_onward answered
  | stopAfter delay => exact schedule_onward answered
  | cancel handle =>
      obtain ⟨next, cancelled, returned⟩ := bind_eq_ok answered
      cases returned
      exact (cancel_eq_ok cancelled).onward
  | remove handle =>
      obtain ⟨next, removed, returned⟩ := bind_eq_ok answered
      cases returned
      exact (remove_eq_ok removed).onward
  | replaceQueue replacement =>
      obtain ⟨next, replaced, returned⟩ := bind_eq_ok answered
      cases returned
      exact replaceQueue_onward replaced
  | dispose =>
      cases answered
      exact ⟨Nat.le_refl _, fun _ _ impossible => (nomatch impossible),
        fun _ member => Or.inl member⟩
  | isExpired _ | delayLeft _ | now | nowIn _ =>
      obtain ⟨answer, asked, returned⟩ := bind_eq_ok answered
      cases returned
      exact Onward.refl simulation
  | requestRemote _ _ _ | stop =>
      cases answered
      exact Onward.of_same rfl rfl rfl
  | currentContext | pending | remotePending | describe | detail | trace | configuration =>
      cases answered
      exact Onward.refl simulation

end

end Simulation

end EventKernel
