import EventKernel.Proofs.BookkeepingRuns
import EventKernel.Proofs.HandleState
import EventKernel.Proofs.SimulationProgress

set_option autoImplicit false

/-! Events that exploration refuses. What an operation refuses is read off the answers of the
queue, whatever the simulation makes of them. A simulation that heeds its refusals has noted the
first reason, goes on with no run, and keeps nothing under the number of a refused event. Every
operation preserves this, also for what it refuses itself. Whether the requests that wait can be
merged depends on the requests alone, refused or not. -/

namespace EventKernel

open Queue (EventQueue)
open Exploration (Hook Perturbation)

/-- An event that the queue did not take, and why. -/
structure Refusal where
  event : Event
  reason : String
deriving DecidableEq, Repr

/-- What the owner of a refused event is given for it. -/
def Refusal.handle (refusal : Refusal) : Handle := Simulation.refusedHandle refusal.event

namespace Simulation

variable {σ β : Type}

/-- The event that a plan asks for. -/
def planned (simulation : Simulation σ β) (plan : Plan) : Except Fault Event := do
  let ts ← (← simulation.clock plan.base).after plan.delay
  return ⟨⟨ts, simulation.nextUid, plan.context⟩, plan.kind, plan.base, plan.transmit⟩

/-- The event that a request from outside asks for. -/
def requested (simulation : Simulation σ β) (request : RemoteRequest β) :
    Except Fault Event := do
  let ts ← simulation.globalClock.after request.delay
  return ⟨⟨ts, simulation.nextUid, request.context⟩, .undefined, request.context, none⟩

section

variable [Hook σ]

/-- The refusal of an event, if the queue refuses it. -/
def refusals (simulation : Simulation σ β) : Except Fault Event → List Refusal
  | .error _ => []
  | .ok event =>
      match simulation.queue.insert event with
      | .ok (.error ended, _) => [⟨event, ended.reason⟩]
      | _ => []

def mergeRefusals (simulation : Simulation σ β) : List (RemoteRequest β) → List Refusal
  | [] => []
  | request :: rest =>
      simulation.refusals (simulation.requested request) ++
        match simulation.merge request with
        | .ok next => next.mergeRefusals rest
        | .error _ => []

def drainRefusals (simulation : Simulation σ β) : List Refusal :=
  mergeRefusals { simulation with inbox := simulation.inbox.drain.2 } simulation.inbox.drain.1

end

structure Dropped (simulation : Simulation σ β) (handle : Handle) : Prop where
  queued : handle.isDestroy = false
  issued : simulation.Issued handle
  gone : simulation.Gone handle

/-- A simulation that had these events refused, the first of them first. -/
structure Heeds (simulation : Simulation σ β) (refused : List Refusal) : Prop where
  regular : simulation.Regular
  noted : simulation.terminated = refused.head?.map Refusal.reason
  stopped : refused ≠ [] → simulation.stopRequested = true
  dropped : ∀ refusal ∈ refused, simulation.Dropped refusal.handle

end Simulation

/-- What a request has the queue refuse. -/
def Request.refusals {σ β : Type} [Hook σ] {reply : Reply} (request : Request σ β reply)
    (simulation : Simulation σ β) : List Refusal :=
  match request.plan? simulation.context with
  | some plan => simulation.refusals (simulation.planned plan)
  | none => []

namespace Simulation

variable {σ β : Type} {simulation after : Simulation σ β} {handle : Handle}
  {refused : List Refusal}

/-! ### Handles of events that are not there -/

private theorem Dropped.onward (dropped : simulation.Dropped handle) (regular : simulation.Regular)
    (onward : simulation.Onward after) : after.Dropped handle where
  queued := dropped.queued
  issued := dropped.issued.onward onward
  gone := dropped.gone.onward regular dropped.issued onward

private theorem Regular.dropped (regular : simulation.Regular) {nextUid : EventUid}
    (following : simulation.nextUid.value.toNat + 1 = nextUid.value.toNat) {event : Event}
    (numbered : event.key.uid = simulation.nextUid) (number : after.nextUid = nextUid)
    (slots : after.slots = simulation.slots) : after.Dropped (refusedHandle event) := by
  have ordinary : EventUid.first.value.toNat ≤ event.key.uid.value.toNat :=
    numbered ▸ regular.ordinary
  have queued : (refusedHandle event).isDestroy = false := by
    refine beq_false_of_ne fun same => ?_
    change event.key.uid = .destroy at same
    rw [same] at ordinary
    exact absurd ordinary (by decide)
  have fresh (callback : Callback β) :
      simulation.slots.find? event.key.uid ≠ some (.armed callback) := by
    intro armed
    have below := regular.numbered event.key.uid callback armed
    rw [numbered] at below
    exact Nat.lt_irrefl _ below
  refine ⟨queued, ⟨?_, fun _ => rfl⟩, ⟨slots ▸ fresh, fun destroy => ?_⟩⟩
  · change event.key.uid.value.toNat < after.nextUid.value.toNat
    rw [number, numbered]
    omega
  · rw [queued] at destroy
    cases destroy

theorem delayLeft_of_expired (expired : simulation.isExpired handle = .ok true) :
    simulation.delayLeft handle = .ok 0 := by
  unfold delayLeft
  simp only [expired, bind, Except.bind, if_true]
  rfl

theorem cancel_of_expired (expired : simulation.isExpired handle = .ok true) :
    simulation.cancel handle = .ok simulation := by
  unfold cancel
  simp only [expired, bind, Except.bind, if_true]
  rfl

theorem remove_of_expired (queued : handle.isDestroy = false)
    (expired : simulation.isExpired handle = .ok true) :
    simulation.remove handle = .ok simulation := by
  unfold remove
  simp only [queued, Bool.false_eq_true, if_false, expired, bind, Except.bind, if_true]
  rfl

/-! ### What is refused -/

section

variable [Hook σ] {event : Event} {refusal : Refusal}

private theorem mem_refusals {asked : Except Fault Event}
    (member : refusal ∈ simulation.refusals asked) :
    asked = .ok refusal.event ∧
      ∃ queue, simulation.queue.insert refusal.event = .ok (.error ⟨refusal.reason⟩, queue) := by
  unfold refusals at member
  split at member
  · cases member
  · split at member
    · rename_i ended queue inserted
      rw [List.mem_singleton.mp member]
      exact ⟨rfl, queue, inserted⟩
    · cases member

private theorem refusals_accepted {queue : EventQueue σ} {key : EventKey}
    (inserted : simulation.queue.insert event = .ok (.ok key, queue)) :
    simulation.refusals (.ok event) = [] := by
  unfold refusals
  simp only [inserted]

private theorem refusals_refused {queue : EventQueue σ} {ended : BranchEnded}
    (inserted : simulation.queue.insert event = .ok (.error ended, queue)) :
    simulation.refusals (.ok event) = [⟨event, ended.reason⟩] := by
  unfold refusals
  simp only [inserted]

omit [Hook σ] in
private theorem planned_of_clock {plan : Plan} {base : Clock} {ts : Timestamp}
    (atBase : simulation.clock plan.base = .ok base) (stamped : base.after plan.delay = .ok ts) :
    simulation.planned plan =
      .ok ⟨⟨ts, simulation.nextUid, plan.context⟩, plan.kind, plan.base, plan.transmit⟩ := by
  unfold planned
  simp only [atBase, stamped, bind, Except.bind]
  rfl

omit [Hook σ] in
private theorem requested_of_clock {request : RemoteRequest β} {ts : Timestamp}
    (stamped : simulation.globalClock.after request.delay = .ok ts) :
    simulation.requested request =
      .ok ⟨⟨ts, simulation.nextUid, request.context⟩, .undefined, request.context, none⟩ := by
  unfold requested
  simp only [stamped, bind, Except.bind]
  rfl

omit [Hook σ] in
private theorem planned_uid {plan : Plan} (asked : simulation.planned plan = .ok event) :
    event.key.uid = simulation.nextUid := by
  obtain ⟨base, atBase, rest⟩ := bind_eq_ok asked
  obtain ⟨ts, stamped, returned⟩ := bind_eq_ok rest
  cases returned
  rfl

omit [Hook σ] in
private theorem requested_uid {request : RemoteRequest β}
    (asked : simulation.requested request = .ok event) :
    event.key.uid = simulation.nextUid := by
  obtain ⟨ts, stamped, returned⟩ := bind_eq_ok asked
  cases returned
  rfl

/-- What is refused from outside had a number that was not given out before. -/
theorem mergeRefusals_fresh (requests : List (RemoteRequest β)) :
    ∀ {simulation : Simulation σ β}, ∀ refusal ∈ simulation.mergeRefusals requests,
      simulation.nextUid.value.toNat ≤ refusal.event.key.uid.value.toNat := by
  induction requests with
  | nil =>
      intro simulation refusal member
      cases member
  | cons request rest ih =>
      intro simulation refusal member
      rcases List.mem_append.mp member with here | later
      · exact Nat.le_of_eq (congrArg (·.value.toNat) (requested_uid (mem_refusals here).1).symm)
      · split at later
        · rename_i next merged
          obtain ⟨ts, nextUid, owner, given, stamped, atOwner, following, enqueued⟩ :=
            merge_eq_ok merged
          exact Nat.le_trans (enqueued.onward following rfl).numbers (ih refusal later)
        · cases later

theorem drainRefusals_fresh (member : refusal ∈ simulation.drainRefusals) :
    simulation.nextUid.value.toNat ≤ refusal.event.key.uid.value.toNat := by
  have fresh := mergeRefusals_fresh simulation.inbox.drain.1 refusal member
  exact fresh

theorem answer_fresh {reply : Reply} {request : Request σ β reply}
    (member : refusal ∈ request.refusals simulation) :
    refusal.event.key.uid = simulation.nextUid := by
  unfold Request.refusals at member
  split at member
  · exact planned_uid (mem_refusals member).1
  · cases member

/-- A refused request is answered with the handle of the refused event. -/
theorem answer_gives {reply : Reply} {request : Request σ β reply} {value : reply.Value}
    (member : refusal ∈ request.refusals simulation)
    (answered : request.answer simulation = .ok (value, after)) :
    (Signal.answered request value : Signal σ β).Gives refusal.handle := by
  have refusedPlan : ∀ {plan : Plan} {callback : Callback β} {given : Handle},
      refusal ∈ simulation.refusals (simulation.planned plan) →
      simulation.schedule plan callback = .ok (given, after) → given = refusal.handle := by
    intro plan callback given among scheduled
    obtain ⟨event, reason⟩ := refusal
    obtain ⟨base, ts, nextUid, owner, atBase, stamped, atOwner, following, enqueued⟩ :=
      schedule_eq_ok scheduled
    rw [planned_of_clock atBase stamped] at among
    obtain ⟨same, queue, inserted⟩ := mem_refusals among
    cases same
    cases enqueued with
    | queued _ key accepted => cases inserted.symm.trans accepted
    | refused => rfl
  cases request with
  | schedule placement callback =>
      rw [refusedPlan member answered]
      exact .scheduled placement callback
  | stopAfter delay =>
      rw [refusedPlan member answered]
      exact .bounded delay
  | scheduleDestroy _ | requestRemote _ _ _ | cancel _ | remove _ | isExpired _ | delayLeft _
  | stop | dispose | replaceQueue _ | now | nowIn _ | currentContext | pending | remotePending
  | describe | detail | trace | configuration => cases member

end

namespace Heeds

/-! ### What is heeded stays heeded -/

theorem ofQueue (queue : EventQueue σ) : (ofQueue queue : Simulation σ β).Heeds [] where
  regular := .ofQueue queue
  noted := rfl
  stopped := fun impossible => absurd rfl impossible
  dropped := List.forall_mem_nil _

/-- What refuses nothing keeps the reason, and takes back no request to stop. -/
theorem onward (heeds : simulation.Heeds refused) (onward : simulation.Onward after)
    (noted : after.terminated = simulation.terminated)
    (stops : refused ≠ [] → after.stopRequested = true) :
    after.Heeds refused where
  regular := heeds.regular.onward onward
  noted := noted.trans heeds.noted
  stopped := stops
  dropped := fun refusal member => (heeds.dropped refusal member).onward heeds.regular onward

theorem of_same (heeds : simulation.Heeds refused) (number : after.nextUid = simulation.nextUid)
    (slots : after.slots = simulation.slots)
    (destroyEvents : after.destroyEvents = simulation.destroyEvents)
    (noted : after.terminated = simulation.terminated)
    (stops : refused ≠ [] → after.stopRequested = true) :
    after.Heeds refused :=
  heeds.onward (.of_same number slots destroyEvents) noted stops

private theorem withdrawn (heeds : simulation.Heeds refused)
    (withdrawn : Withdrawn simulation handle after) : after.Heeds refused := by
  refine heeds.onward withdrawn.onward ?_ ?_
  · cases withdrawn with
    | unregistered | ignored | removed | cancelled => rfl
  · cases withdrawn with
    | unregistered | ignored | removed | cancelled => exact heeds.stopped

theorem taken (heeds : simulation.Heeds refused) {dequeued : Dequeued β}
    (taken : Taken simulation dequeued after) : after.Heeds refused := by
  have same : after.terminated = simulation.terminated ∧
      after.stopRequested = simulation.stopRequested := by
    cases taken with
    | nothing queue popped => exact ⟨rfl, rfl⟩
    | entered queue event unscheduled advanced slot popped one moved found =>
        obtain ⟨globalClock, localClocks, rfl⟩ := advanceClock_eq_ok moved
        exact ⟨rfl, rfl⟩
  exact heeds.onward taken.onward same.1 fun some_ => same.2.trans (heeds.stopped some_)

section

variable [Hook σ] {event : Event} {callback : Callback β} {nextUid : EventUid}

private theorem enqueued (heeds : simulation.Heeds refused)
    (following : simulation.nextUid.value.toNat + 1 = nextUid.value.toNat)
    (numbered : event.key.uid = simulation.nextUid)
    (enqueued : Enqueued { simulation with nextUid } event callback handle after) :
    after.Heeds (refused ++ simulation.refusals (.ok event)) := by
  have onward := enqueued.onward following numbered
  cases enqueued with
  | queued queue key inserted =>
      have nothing : simulation.refusals (.ok event) = [] := refusals_accepted inserted
      rw [nothing, List.append_nil]
      exact heeds.onward onward rfl heeds.stopped
  | refused queue ended inserted =>
      have one : simulation.refusals (.ok event) = [⟨event, ended.reason⟩] :=
        refusals_refused inserted
      rw [one]
      refine ⟨heeds.regular.onward onward, ?_, fun _ => rfl, fun refusal member => ?_⟩
      · change some (simulation.terminated.getD ended.reason) = _
        rw [heeds.noted]
        cases refused with
        | nil => rfl
        | cons first others => rfl
      · rcases List.mem_append.mp member with before | new
        · exact (heeds.dropped refusal before).onward heeds.regular onward
        · rw [List.mem_singleton.mp new]
          exact heeds.regular.dropped following numbered rfl rfl

private theorem schedule (heeds : simulation.Heeds refused) {plan : Plan}
    (scheduled : simulation.schedule plan callback = .ok (handle, after)) :
    after.Heeds (refused ++ simulation.refusals (simulation.planned plan)) := by
  obtain ⟨base, ts, nextUid, owner, atBase, stamped, atOwner, following, enqueued⟩ :=
    schedule_eq_ok scheduled
  rw [planned_of_clock atBase stamped]
  exact heeds.enqueued following rfl enqueued

private theorem mergeAll (requests : List (RemoteRequest β)) :
    ∀ {simulation : Simulation σ β} {refused : List Refusal}, simulation.Heeds refused →
      simulation.mergeAll requests = .ok after →
        after.Heeds (refused ++ simulation.mergeRefusals requests) := by
  induction requests with
  | nil =>
      intro simulation refused heeds merged
      cases merged
      unfold mergeRefusals
      rwa [List.append_nil]
  | cons request rest ih =>
      intro simulation refused heeds merged
      obtain ⟨next, first, others⟩ := bind_eq_ok merged
      obtain ⟨ts, nextUid, owner, given, stamped, atOwner, following, enqueued⟩ :=
        merge_eq_ok first
      have later := ih (heeds.enqueued following rfl enqueued) others
      unfold mergeRefusals
      simp only [first]
      rwa [requested_of_clock stamped, ← List.append_assoc]

private theorem drainInbox (heeds : simulation.Heeds refused)
    (drained : simulation.drainInbox = .ok after) :
    after.Heeds (refused ++ simulation.drainRefusals) := by
  have emptied : Heeds { simulation with inbox := simulation.inbox.drain.2 } refused :=
    heeds.of_same rfl rfl rfl rfl heeds.stopped
  exact mergeAll simulation.inbox.drain.1 emptied drained

theorem beginRun (heeds : simulation.Heeds refused)
    (begun : simulation.beginRun = .ok after) :
    after.Heeds (refused ++ simulation.drainRefusals) := by
  obtain ⟨drained, merged, rest⟩ := bind_eq_ok begun
  have later := heeds.drainInbox merged
  split at rest
  · rename_i free
    cases rest
    have nothing : refused ++ simulation.drainRefusals = [] := by
      rw [later.noted, Option.isNone_iff_eq_none, Option.map_eq_none_iff] at free
      exact List.head?_eq_none_iff.mp free
    exact later.of_same rfl rfl rfl rfl fun some_ => absurd nothing some_
  · cases rest
    exact later

theorem leaveEvent (heeds : simulation.Heeds refused)
    (left : simulation.leaveEvent = .ok after) :
    after.Heeds (refused ++ drainRefusals { simulation with context := .global }) := by
  have outside : Heeds { simulation with context := .global } refused :=
    heeds.of_same rfl rfl rfl rfl heeds.stopped
  exact outside.drainInbox left

theorem finishEvent (heeds : simulation.Heeds refused)
    (finished : simulation.finishEvent = .ok after) :
    after.Heeds (refused ++ drainRefusals
      { simulation with processed := simulation.processed + 1, context := .global }) := by
  have counted : Heeds { simulation with processed := simulation.processed + 1 } refused :=
    heeds.of_same rfl rfl rfl rfl heeds.stopped
  exact counted.leaveEvent finished

theorem answer (heeds : simulation.Heeds refused) {reply : Reply}
    (request : Request σ β reply) {value : reply.Value}
    (answered : request.answer simulation = .ok (value, after)) :
    after.Heeds (refused ++ request.refusals simulation) := by
  have unrefused (kept : after.Heeds refused) (nothing : request.refusals simulation = []) :
      after.Heeds (refused ++ request.refusals simulation) := by
    rwa [nothing, List.append_nil]
  cases request with
  | schedule placement callback => exact heeds.schedule answered
  | stopAfter delay => exact heeds.schedule answered
  | scheduleDestroy callback =>
      have onward := scheduleDestroy_onward answered
      obtain ⟨nextUid, following, _, rfl⟩ := scheduleDestroy_eq_ok answered
      exact unrefused (heeds.onward onward rfl heeds.stopped) rfl
  | cancel handle =>
      obtain ⟨next, cancelled, returned⟩ := bind_eq_ok answered
      cases returned
      exact unrefused (heeds.withdrawn (cancel_eq_ok cancelled)) rfl
  | remove handle =>
      obtain ⟨next, removed, returned⟩ := bind_eq_ok answered
      cases returned
      exact unrefused (heeds.withdrawn (remove_eq_ok removed)) rfl
  | replaceQueue replacement =>
      obtain ⟨next, replaced, returned⟩ := bind_eq_ok answered
      cases returned
      obtain ⟨queue, rfl⟩ := replaceQueue_same replaced
      exact unrefused (heeds.of_same rfl rfl rfl rfl heeds.stopped) rfl
  | dispose =>
      have onward := answer_onward _ answered
      cases answered
      exact unrefused (heeds.onward onward rfl heeds.stopped) rfl
  | stop =>
      cases answered
      exact unrefused (heeds.of_same rfl rfl rfl rfl fun _ => rfl) rfl
  | requestRemote _ _ _ =>
      cases answered
      exact unrefused (heeds.of_same rfl rfl rfl rfl heeds.stopped) rfl
  | isExpired _ | delayLeft _ | now | nowIn _ =>
      obtain ⟨answer, asked, returned⟩ := bind_eq_ok answered
      cases returned
      exact unrefused heeds rfl
  | currentContext | pending | remotePending | describe | detail | trace | configuration =>
      cases answered
      exact unrefused heeds rfl

end

/-! ### What it means -/

theorem expired (heeds : simulation.Heeds refused) {refusal : Refusal}
    (member : refusal ∈ refused) : simulation.isExpired refusal.handle = .ok true :=
  (heeds.dropped refusal member).gone.expired

theorem goesOn (heeds : simulation.Heeds refused) (some_ : refused ≠ []) :
    simulation.goesOn = false := by
  unfold Simulation.goesOn
  rw [heeds.stopped some_]
  rfl

theorem endRun {first : Refusal} {others : List Refusal}
    (heeds : simulation.Heeds (first :: others)) (before : Nat) :
    simulation.endRun before = .ok (.error ⟨first.reason⟩) := by
  have noted : simulation.terminated = some first.reason := heeds.noted
  unfold Simulation.endRun
  rw [noted]

end Heeds

end Simulation

/-! ### Requests from outside that can be merged -/

namespace Queue.EventQueue

variable {σ : Type} [Hook σ] {queue : EventQueue σ} {entities : Nat} {keys : List EventKey}

/-- Exploration does not count what transmits nothing, so it cannot count too far. -/
theorem exists_apply (perturbation : Perturbation) (hook : σ) {event : Event}
    (plain : event.transmit = none) :
    ∃ result, perturbation.apply hook event = .ok result := by
  have exempt (settings : Queue.PerturbationSettings) :
      Perturbation.isEligible settings event = false := by
    unfold Perturbation.isEligible
    rw [plain]
  unfold Perturbation.apply
  split
  · exact ⟨_, rfl⟩
  · split
    · exact ⟨_, rfl⟩
    · split
      · exact ⟨_, rfl⟩
      · rw [exempt, Bool.not_false, if_pos rfl]
        exact ⟨_, rfl⟩

private theorem Holds.exists_insert (holds : queue.Holds entities keys) (event : Event)
    (owner : event.key.context.Known entities) (cause : event.prevContext.Known entities)
    (fresh : event.key.uid ∉ keys.map EventKey.uid) (plain : event.transmit = none) :
    ∃ answer, queue.insert event = .ok answer := by
  obtain ⟨⟨prepared, perturbation, hook⟩, applied⟩ :=
    exists_apply queue.perturbation queue.hook plain
  unfold EventQueue.insert
  simp only [applied, bind, Except.bind]
  cases prepared with
  | error ended => exact ⟨_, rfl⟩
  | ok shifted =>
      obtain ⟨ts, _, rfl⟩ := prepared_event applied
      obtain ⟨layout, placed, _⟩ :=
        holds.place { event with key := { event.key with ts } } owner cause fresh
      simp only [placed]
      exact ⟨_, rfl⟩

end Queue.EventQueue

namespace Simulation

variable {σ β : Type} {simulation : Simulation σ β}

/-- Contexts that exist, and enough instants and serial numbers left for all requests. -/
structure Mergeable (simulation : Simulation σ β) (requests : List (RemoteRequest β)) :
    Prop where
  known : ∀ request ∈ requests, request.context.Known simulation.localClocks.length
  timely : ∀ request ∈ requests,
    simulation.globalClock.now.value.toNat + request.delay.toNat < UInt64.size
  room : simulation.nextUid.value.toNat + requests.length < UInt64.size

section

variable [Hook σ] {entities : Nat} {keys : List EventKey} {given : Handle → Prop}

private theorem exists_enqueue (simulation : Simulation σ β) {event : Event} (callback : Callback β)
    {queue : EventQueue σ} {answer : Except BranchEnded EventKey}
    (inserted : simulation.queue.insert event = .ok (answer, queue)) :
    ∃ result, simulation.enqueue event callback = .ok result := by
  unfold enqueue
  simp only [inserted, bind, Except.bind]
  cases answer with
  | ok key => exact ⟨_, rfl⟩
  | error ended => exact ⟨_, rfl⟩

private theorem Booked.exists_merge (booked : simulation.Booked entities keys given)
    {request : RemoteRequest β} {rest : List (RemoteRequest β)}
    (mergeable : simulation.Mergeable (request :: rest)) :
    ∃ after, simulation.merge request = .ok after ∧ after.Mergeable rest := by
  have known := mergeable.known request List.mem_cons_self
  have timely := mergeable.timely request List.mem_cons_self
  have room := mergeable.room
  rw [List.length_cons] at room
  have stamped : simulation.globalClock.after request.delay =
      .ok ⟨simulation.globalClock.now.value + request.delay⟩ :=
    Clock.after_of_sum (Word.toNat_add_of_lt timely)
  obtain ⟨owner, read⟩ := exists_clock known
  have one : simulation.nextUid.value.toNat + 1 < UInt64.size := by omega
  obtain ⟨nextUid, allocated, following⟩ := allocateUid_of_room one
  obtain ⟨⟨answer, queue⟩, inserted⟩ := booked.holds.exists_insert
    ⟨⟨⟨simulation.globalClock.now.value + request.delay⟩, simulation.nextUid, request.context⟩,
      .undefined, request.context, none⟩ (booked.clocks ▸ known) (booked.clocks ▸ known)
      booked.fresh rfl
  obtain ⟨⟨handle, after⟩, enqueued⟩ :=
    exists_enqueue { simulation with nextUid } (.user request.callback) inserted
  have merged : simulation.merge request = .ok after := by
    unfold Simulation.merge
    simp only [stamped, read, allocated, enqueued, bind, Except.bind]
    rfl
  refine ⟨after, merged, ?_⟩
  have others : ∀ other ∈ rest, other ∈ request :: rest := fun _ => List.mem_cons_of_mem request
  cases enqueue_eq_ok enqueued with
  | queued | refused =>
      refine ⟨fun other member => mergeable.known other (others other member),
        fun other member => mergeable.timely other (others other member), ?_⟩
      change nextUid.value.toNat + rest.length < UInt64.size
      omega

private theorem Booked.exists_mergeAll (requests : List (RemoteRequest β)) :
    ∀ {simulation : Simulation σ β} {keys : List EventKey},
      simulation.Booked entities keys given → simulation.Mergeable requests →
        ∃ after, simulation.mergeAll requests = .ok after := by
  induction requests with
  | nil => exact fun _ _ => ⟨_, rfl⟩
  | cons request rest ih =>
      intro simulation keys booked mergeable
      obtain ⟨next, merged, others⟩ := booked.exists_merge mergeable
      obtain ⟨_, nextBooked⟩ := booked.merge merged
      obtain ⟨after, remaining⟩ := ih nextBooked others
      refine ⟨after, ?_⟩
      unfold Simulation.mergeAll
      simp only [merged, bind, Except.bind]
      exact remaining

theorem Booked.exists_drainInbox (booked : simulation.Booked entities keys given)
    (mergeable : simulation.Mergeable simulation.inbox.drain.1) :
    ∃ after, simulation.drainInbox = .ok after := by
  have emptied : Booked { simulation with inbox := simulation.inbox.drain.2 } entities keys given :=
    booked.of_same rfl rfl rfl rfl rfl
  exact emptied.exists_mergeAll simulation.inbox.drain.1
    ⟨mergeable.known, mergeable.timely, mergeable.room⟩

end

end Simulation

end EventKernel
