import EventKernel.Proofs.BookkeepingRuns
import EventKernel.Proofs.WaitingRequests

set_option autoImplicit false

/-! Where clocks stand among the keys of events. A clock stands at the last event that was
executed against it, and no operation moves it but taking the next event. What is scheduled
against a clock comes after it, because the delay is added to its instant, exploration only puts
events off, and the number is new. -/

namespace EventKernel

open Queue (EventQueue)
open Exploration (Hook)

namespace Clock

variable {clock : Clock} {key : EventKey}

def Precedes (clock : Clock) (key : EventKey) : Prop :=
  (⟨clock.now, clock.lastUid, key.context⟩ : EventKey).Precedes key

theorem precedes_iff_not_hasPassed :
    clock.Precedes key ↔ clock.hasPassed key.ts key.uid = false := by
  unfold Precedes EventKey.Precedes hasPassed
  simp only [Bool.or_eq_false_iff, Bool.and_eq_false_iff, decide_eq_false_iff_not,
    beq_eq_false_iff_ne, ne_eq, Timestamp.lt_iff_toNat]
  have sameTime : clock.now = key.ts ↔ clock.now.value.toNat = key.ts.value.toNat := by
    constructor
    · intro same
      rw [same]
    · intro same
      exact congrArg Timestamp.mk (UInt64.toNat_inj.mp same)
  have uidOrder : clock.lastUid < key.uid ↔
      clock.lastUid.value.toNat < key.uid.value.toNat := UInt64.lt_iff_toNat_lt
  have uidReach : key.uid ≤ clock.lastUid ↔
      key.uid.value.toNat ≤ clock.lastUid.value.toNat := UInt64.le_iff_toNat_le
  have reversed : key.ts = clock.now ↔ clock.now = key.ts := eq_comm
  rw [reversed, sameTime, uidOrder, uidReach]
  omega

private theorem precedes_of_later (later : clock.now.value.toNat ≤ key.ts.value.toNat)
    (newer : clock.lastUid.value.toNat < key.uid.value.toNat) : clock.Precedes key := by
  unfold Precedes
  rw [EventKey.precedes_iff_rank_lt]
  unfold EventKey.rank UInt64.size
  simp only
  omega

end Clock

/-- A request that the program itself makes, not one from outside. -/
def Request.FromInside {σ β : Type} : {reply : Reply} → Request σ β reply → Prop
  | _, .requestRemote _ _ _ => False
  | _, _ => True

namespace Simulation

variable {σ β : Type} {simulation after : Simulation σ β}

theorem clock_congr (globalClock : after.globalClock = simulation.globalClock)
    (localClocks : after.localClocks = simulation.localClocks) :
    after.clock = simulation.clock := by
  funext context
  unfold clock
  rw [globalClock, localClocks]

theorem Planned.after_base {plan : Plan} {key : EventKey} (planned : simulation.Planned plan key)
    {clock : Clock} (read : simulation.clock plan.base = .ok clock)
    (numbered : clock.lastUid.value.toNat < simulation.nextUid.value.toNat) :
    clock.Precedes key := by
  obtain ⟨base, atBase, later⟩ := planned.later
  rw [atBase] at read
  cases read
  rw [← planned.number] at numbered
  exact Clock.precedes_of_later (Nat.le_trans (Nat.le_add_right _ _) later) numbered

/-- The clock of the owner is moved to the event, and no other. -/
theorem advanceClock_clock {key : EventKey} (moved : simulation.advanceClock key = .ok after)
    (context : Context) : after.clock context =
      if context = key.context then .ok ⟨key.ts, key.uid⟩ else simulation.clock context := by
  unfold advanceClock at moved
  split at moved
  · rename_i owner
    cases moved
    rw [owner]
    cases context with
    | global => rfl
    | node id => rfl
  · rename_i id owner
    rw [owner]
    split at moved
    · rename_i known
      cases moved
      cases context with
      | global => rfl
      | node other =>
          unfold clock
          by_cases same : other = id
          · rw [if_pos (congrArg Context.node same), same]
            simp only [List.getElem?_set_self known]
            rfl
          · have apart : id.index ≠ other.index := by
              intro equal
              exact same (congrArg NodeId.mk (UInt32.toNat_inj.mp equal.symm))
            rw [if_neg fun equal => same (Context.node.inj equal)]
            simp only [List.getElem?_set_ne apart, List.length_set]
    · cases moved

section

variable [Hook σ]

theorem answer_idle {reply : Reply} {request : Request σ β reply} {value : reply.Value}
    (inside : request.FromInside) (idle : simulation.inbox.requests = [])
    (answered : request.answer simulation = .ok (value, after)) : after.inbox.requests = [] := by
  rw [answer_inbox request answered]
  cases request with
  | requestRemote context delay callback => exact inside.elim
  | dispose => exact (Inbox.drain_idle idle).2
  | _ => exact idle

theorem answer_clock {reply : Reply} (request : Request σ β reply) {value : reply.Value}
    (answered : request.answer simulation = .ok (value, after)) :
    after.clock = simulation.clock := by
  obtain ⟨localClocks, _, globalClock⟩ := answer_clocks request answered
  exact clock_congr globalClock localClocks

end

end Simulation

end EventKernel
