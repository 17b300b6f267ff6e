import EventKernel.Proofs.DepositLists

set_option autoImplicit false

/-! The ledger of callbacks against the books of a simulation. The requests that wait are those
of the inbox, in order; a callback is queued under a key exactly while the queue holds the key
and the table has the callback armed. Every operation of the simulation keeps this. -/

namespace EventKernel

variable {σ β : Type}

namespace Simulation

open Queue (EventQueue)
open Exploration (Hook)

variable {simulation after : Simulation σ β} {entities : Nat} {keys : List EventKey}
  {given : Handle → Prop} {requests : List (RemoteRequest β)} {ledger : List (Deposit β)}

def Dequeued.record (ledger : List (Deposit β)) : Dequeued β → List (Deposit β)
  | .invoke key _ => ledger.map (Deposit.invoke key)
  | _ => ledger

/-! ### What became of a serial number -/

private theorem Booked.fateOf_held (booked : simulation.Booked entities keys given) {key : EventKey}
    (member : key ∈ keys) : simulation.fateOf key.uid = .queued key := by
  obtain ⟨event, present, same⟩ := List.mem_map.mp (booked.holds.listed.mem_iff.mpr member)
  unfold fateOf
  cases found : simulation.queue.layout.events.find? fun event => event.key.uid == key.uid with
  | none =>
      have absent := List.find?_eq_none.mp found event present
      rw [same] at absent
      exact absurd BEq.rfl absent
  | some other =>
      have tied := List.find?_some found
      have held := booked.holds.listed.mem_iff.mp
        (List.mem_map_of_mem (List.mem_of_find?_eq_some found))
      exact congrArg Fate.queued (eq_of_nodup_map booked.distinct held member (eq_of_beq tied))

private theorem Booked.fateOf_absent (booked : simulation.Booked entities keys given)
    {uid : EventUid} (absent : uid ∉ keys.map EventKey.uid) : simulation.fateOf uid = .refused := by
  unfold fateOf
  cases found : simulation.queue.layout.events.find? fun event => event.key.uid == uid with
  | none => rfl
  | some other =>
      have tied := List.find?_some found
      refine absurd ?_ absent
      rw [← eq_of_beq tied]
      exact List.mem_map_of_mem (booked.holds.listed.mem_iff.mp
        (List.mem_map_of_mem (List.mem_of_find?_eq_some found)))

private theorem Booked.fateOf_same (booked : simulation.Booked entities keys given)
    {others : List EventKey} {known : Handle → Prop} (kept : after.Booked entities others known)
    {uid : EventUid} (same : ∀ key : EventKey, key.uid = uid → (key ∈ others ↔ key ∈ keys)) :
    after.fateOf uid = simulation.fateOf uid := by
  by_cases named : uid ∈ keys.map EventKey.uid
  · obtain ⟨key, member, rfl⟩ := List.mem_map.mp named
    rw [booked.fateOf_held member, kept.fateOf_held ((same key rfl).mpr member)]
  · rw [booked.fateOf_absent named, kept.fateOf_absent]
    intro later
    obtain ⟨key, member, tied⟩ := List.mem_map.mp later
    exact named (List.mem_map.mpr ⟨key, (same key tied).mp member, tied⟩)

private theorem fateOf_taken (simulation : Simulation σ β) (uid : EventUid) :
    simulation.fateOf uid ≠ .waiting := by
  unfold fateOf
  split <;> exact fun impossible => (nomatch impossible)

/-! ### The ledger and the books -/

/-- What the ledger says of callbacks that wait, that are queued and that were refused is true
of the simulation. -/
structure Backs (simulation : Simulation σ β) (requests : List (RemoteRequest β))
    (keys : List EventKey) (ledger : List (Deposit β)) : Prop where
  waiting : ledger.filterMap Deposit.waiting? =
    requests.map fun request => .user request.callback
  queued : ∀ callback key, ⟨callback, .queued key⟩ ∈ ledger →
    key ∈ keys ∧ simulation.slots.find? key.uid = some (.armed callback)
  armed : ∀ key ∈ keys, ∀ callback, simulation.slots.find? key.uid = some (.armed callback) →
    ⟨callback, .queued key⟩ ∈ ledger
  distinct : ((ledger.filterMap Deposit.key?).map EventKey.uid).Nodup
  numbered : ∀ key ∈ ledger.filterMap Deposit.key?,
    key.uid.value.toNat < simulation.nextUid.value.toNat
  refusals : ∀ deposit ∈ ledger, deposit.fate = .refused → simulation.terminated ≠ none

namespace Backs

theorem of_same (backs : simulation.Backs requests keys ledger)
    (slots : after.slots = simulation.slots)
    (numbers : simulation.nextUid.value.toNat ≤ after.nextUid.value.toNat)
    (terminated : simulation.terminated ≠ none → after.terminated ≠ none) :
    after.Backs requests keys ledger where
  waiting := backs.waiting
  queued := slots ▸ backs.queued
  armed := slots ▸ backs.armed
  distinct := backs.distinct
  numbered := fun key member => Nat.lt_of_lt_of_le (backs.numbered key member) numbers
  refusals := fun deposit member refused => terminated (backs.refusals deposit member refused)

private theorem changed (backs : simulation.Backs requests keys ledger)
    {change : Deposit β → Deposit β} {others : List EventKey}
    {remaining : List (RemoteRequest β)} (lessens : Deposit.Lessens change)
    (numbers : after.nextUid = simulation.nextUid)
    (terminated : after.terminated = simulation.terminated)
    (waiting : (ledger.map change).filterMap Deposit.waiting? =
      remaining.map fun request => .user request.callback)
    (queued : ∀ callback key, ⟨callback, .queued key⟩ ∈ ledger.map change →
      key ∈ others ∧ after.slots.find? key.uid = some (.armed callback))
    (armed : ∀ key ∈ others, ∀ callback,
      after.slots.find? key.uid = some (.armed callback) →
        ⟨callback, .queued key⟩ ∈ ledger.map change) :
    after.Backs remaining others (ledger.map change) where
  waiting := waiting
  queued := queued
  armed := armed
  distinct := backs.distinct.sublist ((lessens.sublist ledger).map _)
  numbered := fun key member => numbers ▸
    backs.numbered key ((lessens.sublist ledger).subset member)
  refusals := by
    intro deposit member refused
    obtain ⟨origin, present, same⟩ := List.mem_map.mp member
    rw [← same] at refused
    rw [terminated]
    exact backs.refusals origin present (lessens.refuses origin refused)

theorem requested (backs : simulation.Backs requests keys ledger) (request : RemoteRequest β) :
    (simulation.requestRemote request).Backs (requests ++ [request]) keys
      (ledger ++ [⟨.user request.callback, .waiting⟩]) := by
  have sameKeys : (ledger ++ [Deposit.mk (.user request.callback) .waiting]).filterMap
      Deposit.key? = ledger.filterMap Deposit.key? := by
    rw [List.filterMap_append]
    exact List.append_nil _
  refine ⟨?_, ?_, ?_, sameKeys ▸ backs.distinct, sameKeys ▸ backs.numbered, ?_⟩
  · rw [List.filterMap_append, List.map_append, backs.waiting]
    rfl
  · intro callback key member
    rcases List.mem_append.mp member with before | new
    · exact backs.queued callback key before
    · cases List.mem_singleton.mp new
  · intro key member callback found
    exact List.mem_append_left _ (backs.armed key member callback found)
  · intro deposit member refused
    rcases List.mem_append.mp member with before | new
    · exact backs.refusals deposit before refused
    · rw [List.mem_singleton.mp new] at refused
      cases refused

private theorem withdraw_expired {handle : Handle}
    (expired : simulation.isExpired handle = .ok true) :
    simulation.withdraw handle ledger = ledger := by
  unfold withdraw
  rw [expired]
  cases handle.isDestroy <;> rfl

private theorem withdraw_live {handle : Handle} (queued : handle.isDestroy = false)
    (live : simulation.isExpired handle = .ok false) :
    simulation.withdraw handle ledger = ledger.map (Deposit.withdraw handle.key.uid) := by
  unfold withdraw
  rw [queued, live]

theorem withdrawn (backs : simulation.Backs requests keys ledger)
    (booked : simulation.Booked entities keys given) {handle : Handle} (known : given handle)
    (withdrawn : Withdrawn simulation handle after) :
    ∃ others, after.Booked entities others given ∧
      after.Backs requests others (simulation.withdraw handle ledger) := by
  have waiting : (ledger.map (Deposit.withdraw handle.key.uid)).filterMap Deposit.waiting? =
      requests.map fun request => .user request.callback := by
    rw [Deposit.filterMap_map_same (Deposit.withdraw_waiting? _)]
    exact backs.waiting
  cases withdrawn with
  | unregistered destroy =>
      have same : simulation.withdraw handle ledger = ledger := by
        unfold withdraw
        rw [destroy]
      rw [same]
      exact ⟨keys, booked.of_same rfl rfl rfl rfl rfl, backs.of_same rfl (Nat.le_refl _) id⟩
  | ignored expired =>
      rw [withdraw_expired expired]
      exact ⟨keys, booked, backs⟩
  | removed queued queue event unscheduled erased live one =>
      rw [withdraw_live queued live]
      refine ⟨_, booked.removed known queued erased live one,
        backs.changed (Deposit.withdraw_lessens _) rfl rfl waiting ?_ ?_⟩
      · intro callback key member
        obtain ⟨deposit, present, same⟩ := List.mem_map.mp member
        obtain ⟨rfl, apart⟩ := Deposit.withdraw_eq_queued.mp same
        obtain ⟨held, found⟩ := backs.queued callback key present
        refine ⟨(List.mem_erase_of_ne fun tied => apart (congrArg _ tied)).mpr held, ?_⟩
        rw [Slots.find?_erase, if_neg apart]
        exact found
      · intro key member callback found
        rw [Slots.find?_erase] at found
        split at found
        · cases found
        · rename_i apart
          exact List.mem_map.mpr ⟨_, backs.armed key (List.mem_of_mem_erase member) callback found,
            Deposit.withdraw_eq_queued.mpr ⟨rfl, apart⟩⟩
  | cancelled queued live =>
      rw [withdraw_live queued live]
      refine ⟨keys, booked.cancelled known queued live,
        backs.changed (Deposit.withdraw_lessens _) rfl rfl waiting ?_ ?_⟩
      · intro callback key member
        obtain ⟨deposit, present, same⟩ := List.mem_map.mp member
        obtain ⟨rfl, apart⟩ := Deposit.withdraw_eq_queued.mp same
        obtain ⟨held, found⟩ := backs.queued callback key present
        refine ⟨held, ?_⟩
        rw [Slots.find?_insert, if_neg apart]
        exact found
      · intro key member callback found
        rw [Slots.find?_insert] at found
        split at found
        · cases found
        · rename_i apart
          exact List.mem_map.mpr ⟨_, backs.armed key member callback found,
            Deposit.withdraw_eq_queued.mpr ⟨rfl, apart⟩⟩

theorem disposed (backs : simulation.Backs requests keys ledger) :
    simulation.dispose.Backs [] [] (ledger.map Deposit.dispose) := by
  refine backs.changed Deposit.dispose_lessens rfl rfl ?_ ?_
    (fun key impossible => absurd impossible List.not_mem_nil)
  · rw [List.filterMap_map]
    exact List.filterMap_eq_nil_iff.mpr fun deposit _ => Deposit.dispose_waiting? deposit
  · intro callback key member
    obtain ⟨deposit, _, same⟩ := List.mem_map.mp member
    have final := Deposit.dispose_final deposit
    rw [same] at final
    cases final

/-! ### The next event -/

/-- An event that begins had its callback queued, and takes it along. -/
theorem entered (backs : simulation.Backs requests keys ledger)
    (booked : simulation.Booked entities keys given) {dequeued : Dequeued β}
    (taken : Taken simulation dequeued after) :
    ∃ others, after.Booked entities others given ∧
      (∀ key callback, dequeued = .invoke key callback → ⟨callback, .queued key⟩ ∈ ledger) ∧
      after.Backs requests others (dequeued.record ledger) := by
  cases taken with
  | nothing queue popped =>
      exact ⟨keys, (booked.starved popped).2, fun _ _ impossible => (nomatch impossible),
        backs.of_same rfl (Nat.le_refl _) id⟩
  | entered queue event unscheduled advanced slot popped one moved found =>
      obtain ⟨member, left⟩ := booked.entered popped one moved
      obtain ⟨globalClock, localClocks, rfl⟩ := advanceClock_eq_ok moved
      refine ⟨_, left, ?_⟩
      cases slot with
      | cancelled =>
          refine ⟨fun _ _ impossible => (nomatch impossible),
            backs.waiting, ?_, ?_, backs.distinct, backs.numbered, backs.refusals⟩
          · intro callback key present
            obtain ⟨held, armed⟩ := backs.queued callback key present
            have apart : key.uid ≠ event.key.uid := by
              intro tied
              rw [tied, found] at armed
              cases armed
            refine ⟨(List.mem_erase_of_ne fun tied => apart (congrArg _ tied)).mpr held, ?_⟩
            rw [Slots.find?_erase, if_neg apart]
            exact armed
          · intro key present callback armed
            rw [Slots.find?_erase] at armed
            split at armed
            · cases armed
            · exact backs.armed key (List.mem_of_mem_erase present) callback armed
      | armed callback =>
          have queued := backs.armed event.key member callback found
          refine ⟨fun key other same => by cases same; exact queued,
            backs.changed (Deposit.invoke_lessens _) rfl rfl ?_ ?_ ?_⟩
          · rw [Deposit.filterMap_map_same (Deposit.invoke_waiting? _)]
            exact backs.waiting
          · intro other key present
            obtain ⟨deposit, here, invoked⟩ := List.mem_map.mp present
            obtain ⟨rfl, apart⟩ := Deposit.invoke_eq_queued.mp invoked
            obtain ⟨held, armed⟩ := backs.queued other key here
            refine ⟨(List.mem_erase_of_ne apart).mpr held, ?_⟩
            rw [Slots.find?_erase, if_neg fun tied => apart
              (eq_of_nodup_map booked.distinct held member tied)]
            exact armed
          · intro key present other armed
            rw [Slots.find?_erase] at armed
            split at armed
            · cases armed
            · rename_i apart
              exact List.mem_map.mpr ⟨_,
                backs.armed key (List.mem_of_mem_erase present) other armed,
                Deposit.invoke_eq_queued.mpr ⟨rfl, fun tied => apart (congrArg _ tied)⟩⟩

/-! ### Another event -/

section

variable {callback : Callback β} {nextUid : EventUid} {front back : List (Deposit β)}

private theorem ne_next (fresh : simulation.nextUid ∉ keys.map EventKey.uid) {key : EventKey}
    (held : key ∈ keys) : key.uid ≠ simulation.nextUid := by
  intro tied
  rw [← tied] at fresh
  exact fresh (List.mem_map_of_mem held)

/-- The callback of an event that the queue has accepted. -/
theorem filed (backs : simulation.Backs requests keys (front ++ back)) {key : EventKey}
    (named : key.uid = simulation.nextUid) (fresh : simulation.nextUid ∉ keys.map EventKey.uid)
    (following : simulation.nextUid.value.toNat + 1 = nextUid.value.toNat)
    (numbers : after.nextUid = nextUid) (terminated : after.terminated = simulation.terminated)
    (slots : after.slots = simulation.slots.insert simulation.nextUid (.armed callback)) :
    after.Backs requests (key :: keys) (front ++ ⟨callback, .queued key⟩ :: back) where
  waiting := by
    rw [Deposit.filterMap_middle_none rfl]
    exact backs.waiting
  queued := by
    intro other candidate member
    rcases Deposit.mem_middle.mp member with new | before
    · cases new
      refine ⟨List.mem_cons_self, ?_⟩
      rw [slots, Slots.find?_insert, if_pos named]
    · obtain ⟨held, armed⟩ := backs.queued other candidate before
      refine ⟨List.mem_cons_of_mem _ held, ?_⟩
      rw [slots, Slots.find?_insert, if_neg (ne_next fresh held)]
      exact armed
  armed := by
    intro candidate member other armed
    rw [slots, Slots.find?_insert] at armed
    rcases List.mem_cons.mp member with new | held
    · rw [new, if_pos named] at armed
      cases armed
      exact Deposit.mem_middle.mpr (Or.inl (by rw [new]))
    · rw [if_neg (ne_next fresh held)] at armed
      exact Deposit.mem_middle.mpr (Or.inr (backs.armed candidate held other armed))
  distinct := by
    rw [(Deposit.keys_middle.map EventKey.uid).nodup_iff, List.map_cons, List.nodup_cons, named]
    refine ⟨fun listed => ?_, backs.distinct⟩
    obtain ⟨other, member, tied⟩ := List.mem_map.mp listed
    have below := backs.numbered other member
    rw [tied] at below
    exact Nat.lt_irrefl _ below
  numbered := by
    intro candidate member
    rw [numbers]
    rcases List.mem_cons.mp (Deposit.keys_middle.mem_iff.mp member) with new | before
    · rw [new, named]
      omega
    · have below := backs.numbered candidate before
      omega
  refusals := by
    intro deposit member refused
    rw [terminated]
    rcases Deposit.mem_middle.mp member with new | before
    · rw [new] at refused
      cases refused
    · exact backs.refusals deposit before refused

/-- The callback of an event that exploration has refused. -/
theorem turnedAway (backs : simulation.Backs requests keys (front ++ back))
    (following : simulation.nextUid.value.toNat + 1 = nextUid.value.toNat)
    (numbers : after.nextUid = nextUid) (terminated : after.terminated ≠ none)
    (slots : after.slots = simulation.slots) :
    after.Backs requests keys (front ++ ⟨callback, .refused⟩ :: back) where
  waiting := by
    rw [Deposit.filterMap_middle_none rfl]
    exact backs.waiting
  queued := by
    intro other key member
    rcases Deposit.mem_middle.mp member with new | before
    · cases new
    · rw [slots]
      exact backs.queued other key before
  armed := by
    intro key member other armed
    rw [slots] at armed
    exact Deposit.mem_middle.mpr (Or.inr (backs.armed key member other armed))
  distinct := by
    rw [Deposit.filterMap_middle_none rfl]
    exact backs.distinct
  numbered := by
    intro key member
    rw [Deposit.filterMap_middle_none rfl] at member
    have below := backs.numbered key member
    rw [numbers]
    omega
  refusals := fun _ _ _ => terminated

private theorem drawn {request : RemoteRequest β}
    (backs : simulation.Backs (request :: requests) keys
      (front ++ ⟨callback, .waiting⟩ :: back))
    (passed : ∀ deposit ∈ front, deposit.fate ≠ .waiting)
    (rest : back.filterMap Deposit.waiting? =
      requests.map fun request => .user request.callback) :
    simulation.Backs requests keys (front ++ back) where
  waiting := by
    have nothing : front.filterMap Deposit.waiting? = [] := List.filterMap_eq_nil_iff.mpr
      fun deposit member => Deposit.waiting?_eq_none.mpr (passed deposit member)
    rw [List.filterMap_append, nothing, List.nil_append, rest]
  queued := fun other key member => backs.queued other key (Deposit.mem_middle.mpr (Or.inr member))
  armed := fun key member other armed =>
    (Deposit.mem_middle.mp (backs.armed key member other armed)).resolve_left
      fun impossible => nomatch impossible
  distinct := by
    have distinct := backs.distinct
    rwa [Deposit.filterMap_middle_none rfl] at distinct
  numbered := by
    have numbered := backs.numbered
    rwa [Deposit.filterMap_middle_none rfl] at numbered
  refusals := fun deposit member => backs.refusals deposit (Deposit.mem_middle.mpr (Or.inr member))

variable [Hook σ] {event : Event} {handle : Handle}

/-- A callback enters the ledger at any place, as queued or as refused. What became of earlier
numbers is not touched. -/
theorem enqueued (backs : simulation.Backs requests keys (front ++ back))
    (booked : simulation.Booked entities keys given)
    (owner : event.key.context.Known entities) (cause : event.prevContext.Known entities)
    (numbered : event.key.uid = simulation.nextUid)
    (following : simulation.nextUid.value.toNat + 1 = nextUid.value.toNat)
    (enqueued : Enqueued { simulation with nextUid } event callback handle after) :
    ∃ others, after.Booked entities others (fun other => given other ∨ other = handle) ∧
      after.Backs requests others
        (front ++ ⟨callback, after.fateOf simulation.nextUid⟩ :: back) ∧
      after.nextUid = nextUid ∧
      (∀ uid, uid.value.toNat < simulation.nextUid.value.toNat →
        after.fateOf uid = simulation.fateOf uid) ∧
      (after.fateOf simulation.nextUid = .queued handle.key ∨
        after.fateOf simulation.nextUid = .refused) := by
  cases enqueued with
  | queued queue key inserted =>
      have kept : Booked { simulation with
          nextUid, queue
          slots := simulation.slots.insert event.key.uid (.armed callback)
          unscheduled := simulation.unscheduled + 1 } entities (key :: keys)
            (fun other => given other ∨ other = Handle.ofEvent key event.kind) :=
        booked.queued owner cause numbered following inserted
      obtain ⟨named, _, _⟩ :=
        booked.holds.accepted owner cause (numbered ▸ booked.fresh) inserted
      rw [numbered] at named
      have fate := kept.fateOf_held List.mem_cons_self
      rw [named] at fate
      refine ⟨_, kept, ?_, rfl, fun uid below => booked.fateOf_same kept fun other same => ?_,
        Or.inl fate⟩
      · rw [fate]
        exact backs.filed named booked.fresh following rfl rfl (by rw [numbered])
      · rw [List.mem_cons, or_iff_right]
        rintro rfl
        rw [← same, named] at below
        exact Nat.lt_irrefl _ below
  | refused queue ended inserted =>
      have kept := booked.refused numbered following inserted
      have fate := kept.fateOf_absent booked.fresh
      refine ⟨keys, kept, ?_, rfl, fun uid below => booked.fateOf_same kept fun _ _ => Iff.rfl,
        Or.inr fate⟩
      rw [fate]
      exact backs.turnedAway following rfl (fun impossible => nomatch impossible) rfl

theorem schedule (backs : simulation.Backs requests keys ledger)
    (booked : simulation.Booked entities keys given) {plan : Plan}
    (scheduled : simulation.schedule plan callback = .ok (handle, after)) :
    ∃ others, after.Booked entities others (fun other => given other ∨ other = handle) ∧
      after.Backs requests others
        (ledger ++ [⟨callback, after.fateOf simulation.nextUid⟩]) ∧
      (after.fateOf simulation.nextUid = .queued handle.key ∨
        after.fateOf simulation.nextUid = .refused) := by
  obtain ⟨base, ts, nextUid, owner, atBase, stamped, atOwner, following, entered⟩ :=
    schedule_eq_ok scheduled
  have atEnd : simulation.Backs requests keys (ledger ++ []) := by rwa [List.append_nil]
  obtain ⟨others, kept, filed, _, _, fate⟩ := atEnd.enqueued booked
    (booked.clocks ▸ known_of_clock atOwner) (booked.clocks ▸ known_of_clock atBase) rfl following
    entered
  exact ⟨others, kept, filed, fate⟩

private theorem merge {request : RemoteRequest β}
    (backs : simulation.Backs (request :: requests) keys ledger)
    (booked : simulation.Booked entities keys given)
    (merged : simulation.merge request = .ok after) :
    ∃ others front back, after.Booked entities others given ∧
      ledger = front ++ ⟨.user request.callback, .waiting⟩ :: back ∧
      (∀ deposit ∈ front, deposit.fate ≠ .waiting) ∧
      after.Backs requests others
        (front ++ ⟨.user request.callback, after.fateOf simulation.nextUid⟩ :: back) ∧
      simulation.nextUid.value.toNat + 1 = after.nextUid.value.toNat ∧
      ∀ uid, uid.value.toNat < simulation.nextUid.value.toNat →
        after.fateOf uid = simulation.fateOf uid := by
  obtain ⟨ts, nextUid, owner, handle, stamped, atOwner, following, entered⟩ := merge_eq_ok merged
  obtain ⟨front, back, rfl, passed, rest⟩ := Deposit.first_waiting backs.waiting
  have known := booked.clocks ▸ known_of_clock atOwner
  obtain ⟨others, kept, filed, numbers, earlier, _⟩ :=
    (backs.drawn passed rest).enqueued booked known known rfl following entered
  refine ⟨others, front, back, kept.weaken fun _ => Or.inl, rfl, passed, filed, ?_, earlier⟩
  rw [numbers]
  exact following

theorem mergeAll (booked : simulation.Booked entities keys given)
    (backs : simulation.Backs requests keys ledger)
    (merged : simulation.mergeAll requests = .ok after) :
    (∃ others, after.Booked entities others given ∧ after.Backs [] others
      (Deposit.mergeAll after.fateOf simulation.nextUid ledger)) ∧
    ∀ uid, uid.value.toNat < simulation.nextUid.value.toNat →
      after.fateOf uid = simulation.fateOf uid := by
  induction requests generalizing simulation keys ledger with
  | nil =>
      cases merged
      rw [Deposit.mergeAll_nothing _ _ backs.waiting]
      exact ⟨⟨keys, booked, backs⟩, fun _ _ => rfl⟩
  | cons request rest ih =>
      obtain ⟨next, first, remaining⟩ := bind_eq_ok merged
      obtain ⟨others, front, back, kept, rfl, passed, filed, following, earlier⟩ :=
        backs.merge booked first
      obtain ⟨last, later⟩ := ih kept filed remaining
      have above : simulation.nextUid.value.toNat < next.nextUid.value.toNat := by omega
      rw [Deposit.mergeAll_first _ _ passed (fateOf_taken _ _), later _ above,
        ← EventUid.eq_of_following following]
      exact ⟨last, fun uid below =>
        (later uid (Nat.lt_trans below above)).trans (earlier uid below)⟩

end

end Backs

end Simulation

end EventKernel
