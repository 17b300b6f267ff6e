import EventKernel.Proofs.LaneChart

set_option autoImplicit false

/-! What speaks for and against taking the front of a lane. A front is safe when no front
elsewhere and no message on its way could still come before it; it is blocked when it is a
message whose sender lacks credit. Both are decided without a fault. The lane of the least
event is safe, as long as nothing is listed but messages that are held. -/

namespace EventKernel.Queue.LaneQueue

variable {queue : LaneQueue} {entities : Nat}

/-- The event at the front of a lane. -/
def FrontAt (queue : LaneQueue) (lane : Nat) (event : Event) : Prop :=
  ∃ (list : BarrierList) (entry : Entry), queue.lanes[lane]? = some list ∧
    list.front? = some entry ∧ entry.event = event

/-- A key may run before anything the front of another lane could still cause. -/
def Allows (queue : LaneQueue) (lane : Nat) (key : EventKey) (other : Nat)
    (front : EventKey) : Prop :=
  ∃ latency, queue.laneLatency lane other = .ok latency ∧
    precedesShifted queue.boundary key front latency = true

/-- Nothing held elsewhere could still come before a key of the lane. -/
structure SafeAt (queue : LaneQueue) (lane : Nat) (key : EventKey) : Prop where
  fronts : ∀ other rival, other ≠ lane → queue.FrontAt other rival →
    queue.Allows lane key other rival.key
  inbound : ∀ index, queue.outbound[lane]? = some index → ∀ parcel ∈ index.parcels,
    key.rank < parcel.1.rank

/-- A message whose sender lacks credit. -/
def Blocked (queue : LaneQueue) (lane : Nat) (front : Event) : Prop :=
  queue.isCrossing front = true ∧
    ∃ table, queue.credits = some table ∧ table.maySend (lane - 1) = .ok false

theorem FrontAt.mem {lane : Nat} {event : Event} (atFront : queue.FrontAt lane event) :
    event ∈ queue.events := by
  obtain ⟨list, entry, found, first, same⟩ := atFront
  rw [← same]
  exact mem_events.mpr ⟨lane, list, found, BarrierList.front_mem_events first⟩

theorem FrontAt.unique {lane : Nat} {left right : Event} (atLeft : queue.FrontAt lane left)
    (atRight : queue.FrontAt lane right) : left = right := by
  obtain ⟨leftList, leftEntry, leftFound, leftFirst, leftSame⟩ := atLeft
  obtain ⟨rightList, rightEntry, rightFound, rightFirst, rightSame⟩ := atRight
  rw [leftFound] at rightFound
  cases rightFound
  rw [leftFirst] at rightFirst
  cases rightFirst
  rw [← leftSame, rightSame]

namespace Charted

theorem front_of_home (charted : queue.Charted) {event : Event} (member : event ∈ queue.events) :
    ∃ front, queue.FrontAt (queue.homeLane event) front ∧
      front.key.rank ≤ event.key.rank := by
  obtain ⟨list, found, held⟩ := charted.home_lane member
  cases first : list.front? with
  | none =>
      rw [BarrierList.front?_eq_none_iff.mp first] at held
      cases held
  | some entry =>
      exact ⟨entry.event, ⟨list, entry, found, first, rfl⟩,
        (charted.list_sound found).front_least first event held⟩

theorem front_home (charted : queue.Charted) {lane : Nat} {event : Event}
    (atFront : queue.FrontAt lane event) : queue.homeLane event = lane := by
  obtain ⟨list, entry, found, first, same⟩ := atFront
  rw [← same]
  exact charted.housed lane list found entry.event (BarrierList.front_mem_events first)

private theorem front_le (charted : queue.Charted) {event front : Event}
    (member : event ∈ queue.events) (atFront : queue.FrontAt (queue.homeLane event) front) :
    front.key.rank ≤ event.key.rank := by
  obtain ⟨first, atFirst, ordered⟩ := charted.front_of_home member
  rw [← atFirst.unique atFront]
  exact ordered

end Charted

theorem Sound.front_home (sound : queue.Sound entities) {lane : Nat} {event : Event}
    (atFront : queue.FrontAt lane event) : queue.homeLane event = lane :=
  sound.charted.front_home atFront

theorem Sound.front_le (sound : queue.Sound entities) {event front : Event}
    (member : event ∈ queue.events) (atFront : queue.FrontAt (queue.homeLane event) front) :
    front.key.rank ≤ event.key.rank :=
  sound.charted.front_le member atFront

theorem Equipped.laneLatency (equipped : queue.Equipped entities) {lane other : Nat}
    (laneKnown : lane ≤ entities) (otherKnown : other ≤ entities) :
    ∃ latency, queue.laneLatency lane other = .ok latency := by
  unfold LaneQueue.laneLatency
  by_cases simulation : lane = 0 ∨ other = 0
  · exact ⟨0, if_pos simulation⟩
  · rw [if_neg simulation]
    exact equipped.latencies _ _ (by omega) (by omega)

private theorem frontsAllow_spec (equipped : queue.Equipped entities) (lane : Nat)
    (laneKnown : lane ≤ entities) (key : EventKey) (other : Nat) (lists : List BarrierList)
    (known : other + lists.length ≤ entities + 1) :
    ∃ answer, queue.frontsAllow lane key other lists = .ok answer ∧
      (answer = true ↔ ∀ index (list : BarrierList) (entry : Entry), other + index ≠ lane →
        lists[index]? = some list → list.front? = some entry →
        queue.Allows lane key (other + index) entry.event.key) := by
  induction lists generalizing other with
  | nil =>
      refine ⟨true, rfl, fun _ index list entry _ found => ?_, fun _ => rfl⟩
      cases found
  | cons first rest ih =>
      rw [List.length_cons] at known
      obtain ⟨answer, restAllow, exactly⟩ := ih (other + 1) (by omega)
      -- Of the lists from `other` on, all but the first are covered by the rest.
      have shifted : (∀ index (list : BarrierList) (entry : Entry), other + 1 + index ≠ lane →
          rest[index]? = some list → list.front? = some entry →
          queue.Allows lane key (other + 1 + index) entry.event.key) ↔
          ∀ index (list : BarrierList) (entry : Entry), other + (index + 1) ≠ lane →
            (first :: rest)[index + 1]? = some list → list.front? = some entry →
            queue.Allows lane key (other + (index + 1)) entry.event.key := by
        simp only [List.getElem?_cons_succ, Nat.add_assoc, Nat.add_comm 1]
      unfold frontsAllow
      by_cases own : other = lane
      · rw [if_pos own]
        refine ⟨answer, restAllow, exactly.trans (shifted.trans ⟨fun all => ?_, fun all => ?_⟩)⟩
        · intro index list entry different found front
          cases index with
          | zero => exact absurd own different
          | succ index => exact all index list entry different found front
        · exact fun index => all (index + 1)
      · rw [if_neg own]
        cases front : first.front? with
        | none =>
            have noKey : first.next? = none := by
              unfold BarrierList.next?
              rw [front]
              rfl
            rw [noKey]
            refine ⟨answer, restAllow,
              exactly.trans (shifted.trans ⟨fun all => ?_, fun all => ?_⟩)⟩
            · intro index list entry different found atFront
              cases index with
              | zero =>
                  cases found
                  rw [front] at atFront
                  cases atFront
              | succ index => exact all index list entry different found atFront
            · exact fun index => all (index + 1)
        | some entry =>
            have key_ : first.next? = some entry.event.key := by
              unfold BarrierList.next?
              rw [front]
              rfl
            obtain ⟨latency, read⟩ := equipped.laneLatency laneKnown
              (show other ≤ entities by omega)
            rw [key_]
            simp only [read, bind, Except.bind]
            by_cases allowed : precedesShifted queue.boundary key entry.event.key latency = true
            · rw [if_pos allowed]
              refine ⟨answer, restAllow,
                exactly.trans (shifted.trans ⟨fun all => ?_, fun all => ?_⟩)⟩
              · intro index list rival different found atFront
                cases index with
                | zero =>
                    cases found
                    rw [front] at atFront
                    cases atFront
                    exact ⟨latency, read, allowed⟩
                | succ index => exact all index list rival different found atFront
              · exact fun index => all (index + 1)
            · rw [if_neg allowed]
              refine ⟨false, rfl, (fun impossible => nomatch impossible), fun all => ?_⟩
              obtain ⟨held, heldRead, heldAllowed⟩ := all 0 first entry own rfl front
              change queue.laneLatency lane other = .ok held at heldRead
              rw [read] at heldRead
              cases heldRead
              exact absurd heldAllowed allowed

theorem Equipped.isSafe_spec (equipped : queue.Equipped entities) {lane : Nat}
    (laneKnown : lane ≤ entities)
    (inOrder : ∀ index, queue.outbound[lane]? = some index → index.Ordered) (key : EventKey) :
    ∃ answer, queue.isSafe lane key = .ok answer ∧ (answer = true ↔ queue.SafeAt lane key) := by
  obtain ⟨allow, allowed, allowedIff⟩ := frontsAllow_spec equipped lane laneKnown key 0
    queue.lanes (by rw [equipped.laneCount]; omega)
  have within : lane < queue.outbound.length := by rw [equipped.indexCount]; omega
  have atLane := List.getElem?_eq_getElem within
  have ordered := inOrder _ atLane
  have inbound : ∃ answer, queue.inboundAllows lane key = .ok answer ∧
      (answer = true ↔ ∀ parcel ∈ queue.outbound[lane].parcels, key.rank < parcel.1.rank) := by
    unfold inboundAllows
    rw [atLane]
    simp only
    cases first : queue.outbound[lane].first? with
    | none =>
        have none := List.head?_eq_none_iff.mp (Option.map_eq_none_iff.mp first)
        rw [none]
        exact ⟨true, rfl, fun _ => List.forall_mem_nil _, fun _ => rfl⟩
    | some least =>
        refine ⟨_, rfl, ?_⟩
        rw [decide_eq_true_iff, EventKey.precedes_iff_rank_lt]
        constructor
        · exact fun less parcel member =>
            Nat.lt_of_lt_of_le less (ordered.first_least first parcel member)
        · intro all
          obtain ⟨parcel, head, same⟩ := Option.map_eq_some_iff.mp first
          rw [← same]
          exact all parcel (List.mem_of_mem_head? head)
  obtain ⟨arriving, arrives, arrivesIff⟩ := inbound
  refine ⟨allow && arriving, ?_, ?_⟩
  · unfold isSafe
    rw [allowed, arrives]
    rfl
  · rw [Bool.and_eq_true, allowedIff, arrivesIff]
    constructor
    · rintro ⟨fronts, parcels⟩
      refine ⟨?_, ?_⟩
      · rintro other rival different ⟨list, entry, found, front, same⟩
        rw [← same]
        have allows := fronts other list entry (by omega) found front
        rw [Nat.zero_add] at allows
        exact allows
      · intro index found
        rw [atLane] at found
        cases found
        exact parcels
    · rintro ⟨fronts, parcels⟩
      refine ⟨?_, parcels _ atLane⟩
      intro index list entry different found front
      rw [Nat.zero_add] at different ⊢
      exact fronts index entry.event different ⟨list, entry, found, front, rfl⟩

theorem Charted.isBlocked_spec (charted : queue.Charted) (equipped : queue.Equipped entities)
    {lane : Nat} {front : Event} (atFront : queue.FrontAt lane front) :
    ∃ answer, queue.isBlocked lane front = .ok answer ∧
      (answer = true ↔ queue.Blocked lane front) := by
  unfold isBlocked Blocked
  cases credited : queue.credits with
  | none =>
      refine ⟨false, rfl, (fun impossible => nomatch impossible), ?_⟩
      rintro ⟨_, table, impossible, _⟩
      cases impossible
  | some table =>
      simp only
      cases crossing : queue.isCrossing front with
      | false => exact ⟨false, rfl, (fun impossible => nomatch impossible),
          fun impossible => nomatch impossible.1⟩
      | true =>
          have home := charted.front_home atFront
          rw [homeLane_of_crossing crossing] at home
          have sender := (isCrossing_iff.mp crossing).2.2.1
          have ⟨_, _, found, _⟩ := atFront
          have known := equipped.lane_le found
          obtain ⟨may, asked⟩ :=
            (equipped.credited table credited).maySend (lane - 1) (by omega)
          refine ⟨!may, ?_, ?_⟩
          · rw [if_pos rfl, asked]
            rfl
          · rw [Bool.not_eq_true']
            constructor
            · intro refused
              rw [refused] at asked
              exact ⟨rfl, table, rfl, asked⟩
            · rintro ⟨_, held, same, refused⟩
              cases same
              rw [asked] at refused
              exact Except.ok.inj refused

/-- A later instant never speaks against what comes before already. -/
theorem precedesShifted_of_rank_lt {boundary : Boundary} {front other : EventKey}
    (earlier : front.rank < other.rank) (latency : UInt64) :
    precedesShifted boundary front other latency = true := by
  have shifted : other.ts.value.toNat ≤ (other.ts.saturatingAdd latency).value.toNat := by
    unfold Timestamp.saturatingAdd
    rw [Word.toNat_saturatingAdd]
    have bounded := other.ts.value.toNat_lt
    unfold UInt64.size
    omega
  have instants := EventKey.ts_le_of_rank_le (Nat.le_of_lt earlier)
  unfold precedesShifted
  cases boundary with
  | sequenced =>
      rw [decide_eq_true_iff]
      rcases EventKey.precedes_iff_rank_lt.mpr earlier with before | ⟨same, smaller⟩
      · left
        rw [Timestamp.lt_iff_toNat] at before ⊢
        exact Nat.lt_of_lt_of_le before shifted
      · rcases Nat.lt_or_eq_of_le shifted with later | unmoved
        · left
          rw [Timestamp.lt_iff_toNat, same]
          exact later
        · right
          refine ⟨?_, smaller⟩
          rw [same]
          exact congrArg Timestamp.mk (UInt64.toNat_inj.mp unmoved)
  | inclusive =>
      simp only
      split
      · rw [decide_eq_true_iff]
        exact EventKey.precedes_iff_rank_lt.mpr earlier
      · rw [decide_eq_true_iff, Timestamp.le_iff_toNat]
        exact Nat.le_trans instants shifted

/-- An allowed key lies at most the latency after the front that allows it. -/
theorem ts_le_of_precedesShifted {boundary : Boundary} {front other : EventKey}
    {latency : UInt64} (allowed : precedesShifted boundary front other latency = true) :
    front.ts.value.toNat ≤ other.ts.value.toNat + latency.toNat := by
  have shifted : (other.ts.saturatingAdd latency).value.toNat ≤
      other.ts.value.toNat + latency.toNat := by
    unfold Timestamp.saturatingAdd
    rw [Word.toNat_saturatingAdd]
    exact Nat.min_le_left _ _
  have bounded : front.ts.value.toNat ≤ (other.ts.saturatingAdd latency).value.toNat := by
    unfold precedesShifted at allowed
    cases boundary with
    | sequenced =>
        exact EventKey.ts_le_of_rank_le
          (Nat.le_of_lt (EventKey.precedes_iff_rank_lt.mp (of_decide_eq_true allowed)))
    | inclusive =>
        simp only at allowed
        split at allowed
        · rename_i none
          have ordered := EventKey.ts_le_of_rank_le
            (Nat.le_of_lt (EventKey.precedes_iff_rank_lt.mp (of_decide_eq_true allowed)))
          unfold Timestamp.saturatingAdd
          rw [Word.toNat_saturatingAdd]
          have inRange := other.ts.value.toNat_lt
          unfold UInt64.size
          omega
        · exact Timestamp.le_iff_toNat.mp (of_decide_eq_true allowed)
  exact Nat.le_trans bounded shifted

/-- A key within a latency that is not zero is allowed, if it was numbered before. -/
theorem precedesShifted_of_ts_le {boundary : Boundary} {front other : EventKey}
    {latency : UInt64}
    (within : front.ts.value.toNat ≤ other.ts.value.toNat + latency.toNat)
    (older : front.uid < other.uid) (positive : latency ≠ 0) :
    precedesShifted boundary front other latency = true := by
  have bounded : front.ts.value.toNat ≤ (other.ts.saturatingAdd latency).value.toNat := by
    have inRange := front.ts.value.toNat_lt
    unfold Timestamp.saturatingAdd
    rw [Word.toNat_saturatingAdd]
    unfold UInt64.size
    omega
  unfold precedesShifted
  cases boundary with
  | sequenced =>
      rw [decide_eq_true_iff]
      rcases Nat.lt_or_eq_of_le bounded with earlier | same
      · left
        exact Timestamp.lt_iff_toNat.mpr earlier
      · right
        exact ⟨congrArg Timestamp.mk (UInt64.toNat_inj.mp same), older⟩
  | inclusive =>
      simp only [if_neg positive]
      rw [decide_eq_true_iff]
      exact Timestamp.le_iff_toNat.mpr bounded

private theorem Charted.least_before (charted : queue.Charted) {least : Event}
    (leastOf : least.LeastOf queue.events) :
    ∀ other ∈ queue.events, other ≠ least → least.key.rank < other.key.rank := by
  intro other member different
  apply Nat.lt_of_le_of_ne (leastOf.below other member)
  exact EventKey.rank_ne_of_uid_ne fun same =>
    different (charted.eq_of_uid leastOf.member member same).symm

theorem Charted.least_front (charted : queue.Charted) {least : Event}
    (leastOf : least.LeastOf queue.events) : queue.FrontAt (queue.homeLane least) least := by
  obtain ⟨front, atFront, ordered⟩ := charted.front_of_home leastOf.member
  by_cases same : front = least
  · exact same ▸ atFront
  · have := charted.least_before leastOf front atFront.mem same
    omega

private theorem Charted.fronts_allow_least (charted : queue.Charted)
    (equipped : queue.Equipped entities)
    {least : Event} (leastOf : least.LeastOf queue.events) {other : Nat} {rival : Event}
    (different : other ≠ queue.homeLane least) (atFront : queue.FrontAt other rival) :
    queue.Allows (queue.homeLane least) least.key other rival.key := by
  have ⟨_, _, found, _⟩ := charted.least_front leastOf
  have ⟨_, _, rivalFound, _⟩ := atFront
  obtain ⟨latency, read⟩ := equipped.laneLatency (equipped.lane_le found)
    (equipped.lane_le rivalFound)
  refine ⟨latency, read,
    precedesShifted_of_rank_lt (charted.least_before leastOf rival atFront.mem ?_) latency⟩
  intro same
  exact different (by rw [← charted.front_home atFront, same])

/-- The least event stands at the front of its lane. Nothing speaks against it, as long as nothing
is listed but messages that are held. -/
theorem Charted.least_safe (charted : queue.Charted) (equipped : queue.Equipped entities)
    (tracks : queue.Tracks []) {least : Event} (leastOf : least.LeastOf queue.events) :
    queue.FrontAt (queue.homeLane least) least ∧
      queue.SafeAt (queue.homeLane least) least.key := by
  refine ⟨charted.least_front leastOf, fun other rival different atFront =>
    charted.fronts_allow_least equipped leastOf different atFront, ?_⟩
  intro index atLane parcel member
  obtain ⟨message, present, crossing, named⟩ :=
    (tracks _ index atLane parcel member).resolve_left List.not_mem_nil
  have dest := (charted.entered.ordered _ index atLane).2 parcel member
  rw [← named] at dest ⊢
  apply charted.least_before leastOf message present
  -- A message never waits in the lane of its destination.
  intro same
  rw [same, homeLane_of_crossing (same ▸ crossing)] at dest
  exact (isCrossing_iff.mp (same ▸ crossing)).2.2.2.2 (laneOf_injective dest.symm)

theorem Sound.least_safe (sound : queue.Sound entities) {least : Event}
    (leastOf : least.LeastOf queue.events) :
    queue.FrontAt (queue.homeLane least) least ∧
      queue.SafeAt (queue.homeLane least) least.key :=
  sound.charted.least_safe sound.toEquipped sound.tracks leastOf

end EventKernel.Queue.LaneQueue
