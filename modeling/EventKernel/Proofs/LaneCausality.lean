import EventKernel.Proofs.LaneSettling
import EventKernel.Proofs.ShortestDelays

set_option autoImplicit false

/-! How far the front of a settled queue may lie ahead. The latencies bound it by the fronts
of the other lanes. A message counts for the entity it waits with, although it takes effect
where it is going, and a front may go ahead of it while its sender waits for credit. So the
bound holds for every event and its owner if the entities that wait for credit are the nearest
to all that they reach. -/

namespace EventKernel.Queue

namespace LatencyMatrix

/-- Latencies of a way through a third entity add up to a latency that is reached, unless
one of them is not. -/
def Composes (matrix : LatencyMatrix) (entities : Nat) : Prop :=
  ∀ source middle target, source < entities → middle < entities → target < entities →
    matrix.between source middle ≠ unreachable.toNat →
    matrix.between middle target ≠ unreachable.toNat →
      matrix.between source middle + matrix.between middle target < unreachable.toNat

/-- To each entity that it reaches by way of another, an entity is the nearer of the two. -/
def Nearest (matrix : LatencyMatrix) (entities waiting : Nat) : Prop :=
  ∀ source other, source < entities → other < entities → source ≠ waiting →
    other ≠ waiting → other ≠ source →
    matrix.between waiting other + matrix.between other source < unreachable.toNat →
      matrix.between source waiting ≤ matrix.between source other

variable {matrix : LatencyMatrix} {entities : Nat}

private theorem Metric.joins (metric : matrix.Metric entities) (composes : matrix.Composes entities)
    {source middle target : Nat} (sourceKnown : source < entities) (middleKnown : middle < entities)
    (targetKnown : target < entities)
    (former : matrix.between source middle ≠ unreachable.toNat)
    (latter : matrix.between middle target ≠ unreachable.toNat) :
    matrix.between source target ≠ unreachable.toNat := by
  have whole := metric.detour source middle target sourceKnown middleKnown targetKnown
  have sum := composes source middle target sourceKnown middleKnown targetKnown former latter
  omega

end LatencyMatrix

private theorem ts_le_unreachable (key : EventKey) : key.ts.value.toNat ≤ unreachable.toNat := by
  have largest : unreachable.toNat = UInt64.size - 1 := Word.toNat_largest
  have bounded := key.ts.value.toNat_lt
  rw [largest]
  exact Nat.le_sub_one_of_lt bounded

namespace LaneQueue

variable {queue after : LaneQueue} {entities : Nat}

def entityOf (context : Context) : Nat := laneOf context - 1

def holder (queue : LaneQueue) (event : Event) : Nat := queue.homeLane event - 1

/-- Every event is owned by an entity, and no message is stamped before the end of its way. -/
structure Timed (queue : LaneQueue) : Prop where
  owned : ∀ event ∈ queue.events, laneOf event.key.context ≠ 0
  travelled : ∀ event ∈ queue.events, queue.isCrossing event = true →
    queue.latency.between (entityOf event.prevContext) (entityOf event.key.context) ≤
      event.key.ts.value.toNat

namespace Timed

private theorem homeLane_eq (timed : queue.Timed) {event : Event} (member : event ∈ queue.events) :
    queue.homeLane event = queue.holder event + 1 := by
  have entity : queue.homeLane event ≠ 0 := by
    cases crossing : queue.isCrossing event with
    | true =>
        rw [homeLane_of_crossing crossing]
        exact (isCrossing_iff.mp crossing).2.2.1
    | false =>
        rw [homeLane_of_not_crossing crossing]
        exact timed.owned event member
  unfold holder
  omega

private theorem holder_lt (timed : queue.Timed) (sound : queue.Sound entities) {event : Event}
    (member : event ∈ queue.events) : queue.holder event < entities := by
  obtain ⟨list, found, _⟩ := sound.home_lane member
  have within := sound.lane_le found
  rw [timed.homeLane_eq member] at within
  omega

private theorem laneOf_eq (timed : queue.Timed) {event : Event} (member : event ∈ queue.events) :
    laneOf event.key.context = entityOf event.key.context + 1 := by
  have entity := timed.owned event member
  unfold entityOf
  omega

private theorem owner_lt (timed : queue.Timed) (sound : queue.Sound entities) {event : Event}
    (member : event ∈ queue.events) : entityOf event.key.context < entities := by
  have within := (sound.addressed event member).1
  rw [timed.laneOf_eq member] at within
  omega

private theorem holder_of_not_crossing {event : Event} (stays : queue.isCrossing event = false) :
    queue.holder event = entityOf event.key.context := by
  unfold holder entityOf
  rw [homeLane_of_not_crossing stays]

private theorem between_le (timed : queue.Timed) (sound : queue.Sound entities)
    (metric : queue.latency.Metric entities) {event : Event} (member : event ∈ queue.events) :
    queue.latency.between (queue.holder event) (entityOf event.key.context) ≤
      event.key.ts.value.toNat := by
  cases crossing : queue.isCrossing event with
  | true =>
      have way := timed.travelled event member crossing
      unfold holder
      rw [homeLane_of_crossing crossing]
      exact way
  | false =>
      rw [holder_of_not_crossing crossing, metric.self _ (timed.owner_lt sound member)]
      exact Nat.zero_le _

end Timed

/-! ### What the latencies allow -/

private theorem Allows.ts_le {source target : Nat} {key front : EventKey}
    (allows : queue.Allows (source + 1) key (target + 1) front) :
    key.ts.value.toNat ≤ front.ts.value.toNat + queue.latency.between source target := by
  obtain ⟨latency, read, precedes⟩ := allows
  unfold laneLatency at read
  rw [if_neg (by omega), Nat.add_sub_cancel, Nat.add_sub_cancel] at read
  rw [LatencyMatrix.between_of_get read]
  exact ts_le_of_precedesShifted precedes

/-- Nothing at an unreachable entity is in the way of any but the last instant. -/
theorem Equipped.allows_unreachable (equipped : queue.Equipped entities) {source target : Nat}
    (sourceKnown : source < entities) (targetKnown : target < entities)
    (apart : queue.latency.between source target = unreachable.toNat) {key : EventKey}
    (early : key.ts.value.toNat < unreachable.toNat) (front : EventKey) :
    queue.Allows (source + 1) key (target + 1) front := by
  obtain ⟨latency, read⟩ := equipped.latencies source target sourceKnown targetKnown
  have largest : latency = Word.largest := by
    rw [LatencyMatrix.between_of_get read] at apart
    exact UInt64.toNat_inj.mp apart
  refine ⟨latency, ?_, ?_⟩
  · unfold LaneQueue.laneLatency
    rw [if_neg (by omega), Nat.add_sub_cancel, Nat.add_sub_cancel]
    exact read
  · have stops : (front.ts.saturatingAdd latency).value.toNat = unreachable.toNat := by
      have bounded := front.ts.value.toNat_lt
      unfold Timestamp.saturatingAdd
      rw [Word.toNat_saturatingAdd, largest]
      change min (_ + Word.largest.toNat) _ = Word.largest.toNat
      rw [Word.toNat_largest]
      omega
    unfold precedesShifted
    cases queue.boundary with
    | sequenced =>
        rw [decide_eq_true_iff]
        left
        rw [Timestamp.lt_iff_toNat]
        change key.ts.value.toNat < (front.ts.saturatingAdd latency).value.toNat
        rw [stops]
        exact early
    | inclusive =>
        have positive : latency ≠ 0 := by
          rw [largest]
          decide
        simp only [if_neg positive]
        rw [decide_eq_true_iff, Timestamp.le_iff_toNat, stops]
        exact Nat.le_of_lt early

private theorem Sound.parcel_message (sound : queue.Sound entities) (timed : queue.Timed)
    {entity : Nat} {index : Outbound} (found : queue.outbound[entity + 1]? = some index)
    {parcel : EventKey × Nat} (member : parcel ∈ index.parcels) :
    ∃ message ∈ queue.events, message.key = parcel.1 ∧
      entityOf message.key.context = entity ∧ queue.holder message ≠ entity := by
  obtain ⟨_, exactly⟩ := sound.indexed _ index found
  obtain ⟨message, present, crossing, named, dest, _⟩ := (exactly parcel.1 parcel.2).mp member
  rw [← named] at dest
  refine ⟨message, present, named, ?_, ?_⟩
  · unfold entityOf
    omega
  · intro home
    have lane := timed.homeLane_eq present
    rw [home, homeLane_of_crossing crossing, ← dest] at lane
    exact (isCrossing_iff.mp crossing).2.2.2.2 (laneOf_injective lane)

/-! ### The entities within reach -/

def near (queue : LaneQueue) (entity : Nat) : List Event :=
  queue.events.filter fun event =>
    decide (queue.latency.between (queue.holder event) entity ≠ unreachable.toNat)

private theorem mem_near {entity : Nat} {event : Event} :
    event ∈ queue.near entity ↔ event ∈ queue.events ∧
      queue.latency.between (queue.holder event) entity ≠ unreachable.toNat := by
  unfold near
  rw [List.mem_filter, decide_eq_true_iff]

section

variable {entity : Nat} {least : Event}

private theorem Sound.near_front (sound : queue.Sound entities)
    (leastOf : least.LeastOf (queue.near entity)) :
    queue.FrontAt (queue.homeLane least) least := by
  obtain ⟨member, within⟩ := mem_near.mp leastOf.member
  obtain ⟨list, found, held⟩ := sound.home_lane member
  cases first : list.front? with
  | none =>
      rw [BarrierList.front?_eq_none_iff.mp first] at held
      cases held
  | some entry =>
      have atFront : queue.FrontAt (queue.homeLane least) entry.event :=
        ⟨list, entry, found, first, rfl⟩
      have sameHolder : queue.holder entry.event = queue.holder least := by
        unfold holder
        rw [sound.front_home atFront]
      have ordered := sound.front_le member atFront
      have below := leastOf.below entry.event
        (mem_near.mpr ⟨atFront.mem, by rw [sameHolder]; exact within⟩)
      have tied : entry.event.key.rank = least.key.rank := Nat.le_antisymm ordered below
      have same := sound.eq_of_uid atFront.mem member (EventKey.rank_eq_iff.mp tied).2
      rw [same] at atFront
      exact atFront

/-- Nothing speaks against the least event within reach of an entity, unless it stands at
the last instant. -/
theorem Sound.near_safe (sound : queue.Sound entities) (timed : queue.Timed)
    (metric : queue.latency.Metric entities) (composes : queue.latency.Composes entities)
    (known : entity < entities) (leastOf : least.LeastOf (queue.near entity))
    (early : least.key.ts.value.toNat < unreachable.toNat) :
    queue.SafeAt (queue.homeLane least) least.key := by
  obtain ⟨member, within⟩ := mem_near.mp leastOf.member
  have home := timed.holder_lt sound member
  have lane := timed.homeLane_eq member
  have strictly : ∀ other ∈ queue.near entity, other ≠ least →
      least.key.rank < other.key.rank := by
    intro other present different
    apply Nat.lt_of_le_of_ne (leastOf.below other present)
    exact EventKey.rank_ne_of_uid_ne fun same =>
      different (sound.eq_of_uid member (mem_near.mp present).1 same).symm
  -- What is out of reach of the entity is out of reach of the holder of its least event.
  have beyond : ∀ other ∈ queue.events, other ∉ queue.near entity →
      queue.latency.between (queue.holder other) (queue.holder least) = unreachable.toNat := by
    intro other present outside
    apply Decidable.byContradiction
    intro reached
    exact outside (mem_near.mpr ⟨present,
      metric.joins composes (timed.holder_lt sound present) home known reached within⟩)
  constructor
  · intro other rival different atFront
    have rivalHome := timed.holder_lt sound atFront.mem
    have rivalLane := sound.front_home atFront
    rw [timed.homeLane_eq atFront.mem] at rivalLane
    by_cases inside : rival ∈ queue.near entity
    · have distinct : rival ≠ least := by
        intro same
        rw [same] at atFront
        exact different (sound.front_home atFront).symm
      obtain ⟨latency, read⟩ := sound.toEquipped.laneLatency
        (show queue.homeLane least ≤ entities by omega) (show other ≤ entities by omega)
      exact ⟨latency, read, precedesShifted_of_rank_lt (strictly rival inside distinct) latency⟩
    · rw [lane, ← rivalLane]
      apply sound.toEquipped.allows_unreachable home rivalHome _ early
      rw [metric.symmetric _ _ home rivalHome]
      exact beyond rival atFront.mem inside
  · intro index found parcel inside
    rw [lane] at found
    obtain ⟨message, present, named, dest, elsewhere⟩ :=
      sound.parcel_message timed found inside
    rw [← named]
    by_cases reached : message ∈ queue.near entity
    · apply strictly message reached
      intro same
      exact elsewhere (congrArg queue.holder same)
    · apply EventKey.rank_lt_of_ts_lt
      have way := timed.between_le sound metric present
      rw [dest, beyond message present reached] at way
      exact Nat.lt_of_lt_of_le early way

end

/-! ### The bound -/

def Waits (queue : LaneQueue) (entity : Nat) : Prop :=
  ∃ table senders, queue.credits = some table ∧ table.interfaces[entity]? = some senders ∧
    senders ≠ []

private theorem Blocked.waits {entity : Nat} {event : Event}
    (blocked : queue.Blocked (entity + 1) event) : queue.Waits entity := by
  obtain ⟨_, table, credited, refused⟩ := blocked
  rw [Nat.add_sub_cancel] at refused
  unfold CreditTable.maySend at refused
  cases found : table.interfaces[entity]? with
  | none =>
      rw [found] at refused
      cases refused
  | some senders =>
      rw [found] at refused
      refine ⟨table, senders, credited, found, ?_⟩
      intro none
      rw [none] at refused
      cases refused

namespace Settled

variable {lane : Nat} {front event : Event}

private theorem lane_eq (settled : queue.Settled lane front) (sound : queue.Sound entities)
    (timed : queue.Timed) : lane = entityOf front.key.context + 1 := by
  rw [← sound.front_home settled.atFront, timed.homeLane_eq settled.atFront.mem,
    Timed.holder_of_not_crossing settled.stays]

private theorem ts_le_of_owner (settled : queue.Settled lane front) (sound : queue.Sound entities)
    (timed : queue.Timed) (member : event ∈ queue.events)
    (own : entityOf event.key.context = entityOf front.key.context) :
    front.key.ts.value.toNat ≤ event.key.ts.value.toNat := by
  have dest : laneOf event.key.context = lane := by
    rw [settled.lane_eq sound timed, timed.laneOf_eq member, own]
  cases crossing : queue.isCrossing event with
  | false =>
      have atFront := settled.atFront
      rw [← dest, ← homeLane_of_not_crossing crossing] at atFront
      exact EventKey.ts_le_of_rank_le (sound.front_le member atFront)
  | true =>
      have within : lane < queue.outbound.length := by
        rw [sound.indexCount, ← dest]
        exact Nat.lt_succ_of_le (sound.addressed event member).1
      have found := List.getElem?_eq_getElem within
      obtain ⟨_, exactly⟩ := sound.indexed lane _ found
      have parcel := (exactly event.key (laneOf event.prevContext)).mpr
        ⟨event, member, crossing, rfl, dest, rfl⟩
      exact EventKey.ts_le_of_rank_le
        (Nat.le_of_lt (settled.safe.inbound _ found (event.key, _) parcel))

/-- Only a message that lacks credit lets the front go ahead of the least event within reach,
and then the latency to its sender is the bound. -/
theorem ts_le_least (settled : queue.Settled lane front) (sound : queue.Sound entities)
    (timed : queue.Timed) (metric : queue.latency.Metric entities)
    (composes : queue.latency.Composes entities) {least : Event}
    (leastOf : least.LeastOf (queue.near (entityOf front.key.context))) :
    front.key.ts.value.toNat ≤ least.key.ts.value.toNat ∨
      queue.Waits (queue.holder least) ∧
        queue.holder least ≠ entityOf front.key.context ∧
        front.key.ts.value.toNat ≤ least.key.ts.value.toNat +
          queue.latency.between (entityOf front.key.context) (queue.holder least) := by
  have atFront := sound.near_front leastOf
  have leastLane := timed.homeLane_eq atFront.mem
  have last := ts_le_unreachable front.key
  have here := timed.owner_lt sound settled.atFront.mem
  by_cases early : least.key.ts.value.toNat < unreachable.toNat
  · have safe := sound.near_safe timed metric composes here leastOf early
    by_cases blocked : queue.Blocked (queue.homeLane least) least
    · have different : queue.homeLane least ≠ lane := by
        intro same
        rw [same] at atFront
        have crossing := blocked.1
        rw [atFront.unique settled.atFront, settled.stays] at crossing
        cases crossing
      have allows := settled.safe.fronts _ least different atFront
      rw [leastLane, settled.lane_eq sound timed] at allows different
      rw [leastLane] at blocked
      exact Or.inr ⟨blocked.waits, fun same => different (congrArg Nat.succ same),
        allows.ts_le⟩
    · exact Or.inl (EventKey.ts_le_of_rank_le
        (settled.least _ least atFront safe blocked))
  · left
    omega

/-- The front of a settled queue lies ahead of no event by more than the latency between
their owners. -/
theorem ts_le (settled : queue.Settled lane front) (sound : queue.Sound entities)
    (timed : queue.Timed) (metric : queue.latency.Metric entities)
    (composes : queue.latency.Composes entities)
    (nearest : ∀ entity, entity < entities → queue.Waits entity →
      queue.latency.Nearest entities entity) (member : event ∈ queue.events) :
    front.key.ts.value.toNat ≤ event.key.ts.value.toNat +
      queue.latency.between (entityOf front.key.context) (entityOf event.key.context) := by
  have here := timed.owner_lt sound settled.atFront.mem
  have there := timed.owner_lt sound member
  have home := timed.holder_lt sound member
  have last := ts_le_unreachable front.key
  by_cases own : entityOf event.key.context = entityOf front.key.context
  · exact Nat.le_add_right_of_le (settled.ts_le_of_owner sound timed member own)
  · by_cases apart : queue.latency.between (entityOf front.key.context)
        (entityOf event.key.context) = unreachable.toNat
    · omega
    · by_cases inside : event ∈ queue.near (entityOf front.key.context)
      · obtain ⟨least, leastOf⟩ := Event.exists_leastOf (List.ne_nil_of_mem inside)
        have below := EventKey.ts_le_of_rank_le (leastOf.below event inside)
        obtain ⟨leastMember, reached⟩ := mem_near.mp leastOf.member
        rcases settled.ts_le_least sound timed metric composes leastOf with
          before | ⟨waits, elsewhere, bound⟩
        · omega
        · by_cases same : entityOf event.key.context = queue.holder least
          · rw [same]
            omega
          · have waiting := timed.holder_lt sound leastMember
            have onward := metric.joins composes waiting here there reached apart
            rw [metric.symmetric _ _ here there] at apart
            have closest := nearest _ waiting waits _ _ here there (Ne.symm elsewhere) same own
              (composes _ _ _ waiting there here onward apart)
            omega
      · -- The message comes from out of reach, and needs as long.
        have way := timed.between_le sound metric member
        have outside : queue.latency.between (queue.holder event)
            (entityOf event.key.context) = unreachable.toNat := by
          apply Decidable.byContradiction
          intro reached
          rw [metric.symmetric _ _ here there] at apart
          exact inside (mem_near.mpr ⟨member,
            metric.joins composes home there here reached apart⟩)
        omega

end Settled

/-! ### What the operations keep -/

theorem SameSettings.waits (settings : queue.SameSettings after) {entity : Nat}
    (waits : after.Waits entity) : queue.Waits entity := by
  obtain ⟨table, senders, credited, found, some⟩ := waits
  have mapped := settings.interfaces
  rw [credited] at mapped
  cases before : queue.credits with
  | none =>
      rw [before] at mapped
      cases mapped
  | some held =>
      rw [before] at mapped
      have same : table.interfaces = held.interfaces := Option.some.inj mapped
      exact ⟨held, senders, before, same ▸ found, some⟩

private theorem Timed.carried (timed : queue.Timed) (settings : queue.SameSettings after)
    (carried : Carried queue.isCrossing queue.events after.events) : after.Timed := by
  constructor
  · intro event member
    obtain ⟨origin, present, named, _⟩ := carried.origin member
    rw [← named]
    exact timed.owned origin present
  · intro event member crossing
    obtain ⟨origin, present, named, form⟩ := carried.origin member
    rw [isCrossing_congr _ _ settings.counts] at crossing
    rcases form with same | arrived
    · rw [settings.latency]
      rw [same] at crossing ⊢
      exact timed.travelled origin present crossing
    · rw [arrived, delivered_not_crossing] at crossing
      cases crossing

theorem Timed.fewer (timed : queue.Timed) (settings : queue.SameSettings after)
    (fewer : ∀ event ∈ after.events, event ∈ queue.events) : after.Timed := by
  constructor
  · intro event member
    exact timed.owned event (fewer event member)
  · intro event member crossing
    rw [isCrossing_congr _ _ settings.counts] at crossing
    rw [settings.latency]
    exact timed.travelled event (fewer event member) crossing

theorem Timed.insert (timed : queue.Timed) {event : Event} (settings : queue.SameSettings after)
    (grown : after.events.Perm (event :: queue.events))
    (owned : laneOf event.key.context ≠ 0)
    (travelled : queue.latency.between (entityOf event.prevContext)
      (entityOf event.key.context) ≤ event.key.ts.value.toNat) : after.Timed := by
  constructor
  · intro other member
    rcases List.mem_cons.mp (grown.mem_iff.mp member) with same | before
    · rw [same]
      exact owned
    · exact timed.owned other before
  · intro other member crossing
    rw [isCrossing_congr _ _ settings.counts] at crossing
    rw [settings.latency]
    rcases List.mem_cons.mp (grown.mem_iff.mp member) with same | before
    · rw [same]
      exact travelled
    · exact timed.travelled other before crossing

/-- The event that is taken lies ahead of no other by more than the latency between their
owners. -/
theorem Timed.pop (timed : queue.Timed) (sound : queue.Sound entities)
    (metric : queue.latency.Metric entities) (composes : queue.latency.Composes entities)
    (nearest : ∀ entity, entity < entities → queue.Waits entity →
      queue.latency.Nearest entities entity) {event? : Option Event}
    (popped : queue.pop = .ok (event?, after)) :
    after.Sound entities ∧ queue.SameSettings after ∧ after.Timed ∧
      (∀ event ∈ after.events, ∃ origin ∈ queue.events, origin.key = event.key) ∧
      ∀ front, event? = some front →
        (∃ origin ∈ queue.events, origin.key = front.key) ∧
        ∀ event ∈ after.events, front.key.ts.value.toNat ≤ event.key.ts.value.toNat +
          queue.latency.between (entityOf front.key.context) (entityOf event.key.context) := by
  rcases sound.pop with ⟨taken?, last, done, removal, lastSound, _⟩ | ⟨fails, _⟩
  · rw [popped] at done
    cases done
    cases removal with
    | nothing noEvents =>
        refine ⟨sound, .refl _, timed, ?_, ?_⟩
        · intro event member
          exact ⟨event, member, rfl⟩
        · intro front impossible
          cases impossible
    | @next before _ lane front settles settled left settings =>
        have beforeSound := settles.sound sound
        have carried := settles.carried sound
        have same := settles.settings
        have beforeTimed := timed.carried same carried
        have kept : ∀ event ∈ after.events, event ∈ before.events :=
          fun event member => left.mem_iff.mpr (List.mem_cons_of_mem _ member)
        refine ⟨lastSound, same.trans settings, beforeTimed.fewer settings kept, ?_, ?_⟩
        · intro event member
          obtain ⟨origin, present, named, _⟩ := carried.origin (kept event member)
          exact ⟨origin, present, named⟩
        · intro taken chosen
          cases chosen
          constructor
          · obtain ⟨origin, present, named, _⟩ := carried.origin settled.atFront.mem
            exact ⟨origin, present, named⟩
          · intro event member
            rw [← same.latency] at metric composes nearest ⊢
            exact settled.ts_le beforeSound beforeTimed metric composes
              (fun entity known waits => nearest entity known (same.waits waits))
              (kept event member)
  · rw [popped] at fails
    cases fails

end LaneQueue

end EventKernel.Queue
