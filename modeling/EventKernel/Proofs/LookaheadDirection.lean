import EventKernel.Proofs.LaneSettings
import EventKernel.Proofs.StrayEntries

set_option autoImplicit false

/-! Which way round the lookahead reads the latencies. The cell of two entities bounds how long
an action at the first takes to affect the second. So an event of an entity may run while
others are stored elsewhere, if it lies within the latency from there to its owner. But a
front is compared with the others by the latency from its own owner to theirs. What that
promises holds in every state that operations can reach; what it should promise holds in all
of them only if the latencies are the same both ways. -/

namespace EventKernel.Queue

namespace LaneQueue

variable {queue after : LaneQueue} {lane : Nat} {event : Event}

def StoredAt (queue : LaneQueue) (lane : Nat) (event : Event) : Prop :=
  ∃ list, queue.lanes[lane]? = some list ∧ event ∈ list.events

end LaneQueue

open LaneQueue (laneOf)

/-- In every state that can be reached, an event of an entity is returned only if it lies within
a bound of all that is then stored with any other entity. The bound may depend on the entity
that stores and on the one that owns. -/
def Configuration.RunsWithin (configuration : Configuration)
    (bound : NodeId → NodeId → Except Fault UInt64) : Prop :=
  ∀ (start queue after : LaneQueue) (live : List EventKey) (event : Event),
    LaneQueue.new configuration = .ok start → start.Attains live queue →
    queue.pop = .ok (some event, after) →
    ∀ owner, event.key.context = .node owner →
    ∀ other, other ≠ owner → ∀ stored, after.StoredAt (laneOf (.node other)) stored →
    ∀ latency, bound other owner = .ok latency →
      event.key.ts ≤ stored.key.ts.saturatingAdd latency

namespace LaneQueue

variable {queue after : LaneQueue} {lane : Nat} {event : Event}

private theorem Attains.outline {start : LaneQueue} {live : List EventKey}
    (attained : start.Attains live queue) : start.SameOutline queue := by
  induction attained with
  | start => exact .refl start
  | step operation _ _ performed ih => exact ih.trans (perform_outline performed)

private theorem Popping.within {owner other : NodeId} {stored : Event} {latency : UInt64}
    (popping : queue.Popping (some event) after) (owned : event.key.context = .node owner)
    (different : other ≠ owner) (there : after.StoredAt (laneOf (.node other)) stored)
    (read : queue.latency.get owner.index other.index = .ok latency)
    (sameTable : after.latency = queue.latency) :
    event.key.ts ≤ stored.key.ts.saturatingAdd latency := by
  cases popping with
  | @event before lane front list rest credits settling leading stays found restSound taken
      rule =>
      obtain ⟨elsewhere, foundThere, inside⟩ := there
      have charted := settling.charted
      have home := charted.front_home leading.atFront
      rw [homeLane_of_not_crossing stays, owned] at home
      have apart : lane ≠ laneOf (.node other) := fun same =>
        different (Context.node.inj (laneOf_injective (home.trans same))).symm
      change (before.lanes.set lane rest)[laneOf (.node other)]? = some elsewhere at foundThere
      rw [List.getElem?_set_ne apart] at foundThere
      have listSound := charted.list_sound foundThere
      cases first : elsewhere.front? with
      | none =>
          rw [BarrierList.front?_eq_none_iff.mp first] at inside
          cases inside
      | some entry =>
          have ordered := EventKey.ts_le_of_rank_le (listSound.front_least first stored inside)
          have atRival : before.FrontAt (laneOf (.node other)) entry.event :=
            ⟨elsewhere, entry, foundThere, first, rfl⟩
          have bounded : event.key.ts.value.toNat ≤
              entry.event.key.ts.value.toNat + latency.toNat := by
            rcases leading.leads with safe | least
            · obtain ⟨held, heldRead, allowed⟩ := safe.fronts _ _ apart.symm atRival
              rw [← home] at heldRead
              change before.latency = _ at sameTable
              change before.latency.get owner.index other.index = .ok held at heldRead
              rw [sameTable, read] at heldRead
              cases heldRead
              exact ts_le_of_precedesShifted allowed
            · exact Nat.le_add_right_of_le
                (EventKey.ts_le_of_rank_le (least _ _ atRival))
          have inRange := event.key.ts.value.toNat_lt
          rw [Timestamp.le_iff_toNat]
          unfold Timestamp.saturatingAdd
          rw [Word.toNat_saturatingAdd]
          unfold UInt64.size
          omega

private theorem Popping.owner_within (popping : queue.Popping (some event) after) :
    laneOf event.key.context < after.lanes.length := by
  cases popping with
  | @event before lane front list rest credits settling leading stays found restSound taken
      rule =>
      have home := settling.charted.front_home leading.atFront
      rw [homeLane_of_not_crossing stays] at home
      change _ < (before.lanes.set lane rest).length
      rw [List.length_set, home]
      exact (List.getElem?_eq_some_iff.mp found).1

def hastyEvent (owner : NodeId) (instant : UInt64) : Event :=
  ⟨⟨⟨instant⟩, ⟨5⟩, .node owner⟩, .undefined, .node owner, none⟩

variable {entities : Nat} {configuration : Configuration} {sender owner : NodeId}

private theorem Charted.pop_selected (charted : queue.Charted) {front : Event}
    (atFront : queue.FrontAt lane front) (undefined : front.kind = .undefined)
    (selected : queue.select = .ok (some lane, queue)) :
    ∃ rest, queue.pop = .ok (some front, queue.putLane lane rest) := by
  obtain ⟨list, entry, found, first, same⟩ := atFront
  have settled : queue.settle = .ok (some lane, queue) := by
    unfold LaneQueue.settle
    cases queue.outgoingCount with
    | zero => exact selected
    | succ moves =>
        unfold LaneQueue.settleWithin
        have stays : queue.isCrossing entry.event = false :=
          undefined_not_crossing (same ▸ undefined)
        simp only [selected, laneAt_of_found found, first, stays, bind, Except.bind,
          Bool.false_eq_true, if_false]
        rfl
  obtain ⟨rest, removed, _⟩ := (charted.list_sound found).pop first
  rw [same] at removed
  have uncounted : (queue.putLane lane rest).consumeCredit front =
      .ok (queue.putLane lane rest) := by
    unfold LaneQueue.consumeCredit
    rw [undefined]
    rfl
  refine ⟨rest, ?_⟩
  unfold LaneQueue.pop
  simp only [settled, laneAt_of_found found, removed, uncounted, bind, Except.bind]
  rfl

/-- Of two events, the index lists a message that should come before the one, and nothing that
should come before the other. -/
structure Contested (queue : LaneQueue) (entities : Nat) (sender owner : NodeId)
    (ahead : UInt64) : Prop where
  charted : queue.Charted
  equipped : queue.Equipped entities
  held : queue.events.Perm [hastyEvent sender ahead, heldEvent owner]
  atSender : ∀ index, queue.outbound[laneOf (.node sender)]? = some index → index.parcels = []
  atOwner : ∃ index parcel, queue.outbound[laneOf (.node owner)]? = some index ∧
    parcel ∈ index.parcels ∧ parcel.1 = (strayMessage sender owner).key

private theorem Haunted.contest (haunted : queue.Haunted sender owner)
    (charted : queue.Charted) (equipped : queue.Equipped entities)
    (senderKnown : sender.index < entities) (ownerKnown : owner.index < entities)
    (ahead : UInt64) :
    ∃ next last, queue.insert (heldEvent owner) = .ok next ∧
      next.insert (hastyEvent sender ahead) = .ok last ∧
      last.Contested entities sender owner ahead := by
  have heldStays : queue.isCrossing (heldEvent owner) = false := undefined_not_crossing rfl
  have hastyStays {next : LaneQueue} : next.isCrossing (hastyEvent sender ahead) = false :=
    undefined_not_crossing rfl
  obtain ⟨lanes, first, nextCharted, nextEquipped, one⟩ := charted.insert_local equipped
    heldStays (Nat.succ_le_of_lt ownerKnown)
    (by rw [haunted.noEvents]; exact List.forall_mem_nil _)
  rw [haunted.noEvents] at one
  obtain ⟨others, second, lastCharted, lastEquipped, two⟩ := nextCharted.insert_local
    nextEquipped hastyStays (Nat.succ_le_of_lt senderKnown) (by
      intro other member same
      rw [List.mem_singleton.mp (one.mem_iff.mp member)] at same
      cases same)
  exact ⟨_, _, first, second, lastCharted, lastEquipped, two.trans (one.cons _),
    haunted.atSender, haunted.atOwner⟩

private theorem Contested.pop {ahead : UInt64}
    (contested : queue.Contested entities sender owner ahead) (different : sender ≠ owner)
    (read : queue.latency.get sender.index owner.index = .ok ahead) (positive : ahead ≠ 0) :
    ∃ after, queue.pop = .ok (some (hastyEvent sender ahead), after) ∧
      after.StoredAt (laneOf (.node owner)) (heldEvent owner) := by
  have ⟨charted, equipped, held, _, _⟩ := contested
  have among : ∀ event ∈ queue.events,
      event = hastyEvent sender ahead ∨ event = heldEvent owner := by
    intro event member
    rcases List.mem_cons.mp (held.mem_iff.mp member) with same | later
    · exact Or.inl same
    · exact Or.inr (List.mem_singleton.mp later)
  have stays : ∀ event ∈ queue.events, queue.isCrossing event = false := by
    intro event member
    rcases among event member with same | same
    · exact undefined_not_crossing (by rw [same]; rfl)
    · exact undefined_not_crossing (by rw [same]; rfl)
  have home : ∀ event ∈ queue.events, queue.homeLane event = laneOf event.key.context :=
    fun event member => homeLane_of_not_crossing (stays event member)
  have apart : laneOf (.node sender) ≠ laneOf (.node owner) :=
    fun same => different (Context.node.inj (laneOf_injective same))
  have hastyMember := held.mem_iff.mpr List.mem_cons_self
  have heldMember := held.mem_iff.mpr (List.mem_cons_of_mem _ List.mem_cons_self)
  -- A front is one of the two, and stands in the lane of its owner.
  have fronts : ∀ other rival, queue.FrontAt other rival →
      rival = hastyEvent sender ahead ∧ other = laneOf (.node sender) ∨
        rival = heldEvent owner ∧ other = laneOf (.node owner) := by
    intro other rival atRival
    have there := charted.front_home atRival
    rw [home _ atRival.mem] at there
    rcases among rival atRival.mem with same | same
    · rw [same] at there
      exact Or.inl ⟨same, there.symm⟩
    · rw [same] at there
      exact Or.inr ⟨same, there.symm⟩
  have atFront : queue.FrontAt (laneOf (.node sender)) (hastyEvent sender ahead) := by
    obtain ⟨front, atFront, _⟩ := charted.front_of_home hastyMember
    rw [home _ hastyMember] at atFront
    rcases fronts _ front atFront with ⟨same, _⟩ | ⟨_, elsewhere⟩
    · rw [same] at atFront
      exact atFront
    · exact absurd elsewhere apart
  have safe : queue.SafeAt (laneOf (.node sender)) (hastyEvent sender ahead).key := by
    constructor
    · intro other rival elsewhere atRival
      rcases fronts other rival atRival with ⟨_, there⟩ | ⟨same, there⟩
      · exact absurd there elsewhere
      · rw [same, there]
        have older : (⟨5⟩ : EventUid) < ⟨6⟩ := by decide
        exact ⟨ahead, read, precedesShifted_of_ts_le (Nat.le_add_left _ _) older positive⟩
    · intro index found parcel member
      rw [contested.atSender index found] at member
      cases member
  have only : ∀ other rival, queue.FrontAt other rival → queue.SafeAt other rival.key →
      other = laneOf (.node sender) := by
    intro other rival atRival safeRival
    rcases fronts other rival atRival with ⟨_, there⟩ | ⟨same, there⟩
    · exact there
    · rw [same, there] at safeRival
      exact absurd safeRival (heldEvent_not_safe contested.atOwner)
  have free : ¬ queue.Blocked (laneOf (.node sender)) (hastyEvent sender ahead) := by
    rintro ⟨crossing, _⟩
    rw [stays _ hastyMember] at crossing
    cases crossing
  obtain ⟨rest, popped⟩ := charted.pop_selected atFront rfl
    ((charted.judged equipped).select_only_safe atFront safe free only)
  refine ⟨_, popped, ?_⟩
  obtain ⟨list, found, inside⟩ := charted.home_lane heldMember
  rw [home _ heldMember] at found
  refine ⟨list, ?_, inside⟩
  change (queue.lanes.set (laneOf (.node sender)) rest)[laneOf (.node owner)]? = some list
  rw [List.getElem?_set_ne apart]
  exact found

end LaneQueue

namespace Configuration

variable {configuration : Configuration}

private theorem outline_of_attained (accepted : configuration.Accepted) {start queue : LaneQueue}
    {live : List EventKey} (built : LaneQueue.new configuration = .ok start)
    (attained : start.Attains live queue) :
    queue.latency = configuration.latency ∧ queue.lanes.length = configuration.entities + 1 := by
  obtain ⟨fresh, made, sound, _, sameTable, _⟩ := LaneQueue.new_sound accepted
  rw [built] at made
  cases made
  exact ⟨attained.outline.latency.trans sameTable,
    attained.outline.laneCount.trans sound.laneCount⟩

private theorem runsWithin_of_owner (accepted : configuration.Accepted) :
    configuration.RunsWithin fun other owner =>
      configuration.latency.get owner.index other.index := by
  intro start queue after live event built attained popped owner owned other different stored
    there latency read
  obtain ⟨sameTable, _⟩ := outline_of_attained accepted built attained
  refine ((attained.charted built).1.popping popped).within owned different there ?_
    (LaneQueue.pop_outline popped).latency
  rw [sameTable]
  exact read

private theorem runsWithin_of_symmetric (accepted : configuration.Accepted)
    (symmetric : ∀ first second : NodeId, first.index < configuration.entities →
      second.index < configuration.entities →
      configuration.latency.get first.index second.index =
        configuration.latency.get second.index first.index) :
    configuration.RunsWithin fun other owner =>
      configuration.latency.get other.index owner.index := by
  intro start queue after live event built attained popped owner owned other different stored
    there latency read
  obtain ⟨_, count⟩ := outline_of_attained accepted built attained
  rw [← (LaneQueue.pop_outline popped).laneCount] at count
  have ownerKnown := ((attained.charted built).1.popping popped).owner_within
  rw [owned, count] at ownerKnown
  have otherKnown : laneOf (.node other) < after.lanes.length := by
    obtain ⟨list, found, _⟩ := there
    exact (List.getElem?_eq_some_iff.mp found).1
  rw [count] at otherKnown
  refine runsWithin_of_owner accepted start queue after live event built attained popped owner
    owned other different stored there latency ?_
  exact (symmetric owner other (Nat.lt_of_succ_lt_succ ownerKnown)
    (Nat.lt_of_succ_lt_succ otherKnown)).trans read

private theorem latency_le_of_runsWithin (accepted : configuration.Accepted)
    (credits : configuration.strategies.localListsV2 = true)
    (within : configuration.RunsWithin fun other owner =>
      configuration.latency.get other.index owner.index)
    {first second : NodeId} (firstKnown : first.index < configuration.entities)
    (secondKnown : second.index < configuration.entities) {ahead back : UInt64}
    (forth : configuration.latency.get first.index second.index = .ok ahead)
    (return_ : configuration.latency.get second.index first.index = .ok back) :
    ahead ≤ back := by
  by_cases positive : ahead = 0
  · rw [positive]
    exact UInt64.zero_le
  have different : first ≠ second := by
    intro same
    rw [← same, accepted.selfLatency _ firstKnown] at forth
    exact positive (Except.ok.inj forth).symm
  obtain ⟨start, queue, built, attained, equipped, haunted⟩ :=
    LaneQueue.exists_haunted accepted credits different firstKnown secondKnown
  obtain ⟨sameTable, _⟩ := outline_of_attained accepted built attained
  obtain ⟨next, last, held, entered, contested⟩ := haunted.contest
    (attained.charted built).1 equipped firstKnown secondKnown ahead
  have holds : queue.perform (.insert (LaneQueue.heldEvent second)) =
      .ok (.inserted (.ok (LaneQueue.heldEvent second).key), next) := by
    simp only [LaneQueue.perform, held, bind, Except.bind, pure, Except.pure]
  have enters : next.perform (.insert (LaneQueue.hastyEvent first ahead)) =
      .ok (.inserted (.ok (LaneQueue.hastyEvent first ahead).key), last) := by
    simp only [LaneQueue.perform, entered, bind, Except.bind, pure, Except.pure]
  have one : start.Attains [(LaneQueue.heldEvent second).key] next :=
    .step (.insert (LaneQueue.heldEvent second)) attained (List.forall_mem_nil _) holds
  have two : start.Attains
      [(LaneQueue.hastyEvent first ahead).key, (LaneQueue.heldEvent second).key] last := by
    refine .step (.insert (LaneQueue.hastyEvent first ahead)) one ?_ enters
    intro key member
    rw [List.mem_singleton.mp member]
    have apart : (⟨6⟩ : EventUid) ≠ ⟨5⟩ := by decide
    exact apart
  obtain ⟨lastTable, _⟩ := outline_of_attained accepted built two
  obtain ⟨after, popped, stored⟩ := contested.pop different (by rw [lastTable]; exact forth)
    positive
  have bounded := within start last after _ _ built two popped first rfl second
    (Ne.symm different) _ stored back return_
  rw [Timestamp.le_iff_toNat] at bounded
  rw [UInt64.le_iff_toNat_le]
  refine Nat.le_trans bounded ?_
  change (Word.saturatingAdd 0 back).toNat ≤ back.toNat
  rw [Word.toNat_saturatingAdd]
  exact Nat.le_trans (Nat.min_le_left _ _) (Nat.le_of_eq (Nat.zero_add _))

/-- What is returned always lies within the latency from its own owner to whoever stores
something else. It lies within the latency that counts, from there to its owner, in all
states if and only if the latencies between any two entities are the same both ways.

The states are all that operations can reach, and two entities may be all there are. Where their
latencies differ, the state that runs too far ahead comes from a removal that named the sender of a
message in place of its owner and so left an entry in the index (`LaneQueue.exists_haunted`). With a
third entity a message that does wait can take the part of that entry, as in the example below. -/
theorem runsWithin_iff_symmetric (valid : configuration.validate = .ok (.ok ()))
    (credits : configuration.strategies.localListsV2 = true) :
    (configuration.RunsWithin fun other owner =>
      configuration.latency.get owner.index other.index) ∧
    ((configuration.RunsWithin fun other owner =>
        configuration.latency.get other.index owner.index) ↔
      ∀ first second : NodeId, first.index < configuration.entities →
        second.index < configuration.entities →
        configuration.latency.get first.index second.index =
          configuration.latency.get second.index first.index) := by
  have accepted := accepted_of_validate valid
  refine ⟨runsWithin_of_owner accepted, fun within => ?_, runsWithin_of_symmetric accepted⟩
  intro first second firstKnown secondKnown
  obtain ⟨ahead, forth⟩ := accepted.latencies _ _ firstKnown secondKnown
  obtain ⟨back, return_⟩ := accepted.latencies _ _ secondKnown firstKnown
  rw [forth, return_, UInt64.le_antisymm
    (latency_le_of_runsWithin accepted credits within firstKnown secondKnown forth return_)
    (latency_le_of_runsWithin accepted credits within secondKnown firstKnown return_ forth)]

/-- Three entities; the first is reached late from the others, but reaches them soon. -/
def slantedConfiguration : Configuration where
  entities := 3
  latency := ⟨3, #[0, 1, 1, 5, 0, 5, 5, 5, 0]⟩
  interfaces := [[⟨2⟩]]
  strategies := ⟨false, true, false, true, true⟩
  boundary := .sequenced
  exploration := .standard

/-- There the latencies that count are not respected. -/
theorem runsWithin_iff_symmetric_slanted :
    slantedConfiguration.validate = .ok (.ok ()) ∧
      slantedConfiguration.latency.isTriangleConsistent = .ok true ∧
      (slantedConfiguration.RunsWithin fun other owner =>
        slantedConfiguration.latency.get owner.index other.index) ∧
      ¬ slantedConfiguration.RunsWithin fun other owner =>
        slantedConfiguration.latency.get other.index owner.index := by
  have valid : slantedConfiguration.validate = .ok (.ok ()) := rfl
  obtain ⟨always, exactly⟩ := runsWithin_iff_symmetric valid rfl
  refine ⟨valid, rfl, always, fun within => ?_⟩
  have same := exactly.mp within ⟨0⟩ ⟨1⟩ (by decide) (by decide)
  have forth : slantedConfiguration.latency.get (⟨0⟩ : NodeId).index (⟨1⟩ : NodeId).index =
    .ok 1 := rfl
  have back : slantedConfiguration.latency.get (⟨1⟩ : NodeId).index (⟨0⟩ : NodeId).index =
    .ok 5 := rfl
  rw [forth, back] at same
  exact absurd (Except.ok.inj same) (by decide)

/-- No removal is needed there: entity 1 runs at time 3 while entity 0, from which it may be reached
within 1, has yet to run at time 0. -/
example : (do
    let start ← LaneQueue.new slantedConfiguration
    let queue ← start.performAll [
      .insert ⟨⟨⟨0⟩, ⟨4⟩, .node ⟨2⟩⟩, .outgoing, .node ⟨0⟩, none⟩,
      .insert ⟨⟨⟨0⟩, ⟨5⟩, .node ⟨0⟩⟩, .undefined, .node ⟨0⟩, none⟩,
      .insert ⟨⟨⟨3⟩, ⟨6⟩, .node ⟨1⟩⟩, .undefined, .node ⟨1⟩, none⟩]
    let (event?, _) ← queue.pop
    return event?.map Event.key) = .ok (some ⟨⟨3⟩, ⟨6⟩, .node ⟨1⟩⟩) := rfl

end Configuration

end EventKernel.Queue
