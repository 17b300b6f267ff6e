import EventKernel.Proofs.CausalRuns
import EventKernel.Proofs.RunProgress

set_option autoImplicit false

/-! Where a clock moves backwards. An entity that waits for credit sends a message to a relay,
and the relay passes on to a third entity, which is nearer to the relay than to the sender.
The message waits with its sender, so an event of the third entity may go ahead of it that
lies within the latency from there, and what the relay passes on comes too late. -/

namespace EventKernel

open Queue (Configuration LaneQueue LatencyMatrix unreachable)
open Exploration (Hook Silent)

private theorem NodeId.exists_index {entity : Nat} (few : entity < UInt32.size) :
    ∃ id : NodeId, id.index = entity :=
  ⟨⟨UInt32.ofNat entity⟩, UInt32.toNat_ofNat_of_lt few⟩

namespace Simulation

variable {σ β : Type} {configuration : Configuration}

private theorem holds_of_new (valid : configuration.validate = .ok (.ok ()))
    (rule : configuration.strategies.localListsV2 = true)
    (quiet : configuration.exploration.enabled = false) (hook : σ) :
    ∃ (simulation : Simulation σ β) (lanes : LaneQueue),
      Simulation.new configuration hook = .ok (.ok simulation) ∧
        simulation.Holds configuration lanes [] ∧ simulation.nextUid = .first ∧
        ∀ entity, simulation.time entity = 0 := by
  obtain ⟨lanes, built, sound, noEvents, latency, _, _, _, _, credited, backed⟩ :=
    LaneQueue.new_sound (Queue.Configuration.accepted_of_validate valid)
  obtain ⟨table, counted, made⟩ := credited rule
  refine ⟨_, lanes, new_of_lanes valid rule built hook, ?_, rfl, time_ofQueue _⟩
  refine { layout := rfl, sound, latency, waits := ?_, backed, events := ?_,
           armed := List.forall_mem_nil _, numbers := List.forall_mem_nil _, counted := rfl,
           quiet, clocks := List.length_replicate, inbox := rfl, going := rfl }
  · intro entity waits
    obtain ⟨senders, found, some⟩ := (Queue.CreditTable.new_waits_iff made).mpr waits
    exact ⟨table, senders, counted, found, some⟩
  · rw [noEvents]
    exact .refl _

private theorem ClocksAdvance.time_le {before after : Simulation σ β}
    (advance : before.ClocksAdvance after)
    {entity : Nat} (known : entity < before.localClocks.length)
    (kept : entity < after.localClocks.length) : before.time entity ≤ after.time entity := by
  have earlier := List.getElem?_eq_getElem known
  have later := List.getElem?_eq_getElem kept
  have ordered := Timestamp.le_iff_toNat.mp (advance entity _ _ earlier later)
  unfold time
  simp only [earlier, later]
  exact ordered

end Simulation

inductive Errand where
  | send
  | pass
  | early
  | late

namespace Errand

variable (sender relay dest : NodeId) (first second : UInt64)

def body : Errand → Script Silent Errand Unit
  | send => .perform (.schedule (.message (.node sender) (.node relay) first none) .pass)
      fun _ => .done
  | pass => .perform (.schedule (.message (.node relay) (.node dest) second none) .late)
      fun _ => .done
  | early => .done
  | late => .done

def program (delay : UInt64) : Script Silent Errand Unit :=
  .perform (.schedule (.within (.node dest) delay) .early) fun _ =>
    .perform (.schedule (.within (.node sender) 0) .send) fun _ => .run fun _ => .done

end Errand

/-- A relay is nearer to a third entity than a sender that waits for credit. -/
structure Detour (configuration : Configuration) (sender relay dest : NodeId) : Prop where
  waits : configuration.Waits sender.index
  senderKnown : sender.index < configuration.entities
  relayKnown : relay.index < configuration.entities
  destKnown : dest.index < configuration.entities
  sendsAway : relay ≠ sender
  passesOn : dest ≠ relay
  elsewhere : dest ≠ sender
  lasts : configuration.latency.between sender.index relay.index +
    configuration.latency.between relay.index dest.index < unreachable.toNat
  nearer : configuration.latency.between relay.index dest.index <
    configuration.latency.between dest.index sender.index

namespace Detour

open Machine (Preparing Pausing)

variable {configuration : Configuration} {sender relay dest : NodeId}
  (detour : Detour configuration sender relay dest)

def own (id : NodeId) (ts : Timestamp) (uid : EventUid) : Event :=
  ⟨⟨ts, uid, .node id⟩, .undefined, .node id, none⟩

def sent (sender dest : NodeId) (ts : Timestamp) (uid : EventUid) : Event :=
  ⟨⟨ts, uid, .node dest⟩, .outgoing, .node sender, none⟩

private theorem own_stays (lanes : LaneQueue) (id : NodeId) (ts : Timestamp) (uid : EventUid) :
    lanes.isCrossing (own id ts uid) = false := by
  apply Bool.eq_false_iff.mpr
  intro crossing
  have outgoing := (LaneQueue.isCrossing_iff.mp crossing).2.1
  cases outgoing

private theorem sent_crosses {lanes : LaneQueue} (counted : lanes.credits.isSome = true)
    {sender dest : NodeId} (away : dest ≠ sender) (ts : Timestamp) (uid : EventUid) :
    lanes.isCrossing (sent sender dest ts uid) = true := by
  apply LaneQueue.isCrossing_iff.mpr
  refine ⟨counted, rfl, Nat.succ_ne_zero _, Nat.succ_ne_zero _, ?_⟩
  intro same
  cases same
  exact away rfl

private theorem begins (senderKnown : sender.index < configuration.entities)
    (destKnown : dest.index < configuration.entities)
    (valid : configuration.validate = .ok (.ok ()))
    (rule : configuration.strategies.localListsV2 = true)
    (quiet : configuration.exploration.enabled = false) (delay : UInt64)
    (body : Errand → Script Silent Errand Unit) :
    ∃ (simulation : Simulation Silent Errand) (machine : Machine Silent Errand Unit)
      (lanes : LaneQueue) (former latter : EventUid),
      Simulation.new configuration .silent = .ok (.ok simulation) ∧
      Pausing configuration body (.start simulation () (Errand.program sender dest delay))
        machine lanes [(own sender .zero latter, .send), (own dest ⟨delay⟩ former, .early)]
        (fun _ => 0) 6 := by
  obtain ⟨simulation, lanes, started, holds, uid, start⟩ :=
    Simulation.holds_of_new (β := Errand) valid rule quiet Silent.silent
  have new : Preparing configuration body
      (.start simulation () (Errand.program sender dest delay))
      (.start simulation () (Errand.program sender dest delay))
      (Errand.program sender dest delay) lanes [] 4 :=
    ⟨⟨[], .start⟩, rfl, holds, funext start, congrArg (fun uid => uid.value.toNat) uid⟩
  obtain ⟨_, _, _, former, _, early⟩ := new.schedules destKnown (by decide)
  obtain ⟨_, _, lanes, latter, _, ready⟩ := early.schedules senderKnown (by decide)
  obtain ⟨machine, running⟩ := ready.runs
  exact ⟨simulation, machine, lanes, former, latter, started, running⟩

section

variable {start machine : Machine Silent Errand Unit} {body : Errand → Script Silent Errand Unit}
  {lanes : LaneQueue} {former latter : EventUid} {delay : UInt64} {times : Nat → Nat}
  {number : Nat}

private theorem node_injective {left right : NodeId} (same : left.index + 1 = right.index + 1) :
    left = right :=
  Context.node.inj (Queue.laneOf_injective same)

private theorem sender_first (pausing : Pausing configuration body start machine lanes
      [(own sender .zero latter, .send), (own dest ⟨delay⟩ former, .early)] times number)
    (positive : 0 < delay.toNat) :
    ∃ rest, lanes.Yields configuration.entities (own sender .zero latter).key
      [own dest ⟨delay⟩ former] rest := by
  have held := pausing.holds.events
  have among : ∀ event ∈ lanes.events,
      event = own sender .zero latter ∨ event = own dest ⟨delay⟩ former := by
    intro event member
    rcases List.mem_cons.mp (held.mem_iff.mp member) with same | later
    · exact Or.inl same
    · exact Or.inr (List.mem_singleton.mp later)
  apply pausing.holds.sound.pop_of_no_messages pausing.holds.backed _ _ held
  · intro event member
    rcases among event member with same | same
    · rw [same]
      exact own_stays _ _ _ _
    · rw [same]
      exact own_stays _ _ _ _
  · rw [held.length_eq]
    exact (by decide : 2 < Queue.CreditTable.countLimit)
  · refine ⟨held.mem_iff.mpr List.mem_cons_self, ?_⟩
    intro event member
    rcases among event member with same | same
    · exact Nat.le_of_eq (by rw [same])
    · rw [same]
      exact Nat.le_of_lt (EventKey.rank_lt_of_ts_lt positive)

include detour

/-- The event of the third entity goes ahead of the message. -/
theorem goes_ahead (metric : configuration.latency.Metric configuration.entities)
    {first : UInt64} {uid : EventUid}
    (pausing : Pausing configuration body start machine lanes
      [(own dest ⟨delay⟩ former, .early), (sent sender relay ⟨first⟩ uid, .pass)] times number)
    (within : delay.toNat ≤
      first.toNat + configuration.latency.between dest.index sender.index)
    (older : former < uid) :
    ∃ rest, lanes.Yields configuration.entities (own dest ⟨delay⟩ former).key
      [sent sender relay ⟨first⟩ uid] rest := by
  have sound := pausing.holds.sound
  have waits := pausing.holds.waits _ detour.waits
  obtain ⟨table, senders, counted, _, _⟩ := id waits
  have stays := own_stays lanes dest ⟨delay⟩ former
  have crossing : lanes.isCrossing (sent sender relay ⟨first⟩ uid) = true :=
    sent_crosses (by rw [counted]; rfl) detour.sendsAway ⟨first⟩ uid
  have homeEarly : lanes.homeLane (own dest ⟨delay⟩ former) = dest.index + 1 :=
    LaneQueue.homeLane_of_not_crossing stays
  have homeSent : lanes.homeLane (sent sender relay ⟨first⟩ uid) = sender.index + 1 :=
    LaneQueue.homeLane_of_crossing crossing
  obtain ⟨latency, read⟩ := metric.known dest.index sender.index detour.destKnown
    detour.senderKnown
  have amount := LatencyMatrix.between_of_get read
  rw [amount] at within
  apply sound.pop_ahead pausing.holds.events stays crossing pausing.holds.backed
  · rw [homeEarly, homeSent]
    exact fun same => detour.elsewhere (node_injective same.symm)
  · intro same
    cases same
    exact detour.passesOn rfl
  · rw [homeEarly, homeSent]
    refine ⟨latency, ?_, LaneQueue.precedesShifted_of_ts_le within older ?_⟩
    · unfold LaneQueue.laneLatency
      rw [if_neg (by omega), pausing.holds.latency]
      exact read
    · intro zero
      have nearer := detour.nearer
      rw [amount, zero] at nearer
      exact Nat.not_lt_zero _ nearer
  · rw [homeSent]
    apply sound.blocked_of_waits pausing.holds.backed detour.senderKnown waits _ crossing
    intro event member
    rcases List.mem_cons.mp (pausing.holds.events.mem_iff.mp member) with same | later
    · rw [same]
      exact EventKind.noConfusion
    · rw [List.mem_singleton.mp later]
      exact EventKind.noConfusion

end

section

variable {start machine : Machine Silent Errand Unit} {lanes : LaneQueue}
  {former latter : EventUid} {first second arrival early : UInt64}

include detour

private theorem delays (metric : configuration.latency.Metric configuration.entities) :
    ∃ first second arrival early : UInt64,
      configuration.latency.between sender.index relay.index = first.toNat ∧
      configuration.latency.between relay.index dest.index = second.toNat ∧
      arrival.toNat = first.toNat + second.toNat ∧ early.toNat = arrival.toNat + 1 := by
  obtain ⟨first, firstRead⟩ := metric.known _ _ detour.senderKnown detour.relayKnown
  obtain ⟨second, secondRead⟩ := metric.known _ _ detour.relayKnown detour.destKnown
  have firstFar := LatencyMatrix.between_of_get firstRead
  have secondFar := LatencyMatrix.between_of_get secondRead
  have lasts := detour.lasts
  have largest : unreachable.toNat = UInt64.size - 1 := Word.toNat_largest
  rw [firstFar, secondFar, largest] at lasts
  have arrival : (UInt64.ofNat (first.toNat + second.toNat)).toNat =
      first.toNat + second.toNat := UInt64.toNat_ofNat_of_lt (by omega)
  have later : (UInt64.ofNat (first.toNat + second.toNat + 1)).toNat =
      first.toNat + second.toNat + 1 := UInt64.toNat_ofNat_of_lt (by omega)
  exact ⟨first, second, _, _, firstFar, secondFar, arrival, by rw [later, arrival]⟩

/-- The third entity stands at its own event, and what the relay has passed on is earlier. -/
theorem overtakes (metric : configuration.latency.Metric configuration.entities)
    (firstFar : configuration.latency.between sender.index relay.index = first.toNat)
    (secondFar : configuration.latency.between relay.index dest.index = second.toNat)
    (arrives : arrival.toNat = first.toNat + second.toNat)
    (next : early.toNat = arrival.toNat + 1)
    (begun : Pausing configuration (Errand.body sender relay dest first second) start machine
      lanes [(own sender .zero latter, .send), (own dest ⟨early⟩ former, .early)]
      (fun _ => 0) 6) :
    ∃ after grown uid times, Pausing configuration (Errand.body sender relay dest first second)
      start after grown [(sent relay dest ⟨arrival⟩ uid, .late)] times 8 ∧
      times dest.index = early.toNat := by
  have nearer := detour.nearer
  rw [secondFar] at nearer
  have old : former.value.toNat < 6 := by
    have below := begun.holds.numbers _ (List.mem_cons_of_mem _ List.mem_cons_self)
    rw [begun.number] at below
    exact below
  obtain ⟨_, yields⟩ := sender_first begun (by omega)
  have atRelay : (Timestamp.mk first).value.toNat =
      (own sender .zero latter).key.ts.value.toNat + first.toNat := (Nat.zero_add _).symm
  obtain ⟨_, _, uid, number, sending⟩ := begun.sends yields rfl rfl detour.relayKnown
    (Nat.le_of_eq firstFar) atRelay (by decide)
  -- The message waits, and the event of the third entity is found safe.
  have waiting := sending.perm (.swap _ _ _)
  have older : former < uid := by
    change former.value < uid.value
    rw [UInt64.lt_iff_toNat_lt, number]
    exact old
  obtain ⟨_, yields⟩ := detour.goes_ahead metric waiting (by omega) older
  obtain ⟨_, ahead⟩ := waiting.passes yields rfl rfl
  -- Only now the message reaches the relay, which passes on.
  obtain ⟨_, yields⟩ := ahead.holds.sound.pop_single ahead.holds.backed ahead.holds.events
  have atDest : (Timestamp.mk arrival).value.toNat =
      (sent sender relay ⟨first⟩ uid).key.ts.value.toNat + second.toNat := arrives
  obtain ⟨after, grown, last, _, passed⟩ := ahead.sends yields rfl rfl detour.destKnown
    (Nat.le_of_eq secondFar) atDest (by decide)
  refine ⟨after, grown, last, _, passed, ?_⟩
  have apart : relay.index ≠ dest.index :=
    fun same => detour.passesOn (node_injective (congrArg Nat.succ same)).symm
  rw [Pausing.advanced_other _ apart, Pausing.advanced_self]
  rfl

private theorem turns_back (valid : configuration.validate = .ok (.ok ()))
    (rule : configuration.strategies.localListsV2 = true)
    (quiet : configuration.exploration.enabled = false)
    (metric : configuration.latency.Metric configuration.entities) :
    ¬ configuration.ClocksAdvance := by
  intro advance
  obtain ⟨first, second, arrival, early, firstFar, secondFar, arrives, next⟩ :=
    detour.delays metric
  obtain ⟨simulation, _, _, _, _, started, begun⟩ := begins detour.senderKnown detour.destKnown
    valid rule quiet early (Errand.body sender relay dest first second)
  obtain ⟨_, _, _, _, passed, here⟩ :=
    detour.overtakes metric firstFar secondFar arrives next begun
  obtain ⟨_, yields⟩ := passed.holds.sound.pop_single passed.holds.backed passed.holds.events
  obtain ⟨entered, stepped, _, holds, _, moved, _⟩ := passed.fires yields rfl
  obtain ⟨_, underway⟩ := passed.underway
  have advances := advance Silent Errand Unit .silent simulation () _ _ _ _ _ _ started underway
    stepped
  have ordered := advances.time_le (passed.holds.clocks.symm ▸ detour.destKnown)
    (holds.clocks.symm ▸ detour.destKnown)
  change _ ≤ entered.time dest.index at ordered
  rw [passed.times, here, moved, Pausing.advanced_self] at ordered
  change early.toNat ≤ arrival.toNat at ordered
  omega

end

end Detour

namespace Queue.Configuration

private theorem waitsNearby_of_clocksAdvance {configuration : Configuration}
    (valid : configuration.validate = .ok (.ok ()))
    (rule : configuration.strategies.localListsV2 = true)
    (quiet : configuration.exploration.enabled = false)
    (metric : configuration.latency.Metric configuration.entities)
    (few : configuration.entities ≤ UInt32.size) (advance : configuration.ClocksAdvance) :
    configuration.WaitsNearby := by
  intro waiting waitingKnown waits source other sourceKnown otherKnown away beside apart lasts
  apply Nat.le_of_not_lt
  intro nearer
  obtain ⟨sender, rfl⟩ := NodeId.exists_index (Nat.lt_of_lt_of_le waitingKnown few)
  obtain ⟨dest, rfl⟩ := NodeId.exists_index (Nat.lt_of_lt_of_le sourceKnown few)
  obtain ⟨relay, rfl⟩ := NodeId.exists_index (Nat.lt_of_lt_of_le otherKnown few)
  rw [metric.symmetric _ _ sourceKnown otherKnown] at nearer
  have detour : Detour configuration sender relay dest := {
    waits
    senderKnown := waitingKnown
    relayKnown := otherKnown
    destKnown := sourceKnown
    sendsAway := fun same => beside (congrArg NodeId.index same)
    passesOn := fun same => apart (congrArg NodeId.index same).symm
    elsewhere := fun same => away (congrArg NodeId.index same)
    lasts
    nearer }
  exact detour.turns_back valid rule quiet metric advance

/-- Under the credit rule, with the latencies of links, clocks advance only where the entities
that wait for credit are the nearest to all that they reach; and where no sum of latencies is
cut off, they advance exactly there. -/
theorem clocksAdvance_iff_waitsNearby {configuration : Configuration} {links : List Link}
    (valid : configuration.validate = .ok (.ok ()))
    (rule : configuration.strategies.localListsV2 = true)
    (quiet : configuration.exploration.enabled = false)
    (built : LatencyMatrix.ofLinks configuration.entities links = .ok configuration.latency) :
    (configuration.ClocksAdvance → configuration.WaitsNearby) ∧
      (configuration.latency.Composes configuration.entities →
        (configuration.ClocksAdvance ↔ configuration.WaitsNearby)) := by
  have metric := LatencyMatrix.ofLinks_metric built
  have few : configuration.entities ≤ UInt32.size := by
    obtain ⟨cells, _⟩ := LatencyMatrix.ofLinks_eq_ok built
    apply Nat.le_of_not_lt
    intro many
    have square := Nat.mul_le_mul (Nat.le_of_lt many) (Nat.le_of_lt many)
    exact absurd (Nat.lt_of_le_of_lt square cells) (by decide)
  have necessary := waitsNearby_of_clocksAdvance valid rule quiet metric few
  exact ⟨necessary, fun composes =>
    ⟨necessary, clocksAdvance_of_waitsNearby rule quiet metric composes⟩⟩

def line : Configuration where
  entities := 3
  latency := ⟨3, #[0, 10, 11, 10, 0, 1, 11, 1, 0]⟩
  interfaces := [[⟨1⟩], [], []]
  strategies := .ofBits 24
  boundary := .sequenced
  exploration := .standard

def triangle : Configuration where
  entities := 3
  latency := ⟨3, #[0, 5, 5, 5, 0, 5, 5, 5, 0]⟩
  interfaces := [[⟨1⟩], [⟨2⟩], [⟨0⟩]]
  strategies := .ofBits 24
  boundary := .inclusive
  exploration := .standard

theorem clocksAdvance_iff_waitsNearby_line_triangle :
    ¬ line.ClocksAdvance ∧ triangle.ClocksAdvance := by
  constructor
  · intro advance
    have nearby := (clocksAdvance_iff_waitsNearby rfl rfl rfl
      (show LatencyMatrix.ofLinks 3 [⟨⟨0⟩, ⟨1⟩, 10⟩, ⟨⟨1⟩, ⟨2⟩, 1⟩] = .ok line.latency from
        rfl)).1 advance
    exact absurd (nearby 0 (by decide) ⟨[⟨1⟩], rfl, List.cons_ne_nil _ _⟩ 2 1 (by decide)
      (by decide) (by decide) (by decide) (by decide) (by decide)) (by decide)
  · have close : ∀ source, source < 3 → ∀ target, target < 3 →
        triangle.latency.between source target ≤ 5 ∧
          (source ≠ target → triangle.latency.between source target = 5) := by decide
    have composes : triangle.latency.Composes 3 := by
      intro source middle target sourceKnown middleKnown targetKnown _ _
      have former := (close source sourceKnown middle middleKnown).1
      have latter := (close middle middleKnown target targetKnown).1
      have large : 10 < unreachable.toNat := by decide
      omega
    apply ((clocksAdvance_iff_waitsNearby rfl rfl rfl
      (show LatencyMatrix.ofLinks 3 [⟨⟨0⟩, ⟨1⟩, 5⟩, ⟨⟨1⟩, ⟨2⟩, 5⟩, ⟨⟨2⟩, ⟨0⟩, 5⟩] =
        .ok triangle.latency from rfl)).2 composes).mpr
    intro entity known _ source other sourceKnown otherKnown away _ apart _
    have near := (close source sourceKnown entity known).2 away
    have far := (close source sourceKnown other otherKnown).2 apart.symm
    omega

end Queue.Configuration

end EventKernel
