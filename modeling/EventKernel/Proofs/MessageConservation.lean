import EventKernel.Proofs.MessageLedger

set_option autoImplicit false

/-! A queue under the credit rule keeps what its ledger says. The invariant relates the
events held to those owed: the same, except that some messages have moved, and those only
where the next event has been asked for. -/

namespace EventKernel.Queue

open LaneQueue (delivered messages arrive Carried)

/-! ### Forms of one event -/

private theorem isCrossing_eq {queue : LaneQueue} (counted : queue.credits.isSome = true) :
    queue.isCrossing = Event.crosses := by
  funext event
  unfold LaneQueue.isCrossing Event.crosses
  rw [counted, Bool.true_and]

private theorem messages_arrive {moved : Event → Bool}
    (cross : ∀ event, moved event = true → event.crosses = true) (events : List Event) :
    messages (events.map (arrive moved)) = messages events := by
  induction events with
  | nil => rfl
  | cons event rest ih =>
      funext dest sender
      rw [List.map_cons, LaneQueue.messages_cons, LaneQueue.messages_cons, ih]
      cases gone : moved event with
      | false => rw [LaneQueue.arrive_of_waiting gone]
      | true =>
          rw [LaneQueue.arrive_of_moved gone, ← LaneQueue.messages_cons,
            LaneQueue.messages_delivered ?_, LaneQueue.messages_cons]
          have crossing := cross event gone
          unfold Event.crosses at crossing
          simp only [Bool.and_eq_true] at crossing
          exact eq_of_beq crossing.1.1.1

/-! ### The invariant -/

structure Ledger.Kept (ledger : Ledger) (queue : LaneQueue) (entities : Nat) : Prop where
  sound : queue.Sound entities
  counted : queue.credits.isSome = true
  backed : queue.Backed ledger.drained
  held : ∃ moved : Event → Bool, (∀ event, moved event = true → event.crosses = true) ∧
    (∀ held ∈ ledger.live, moved held.event = true → held.asked = true) ∧
    queue.events.Perm (ledger.events.map (arrive moved))

namespace Ledger.Kept

variable {ledger : Ledger} {queue : LaneQueue} {entities : Nat}

private theorem uids (kept : ledger.Kept queue entities) :
    (queue.events.map fun event => event.key.uid).Perm
      (ledger.events.map fun event => event.key.uid) := by
  obtain ⟨moved, cross, _, held⟩ := kept.held
  have carried : Carried Event.crosses ledger.events queue.events := ⟨moved, cross, held⟩
  have mapped := carried.keys.map EventKey.uid
  rw [List.map_map, List.map_map] at mapped
  exact mapped

private theorem distinct (kept : ledger.Kept queue entities) :
    (ledger.events.map fun event => event.key.uid).Nodup :=
  (kept.uids.nodup_iff).mp kept.sound.distinct

private theorem length_eq (kept : ledger.Kept queue entities) :
    queue.events.length = ledger.live.length := by
  have same := kept.uids.length_eq
  rw [List.length_map, List.length_map] at same
  exact same.trans (List.length_map _)

private theorem affordable (kept : ledger.Kept queue entities) (affordable : ledger.Affordable) :
    LaneQueue.Affordable queue.events ledger.drained := by
  obtain ⟨moved, cross, _, held⟩ := kept.held
  intro dest sender
  rw [LaneQueue.messages_perm held, messages_arrive cross]
  exact affordable dest sender

private theorem not_overdrawn (kept : ledger.Kept queue entities) (affordable : ledger.Affordable) :
    ¬ queue.Overdrawn :=
  fun overdrawn => overdrawn.2 ledger.drained kept.backed (kept.affordable affordable)

private theorem uid_iff (kept : ledger.Kept queue entities) (uid : EventUid) :
    (∃ event ∈ queue.events, event.key.uid = uid) ↔
      ∃ event ∈ ledger.events, event.key.uid = uid := by
  have same := kept.uids.mem_iff (a := uid)
  rw [List.mem_map, List.mem_map] at same
  exact same

private theorem owed (kept : ledger.Kept queue entities) {event : Event}
    (member : event ∈ queue.events) :
    ∃ held ∈ ledger.live, held.LeavesAs event ∧ held.event.key = event.key := by
  obtain ⟨moved, cross, asked, perm⟩ := kept.held
  obtain ⟨before, present, same⟩ := List.mem_map.mp (perm.mem_iff.mp member)
  obtain ⟨held, live, named⟩ := List.mem_map.mp present
  refine ⟨held, live, ?_, ?_⟩
  · rw [← same, ← named]
    cases gone : moved held.event with
    | true =>
        rw [LaneQueue.arrive_of_moved gone]
        exact .moved (cross _ gone) (asked held live gone)
    | false =>
        rw [LaneQueue.arrive_of_waiting gone]
        exact .unchanged
  · rw [← same, ← named]
    exact (LaneQueue.arrive_key moved _).symm

/-! ### What each operation does to it -/

private theorem insert (kept : ledger.Kept queue entities) {event : Event}
    (owner : event.key.context.Known entities) (sender : event.prevContext.Known entities)
    (fresh : ∀ other ∈ ledger.events, other.key.uid ≠ event.key.uid) :
    ∃ after, queue.insert event = .ok after ∧ (ledger.enter event).Kept after entities := by
  have absent : ∀ other ∈ queue.events, other.key.uid ≠ event.key.uid := by
    intro other member same
    obtain ⟨owed, live, named⟩ := (kept.uid_iff _).mp ⟨other, member, same⟩
    exact fresh owed live named
  obtain ⟨lanes, outbound, inserted, sound, grown⟩ := kept.sound.insert event
    ⟨Layout.laneOf_le_iff.mpr owner, fun _ => Layout.laneOf_le_iff.mpr sender⟩ absent
  refine ⟨_, inserted, sound, kept.counted, ?_, ?_⟩
  · refine kept.backed.more rfl fun dest sender => ?_
    rw [LaneQueue.arrivals_perm grown, LaneQueue.arrivals_cons]
    exact Nat.le_add_right _ _
  · obtain ⟨moved, cross, asked, held⟩ := kept.held
    refine ⟨fun other => moved other && other != event, ?_, ?_, ?_⟩
    · intro other gone
      exact cross other (Bool.and_eq_true_iff.mp gone).1
    · intro held member gone
      rcases List.mem_cons.mp member with same | live
      · rw [same] at gone
        change (moved event && event != event) = true at gone
        rw [bne_self_eq_false, Bool.and_false] at gone
        cases gone
      · exact asked held live (Bool.and_eq_true_iff.mp gone).1
    · change List.Perm _ ((event :: ledger.events).map _)
      rw [LaneQueue.map_arrive_new moved fresh]
      exact grown.trans (held.cons event)

private theorem ask_events (ledger : Ledger) : ledger.ask.events = ledger.events := by
  unfold Ledger.events Ledger.ask
  rw [List.map_map]
  rfl

private theorem ask (kept : ledger.Kept queue entities) {after : LaneQueue}
    (sound : after.Sound entities) (settings : queue.SameSettings after)
    (carried : Carried queue.isCrossing queue.events after.events)
    (backed : after.Backed ledger.drained) : ledger.ask.Kept after entities := by
  refine ⟨sound, settings.counts.trans kept.counted, backed, ?_⟩
  obtain ⟨moved, cross, _, held⟩ := kept.held
  have same := isCrossing_eq kept.counted
  have before : Carried queue.isCrossing ledger.events queue.events := by
    refine ⟨moved, fun event gone => ?_, held⟩
    rw [same]
    exact cross event gone
  obtain ⟨late, lateCross, perm⟩ := before.trans carried
  refine ⟨late, fun event gone => ?_, fun held member _ => ?_, ?_⟩
  · rw [← same]
    exact lateCross event gone
  · obtain ⟨before, _, asked⟩ := List.mem_map.mp member
    rw [← asked]
  · rw [ask_events]
    exact perm

private theorem strike_perm (distinct : (ledger.events.map fun event => event.key.uid).Nodup)
    {held : Held} (live : held ∈ ledger.live) :
    ledger.live.Perm (held :: ledger.live.eraseP (Held.named held.event.key.uid)) := by
  obtain ⟨other, front, back, _, named, shape, erased⟩ :=
    List.exists_of_eraseP live (p := Held.named held.event.key.uid) BEq.rfl
  have same : other = held := by
    unfold Ledger.events at distinct
    rw [List.map_map] at distinct
    have otherLive : other ∈ ledger.live := by
      rw [shape]
      exact List.mem_append_right _ List.mem_cons_self
    exact eq_of_nodup_map distinct otherLive live (eq_of_beq named)
  rw [erased, shape, same]
  exact List.perm_middle

private theorem strike (kept : ledger.Kept queue entities) {event : Event} {after : LaneQueue}
    (sound : after.Sound entities) (settings : queue.SameSettings after)
    (left : queue.events.Perm (event :: after.events)) (backed : after.Backed ledger.drained) :
    (ledger.strike (some event)).Kept after entities := by
  refine ⟨sound, settings.counts.trans kept.counted, backed, ?_⟩
  obtain ⟨moved, cross, asked, held⟩ := kept.held
  unfold Ledger.events at held
  rw [List.map_map] at held
  obtain ⟨owed, live, same⟩ := List.mem_map.mp
    (held.mem_iff.mp (left.mem_iff.mpr List.mem_cons_self))
  have named : owed.event.key = event.key := by
    rw [← same]
    exact (LaneQueue.arrive_key moved _).symm
  have struck := strike_perm kept.distinct live
  rw [named] at struck
  refine ⟨moved, cross, fun other member => asked other (List.mem_of_mem_eraseP member), ?_⟩
  have whole := left.symm.trans (held.trans (struck.map (arrive moved ∘ Held.event)))
  rw [List.map_cons, same] at whole
  change List.Perm _ ((List.map Held.event _).map _)
  rw [List.map_map]
  exact whole.cons_inv

private theorem forms (kept : ledger.Kept queue entities) :
    ∃ forms : Held → Event, (∀ held ∈ ledger.live, held.LeavesAs (forms held)) ∧
      queue.events.Perm (ledger.live.map forms) := by
  obtain ⟨moved, cross, asked, held⟩ := kept.held
  unfold Ledger.events at held
  rw [List.map_map] at held
  refine ⟨arrive moved ∘ Held.event, fun owed live => ?_, held⟩
  cases gone : moved owed.event with
  | true =>
      rw [Function.comp_apply, LaneQueue.arrive_of_moved gone]
      exact .moved (cross _ gone) (asked owed live gone)
  | false =>
      rw [Function.comp_apply, LaneQueue.arrive_of_waiting gone]
      exact .unchanged

private theorem drain (kept : ledger.Kept queue entities) :
    (ledger.record .drain (.drained queue.events)).Kept queue.drain.2 entities := by
  obtain ⟨sound, noEvents⟩ := kept.sound.toEquipped.drain
  refine ⟨sound, kept.counted, ?_, fun _ => false, (fun _ impossible => nomatch impossible),
    (fun _ impossible => nomatch impossible), ?_⟩
  · intro table credited dest sender count read
    have bound := kept.backed.drain table credited dest sender count read
    obtain ⟨moved, cross, _, held⟩ := kept.held
    have most := LaneQueue.arrivals_le_messages queue.events dest sender
    rw [LaneQueue.messages_perm held, messages_arrive cross] at most
    change count ≤ _ + (messages ledger.events dest sender + ledger.drained dest sender)
    rw [noEvents] at bound ⊢
    change count ≤ _ + (LaneQueue.arrivals queue.events dest sender +
      ledger.drained dest sender) at bound
    omega
  · rw [noEvents]
    exact .refl _

private theorem next (kept : ledger.Kept queue entities) (affordable : ledger.Affordable) :
    ∃ key? after, queue.next? = .ok (key?, after) ∧
      ledger.Explains .next (.next key?) ∧ ledger.ask.Kept after entities := by
  rcases kept.sound.next? with ⟨key?, after, seen, look⟩ | ⟨_, overdrawn⟩
  · obtain ⟨sound, settings, carried, backed⟩ := look.kept kept.sound
    have asked := kept.ask sound settings carried (backed _ kept.backed)
    refine ⟨key?, after, seen, ?_, asked⟩
    cases look with
    | nothing noEvents =>
        refine .nothing (List.eq_nil_of_length_eq_zero ?_)
        rw [← kept.length_eq, noEvents]
        rfl
    | next settles settled =>
        obtain ⟨owed, live, _, named⟩ := asked.owed settled.atFront.mem
        rw [← named]
        refine .next owed.event ?_
        rw [← ask_events]
        exact List.mem_map_of_mem live
  · exact absurd overdrawn (kept.not_overdrawn affordable)

private theorem pop (kept : ledger.Kept queue entities) (affordable : ledger.Affordable) :
    ∃ event? after, queue.pop = .ok (event?, after) ∧
      ledger.Explains .pop (.taken event?) ∧ (ledger.ask.strike event?).Kept after entities := by
  rcases kept.sound.pop with ⟨event?, after, taken, removal, sound, backed⟩ | ⟨_, overdrawn⟩
  · refine ⟨event?, after, taken, ?_⟩
    cases removal with
    | nothing noEvents =>
        refine ⟨.exhausted (List.eq_nil_of_length_eq_zero ?_), ?_⟩
        · rw [← kept.length_eq, noEvents]
          rfl
        · exact kept.ask kept.sound (.refl _) (.refl _ _) kept.backed
    | @next before _ lane front settles settled left settings =>
        have asked := kept.ask (settles.sound kept.sound) settles.settings
          (settles.carried kept.sound) (settles.backed kept.backed)
        refine ⟨?_, asked.strike sound settings left (backed _ kept.backed)⟩
        obtain ⟨owed, live, form, _⟩ := asked.owed settled.atFront.mem
        have member : owed.event ∈ ledger.events := by
          rw [← ask_events]
          exact List.mem_map_of_mem live
        have returned : front = if owed.event.crosses then delivered owed.event
            else owed.event := by
          cases form with
          | unchanged =>
              have stays := settled.stays
              rw [isCrossing_eq asked.counted] at stays
              exact (if_neg (by rw [stays]; exact Bool.false_ne_true)).symm
          | moved crosses => exact (if_pos crosses).symm
        rw [returned]
        exact .pop owed.event member
  · exact absurd overdrawn (kept.not_overdrawn affordable)

private theorem erase (kept : ledger.Kept queue entities) {key : EventKey}
    (permitted : ledger.Permits entities (.erase key)) :
    ∃ event? after, queue.erase key = .ok (event?, after) ∧
      ledger.Explains (.erase key) (.taken event?) ∧
      (ledger.strike event?).Kept after entities := by
  rcases permitted with ⟨event, live, rfl⟩ | absent
  · obtain ⟨present, member, sameUid⟩ := (kept.uid_iff event.key.uid).mpr ⟨event, live, rfl⟩
    obtain ⟨owed, owedLive, form, named⟩ := kept.owed member
    have same : owed.event = event := Event.eq_of_uid kept.distinct
      (List.mem_map_of_mem owedLive) live (by rw [named]; exact sameUid)
    obtain ⟨after, erased, sound, settings, left, backed⟩ := kept.sound.erase_live member
    rw [← named] at erased
    rw [← same]
    exact ⟨some present, after, erased, .erase owed owedLive present form,
      kept.strike sound settings left (backed _ kept.backed)⟩
  · refine ⟨none, queue, kept.sound.erase_absent fun event member same => ?_, .absent key absent,
      kept⟩
    obtain ⟨owed, live, named⟩ := (kept.uid_iff key.uid).mp ⟨event, member, same⟩
    exact absent owed live named

/-- A permitted operation succeeds, its answer is explained, and the invariant is kept. -/
theorem perform (kept : ledger.Kept queue entities) (operation : Operation)
    (permitted : ledger.Permits entities operation) :
    ∃ answer after, queue.perform operation = .ok (answer, after) ∧
      ledger.Explains operation answer ∧ (ledger.record operation answer).Kept after entities := by
  unfold LaneQueue.perform
  cases operation with
  | insert event =>
      obtain ⟨after, inserted, entered⟩ := kept.insert permitted.1 permitted.2.1 permitted.2.2
      refine ⟨_, after, ?_, .insert event, entered⟩
      simp only [inserted, bind, Except.bind]
      rfl
  | reinsert event =>
      obtain ⟨after, inserted, entered⟩ := kept.insert permitted.1 permitted.2.1 permitted.2.2
      refine ⟨_, after, ?_, .reinsert event, entered⟩
      simp only [inserted, bind, Except.bind]
      rfl
  | next =>
      obtain ⟨key?, after, seen, explained, asked⟩ := kept.next permitted
      refine ⟨.next key?, after, ?_, explained, asked⟩
      simp only [seen, bind, Except.bind]
      rfl
  | pop =>
      obtain ⟨event?, after, taken, explained, struck⟩ := kept.pop permitted
      refine ⟨.taken event?, after, ?_, explained, struck⟩
      simp only [taken, bind, Except.bind]
      rfl
  | erase key =>
      obtain ⟨event?, after, erased, explained, struck⟩ := kept.erase permitted
      refine ⟨.taken event?, after, ?_, explained, struck⟩
      simp only [erased, bind, Except.bind]
      rfl
  | drain =>
      obtain ⟨forms, each, all⟩ := kept.forms
      exact ⟨.drained queue.events, queue.drain.2, rfl, .drain forms each queue.events all,
        kept.drain⟩

end Ledger.Kept

/-! ### Every run -/

private theorem LaneQueue.Reaches.kept {start queue : LaneQueue} {entities : Nat} {ledger : Ledger}
    (reaches : start.Reaches entities ledger queue) (fresh : Ledger.empty.Kept start entities) :
    ledger.Kept queue entities := by
  induction reaches with
  | start => exact fresh
  | step operation _ permitted performed ih =>
      obtain ⟨answer, after, same, _, kept⟩ := ih.perform operation permitted
      rw [performed] at same
      cases same
      exact kept

/-- Under the credit rule no event is lost, returned twice or changed, except that a message
arrives: in every state that permitted operations reach, the queue holds as many events as it
owes, settling ends, and every permitted operation succeeds with an answer that the ledger
explains. -/
theorem LaneQueue.reaches_explained (configuration : Configuration)
    (valid : configuration.validate = .ok (.ok ()))
    (credits : configuration.strategies.localListsV2 = true) :
    ∃ start, LaneQueue.new configuration = .ok start ∧
      ∀ ledger queue, start.Reaches configuration.entities ledger queue →
        queue.size = ledger.live.length ∧ (queue.isEmpty = true ↔ ledger.live = []) ∧
        (ledger.Affordable → ∃ lane? settled,
          queue.settle = .ok (lane?, settled) ∧ queue.Settles lane? settled) ∧
        ∀ operation, ledger.Permits configuration.entities operation →
          ∃ answer after, queue.perform operation = .ok (answer, after) ∧
            ledger.Explains operation answer := by
  obtain ⟨start, built, sound, noEvents, _, _, _, _, _, counted, backed⟩ :=
    LaneQueue.new_sound (Configuration.accepted_of_validate valid)
  obtain ⟨table, present, _⟩ := counted credits
  refine ⟨start, built, fun ledger queue reaches => ?_⟩
  have kept := reaches.kept ⟨sound, by rw [present]; rfl, backed, fun _ => false,
    (fun _ impossible => nomatch impossible), (fun _ impossible => nomatch impossible),
    by rw [noEvents]; exact .refl _⟩
  refine ⟨kept.sound.size_eq.trans kept.length_eq, ?_, ?_, ?_⟩
  · rw [LaneQueue.isEmpty_iff, ← List.length_eq_zero_iff, kept.length_eq,
      List.length_eq_zero_iff]
  · intro affordable
    rcases kept.sound.settle with settles | ⟨_, overdrawn⟩
    · exact settles
    · exact absurd overdrawn (kept.not_overdrawn affordable)
  · intro operation permitted
    obtain ⟨answer, after, performed, explained, _⟩ := kept.perform operation permitted
    exact ⟨answer, after, performed, explained⟩

/-! ### Two entities and a message between them -/

def pairedConfiguration : Configuration where
  entities := 2
  latency := ⟨2, #[0, 5, 5, 0]⟩
  interfaces := []
  strategies := ⟨false, true, false, true, true⟩
  boundary := .sequenced
  exploration := .standard

def pairedMessage : Event :=
  ⟨⟨⟨10⟩, ⟨4⟩, .node ⟨1⟩⟩, .outgoing, .node ⟨0⟩, none⟩

namespace LaneQueue

def pairedQueue (sender dest : List Event) (outbound : List (EventKey × Nat)) (count : Nat) :
    LaneQueue :=
  let policy := ListPolicy.ofStrategies pairedConfiguration.strategies
  { lanes := [.empty policy, ⟨policy, sender.map .plain, 0, 0⟩, ⟨policy, dest.map .plain, 0, 0⟩]
    latency := pairedConfiguration.latency
    boundary := .sequenced
    credits := some ⟨[[], []], [[0, 0], [count, 0]]⟩
    outbound := [.empty, .empty, ⟨outbound⟩]
    deadlocks := 0
    conversions := count }

def pairedWaiting (count : Nat) : LaneQueue :=
  pairedQueue [pairedMessage] [] [(pairedMessage.key, 1)] count

def pairedArrived (count : Nat) : LaneQueue :=
  pairedQueue [] [delivered pairedMessage] [] count

/-- A message may be taken while the queue holds it, after the next event was asked for. -/
theorem reaches_explained_arrived :
    ∃ answer after, (pairedArrived 1).perform .pop = .ok (answer, after) ∧
      (Ledger.empty.enter pairedMessage).ask.Explains .pop answer := by
  obtain ⟨start, built, explained⟩ := LaneQueue.reaches_explained pairedConfiguration rfl rfl
  have affordable (ledger : Ledger) (few : ledger.live.length = 1)
      (none : ledger.drained = fun _ _ => 0) : ledger.Affordable := by
    intro dest sender
    have most : messages ledger.events dest sender ≤ ledger.events.length :=
      List.countP_le_length
    have one : ledger.events.length = 1 := (List.length_map _).trans few
    rw [none]
    exact Nat.lt_of_le_of_lt (one ▸ most) (by decide)
  cases built
  have inserted : (pairedQueue [] [] [] 0).perform (.insert pairedMessage) =
      .ok (.inserted (.ok pairedMessage.key), pairedWaiting 0) := rfl
  have seen : (pairedWaiting 0).perform .next =
      .ok (.next (some pairedMessage.key), pairedArrived 1) := rfl
  have permitted : Ledger.empty.Permits 2 (.insert pairedMessage) :=
    ⟨by decide, by decide, List.forall_mem_nil _⟩
  have waiting := Reaches.step (.insert pairedMessage) .start permitted inserted
  have arrived := Reaches.step .next waiting (affordable _ rfl rfl) seen
  exact (explained _ _ arrived).2.2.2 .pop (affordable _ rfl rfl)

private theorem settle_pairedWaiting (count : Nat) :
    (pairedWaiting count).settle = (do
      let queue ← ((pairedWaiting count).putLane 1
        (.empty (.ofStrategies pairedConfiguration.strategies))).convert pairedMessage
      queue.settleWithin 0) := rfl

private theorem convert_pairedWaiting (count : Nat) :
    ((pairedWaiting count).putLane 1
        (.empty (.ofStrategies pairedConfiguration.strategies))).convert pairedMessage =
      if count + 1 < CreditTable.countLimit then .ok (pairedArrived (count + 1))
      else .error .arithmeticOverflow := by
  change ((some <$> if count + 1 < CreditTable.countLimit then
    Except.ok (CreditTable.mk [[], []] [[0, 0], [count + 1, 0]])
    else Except.error Fault.arithmeticOverflow) >>= _) = _
  split <;> rfl

private theorem next?_pairedWaiting (count : Nat) :
    (pairedWaiting count).next? =
      if count + 1 < CreditTable.countLimit then
        .ok (some pairedMessage.key, pairedArrived (count + 1))
      else .error .arithmeticOverflow := by
  unfold LaneQueue.next?
  rw [settle_pairedWaiting, convert_pairedWaiting]
  split <;> rfl

private theorem laps (rounds count : Nat) (fits : count + rounds < CreditTable.countLimit)
    (rest : List Operation) :
    (pairedQueue [] [] [] count).performAll
        ((List.replicate rounds [.insert pairedMessage, .next, .drain]).flatten ++ rest) =
      (pairedQueue [] [] [] (count + rounds)).performAll rest := by
  induction rounds generalizing count with
  | zero => rfl
  | succ rounds ih =>
      rw [List.replicate_succ, List.flatten_cons, List.append_assoc]
      have inserted : (pairedQueue [] [] [] count).perform (.insert pairedMessage) =
          .ok (.inserted (.ok pairedMessage.key), pairedWaiting count) := rfl
      have seen : (pairedWaiting count).perform .next =
          .ok (.next (some pairedMessage.key), pairedArrived (count + 1)) := by
        unfold LaneQueue.perform
        simp only [next?_pairedWaiting, if_pos (show count + 1 < CreditTable.countLimit by omega)]
        rfl
      have emptied : (pairedArrived (count + 1)).perform .drain =
          .ok (.drained [delivered pairedMessage], pairedQueue [] [] [] (count + 1)) := rfl
      have next := ih (count + 1) (by omega)
      rw [Nat.add_assoc, Nat.add_comm 1] at next
      simp only [List.cons_append, List.nil_append, performAll, inserted, seen, emptied, bind,
        Except.bind]
      exact next

/-- A message that was seen and is then taken by its key has arrived; and messages that are
drained after they were seen use up the credit of their pair. -/
theorem seen_message_leaves_changed :
    pairedConfiguration.validate = .ok (.ok ()) ∧
    pairedConfiguration.strategies.localListsV2 = true ∧
    ∃ start, LaneQueue.new pairedConfiguration = .ok start ∧
      (∃ waiting seen after, start.insert pairedMessage = .ok waiting ∧
        waiting.next? = .ok (some pairedMessage.key, seen) ∧
        seen.erase pairedMessage.key = .ok (some (delivered pairedMessage), after)) ∧
      delivered pairedMessage ≠ pairedMessage ∧
      start.performAll ((List.replicate (CreditTable.countLimit - 1)
        [.insert pairedMessage, .next, .drain]).flatten ++ [.insert pairedMessage, .next]) =
          .error .arithmeticOverflow := by
  refine ⟨rfl, rfl, pairedQueue [] [] [] 0, rfl,
    ⟨pairedWaiting 0, pairedArrived 1, _, rfl, rfl, rfl⟩, by decide, ?_⟩
  rw [laps _ _ (by decide), Nat.zero_add]
  have inserted : (pairedQueue [] [] [] (CreditTable.countLimit - 1)).perform
      (.insert pairedMessage) = .ok (.inserted (.ok pairedMessage.key),
        pairedWaiting (CreditTable.countLimit - 1)) := rfl
  have fails : (pairedWaiting (CreditTable.countLimit - 1)).perform .next =
      .error .arithmeticOverflow := by
    unfold LaneQueue.perform
    simp only [next?_pairedWaiting, if_neg (show ¬ CreditTable.countLimit - 1 + 1 <
      CreditTable.countLimit by decide)]
    rfl
  simp only [performAll, inserted, fails, bind, Except.bind]

end LaneQueue

end EventKernel.Queue
