import EventKernel.Proofs.CreditLedger
import EventKernel.Proofs.ValidConfiguration

set_option autoImplicit false

/-! Building, filling and emptying a partitioned queue. None of these operations can fault
for events of known owners, and each changes the events held by exactly what it says. -/

namespace EventKernel.Queue.LaneQueue

variable {queue : LaneQueue} {entities : Nat} {drained : Nat → Nat → Nat}

theorem replicate_events (count : Nat) (policy : ListPolicy) :
    (List.replicate count (BarrierList.empty policy)).flatMap BarrierList.events = [] :=
  List.flatMap_eq_nil_iff.mpr fun _ member => List.eq_of_mem_replicate member ▸ rfl

/-- An accepted configuration gives a sound queue without events. -/
theorem new_sound {configuration : Configuration} (accepted : configuration.Accepted) :
    ∃ queue, new configuration = .ok queue ∧ queue.Sound configuration.entities ∧
      queue.events = [] ∧ queue.latency = configuration.latency ∧
      queue.boundary = configuration.boundary ∧ queue.conversions = 0 ∧ queue.deadlocks = 0 ∧
      (configuration.strategies.localListsV2 = false → queue.credits = none) ∧
      (configuration.strategies.localListsV2 = true → ∃ table,
        queue.credits = some table ∧
          CreditTable.new configuration.entities configuration.interfaces = .ok table) ∧
      queue.Backed fun _ _ => 0 := by
  obtain ⟨table, built, covers, blank⟩ :=
    CreditTable.new_covers accepted.interfaceRows accepted.neighboursKnown
  have sound : ∀ credits : Option CreditTable,
      (∀ table, credits = some table → table.Covers configuration.entities) →
      Sound {
        lanes := List.replicate (configuration.entities + 1)
          (.empty (.ofStrategies configuration.strategies))
        latency := configuration.latency
        boundary := configuration.boundary
        credits
        outbound := List.replicate (configuration.entities + 1) .empty
        deadlocks := 0
        conversions := 0 } configuration.entities := by
    intro credits credited
    have noEvents := replicate_events (configuration.entities + 1)
      (.ofStrategies configuration.strategies)
    refine { laneCount := List.length_replicate, indexCount := List.length_replicate,
             latencies := accepted.latencies, credited := credited, lists := ?_, housed := ?_,
             indexed := ?_, distinct := ?_, addressed := ?_ }
    · intro list member
      rw [List.eq_of_mem_replicate member]
      exact BarrierList.empty_sound _
    · intro lane list found event member
      rw [List.eq_of_mem_replicate (List.mem_of_getElem? found)] at member
      cases member
    · refine Indexed.of_none ?_ (fun index member => List.eq_of_mem_replicate member)
      intro event member
      unfold events at member
      rw [noEvents] at member
      cases member
    · unfold events
      rw [noEvents]
      exact List.nodup_nil
    · intro event member
      unfold events at member
      rw [noEvents] at member
      cases member
  have noEvents := replicate_events (configuration.entities + 1)
    (.ofStrategies configuration.strategies)
  unfold new
  cases rule : configuration.strategies.localListsV2 with
  | false =>
      refine ⟨_, rfl, sound none (fun _ some => nomatch some), noEvents, rfl, rfl, rfl, rfl,
        fun _ => rfl, (fun impossible => nomatch impossible),
        fun _ impossible => nomatch impossible⟩
  | true =>
      refine ⟨_, ?_, sound (some table) ?_, noEvents, rfl, rfl, rfl, rfl,
        (fun impossible => nomatch impossible), fun _ => ⟨table, rfl, built⟩, ?_⟩
      · rw [built]
        rfl
      · intro held same
        cases same
        exact covers
      · intro held same dest sender count read
        cases same
        rw [blank dest sender count read]
        exact Nat.zero_le _

theorem Sound.insert (sound : queue.Sound entities) (event : Event)
    (known : queue.Addressed entities event)
    (fresh : ∀ other ∈ queue.events, other.key.uid ≠ event.key.uid) :
    ∃ lanes outbound, queue.insert event = .ok { queue with lanes, outbound } ∧
      Sound { queue with lanes, outbound } entities ∧
      (events { queue with lanes, outbound }).Perm (event :: queue.events) := by
  have homeKnown : queue.homeLane event ≤ entities := by
    unfold homeLane
    split
    · rename_i crossing
      exact known.2 (isCrossing_iff.mp crossing).1
    · exact known.1
  obtain ⟨list, found⟩ := sound.lane_exists _ homeKnown
  refine ⟨queue.lanes.set (queue.homeLane event) (list.insert event), queue.enter event, ?_,
    sound.put event found known fresh⟩
  unfold LaneQueue.insert enter putLane
  simp only [found]
  split
  · rename_i crossing
    rw [if_pos (sound.laneCount.symm ▸ Nat.lt_succ_of_le known.1), homeLane_of_crossing crossing]
  · rfl

/-- Discounting credit touches nothing but the table, which stays backed without the event. -/
theorem Sound.consumeCredit (sound : queue.Sound entities) (event : Event)
    (known : queue.Addressed entities event) :
    ∃ credits, queue.consumeCredit event = .ok { queue with credits } ∧
      queue.SameSettings { queue with credits } ∧ Sound { queue with credits } entities ∧
      ∀ before drained, Backed before drained → before.credits = queue.credits →
        before.events.Perm (event :: queue.events) → Backed { queue with credits } drained := by
  have unchanged (notCounted : ∀ dest sender, queue.credits.isSome = true →
      (event.kind == .incoming && travels dest sender event) = false) :
      ∃ credits, (Except.ok queue : Except Fault LaneQueue) = .ok { queue with credits } ∧
        queue.SameSettings { queue with credits } ∧ Sound { queue with credits } entities ∧
        ∀ before drained, Backed before drained → before.credits = queue.credits →
          before.events.Perm (event :: queue.events) →
            Backed { queue with credits } drained := by
    refine ⟨queue.credits, rfl, .refl queue, sound, ?_⟩
    intro before drained backed same left table credited dest sender count read
    have held := backed table (same.trans credited) dest sender count read
    rw [arrivals_perm left, arrivals_cons, notCounted dest sender (by rw [credited]; rfl)] at held
    exact held
  unfold LaneQueue.consumeCredit
  split
  · rename_i dest sender table _ atDest fromSender credited
    have senderKnown := known.2 (by rw [credited]; rfl)
    have destKnown := known.1
    rw [fromSender] at senderKnown
    rw [atDest] at destKnown
    obtain ⟨count, read, consumed⟩ := (sound.credited table credited).consume
      dest.index sender.index destKnown senderKnown
    refine ⟨some (table.put dest.index sender.index (count - 1)), ?_,
      ⟨rfl, rfl, by rw [credited]; rfl⟩, ?_, ?_⟩
    · rw [consumed]
      rfl
    · apply sound.recount _ queue.deadlocks queue.conversions (by rw [credited]; rfl)
      intro held same
      cases same
      exact (sound.credited table credited).put _ _ _
    · intro before drained backed same left
      exact backed.consume (same.trans credited) atDest fromSender read left rfl
  · rename_i other
    apply unchanged
    intro dest sender counted
    obtain ⟨table, credited⟩ := Option.isSome_iff_exists.mp counted
    cases arrived : event.kind == .incoming && travels dest sender event with
    | false => rfl
    | true =>
        unfold travels at arrived
        simp only [Bool.and_eq_true, beq_iff_eq] at arrived
        obtain ⟨incoming, atDest, fromSender⟩ := arrived
        cases owner : event.key.context with
        | global => rw [owner] at atDest; cases atDest
        | node ownerId =>
            cases cause : event.prevContext with
            | global => rw [cause] at fromSender; cases fromSender
            | node causeId =>
                exact absurd credited (other ownerId causeId table incoming owner cause)

private theorem Sound.holder_of_crossing (sound : queue.Sound entities) {event : Event}
    (member : event ∈ queue.events) (crossing : queue.isCrossing event = true)
    {index : Outbound} (found : queue.outbound[laneOf event.key.context]? = some index) :
    index.holder? event.key = some (laneOf event.prevContext) := by
  obtain ⟨ordered, exactly⟩ := sound.indexed _ index found
  exact (Outbound.holder?_eq_some_iff ordered).mpr
    ((exactly _ _).mpr ⟨event, member, crossing, rfl, rfl, rfl⟩)

private theorem Sound.holder_none (sound : queue.Sound entities) {key : EventKey}
    {index : Outbound} (found : queue.outbound[laneOf key.context]? = some index)
    (noMessage : ∀ event ∈ queue.events, event.key = key → queue.isCrossing event = false) :
    index.holder? key = none := by
  obtain ⟨ordered, exactly⟩ := sound.indexed _ index found
  cases held : index.holder? key with
  | none => rfl
  | some sender =>
      obtain ⟨event, member, crossing, named, _⟩ :=
        (exactly key sender).mp ((Outbound.holder?_eq_some_iff ordered).mp held)
      rw [noMessage event member named] at crossing
      cases crossing

private theorem Sound.erase_from_home (sound : queue.Sound entities) {event : Event}
    (member : event ∈ queue.events) :
    ∃ list rest, queue.lanes[queue.homeLane event]? = some list ∧
      list.erase event.key.uid = .ok (some event, rest) ∧ rest.Sound ∧
      list.events.Perm (event :: rest.events) := by
  obtain ⟨list, found, held⟩ := sound.home_lane member
  rcases (sound.list_sound found).erase event.key.uid with
    ⟨taken, rest, erased, named, restSound, _, perm⟩ | ⟨_, absent⟩
  · have inQueue : taken ∈ queue.events := mem_events.mpr ⟨_, list, found,
      perm.mem_iff.mpr List.mem_cons_self⟩
    have same := sound.eq_of_uid inQueue member named
    rw [same] at erased perm
    exact ⟨list, rest, found, erased, restSound, perm⟩
  · exact absurd rfl (absent event held)

/-- The event with a key leaves, wherever it is held. -/
theorem Sound.erase_live (sound : queue.Sound entities) {event : Event}
    (member : event ∈ queue.events) :
    ∃ after, queue.erase event.key = .ok (some event, after) ∧ after.Sound entities ∧
      queue.SameSettings after ∧ queue.events.Perm (event :: after.events) ∧
      ∀ drained, queue.Backed drained → after.Backed drained := by
  have known := sound.addressed event member
  obtain ⟨list, rest, found, erased, restSound, taken⟩ := sound.erase_from_home member
  obtain ⟨takenSound, takenPerm⟩ := sound.take found restSound taken
  have destKnown : laneOf event.key.context < queue.outbound.length := by
    rw [sound.indexCount]
    exact Nat.lt_succ_of_le known.1
  have atDest := List.getElem?_eq_getElem destKnown
  unfold LaneQueue.erase
  simp only [atDest]
  cases crossing : queue.isCrossing event with
  | true =>
      rw [homeLane_of_crossing crossing] at found takenSound takenPerm
      have left : queue.leave event = queue.outbound.set (laneOf event.key.context)
          (queue.outbound[laneOf event.key.context].erase event.key) := by
        unfold leave
        rw [if_pos crossing, List.modify_eq_take_cons_drop destKnown,
          List.set_eq_take_append_cons_drop, if_pos destKnown]
      rw [left] at takenSound takenPerm
      rw [sound.holder_of_crossing member crossing atDest]
      refine ⟨_, ?_, takenSound, ⟨rfl, rfl, rfl⟩, takenPerm, ?_⟩
      · simp only [laneAt_of_found found, bind, Except.bind, erased]
        rfl
      · intro drained backed
        refine backed.more rfl fun dest sender => ?_
        have outgoing := (isCrossing_iff.mp crossing).2.1
        exact Nat.le_of_eq (by rw [arrivals_perm takenPerm, arrivals_cons_outgoing outgoing])
  | false =>
      rw [homeLane_of_not_crossing crossing] at found takenSound takenPerm
      have left : queue.leave event = queue.outbound :=
        if_neg (by rw [crossing]; exact Bool.false_ne_true)
      rw [left] at takenSound takenPerm
      obtain ⟨credits, consumed, same, consumedSound, backed⟩ :=
        takenSound.consumeCredit event known
      refine ⟨{ queue with
          lanes := queue.lanes.set (laneOf event.key.context) rest, credits }, ?_,
        consumedSound, ⟨rfl, rfl, same.interfaces⟩, takenPerm,
        fun drained before => backed queue drained before rfl takenPerm⟩
      rw [sound.holder_none atDest (fun other present named => by
        rw [sound.eq_of_uid present member (congrArg EventKey.uid named)]
        exact crossing)]
      simp only [found, bind, Except.bind, erased, putLane]
      rw [consumed]
      rfl

theorem Sound.erase_absent (sound : queue.Sound entities) {key : EventKey}
    (absent : ∀ event ∈ queue.events, event.key.uid ≠ key.uid) :
    queue.erase key = .ok (none, queue) := by
  unfold LaneQueue.erase
  cases atDest : queue.outbound[laneOf key.context]? with
  | none => simp only [atDest]
  | some index =>
      simp only [atDest]
      rw [sound.holder_none atDest (fun event member named =>
        absurd (congrArg EventKey.uid named) (absent event member))]
      simp only
      cases found : queue.lanes[laneOf key.context]? with
      | none => rfl
      | some list =>
          rcases (sound.list_sound found).erase key.uid with
            ⟨taken, rest, _, named, _, _, perm⟩ | ⟨erased, _⟩
          · exact absurd named (absent taken (mem_events.mpr ⟨_, list, found,
              perm.mem_iff.mpr List.mem_cons_self⟩))
          · simp only [bind, Except.bind, erased, putLane, pure, Except.pure]
            obtain ⟨within, same⟩ := List.getElem?_eq_some_iff.mp found
            rw [← same, List.set_getElem_self within]

theorem Backed.drain (backed : queue.Backed drained) : queue.drain.2.Backed
    fun dest sender => arrivals queue.events dest sender + drained dest sender := by
  intro table credited dest sender count read
  exact Nat.le_add_left_of_le (backed table credited dest sender count read)

/-- Draining hands out every event, whatever was held, and keeps the counts of credit. -/
theorem Equipped.drain (equipped : queue.Equipped entities) :
    Sound queue.drain.2 entities ∧ queue.drain.2.events = [] := by
  have noEvents := events_drained queue
  refine ⟨{ laneCount := ?_, indexCount := ?_, latencies := equipped.latencies,
            credited := equipped.credited, lists := ?_, housed := ?_, indexed := ?_,
            distinct := ?_, addressed := ?_ }, noEvents⟩
  · exact (List.length_map _).trans equipped.laneCount
  · exact (List.length_map _).trans equipped.indexCount
  · intro list member
    obtain ⟨before, _, same⟩ := List.mem_map.mp member
    rw [← same]
    exact BarrierList.empty_sound _
  · intro lane list found event member
    obtain ⟨before, _, same⟩ := List.mem_map.mp (List.mem_of_getElem? found)
    rw [← same] at member
    cases member
  · rw [noEvents]
    apply Indexed.of_none (List.forall_mem_nil _)
    intro index member
    obtain ⟨before, _, same⟩ := List.mem_map.mp member
    exact same.symm
  · rw [noEvents]
    exact List.nodup_nil
  · rw [noEvents]
    exact List.forall_mem_nil _

theorem size_eq_of_lists (lists : ∀ list ∈ queue.lanes, list.Sound) :
    queue.size = queue.events.length := by
  unfold size events
  generalize queue.lanes = lanes at lists
  induction lanes with
  | nil => rfl
  | cons list rest ih =>
      rw [List.foldr_cons, List.flatMap_cons, List.length_append,
        ih (fun other member => lists other (List.mem_cons_of_mem _ member)),
        (lists list List.mem_cons_self).size_eq]

theorem Sound.size_eq (sound : queue.Sound entities) : queue.size = queue.events.length :=
  size_eq_of_lists sound.lists

theorem isEmpty_iff : queue.isEmpty = true ↔ queue.events = [] := by
  unfold isEmpty events
  rw [List.all_eq_true, List.flatMap_eq_nil_iff]
  constructor
  · exact fun empty list member => BarrierList.isEmpty_iff.mp (empty list member)
  · exact fun empty list member => BarrierList.isEmpty_iff.mpr (empty list member)

end EventKernel.Queue.LaneQueue
