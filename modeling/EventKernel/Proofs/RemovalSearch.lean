import EventKernel.Proofs.CancelledBarriers
import EventKernel.Proofs.StrayEntries
import EventKernel.Proofs.UnknownSenders

set_option autoImplicit false

/-! Where a removal looks for an event. A key has an instant, a serial number and an owner. A single
list is searched for the serial number alone. In lanes the owner tells which lane is searched,
unless the index lists the whole key; then it is the lane of the sender. So a removal finds the
event that has exactly its key, but also an event that it mistakes for it: one with the same serial
number that is held by the entity which the key gives as the owner, or by whatever entity in a
single list.

Whatever is found, nothing else leaves. Only a waiting message that is taken by mistake upsets the
index, for its entry stays. -/

namespace EventKernel.Queue

private theorem nodup_liveAfter {live : List EventKey} (distinct : (live.map EventKey.uid).Nodup)
    {operation : Operation} (fresh : operation.Fresh live) {answer : Answer} :
    ((liveAfter live operation answer).map EventKey.uid).Nodup := by
  have entered {event : Event} (new : ∀ key ∈ live, key.uid ≠ event.key.uid) :
      ((event.key :: live).map EventKey.uid).Nodup := by
    refine List.nodup_cons.mpr ⟨fun member => ?_, distinct⟩
    obtain ⟨key, held, same⟩ := List.mem_map.mp member
    exact new key held same
  cases operation with
  | insert event => exact entered fresh
  | reinsert event => exact entered fresh
  | drain => exact List.nodup_nil
  | next | pop | erase _ =>
      cases answer with
      | taken event? =>
          cases event? with
          | none => exact distinct
          | some event => exact distinct.sublist (List.erase_sublist.map EventKey.uid)
      | inserted | reinserted | next | drained => exact distinct

/-! ### One list -/

/-- An event that is put in has a serial number that no other has, so no two ever share one. -/
theorem BarrierList.Sound.perform_distinct {list rest : BarrierList} (sound : list.Sound)
    (distinct : (list.events.map fun event => event.key.uid).Nodup) {operation : Operation}
    (fresh : operation.Fresh (list.events.map Event.key)) {answer : Answer}
    (performed : list.perform operation = .ok (answer, rest)) :
    (rest.events.map fun event => event.key.uid).Nodup := by
  have before : ((list.events.map Event.key).map EventKey.uid).Nodup := by
    rw [List.map_map]
    exact distinct
  have after := ((sound.perform_keys distinct performed).map EventKey.uid).nodup_iff.mpr
    (nodup_liveAfter before fresh)
  rw [List.map_map] at after
  exact after

/-- What the removal by a serial number does to one list. -/
structure BarrierList.Erasure (list : BarrierList) (uid : EventUid) (event? : Option Event)
    (rest : BarrierList) : Prop where
  sound : rest.Sound
  left : list.events.Perm (event?.toList ++ rest.events)
  found : ∀ event, event? = some event ↔ event ∈ list.events ∧ event.key.uid = uid
  unchanged : event? = none → rest = list

private theorem BarrierList.Sound.erasure {list rest : BarrierList} (sound : list.Sound)
    (distinct : (list.events.map fun event => event.key.uid).Nodup) {uid : EventUid}
    {event? : Option Event} (erased : list.erase uid = .ok (event?, rest)) :
    list.Erasure uid event? rest := by
  rcases sound.erase uid with ⟨taken, _, took, named, restSound, _, left⟩ | ⟨took, absent⟩
  · cases took.symm.trans erased
    have held := left.mem_iff.mpr List.mem_cons_self
    refine ⟨restSound, left, fun event => ⟨?_, ?_⟩, fun nothing => ?_⟩
    · intro same
      cases same
      exact ⟨held, named⟩
    · rintro ⟨member, same⟩
      rw [Event.eq_of_uid distinct held member (named.trans same.symm)]
    · cases nothing
  · cases took.symm.trans erased
    refine ⟨sound, .refl _, fun event => ⟨?_, ?_⟩, fun _ => rfl⟩
    · intro impossible
      cases impossible
    · rintro ⟨member, same⟩
      exact absurd same (absent event member)

/-! ### Cells of credit -/

namespace CreditTable

variable {table : CreditTable} {dest sender count other source : Nat}

private theorem credit_put_self {held : Nat} (read : table.credit dest sender = .ok held) :
    (table.put dest sender count).credit dest sender = .ok count := by
  obtain ⟨row, found, cell⟩ := credit_eq_ok_iff.mp read
  refine credit_eq_ok_iff.mpr ⟨row.set sender count, ?_, ?_⟩
  · unfold put
    simp only [List.getElem?_modify, found, Option.map_eq_map, Option.map_some, if_pos]
  · exact List.getElem?_set_self (List.getElem?_eq_some_iff.mp cell).1

private theorem credit_put_of_ne (elsewhere : ¬ (other = dest ∧ source = sender)) :
    (table.put dest sender count).credit other source = table.credit other source := by
  unfold credit put
  simp only [List.getElem?_modify, Option.bind_eq_bind, Option.map_eq_map]
  cases table.inbound[other]? with
  | none => rfl
  | some row =>
      by_cases here : dest = other
      · have apart : sender ≠ source := fun same => elsewhere ⟨here.symm, same.symm⟩
        simp only [if_pos here, Option.map_some, Option.bind_some, List.getElem?_set_ne apart]
      · simp only [if_neg here, Option.map_some, Option.bind_some]

end CreditTable

/-! ### Lanes -/

namespace LaneQueue

variable {queue after : LaneQueue} {key : EventKey} {event : Event} {event? : Option Event}
  {astray : List EventKey} {entities : Nat}

/-- The entity in whose lane an event is held: the sender of a message that waits, or the owner. -/
def keeper (queue : LaneQueue) (event : Event) : Context :=
  if queue.isCrossing event then event.prevContext else event.key.context

/-- The lane in which a removal looks. -/
def searched (queue : LaneQueue) (key : EventKey) : Nat :=
  (queue.outbound[laneOf key.context]?.bind (·.holder? key)).getD (laneOf key.context)

private theorem homeLane_eq_keeper (queue : LaneQueue) (event : Event) :
    queue.homeLane event = laneOf (queue.keeper event) := by
  unfold homeLane keeper
  split
  · rfl
  · rfl

private theorem Charted.list_search (charted : queue.Charted) {lane : Nat} {uid : EventUid}
    {list rest : BarrierList} (found : queue.lanes[lane]? = some list)
    (erased : list.erase uid = .ok (event?, rest)) (event : Event) :
    event? = some event ↔
      event ∈ queue.events ∧ event.key.uid = uid ∧ queue.homeLane event = lane := by
  have erasure := (charted.list_sound found).erasure (distinct_at found charted.distinct) erased
  rw [erasure.found, charted.mem_list_iff found]
  exact and_right_comm.trans and_assoc

private theorem Charted.home_exists (charted : queue.Charted) {lane : Nat}
    (missing : queue.lanes[lane]? = none) (member : event ∈ queue.events) :
    queue.homeLane event ≠ lane := by
  rintro rfl
  obtain ⟨list, found, _⟩ := charted.home_lane member
  cases missing.symm.trans found

/-- A removal finds the event with its serial number, if that is held in the lane that is
searched. -/
theorem Charted.erase_finds (charted : queue.Charted)
    (erased : queue.erase key = .ok (event?, after)) (event : Event) :
    event? = some event ↔ event ∈ queue.events ∧ event.key.uid = key.uid ∧
      queue.homeLane event = queue.searched key := by
  have nowhere {lane : Nat} (missing : queue.lanes[lane]? = none) : (none : Option Event) =
      some event ↔ event ∈ queue.events ∧ event.key.uid = key.uid ∧
        queue.homeLane event = lane := by
    constructor
    · intro impossible
      cases impossible
    · rintro ⟨member, _, home⟩
      exact absurd home (charted.home_exists missing member)
  unfold searched
  unfold LaneQueue.erase at erased
  simp only at erased
  split at erased
  · rename_i absent
    cases erased
    rw [absent]
    refine nowhere (List.getElem?_eq_none ?_)
    rw [← charted.indexCount]
    exact List.getElem?_eq_none_iff.mp absent
  · rename_i index atDest
    rw [atDest, Option.bind_some]
    split at erased
    · rename_i sender holder
      obtain ⟨list, read, erased⟩ := bind_eq_ok erased
      obtain ⟨⟨taken?, rest⟩, removed, erased⟩ := bind_eq_ok erased
      cases erased
      rw [holder]
      exact charted.list_search (found_of_laneAt read) removed event
    · rename_i holder
      rw [holder]
      split at erased
      · rename_i missing
        cases erased
        exact nowhere missing
      · rename_i list found
        obtain ⟨⟨taken?, rest⟩, removed, erased⟩ := bind_eq_ok erased
        have search := charted.list_search found removed event
        cases taken? with
        | none =>
            cases erased
            exact search
        | some taken =>
            obtain ⟨last, _, returned⟩ := bind_eq_ok erased
            cases returned
            exact search

private theorem Tracks.waiting (tracks : queue.Tracks astray) (known : key ∉ astray) {dest : Nat}
    {index : Outbound} (atDest : queue.outbound[dest]? = some index) {sender : Nat}
    (entry : (key, sender) ∈ index.parcels) :
    ∃ event ∈ queue.events, queue.isCrossing event = true ∧ event.key = key :=
  (tracks _ _ atDest _ entry).resolve_left known

section

variable (charted : queue.Charted) (tracks : queue.Tracks astray) (known : key ∉ astray)

include charted

private theorem Charted.searched_of_crossing (member : event ∈ queue.events)
    (crossing : queue.isCrossing event = true) :
    queue.searched event.key = laneOf event.prevContext := by
  obtain ⟨index, atDest, entry⟩ := charted.entered.listed event member crossing
  have holder := (Outbound.holder?_eq_some_iff (charted.entered.ordered _ _ atDest).1).mpr entry
  unfold searched
  rw [atDest, Option.bind_some, holder]
  rfl

include tracks known

private theorem Charted.searched_of_unheld
    (unheld : ∀ event ∈ queue.events, queue.isCrossing event = true → event.key ≠ key) :
    queue.searched key = laneOf key.context := by
  unfold searched
  cases atDest : queue.outbound[laneOf key.context]? with
  | none => rfl
  | some index =>
      rw [Option.bind_some]
      cases holder : index.holder? key with
      | none => rfl
      | some sender =>
          have entry :=
            (Outbound.holder?_eq_some_iff (charted.entered.ordered _ _ atDest).1).mp holder
          obtain ⟨event, member, crossing, own⟩ := tracks.waiting known atDest entry
          exact absurd own (unheld event member crossing)

/-- An event is found by its own key; and by another one if it has the serial number and is held by
the entity that the key gives. -/
theorem Charted.found_iff (member : event ∈ queue.events) :
    (event.key.uid = key.uid ∧ queue.homeLane event = queue.searched key) ↔
      event.key = key ∨
        event.key ≠ key ∧ event.key.uid = key.uid ∧ queue.keeper event = key.context := by
  by_cases own : event.key = key
  · refine ⟨fun _ => .inl own, fun _ => ⟨by rw [own], ?_⟩⟩
    cases crossing : queue.isCrossing event with
    | true =>
        rw [← own, charted.searched_of_crossing member crossing, homeLane_of_crossing crossing]
    | false =>
        rw [homeLane_of_not_crossing crossing, own]
        refine (charted.searched_of_unheld tracks known fun other present waits named => ?_).symm
        have same := charted.eq_of_uid present member (by rw [named, own])
        rw [same, crossing] at waits
        cases waits
  · have searched (named : event.key.uid = key.uid) :
        queue.searched key = laneOf key.context := by
      refine charted.searched_of_unheld tracks known fun other present _ same => own ?_
      rw [charted.eq_of_uid member present (by rw [named, same]), same]
    rw [homeLane_eq_keeper]
    constructor
    · rintro ⟨named, home⟩
      rw [searched named] at home
      exact .inr ⟨own, named, laneOf_injective home⟩
    · rintro (same | ⟨_, named, held⟩)
      · exact absurd same own
      · rw [searched named, held]
        exact ⟨named, rfl⟩

end

/-! ### What a removal leaves -/

/-- An event that leaves gives back the credit that it holds, and no other cell changes. -/
theorem consumeCredit_credit? (consumed : queue.consumeCredit event = .ok after)
    (dest sender : Nat) : after.credit? dest sender =
      (queue.credit? dest sender).map (· - arrivals [event] dest sender) := by
  unfold LaneQueue.credit?
  cases credited : queue.credits with
  | none =>
      obtain ⟨credits, recounts, rfl⟩ := consumeCredit_eq_ok consumed
      rw [credited] at recounts
      cases recounts
      rfl
  | some table =>
      rw [Option.bind_some, arrivals_cons]
      change _ = Option.map (fun count => count - (0 + _)) _
      rw [Nat.zero_add]
      rcases consumeCredit_counts consumed credited with
        ⟨place, source, count, arrived, travelled, read, rfl⟩ | ⟨rfl, uncounted⟩
      · rw [arrived, BEq.rfl, Bool.true_and, Option.bind_some]
        by_cases here : dest = place ∧ sender = source
        · obtain ⟨rfl, rfl⟩ := here
          rw [travelled, CreditTable.credit_put_self read, read]
          rfl
        · have elsewhere : travels dest sender event = false :=
            Bool.eq_false_iff.mpr fun also => here (travels_unique also travelled)
          rw [elsewhere, CreditTable.credit_put_of_ne here]
          cases (table.credit dest sender).toOption with
          | none | some => rfl
      · rw [uncounted, credited, Option.bind_some]
        cases (table.credit dest sender).toOption with
        | none | some => rfl

private theorem modify_erase_unlisted {outbound : List Outbound} {dest : Nat}
    (unlisted : ∀ index, outbound[dest]? = some index → ∀ parcel ∈ index.parcels,
      parcel.1 ≠ key) : outbound.modify dest (·.erase key) = outbound := by
  refine List.ext_getElem? fun place => ?_
  rw [List.getElem?_modify]
  cases found : outbound[place]? with
  | none => rfl
  | some index =>
      rw [Option.map_eq_map, Option.map_some]
      split
      · rename_i here
        rw [← here] at found
        refine congrArg some (congrArg Outbound.mk (List.eraseP_of_forall_not ?_))
        intro parcel member
        rw [beq_iff_eq]
        exact unlisted index found parcel member
      · rfl

namespace Removing

variable (removing : queue.Removing key event? after)

include removing

private theorem unchanged (tracks : queue.Tracks astray) (known : key ∉ astray)
    (nothing : event? = none) :
    after = queue := by
  cases removing with
  | nothing => rfl
  | stale unheld =>
      rw [modify_erase_unlisted]
      intro index atDest parcel member own
      rcases tracks _ _ atDest parcel member with lost | ⟨event, held, crossing, same⟩
      · exact known (own ▸ lost)
      · exact unheld event held crossing (same.trans own)
  | listed => cases nothing
  | owned => cases nothing

/-- The index never leads to an event that holds credit, so the credit of what leaves is given
back. -/
theorem credit? (charted : queue.Charted) (tracks : queue.Tracks astray) (known : key ∉ astray)
    (dest sender : Nat) : after.credit? dest sender =
      (queue.credit? dest sender).map (· - arrivals event?.toList dest sender) := by
  have kept : queue.credit? dest sender = (queue.credit? dest sender).map (· - 0) := by
    cases queue.credit? dest sender with
    | none | some => rfl
  cases removing with
  | nothing => exact kept
  | stale => exact kept
  | @listed _ _ _ _ event atDest entry found restSound named taken =>
      obtain ⟨held, present, crossing, own⟩ := tracks.waiting known atDest entry
      have member := (charted.take found restSound taken).2.mem_iff.mpr List.mem_cons_self
      rw [charted.eq_of_uid present member (by rw [own, named])] at crossing
      rw [Option.toList_some, arrivals_cons_outgoing (isCrossing_iff.mp crossing).2.1]
      exact kept
  | owned _ _ _ _ _ consumed => exact consumeCredit_credit? consumed dest sender

/-- If nothing but messages that are held is listed afterwards, no message was taken by mistake. -/
theorem stranded_eq_nil (charted : queue.Charted) (tracks : queue.Tracks [])
    (sound : after.Sound entities) : queue.stranded key event? = [] := by
  have left := removing.left charted
  apply List.eq_nil_iff_forall_not_mem.mpr
  intro entry member
  obtain ⟨event, took, crossing, other, _⟩ := mem_stranded.mp member
  cases removing with
  | nothing => cases took
  | stale => cases took
  | listed atDest entry found restSound named taken =>
      cases took
      obtain ⟨held, present, _, own⟩ := tracks.waiting List.not_mem_nil atDest entry
      have found := left.mem_iff.mpr (List.mem_append_left _ (List.mem_singleton_self event))
      rw [charted.eq_of_uid present found (by rw [own, named])] at own
      exact other own
  | owned _ _ _ _ _ consumed =>
      cases took
      obtain ⟨index, atDest, listed⟩ := charted.entered.listed event
        (left.mem_iff.mpr (List.mem_append_left _ (List.mem_singleton_self event))) crossing
      obtain ⟨credits, _, rfl⟩ := consumeCredit_eq_ok consumed
      obtain ⟨_, exactly⟩ := sound.indexed _ index atDest
      obtain ⟨held, present, _, own, _⟩ := (exactly _ _).mp listed
      exact apart_of_taken charted.distinct left held present (by rw [own])

end Removing

theorem Charted.indexed (charted : queue.Charted) (tracks : queue.Tracks []) :
    Indexed queue.isCrossing queue.events queue.outbound := by
  intro dest index found
  obtain ⟨ordered, addressees⟩ := charted.entered.ordered dest index found
  refine ⟨ordered, fun key sender => ⟨fun entry => ?_, ?_⟩⟩
  · have owner := addressees _ entry
    change laneOf key.context = dest at owner
    rw [← owner] at found
    obtain ⟨event, held, crossing, own⟩ := tracks.waiting List.not_mem_nil found entry
    obtain ⟨other, atDest, listed⟩ := charted.entered.listed event held crossing
    rw [own, found] at atDest
    cases atDest
    rw [own] at listed
    exact ⟨event, held, crossing, own, owner,
      congrArg Prod.snd (ordered.eq_of_key listed entry rfl)⟩
  · rintro ⟨event, held, crossing, rfl, rfl, rfl⟩
    obtain ⟨other, atDest, listed⟩ := charted.entered.listed event held crossing
    cases found.symm.trans atDest
    exact listed

theorem Serviceable.sound (serviceable : queue.Serviceable entities) (tracks : queue.Tracks [])
    (addressed : ∀ event ∈ queue.events, queue.Addressed entities event) :
    queue.Sound entities where
  toEquipped := serviceable.equipped
  lists := serviceable.charted.lists
  housed := serviceable.charted.housed
  indexed := serviceable.charted.indexed tracks
  distinct := serviceable.charted.distinct
  addressed := addressed

end LaneQueue

/-! ### Layouts -/

namespace Layout

/-- An event that a removal comes upon: its serial number is that of the key, and it is held where
the removal looks. -/
def Finds (layout : Layout) (key : EventKey) (event : Event) : Prop :=
  event.key.uid = key.uid ∧
    match layout with
    | single _ => True
    | partitioned lanes => lanes.homeLane event = lanes.searched key

/-- An event that is taken though the key is not its own: its serial number is that of the key, and
in lanes it is held by the entity that the key gives. -/
def Mistakes (layout : Layout) (key : EventKey) (event : Event) : Prop :=
  event.key ≠ key ∧ event.key.uid = key.uid ∧
    match layout with
    | single _ => True
    | partitioned lanes => lanes.keeper event = key.context

/-- The credit that an entity holds from another, where credit is counted. -/
def credit? (layout : Layout) (dest sender : Nat) : Option Nat :=
  match layout with
  | single _ => none
  | partitioned lanes => lanes.credit? dest sender

/-- The key of a waiting message that was taken under another key. -/
def stranded (layout : Layout) (key : EventKey) (event? : Option Event) : List EventKey :=
  match layout with
  | single _ => []
  | partitioned lanes => lanes.stranded key event?

/-- The key of a waiting message that an operation took under another key. -/
def strandedBy (layout : Layout) (operation : Operation) (answer : Answer) : List EventKey :=
  match layout with
  | single _ => []
  | partitioned lanes => lanes.strandedBy operation answer

def Indexed (layout : Layout) (astray : List EventKey) : Prop :=
  match layout with
  | single list => (list.events.map fun event => event.key.uid).Nodup
  | partitioned lanes => lanes.Tracks astray

structure Tracked (layout : Layout) (entities : Nat) (astray : List EventKey) : Prop where
  serviceable : layout.Serviceable entities
  counted : ∃ entered, layout.Counted entities entered
  indexed : layout.Indexed astray

/-- What any removal comes to. -/
structure Erasure (layout : Layout) (key : EventKey) (event? : Option Event) (after : Layout) :
    Prop where
  found : ∀ event, event? = some event ↔ event ∈ layout.events ∧ layout.Finds key event
  left : layout.events.Perm (event?.toList ++ after.events)

/-- What a removal comes to that no stale entry leads away. -/
structure GuidedErasure (layout : Layout) (key : EventKey) (event? : Option Event)
    (after : Layout) : Prop where
  found : ∀ event ∈ layout.events,
    layout.Finds key event ↔ event.key = key ∨ layout.Mistakes key event
  unchanged : event? = none → after = layout
  credit : ∀ dest sender, after.credit? dest sender =
    (layout.credit? dest sender).map (· - LaneQueue.arrivals event?.toList dest sender)

variable {layout after : Layout} {entities : Nat} {astray : List EventKey}

theorem stranded_of_uncounted (plain : layout.counts = false) (key : EventKey)
    (event? : Option Event) : layout.stranded key event? = [] := by
  cases layout with
  | single list => rfl
  | partitioned lanes =>
      apply List.eq_nil_iff_forall_not_mem.mpr
      intro entry member
      obtain ⟨event, _, crossing, _⟩ := LaneQueue.mem_stranded.mp member
      have counted : lanes.credits.isSome = true := (LaneQueue.isCrossing_iff.mp crossing).1
      rw [show lanes.credits.isSome = false from plain] at counted
      cases counted

theorem strandedBy_of_uncounted (plain : layout.counts = false) (operation : Operation)
    (answer : Answer) : layout.strandedBy operation answer = [] := by
  cases layout with
  | single list => rfl
  | partitioned lanes =>
      change lanes.strandedBy operation answer = []
      unfold LaneQueue.strandedBy
      split
      · exact stranded_of_uncounted plain _ _
      · rfl

theorem new_tracked {configuration : Configuration} (accepted : configuration.Accepted)
    (built : new configuration = .ok layout) : layout.Tracked configuration.entities [] := by
  obtain ⟨_, made, sound, _⟩ := new_sound accepted
  cases made.symm.trans built
  refine ⟨new_serviceable accepted built, ⟨0, new_counted accepted built⟩, ?_⟩
  cases layout with
  | single list => exact sound.2
  | partitioned lanes => exact LaneQueue.Sound.tracks sound

namespace Tracked

variable (tracked : layout.Tracked entities astray)

include tracked

theorem perform {operation : Operation} (fresh : operation.Fresh (layout.events.map Event.key))
    {answer : Answer} (performed : layout.perform operation = .ok (answer, after)) :
    after.Tracked entities (layout.strandedBy operation answer ++ astray) := by
  obtain ⟨serviceable, ⟨entered, counted⟩, indexed⟩ := tracked
  refine ⟨serviceable.perform fresh performed,
    ⟨_, counted.perform serviceable fresh performed⟩, ?_⟩
  cases layout with
  | single list =>
      rw [events_single] at fresh
      obtain ⟨⟨_, rest⟩, done, same⟩ := map_eq_ok performed
      cases same
      exact BarrierList.Sound.perform_distinct serviceable indexed fresh done
  | partitioned lanes =>
      obtain ⟨⟨_, rest⟩, done, same⟩ := map_eq_ok performed
      cases same
      have serviceable : lanes.Serviceable entities := serviceable
      exact serviceable.charted.perform_tracks indexed fresh done

/-- A removal returns if the senders of all events are known. -/
theorem erase_returns
    (known : layout.counts = true → ∀ event ∈ layout.events, event.prevContext.Known entities)
    (key : EventKey) : ∃ event? after, layout.erase key = .ok (event?, after) := by
  cases layout with
  | single list =>
      have sound : list.Sound := tracked.serviceable
      rcases sound.erase key.uid with ⟨event, rest, erased, _⟩ | ⟨erased, _⟩
      · refine ⟨some event, single rest, ?_⟩
        unfold Layout.erase
        simp only [erased]
        rfl
      · refine ⟨none, single list, ?_⟩
        unfold Layout.erase
        simp only [erased]
        rfl
  | partitioned lanes =>
      have serviceable : lanes.Serviceable entities := tracked.serviceable
      obtain ⟨entered, counted⟩ := tracked.counted
      have counted : lanes.Counted entities entered := counted
      rcases serviceable.erase_outcome counted.senders key with
        ⟨counts, ⟨event, member, stranger, _⟩, _⟩ | ⟨_, ⟨event?, rest⟩, erased⟩
      · exact absurd (known counts event member) stranger.2.2
      · refine ⟨event?, partitioned rest, ?_⟩
        unfold Layout.erase
        simp only [erased]
        rfl

variable {key : EventKey} {event? : Option Event}

theorem erasure (erased : layout.erase key = .ok (event?, after)) :
    layout.Erasure key event? after := by
  cases layout with
  | single list =>
      have sound : list.Sound := tracked.serviceable
      obtain ⟨⟨_, rest⟩, removed, same⟩ := map_eq_ok erased
      cases same
      have erasure := sound.erasure tracked.indexed removed
      refine ⟨fun event => ?_, ?_⟩
      · rw [events_single, erasure.found]
        exact and_congr_right fun _ => (and_true _).symm.to_iff
      · rw [events_single, events_single]
        exact erasure.left
  | partitioned lanes =>
      have serviceable : lanes.Serviceable entities := tracked.serviceable
      obtain ⟨⟨_, rest⟩, removed, same⟩ := map_eq_ok erased
      cases same
      exact ⟨serviceable.charted.erase_finds removed,
        (serviceable.charted.removing removed).left serviceable.charted⟩

theorem guidedErasure (known : key ∉ astray) (erased : layout.erase key = .ok (event?, after)) :
    layout.GuidedErasure key event? after := by
  cases layout with
  | single list =>
      have sound : list.Sound := tracked.serviceable
      obtain ⟨⟨_, rest⟩, removed, same⟩ := map_eq_ok erased
      cases same
      refine ⟨fun event _ => ⟨fun found => ?_, ?_⟩, ?_, fun _ _ => rfl⟩
      · by_cases own : event.key = key
        · exact .inl own
        · exact .inr ⟨own, found⟩
      · rintro (own | ⟨_, found⟩)
        · exact ⟨by rw [own], trivial⟩
        · exact found
      · intro nothing
        rw [(sound.erasure tracked.indexed removed).unchanged nothing]
  | partitioned lanes =>
      have serviceable : lanes.Serviceable entities := tracked.serviceable
      have tracks : lanes.Tracks astray := tracked.indexed
      obtain ⟨⟨_, rest⟩, removed, same⟩ := map_eq_ok erased
      cases same
      have removing := serviceable.charted.removing removed
      refine ⟨fun event member => serviceable.charted.found_iff tracks known member, ?_,
        removing.credit? serviceable.charted tracks known⟩
      intro nothing
      rw [removing.unchanged tracks known nothing]

end Tracked

/-- What is listed is in order after a removal, unless it took a waiting message by mistake. -/
theorem Tracked.sound_iff (tracked : layout.Tracked entities [])
    (known : layout.counts = true → ∀ event ∈ layout.events, event.prevContext.Known entities)
    {key : EventKey} {event? : Option Event} (erased : layout.erase key = .ok (event?, after)) :
    after.Sound entities ↔ layout.stranded key event? = [] := by
  have left := (tracked.erasure erased).left
  cases layout with
  | single list =>
      refine ⟨fun _ => rfl, fun _ => ?_⟩
      have sound : list.Sound := tracked.serviceable
      obtain ⟨⟨_, rest⟩, removed, same⟩ := map_eq_ok erased
      cases same
      have erasure := sound.erasure tracked.indexed removed
      exact ⟨erasure.sound, LaneQueue.distinct_taken event? tracked.indexed erasure.left⟩
  | partitioned lanes =>
      have serviceable : lanes.Serviceable entities := tracked.serviceable
      have tracks : lanes.Tracks [] := tracked.indexed
      obtain ⟨⟨_, rest⟩, removed, same⟩ := map_eq_ok erased
      cases same
      refine ⟨(serviceable.charted.removing removed).stranded_eq_nil serviceable.charted tracks,
        fun nothing => ?_⟩
      have performed : lanes.perform (.erase key) = .ok (.taken event?, rest) := by
        unfold LaneQueue.perform
        simp only [removed]
        rfl
      have fresh : (Operation.erase key).Fresh lanes.keys := trivial
      have kept := serviceable.charted.perform_tracks tracks fresh performed
      change rest.Tracks (lanes.stranded key event? ++ []) at kept
      rw [show lanes.stranded key event? = [] from nothing] at kept
      refine LaneQueue.Serviceable.sound (serviceable.perform fresh performed) kept
        fun event member => ?_
      have held := left.mem_iff.mpr (List.mem_append_right _ member)
      refine ⟨serviceable.owner_le held, fun counts => laneOf_le_iff.mpr (known ?_ event held)⟩
      exact (LaneQueue.erase_outline removed).counts.symm.trans counts

end Layout

end EventKernel.Queue
