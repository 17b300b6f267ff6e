import EventKernel.Proofs.AlikeComputations
import EventKernel.Proofs.LaneInversions
import EventKernel.Proofs.ListContents
import EventKernel.Proofs.OwnerOrder
import Mathlib.Data.List.Forall2

set_option autoImplicit false

/-! What lanes answer depends on the events that each of them holds, and not on how it arranges
them. Two queues whose lanes hold the same events select the same lane, convert the same messages
and hand out the same event, under the credit rule as well. Nothing is asked of the index, which
may list messages that are gone. The first of two queues may also hold some guests; this is kept
by insertions and by the removal of other events. -/

namespace EventKernel.Queue.LaneQueue

/-- The guests in a lane. They are no messages, so each is with its owner. -/
def guestsAt (guests : List Event) (lane : Nat) : List Event :=
  guests.filter fun guest => laneOf guest.key.context == lane

/-- By how much the counts of one queue are ahead of those of another. -/
structure Lead where
  conversions : Int
  deadlocks : Int

namespace Lead

instance : Zero Lead := ⟨⟨0, 0⟩⟩

instance : Neg Lead := ⟨fun lead => ⟨-lead.conversions, -lead.deadlocks⟩⟩

end Lead

/-- Two queues that differ in how their lanes arrange the same events, in the guests of the first,
and in how many messages were converted and how many deadlocks were met before. -/
structure Hosts (lead : Lead) (guests : List Event) (first second : LaneQueue) : Prop where
  elsewhere : second = { first with
    lanes := second.lanes, deadlocks := second.deadlocks, conversions := second.conversions }
  conversions : (second.conversions : Int) = first.conversions + lead.conversions
  deadlocks : (second.deadlocks : Int) = first.deadlocks + lead.deadlocks
  laneCount : second.lanes.length = first.lanes.length
  lists : ∀ (lane : Nat) (list other : BarrierList), first.lanes[lane]? = some list →
    second.lanes[lane]? = some other → BarrierList.Hosts (guestsAt guests lane) list other
  distinct : (first.events.map fun event => event.key.uid).Nodup

def Twins (lead : Lead) (first second : LaneQueue) : Prop := Hosts lead [] first second

variable {queue first second : LaneQueue} {lead : Lead} {guests : List Event} {lane : Nat}

/-! ### Lanes -/

private theorem putLane_taken (event? : Option Event) {list rest : BarrierList}
    (found : queue.lanes[lane]? = some list)
    (taken : list.events.Perm (event?.toList ++ rest.events)) :
    queue.events.Perm (event?.toList ++ (queue.putLane lane rest).events) := by
  obtain ⟨others, before, after⟩ := events_putLane found
  have rested := (after rest).symm.append_left event?.toList
  rw [← List.append_assoc] at rested
  exact before.trans ((taken.append_right others).trans rested)

private theorem putLane_inserted {list : BarrierList} (found : queue.lanes[lane]? = some list)
    (sound : list.Sound) (event : Event) :
    (queue.putLane lane (list.insert event)).events.Perm (event :: queue.events) := by
  obtain ⟨others, before, after⟩ := events_putLane found
  exact (after _).trans (((sound.insert_events event).append_right others).trans
    (before.symm.cons event))

theorem distinct_taken (event? : Option Event) {events rest : List Event}
    (distinct : (events.map fun event => event.key.uid).Nodup)
    (taken : events.Perm (event?.toList ++ rest)) :
    (rest.map fun event => event.key.uid).Nodup := by
  have all := ((taken.map fun event => event.key.uid).nodup_iff).mp distinct
  rw [List.map_append] at all
  exact (List.nodup_append.mp all).2.1

theorem apart_of_taken {events rest : List Event} {event : Event}
    (distinct : (events.map fun event => event.key.uid).Nodup)
    (taken : events.Perm (event :: rest)) : ∀ other ∈ rest, other.key.uid ≠ event.key.uid := by
  have all := ((taken.map fun event => event.key.uid).nodup_iff).mp distinct
  rw [List.map_cons, List.nodup_cons] at all
  intro other member same
  exact all.1 (same ▸ List.mem_map_of_mem member)

theorem distinct_added (event : Event) {events more : List Event}
    (distinct : (events.map fun event => event.key.uid).Nodup)
    (fresh : ∀ other ∈ events, other.key.uid ≠ event.key.uid)
    (added : more.Perm (event :: events)) : (more.map fun event => event.key.uid).Nodup := by
  refine ((added.map fun event => event.key.uid).nodup_iff).mpr
    (List.nodup_cons.mpr ⟨fun member => ?_, distinct⟩)
  obtain ⟨other, present, same⟩ := List.mem_map.mp member
  exact fresh other present same

namespace Hosts

variable (hosts : Hosts lead guests first second)

include hosts

private theorem isCrossing_eq : second.isCrossing = first.isCrossing :=
  isCrossing_congr first second (by rw [hosts.elsewhere])

private theorem homeLane_eq : second.homeLane = first.homeLane :=
  homeLane_congr first second (by rw [hosts.elsewhere])

theorem outbound_eq : second.outbound = first.outbound := by rw [hosts.elsewhere]

private theorem credits_eq : second.credits = first.credits := by rw [hosts.elsewhere]

private theorem counterpart {list : BarrierList} (found : first.lanes[lane]? = some list) :
    ∃ other, second.lanes[lane]? = some other ∧
      BarrierList.Hosts (guestsAt guests lane) list other := by
  have within : lane < second.lanes.length := by
    rw [hosts.laneCount]
    exact (List.getElem?_eq_some_iff.mp found).1
  have there := List.getElem?_eq_getElem within
  exact ⟨_, there, hosts.lists lane list _ found there⟩

private theorem missing (none_ : first.lanes[lane]? = none) : second.lanes[lane]? = none := by
  rw [List.getElem?_eq_none_iff, hosts.laneCount]
  exact List.getElem?_eq_none_iff.mp none_

private theorem list_distinct {list : BarrierList} (found : first.lanes[lane]? = some list) :
    (list.events.map fun event => event.key.uid).Nodup :=
  distinct_at found hosts.distinct

private theorem laneAt : Alike (fun list other => first.lanes[lane]? = some list ∧
    second.lanes[lane]? = some other ∧ BarrierList.Hosts (guestsAt guests lane) list other)
    (first.laneAt lane) (second.laneAt lane) := by
  cases found : first.lanes[lane]? with
  | none =>
      have there := hosts.missing found
      unfold LaneQueue.laneAt
      rw [found, there]
      exact rfl
  | some list =>
      obtain ⟨other, there, hosting⟩ := hosts.counterpart found
      rw [laneAt_of_found found, laneAt_of_found there]
      exact ⟨rfl, there, hosting⟩

/-- The same lane may be exchanged in both. -/
theorem putLane {left right : BarrierList}
    (kept : BarrierList.Hosts (guestsAt guests lane) left right)
    (distinct : ((first.putLane lane left).events.map fun event => event.key.uid).Nodup) :
    Hosts lead guests (first.putLane lane left) (second.putLane lane right) where
  elsewhere := by
    rw [hosts.elsewhere]
    rfl
  conversions := hosts.conversions
  deadlocks := hosts.deadlocks
  laneCount := by
    unfold LaneQueue.putLane
    rw [List.length_set, List.length_set]
    exact hosts.laneCount
  lists := by
    intro place list other found there
    unfold LaneQueue.putLane at found there
    simp only [List.getElem?_set] at found there
    by_cases here : lane = place
    · subst here
      rw [if_pos rfl] at found there
      split at found
      · rename_i within
        rw [if_pos (hosts.laneCount.symm ▸ within)] at there
        cases found
        cases there
        exact kept
      · cases found
    · rw [if_neg here] at found there
      exact hosts.lists place list other found there
  distinct := distinct

private theorem adjust (outbound : List Outbound) (credits : Option CreditTable) (moved met : Nat) :
    Hosts lead guests
      { first with
        outbound, credits
        deadlocks := first.deadlocks + met
        conversions := first.conversions + moved }
      { second with
        outbound, credits
        deadlocks := second.deadlocks + met
        conversions := second.conversions + moved } where
  elsewhere := by
    rw [hosts.elsewhere]
  conversions := by
    have counted := hosts.conversions
    simp only
    omega
  deadlocks := by
    have counted := hosts.deadlocks
    simp only
    omega
  laneCount := hosts.laneCount
  lists := hosts.lists
  distinct := hosts.distinct

/-! ### Insertion -/

theorem insert (event : Event) (fresh : ∀ other ∈ first.events, other.key.uid ≠ event.key.uid) :
    Alike (Hosts lead guests) (first.insert event) (second.insert event) := by
  unfold LaneQueue.insert
  simp only [hosts.homeLane_eq, hosts.isCrossing_eq, hosts.outbound_eq, hosts.laneCount]
  cases found : first.lanes[first.homeLane event]? with
  | none =>
      rw [hosts.missing found]
      exact rfl
  | some list =>
      obtain ⟨other, there, hosting⟩ := hosts.counterpart found
      have put := hosts.putLane (hosting.insert event) (distinct_added event hosts.distinct fresh
        (putLane_inserted found hosting.left event))
      simp only [there]
      split
      · split
        · have entered := put.adjust (first.outbound.modify (laneOf event.key.context)
            (·.insert event.key (first.homeLane event))) first.credits 0 0
          rw [hosts.elsewhere] at entered ⊢
          exact entered
        · exact rfl
      · exact put

/-! ### Removal by key -/

private theorem consumeCredit (event : Event) :
    Alike (Hosts lead guests) (first.consumeCredit event) (second.consumeCredit event) := by
  have counted := fun credits => hosts.adjust first.outbound credits 0 0
  unfold LaneQueue.consumeCredit
  rw [hosts.credits_eq]
  split
  · rename_i dest sender table _ _ _ _
    refine (Alike.of_eq rfl).bind ?_
    rintro credits _ _ _ rfl
    have discounted := counted (some credits)
    rw [hosts.elsewhere] at discounted ⊢
    exact discounted
  · exact hosts

/-- An event that is no guest leaves both queues or neither. -/
theorem erase (key : EventKey) (others : ∀ guest ∈ guests, guest.key.uid ≠ key.uid) :
    Alike (fun left right => left.1 = right.1 ∧ Hosts lead guests left.2 right.2)
      (first.erase key) (second.erase key) := by
  have removed {place : Nat} {list other : BarrierList} (found : first.lanes[place]? = some list)
      (hosting : BarrierList.Hosts (guestsAt guests place) list other) :
      Alike (fun left right => left.1 = right.1 ∧
          Hosts lead guests (first.putLane place left.2) (second.putLane place right.2))
        (list.erase key.uid) (other.erase key.uid) := by
    obtain ⟨event?, left, right, erased, otherErased, kept, taken⟩ := hosting.erase
      (hosts.list_distinct found) fun guest member => others guest (List.mem_of_mem_filter member)
    exact .of_ok erased otherErased
      ⟨rfl, hosts.putLane kept (distinct_taken event? hosts.distinct
        (putLane_taken event? found taken))⟩
  unfold LaneQueue.erase
  rw [hosts.outbound_eq]
  simp only
  cases first.outbound[laneOf key.context]? with
  | none => exact ⟨rfl, hosts⟩
  | some index =>
      simp only
      cases index.holder? key with
      | some sender =>
          refine hosts.laneAt.bind ?_
          rintro list other _ _ ⟨found, there, hosting⟩
          refine (removed found hosting).bind ?_
          rintro ⟨event?, left⟩ ⟨_, right⟩ _ _ ⟨rfl, kept⟩
          have struck := kept.adjust
            (first.outbound.set (laneOf key.context) (index.erase key)) first.credits 0 0
          rw [hosts.elsewhere] at struck ⊢
          exact ⟨rfl, struck⟩
      | none =>
          simp only
          cases found : first.lanes[laneOf key.context]? with
          | none =>
              rw [hosts.missing found]
              exact ⟨rfl, hosts⟩
          | some list =>
              obtain ⟨other, there, hosting⟩ := hosts.counterpart found
              rw [there]
              refine (removed found hosting).bind ?_
              rintro ⟨event?, left⟩ ⟨_, right⟩ _ _ ⟨rfl, kept⟩
              cases event? with
              | none => exact ⟨rfl, kept⟩
              | some event =>
                  exact (kept.consumeCredit event).bind fun _ _ _ _ last => ⟨rfl, last⟩

end Hosts

/-! ### Fronts -/

def SameFront (list other : BarrierList) : Prop :=
  other.front?.map Entry.event = list.front?.map Entry.event

private theorem frontsAllow_eq {lists others : List BarrierList}
    (same : List.Forall₂ SameFront lists others)
    (settings : second =
      { first with
        lanes := second.lanes, deadlocks := second.deadlocks
        conversions := second.conversions }) (front : EventKey) (other : Nat) :
    second.frontsAllow lane front other others = first.frontsAllow lane front other lists := by
  induction same generalizing other with
  | nil => rfl
  | cons fronts _ ih =>
      have next := congrArg (Option.map Event.key) fronts
      rw [Option.map_map, Option.map_map] at next
      have next : BarrierList.next? _ = BarrierList.next? _ := next
      unfold frontsAllow
      simp only [ih]
      rw [next, settings]
      rfl

private theorem isSafe_eq (same : List.Forall₂ SameFront first.lanes second.lanes)
    (settings : second =
      { first with
        lanes := second.lanes, deadlocks := second.deadlocks
        conversions := second.conversions }) (lane : Nat) (front : EventKey) :
    second.isSafe lane front = first.isSafe lane front := by
  have inbound : second.inboundAllows lane front = first.inboundAllows lane front := by
    rw [settings]
    rfl
  unfold isSafe
  rw [frontsAllow_eq same settings, inbound]

private theorem candidatesFrom_eq (same : List.Forall₂ SameFront first.lanes second.lanes)
    (settings : second =
      { first with
        lanes := second.lanes, deadlocks := second.deadlocks
        conversions := second.conversions }) {lists others : List BarrierList}
    (rest : List.Forall₂ SameFront lists others) (lane : Nat) :
    second.candidatesFrom lane others = first.candidatesFrom lane lists := by
  have blocked : ∀ lane front, second.isBlocked lane front = first.isBlocked lane front := by
    intro lane front
    rw [settings]
    rfl
  induction rest generalizing lane with
  | nil => rfl
  | @cons list other _ _ fronts _ ih =>
      unfold candidatesFrom
      unfold SameFront at fronts
      cases here : list.front? with
      | none =>
          rw [here] at fronts
          rw [Option.map_eq_none_iff.mp fronts]
          exact ih (lane + 1)
      | some front =>
          rw [here] at fronts
          obtain ⟨entry, there, event⟩ := Option.map_eq_some_iff.mp fronts
          rw [there]
          simp only [event, isSafe_eq same settings, blocked, ih]

namespace Twins

variable (twins : Twins lead first second)

include twins

private theorem lists_alike : List.Forall₂ (fun list other => BarrierList.Twins list other ∧
    (list.events.map fun event => event.key.uid).Nodup) first.lanes second.lanes := by
  refine List.forall₂_iff_get.mpr ⟨twins.laneCount.symm, fun lane here there => ?_⟩
  have found : first.lanes[lane]? = some first.lanes[lane] := List.getElem?_eq_getElem here
  exact ⟨twins.lists lane _ _ found (List.getElem?_eq_getElem there),
    Hosts.list_distinct twins found⟩

private theorem fronts : List.Forall₂ SameFront first.lanes second.lanes :=
  twins.lists_alike.imp fun _ _ alike => alike.1.front_eq alike.2

theorem events : first.events.Perm second.events := by
  have alike := twins.lists_alike
  unfold LaneQueue.events
  generalize first.lanes = lists at alike ⊢
  generalize second.lanes = others at alike ⊢
  induction alike with
  | nil => exact .refl _
  | cons same _ ih => exact same.1.events.append ih

theorem symm : second.Twins (-lead) first where
  elsewhere := by rw [twins.elsewhere]
  conversions := by
    have counted := twins.conversions
    change _ = _ + -lead.conversions
    omega
  deadlocks := by
    have counted := twins.deadlocks
    change _ = _ + -lead.deadlocks
    omega
  laneCount := twins.laneCount.symm
  lists := fun lane list other found there =>
    BarrierList.Twins.symm (twins.lists lane other list there found)
  distinct := ((twins.events.map fun event => event.key.uid).nodup_iff).mp twins.distinct

theorem size_eq : second.size = first.size := by
  have alike := twins.lists_alike
  unfold LaneQueue.size
  generalize first.lanes = lists at alike ⊢
  generalize second.lanes = others at alike ⊢
  induction alike with
  | nil => rfl
  | cons same _ ih => rw [List.foldr_cons, List.foldr_cons, ih, same.1.size_eq]

theorem isEmpty_eq : second.isEmpty = first.isEmpty := by
  have alike := twins.lists_alike
  unfold LaneQueue.isEmpty
  generalize first.lanes = lists at alike ⊢
  generalize second.lanes = others at alike ⊢
  induction alike with
  | nil => rfl
  | cons same _ ih => rw [List.all_cons, List.all_cons, ih, same.1.isEmpty_eq]

/-! ### Selection -/

private theorem candidates_eq : second.candidates = first.candidates := by
  unfold candidates
  exact candidatesFrom_eq twins.fronts twins.elsewhere twins.fronts 0

private theorem select : Alike (fun left right => left.1 = right.1 ∧ left.2.Twins lead right.2)
    first.select second.select := by
  unfold LaneQueue.select
  rw [twins.candidates_eq]
  refine (Alike.of_eq rfl).bind ?_
  rintro candidates _ _ _ rfl
  cases choose? candidates with
  | none => exact ⟨rfl, twins⟩
  | some choice =>
      have counted := Hosts.adjust twins first.outbound first.credits 0
      rw [twins.elsewhere] at counted ⊢
      obtain ⟨lane, deadlock⟩ := choice
      cases deadlock with
      | true => exact ⟨rfl, counted 1⟩
      | false => exact ⟨rfl, counted 0⟩

/-- A message whose serial number is not held enters the lane of its destination. -/
theorem convert (message : Event)
    (fresh : ∀ other ∈ first.events, other.key.uid ≠ message.key.uid) :
    Alike (Twins lead) (first.convert message) (second.convert message) := by
  have entered (credits : Option CreditTable) : Alike (Twins lead)
      (do
        let list ← first.laneAt (laneOf message.key.context)
        return { first with
          lanes := first.lanes.set (laneOf message.key.context) (list.insert (delivered message))
          outbound := first.outbound.modify (laneOf message.key.context) (·.erase message.key)
          credits
          conversions := first.conversions + 1 })
      (do
        let list ← second.laneAt (laneOf message.key.context)
        return { second with
          lanes := second.lanes.set (laneOf message.key.context) (list.insert (delivered message))
          outbound := second.outbound.modify (laneOf message.key.context) (·.erase message.key)
          credits
          conversions := second.conversions + 1 }) := by
    refine (Hosts.laneAt twins).bind ?_
    rintro list other _ _ ⟨found, _, hosting⟩
    have put := Hosts.putLane twins (hosting.insert (delivered message))
      (distinct_added (delivered message) twins.distinct fresh
        (putLane_inserted found hosting.left (delivered message)))
    have counted := put.adjust
      (first.outbound.modify (laneOf message.key.context) (·.erase message.key)) credits 1 0
    rw [twins.elsewhere] at counted ⊢
    exact counted
  unfold LaneQueue.convert
  rw [Hosts.credits_eq twins]
  simp only
  split
  · exact (Alike.of_eq rfl).bind fun _ credits _ _ same => same ▸ entered credits
  · exact (Alike.of_eq rfl).bind fun _ credits _ _ same => same ▸ entered credits

private theorem outgoingCount_eq : second.outgoingCount = first.outgoingCount :=
  (twins.events.countP_eq _).symm

/-- Both convert the same messages, and end up with the same lane selected. -/
theorem settleWithin (count : Nat) :
    Alike (fun left right => left.1 = right.1 ∧ left.2.Twins lead right.2)
      (LaneQueue.settleWithin count first) (LaneQueue.settleWithin count second) := by
  induction count generalizing first second with
  | zero => exact twins.select
  | succ count ih =>
      unfold LaneQueue.settleWithin
      refine twins.select.bind ?_
      rintro ⟨lane?, first⟩ ⟨_, second⟩ _ _ ⟨rfl, twins⟩
      cases lane? with
      | none => exact ⟨rfl, twins⟩
      | some lane =>
          refine (Hosts.laneAt twins).bind ?_
          rintro list other _ _ ⟨found, _, hosting⟩
          have distinct := Hosts.list_distinct twins found
          have fronts := BarrierList.Twins.front_eq hosting distinct
          simp only
          cases here : list.front? with
          | none =>
              rw [here] at fronts
              rw [Option.map_eq_none_iff.mp fronts]
              exact ⟨rfl, twins⟩
          | some front =>
              rw [here] at fronts
              obtain ⟨entry, there, event⟩ := Option.map_eq_some_iff.mp fronts
              rw [there]
              simp only [event, Hosts.isCrossing_eq twins]
              split
              · obtain ⟨event?, left, right, popped, otherPopped, kept, taken⟩ :=
                  BarrierList.Twins.pop hosting distinct
                have gone := putLane_taken event? found taken
                have put := Hosts.putLane twins kept (distinct_taken event? twins.distinct gone)
                rw [popped, otherPopped]
                cases event? with
                | none => exact ⟨rfl, put⟩
                | some event =>
                    exact (Twins.convert put event (apart_of_taken twins.distinct gone)).bind
                      fun _ _ _ _ converted => ih converted
              · exact ⟨rfl, twins⟩

private theorem settle : Alike (fun left right => left.1 = right.1 ∧ left.2.Twins lead right.2)
    first.settle second.settle := by
  unfold LaneQueue.settle
  rw [twins.outgoingCount_eq]
  exact twins.settleWithin _

/-! ### Operations -/

theorem next? : Alike (fun left right => left.1 = right.1 ∧ left.2.Twins lead right.2)
    first.next? second.next? := by
  unfold LaneQueue.next?
  refine twins.settle.bind ?_
  rintro ⟨lane?, first⟩ ⟨_, second⟩ _ _ ⟨rfl, twins⟩
  cases lane? with
  | none => exact ⟨rfl, twins⟩
  | some lane =>
      refine (Hosts.laneAt twins).bind ?_
      rintro list other _ _ ⟨found, _, hosting⟩
      exact ⟨(BarrierList.Twins.next?_eq hosting (Hosts.list_distinct twins found)).symm, twins⟩

theorem pop : Alike (fun left right => left.1 = right.1 ∧ left.2.Twins lead right.2)
    first.pop second.pop := by
  unfold LaneQueue.pop
  refine twins.settle.bind ?_
  rintro ⟨lane?, first⟩ ⟨_, second⟩ _ _ ⟨rfl, twins⟩
  cases lane? with
  | none => exact ⟨rfl, twins⟩
  | some lane =>
      refine (Hosts.laneAt twins).bind ?_
      rintro list other _ _ ⟨found, _, hosting⟩
      obtain ⟨event?, left, right, popped, otherPopped, kept, taken⟩ :=
        BarrierList.Twins.pop hosting (Hosts.list_distinct twins found)
      have put := Hosts.putLane twins kept
        (distinct_taken event? twins.distinct (putLane_taken event? found taken))
      rw [popped, otherPopped]
      cases event? with
      | none => exact ⟨rfl, put⟩
      | some event => exact (put.consumeCredit event).bind fun _ _ _ _ last => ⟨rfl, last⟩

theorem erase (key : EventKey) : Alike (fun left right => left.1 = right.1 ∧
    left.2.Twins lead right.2) (first.erase key) (second.erase key) :=
  Hosts.erase twins key fun _ none_ => nomatch none_

theorem drain :
    first.drain.1.Perm second.drain.1 ∧ first.drain.2.Twins lead second.drain.2 := by
  refine ⟨twins.events, ?_, twins.conversions, twins.deadlocks, ?_, ?_, ?_⟩
  · unfold LaneQueue.drain
    rw [twins.elsewhere]
  · unfold LaneQueue.drain
    simp only [List.length_map]
    exact twins.laneCount
  · intro lane list other found there
    unfold LaneQueue.drain at found there
    simp only [List.getElem?_map, Option.map_eq_some_iff] at found there
    obtain ⟨before, _, rfl⟩ := found
    obtain ⟨otherBefore, _, rfl⟩ := there
    exact BarrierList.Twins.drained before otherBefore
  · rw [events_drained]
    exact List.nodup_nil

end Twins

/-! ### A guest comes and goes -/

private theorem guestsAt_home (guest : Event) :
    guestsAt [guest] (laneOf guest.key.context) = [guest] := by
  unfold guestsAt
  rw [List.filter_singleton, beq_self_eq_true]
  rfl

private theorem guestsAt_elsewhere {guest : Event} (away : laneOf guest.key.context ≠ lane) :
    guestsAt [guest] lane = [] := by
  unfold guestsAt
  rw [List.filter_singleton, beq_false_of_ne away]
  rfl

private theorem Hosts.exchange {others : List Event} (hosts : Hosts lead guests first second)
    {list left other : BarrierList} (found : first.lanes[lane]? = some list)
    (there : second.lanes[lane]? = some other)
    (here : BarrierList.Hosts (guestsAt others lane) left other)
    (elsewhere : ∀ place, lane ≠ place → guestsAt others place = guestsAt guests place)
    (distinct : ((first.putLane lane left).events.map fun event => event.key.uid).Nodup) :
    Hosts lead others (first.putLane lane left) second where
  elsewhere := hosts.elsewhere
  conversions := hosts.conversions
  deadlocks := hosts.deadlocks
  laneCount := hosts.laneCount.trans List.length_set.symm
  lists := by
    intro place held counterpart atPlace thereToo
    unfold LaneQueue.putLane at atPlace
    simp only [List.getElem?_set] at atPlace
    by_cases same : lane = place
    · subst same
      rw [if_pos rfl, if_pos (List.getElem?_eq_some_iff.mp found).1] at atPlace
      rw [there] at thereToo
      cases atPlace
      cases thereToo
      exact here
    · rw [if_neg same] at atPlace
      rw [elsewhere place same]
      exact hosts.lists place held counterpart atPlace thereToo
  distinct := distinct

theorem Twins.invite (twins : first.Twins lead second) {guest : Event}
    (stays : first.isCrossing guest = false)
    (known : laneOf guest.key.context < first.lanes.length)
    (fresh : ∀ other ∈ first.events, other.key.uid ≠ guest.key.uid) :
    ∃ after, first.insert guest = .ok after ∧ Hosts lead [guest] after second := by
  have found := List.getElem?_eq_getElem known
  obtain ⟨other, there, hosting⟩ := Hosts.counterpart twins found
  refine ⟨first.putLane (laneOf guest.key.context)
    (first.lanes[laneOf guest.key.context].insert guest), ?_,
    Hosts.exchange twins found there ?_ ?_ (distinct_added guest twins.distinct fresh
      (putLane_inserted found hosting.left guest))⟩
  · unfold LaneQueue.insert
    simp only [homeLane_of_not_crossing stays, found, stays]
    rfl
  · rw [guestsAt_home]
    exact BarrierList.Hosts.invite hosting guest
  · exact fun place away => guestsAt_elsewhere away

theorem Hosts.guest_events {guest : Event} (hosts : Hosts lead [guest] first second)
    (known : laneOf guest.key.context < first.lanes.length) :
    first.events.Perm (guest :: second.events) := by
  have found := List.getElem?_eq_getElem known
  obtain ⟨other, there, hosting⟩ := hosts.counterpart found
  rw [guestsAt_home] at hosting
  have gone : first.events.Perm (guest :: (first.putLane _ other).events) :=
    putLane_taken (some guest) found hosting.events
  have kept : Twins lead (first.putLane (laneOf guest.key.context) other) second :=
    hosts.exchange found there (BarrierList.Twins.refl hosting.right)
      (fun place away => (guestsAt_elsewhere away).symm)
      (distinct_taken (some guest) hosts.distinct gone)
  exact gone.trans (kept.events.cons guest)

/-- The guest leaves by its own key, unless the index has another event of that key. -/
theorem Hosts.dismiss {guest : Event} (hosts : Hosts lead [guest] first second)
    (known : laneOf guest.key.context < first.lanes.length) {index : Outbound}
    (atDest : first.outbound[laneOf guest.key.context]? = some index)
    (unlisted : index.holder? guest.key = none) (counted : guest.kind ≠ .incoming) :
    ∃ after, first.erase guest.key = .ok (some guest, after) ∧ after.Twins lead second := by
  have found := List.getElem?_eq_getElem known
  obtain ⟨other, there, hosting⟩ := hosts.counterpart found
  rw [guestsAt_home] at hosting
  obtain ⟨rest, erased, twins, taken⟩ := hosting.dismiss (hosts.list_distinct found)
  have gone : first.events.Perm (guest :: (first.putLane _ rest).events) :=
    putLane_taken (some guest) found taken
  have kept : Twins lead (first.putLane (laneOf guest.key.context) rest) second :=
    hosts.exchange found there twins (fun place away => (guestsAt_elsewhere away).symm)
      (distinct_taken (some guest) hosts.distinct gone)
  have unpaid : (first.putLane (laneOf guest.key.context) rest).consumeCredit guest =
      .ok (first.putLane (laneOf guest.key.context) rest) := by
    unfold LaneQueue.consumeCredit
    split
    · rename_i incoming _ _ _
      exact absurd incoming counted
    · rfl
  refine ⟨_, ?_, kept⟩
  unfold LaneQueue.erase
  simp only [atDest, unlisted, found, erased, bind, Except.bind, unpaid]
  rfl

end EventKernel.Queue.LaneQueue
