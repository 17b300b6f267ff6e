import EventKernel.Proofs.LaneChart
import EventKernel.Proofs.LaneInversions

set_option autoImplicit false

/-! What the removal of a named event does to the lanes, whatever was removed before. The index is
asked first. If it lists the key, the serial number is looked for with the sender that is listed,
and the entry is struck; otherwise it is looked for with the owner. Either way another event may be
found than the one that was meant, if its serial number is the same. A message that is taken under
another key than its own leaves its entry behind. -/

namespace EventKernel.Queue.LaneQueue

variable {queue after : LaneQueue} {key : EventKey} {event? : Option Event}

private theorem putLane_of_found {lane : Nat} {list : BarrierList}
    (found : queue.lanes[lane]? = some list) : queue.putLane lane list = queue := by
  obtain ⟨within, same⟩ := List.getElem?_eq_some_iff.mp found
  unfold putLane
  rw [← same, List.set_getElem_self within]

private theorem set_eq_modify {outbound : List Outbound} {dest : Nat} {index : Outbound}
    (found : outbound[dest]? = some index) (change : Outbound → Outbound) :
    outbound.set dest (change index) = outbound.modify dest change := by
  obtain ⟨within, same⟩ := List.getElem?_eq_some_iff.mp found
  rw [← same, List.modify_eq_take_cons_drop within, List.set_eq_take_append_cons_drop,
    if_pos within]

/-- What the removal by a key comes to. -/
inductive Removing (queue : LaneQueue) (key : EventKey) : Option Event → LaneQueue → Prop
  | nothing : Removing queue key none queue
  | stale (unheld : ∀ event ∈ queue.events, queue.isCrossing event = true → event.key ≠ key) :
      Removing queue key none { queue with
        outbound := queue.outbound.modify (laneOf key.context) (·.erase key) }
  | listed {index : Outbound} {sender : Nat} {list rest : BarrierList} {event : Event}
      (atDest : queue.outbound[laneOf key.context]? = some index)
      (entry : (key, sender) ∈ index.parcels) (found : queue.lanes[sender]? = some list)
      (restSound : rest.Sound) (named : event.key.uid = key.uid)
      (taken : list.events.Perm (event :: rest.events)) :
      Removing queue key (some event) { queue.putLane sender rest with
        outbound := queue.outbound.modify (laneOf key.context) (·.erase key) }
  | owned {list rest : BarrierList} {event : Event} {after : LaneQueue}
      (unlisted : ∀ index, queue.outbound[laneOf key.context]? = some index →
        ∀ sender, (key, sender) ∉ index.parcels)
      (found : queue.lanes[laneOf key.context]? = some list) (restSound : rest.Sound)
      (named : event.key.uid = key.uid) (taken : list.events.Perm (event :: rest.events))
      (consumed : (queue.putLane (laneOf key.context) rest).consumeCredit event = .ok after) :
      Removing queue key (some event) after

/-- A message is listed under its sender, and would be found there by its own key. -/
private theorem Charted.unheld_of_absent (charted : queue.Charted) {index : Outbound}
    {sender : Nat} {list : BarrierList}
    (atDest : queue.outbound[laneOf key.context]? = some index)
    (entry : (key, sender) ∈ index.parcels) (found : queue.lanes[sender]? = some list)
    (absent : ∀ event ∈ list.events, event.key.uid ≠ key.uid) :
    ∀ event ∈ queue.events, queue.isCrossing event = true → event.key ≠ key := by
  intro event member crossing same
  obtain ⟨entered, atOwner, listed⟩ := charted.entered.listed event member crossing
  rw [same, atDest] at atOwner
  cases atOwner
  obtain ⟨ordered, _⟩ := charted.entered.ordered _ _ atDest
  rw [same] at listed
  have home : laneOf event.prevContext = sender :=
    congrArg Prod.snd (ordered.eq_of_key listed entry rfl)
  obtain ⟨held, atHome, inside⟩ := charted.home_lane member
  rw [homeLane_of_crossing crossing, home, found] at atHome
  cases atHome
  exact absent event inside (by rw [same])

theorem Charted.removing (charted : queue.Charted)
    (erased : queue.erase key = .ok (event?, after)) : queue.Removing key event? after := by
  unfold LaneQueue.erase at erased
  simp only at erased
  split at erased
  · cases erased
    exact .nothing
  · rename_i index atDest
    have ordered := (charted.entered.ordered _ _ atDest).1
    split at erased
    · rename_i sender holder
      have entry := (Outbound.holder?_eq_some_iff ordered).mp holder
      obtain ⟨list, read, erased⟩ := bind_eq_ok erased
      have found := found_of_laneAt read
      obtain ⟨⟨taken?, rest⟩, removed, erased⟩ := bind_eq_ok erased
      cases erased
      have struck (other : BarrierList) :
          (queue.putLane sender other).outbound.set (laneOf key.context) (index.erase key) =
            queue.outbound.modify (laneOf key.context) (·.erase key) :=
        set_eq_modify atDest fun index => index.erase key
      rw [struck]
      rcases (charted.list_sound found).erase key.uid with
        ⟨event, others, took, named, restSound, _, taken⟩ | ⟨took, absent⟩
      · cases took.symm.trans removed
        exact .listed atDest entry found restSound named taken
      · cases took.symm.trans removed
        rw [putLane_of_found found]
        exact .stale (charted.unheld_of_absent atDest entry found absent)
    · rename_i holder
      split at erased
      · cases erased
        exact .nothing
      · rename_i list found
        obtain ⟨⟨taken?, rest⟩, removed, erased⟩ := bind_eq_ok erased
        rcases (charted.list_sound found).erase key.uid with
          ⟨event, others, took, named, restSound, _, taken⟩ | ⟨took, _⟩
        · cases took.symm.trans removed
          obtain ⟨last, consumed, erased⟩ := bind_eq_ok erased
          cases erased
          refine .owned (fun other atOwner sender entry => ?_) found restSound named taken consumed
          cases atDest.symm.trans atOwner
          cases holder.symm.trans ((Outbound.holder?_eq_some_iff ordered).mpr entry)
        · cases took.symm.trans removed
          cases erased
          rw [putLane_of_found found]
          exact .nothing

def mislaid (key : EventKey) (event? : Option Event) : List EventKey :=
  (event?.map Event.key).toList.filter (· != key)

theorem mem_mislaid {event : Event} (other : event.key ≠ key) :
    event.key ∈ mislaid key (some event) :=
  List.mem_filter.mpr ⟨List.mem_singleton_self _, bne_iff_ne.mpr other⟩

private theorem Charted.apart (charted : queue.Charted) {event : Event} {others : List Event}
    (left : queue.events.Perm (event :: others)) :
    ∀ other ∈ others, other.key.uid ≠ event.key.uid := by
  have distinct := ((left.map fun event => event.key.uid).nodup_iff).mp charted.distinct
  rw [List.map_cons, List.nodup_cons] at distinct
  exact fun other member same => distinct.1 (same ▸ List.mem_map_of_mem member)

namespace Removing

variable (removing : queue.Removing key event? after)

include removing

/-- Whatever is taken was held, and nothing else leaves. -/
theorem left (charted : queue.Charted) : queue.events.Perm (event?.toList ++ after.events) := by
  cases removing with
  | nothing => exact .refl _
  | stale => exact .refl _
  | listed _ _ found restSound _ taken => exact (charted.take found restSound taken).2
  | owned _ found restSound _ taken consumed =>
      obtain ⟨credits, _, rfl⟩ := consumeCredit_eq_ok consumed
      exact (charted.take found restSound taken).2

theorem charted (charted : queue.Charted) : after.Charted := by
  cases removing with
  | nothing => exact charted
  | stale unheld => exact charted.strike key unheld
  | listed _ _ found restSound named taken =>
      obtain ⟨takenCharted, left⟩ := charted.take found restSound taken
      refine takenCharted.strike key fun other member _ same => charted.apart left other member ?_
      rw [same, named]
  | owned _ found restSound _ taken consumed =>
      obtain ⟨credits, recounts, rfl⟩ := consumeCredit_eq_ok consumed
      exact (charted.take found restSound taken).1.recount credits queue.deadlocks
        queue.conversions recounts.isSome_eq

theorem parcels (charted : queue.Charted) {dest : Nat} {index : Outbound}
    (found : after.outbound[dest]? = some index) {parcel : EventKey × Nat}
    (member : parcel ∈ index.parcels) :
    ∃ before, queue.outbound[dest]? = some before ∧ parcel ∈ before.parcels := by
  cases removing with
  | nothing => exact ⟨index, found, member⟩
  | stale =>
      obtain ⟨before, atDest, present, _⟩ := charted.struck found member
      exact ⟨before, atDest, present⟩
  | listed =>
      obtain ⟨before, atDest, present, _⟩ := charted.struck found member
      exact ⟨before, atDest, present⟩
  | owned _ _ _ _ _ consumed =>
      obtain ⟨credits, _, rfl⟩ := consumeCredit_eq_ok consumed
      exact ⟨index, found, member⟩

/-- A message that is taken under another key than its own goes astray. -/
theorem tracks (charted : queue.Charted) {astray more : List EventKey}
    (tracks : queue.Tracks astray) (among : ∀ key ∈ astray, key ∈ more)
    (noted : ∀ event, event? = some event → queue.isCrossing event = true → event.key ≠ key →
      event.key ∈ more) : after.Tracks more := by
  cases removing with
  | nothing => exact tracks.weaken among
  | stale => exact tracks.strike charted fun other lost => .inr (among other lost)
  | @listed _ _ _ _ event _ _ found restSound named taken =>
      obtain ⟨takenCharted, left⟩ := charted.take found restSound taken
      have weakened : queue.Tracks (key :: more) :=
        tracks.weaken fun other lost => List.mem_cons_of_mem _ (among other lost)
      refine (weakened.take left fun crossing => ?_).strike takenCharted fun _ => List.mem_cons.mp
      by_cases own : event.key = key
      · exact own ▸ List.mem_cons_self
      · exact List.mem_cons_of_mem _ (noted event rfl crossing own)
  | @owned _ _ event _ unlisted found restSound _ taken consumed =>
      obtain ⟨takenCharted, left⟩ := charted.take found restSound taken
      obtain ⟨credits, recounts, rfl⟩ := consumeCredit_eq_ok consumed
      refine ((tracks.weaken among).take left fun crossing => ?_).recount credits
        queue.deadlocks queue.conversions recounts.isSome_eq
      refine noted event rfl crossing fun own => ?_
      obtain ⟨index, atDest, entry⟩ := charted.entered.listed event
        (left.mem_iff.mpr List.mem_cons_self) crossing
      rw [own] at atDest entry
      exact unlisted index atDest _ entry

/-- A message that is taken was named by its key; or by its serial number under its sender, since
nothing is listed but messages that are held. -/
theorem named_of_crossing (charted : queue.Charted) (tracks : queue.Tracks []) {event : Event}
    (took : event? = some event) (crossing : queue.isCrossing event = true) :
    event.key = key ∨ event.key.uid = key.uid ∧ event.prevContext = key.context := by
  cases removing with
  | nothing => cases took
  | stale => cases took
  | listed atDest entry found restSound named taken =>
      cases took
      obtain ⟨held, present, _, own⟩ :=
        (tracks _ _ atDest _ entry).resolve_left List.not_mem_nil
      have member := (charted.take found restSound taken).2.mem_iff.mpr List.mem_cons_self
      left
      rw [charted.eq_of_uid member present (by rw [named, own])]
      exact own
  | owned _ found _ named taken =>
      cases took
      have home := charted.housed _ _ found event (taken.mem_iff.mpr List.mem_cons_self)
      rw [homeLane_of_crossing crossing] at home
      exact .inr ⟨named, laneOf_injective home⟩

end Removing

end EventKernel.Queue.LaneQueue
