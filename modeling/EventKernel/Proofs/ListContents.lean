import EventKernel.Proofs.BarrierRemoval

set_option autoImplicit false

/-! What a list answers depends on the events it holds and on nothing else. How it arranges
them, which of them it has parked behind barriers and under which policy make no difference,
because the front is the least event of all and a removal takes the event of its number. One of
two lists may hold some guests in addition; insertions and the removal of other events leave the
guests where they are. -/

namespace EventKernel.Queue.BarrierList

open scoped List

/-- Two lists in order that hold the same events, except that the first has guests as well. -/
structure Hosts (guests : List Event) (first second : BarrierList) : Prop where
  left : first.Sound
  right : second.Sound
  events : first.events.Perm (guests ++ second.events)

def Twins (first second : BarrierList) : Prop := Hosts [] first second

variable {first second : BarrierList} {guests : List Event}

namespace Hosts

theorem insert (hosts : Hosts guests first second) (event : Event) :
    Hosts guests (first.insert event) (second.insert event) where
  left := hosts.left.insert event
  right := hosts.right.insert event
  events :=
    calc (first.insert event).events
      _ ~ event :: first.events := hosts.left.insert_events event
      _ ~ event :: (guests ++ second.events) := hosts.events.cons event
      _ ~ guests ++ event :: second.events := List.perm_middle.symm
      _ ~ guests ++ (second.insert event).events :=
        (hosts.right.insert_events event).symm.append_left guests

theorem invite (twins : Twins first second) (guest : Event) :
    Hosts [guest] (first.insert guest) second where
  left := twins.left.insert guest
  right := twins.right
  events := (twins.left.insert_events guest).trans (twins.events.cons guest)

/-- An event that is no guest leaves both lists or neither, and nothing else leaves the first. -/
theorem erase (hosts : Hosts guests first second)
    (distinct : (first.events.map fun event => event.key.uid).Nodup) {uid : EventUid}
    (others : ∀ guest ∈ guests, guest.key.uid ≠ uid) :
    ∃ event? left right, first.erase uid = .ok (event?, left) ∧
      second.erase uid = .ok (event?, right) ∧ Hosts guests left right ∧
      first.events.Perm (event?.toList ++ left.events) := by
  have held : ∀ event ∈ first.events, event.key.uid = uid → event ∈ second.events := by
    intro event member named
    rcases List.mem_append.mp (hosts.events.mem_iff.mp member) with guest | plain
    · exact absurd named (others event guest)
    · exact plain
  rcases hosts.left.erase uid with ⟨event, left, erased, named, leftSound, _, taken⟩ |
    ⟨erased, absent⟩
  · have member := taken.mem_iff.mpr List.mem_cons_self
    rcases hosts.right.erase uid with ⟨other, right, otherErased, otherNamed, rightSound, _,
      otherTaken⟩ | ⟨_, otherAbsent⟩
    · have otherMember : other ∈ first.events := hosts.events.mem_iff.mpr
        (List.mem_append_right _ (otherTaken.mem_iff.mpr List.mem_cons_self))
      have same : other = event :=
        Event.eq_of_uid distinct otherMember member (otherNamed.trans named.symm)
      rw [same] at otherErased otherTaken
      refine ⟨some event, left, right, erased, otherErased, ⟨leftSound, rightSound, ?_⟩, taken⟩
      have whole : event :: left.events ~ event :: (guests ++ right.events) :=
        calc event :: left.events
          _ ~ first.events := taken.symm
          _ ~ guests ++ second.events := hosts.events
          _ ~ guests ++ event :: right.events := otherTaken.append_left guests
          _ ~ event :: (guests ++ right.events) := List.perm_middle
      exact whole.cons_inv
    · exact absurd named (otherAbsent event (held event member named))
  · rcases hosts.right.erase uid with ⟨other, _, _, otherNamed, _, _, otherTaken⟩ |
      ⟨otherErased, _⟩
    · exact absurd otherNamed (absent other (hosts.events.mem_iff.mpr
        (List.mem_append_right _ (otherTaken.mem_iff.mpr List.mem_cons_self))))
    · exact ⟨none, first, second, erased, otherErased, hosts, .refl _⟩

theorem dismiss {guest : Event} (hosts : Hosts [guest] first second)
    (distinct : (first.events.map fun event => event.key.uid).Nodup) :
    ∃ left, first.erase guest.key.uid = .ok (some guest, left) ∧ Twins left second ∧
      first.events.Perm (guest :: left.events) := by
  have member : guest ∈ first.events := hosts.events.mem_iff.mpr List.mem_cons_self
  rcases hosts.left.erase guest.key.uid with ⟨event, left, erased, named, leftSound, _, taken⟩ |
    ⟨_, absent⟩
  · have same : event = guest :=
      Event.eq_of_uid distinct (taken.mem_iff.mpr List.mem_cons_self) member named
    rw [same] at erased taken
    exact ⟨left, erased, ⟨leftSound, hosts.right, (taken.symm.trans hosts.events).cons_inv⟩,
      taken⟩
  · exact absurd rfl (absent guest member)

end Hosts

namespace Twins

variable (twins : Twins first second)

theorem refl {list : BarrierList} (sound : list.Sound) : list.Twins list :=
  ⟨sound, sound, .refl _⟩

include twins

theorem symm : second.Twins first := ⟨twins.right, twins.left, twins.events.symm⟩

private theorem empty (nothing : second.events = []) : first.events = [] := by
  have perm := twins.events
  rw [nothing] at perm
  exact perm.eq_nil

theorem size_eq : second.size = first.size := by
  rw [twins.left.size_eq, twins.right.size_eq]
  exact twins.events.length_eq.symm

theorem isEmpty_eq : second.isEmpty = first.isEmpty := by
  refine Bool.eq_iff_iff.mpr (isEmpty_iff.trans (Iff.trans ?_ isEmpty_iff.symm))
  exact ⟨fun nothing => twins.empty nothing, fun nothing => twins.symm.empty nothing⟩

theorem front_eq (distinct : (first.events.map fun event => event.key.uid).Nodup) :
    second.front?.map Entry.event = first.front?.map Entry.event := by
  cases atFront : first.front? with
  | none =>
      have nothing := front?_eq_none_iff.mp atFront
      rw [front?_eq_none_iff.mpr (twins.symm.empty nothing)]
  | some front =>
      have member := front_mem_events atFront
      cases atOther : second.front? with
      | none =>
          rw [twins.empty (front?_eq_none_iff.mp atOther)] at member
          cases member
      | some other =>
          have otherMember := twins.events.mem_iff.mpr (front_mem_events atOther)
          have tied : front.event.key.rank = other.event.key.rank :=
            Nat.le_antisymm (twins.left.front_least atFront _ otherMember)
              (twins.right.front_least atOther _ (twins.events.mem_iff.mp member))
          exact congrArg some (Event.eq_of_uid distinct otherMember member
            (EventKey.rank_eq_iff.mp tied).2.symm)

theorem next?_eq (distinct : (first.events.map fun event => event.key.uid).Nodup) :
    second.next? = first.next? := by
  have same := congrArg (Option.map Event.key) (twins.front_eq distinct)
  rw [Option.map_map, Option.map_map] at same
  exact same

theorem pop (distinct : (first.events.map fun event => event.key.uid).Nodup) :
    ∃ event? left right, first.pop = .ok (event?, left) ∧ second.pop = .ok (event?, right) ∧
      left.Twins right ∧ first.events.Perm (event?.toList ++ left.events) := by
  have fronts := twins.front_eq distinct
  cases atFront : first.front? with
  | none =>
      rw [atFront] at fronts
      have atOther := Option.map_eq_none_iff.mp fronts
      exact ⟨none, first, second, pop_of_no_events (front?_eq_none_iff.mp atFront),
        pop_of_no_events (front?_eq_none_iff.mp atOther), twins, .refl _⟩
  | some front =>
      rw [atFront] at fronts
      obtain ⟨other, atOther, same⟩ := Option.map_eq_some_iff.mp fronts
      obtain ⟨left, popped, leftSound, _, taken⟩ := twins.left.pop atFront
      obtain ⟨right, otherPopped, rightSound, _, otherTaken⟩ := twins.right.pop atOther
      rw [same] at otherPopped otherTaken
      exact ⟨some front.event, left, right, popped, otherPopped, ⟨leftSound, rightSound,
        (taken.symm.trans (twins.events.trans otherTaken)).cons_inv⟩, taken⟩

omit twins in
theorem drained (first second : BarrierList) : first.drain.2.Twins second.drain.2 :=
  ⟨empty_sound _, empty_sound _, .refl _⟩

end Twins

end EventKernel.Queue.BarrierList
