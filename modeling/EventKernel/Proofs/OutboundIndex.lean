import EventKernel.Proofs.RemovalOrder
import EventKernel.Queue.LaneQueue

set_option autoImplicit false

/-! The index of messages on their way. Each destination lists the messages to it in
removal order, with the lane of the sender that holds each. The list changes with the
messages held: it is exact before and after every change. -/

namespace EventKernel

namespace Queue

namespace Outbound

def Ordered (outbound : Outbound) : Prop :=
  outbound.parcels.Pairwise fun earlier later => earlier.1.rank < later.1.rank

theorem empty_ordered : empty.Ordered := List.Pairwise.nil

private theorem mem_place (key : EventKey) (lane : Nat) (parcels : List (EventKey × Nat))
    (fresh : ∀ parcel ∈ parcels, parcel.1.rank ≠ key.rank) (parcel : EventKey × Nat) :
    parcel ∈ place key lane parcels ↔ parcel = (key, lane) ∨ parcel ∈ parcels := by
  induction parcels with
  | nil => simp only [place, List.mem_singleton, List.not_mem_nil, or_false]
  | cons head rest ih =>
      obtain ⟨other, held⟩ := head
      have different := fresh (other, held) List.mem_cons_self
      have restFresh := fun later member => fresh later (List.mem_cons_of_mem _ member)
      unfold place
      by_cases before : key.Precedes other
      · rw [if_pos before, List.mem_cons]
      · have after : other.Precedes key := by
          have noLess := EventKey.not_precedes_iff_rank_le.mp before
          exact EventKey.precedes_iff_rank_lt.mpr (Nat.lt_of_le_of_ne noLess different)
        rw [if_neg before, if_pos after, List.mem_cons, ih restFresh, List.mem_cons]
        exact or_left_comm

private theorem mem_insert {outbound : Outbound} {key : EventKey} {lane : Nat}
    (fresh : ∀ parcel ∈ outbound.parcels, parcel.1.rank ≠ key.rank)
    {parcel : EventKey × Nat} :
    parcel ∈ (outbound.insert key lane).parcels ↔
      parcel = (key, lane) ∨ parcel ∈ outbound.parcels :=
  mem_place key lane outbound.parcels fresh parcel

/-- No key is listed that was not listed or entered. -/
theorem key_of_mem_insert {outbound : Outbound} {key : EventKey} {lane : Nat}
    {parcel : EventKey × Nat} (member : parcel ∈ (outbound.insert key lane).parcels) :
    parcel.1 = key ∨ ∃ before ∈ outbound.parcels, before.1 = parcel.1 := by
  obtain ⟨parcels⟩ := outbound
  change parcel ∈ place key lane parcels at member
  change _ ∨ ∃ before ∈ parcels, before.1 = parcel.1
  induction parcels with
  | nil =>
      left
      rw [List.mem_singleton.mp member]
  | cons head rest ih =>
      unfold place at member
      split at member
      · rcases List.mem_cons.mp member with same | before
        · left
          rw [same]
        · exact Or.inr ⟨parcel, before, rfl⟩
      · split at member
        · rcases List.mem_cons.mp member with same | later
          · exact Or.inr ⟨head, List.mem_cons_self, by rw [same]⟩
          · rcases ih later with entered | ⟨before, present, same⟩
            · exact Or.inl entered
            · exact Or.inr ⟨before, List.mem_cons_of_mem _ present, same⟩
        · rcases List.mem_cons.mp member with same | later
          · exact Or.inr ⟨head, List.mem_cons_self, by rw [same]⟩
          · exact Or.inr ⟨parcel, List.mem_cons_of_mem _ later, rfl⟩

/-- A key is entered in its place even if one of the same rank is listed. -/
theorem Ordered.insert {outbound : Outbound} (ordered : outbound.Ordered) (key : EventKey)
    (lane : Nat) : (outbound.insert key lane).Ordered := by
  obtain ⟨parcels⟩ := outbound
  change (place key lane parcels).Pairwise _
  change parcels.Pairwise _ at ordered
  induction parcels with
  | nil => exact List.pairwise_singleton _ _
  | cons head rest ih =>
      obtain ⟨headFirst, restOrdered⟩ := List.pairwise_cons.mp ordered
      unfold place
      split
      · rename_i before
        have less := EventKey.precedes_iff_rank_lt.mp before
        refine List.pairwise_cons.mpr ⟨?_, ordered⟩
        intro parcel member
        rcases List.mem_cons.mp member with same | later
        · rw [same]
          exact less
        · exact Nat.lt_trans less (headFirst parcel later)
      · split
        · rename_i after
          refine List.pairwise_cons.mpr ⟨?_, ih restOrdered⟩
          intro parcel member
          have entered : parcel ∈ ((mk rest).insert key lane).parcels := member
          rcases key_of_mem_insert entered with same | ⟨before, later, same⟩
          · rw [same]
            exact EventKey.precedes_iff_rank_lt.mp after
          · rw [← same]
            exact headFirst before later
        · exact List.pairwise_cons.mpr ⟨headFirst, restOrdered⟩

theorem Ordered.erase {outbound : Outbound} (ordered : outbound.Ordered) (key : EventKey) :
    (outbound.erase key).Ordered :=
  List.Pairwise.sublist List.eraseP_sublist ordered

theorem Ordered.eq_of_key {outbound : Outbound} (ordered : outbound.Ordered)
    {left right : EventKey × Nat} (leftMember : left ∈ outbound.parcels)
    (rightMember : right ∈ outbound.parcels) (same : left.1 = right.1) : left = right := by
  obtain ⟨parcels⟩ := outbound
  change parcels.Pairwise _ at ordered
  induction parcels with
  | nil => cases leftMember
  | cons head rest ih =>
      obtain ⟨headFirst, restOrdered⟩ := List.pairwise_cons.mp ordered
      rcases List.mem_cons.mp leftMember with leftHead | leftRest
      · rcases List.mem_cons.mp rightMember with rightHead | rightRest
        · rw [leftHead, rightHead]
        · have less := headFirst right rightRest
          rw [← leftHead, same] at less
          exact absurd less (Nat.lt_irrefl _)
      · rcases List.mem_cons.mp rightMember with rightHead | rightRest
        · have less := headFirst left leftRest
          rw [← rightHead, same] at less
          exact absurd less (Nat.lt_irrefl _)
        · exact ih leftRest rightRest restOrdered

theorem mem_erase {outbound : Outbound} (ordered : outbound.Ordered) {key : EventKey}
    {parcel : EventKey × Nat} :
    parcel ∈ (outbound.erase key).parcels ↔ parcel ∈ outbound.parcels ∧ parcel.1 ≠ key := by
  unfold erase
  obtain ⟨parcels⟩ := outbound
  change parcels.Pairwise _ at ordered
  simp only
  induction parcels with
  | nil => simp only [List.eraseP_nil, List.not_mem_nil, false_and]
  | cons head rest ih =>
      obtain ⟨headFirst, restOrdered⟩ := List.pairwise_cons.mp ordered
      by_cases named : head.1 = key
      · simp only [List.eraseP_cons, named, beq_self_eq_true, cond_true]
        constructor
        · intro member
          refine ⟨List.mem_cons_of_mem _ member, ?_⟩
          intro same
          have less := headFirst parcel member
          rw [named, same] at less
          exact Nat.lt_irrefl _ less
        · rintro ⟨member, different⟩
          rcases List.mem_cons.mp member with same | later
          · rw [same] at different
            exact absurd named different
          · exact later
      · have kept : (head.1 == key) = false := beq_eq_false_iff_ne.mpr named
        simp only [List.eraseP_cons, kept, cond_false, List.mem_cons, ih restOrdered]
        constructor
        · rintro (same | ⟨later, different⟩)
          · rw [same]
            exact ⟨Or.inl rfl, named⟩
          · exact ⟨Or.inr later, different⟩
        · rintro ⟨same | later, different⟩
          · exact Or.inl same
          · exact Or.inr ⟨later, different⟩

theorem holder?_eq_some_iff {outbound : Outbound} (ordered : outbound.Ordered)
    {key : EventKey} {lane : Nat} :
    outbound.holder? key = some lane ↔ (key, lane) ∈ outbound.parcels := by
  unfold holder?
  rw [Option.map_eq_some_iff]
  constructor
  · rintro ⟨parcel, found, same⟩
    have named : parcel.1 = key :=
      beq_iff_eq.mp (List.find?_some (p := fun parcel : EventKey × Nat => parcel.1 == key) found)
    have member := List.mem_of_find?_eq_some found
    rw [← named, ← same]
    exact member
  · intro member
    cases found : outbound.parcels.find? fun parcel => parcel.1 == key with
    | none =>
        have different := List.find?_eq_none.mp found (key, lane) member
        exact absurd (beq_self_eq_true key) different
    | some parcel =>
        have named : parcel.1 = key := by
          have holds := List.find?_some found
          exact eq_of_beq holds
        have inside := List.mem_of_find?_eq_some found
        rw [ordered.eq_of_key inside member named]
        exact ⟨(key, lane), rfl, rfl⟩

theorem Ordered.first_least {outbound : Outbound} (ordered : outbound.Ordered)
    {first : EventKey} (found : outbound.first? = some first) :
    ∀ parcel ∈ outbound.parcels, first.rank ≤ parcel.1.rank := by
  unfold first? at found
  obtain ⟨parcels⟩ := outbound
  change parcels.Pairwise _ at ordered
  cases parcels with
  | nil => cases found
  | cons head rest =>
      cases found
      intro parcel member
      rcases List.mem_cons.mp member with same | later
      · exact Nat.le_of_eq (by rw [same])
      · exact Nat.le_of_lt ((List.pairwise_cons.mp ordered).1 parcel later)

end Outbound

open LaneQueue (laneOf)

theorem laneOf_injective {left right : Context} (same : laneOf left = laneOf right) :
    left = right := by
  cases left with
  | global =>
      cases right with
      | global => rfl
      | node id => exact absurd same.symm (Nat.succ_ne_zero _)
  | node id =>
      cases right with
      | global => exact absurd same (Nat.succ_ne_zero _)
      | node other =>
          have values : id.value.toNat = other.value.toNat := Nat.succ.inj same
          exact congrArg (fun value => Context.node ⟨value⟩) (UInt32.toNat_inj.mp values)

/-- The indexes hold exactly the messages among some events, each with its sender's lane. -/
def Indexed (crosses : Event → Bool) (events : List Event) (outbound : List Outbound) : Prop :=
  ∀ dest index, outbound[dest]? = some index → index.Ordered ∧
    ∀ key sender, (key, sender) ∈ index.parcels ↔
      ∃ event ∈ events, crosses event = true ∧ event.key = key ∧
        laneOf key.context = dest ∧ laneOf event.prevContext = sender

namespace Indexed

variable {crosses : Event → Bool} {events others : List Event} {outbound : List Outbound}

theorem congr (indexed : Indexed crosses events outbound)
    (same : ∀ event, crosses event = true → (event ∈ others ↔ event ∈ events)) :
    Indexed crosses others outbound := by
  intro dest index found
  obtain ⟨ordered, exactly⟩ := indexed dest index found
  refine ⟨ordered, ?_⟩
  intro key sender
  rw [exactly key sender]
  constructor
  · rintro ⟨event, member, crossing, facts⟩
    exact ⟨event, (same event crossing).mpr member, crossing, facts⟩
  · rintro ⟨event, member, crossing, facts⟩
    exact ⟨event, (same event crossing).mp member, crossing, facts⟩

theorem of_none (none : ∀ event ∈ events, crosses event = false)
    (empty : ∀ index ∈ outbound, index = Outbound.empty) :
    Indexed crosses events outbound := by
  intro dest index found
  rw [empty index (List.mem_of_getElem? found)]
  refine ⟨Outbound.empty_ordered, ?_⟩
  intro key sender
  constructor
  · intro member
    cases member
  · rintro ⟨event, member, crossing, _⟩
    rw [none event member] at crossing
    cases crossing

theorem insert (indexed : Indexed crosses events outbound) (event : Event)
    (crossing : crosses event = true)
    (fresh : ∀ other ∈ events, other.key.uid ≠ event.key.uid) :
    Indexed crosses (event :: events) (outbound.modify (laneOf event.key.context)
      (·.insert event.key (laneOf event.prevContext))) := by
  intro dest index found
  rw [List.getElem?_modify] at found
  cases old : outbound[dest]? with
  | none =>
      rw [old] at found
      split at found <;> cases found
  | some before =>
      obtain ⟨ordered, exactly⟩ := indexed dest before old
      have different : ∀ parcel ∈ before.parcels, parcel.1.rank ≠ event.key.rank := by
        intro parcel member
        obtain ⟨other, inside, _, key, _⟩ := (exactly parcel.1 parcel.2).mp member
        rw [← key]
        exact EventKey.rank_ne_of_uid_ne (fresh other inside)
      rw [old] at found
      by_cases here : laneOf event.key.context = dest
      · simp only [if_pos here, Option.map_eq_map, Option.map_some] at found
        cases found
        refine ⟨ordered.insert _ _, ?_⟩
        intro key sender
        rw [Outbound.mem_insert different, exactly key sender]
        constructor
        · rintro (same | ⟨other, member, facts⟩)
          · cases same
            exact ⟨event, List.mem_cons_self, crossing, rfl, here, rfl⟩
          · exact ⟨other, List.mem_cons_of_mem _ member, facts⟩
        · rintro ⟨other, member, crossingOther, named, atDest, from_⟩
          rcases List.mem_cons.mp member with same | inside
          · left
            rw [← named, ← from_, same]
          · exact Or.inr ⟨other, inside, crossingOther, named, atDest, from_⟩
      · simp only [if_neg here, Option.map_eq_map, Option.map_some] at found
        cases found
        refine ⟨ordered, ?_⟩
        intro key sender
        rw [exactly key sender]
        constructor
        · rintro ⟨other, member, facts⟩
          exact ⟨other, List.mem_cons_of_mem _ member, facts⟩
        · rintro ⟨other, member, crossingOther, named, atDest, from_⟩
          rcases List.mem_cons.mp member with same | inside
          · rw [← named, same] at atDest
            exact absurd atDest here
          · exact ⟨other, inside, crossingOther, named, atDest, from_⟩

theorem erase {event : Event} (indexed : Indexed crosses (event :: events) outbound)
    (fresh : ∀ other ∈ events, other.key.uid ≠ event.key.uid) :
    Indexed crosses events (outbound.modify (laneOf event.key.context)
      (·.erase event.key)) := by
  intro dest index found
  rw [List.getElem?_modify] at found
  cases old : outbound[dest]? with
  | none =>
      rw [old] at found
      split at found <;> cases found
  | some before =>
      obtain ⟨ordered, exactly⟩ := indexed dest before old
      rw [old] at found
      have drops : ∀ key sender, ((key, sender) ∈ before.parcels ∧
          ¬ (laneOf event.key.context = dest ∧ key = event.key)) ↔
          ∃ other ∈ events, crosses other = true ∧ other.key = key ∧
            laneOf key.context = dest ∧ laneOf other.prevContext = sender := by
        intro key sender
        rw [exactly key sender]
        constructor
        · rintro ⟨⟨other, member, crossing, named, atDest, from_⟩, different⟩
          rcases List.mem_cons.mp member with same | inside
          · rw [same] at named
            rw [← named] at atDest
            exact absurd ⟨atDest, named.symm⟩ different
          · exact ⟨other, inside, crossing, named, atDest, from_⟩
        · rintro ⟨other, member, crossing, named, facts⟩
          refine ⟨⟨other, List.mem_cons_of_mem _ member, crossing, named, facts⟩, ?_⟩
          rintro ⟨_, same⟩
          exact fresh other member (by rw [named, same])
      by_cases here : laneOf event.key.context = dest
      · simp only [if_pos here, Option.map_eq_map, Option.map_some] at found
        cases found
        refine ⟨ordered.erase _, ?_⟩
        intro key sender
        rw [Outbound.mem_erase ordered, ← drops key sender]
        simp only [here, true_and, ne_eq]
      · simp only [if_neg here, Option.map_eq_map, Option.map_some] at found
        cases found
        refine ⟨ordered, ?_⟩
        intro key sender
        rw [← drops key sender]
        simp only [here, false_and, not_false_eq_true, and_true]

end Indexed

end Queue

end EventKernel
