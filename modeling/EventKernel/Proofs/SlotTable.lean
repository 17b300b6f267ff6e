import EventKernel.Simulation.Slots

set_option autoImplicit false

/-! Reading the table of callbacks after a change, and the serial numbers it lists. -/

namespace EventKernel.Slots

variable {β : Type}

private theorem lookup_replace (uid other : EventUid) (slot : Slot β)
    (items : List (EventUid × Slot β)) :
    (replace uid slot items).lookup other =
      if other = uid then some slot else items.lookup other := by
  induction items with
  | nil =>
      unfold replace
      by_cases same : other = uid
      · rw [if_pos same, same, List.lookup_cons_self]
      · rw [if_neg same, List.lookup_cons, beq_eq_false_iff_ne.mpr same]
  | cons item rest ih =>
      obtain ⟨held, present⟩ := item
      unfold replace
      by_cases here : held = uid
      · rw [if_pos here, List.lookup_cons, List.lookup_cons, here]
        by_cases same : other = uid
        · rw [if_pos same, same, BEq.rfl]
        · rw [if_neg same, beq_eq_false_iff_ne.mpr same]
      · rw [if_neg here, List.lookup_cons, List.lookup_cons, ih]
        by_cases same : other = held
        · rw [same, if_neg here, if_neg here, BEq.rfl]
        · rw [beq_eq_false_iff_ne.mpr same]

theorem find?_insert (slots : Slots β) (uid other : EventUid) (slot : Slot β) :
    (slots.insert uid slot).find? other = if other = uid then some slot else slots.find? other :=
  lookup_replace uid other slot slots.items

theorem find?_erase (slots : Slots β) (uid other : EventUid) :
    (slots.erase uid).find? other = if other = uid then none else slots.find? other := by
  unfold find? erase
  induction slots.items with
  | nil => simp only [List.filter_nil, List.lookup_nil, ite_self]
  | cons item rest ih =>
      obtain ⟨held, present⟩ := item
      by_cases here : held = uid
      · rw [List.filter_cons_of_neg (by simp [here]), ih, List.lookup_cons]
        by_cases same : other = uid
        · rw [if_pos same, if_pos same]
        · rw [if_neg same, if_neg same, here, beq_eq_false_iff_ne.mpr same]
      · rw [List.filter_cons_of_pos (by simp [here]), List.lookup_cons, List.lookup_cons, ih]
        by_cases same : other = held
        · rw [same, if_neg here, if_neg here, BEq.rfl]
        · rw [beq_eq_false_iff_ne.mpr same]

def uids (slots : Slots β) : List EventUid := slots.items.map Prod.fst

theorem size_eq (slots : Slots β) : slots.size = slots.uids.length := (List.length_map _).symm

theorem exists_find?_iff {slots : Slots β} {uid : EventUid} :
    (∃ slot, slots.find? uid = some slot) ↔ uid ∈ slots.uids := by
  unfold find? uids
  induction slots.items with
  | nil => simp only [List.lookup_nil, reduceCtorEq, exists_false, List.map_nil, List.not_mem_nil]
  | cons item rest ih =>
      rw [List.lookup_cons, List.map_cons, List.mem_cons]
      by_cases here : uid = item.1
      · rw [here, BEq.rfl]
        exact ⟨fun _ => Or.inl rfl, fun _ => ⟨item.2, rfl⟩⟩
      · rw [beq_eq_false_iff_ne.mpr here]
        simp only [here, false_or]
        exact ih

private theorem replace_absent (uid : EventUid) (slot : Slot β) (items : List (EventUid × Slot β))
    (absent : uid ∉ items.map Prod.fst) : replace uid slot items = items ++ [(uid, slot)] := by
  induction items with
  | nil => rfl
  | cons item rest ih =>
      rw [List.map_cons, List.mem_cons, not_or] at absent
      unfold replace
      rw [if_neg (Ne.symm absent.1), ih absent.2, List.cons_append]

private theorem map_fst_replace (uid : EventUid) (slot : Slot β)
    (items : List (EventUid × Slot β)) (present : uid ∈ items.map Prod.fst) :
    (replace uid slot items).map Prod.fst = items.map Prod.fst := by
  induction items with
  | nil => cases present
  | cons item rest ih =>
      unfold replace
      by_cases here : item.1 = uid
      · rw [if_pos here, List.map_cons, List.map_cons, here]
      · rw [List.map_cons, List.mem_cons] at present
        rw [if_neg here, List.map_cons, List.map_cons, ih (present.resolve_left (Ne.symm here))]

theorem uids_insert_absent {slots : Slots β} {uid : EventUid} (slot : Slot β)
    (absent : uid ∉ slots.uids) : (slots.insert uid slot).uids = slots.uids ++ [uid] := by
  unfold uids insert
  simp only [replace_absent uid slot slots.items absent, List.map_append]
  rfl

theorem uids_insert_present {slots : Slots β} {uid : EventUid} (slot : Slot β)
    (present : uid ∈ slots.uids) : (slots.insert uid slot).uids = slots.uids :=
  map_fst_replace uid slot slots.items present

theorem uids_erase {slots : Slots β} (distinct : slots.uids.Nodup) (uid : EventUid) :
    (slots.erase uid).uids = slots.uids.erase uid := by
  rw [distinct.erase_eq_filter]
  unfold uids erase
  rw [List.filter_map]
  rfl

end EventKernel.Slots
