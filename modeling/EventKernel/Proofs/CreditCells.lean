import EventKernel.Queue.CreditTable

set_option autoImplicit false

/-! The cells of the credit table. A table with a row and a column for every entity
answers each question about its entities, and a change of one cell leaves the others. -/

namespace EventKernel.Queue.CreditTable

/-- The table has a cell for any two of so many entities, and interfaces lead to them only. -/
structure Covers (table : CreditTable) (entities : Nat) : Prop where
  listed : table.interfaces.length = entities
  known : ∀ senders ∈ table.interfaces, ∀ sender ∈ senders, sender < entities
  rows : table.inbound.length = entities
  columns : ∀ row ∈ table.inbound, row.length = entities

variable {table : CreditTable} {entities : Nat}

theorem credit_eq_ok_iff {dest sender count : Nat} :
    table.credit dest sender = .ok count ↔
      ∃ row, table.inbound[dest]? = some row ∧ row[sender]? = some count := by
  unfold credit
  cases found : table.inbound[dest]? with
  | none =>
      simp only [Option.bind_eq_bind, Option.bind_none, reduceCtorEq, false_and, exists_false]
  | some row =>
      simp only [Option.bind_eq_bind, Option.bind_some]
      cases cell : row[sender]? with
      | none => simp only [reduceCtorEq, Option.some.injEq, exists_eq_left', cell]
      | some held => simp only [Except.ok.injEq, Option.some.injEq, exists_eq_left', cell]

theorem Covers.credit (covers : table.Covers entities) {dest sender : Nat}
    (destKnown : dest < entities) (senderKnown : sender < entities) :
    ∃ count, table.credit dest sender = .ok count := by
  have within : dest < table.inbound.length := by rw [covers.rows]; exact destKnown
  have width := covers.columns _ (List.getElem_mem within)
  have inside : sender < table.inbound[dest].length := by rw [width]; exact senderKnown
  exact ⟨table.inbound[dest][sender], credit_eq_ok_iff.mpr
    ⟨table.inbound[dest], List.getElem?_eq_getElem within, List.getElem?_eq_getElem inside⟩⟩

theorem Covers.put (covers : table.Covers entities) (dest sender count : Nat) :
    (table.put dest sender count).Covers entities where
  listed := covers.listed
  known := covers.known
  rows := by
    unfold CreditTable.put
    rw [List.length_modify]
    exact covers.rows
  columns := by
    intro row member
    obtain ⟨index, found⟩ := List.mem_iff_getElem?.mp member
    unfold CreditTable.put at found
    simp only [List.getElem?_modify, Option.map_eq_map, Option.map_eq_some_iff] at found
    obtain ⟨before, old, changed⟩ := found
    have width := covers.columns before (List.mem_of_getElem? old)
    rw [← changed]
    split
    · rw [List.length_set]
      exact width
    · exact width

theorem credit_put {dest sender count : Nat} {other source held : Nat}
    (read : (table.put dest sender count).credit other source = .ok held) :
    (other = dest ∧ source = sender ∧ held = count) ∨
      (¬ (other = dest ∧ source = sender) ∧ table.credit other source = .ok held) := by
  obtain ⟨row, found, cell⟩ := credit_eq_ok_iff.mp read
  unfold put at found
  simp only [List.getElem?_modify, Option.map_eq_map, Option.map_eq_some_iff] at found
  obtain ⟨before, old, changed⟩ := found
  by_cases here : dest = other
  · rw [if_pos here] at changed
    rw [← changed, List.getElem?_set] at cell
    by_cases same : sender = source
    · rw [if_pos same] at cell
      split at cell
      · cases cell
        exact Or.inl ⟨here.symm, same.symm, rfl⟩
      · cases cell
    · rw [if_neg same] at cell
      exact Or.inr ⟨fun both => same both.2.symm, credit_eq_ok_iff.mpr ⟨before, old, cell⟩⟩
  · rw [if_neg here] at changed
    rw [← changed] at cell
    exact Or.inr ⟨fun both => here both.1.symm, credit_eq_ok_iff.mpr ⟨before, old, cell⟩⟩

theorem Covers.deliver (covers : table.Covers entities) (dest sender : Nat)
    (destKnown : dest < entities) (senderKnown : sender < entities) :
    ∃ count, table.credit dest sender = .ok count ∧
      (table.deliver dest sender = .ok (table.put dest sender (count + 1)) ∨
        table.deliver dest sender = .error .arithmeticOverflow ∧ countLimit ≤ count + 1) := by
  obtain ⟨count, read⟩ := covers.credit destKnown senderKnown
  refine ⟨count, read, ?_⟩
  unfold CreditTable.deliver
  rw [read]
  simp only [bind, Except.bind]
  by_cases fits : count + 1 < countLimit
  · left
    rw [if_pos fits]
    rfl
  · right
    rw [if_neg fits]
    exact ⟨rfl, Nat.le_of_not_lt fits⟩

theorem Covers.consume (covers : table.Covers entities) (dest sender : Nat)
    (destKnown : dest < entities) (senderKnown : sender < entities) :
    ∃ count, table.credit dest sender = .ok count ∧
      table.consume dest sender = .ok (table.put dest sender (count - 1)) := by
  obtain ⟨count, read⟩ := covers.credit destKnown senderKnown
  refine ⟨count, read, ?_⟩
  unfold CreditTable.consume
  rw [read]
  rfl

theorem Covers.toOption_credit (covers : table.Covers entities) {dest sender : Nat}
    (destKnown : dest < entities) (senderKnown : sender < entities) :
    ∃ count, (table.credit dest sender).toOption = some count := by
  obtain ⟨count, read⟩ := covers.credit destKnown senderKnown
  exact ⟨count, by rw [read]; rfl⟩

private theorem Covers.holdsFrom_eq (covers : table.Covers entities) {node : Nat}
    (known : node < entities) (senders : List Nat)
    (sendersKnown : ∀ sender ∈ senders, sender < entities) :
    table.holdsFrom node senders =
      .ok (senders.all fun sender => (table.credit node sender).toOption != some 0) := by
  induction senders with
  | nil => rfl
  | cons sender rest ih =>
      obtain ⟨senderKnown, restKnown⟩ := List.forall_mem_cons.mp sendersKnown
      obtain ⟨count, read⟩ := covers.credit known senderKnown
      unfold CreditTable.holdsFrom
      rw [read, List.all_cons, read, ih restKnown]
      cases count with
      | zero => rfl
      | succ count => rfl

theorem Covers.maySend_eq (covers : table.Covers entities) {node : Nat} (known : node < entities)
    {senders : List Nat} (listed : table.interfaces[node]? = some senders) :
    table.maySend node =
      .ok (senders.all fun sender => (table.credit node sender).toOption != some 0) := by
  unfold CreditTable.maySend
  simp only [listed]
  exact covers.holdsFrom_eq known senders (covers.known senders (List.mem_of_getElem? listed))

theorem Covers.maySend (covers : table.Covers entities) (node : Nat)
    (known : node < entities) : ∃ answer, table.maySend node = .ok answer := by
  have within : node < table.interfaces.length := by rw [covers.listed]; exact known
  exact ⟨_, covers.maySend_eq known (List.getElem?_eq_getElem within)⟩

theorem Covers.maySend_of_empty (covers : table.Covers entities) {node : Nat}
    (known : node < entities) {senders : List Nat}
    (found : table.interfaces[node]? = some senders) (waits : senders ≠ [])
    (empty : ∀ sender count, table.credit node sender = .ok count → count = 0) :
    table.maySend node = .ok false := by
  have sendersKnown := covers.known senders (List.mem_of_getElem? found)
  unfold CreditTable.maySend
  simp only [found]
  cases senders with
  | nil => exact absurd rfl waits
  | cons sender rest =>
      obtain ⟨count, read⟩ := covers.credit known (sendersKnown sender List.mem_cons_self)
      unfold CreditTable.holdsFrom
      rw [read, empty sender count read]
      rfl

theorem deliver_eq_ok {after : CreditTable} {dest sender : Nat}
    (delivered : table.deliver dest sender = .ok after) :
    ∃ count, table.credit dest sender = .ok count ∧ count + 1 < countLimit ∧
      after = table.put dest sender (count + 1) := by
  obtain ⟨count, read, rest⟩ := bind_eq_ok delivered
  split at rest
  · rename_i fits
    exact ⟨count, read, fits, (Except.ok.inj rest).symm⟩
  · cases rest

theorem consume_eq_ok {after : CreditTable} {dest sender : Nat}
    (consumed : table.consume dest sender = .ok after) :
    ∃ count, table.credit dest sender = .ok count ∧
      after = table.put dest sender (count - 1) := by
  obtain ⟨count, read, rest⟩ := bind_eq_ok consumed
  exact ⟨count, read, (Except.ok.inj rest).symm⟩

/-- The credit that is kept, if any is; at most one of its counts has changed. -/
inductive Recounts : Option CreditTable → Option CreditTable → Prop
  | same (credits : Option CreditTable) : Recounts credits credits
  | put (table : CreditTable) (dest sender count : Nat) :
      Recounts (some table) (some (table.put dest sender count))

namespace Recounts

variable {before credits : Option CreditTable} (recounts : Recounts before credits)

include recounts

theorem interfaces :
    credits.map CreditTable.interfaces = before.map CreditTable.interfaces := by
  cases recounts with
  | same => rfl
  | put => rfl

theorem isSome_eq : credits.isSome = before.isSome := by
  cases recounts with
  | same => rfl
  | put => rfl

theorem covers (covered : ∀ table, before = some table → table.Covers entities) :
    ∀ table, credits = some table → table.Covers entities := by
  cases recounts with
  | same => exact covered
  | put earlier =>
      rintro table ⟨⟩
      exact (covered earlier rfl).put _ _ _

end Recounts

theorem new_covers {interfaces : List (List NodeId)} (few : interfaces.length ≤ entities)
    (known : ∀ neighbours ∈ interfaces, ∀ node ∈ neighbours, node.index < entities) :
    ∃ table, new entities interfaces = .ok table ∧ table.Covers entities ∧
      ∀ dest sender count, table.credit dest sender = .ok count → count = 0 := by
  refine ⟨_, if_pos few, ?_, ?_⟩
  · refine { listed := ?_, known := ?_, rows := List.length_replicate, columns := ?_ }
    · rw [List.length_append, List.length_map, List.length_replicate]
      omega
    · intro senders member sender inside
      rcases List.mem_append.mp member with given | missing
      · obtain ⟨neighbours, present, rfl⟩ := List.mem_map.mp given
        obtain ⟨node, neighbour, rfl⟩ := List.mem_map.mp inside
        exact known neighbours present node neighbour
      · rw [List.eq_of_mem_replicate missing] at inside
        cases inside
    · intro row member
      rw [List.eq_of_mem_replicate member, List.length_replicate]
  · intro dest sender count read
    obtain ⟨row, found, cell⟩ := credit_eq_ok_iff.mp read
    rw [List.eq_of_mem_replicate (List.mem_of_getElem? found)] at cell
    exact List.eq_of_mem_replicate (List.mem_of_getElem? cell)

theorem new_waits_iff {interfaces : List (List NodeId)}
    (built : new entities interfaces = .ok table) {entity : Nat} :
    (∃ senders, table.interfaces[entity]? = some senders ∧ senders ≠ []) ↔
      ∃ neighbours, interfaces[entity]? = some neighbours ∧ neighbours ≠ [] := by
  unfold new at built
  split at built
  · cases built
    rcases Nat.lt_or_ge entity interfaces.length with listed | beyond
    · rw [List.getElem?_append_left (by rw [List.length_map]; exact listed), List.getElem?_map,
        List.getElem?_eq_getElem listed]
      simp only [Option.map_some, Option.some.injEq, exists_eq_left', ne_eq, List.map_eq_nil_iff]
    · rw [List.getElem?_append_right (by rw [List.length_map]; exact beyond),
        List.getElem?_eq_none beyond]
      constructor
      · rintro ⟨senders, found, some⟩
        exact absurd (List.eq_of_mem_replicate (List.mem_of_getElem? found)) some
      · rintro ⟨neighbours, impossible, _⟩
        cases impossible
  · cases built

end EventKernel.Queue.CreditTable
