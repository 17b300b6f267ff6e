import EventKernel.Proofs.NestedLists

set_option autoImplicit false

/-! What holds of a list between operations, whatever events were put in and taken out. The counts
are right, so none is ever taken below zero, and the front never holds an event back, so none is
lost with it. Parked events hold nothing themselves: what looks one level down has seen all.

The invariant is that of plain entries, read through their reading as nested events; that it is
kept is known for each of their operations. -/

namespace EventKernel.Queue

namespace NestedList

/-- The state of a list between operations. -/
structure Regular (list : NestedList) : Prop where
  ordered : list.main.Pairwise fun earlier later => ¬ later.key.Precedes earlier.key
  barrierCount : list.barriers = list.main.countP fun held => decide (held.event.kind = .timeout)
  deferredCount : list.deferred = (list.main.flatMap NestedEvent.pending).length
  holders : ∀ index held, list.main[index]? = some held → held.pending ≠ [] →
    list.policy.waitingList = true ∧ held.event.kind = .timeout ∧ index ≠ 0
  behind : ∀ held ∈ list.main, ∀ parked ∈ held.pending, ¬ parked.key.Precedes held.key
  shallow : ∀ held ∈ list.main, ∀ parked ∈ held.pending, parked.pending = []

/-- What looks at listed events and at those parked behind them misses none. -/
structure Reached (list : NestedList) : Prop where
  counted : list.size = list.events.length
  nothing : list.isEmpty = true ↔ list.size = 0
  /-- Listed events, each with those parked behind it. -/
  walked : (list.main.flatMap fun held => held.event :: held.pending.map NestedEvent.event) =
    list.events
  /-- Draining hands out every event, and nothing with it. -/
  drained : list.drain = (list.events.map .alone, empty list.policy)
  /-- An event with the serial number leaves alone, if there is one at any depth. -/
  erased : ∀ uid, ∃ held? after, list.erase uid = .ok (held?, after) ∧
    (held? = none → after = list ∧ ∀ event ∈ list.events, event.key.uid ≠ uid) ∧
    ∀ held, held? = some held → ∃ event, held = .alone event ∧ event.key.uid = uid ∧
      list.events.Perm (event :: after.events)

end NestedList

namespace NestedEvent

private theorem events_eq (held : NestedEvent) :
    held.events = held.event :: allEvents held.pending := by
  cases held with
  | mk event pending => rw [events]; rfl

private theorem allEvents_eq_flatMap (all : List NestedEvent) :
    allEvents all = all.flatMap events := by
  induction all with
  | nil => rw [allEvents]; rfl
  | cons held rest ih => rw [allEvents, ih, List.flatMap_cons]

private theorem allEvents_of_alone {all : List NestedEvent}
    (alone : ∀ held ∈ all, held.pending = []) :
    allEvents all = all.map event := by
  induction all with
  | nil => rw [allEvents]; rfl
  | cons held rest ih =>
      have first : held.events = [held.event] := by
        rw [events_eq, alone held List.mem_cons_self, allEvents]
      rw [allEvents, first, ih fun other member => alone other (List.mem_cons_of_mem _ member)]
      rfl

private theorem eq_alone {held : NestedEvent} (nothing : held.pending = []) :
    held = alone held.event := by
  cases held with
  | mk event pending => exact congrArg (mk event) nothing

end NestedEvent

namespace NestedList.Regular

variable {list : NestedList}

private theorem walked (regular : list.Regular) :
    (list.main.flatMap fun held => held.event :: held.pending.map NestedEvent.event) =
      list.events := by
  unfold events
  rw [NestedEvent.allEvents_eq_flatMap]
  apply List.flatMap_congr
  intro held member
  rw [NestedEvent.events_eq, NestedEvent.allEvents_of_alone (regular.shallow held member)]

private theorem counted (regular : list.Regular) : list.size = list.events.length := by
  have listed : ∀ main : List NestedEvent,
      (main.flatMap fun held => held.event :: held.pending.map NestedEvent.event).length =
        main.length + (main.flatMap NestedEvent.pending).length := by
    intro main
    induction main with
    | nil => rfl
    | cons held rest ih =>
        simp only [List.flatMap_cons, List.length_append, List.length_cons, List.length_map, ih]
        omega
  rw [← regular.walked, listed, size, regular.deferredCount]

private theorem isEmpty_iff (regular : list.Regular) : list.isEmpty = true ↔ list.size = 0 := by
  unfold isEmpty size
  rw [List.isEmpty_iff, regular.deferredCount]
  constructor
  · intro nothing
    simp [nothing]
  · intro none
    exact List.length_eq_zero_iff.mp (by omega)

private theorem drained (regular : list.Regular) :
    list.drain = (list.events.map .alone, empty list.policy) := by
  unfold drain
  rw [← regular.walked, List.map_flatMap]
  congr 1
  apply List.flatMap_congr
  intro held member
  rw [List.map_cons, List.map_map]
  congr 1
  symm
  have same : ∀ parked ∈ held.pending, (NestedEvent.alone ∘ NestedEvent.event) parked = parked :=
    fun parked inside => (NestedEvent.eq_alone (regular.shallow held member parked inside)).symm
  rw [List.map_congr_left same, List.map_id']

end NestedList.Regular

namespace BarrierList

variable {list : BarrierList}

private theorem isBarrier_eq (kind : EventKind) : kind.isBarrier = decide (kind = .timeout) := by
  cases kind <;> rfl

private theorem Sound.regular (sound : list.Sound) : list.nest.Regular where
  ordered := by
    apply List.pairwise_map.mpr
    exact sound.ordered.imp fun earlier => EventKey.not_precedes_iff_rank_le.mpr earlier
  barrierCount := by
    simp only [nest, List.countP_map, sound.barrierCount, isBarrier_eq]
    rfl
  deferredCount := by
    have pending : list.nest.main.flatMap NestedEvent.pending =
        (list.entries.flatMap Entry.parked).map .alone := by
      simp only [nest, List.flatMap_map, List.map_flatMap]
      rfl
    rw [pending, List.length_map]
    exact sound.deferredCount
  holders := by
    intro index held here holds
    simp only [nest, List.getElem?_map, Option.map_eq_some_iff] at here
    obtain ⟨entry, listed, same⟩ := here
    subst same
    have parks : entry.parked ≠ [] := by simpa using holds
    obtain ⟨waiting, barrier⟩ := sound.holders entry (List.mem_of_getElem? listed) parks
    refine ⟨waiting, ?_, ?_⟩
    · rw [isBarrier_eq] at barrier
      exact of_decide_eq_true barrier
    · intro first
      rw [first, ← List.head?_eq_getElem?] at listed
      exact parks (sound.freeFront entry listed)
  behind := by
    intro held member parked inside
    obtain ⟨entry, listed, rfl⟩ := List.mem_map.mp member
    obtain ⟨event, waits, rfl⟩ := List.mem_map.mp inside
    exact EventKey.not_precedes_iff_rank_le.mpr (sound.behind entry listed event waits)
  shallow := by
    intro held member parked inside
    obtain ⟨entry, _, rfl⟩ := List.mem_map.mp member
    obtain ⟨event, _, rfl⟩ := List.mem_map.mp inside
    rfl

private theorem Sound.nest_events (sound : list.Sound) : list.nest.events = list.events := by
  rw [← sound.regular.walked]
  unfold events
  simp only [nest, List.flatMap_map, Entry.nest_event, Entry.nest_pending, List.map_map]
  apply List.flatMap_congr
  intro entry _
  have same : NestedEvent.event ∘ NestedEvent.alone = id := rfl
  rw [same, List.map_id]
  rfl

private theorem Sound.reached (sound : list.Sound) : list.nest.Reached where
  counted := sound.regular.counted
  nothing := sound.regular.isEmpty_iff
  walked := sound.regular.walked
  drained := sound.regular.drained
  erased := by
    intro uid
    rw [erase_nest, sound.nest_events]
    rcases sound.erase uid with ⟨event, after, erased, named, kept, _, events⟩ | ⟨erased, absent⟩
    · rw [erased]
      refine ⟨some (.alone event), after.nest, rfl, ?_, ?_⟩
      · intro none
        cases none
      · intro held same
        cases same
        refine ⟨event, rfl, named, ?_⟩
        rw [kept.nest_events]
        exact events
    · rw [erased]
      refine ⟨none, list.nest, rfl, fun _ => ⟨rfl, absent⟩, ?_⟩
      intro held some
      cases some

private theorem Sound.answers (sound : list.Sound) (operations : List Operation) :
    ∃ given last, Queue.answers BarrierList.perform list operations = .ok (given, last) ∧
      last.Sound ∧ last.policy = list.policy := by
  induction operations generalizing list with
  | nil => exact ⟨[], list, rfl, sound, rfl⟩
  | cons operation rest ih =>
      obtain ⟨answer, after, performed, kept, policy⟩ := sound.perform operation
      obtain ⟨given, last, answered, lastSound, lastPolicy⟩ := ih kept
      refine ⟨answer :: given, last, ?_, lastSound, lastPolicy.trans policy⟩
      unfold Queue.answers
      rw [performed]
      change (Queue.answers BarrierList.perform after rest >>= _) = _
      rw [answered]
      rfl

/-- Under every policy and whatever operations come one after another, none meets a fault: no
count is taken below zero and nothing is parked at the front. Plain entries are the nested events
that the same operations lead to; these are regular, and a look one level down reaches them all. -/
theorem nested_lists_stay_regular (policy : ListPolicy) (operations : List Operation) :
    ∃ given last, Queue.answers BarrierList.perform (empty policy) operations = .ok (given, last) ∧
      (NestedList.empty policy).run operations = .ok (given.map Answer.nest, last.nest) ∧
      last.policy = policy ∧ last.nest.Regular ∧ last.nest.Reached := by
  obtain ⟨given, last, answered, sound, kept⟩ := (empty_sound policy).answers operations
  refine ⟨given, last, answered, ?_, kept, sound.regular, sound.reached⟩
  have start : NestedList.empty policy = (empty policy).nest := rfl
  rw [start, run_nest, answered]
  rfl

end BarrierList

end EventKernel.Queue
