import EventKernel.Proofs.PathReduction
import Mathlib.Data.List.InsertIdx

set_option autoImplicit false

/-! One list, kept as events that carry the events parked behind them. An event may be parked with
events of its own, so nothing in the kind of data bounds how deep they stand, and the operations go
by positions: a scan runs over indices, a removal looks at the listed events and then at those
parked behind each of them, and what a parked event holds takes its place. The counts go up and
down as events come and go, and a count below zero is a fault.

Entries with plain parked events are lists of this kind that are one level deep. Every operation on
them is the same operation here, so the lists that can be reached from an empty one are never
deeper. -/

namespace EventKernel.Queue

/-- An event with the events that wait behind it. -/
inductive NestedEvent where
  | mk (event : Event) (pending : List NestedEvent)

namespace NestedEvent

def event : NestedEvent → Event
  | mk event _ => event

def pending : NestedEvent → List NestedEvent
  | mk _ pending => pending

def key (held : NestedEvent) : EventKey := held.event.key

def alone (event : Event) : NestedEvent := mk event []

mutual

def events : NestedEvent → List Event
  | mk event pending => event :: allEvents pending

def allEvents : List NestedEvent → List Event
  | [] => []
  | held :: rest => held.events ++ allEvents rest

end

end NestedEvent

structure NestedList where
  policy : ListPolicy
  main : List NestedEvent
  /-- Timeouts among the listed events. -/
  barriers : Nat
  /-- Events parked behind some barrier. -/
  deferred : Nat

/-- What an operation answers; events are handed out with what waits behind them. -/
inductive Handed where
  | inserted (result : Except BranchEnded EventKey)
  | reinserted
  | next (key? : Option EventKey)
  | taken (held? : Option NestedEvent)
  | drained (all : List NestedEvent)

namespace NestedList

def empty (policy : ListPolicy) : NestedList := ⟨policy, [], 0, 0⟩

def events (list : NestedList) : List Event := NestedEvent.allEvents list.main

def isEmpty (list : NestedList) : Bool := list.main.isEmpty

def size (list : NestedList) : Nat := list.main.length + list.deferred

def next? (list : NestedList) : Option EventKey := list.main.head?.map NestedEvent.key

/-! ### Insertion -/

def hasInnerBarrier (list : NestedList) : Bool :=
  list.policy.waitingList &&
    decide ((match list.main.head? with
      | some front => BarrierList.barrierWeight front.event
      | none => 0) < list.barriers)

def pushMain (list : NestedList) (index : Nat) (held : NestedEvent) : NestedList :=
  { list with
    main := list.main.insertIdx index held
    barriers := list.barriers + BarrierList.barrierWeight held.event }

def park (held parked : NestedEvent) : NestedEvent := .mk held.event (held.pending ++ [parked])

def parkBehind (list : NestedList) (index : Nat) (held : NestedEvent) : NestedList :=
  { list with
    main := list.main.modify index (park · held)
    deferred := list.deferred + 1 }

/-- Where an event goes that belongs at the tail, or just before a final Stop. -/
def tailIndex? (comparison : Comparison) (key : EventKey) (main : List NestedEvent) : Option Nat :=
  match main.getLast? with
  | none => some 0
  | some last =>
      if !comparison.sortsBefore key last.key then some main.length
      else if last.event.kind = .stop &&
          (match main[main.length - 2]? with
            | some previous => main.length == 1 || !comparison.sortsBefore key previous.key
            | none => main.length == 1) then
        some (main.length - 1)
      else none

/-- The index where a scan ends, and whether it ends at a barrier that holds the event back. -/
def place (policy : ListPolicy) (key : EventKey) (main : List NestedEvent) (index : Nat) :
    Nat × Bool :=
  if within : index < main.length then
    if policy.comparison.sortsBefore key main[index].key then (index, false)
    else if policy.waitingList && index != 0 && main[index].event.kind.isBarrier then (index, true)
    else place policy key main (index + 1)
  else (index, false)
termination_by main.length - index

def scanFrom (list : NestedList) (start : Nat) (held : NestedEvent) : NestedList :=
  match place list.policy held.key list.main start with
  | (index, true) => list.parkBehind index held
  | (index, false) => list.pushMain index held

def insertFrom (list : NestedList) (start : Nat) (held : NestedEvent) : NestedList :=
  if list.policy.tailFastPath && start == 0 && !list.hasInnerBarrier then
    match tailIndex? list.policy.comparison held.key list.main with
    | some index => list.pushMain index held
    | none => list.scanFrom start held
  else
    list.scanFrom start held

def insert (list : NestedList) (event : Event) : NestedList := list.insertFrom 0 (.alone event)

/-! ### Removal -/

def reinsert (list : NestedList) (start : Nat) (pending : List NestedEvent) :
    Except Fault NestedList := do
  let deferred ← decrement list.deferred pending.length
  return pending.foldl (fun current held => current.insertFrom start held) { list with deferred }

/-- Gives back what waits behind the front. -/
def promoteFront (list : NestedList) : Except Fault NestedList :=
  match list.main with
  | [] => .ok list
  | front :: rest =>
      if front.pending.isEmpty then .ok list
      else reinsert { list with main := .alone front.event :: rest } 1 front.pending

def takeMain (list : NestedList) (index : Nat) : Except Fault (Option (NestedEvent × NestedList)) :=
  match list.main[index]? with
  | none => .ok none
  | some held => do
      let barriers ← decrement list.barriers (BarrierList.barrierWeight held.event)
      return some (held, { list with main := list.main.eraseIdx index, barriers })

def pop (list : NestedList) : Except Fault (Option NestedEvent × NestedList) := do
  match ← list.takeMain 0 with
  | none => return (none, list)
  | some (held, rest) =>
      if held.pending.isEmpty then
        let rest ← rest.promoteFront
        return (some held, rest)
      else .error .parkedAtFront

/-- Looks one level down. What the event held takes its place behind the same barrier. -/
def eraseParked (uid : EventUid) : List NestedEvent → Option (Event × List NestedEvent)
  | [] => none
  | held :: rest =>
      match held.pending.findIdx? (·.key.uid == uid) with
      | some index =>
          match held.pending[index]? with
          | some parked =>
              let left := held.pending.take index ++ parked.pending ++
                held.pending.drop (index + 1)
              some (parked.event, .mk held.event left :: rest)
          | none => none
      | none => (eraseParked uid rest).map fun (event, rest) => (event, held :: rest)

/-- Takes a listed event and puts back what waited behind it. -/
def eraseMain (list : NestedList) (index : Nat) :
    Except Fault (Option NestedEvent × NestedList) := do
  match ← list.takeMain index with
  | none => return (none, list)
  | some (held, rest) =>
      let rest ←
        if held.pending.isEmpty then .ok rest else rest.reinsert index held.pending
      let rest ← rest.promoteFront
      return (some (.alone held.event), rest)

def erase (list : NestedList) (uid : EventUid) : Except Fault (Option NestedEvent × NestedList) :=
  match list.main.findIdx? (·.key.uid == uid) with
  | some index => list.eraseMain index
  | none =>
      match eraseParked uid list.main with
      | some (event, main) => do
          let deferred ← decrement list.deferred 1
          return (some (.alone event), { list with main, deferred })
      | none => .ok (none, list)

def drain (list : NestedList) : List NestedEvent × NestedList :=
  (list.main.flatMap fun held => .alone held.event :: held.pending, empty list.policy)

def perform (list : NestedList) : Operation → Except Fault (Handed × NestedList)
  | .insert event => return (.inserted (.ok event.key), list.insert event)
  | .reinsert event => return (.reinserted, list.insert event)
  | .next => return (.next list.next?, list)
  | .pop => do
      let (held?, list) ← list.pop
      return (.taken held?, list)
  | .erase key => do
      let (held?, list) ← list.erase key.uid
      return (.taken held?, list)
  | .drain => return (.drained list.drain.1, list.drain.2)

/-- Operations one after another, with their answers. -/
def run (list : NestedList) : List Operation → Except Fault (List Handed × NestedList)
  | [] => return ([], list)
  | operation :: rest => do
      let (answer, after) ← list.perform operation
      let (others, last) ← after.run rest
      return (answer :: others, last)

end NestedList

/-! ### Entries as nested events -/

def Entry.nest (entry : Entry) : NestedEvent := .mk entry.event (entry.parked.map .alone)

@[simp] theorem Entry.nest_event (entry : Entry) : entry.nest.event = entry.event := rfl

@[simp] theorem Entry.nest_key (entry : Entry) : entry.nest.key = entry.event.key := rfl

@[simp] theorem Entry.nest_pending (entry : Entry) :
    entry.nest.pending = entry.parked.map .alone := rfl

def BarrierList.nest (list : BarrierList) : NestedList where
  policy := list.policy
  main := list.entries.map Entry.nest
  barriers := list.barriers
  deferred := list.deferred

/-- The answer of plain entries as one of nested events. -/
def Answer.nest : Answer → Handed
  | .inserted result => .inserted result
  | .reinserted => .reinserted
  | .next key? => .next key?
  | .taken event? => .taken (event?.map .alone)
  | .drained events => .drained (events.map .alone)

namespace BarrierList

private theorem insertIdx_eq {α : Type} {items : List α} {index : Nat}
    (within : index ≤ items.length) (item : α) :
    items.insertIdx index item = items.take index ++ item :: items.drop index := by
  have split := insertIdx_append_length (items.take index) (items.drop index) item
  rwa [List.take_append_drop, List.length_take, Nat.min_eq_left within] at split

private theorem hasInnerBarrier_nest (list : BarrierList) :
    list.nest.hasInnerBarrier = list.hasInnerBarrier := by
  unfold NestedList.hasInnerBarrier hasInnerBarrier BarrierList.nest front?
  cases list.entries with
  | nil => rfl
  | cons entry rest => rfl

private theorem listAt_nest (list : BarrierList) (index : Nat) (event : Event) :
    list.nest.pushMain index (.alone event) = (list.listAt index event).nest := by
  unfold NestedList.pushMain listAt BarrierList.nest
  simp only [List.map_insertIdx]
  rfl

private theorem tailIndex?_nest (comparison : Comparison) (event : Event) (entries : List Entry) :
    NestedList.tailIndex? comparison event.key (entries.map Entry.nest) =
      tailIndex? comparison event entries := by
  unfold NestedList.tailIndex? tailIndex?
  cases shape : entries.reverse with
  | nil =>
      rw [List.reverse_eq_nil_iff.mp shape]
      rfl
  | cons last earlier =>
      have whole : entries = earlier.reverse ++ [last] := by
        rw [← List.reverse_cons, ← shape, List.reverse_reverse]
      have final : (entries.map Entry.nest).getLast? = some last.nest := by simp [whole]
      have length : entries.length = earlier.length + 1 := by simp [whole]
      simp only [final, List.length_map, length]
      cases earlier with
      | nil =>
          dsimp only [Entry.nest_event, Entry.nest_key]
          by_cases stops : last.event.kind = .stop <;> simp [whole, stops]
      | cons previous former =>
          have before : (entries.map Entry.nest)[former.length]? = some previous.nest := by
            simp [whole]
          dsimp only [Entry.nest_event, Entry.nest_key]
          by_cases stops : last.event.kind = .stop <;> simp [before, stops]

private theorem scan_place (policy : ListPolicy) (event : Event) (entries : List Entry)
    (start : Nat) (within : start ≤ entries.length) :
    (∃ index, NestedList.place policy event.key (entries.map Entry.nest) start = (index, true) ∧
      entries.take start ++ (scan policy event (start == 0) (entries.drop start)).1 =
        entries.modify index (fun entry => { entry with parked := entry.parked ++ [event] }) ∧
      (scan policy event (start == 0) (entries.drop start)).2 = .parked) ∨
    ∃ index, NestedList.place policy event.key (entries.map Entry.nest) start = (index, false) ∧
      entries.take start ++ (scan policy event (start == 0) (entries.drop start)).1 =
        entries.insertIdx index (.plain event) ∧
      (scan policy event (start == 0) (entries.drop start)).2 = .listed := by
  -- One side goes by indices and the other by what is left of the list: the induction is on how
  -- much that is.
  induction remaining : entries.length - start generalizing start with
  | zero =>
      have atEnd : start = entries.length := by omega
      right
      refine ⟨start, ?_, ?_, ?_⟩
      · rw [NestedList.place, dif_neg (by simp [atEnd])]
      · rw [insertIdx_eq within, atEnd, List.drop_length]
        rfl
      · rw [atEnd, List.drop_length]
        rfl
  | succ count ih =>
      have inside : start < entries.length := by omega
      have here : entries.drop start = entries[start] :: entries.drop (start + 1) :=
        List.drop_eq_getElem_cons inside
      have listed : start < (entries.map Entry.nest).length := by simpa using inside
      have same : (entries.map Entry.nest)[start] = entries[start].nest := by simp
      rw [here]
      unfold scan
      rw [NestedList.place, dif_pos listed, same, Entry.nest_key, Entry.nest_event]
      by_cases before : policy.comparison.sortsBefore event.key entries[start].event.key = true
      · right
        rw [if_pos before, if_pos before]
        exact ⟨start, rfl, by rw [insertIdx_eq within, here], rfl⟩
      · rw [if_neg before, if_neg before]
        have front : (start != 0) = !(start == 0) := rfl
        rw [front]
        by_cases holds : (policy.waitingList && !(start == 0) &&
            entries[start].event.kind.isBarrier) = true
        · left
          rw [if_pos holds, if_pos holds]
          exact ⟨start, rfl, by rw [List.modify_eq_take_cons_drop inside], rfl⟩
        · rw [if_neg holds, if_neg holds]
          have past : (start + 1 == 0) = false := by simp
          have next := ih (start + 1) inside (by omega)
          rw [past, List.take_add_one, List.getElem?_eq_getElem inside] at next
          simp only [Option.toList_some, List.append_assoc, List.singleton_append] at next
          exact next

private theorem map_modify (index : Nat) (event : Event) (entries : List Entry) :
    (entries.modify index fun entry => { entry with parked := entry.parked ++ [event] }).map
        Entry.nest =
      (entries.map Entry.nest).modify index (NestedList.park · (.alone event)) := by
  apply List.ext_getElem?
  intro position
  simp only [List.getElem?_map, List.getElem?_modify]
  cases entries[position]? with
  | none => rfl
  | some entry =>
      by_cases here : index = position
      · simp [here, NestedList.park, Entry.nest, NestedEvent.pending, NestedEvent.event]
      · simp [here]

private theorem scanFrom_nest {list : BarrierList} {start : Nat} (event : Event)
    (within : start ≤ list.entries.length) :
    list.nest.scanFrom start (.alone event) = (list.scanFrom start event).nest := by
  have placed := scan_place list.policy event list.entries start within
  change (match NestedList.place list.policy event.key (list.entries.map Entry.nest) start with
    | (index, true) => list.nest.parkBehind index (.alone event)
    | (index, false) => list.nest.pushMain index (.alone event)) = _
  unfold scanFrom
  rcases placed with ⟨index, ends, shape, parks⟩ | ⟨index, ends, shape, lists⟩
  · simp only [ends, shape, parks, NestedList.parkBehind, BarrierList.nest, map_modify]
  · simp only [ends, shape, lists, listAt_nest]
    rfl

private theorem insertFrom_nest {list : BarrierList} {start : Nat} (event : Event)
    (within : start ≤ list.entries.length) :
    list.nest.insertFrom start (.alone event) = (list.insertFrom start event).nest := by
  unfold NestedList.insertFrom insertFrom
  rw [hasInnerBarrier_nest, scanFrom_nest event within]
  change (if (list.policy.tailFastPath && start == 0 && !list.hasInnerBarrier) = true then
    match NestedList.tailIndex? list.policy.comparison event.key (list.entries.map Entry.nest) with
    | some index => list.nest.pushMain index (.alone event)
    | none => (list.scanFrom start event).nest
    else (list.scanFrom start event).nest) = _
  rw [tailIndex?_nest]
  split
  · cases tailIndex? list.policy.comparison event list.entries with
    | none => rfl
    | some index => exact listAt_nest list index event
  · rfl

/-! ### Removal -/

private theorem length_le_insertFrom (list : NestedList) (start : Nat) (held : NestedEvent) :
    list.main.length ≤ (list.insertFrom start held).main.length := by
  have pushed : ∀ index, list.main.length ≤ (list.pushMain index held).main.length := by
    intro index
    simp only [NestedList.pushMain, List.length_insertIdx]
    split <;> omega
  have scanned : list.main.length ≤ (list.scanFrom start held).main.length := by
    unfold NestedList.scanFrom
    split
    · simp [NestedList.parkBehind]
    · exact pushed _
  unfold NestedList.insertFrom
  split
  · split
    · exact pushed _
    · exact scanned
  · exact scanned

private theorem foldl_nest (list : BarrierList) {start : Nat} (parked : List Event)
    (within : start ≤ list.entries.length) :
    (parked.map NestedEvent.alone).foldl (fun current held => current.insertFrom start held)
        list.nest =
      (parked.foldl (fun current event => current.insertFrom start event) list).nest := by
  induction parked generalizing list with
  | nil => rfl
  | cons event rest ih =>
      -- No insertion shortens a list, so the place to scan from stays within it.
      have grown := length_le_insertFrom list.nest start (.alone event)
      rw [insertFrom_nest event within] at grown
      simp only [nest, List.length_map] at grown
      rw [List.map_cons, List.foldl_cons, List.foldl_cons, insertFrom_nest event within]
      exact ih _ (by omega)

private theorem reinsert_nest (list : BarrierList) (start : Nat) (parked : List Event)
    (within : start ≤ list.entries.length) :
    list.nest.reinsert start (parked.map .alone) = nest <$> list.release start parked := by
  unfold NestedList.reinsert release
  rw [List.length_map]
  change (decrement list.deferred parked.length >>= _) = _
  cases decrement list.deferred parked.length with
  | error fault => rfl
  | ok deferred => exact congrArg Except.ok (foldl_nest { list with deferred } parked within)

private theorem promoteFront_nest (list : BarrierList) :
    list.nest.promoteFront = nest <$> list.promoteFront := by
  obtain ⟨policy, entries, barriers, deferred⟩ := list
  cases entries with
  | nil => rfl
  | cons front rest =>
      unfold NestedList.promoteFront promoteFront
      simp only [nest, List.map_cons, Entry.nest_pending, List.isEmpty_map]
      split
      · rfl
      · exact reinsert_nest ⟨policy, .plain front.event :: rest, barriers, deferred⟩ 1 front.parked
          (by simp)

private theorem pop_nest (list : BarrierList) :
    list.nest.pop = (fun popped => (popped.1.map .alone, popped.2.nest)) <$> list.pop := by
  obtain ⟨policy, entries, barriers, deferred⟩ := list
  cases entries with
  | nil => rfl
  | cons front rest =>
      obtain ⟨event, parked⟩ := front
      unfold NestedList.pop pop NestedList.takeMain
      simp only [nest, List.map_cons, List.getElem?_cons_zero, Entry.nest_event]
      cases decrement barriers (barrierWeight event) with
      | error fault => rfl
      | ok barriers =>
          cases parked with
          | cons first others => rfl
          | nil =>
              change ((nest ⟨policy, rest, barriers, deferred⟩).promoteFront >>= _) =
                _ <$> (promoteFront ⟨policy, rest, barriers, deferred⟩ >>= _)
              rw [promoteFront_nest]
              cases promoteFront ⟨policy, rest, barriers, deferred⟩ with
              | error fault => rfl
              | ok after => rfl

private theorem takeMain_nest {list : BarrierList} {index : Nat} {entry : Entry}
    (listed : list.entries[index]? = some entry) :
    list.nest.takeMain index =
      (fun barriers => some (entry.nest,
        nest { list with entries := list.entries.eraseIdx index, barriers })) <$>
          decrement list.barriers (barrierWeight entry.event) := by
  have held : list.nest.main[index]? = some entry.nest := by simp [nest, listed]
  unfold NestedList.takeMain
  rw [held]
  simp only [nest, List.eraseIdx_map]
  rfl

private theorem eraseMain_nest {list : BarrierList} {index : Nat} {entry : Entry}
    (within : index < list.entries.length) (listed : list.entries[index]? = some entry) :
    list.nest.eraseMain index =
      (fun after => (some (.alone entry.event), after.nest)) <$> list.eraseListed index entry := by
  unfold NestedList.eraseMain eraseListed
  rw [takeMain_nest listed]
  cases decrement list.barriers (barrierWeight entry.event) with
  | error fault => rfl
  | ok barriers =>
      have released := reinsert_nest
        { list with entries := list.entries.eraseIdx index, barriers } index entry.parked
        (by simp only [List.length_eraseIdx, if_pos within]; omega)
      obtain ⟨event, parked⟩ := entry
      cases parked with
      | nil =>
          change (NestedList.promoteFront (nest _) >>= _) = _ <$> promoteFront _
          rw [promoteFront_nest]
          cases promoteFront { list with entries := list.entries.eraseIdx index, barriers } with
          | error fault => rfl
          | ok after => rfl
      | cons first others =>
          change ((nest _).reinsert index ((first :: others).map .alone) >>= _) =
            _ <$> (release _ index (first :: others) >>= _)
          rw [released]
          cases release { list with entries := list.entries.eraseIdx index, barriers } index
              (first :: others) with
          | error fault => rfl
          | ok remaining =>
              change (NestedList.promoteFront (nest _) >>= _) = _ <$> promoteFront _
              rw [promoteFront_nest]
              cases promoteFront remaining with
              | error fault => rfl
              | ok after => rfl

private theorem findIdx?_alone (uid : EventUid) (parked : List Event) :
    (parked.map NestedEvent.alone).findIdx? (·.key.uid == uid) =
      parked.findIdx? (·.key.uid == uid) := by
  rw [List.findIdx?_map]
  rfl

private theorem eraseParked_nest (uid : EventUid) (entries : List Entry) :
    NestedList.eraseParked uid (entries.map Entry.nest) =
      (eraseParked uid entries).map fun found => (found.1, found.2.map Entry.nest) := by
  induction entries with
  | nil => rfl
  | cons entry rest ih =>
      unfold eraseParked
      rw [List.map_cons]
      unfold NestedList.eraseParked
      rw [Entry.nest_pending, findIdx?_alone]
      cases found : entry.parked.findIdx? (·.key.uid == uid) with
      | none =>
          have missing : entry.parked.find? (·.key.uid == uid) = none := by
            simpa using List.findIdx?_eq_none_iff.mp found
          rw [missing, ih]
          cases eraseParked uid rest with
          | none => rfl
          | some found => rfl
      | some index =>
          obtain ⟨within, named, before⟩ := List.findIdx?_eq_some_iff_getElem.mp found
          have first : entry.parked.find? (·.key.uid == uid) = some entry.parked[index] :=
            List.find?_eq_some_iff_getElem.mpr
              ⟨named, index, within, rfl, fun _ earlier => by simpa using before _ earlier⟩
          have left : entry.parked.eraseP (·.key.uid == uid) = entry.parked.eraseIdx index := by
            rw [List.eraseP_eq_eraseIdx, found]
          simp only [first, left, List.getElem?_map, List.getElem?_eq_getElem within,
            Option.map_some]
          simp [Entry.nest, NestedEvent.alone, NestedEvent.pending, NestedEvent.event,
            List.eraseIdx_eq_take_drop_succ]

theorem erase_nest (list : BarrierList) (uid : EventUid) :
    list.nest.erase uid =
      (fun erased => (erased.1.map .alone, erased.2.nest)) <$> list.erase uid := by
  unfold NestedList.erase erase
  have listed : list.nest.main.findIdx? (·.key.uid == uid) =
      list.entries.findIdx? (·.event.key.uid == uid) := by
    simp only [nest, List.findIdx?_map]
    rfl
  rw [listed]
  cases found : list.entries.findIdx? (·.event.key.uid == uid) with
  | some index =>
      obtain ⟨within, _, _⟩ := List.findIdx?_eq_some_iff_getElem.mp found
      have here := List.getElem?_eq_getElem within
      simp only [here, eraseMain_nest within here]
      cases list.eraseListed index list.entries[index] with
      | error fault => rfl
      | ok after => rfl
  | none =>
      simp only [nest, eraseParked_nest]
      cases eraseParked uid list.entries with
      | none => rfl
      | some found =>
          simp only [Option.map_some]
          cases decrement list.deferred 1 with
          | error fault => rfl
          | ok deferred => rfl

private theorem drain_nest (list : BarrierList) :
    list.nest.drain = (list.drain.1.map .alone, list.drain.2.nest) := by
  unfold NestedList.drain drain events
  simp only [nest, List.flatMap_map, List.map_flatMap]
  rfl

/-! ### Runs -/

private theorem insert_nest (list : BarrierList) (event : Event) :
    list.nest.insert event = (list.insert event).nest :=
  insertFrom_nest event (Nat.zero_le _)

private theorem next?_nest (list : BarrierList) : list.nest.next? = list.next? := by
  obtain ⟨policy, entries, barriers, deferred⟩ := list
  cases entries with
  | nil => rfl
  | cons front rest => rfl

private theorem perform_nest (list : BarrierList) (operation : Operation) :
    list.nest.perform operation =
      (fun performed => (performed.1.nest, performed.2.nest)) <$> list.perform operation := by
  cases operation with
  | insert event =>
      simp only [NestedList.perform, perform, insert_nest]
      rfl
  | reinsert event =>
      simp only [NestedList.perform, perform, insert_nest]
      rfl
  | next =>
      simp only [NestedList.perform, perform, next?_nest]
      rfl
  | pop =>
      simp only [NestedList.perform, perform, pop_nest]
      cases list.pop with
      | error fault => rfl
      | ok popped => rfl
  | erase key =>
      simp only [NestedList.perform, perform, erase_nest]
      cases list.erase key.uid with
      | error fault => rfl
      | ok erased => rfl
  | drain =>
      simp only [NestedList.perform, perform, drain_nest]
      rfl

theorem run_nest (operations : List Operation) (list : BarrierList) :
    list.nest.run operations =
      (fun left => (left.1.map Answer.nest, left.2.nest)) <$>
        answers BarrierList.perform list operations := by
  induction operations generalizing list with
  | nil => rfl
  | cons operation rest ih =>
      unfold NestedList.run answers
      rw [perform_nest]
      cases list.perform operation with
      | error fault => rfl
      | ok performed =>
          change (performed.2.nest.run rest >>= _) =
            _ <$> (answers BarrierList.perform performed.2 rest >>= _)
          rw [ih]
          cases answers BarrierList.perform performed.2 rest with
          | error fault => rfl
          | ok left => rfl

end BarrierList

end EventKernel.Queue
