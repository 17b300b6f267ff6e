import EventKernel.Proofs.RemovalOrder
import EventKernel.Queue.BarrierList

set_option autoImplicit false

/-! Insertion into one list. Whatever the policy, an insertion either lists its event
between the entries up to it and those after it, or parks it behind an inner barrier that
it does not sort before. Both keep the list sound and add exactly one event. -/

namespace EventKernel.Queue.BarrierList

/-- The state of a list between operations, the freedom of its front left aside. -/
structure Arranged (list : BarrierList) : Prop where
  ordered : list.entries.Pairwise fun earlier later =>
    earlier.event.key.rank ≤ later.event.key.rank
  behind : ∀ entry ∈ list.entries, ∀ event ∈ entry.parked,
    entry.event.key.rank ≤ event.key.rank
  holders : ∀ entry ∈ list.entries, entry.parked ≠ [] →
    list.policy.waitingList = true ∧ entry.event.kind.isBarrier = true
  barrierCount : list.barriers = list.entries.countP fun entry => entry.event.kind.isBarrier
  deferredCount : list.deferred = (list.entries.flatMap Entry.parked).length

/-- The state of a list between operations: nothing is parked behind the first entry. -/
structure Sound (list : BarrierList) : Prop extends Arranged list where
  freeFront : ∀ entry ∈ list.entries.head?, entry.parked = []

theorem empty_sound (policy : ListPolicy) : (empty policy).Sound where
  ordered := .nil
  behind := List.forall_mem_nil _
  holders := List.forall_mem_nil _
  barrierCount := rfl
  deferredCount := rfl
  freeFront := by intro entry member; cases member

/-! ### Events and their number -/

theorem mem_events {list : BarrierList} {event : Event} :
    event ∈ list.events ↔
      ∃ entry ∈ list.entries, event = entry.event ∨ event ∈ entry.parked := by
  simp only [events, Entry.events, List.mem_flatMap, List.mem_cons]

private theorem length_flatMap_events (entries : List Entry) :
    (entries.flatMap Entry.events).length =
      entries.length + (entries.flatMap Entry.parked).length := by
  induction entries with
  | nil => rfl
  | cons entry rest ih =>
      simp only [List.flatMap_cons, List.length_append, List.length_cons, ih, Entry.events]
      omega

theorem Arranged.size_eq {list : BarrierList} (arranged : list.Arranged) :
    list.size = list.events.length := by
  unfold size events
  rw [length_flatMap_events, arranged.deferredCount]

theorem events_eq_nil_iff {list : BarrierList} : list.events = [] ↔ list.entries = [] := by
  unfold events
  cases list.entries with
  | nil => simp only [List.flatMap_nil]
  | cons entry rest => simp [Entry.events]

theorem isEmpty_iff {list : BarrierList} : list.isEmpty = true ↔ list.events = [] := by
  rw [events_eq_nil_iff]
  exact List.isEmpty_iff

theorem front?_eq_none_iff {list : BarrierList} : list.front? = none ↔ list.events = [] := by
  rw [events_eq_nil_iff]
  exact List.head?_eq_none_iff

theorem front_mem_events {list : BarrierList} {front : Entry} (atFront : list.front? = some front) :
    front.event ∈ list.events :=
  mem_events.mpr ⟨front, List.mem_of_mem_head? atFront, Or.inl rfl⟩

/-- The front is the least event of all, those parked included. -/
theorem Arranged.front_least {list : BarrierList} (arranged : list.Arranged) {front : Entry}
    (atFront : list.front? = some front) :
    ∀ event ∈ list.events, front.event.key.rank ≤ event.key.rank := by
  intro event member
  obtain ⟨entry, listed, held⟩ := mem_events.mp member
  have first : front.event.key.rank ≤ entry.event.key.rank := by
    have ordered := arranged.ordered
    unfold front? at atFront
    cases shape : list.entries with
    | nil => rw [shape] at listed; cases listed
    | cons head rest =>
        rw [shape] at atFront listed ordered
        cases atFront
        rcases List.mem_cons.mp listed with same | later
        · exact Nat.le_of_eq (by rw [same])
        · exact (List.pairwise_cons.mp ordered).1 entry later
  rcases held with same | parked
  · rw [same]
    exact first
  · exact Nat.le_trans first (arranged.behind entry listed event parked)

/-! ### What an insertion does -/

/-- The two results of an insertion. -/
inductive Insertion (event : Event) (before : BarrierList) : BarrierList → Prop
  | listed (front back : List Entry) (shape : before.entries = front ++ back)
      (notAfter : ∀ entry ∈ front, entry.event.key.rank ≤ event.key.rank)
      (notBefore : ∀ entry ∈ back, event.key.rank ≤ entry.event.key.rank) :
      Insertion event before { before with
        entries := front ++ .plain event :: back
        barriers := before.barriers + barrierWeight event }
  | parked (front : List Entry) (holder : Entry) (back : List Entry)
      (shape : before.entries = front ++ holder :: back) (inner : front ≠ [])
      (waiting : before.policy.waitingList = true)
      (barrier : holder.event.kind.isBarrier = true)
      (notAfter : holder.event.key.rank ≤ event.key.rank) :
      Insertion event before { before with
        entries := front ++ { holder with parked := holder.parked ++ [event] } :: back
        deferred := before.deferred + 1 }

private theorem scan_shape (policy : ListPolicy) (event : Event) (atFront : Bool)
    (entries : List Entry)
    (ordered : entries.Pairwise fun earlier later =>
      earlier.event.key.rank ≤ later.event.key.rank) :
    (∃ front back, entries = front ++ back ∧
      scan policy event atFront entries = (front ++ .plain event :: back, .listed) ∧
      (∀ entry ∈ front, entry.event.key.rank ≤ event.key.rank) ∧
      ∀ entry ∈ back, event.key.rank ≤ entry.event.key.rank) ∨
    ∃ front holder back, entries = front ++ holder :: back ∧
      scan policy event atFront entries =
        (front ++ { holder with parked := holder.parked ++ [event] } :: back, .parked) ∧
      (atFront = true → front ≠ []) ∧ policy.waitingList = true ∧
      holder.event.kind.isBarrier = true ∧ holder.event.key.rank ≤ event.key.rank := by
  induction entries generalizing atFront with
  | nil =>
      left
      exact ⟨[], [], rfl, rfl, List.forall_mem_nil _, List.forall_mem_nil _⟩
  | cons head rest ih =>
      obtain ⟨headFirst, restOrdered⟩ := List.pairwise_cons.mp ordered
      unfold scan
      by_cases before : policy.comparison.sortsBefore event.key head.event.key = true
      · left
        have less := Comparison.sortsBefore_iff.mp before
        refine ⟨[], head :: rest, rfl, ?_, List.forall_mem_nil _, ?_⟩
        · rw [if_pos before]
          rfl
        · intro entry member
          rcases List.mem_cons.mp member with same | later
          · rw [same]
            exact Nat.le_of_lt less
          · exact Nat.le_trans (Nat.le_of_lt less) (headFirst entry later)
      · rw [if_neg before]
        have headNotAfter : head.event.key.rank ≤ event.key.rank :=
          Comparison.sortsBefore_eq_false_iff.mp (Bool.eq_false_iff.mpr before)
        by_cases holds :
            (policy.waitingList && !atFront && head.event.kind.isBarrier) = true
        · right
          rw [if_pos holds]
          simp only [Bool.and_eq_true, Bool.not_eq_true'] at holds
          refine ⟨[], head, rest, rfl, rfl, ?_, holds.1.1, holds.2, headNotAfter⟩
          intro front
          rw [holds.1.2] at front
          cases front
        · rw [if_neg holds]
          -- Past the first entry any barrier may hold the event.
          rcases ih false restOrdered with
            ⟨front, back, shape, result, notAfter, notBefore⟩ |
            ⟨front, holder, back, shape, result, _, waiting, barrier, notAfter⟩
          · left
            refine ⟨head :: front, back, by rw [shape]; rfl, by rw [result]; rfl, ?_, notBefore⟩
            intro entry member
            rcases List.mem_cons.mp member with same | later
            · rw [same]
              exact headNotAfter
            · exact notAfter entry later
          · right
            exact ⟨head :: front, holder, back, by rw [shape]; rfl, by rw [result]; rfl,
              fun _ => List.cons_ne_nil _ _, waiting, barrier, notAfter⟩

private theorem scanFrom_insertion (list : BarrierList) (start : Nat) (event : Event)
    (ordered : list.entries.Pairwise fun earlier later =>
      earlier.event.key.rank ≤ later.event.key.rank)
    (within : start ≤ list.entries.length)
    (notAfter : ∀ entry ∈ list.entries.take start, entry.event.key.rank ≤ event.key.rank) :
    Insertion event list (list.scanFrom start event) := by
  have split := (List.take_append_drop start list.entries).symm
  rcases scan_shape list.policy event (start == 0) (list.entries.drop start)
      (ordered.drop) with
    ⟨front, back, shape, result, frontNotAfter, backNotBefore⟩ |
    ⟨front, holder, back, shape, result, inner, waiting, barrier, holderNotAfter⟩
  · have same : list.scanFrom start event = { list with
        entries := (list.entries.take start ++ front) ++ .plain event :: back
        barriers := list.barriers + barrierWeight event } := by
      unfold scanFrom
      rw [result, List.append_assoc]
    rw [same]
    refine .listed _ _ (by rw [List.append_assoc, ← shape]; exact split) ?_ backNotBefore
    intro entry member
    rcases List.mem_append.mp member with skipped | scanned
    · exact notAfter entry skipped
    · exact frontNotAfter entry scanned
  · have same : list.scanFrom start event = { list with
        entries := (list.entries.take start ++ front) ++
          { holder with parked := holder.parked ++ [event] } :: back
        deferred := list.deferred + 1 } := by
      unfold scanFrom
      rw [result, List.append_assoc]
    rw [same]
    refine .parked _ holder _ (by rw [List.append_assoc, ← shape]; exact split) ?_ waiting
      barrier holderNotAfter
    by_cases first : start = 0
    · subst first
      exact List.append_ne_nil_of_right_ne_nil _ (inner rfl)
    · intro nothing
      have none := (List.append_eq_nil_iff.mp nothing).1
      have length := congrArg List.length none
      rw [List.length_take, List.length_nil] at length
      omega

theorem insertIdx_append_length {α : Type} (front back : List α) (item : α) :
    (front ++ back).insertIdx front.length item = front ++ item :: back := by
  induction front with
  | nil => rfl
  | cons head rest ih =>
      rw [List.cons_append, List.length_cons, List.insertIdx_succ_cons, ih, List.cons_append]

/-- All entries before the place that the look at the tail finds come no later, and all behind it
come later. -/
theorem tailIndex?_split {comparison : Comparison} {event : Event} {entries : List Entry}
    {index : Nat}
    (ordered : entries.Pairwise fun earlier later =>
      earlier.event.key.rank ≤ later.event.key.rank)
    (found : tailIndex? comparison event entries = some index) :
    ∃ front back, entries = front ++ back ∧ index = front.length ∧
      (∀ entry ∈ front, entry.event.key.rank ≤ event.key.rank) ∧
      ∀ entry ∈ back, event.key.rank < entry.event.key.rank := by
  unfold tailIndex? at found
  cases shape : entries.reverse with
  | nil =>
      rw [shape] at found
      cases found
      exact ⟨[], [], List.reverse_eq_nil_iff.mp shape, rfl, List.forall_mem_nil _,
        List.forall_mem_nil _⟩
  | cons last earlier =>
      have whole : entries = earlier.reverse ++ [last] := by
        rw [← List.reverse_cons, ← shape, List.reverse_reverse]
      rw [whole] at ordered
      obtain ⟨earlierOrdered, _, beforeLast⟩ := List.pairwise_append.mp ordered
      rw [shape] at found
      simp only at found
      by_cases atTail : comparison.sortsBefore event.key last.event.key = false
      · rw [atTail] at found
        cases found
        have lastNotAfter := Comparison.sortsBefore_eq_false_iff.mp atTail
        refine ⟨entries, [], (List.append_nil _).symm, rfl, ?_, List.forall_mem_nil _⟩
        intro entry member
        rw [whole] at member
        rcases List.mem_append.mp member with former | final
        · exact Nat.le_trans (beforeLast entry former last List.mem_cons_self) lastNotAfter
        · rw [List.mem_singleton.mp final]
          exact lastNotAfter
      · have beforeStop := Bool.not_eq_false _ ▸ atTail
        rw [beforeStop] at found
        simp only [Bool.not_true, Bool.false_eq_true, if_false,
          Option.ite_none_right_eq_some] at found
        obtain ⟨stepsOver, atStop⟩ := found
        cases atStop
        refine ⟨earlier.reverse, [last], whole, List.length_reverse.symm, ?_, ?_⟩
        · have previousFits := (Bool.and_eq_true_iff.mp stepsOver).2
          cases earlier with
          | nil => exact List.forall_mem_nil _
          | cons previous former =>
              simp only [Bool.not_eq_true'] at previousFits
              have previousNotAfter := Comparison.sortsBefore_eq_false_iff.mp previousFits
              rw [List.reverse_cons] at earlierOrdered ⊢
              obtain ⟨_, _, beforePrevious⟩ := List.pairwise_append.mp earlierOrdered
              intro entry member
              rcases List.mem_append.mp member with before | same
              · exact Nat.le_trans (beforePrevious entry before previous List.mem_cons_self)
                  previousNotAfter
              · rw [List.mem_singleton.mp same]
                exact previousNotAfter
        · intro entry member
          rw [List.mem_singleton.mp member]
          exact Comparison.sortsBefore_iff.mp beforeStop

theorem listAt_of_split {list : BarrierList} {front back : List Entry}
    (shape : list.entries = front ++ back) (event : Event) :
    list.listAt front.length event = { list with
      entries := front ++ .plain event :: back
      barriers := list.barriers + barrierWeight event } := by
  unfold listAt
  rw [shape, insertIdx_append_length]

private theorem tailIndex_insertion (list : BarrierList) (event : Event) (index : Nat)
    (ordered : list.entries.Pairwise fun earlier later =>
      earlier.event.key.rank ≤ later.event.key.rank)
    (found : tailIndex? list.policy.comparison event list.entries = some index) :
    Insertion event list (list.listAt index event) := by
  obtain ⟨front, back, shape, atEnd, notAfter, before⟩ := tailIndex?_split ordered found
  rw [atEnd, listAt_of_split shape]
  exact .listed front back shape notAfter fun entry member => Nat.le_of_lt (before entry member)

theorem insertFrom_insertion (list : BarrierList) (start : Nat) (event : Event)
    (ordered : list.entries.Pairwise fun earlier later =>
      earlier.event.key.rank ≤ later.event.key.rank)
    (within : start ≤ list.entries.length)
    (notAfter : ∀ entry ∈ list.entries.take start, entry.event.key.rank ≤ event.key.rank) :
    Insertion event list (list.insertFrom start event) := by
  unfold insertFrom
  split
  · split
    · rename_i index found
      exact tailIndex_insertion list event index ordered found
    · exact scanFrom_insertion list start event ordered within notAfter
  · exact scanFrom_insertion list start event ordered within notAfter

/-! ### What an insertion keeps -/

section

variable {event : Event} {before after : BarrierList}

theorem Insertion.policy_eq (insertion : Insertion event before after) :
    after.policy = before.policy := by
  cases insertion with
  | listed => rfl
  | parked => rfl

theorem Insertion.events_perm (insertion : Insertion event before after) :
    after.events.Perm (event :: before.events) := by
  cases insertion with
  | listed front back shape =>
      unfold events
      simp only [shape, List.flatMap_append, List.flatMap_cons]
      exact List.perm_middle
  | parked front holder back shape =>
      unfold events
      simp only [shape, List.flatMap_append, List.flatMap_cons]
      have inside : (Entry.events { holder with parked := holder.parked ++ [event] }).Perm
          (event :: holder.events) := by
        have appended : Entry.events { holder with parked := holder.parked ++ [event] } =
            holder.events ++ [event] := rfl
        rw [appended]
        exact List.perm_append_comm
      exact ((inside.append_right _).append_left _).trans List.perm_middle

theorem Insertion.length_le (insertion : Insertion event before after) :
    before.entries.length ≤ after.entries.length := by
  cases insertion with
  | listed front back shape =>
      rw [shape]
      simp only [List.length_append, List.length_cons]
      omega
  | parked front holder back shape =>
      rw [shape]
      simp only [List.length_append, List.length_cons]
      omega

private theorem Insertion.ordered (insertion : Insertion event before after)
    (arranged : before.Arranged) :
    after.entries.Pairwise fun earlier later =>
      earlier.event.key.rank ≤ later.event.key.rank := by
  have ordered := arranged.ordered
  cases insertion with
  | listed front back shape notAfter notBefore =>
      rw [shape] at ordered
      obtain ⟨frontOrdered, backOrdered, across⟩ := List.pairwise_append.mp ordered
      refine List.pairwise_append.mpr ⟨frontOrdered,
        List.pairwise_cons.mpr ⟨notBefore, backOrdered⟩, ?_⟩
      intro earlier former later member
      rcases List.mem_cons.mp member with same | rest
      · rw [same]
        exact notAfter earlier former
      · exact across earlier former later rest
  | parked front holder back shape =>
      rw [shape] at ordered
      obtain ⟨frontOrdered, holderOrdered, across⟩ := List.pairwise_append.mp ordered
      obtain ⟨holderFirst, backOrdered⟩ := List.pairwise_cons.mp holderOrdered
      refine List.pairwise_append.mpr ⟨frontOrdered,
        List.pairwise_cons.mpr ⟨holderFirst, backOrdered⟩, ?_⟩
      intro earlier former later member
      rcases List.mem_cons.mp member with same | rest
      · rw [same]
        exact across earlier former holder List.mem_cons_self
      · exact across earlier former later (List.mem_cons_of_mem _ rest)

private theorem Insertion.behind (insertion : Insertion event before after)
    (arranged : before.Arranged) :
    ∀ entry ∈ after.entries, ∀ held ∈ entry.parked,
      entry.event.key.rank ≤ held.key.rank := by
  have behind := arranged.behind
  cases insertion with
  | listed front back shape =>
      rw [shape] at behind
      intro entry member held parked
      rcases List.mem_append.mp member with former | rest
      · exact behind entry (List.mem_append_left _ former) held parked
      · rcases List.mem_cons.mp rest with same | later
        · rw [same] at parked
          cases parked
        · exact behind entry (List.mem_append_right _ later) held parked
  | parked front holder back shape inner waiting barrier notAfter =>
      rw [shape] at behind
      intro entry member held parked
      rcases List.mem_append.mp member with former | rest
      · exact behind entry (List.mem_append_left _ former) held parked
      · rcases List.mem_cons.mp rest with same | later
        · subst same
          rcases List.mem_append.mp parked with earlier | last
          · exact behind holder (List.mem_append_right _ List.mem_cons_self) held earlier
          · rw [List.mem_singleton.mp last]
            exact notAfter
        · exact behind entry (List.mem_append_right _ (List.mem_cons_of_mem _ later)) held parked

private theorem Insertion.holders (insertion : Insertion event before after)
    (arranged : before.Arranged) :
    ∀ entry ∈ after.entries, entry.parked ≠ [] →
      after.policy.waitingList = true ∧ entry.event.kind.isBarrier = true := by
  have holders := arranged.holders
  rw [insertion.policy_eq]
  cases insertion with
  | listed front back shape =>
      rw [shape] at holders
      intro entry member some
      rcases List.mem_append.mp member with former | rest
      · exact holders entry (List.mem_append_left _ former) some
      · rcases List.mem_cons.mp rest with same | later
        · rw [same] at some
          exact absurd rfl some
        · exact holders entry (List.mem_append_right _ later) some
  | parked front holder back shape inner waiting barrier =>
      rw [shape] at holders
      intro entry member some
      rcases List.mem_append.mp member with former | rest
      · exact holders entry (List.mem_append_left _ former) some
      · rcases List.mem_cons.mp rest with same | later
        · rw [same]
          exact ⟨waiting, barrier⟩
        · exact holders entry (List.mem_append_right _ (List.mem_cons_of_mem _ later)) some

private theorem Insertion.arranged (insertion : Insertion event before after)
    (arranged : before.Arranged) : after.Arranged where
  ordered := insertion.ordered arranged
  behind := insertion.behind arranged
  holders := insertion.holders arranged
  barrierCount := by
    have count := arranged.barrierCount
    cases insertion with
    | listed front back shape =>
        rw [shape, List.countP_append] at count
        simp only [List.countP_append, List.countP_cons, Entry.plain, barrierWeight, count]
        omega
    | parked front holder back shape =>
        rw [shape] at count
        simp only [count, List.countP_append, List.countP_cons]
  deferredCount := by
    have count := arranged.deferredCount
    cases insertion with
    | listed front back shape =>
        rw [shape] at count
        simp only [count, List.flatMap_append, List.flatMap_cons, Entry.plain, List.nil_append]
    | parked front holder back shape =>
        rw [shape] at count
        simp only [count, List.flatMap_append, List.flatMap_cons, List.length_append,
          List.length_cons, List.length_nil]
        omega

theorem Insertion.sound (insertion : Insertion event before after) (sound : before.Sound) :
    after.Sound where
  toArranged := insertion.arranged sound.toArranged
  freeFront := by
    have free := sound.freeFront
    cases insertion with
    | listed front back shape =>
        rw [shape] at free
        cases front with
        | nil =>
            intro entry first
            cases first
            rfl
        | cons head rest => exact free
    | parked front holder back shape inner =>
        rw [shape] at free
        cases front with
        | nil => exact absurd rfl inner
        | cons head rest => exact free

end

/-! ### Insertion from the front -/

variable {list : BarrierList}

theorem Arranged.insert (arranged : list.Arranged) (event : Event) :
    Insertion event list (list.insert event) :=
  insertFrom_insertion list 0 event arranged.ordered (Nat.zero_le _) (by
    rw [List.take_zero]
    exact List.forall_mem_nil _)

theorem Sound.insert (sound : list.Sound) (event : Event) : (list.insert event).Sound :=
  (sound.toArranged.insert event).sound sound

theorem Sound.insert_events (sound : list.Sound) (event : Event) :
    (list.insert event).events.Perm (event :: list.events) :=
  (sound.toArranged.insert event).events_perm

end EventKernel.Queue.BarrierList
