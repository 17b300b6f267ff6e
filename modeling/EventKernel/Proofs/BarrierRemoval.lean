import EventKernel.Proofs.BarrierInsertion

set_option autoImplicit false

/-! Removal from one list. Taking an entry away releases what it held back, and what the
new front held back; no count underflows and the front never holds events, so a sound
list answers every removal and stays sound. -/

namespace EventKernel.Queue

theorem decrement_of_le {count amount : Nat} (enough : amount ≤ count) :
    decrement count amount = .ok (count - amount) :=
  if_pos enough

namespace BarrierList

variable {list : BarrierList}

private theorem insertFrom_take (list : BarrierList) (start : Nat) (event : Event)
    (within : start ≤ list.entries.length) :
    (list.insertFrom start event).entries.take start = list.entries.take start := by
  by_cases first : start = 0
  · rw [first, List.take_zero, List.take_zero]
  · have scans : list.insertFrom start event = list.scanFrom start event := by
      unfold insertFrom
      rw [if_neg]
      intro fast
      simp only [Bool.and_eq_true, beq_iff_eq] at fast
      exact first fast.1.2
    have whole : (list.scanFrom start event).entries =
        list.entries.take start ++
          (scan list.policy event (start == 0) (list.entries.drop start)).1 := by
      unfold scanFrom
      cases (scan list.policy event (start == 0) (list.entries.drop start)) with
      | mk placed placement => cases placement <;> rfl
    rw [scans, whole, List.take_append_of_le_length]
    · rw [List.take_take, Nat.min_self]
    · rw [List.length_take]
      omega

private theorem foldl_insertFrom (start : Nat) (parked : List Event) (list : BarrierList)
    (sound : list.Sound) (within : start ≤ list.entries.length)
    (notAfter : ∀ event ∈ parked, ∀ entry ∈ list.entries.take start,
      entry.event.key.rank ≤ event.key.rank) :
    (parked.foldl (fun current event => current.insertFrom start event) list).Sound ∧
      (parked.foldl (fun current event => current.insertFrom start event) list).policy =
        list.policy ∧
      (parked.foldl (fun current event => current.insertFrom start event) list).events.Perm
        (parked ++ list.events) := by
  induction parked generalizing list with
  | nil => exact ⟨sound, rfl, List.Perm.refl _⟩
  | cons event rest ih =>
      have insertion := insertFrom_insertion list start event sound.ordered within
        (notAfter event List.mem_cons_self)
      obtain ⟨restSound, restPolicy, restEvents⟩ := ih (list.insertFrom start event)
        (insertion.sound sound) (Nat.le_trans within insertion.length_le) (by
          intro later member entry taken
          rw [insertFrom_take list start event within] at taken
          exact notAfter later (List.mem_cons_of_mem _ member) entry taken)
      refine ⟨restSound, restPolicy.trans insertion.policy_eq, restEvents.trans ?_⟩
      exact ((insertion.events_perm).append_left rest).trans List.perm_middle

private theorem release_spec (list : BarrierList) (start : Nat) (parked : List Event)
    (enough : parked.length ≤ list.deferred)
    (sound : Sound { list with deferred := list.deferred - parked.length })
    (within : start ≤ list.entries.length)
    (notAfter : ∀ event ∈ parked, ∀ entry ∈ list.entries.take start,
      entry.event.key.rank ≤ event.key.rank) :
    ∃ after, release list start parked = .ok after ∧ after.Sound ∧
      after.policy = list.policy ∧ after.events.Perm (parked ++ list.events) := by
  obtain ⟨afterSound, afterPolicy, afterEvents⟩ :=
    foldl_insertFrom start parked _ sound within notAfter
  refine ⟨_, ?_, afterSound, afterPolicy, afterEvents⟩
  unfold release
  rw [decrement_of_le enough]
  rfl

private theorem promoteFront_of_sound (sound : list.Sound) : list.promoteFront = .ok list := by
  unfold promoteFront
  cases shape : list.entries with
  | nil => rfl
  | cons front rest =>
      have free := sound.freeFront front (by rw [shape]; rfl)
      simp only [free, List.isEmpty_nil, if_true]

private theorem promoteFront_spec (list : BarrierList) (arranged : list.Arranged) :
    ∃ after, list.promoteFront = .ok after ∧ after.Sound ∧ after.policy = list.policy ∧
      after.events.Perm list.events := by
  unfold promoteFront
  cases shape : list.entries with
  | nil =>
      refine ⟨list, rfl, ⟨arranged, ?_⟩, rfl, List.Perm.refl _⟩
      intro entry first
      rw [shape] at first
      cases first
  | cons front rest =>
      simp only
      by_cases free : front.parked = []
      · refine ⟨list, ?_, ⟨arranged, ?_⟩, rfl, List.Perm.refl _⟩
        · rw [free]
          rfl
        · intro entry first
          rw [shape] at first
          cases first
          exact free
      · rw [if_neg (by rw [List.isEmpty_iff]; exact free)]
        have ordered := arranged.ordered
        have behind := arranged.behind
        have holders := arranged.holders
        have barrierCount := arranged.barrierCount
        have deferredCount := arranged.deferredCount
        rw [shape] at ordered behind holders barrierCount deferredCount
        have frontBehind := behind front List.mem_cons_self
        obtain ⟨frontFirst, restOrdered⟩ := List.pairwise_cons.mp ordered
        have total : list.deferred =
            front.parked.length + (rest.flatMap Entry.parked).length := by
          rw [deferredCount, List.flatMap_cons, List.length_append]
        -- The front stays first and holds nothing; what it held is inserted again behind it.
        obtain ⟨after, released, afterSound, afterPolicy, afterEvents⟩ :=
          release_spec { list with entries := .plain front.event :: rest } 1
            front.parked (by simp only [total]; omega)
            { ordered := List.pairwise_cons.mpr ⟨frontFirst, restOrdered⟩
              behind := by
                intro entry member event held
                rcases List.mem_cons.mp member with same | later
                · rw [same] at held
                  cases held
                · exact behind entry (List.mem_cons_of_mem _ later) event held
              holders := by
                intro entry member some
                rcases List.mem_cons.mp member with same | later
                · rw [same] at some
                  exact absurd rfl some
                · exact holders entry (List.mem_cons_of_mem _ later) some
              barrierCount := by
                rw [barrierCount]
                rfl
              deferredCount := by
                simp only [total, List.flatMap_cons, Entry.plain, List.nil_append]
                omega
              freeFront := by
                intro entry first
                cases first
                rfl }
            (by simp only [List.length_cons]; omega)
            (by
              intro event held entry taken
              rw [List.take_succ_cons, List.take_zero, List.mem_singleton] at taken
              rw [taken]
              exact frontBehind event held)
        refine ⟨after, released, afterSound, afterPolicy, afterEvents.trans ?_⟩
        unfold events
        simp only [shape, List.flatMap_cons]
        have frontEvents : (front.parked ++ Entry.events (.plain front.event)).Perm
            front.events := List.perm_append_comm
        rw [← List.append_assoc]
        exact frontEvents.append_right _

theorem pop_of_no_events (noEvents : list.events = []) : list.pop = .ok (none, list) := by
  have nothing := events_eq_nil_iff.mp noEvents
  unfold pop
  rw [nothing]

/-- The front leaves, and a sound list stays behind. -/
theorem Sound.pop (sound : list.Sound) {front : Entry} (atFront : list.front? = some front) :
    ∃ after, list.pop = .ok (some front.event, after) ∧ after.Sound ∧
      after.policy = list.policy ∧ list.events.Perm (front.event :: after.events) := by
  unfold front? at atFront
  unfold BarrierList.pop
  cases shape : list.entries with
  | nil =>
      rw [shape] at atFront
      cases atFront
  | cons head rest =>
      rw [shape] at atFront
      cases atFront
      have free := sound.freeFront front (by rw [shape]; rfl)
      have ordered := sound.ordered
      have behind := sound.behind
      have holders := sound.holders
      have barrierCount := sound.barrierCount
      have deferredCount := sound.deferredCount
      rw [shape] at ordered behind holders barrierCount deferredCount
      have counted : barrierWeight front.event +
          rest.countP (fun entry => entry.event.kind.isBarrier) = list.barriers := by
        rw [barrierCount, List.countP_cons, barrierWeight]
        omega
      obtain ⟨after, promoted, afterSound, afterPolicy, afterEvents⟩ :=
        promoteFront_spec { list with
            entries := rest, barriers := list.barriers - barrierWeight front.event }
          { ordered := (List.pairwise_cons.mp ordered).2
            behind := fun entry member => behind entry (List.mem_cons_of_mem _ member)
            holders := fun entry member => holders entry (List.mem_cons_of_mem _ member)
            barrierCount := by
              simp only
              omega
            deferredCount := by
              simp only [deferredCount, List.flatMap_cons, free, List.nil_append] }
      refine ⟨after, ?_, afterSound, afterPolicy, ?_⟩
      · simp only
        rw [decrement_of_le (by omega), free]
        simp only [bind, Except.bind, List.isEmpty_nil, if_true]
        rw [promoted]
        rfl
      · have whole : list.events = front.event :: rest.flatMap Entry.events := by
          unfold events
          rw [shape, List.flatMap_cons, Entry.events, free, List.cons_append, List.nil_append]
        rw [whole]
        exact afterEvents.symm.cons _

private theorem eraseListed_spec (sound : list.Sound) (front : List Entry) (entry : Entry)
    (back : List Entry) (shape : list.entries = front ++ entry :: back) :
    ∃ after, list.eraseListed front.length entry = .ok after ∧ after.Sound ∧
      after.policy = list.policy ∧ list.events.Perm (entry.event :: after.events) := by
  have ordered := sound.ordered
  have behind := sound.behind
  have holders := sound.holders
  have barrierCount := sound.barrierCount
  have deferredCount := sound.deferredCount
  have freeFront := sound.freeFront
  rw [shape] at ordered behind holders barrierCount deferredCount freeFront
  have beforeEntry : ∀ earlier ∈ front,
      earlier.event.key.rank ≤ entry.event.key.rank := fun earlier former =>
    (List.pairwise_append.mp ordered).2.2 earlier former entry List.mem_cons_self
  have counted : barrierWeight entry.event +
      (front ++ back).countP (fun entry => entry.event.kind.isBarrier) = list.barriers := by
    rw [barrierCount, List.countP_append, List.countP_append, List.countP_cons, barrierWeight]
    omega
  have total : list.deferred =
      entry.parked.length + ((front ++ back).flatMap Entry.parked).length := by
    rw [deferredCount]
    simp only [List.flatMap_append, List.flatMap_cons, List.length_append]
    omega
  have kept : ∀ other ∈ front ++ back, other ∈ front ++ entry :: back := by
    intro other member
    rcases List.mem_append.mp member with former | later
    · exact List.mem_append_left _ former
    · exact List.mem_append_right _ (List.mem_cons_of_mem _ later)
  -- The next entry may become the front while it holds events, so this is not `Sound` yet.
  have remaining : Arranged { list with
      entries := front ++ back
      barriers := list.barriers - barrierWeight entry.event
      deferred := list.deferred - entry.parked.length } :=
    { ordered := ordered.sublist
        ((List.sublist_cons_self entry back).append_left front)
      behind := fun other member => behind other (kept other member)
      holders := fun other member => holders other (kept other member)
      barrierCount := by
        simp only
        omega
      deferredCount := by
        simp only
        omega }
  have erased : list.entries.eraseIdx front.length = front ++ back := by
    rw [shape, List.eraseIdx_append_of_length_le (Nat.le_refl _), Nat.sub_self,
      List.eraseIdx_cons_zero]
  have whole : list.events.Perm (entry.event :: (entry.parked ++
      (front ++ back).flatMap Entry.events)) := by
    unfold events
    rw [shape]
    simp only [List.flatMap_append, List.flatMap_cons, Entry.events]
    exact List.perm_middle.trans ((List.perm_append_comm_assoc _ _ _).cons _)
  unfold eraseListed
  rw [decrement_of_le (by omega), erased]
  simp only [bind, Except.bind]
  by_cases free : entry.parked = []
  · rw [free] at remaining whole
    obtain ⟨after, promoted, afterSound, afterPolicy, afterEvents⟩ :=
      promoteFront_spec _ remaining
    rw [free]
    exact ⟨after, promoted, afterSound, afterPolicy,
      whole.trans ((List.Perm.cons _ afterEvents.symm))⟩
  · have inner : front ≠ [] := by
      intro none
      subst none
      exact free (freeFront entry rfl)
    rw [if_neg (by rw [List.isEmpty_iff]; exact free)]
    obtain ⟨released, releasing, releasedSound, releasedPolicy, releasedEvents⟩ :=
      release_spec { list with
          entries := front ++ back
          barriers := list.barriers - barrierWeight entry.event } front.length entry.parked
        (by simp only [total]; omega)
        { toArranged := remaining
          freeFront := by
            cases front with
            | nil => exact absurd rfl inner
            | cons head rest => exact freeFront }
        (by simp only [List.length_append]; omega)
        (by
          intro event held other taken
          rw [List.take_left] at taken
          exact Nat.le_trans (beforeEntry other taken)
            (behind entry (List.mem_append_right _ List.mem_cons_self) event held))
    rw [releasing]
    exact ⟨released, promoteFront_of_sound releasedSound, releasedSound, releasedPolicy,
      whole.trans (List.Perm.cons _ releasedEvents.symm)⟩

private theorem eraseParked_some (uid : EventUid) (entries : List Entry) (event : Event)
    (rest : List Entry) (found : eraseParked uid entries = some (event, rest)) :
    event.key.uid = uid ∧ ∃ front holder back earlier later,
      entries = front ++ holder :: back ∧ holder.parked = earlier ++ event :: later ∧
        rest = front ++ { holder with parked := earlier ++ later } :: back := by
  induction entries generalizing event rest with
  | nil => cases found
  | cons head tail ih =>
      unfold eraseParked at found
      cases here : head.parked.find? (·.key.uid == uid) with
      | some first =>
          rw [here] at found
          cases found
          obtain ⟨named, earlier, later, parked, others⟩ := List.find?_eq_some_iff_append.mp here
          refine ⟨eq_of_beq named, [], head, tail, earlier, later, rfl, parked, ?_⟩
          rw [parked, List.eraseP_append_right]
          · simp only [List.eraseP_cons, named, cond_true, List.nil_append]
          · intro other member different
            have distinct := others other member
            simp only [different, Bool.not_true, Bool.false_eq_true] at distinct
      | none =>
          rw [here] at found
          simp only [Option.map_eq_some_iff] at found
          obtain ⟨⟨first, others⟩, deeper, same⟩ := found
          cases same
          obtain ⟨named, front, holder, back, earlier, later, shape, parked, result⟩ :=
            ih first others deeper
          exact ⟨named, head :: front, holder, back, earlier, later, by rw [shape]; rfl, parked,
            by rw [result]; rfl⟩

private theorem eraseParked_none (uid : EventUid) (entries : List Entry)
    (missing : eraseParked uid entries = none) :
    ∀ entry ∈ entries, ∀ event ∈ entry.parked, event.key.uid ≠ uid := by
  induction entries with
  | nil => exact List.forall_mem_nil _
  | cons head tail ih =>
      unfold eraseParked at missing
      cases here : head.parked.find? (·.key.uid == uid) with
      | some first =>
          rw [here] at missing
          cases missing
      | none =>
          rw [here] at missing
          simp only [Option.map_eq_none_iff] at missing
          intro entry member event held
          rcases List.mem_cons.mp member with same | later
          · rw [same] at held
            have different := List.find?_eq_none.mp here event held
            intro named
            exact different (beq_iff_eq.mpr named)
          · exact ih missing entry later event held

private theorem unpark_spec (sound : list.Sound) (front : List Entry) (holder : Entry)
    (back : List Entry) (earlier : List Event) (event : Event) (later : List Event)
    (shape : list.entries = front ++ holder :: back)
    (held : holder.parked = earlier ++ event :: later) :
    Sound { list with
      entries := front ++ { holder with parked := earlier ++ later } :: back
      deferred := list.deferred - 1 } ∧
    1 ≤ list.deferred ∧
    list.events.Perm (event ::
      (front ++ { holder with parked := earlier ++ later } :: back).flatMap Entry.events) := by
  have ordered := sound.ordered
  have behind := sound.behind
  have holders := sound.holders
  have barrierCount := sound.barrierCount
  have deferredCount := sound.deferredCount
  have freeFront := sound.freeFront
  rw [shape] at ordered behind holders barrierCount deferredCount freeFront
  have isHolder : holder ∈ front ++ holder :: back :=
    List.mem_append_right _ List.mem_cons_self
  have someHeld : holder.parked ≠ [] := by
    rw [held]
    exact List.append_ne_nil_of_right_ne_nil _ (List.cons_ne_nil _ _)
  have kept : ∀ other ∈ earlier ++ later, other ∈ holder.parked := by
    rw [held]
    intro other member
    rcases List.mem_append.mp member with former | rest
    · exact List.mem_append_left _ former
    · exact List.mem_append_right _ (List.mem_cons_of_mem _ rest)
  have cases : ∀ entry ∈ front ++ { holder with parked := earlier ++ later } :: back,
      entry = { holder with parked := earlier ++ later } ∨ entry ∈ front ++ holder :: back := by
    intro entry member
    rcases List.mem_append.mp member with former | rest
    · exact Or.inr (List.mem_append_left _ former)
    · rcases List.mem_cons.mp rest with same | last
      · exact Or.inl same
      · exact Or.inr (List.mem_append_right _ (List.mem_cons_of_mem _ last))
  simp only [List.flatMap_append, List.flatMap_cons, held, List.length_append,
    List.length_cons] at deferredCount
  refine ⟨{ ordered := ?_, behind := ?_, holders := ?_, barrierCount := ?_, deferredCount := ?_,
            freeFront := ?_ }, by omega, ?_⟩
  · have keys := ordered
    rw [← List.pairwise_map (R := fun earlier later => earlier ≤ later)
      (f := fun entry : Entry => entry.event.key.rank)] at keys ⊢
    rw [List.map_append, List.map_cons] at keys ⊢
    exact keys
  · intro entry member other parked
    rcases cases entry member with same | present
    · rw [same] at parked ⊢
      exact behind holder isHolder other (kept other parked)
    · exact behind entry present other parked
  · intro entry member some
    rcases cases entry member with same | present
    · rw [same]
      exact holders holder isHolder someHeld
    · exact holders entry present some
  · simp only [barrierCount, List.countP_append, List.countP_cons]
  · simp only [List.flatMap_append, List.flatMap_cons, List.length_append]
    omega
  · cases front with
    | nil => exact absurd (freeFront holder rfl) someHeld
    | cons head rest => exact freeFront
  · unfold events
    rw [shape]
    simp only [List.flatMap_append, List.flatMap_cons]
    have inside : holder.events.Perm
        (event :: Entry.events { holder with parked := earlier ++ later }) := by
      unfold Entry.events
      rw [held]
      exact (List.perm_middle.cons _).trans (List.Perm.swap _ _ _)
    exact ((inside.append_right _).append_left _).trans List.perm_middle

/-- Exactly one event with the serial number leaves, if there is one. -/
theorem Sound.erase (sound : list.Sound) (uid : EventUid) :
    (∃ event after, list.erase uid = .ok (some event, after) ∧ event.key.uid = uid ∧
      after.Sound ∧ after.policy = list.policy ∧ list.events.Perm (event :: after.events)) ∨
    (list.erase uid = .ok (none, list) ∧ ∀ event ∈ list.events, event.key.uid ≠ uid) := by
  unfold BarrierList.erase
  cases listed : list.entries.findIdx? (·.event.key.uid == uid) with
  | some index =>
      left
      obtain ⟨within, named, _⟩ := List.findIdx?_eq_some_iff_getElem.mp listed
      have shape : list.entries = list.entries.take index ++
          list.entries[index] :: list.entries.drop (index + 1) := by
        rw [List.getElem_cons_drop, List.take_append_drop]
      obtain ⟨after, erased, afterSound, afterPolicy, afterEvents⟩ :=
        eraseListed_spec sound _ _ _ shape
      rw [List.length_take, Nat.min_eq_left (Nat.le_of_lt within)] at erased
      refine ⟨list.entries[index].event, after, ?_, eq_of_beq named, afterSound, afterPolicy,
        afterEvents⟩
      simp only [List.getElem?_eq_getElem within, erased]
      rfl
  | none =>
      have notListed : ∀ entry ∈ list.entries, entry.event.key.uid ≠ uid := by
        intro entry member named
        have different := List.findIdx?_eq_none_iff.mp listed entry member
        rw [named, beq_self_eq_true] at different
        cases different
      cases parked : eraseParked uid list.entries with
      | none =>
          right
          refine ⟨rfl, ?_⟩
          intro event member
          obtain ⟨entry, inside, same | held⟩ := mem_events.mp member
          · rw [same]
            exact notListed entry inside
          · exact eraseParked_none uid list.entries parked entry inside event held
      | some found =>
          left
          obtain ⟨event, rest⟩ := found
          obtain ⟨named, front, holder, back, earlier, later, shape, held, result⟩ :=
            eraseParked_some uid list.entries event rest parked
          obtain ⟨restSound, enough, restEvents⟩ :=
            unpark_spec sound front holder back earlier event later shape held
          rw [← result] at restSound restEvents
          refine ⟨event, _, ?_, named, restSound, rfl, restEvents⟩
          simp only [decrement_of_le enough]
          rfl

end BarrierList

end EventKernel.Queue
