import EventKernel.Proofs.BarrierRemoval
import EventKernel.Proofs.QueueTraces

set_option autoImplicit false

/-! What path reduction changes in one list: nothing, not even inside. The two comparisons are one
order, and the look at the tail finds the place at which a scan would list the event. It is not
taken where a barrier past the front could have ended the scan, and what barriers give back is
always scanned for from behind them. So two lists that differ in no more than their comparison and
the look at the tail hold the same entries, with the same events parked behind each, and the same
counts after every operation, whatever the keys are. -/

namespace EventKernel.Queue

private theorem Comparison.sortsBefore_eq (comparison other : Comparison)
    (new existing : EventKey) :
    comparison.sortsBefore new existing = other.sortsBefore new existing :=
  Bool.eq_iff_iff.mpr (sortsBefore_iff.trans sortsBefore_iff.symm)

namespace BarrierList

def contents (list : BarrierList) : List Entry × Nat × Nat :=
  (list.entries, list.barriers, list.deferred)

/-- The same operations on one list, which looks for serial numbers only. -/
def perform (list : BarrierList) : Operation → Except Fault (Answer × BarrierList)
  | .insert event => return (.inserted (.ok event.key), list.insert event)
  | .reinsert event => return (.reinserted, list.insert event)
  | .next => return (.next list.next?, list)
  | .pop => do
      let (event?, list) ← list.pop
      return (.taken event?, list)
  | .erase key => do
      let (event?, list) ← list.erase key.uid
      return (.taken event?, list)
  | .drain => return (.drained list.drain.1, list.drain.2)

private theorem scan_of_split {policy : ListPolicy} {event : Event} {atFront : Bool}
    {front back : List Entry}
    (notAfter : ∀ entry ∈ front, entry.event.key.rank ≤ event.key.rank)
    (before : ∀ entry ∈ back, event.key.rank < entry.event.key.rank)
    (open_ : ∀ entry ∈ (if atFront then front.tail else front),
      (policy.waitingList && entry.event.kind.isBarrier) = false) :
    scan policy event atFront (front ++ back) = (front ++ .plain event :: back, .listed) := by
  induction front generalizing atFront with
  | nil =>
      cases back with
      | nil => rfl
      | cons entry rest =>
          unfold scan
          exact if_pos (Comparison.sortsBefore_iff.mpr (before entry List.mem_cons_self))
  | cons head rest ih =>
      have later : policy.comparison.sortsBefore event.key head.event.key = false :=
        Comparison.sortsBefore_eq_false_iff.mpr (notAfter head List.mem_cons_self)
      have passes : (policy.waitingList && !atFront && head.event.kind.isBarrier) = false := by
        cases atFront with
        | true => rw [Bool.not_true, Bool.and_false, Bool.false_and]
        | false =>
            rw [Bool.not_false, Bool.and_true]
            exact open_ head List.mem_cons_self
      have openRest : ∀ entry ∈ rest,
          (policy.waitingList && entry.event.kind.isBarrier) = false := by
        intro entry member
        cases atFront with
        | true => exact open_ entry member
        | false => exact open_ entry (List.mem_cons_of_mem _ member)
      have scanned := @ih false
        (fun entry member => notAfter entry (List.mem_cons_of_mem _ member)) openRest
      rw [List.cons_append]
      unfold scan
      simp only [later, passes, Bool.false_eq_true, if_false, scanned]
      rfl

private theorem Arranged.open_past_front {list : BarrierList} (arranged : list.Arranged)
    (none_ : list.hasInnerBarrier = false) :
    ∀ entry ∈ list.entries.tail,
      (list.policy.waitingList && entry.event.kind.isBarrier) = false := by
  intro entry member
  unfold hasInnerBarrier front? at none_
  have counted := arranged.barrierCount
  cases shape : list.entries with
  | nil =>
      rw [shape] at member
      cases member
  | cons head rest =>
      rw [shape] at counted none_ member
      rw [List.countP_cons] at counted
      cases waiting : list.policy.waitingList with
      | false => rfl
      | true =>
          rw [waiting, Bool.true_and, decide_eq_false_iff_not] at none_
          simp only [List.head?_cons, barrierWeight] at none_
          have nothing : rest.countP (fun entry => entry.event.kind.isBarrier) = 0 := by omega
          exact Bool.eq_false_iff.mpr (List.countP_eq_zero.mp nothing entry member)

/-- An insertion that looks at the tail first does what the scan does. -/
theorem Arranged.insertFrom_eq_scanFrom {list : BarrierList} (arranged : list.Arranged)
    (start : Nat) (event : Event) : list.insertFrom start event = list.scanFrom start event := by
  unfold insertFrom
  split
  · rename_i reduced
    simp only [Bool.and_eq_true, Bool.not_eq_true', beq_iff_eq] at reduced
    obtain ⟨⟨_, atStart⟩, none_⟩ := reduced
    split
    · rename_i index found
      obtain ⟨front, back, shape, atEnd, notAfter, before⟩ :=
        tailIndex?_split arranged.ordered found
      have open_ : ∀ entry ∈ front.tail,
          (list.policy.waitingList && entry.event.kind.isBarrier) = false := by
        intro entry member
        refine arranged.open_past_front none_ entry ?_
        rw [shape]
        cases front with
        | nil => cases member
        | cons head rest => exact List.mem_append_left _ member
      have scanned : scan list.policy event true list.entries =
          (front ++ .plain event :: back, .listed) := by
        rw [shape]
        exact scan_of_split notAfter before open_
      rw [atEnd, listAt_of_split shape, atStart]
      unfold scanFrom
      simp only [BEq.rfl, List.drop_zero, List.take_zero, List.nil_append, scanned]
    · rfl
  · rfl

structure Matches (list other : BarrierList) : Prop where
  contents : other.contents = list.contents
  waitingList : other.policy.waitingList = list.policy.waitingList

private theorem Matches.eq {list other : BarrierList} (same : list.Matches other) :
    other = { list with policy := other.policy } := by
  have held := same.contents
  obtain ⟨policy, entries, barriers, deferred⟩ := other
  unfold BarrierList.contents at held
  simp only [Prod.mk.injEq] at held
  obtain ⟨rfl, rfl, rfl⟩ := held
  rfl

private theorem Matches.under {list : BarrierList} {policy : ListPolicy}
    (same : policy.waitingList = list.policy.waitingList) (entries : List Entry)
    (barriers deferred : Nat) :
    Matches ⟨list.policy, entries, barriers, deferred⟩ ⟨policy, entries, barriers, deferred⟩ :=
  ⟨rfl, same⟩

namespace Matches

variable {list other : BarrierList}

private theorem scan_eq {policy reduced : ListPolicy}
    (same : reduced.waitingList = policy.waitingList) (event : Event) (atFront : Bool)
    (entries : List Entry) :
    scan reduced event atFront entries = scan policy event atFront entries := by
  induction entries generalizing atFront with
  | nil => rfl
  | cons entry rest ih =>
      unfold scan
      rw [same, ih, Comparison.sortsBefore_eq reduced.comparison policy.comparison]

private theorem scanFrom (same : list.Matches other) (start : Nat) (event : Event) :
    (list.scanFrom start event).Matches (other.scanFrom start event) := by
  rw [same.eq]
  unfold BarrierList.scanFrom
  simp only [scan_eq same.waitingList]
  split
  · exact .under same.waitingList _ _ _
  · exact .under same.waitingList _ _ _

private theorem insertFrom_of_past {start : Nat} (past : start ≠ 0) (list : BarrierList)
    (event : Event) : list.insertFrom start event = list.scanFrom start event := by
  unfold insertFrom
  rw [beq_false_of_ne past, Bool.and_false, Bool.false_and]
  rfl

private theorem release (same : list.Matches other) {start : Nat} (past : start ≠ 0)
    (parked : List Event) :
    Alike Matches (list.release start parked) (other.release start parked) := by
  have released : ∀ left right : BarrierList, left.Matches right →
      Matches (parked.foldl (fun current event => current.insertFrom start event) left)
        (parked.foldl (fun current event => current.insertFrom start event) right) := by
    induction parked with
    | nil => exact fun _ _ alike => alike
    | cons event rest ih =>
        intro left right alike
        rw [List.foldl_cons, List.foldl_cons, insertFrom_of_past past, insertFrom_of_past past]
        exact ih _ _ (alike.scanFrom start event)
  rw [same.eq]
  unfold BarrierList.release
  refine (Alike.of_eq rfl).bind ?_
  rintro deferred _ _ _ rfl
  exact released _ _ (.under same.waitingList _ _ _)

private theorem promoteFront (same : list.Matches other) :
    Alike Matches list.promoteFront other.promoteFront := by
  rw [same.eq]
  unfold BarrierList.promoteFront
  simp only
  split
  · exact .under same.waitingList _ _ _
  · split
    · exact .under same.waitingList _ _ _
    · exact release (.under same.waitingList _ _ _) Nat.one_ne_zero _

private theorem pop (same : list.Matches other) :
    Alike (fun left right => left.1 = right.1 ∧ left.2.Matches right.2) list.pop other.pop := by
  rw [same.eq]
  unfold BarrierList.pop
  simp only
  split
  · exact ⟨rfl, .under same.waitingList _ _ _⟩
  · refine (Alike.of_eq rfl).bind ?_
    rintro barriers _ _ _ rfl
    split
    · refine (promoteFront (.under same.waitingList _ _ _)).bind ?_
      exact fun left right _ _ alike => ⟨rfl, alike⟩
    · exact rfl

private theorem eraseListed (same : list.Matches other) {index : Nat} {entry : Entry}
    (inner : entry.parked ≠ [] → index ≠ 0) :
    Alike Matches (list.eraseListed index entry) (other.eraseListed index entry) := by
  rw [same.eq]
  unfold BarrierList.eraseListed
  refine (Alike.of_eq rfl).bind ?_
  rintro barriers _ _ _ rfl
  simp only
  split
  · exact promoteFront (.under same.waitingList _ _ _)
  · rename_i held
    have past := inner fun none_ => held (by rw [none_]; rfl)
    refine (release (.under same.waitingList _ _ _) past _).bind ?_
    exact fun left right _ _ alike => alike.promoteFront

private theorem erase (same : list.Matches other) (sound : list.Sound) (uid : EventUid) :
    Alike (fun left right => left.1 = right.1 ∧ left.2.Matches right.2) (list.erase uid)
      (other.erase uid) := by
  rw [same.eq]
  unfold BarrierList.erase
  simp only
  split
  · rename_i index _
    split
    · rename_i entry found
      have inner : entry.parked ≠ [] → index ≠ 0 := by
        rintro held rfl
        exact held (sound.freeFront entry (List.head?_eq_getElem? ▸ found))
      refine (eraseListed (.under same.waitingList _ _ _) inner).bind ?_
      exact fun left right _ _ alike => ⟨rfl, alike⟩
    · exact ⟨rfl, .under same.waitingList _ _ _⟩
  · split
    · refine (Alike.of_eq rfl).bind ?_
      rintro deferred _ _ _ rfl
      exact ⟨rfl, .under same.waitingList _ _ _⟩
    · exact ⟨rfl, .under same.waitingList _ _ _⟩

private theorem insert (same : list.Matches other) (sound : list.Sound) (reduced : other.Sound)
    (event : Event) : (list.insert event).Matches (other.insert event) := by
  unfold BarrierList.insert
  rw [sound.insertFrom_eq_scanFrom, reduced.insertFrom_eq_scanFrom]
  exact same.scanFrom 0 event

/-- Every operation is answered the same, and leaves the same behind. -/
theorem perform (same : list.Matches other) (sound : list.Sound) (reduced : other.Sound)
    (operation : Operation) :
    Alike (fun left right => left.1 = right.1 ∧ left.2.Matches right.2)
      (list.perform operation) (other.perform operation) := by
  have taken {left right : Except Fault (Option Event × BarrierList)}
      (alike : Alike (fun left right => left.1 = right.1 ∧ left.2.Matches right.2) left right) :
      Alike (fun left right => left.1 = right.1 ∧ left.2.Matches right.2)
        (left >>= fun result => pure (Answer.taken result.1, result.2))
        (right >>= fun result => pure (Answer.taken result.1, result.2)) := by
    refine alike.bind ?_
    exact fun left right _ _ kept => ⟨congrArg Answer.taken kept.1, kept.2⟩
  cases operation with
  | insert event => exact ⟨rfl, same.insert sound reduced event⟩
  | reinsert event => exact ⟨rfl, same.insert sound reduced event⟩
  | next =>
      refine ⟨congrArg Answer.next ?_, same⟩
      rw [same.eq]
      rfl
  | pop => exact taken same.pop
  | erase key => exact taken (same.erase sound key.uid)
  | drain =>
      refine ⟨congrArg Answer.drained ?_, .under same.waitingList _ _ _⟩
      rw [same.eq]
      rfl

end Matches

/-- No operation fails on a sound list, and none changes the policy. -/
theorem Sound.perform {list : BarrierList} (sound : list.Sound) (operation : Operation) :
    ∃ answer after, list.perform operation = .ok (answer, after) ∧ after.Sound ∧
      after.policy = list.policy := by
  cases operation with
  | insert event =>
      exact ⟨_, _, rfl, sound.insert event, (sound.toArranged.insert event).policy_eq⟩
  | reinsert event =>
      exact ⟨_, _, rfl, sound.insert event, (sound.toArranged.insert event).policy_eq⟩
  | next => exact ⟨_, _, rfl, sound, rfl⟩
  | pop =>
      unfold BarrierList.perform
      cases front : list.front? with
      | none =>
          rw [pop_of_no_events (front?_eq_none_iff.mp front)]
          exact ⟨_, _, rfl, sound, rfl⟩
      | some entry =>
          obtain ⟨after, popped, kept, policy, _⟩ := sound.pop front
          rw [popped]
          exact ⟨_, _, rfl, kept, policy⟩
  | erase key =>
      unfold BarrierList.perform
      rcases sound.erase key.uid with
        ⟨event, after, erased, _, kept, policy, _⟩ | ⟨erased, _⟩
      · simp only [erased]
        exact ⟨_, _, rfl, kept, policy⟩
      · simp only [erased]
        exact ⟨_, _, rfl, sound, rfl⟩
  | drain => exact ⟨_, _, rfl, empty_sound _, rfl⟩

private theorem Matches.trace {list other : BarrierList} (same : list.Matches other)
    (sound : list.Sound) (reduced : other.Sound) (operations : List Operation) :
    (Queue.trace BarrierList.perform BarrierList.contents list operations).2 = none ∧
      Queue.trace BarrierList.perform BarrierList.contents other operations =
        Queue.trace BarrierList.perform BarrierList.contents list operations := by
  induction operations generalizing list other with
  | nil => exact ⟨rfl, rfl⟩
  | cons operation rest ih =>
      obtain ⟨answer, after, performed, kept, _⟩ := sound.perform operation
      obtain ⟨⟨_, last⟩, there, rfl, alike⟩ :=
        (same.perform sound reduced operation).returns performed
      obtain ⟨_, _, performs, lastKept, _⟩ := reduced.perform operation
      cases performs.symm.trans there
      obtain ⟨fault, traced⟩ := ih alike kept lastKept
      unfold Queue.trace
      rw [performed, there]
      simp only [traced, fault, alike.contents, true_and]

/-- Whether or not barriers hold insertions back: a list with the two-branch comparison that looks
at the tail, and one with the lexicographic comparison that always scans, answer the same, hold the
same entries with the same events parked behind each and count the same, after every operation of
any sequence. No operation fails. -/
theorem path_reduction_changes_nothing (waitingList : Bool) (operations : List Operation) :
    (trace perform contents (empty ⟨.lexicographic, waitingList, false⟩) operations).2 = none ∧
      trace perform contents (empty ⟨.twoBranch, waitingList, true⟩) operations =
        trace perform contents (empty ⟨.lexicographic, waitingList, false⟩) operations := by
  have same : Matches (empty ⟨.lexicographic, waitingList, false⟩)
      (empty ⟨.twoBranch, waitingList, true⟩) := ⟨rfl, rfl⟩
  exact same.trace (empty_sound _) (empty_sound _) operations

end BarrierList

end EventKernel.Queue
