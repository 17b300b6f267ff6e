import EventKernel.Proofs.LaneSelection

set_option autoImplicit false

/-! What may be selected when the index lists more messages than are held. The checks may
then refuse a front that is safe, and even that of the least event. What they pass is safe
all the same, and where they pass nothing the least front of all is taken. Either way the
front comes before all other events of its owner, and nothing overtakes an event of the
simulation. -/

namespace EventKernel.Queue

namespace LaneQueue

variable {queue after : LaneQueue} {lane : Nat} {key : EventKey} {front : Event}

private theorem frontsAllow_true {other : Nat} {lists : List BarrierList}
    (allowed : queue.frontsAllow lane key other lists = .ok true) :
    ∀ index (list : BarrierList) (entry : Entry), other + index ≠ lane →
      lists[index]? = some list → list.front? = some entry →
      queue.Allows lane key (other + index) entry.event.key := by
  induction lists generalizing other with
  | nil =>
      intro index list entry _ found
      cases found
  | cons first rest ih =>
      intro index list entry different found atFront
      unfold frontsAllow at allowed
      cases index with
      | zero =>
          cases found
          have key_ : first.next? = some entry.event.key := by
            unfold BarrierList.next?
            rw [atFront]
            rfl
          have elsewhere : ¬ other = lane := different
          simp only [if_neg elsewhere, key_] at allowed
          obtain ⟨latency, read, rest⟩ := bind_eq_ok allowed
          refine ⟨latency, read, ?_⟩
          split at rest
          · assumption
          · cases rest
      | succ index =>
          have later : queue.frontsAllow lane key (other + 1) rest = .ok true := by
            split at allowed
            · exact allowed
            · split at allowed
              · exact allowed
              · obtain ⟨latency, read, others⟩ := bind_eq_ok allowed
                split at others
                · exact others
                · cases others
          have shifted : other + (index + 1) = other + 1 + index := by omega
          rw [shifted] at different ⊢
          exact ih later index list entry different found atFront

/-- What passed the check is safe; the check may refuse more than it must. -/
private theorem Charted.safeAt_of_isSafe (charted : queue.Charted)
    (checked : queue.isSafe lane key = .ok true) : queue.SafeAt lane key := by
  obtain ⟨fronts, allowed, rest⟩ := bind_eq_ok checked
  obtain ⟨inbound, arriving, rest⟩ := bind_eq_ok rest
  have both := Bool.and_eq_true_iff.mp (Except.ok.inj rest)
  rw [both.1] at allowed
  rw [both.2] at arriving
  constructor
  · rintro other rival different ⟨list, entry, found, first, same⟩
    have allows := frontsAllow_true allowed other list entry (by omega) found first
    rw [Nat.zero_add, same] at allows
    exact allows
  · intro index found parcel member
    unfold inboundAllows at arriving
    rw [found] at arriving
    cases first : index.first? with
    | none =>
        rw [List.head?_eq_none_iff.mp (Option.map_eq_none_iff.mp first)] at member
        cases member
    | some least =>
        simp only [first] at arriving
        have before := EventKey.precedes_iff_rank_lt.mp (of_decide_eq_true (Except.ok.inj arriving))
        exact Nat.lt_of_lt_of_le before
          ((charted.entered.ordered lane index found).1.first_least first parcel member)

private theorem Charted.candidatesFrom_true (charted : queue.Charted) {lists : List BarrierList}
    {candidates : List Candidate} (rest : ∀ index, lists[index]? = queue.lanes[lane + index]?)
    (listed : queue.candidatesFrom lane lists = .ok candidates) :
    (∀ candidate ∈ candidates, ∃ front, queue.FrontAt candidate.lane front ∧
      candidate.key = front.key ∧
      (candidate.safe = true → queue.SafeAt candidate.lane front.key)) ∧
    ∀ index front, queue.FrontAt (lane + index) front →
      ∃ candidate ∈ candidates, candidate.key = front.key := by
  induction lists generalizing lane candidates with
  | nil =>
      cases listed
      refine ⟨List.forall_mem_nil _, ?_⟩
      rintro index front ⟨list, _, found, _⟩
      rw [← rest index] at found
      cases found
  | cons first others ih =>
      have atLane : queue.lanes[lane]? = some first := (rest 0).symm
      have restOthers : ∀ index, others[index]? = queue.lanes[lane + 1 + index]? := by
        intro index
        rw [Nat.add_assoc, Nat.add_comm 1, ← rest (index + 1)]
        rfl
      unfold candidatesFrom at listed
      cases first_ : first.front? with
      | none =>
          simp only [first_] at listed
          obtain ⟨described, complete⟩ := ih restOthers listed
          refine ⟨described, ?_⟩
          intro index front atFront
          cases index with
          | zero =>
              obtain ⟨list, entry, found, atHead, _⟩ := atFront
              rw [Nat.add_zero, atLane] at found
              cases found
              rw [first_] at atHead
              cases atHead
          | succ index =>
              exact complete index front (by rw [Nat.add_assoc, Nat.add_comm 1]; exact atFront)
      | some entry =>
          have atEntry : queue.FrontAt lane entry.event := ⟨first, entry, atLane, first_, rfl⟩
          simp only [first_] at listed
          obtain ⟨safe, checked, listed⟩ := bind_eq_ok listed
          obtain ⟨blocked, tail, later, same⟩ : ∃ blocked tail,
              queue.candidatesFrom (lane + 1) others = .ok tail ∧
              candidates = ⟨lane, entry.event.key, safe, blocked⟩ :: tail := by
            split at listed
            all_goals
              obtain ⟨blocked, _, listed⟩ := bind_eq_ok listed
              obtain ⟨tail, later, listed⟩ := bind_eq_ok listed
              exact ⟨blocked, tail, later, (Except.ok.inj listed).symm⟩
          rw [same]
          obtain ⟨described, complete⟩ := ih restOthers later
          constructor
          · intro candidate member
            rcases List.mem_cons.mp member with same | behind
            · rw [same]
              refine ⟨entry.event, atEntry, rfl, fun isSafe => ?_⟩
              cases isSafe
              exact charted.safeAt_of_isSafe checked
            · exact described candidate behind
          · intro index front atFront
            cases index with
            | zero => exact ⟨_, List.mem_cons_self, by rw [atEntry.unique atFront]⟩
            | succ index =>
                obtain ⟨candidate, member, named⟩ :=
                  complete index front (by rw [Nat.add_assoc, Nat.add_comm 1]; exact atFront)
                exact ⟨candidate, List.mem_cons_of_mem _ member, named⟩

/-- A front that was found safe, or the least of all fronts where none was. -/
structure Leading (queue : LaneQueue) (lane : Nat) (front : Event) : Prop where
  atFront : queue.FrontAt lane front
  leads : queue.SafeAt lane front.key ∨
    ∀ other rival, queue.FrontAt other rival → front.key.rank ≤ rival.key.rank

theorem Leading.recount (leading : queue.Leading lane front) (deadlocks : Nat) :
    Leading { queue with deadlocks } lane front :=
  ⟨leading.atFront, leading.leads.imp (fun safe => ⟨safe.fronts, safe.inbound⟩) id⟩

/-- Selecting changes no more than the count of deadlocks. -/
theorem Charted.select (charted : queue.Charted) {lane? : Option Nat}
    (selected : queue.select = .ok (lane?, after)) :
    (∃ deadlocks, after = { queue with deadlocks }) ∧
      (lane? = none → queue.events = []) ∧
      ∀ lane, lane? = some lane → ∃ front, queue.Leading lane front := by
  obtain ⟨candidates, listed, selected⟩ := bind_eq_ok selected
  obtain ⟨described, complete⟩ :=
    charted.candidatesFrom_true (fun index => by rw [Nat.zero_add]) listed
  have chosenSafe : ∀ {passes : Candidate → Bool} {chosen : Candidate},
      (∀ candidate, passes candidate = true → candidate.safe = true) →
      least? (candidates.filter passes) = some chosen →
      ∃ front, queue.Leading chosen.lane front := by
    intro passes chosen safe found
    obtain ⟨among, passed⟩ := List.mem_filter.mp (least?_spec found).1
    obtain ⟨front, atFront, _, isSafe⟩ := described chosen among
    exact ⟨front, atFront, Or.inl (isSafe (safe chosen passed))⟩
  unfold choose? at selected
  split at selected
  · rename_i noChoice
    cases selected
    refine ⟨⟨queue.deadlocks, rfl⟩, fun _ => ?_, fun lane impossible => nomatch impossible⟩
    split at noChoice
    · cases noChoice
    · split at noChoice
      · cases noChoice
      · have noCandidates := least?_eq_none (Option.map_eq_none_iff.mp noChoice)
        apply List.eq_nil_iff_forall_not_mem.mpr
        intro event member
        obtain ⟨front, atFront, _⟩ := charted.front_of_home member
        obtain ⟨candidate, present, _⟩ := complete _ front (by rw [Nat.zero_add]; exact atFront)
        rw [noCandidates] at present
        cases present
  · rename_i choice chosen
    cases selected
    refine ⟨⟨_, rfl⟩, (fun impossible => nomatch impossible), fun lane same => ?_⟩
    cases same
    split at chosen
    · rename_i candidate found
      cases chosen
      exact chosenSafe (fun candidate passed => (Bool.and_eq_true_iff.mp passed).1) found
    · split at chosen
      · rename_i candidate found
        cases chosen
        exact chosenSafe (fun candidate passed => passed) found
      · obtain ⟨candidate, found, same⟩ := Option.map_eq_some_iff.mp chosen
        obtain ⟨among, below⟩ := least?_spec found
        obtain ⟨front, atFront, named, _⟩ := described candidate among
        rw [← same]
        refine ⟨front, atFront, Or.inr fun other rival atRival => ?_⟩
        obtain ⟨against, present, namedRival⟩ :=
          complete other rival (by rw [Nat.zero_add]; exact atRival)
        rw [← named, ← namedRival]
        exact below against present

private theorem rank_lt_of_precedesShifted {boundary : Boundary} {front other : EventKey}
    (allowed : precedesShifted boundary front other 0 = true) : front.rank < other.rank := by
  unfold precedesShifted at allowed
  cases boundary with
  | sequenced =>
      have unmoved : other.ts.saturatingAdd 0 = other.ts := by
        apply congrArg Timestamp.mk
        apply UInt64.toNat_inj.mp
        have bounded := other.ts.value.toNat_lt
        rw [Word.toNat_saturatingAdd]
        unfold UInt64.size
        exact Nat.min_eq_left (by change other.ts.value.toNat + 0 ≤ _; omega)
      have before := of_decide_eq_true allowed
      rw [unmoved] at before
      exact EventKey.precedes_iff_rank_lt.mp before
  | inclusive =>
      simp only [if_true] at allowed
      exact EventKey.precedes_iff_rank_lt.mp (of_decide_eq_true allowed)

namespace Leading

variable {other : Event} (charted : queue.Charted) (leading : queue.Leading lane front)
  (member : other ∈ queue.events) (different : other ≠ front)

include charted leading member different

private theorem rank_lt_of_le (ordered : front.key.rank ≤ other.key.rank) :
    front.key.rank < other.key.rank := by
  refine Nat.lt_of_le_of_ne ordered fun tied => different ?_
  exact charted.eq_of_uid member leading.atFront.mem (EventKey.rank_eq_iff.mp tied).2.symm

/-- Nothing in its own lane comes before the front, and no latency separates the lane of the
simulation from any other. -/
theorem before_lane (close : queue.homeLane other = lane ∨ lane = 0 ∨ queue.homeLane other = 0) :
    front.key.rank < other.key.rank := by
  obtain ⟨rival, atRival, ordered⟩ := charted.front_of_home member
  rcases leading.leads with safe | least
  · by_cases own : queue.homeLane other = lane
    · rw [own] at atRival
      rw [atRival.unique leading.atFront] at ordered
      exact rank_lt_of_le charted leading member different ordered
    · obtain ⟨latency, read, allowed⟩ := safe.fronts _ rival own atRival
      have none : queue.laneLatency lane (queue.homeLane other) = .ok 0 :=
        if_pos (close.resolve_left own)
      rw [none] at read
      cases read
      exact Nat.lt_of_lt_of_le (rank_lt_of_precedesShifted allowed) ordered
  · exact rank_lt_of_le charted leading member different
      (Nat.le_trans (least _ rival atRival) ordered)

theorem before_owner (stays : queue.isCrossing front = false)
    (owner : other.key.context = front.key.context) : front.key.rank < other.key.rank := by
  have home := charted.front_home leading.atFront
  rw [homeLane_of_not_crossing stays] at home
  cases crossing : queue.isCrossing other with
  | false =>
      apply before_lane charted leading member different
      left
      rw [homeLane_of_not_crossing crossing, owner, home]
  | true =>
      rcases leading.leads with safe | least
      · obtain ⟨index, found, listed⟩ := charted.entered.listed other member crossing
        rw [owner, home] at found
        have before := safe.inbound index found (other.key, laneOf other.prevContext) listed
        exact before
      · obtain ⟨rival, atRival, ordered⟩ := charted.front_of_home member
        exact rank_lt_of_le charted leading member different
          (Nat.le_trans (least _ rival atRival) ordered)

end Leading

end LaneQueue

end EventKernel.Queue
