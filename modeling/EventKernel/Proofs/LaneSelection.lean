import EventKernel.Proofs.LaneSafety

set_option autoImplicit false

/-! Which lane goes next: the least safe front with credit; or, when every safe front waits for
credit, the least of these; or the least front of all, when none is safe. As long as nothing is
listed but messages that are held, the lane of the least event is safe. Then no unsafe front is
ever resorted to, and a deadlock is resolved by the least event of all. -/

namespace EventKernel.Queue.LaneQueue

variable {queue : LaneQueue} {entities : Nat}

structure Candidate.Describes (candidate : Candidate) (queue : LaneQueue) (front : Event) :
    Prop where
  atFront : queue.FrontAt candidate.lane front
  named : candidate.key = front.key
  safe : candidate.safe = true ↔ queue.SafeAt candidate.lane front.key
  blocked : candidate.safe = true →
    (candidate.blocked = true ↔ queue.Blocked candidate.lane front)

/-- Each front stands in its home lane, and what speaks for and against it can be told. -/
structure Judged (queue : LaneQueue) : Prop where
  home : ∀ lane front, queue.FrontAt lane front → queue.homeLane front = lane
  safety : ∀ lane front, queue.FrontAt lane front →
    ∃ answer, queue.isSafe lane front.key = .ok answer ∧
      (answer = true ↔ queue.SafeAt lane front.key)
  credit : ∀ lane front, queue.FrontAt lane front →
    ∃ answer, queue.isBlocked lane front = .ok answer ∧
      (answer = true ↔ queue.Blocked lane front)

theorem Charted.judged (charted : queue.Charted) (equipped : queue.Equipped entities) :
    queue.Judged where
  home _ _ atFront := charted.front_home atFront
  safety lane front atFront := by
    have ⟨_, _, found, _, _⟩ := atFront
    exact equipped.isSafe_spec (equipped.lane_le found)
      (fun index listed => (charted.entered.ordered lane index listed).1) front.key
  credit _ _ atFront := charted.isBlocked_spec equipped atFront

private theorem Candidate.Describes.lane_eq {candidate : Candidate} {front : Event} {lane : Nat}
    (describes : candidate.Describes queue front) (judged : queue.Judged)
    (atFront : queue.FrontAt lane front) : candidate.lane = lane := by
  rw [← judged.home _ _ describes.atFront, judged.home _ _ atFront]

private theorem Judged.candidatesFrom_spec (judged : queue.Judged) (lane : Nat)
    (lists : List BarrierList) (rest : ∀ index, lists[index]? = queue.lanes[lane + index]?) :
    ∃ candidates, queue.candidatesFrom lane lists = .ok candidates ∧
      (∀ candidate ∈ candidates, ∃ front, candidate.Describes queue front) ∧
      ∀ index front, queue.FrontAt (lane + index) front →
        ∃ candidate ∈ candidates, candidate.lane = lane + index := by
  -- `lists` are the lanes from `lane` on, so the number moves with the rest of the list.
  induction lists generalizing lane with
  | nil =>
      refine ⟨[], rfl, List.forall_mem_nil _, ?_⟩
      rintro index front ⟨list, _, found, _⟩
      rw [← rest index] at found
      cases found
  | cons first others ih =>
      have atLane : queue.lanes[lane]? = some first := (rest 0).symm
      obtain ⟨tail, listed, described, complete⟩ := ih (lane + 1) (fun index => by
        rw [Nat.add_assoc, Nat.add_comm 1, ← rest (index + 1)]
        rfl)
      have completeTail : ∀ index front, queue.FrontAt (lane + (index + 1)) front →
          ∃ candidate ∈ tail, candidate.lane = lane + (index + 1) := by
        intro index front atFront
        have shifted : lane + (index + 1) = lane + 1 + index := by omega
        rw [shifted] at atFront ⊢
        exact complete index front atFront
      unfold candidatesFrom
      cases front? : first.front? with
      | none =>
          refine ⟨tail, listed, described, ?_⟩
          intro index front atFront
          cases index with
          | zero =>
              obtain ⟨list, entry, found, atHead, _⟩ := atFront
              rw [Nat.add_zero, atLane] at found
              cases found
              rw [front?] at atHead
              cases atHead
          | succ index => exact completeTail index front atFront
      | some entry =>
          have atFront : queue.FrontAt lane entry.event := ⟨first, entry, atLane, front?, rfl⟩
          obtain ⟨safe, checked, safeIff⟩ := judged.safety lane entry.event atFront
          obtain ⟨blocked, asked, blockedIff⟩ := judged.credit lane entry.event atFront
          refine ⟨⟨lane, entry.event.key, safe, if safe then blocked else false⟩ :: tail,
            ?_, ?_, ?_⟩
          · cases safe with
            | true => simp only [checked, asked, listed, bind, Except.bind, if_pos]; rfl
            | false => simp only [checked, listed, bind, Except.bind]; rfl
          · intro candidate member
            rcases List.mem_cons.mp member with same | later
            · rw [same]
              refine ⟨entry.event, atFront, rfl, safeIff, fun isSafe => ?_⟩
              change (if safe then blocked else false) = true ↔ _
              rw [if_pos isSafe]
              exact blockedIff
            · exact described candidate later
          · intro index front atHead
            cases index with
            | zero => exact ⟨_, List.mem_cons_self, rfl⟩
            | succ index =>
                obtain ⟨candidate, member, same⟩ := completeTail index front atHead
                exact ⟨candidate, List.mem_cons_of_mem _ member, same⟩

private theorem Judged.candidates_spec (judged : queue.Judged) :
    ∃ candidates, queue.candidates = .ok candidates ∧
      (∀ candidate ∈ candidates, ∃ front, candidate.Describes queue front) ∧
      ∀ lane front, queue.FrontAt lane front →
        ∃ candidate ∈ candidates, candidate.Describes queue front := by
  obtain ⟨candidates, listed, described, complete⟩ :=
    judged.candidatesFrom_spec 0 queue.lanes (fun index => by rw [Nat.zero_add])
  refine ⟨candidates, listed, described, ?_⟩
  intro lane front atFront
  obtain ⟨candidate, member, same⟩ := complete lane front (by rw [Nat.zero_add]; exact atFront)
  obtain ⟨other, describes⟩ := described candidate member
  rw [Nat.zero_add] at same
  have atOther := describes.atFront
  rw [same] at atOther
  exact ⟨candidate, member, (atOther.unique atFront) ▸ describes⟩

theorem least?_eq_none {candidates : List Candidate} (none : least? candidates = none) :
    candidates = [] := by
  cases candidates with
  | nil => rfl
  | cons first rest =>
      unfold least? at none
      split at none
      · cases none
      · split at none <;> cases none

theorem least?_spec {candidates : List Candidate} {least : Candidate}
    (found : least? candidates = some least) :
    least ∈ candidates ∧ ∀ other ∈ candidates, least.key.rank ≤ other.key.rank := by
  induction candidates generalizing least with
  | nil => cases found
  | cons first rest ih =>
      unfold least? at found
      split at found
      · rename_i noOther
        cases found
        rw [least?_eq_none noOther]
        refine ⟨List.mem_cons_self, fun other member => ?_⟩
        exact Nat.le_of_eq (by rw [List.mem_singleton.mp member])
      · rename_i other found'
        obtain ⟨member, below⟩ := ih found'
        split at found
        · rename_i earlier
          cases found
          have earlier := EventKey.precedes_iff_rank_lt.mp earlier
          refine ⟨List.mem_cons_of_mem _ member, fun rival among => ?_⟩
          rcases List.mem_cons.mp among with same | later
          · rw [same]
            exact Nat.le_of_lt earlier
          · exact below rival later
        · rename_i later
          cases found
          have noLater := EventKey.not_precedes_iff_rank_le.mp later
          refine ⟨List.mem_cons_self, fun rival among => ?_⟩
          rcases List.mem_cons.mp among with same | behind
          · exact Nat.le_of_eq (by rw [same])
          · exact Nat.le_trans noLater (below rival behind)

/-- What a selection comes to, whatever the index lists. -/
inductive Verdict (queue : LaneQueue) : Option Nat → LaneQueue → Prop
  | nothing (noFront : ∀ lane front, ¬ queue.FrontAt lane front) : Verdict queue none queue
  | ready (lane : Nat) (front : Event) (atFront : queue.FrontAt lane front)
      (safe : queue.SafeAt lane front.key) (free : ¬ queue.Blocked lane front)
      (least : ∀ other rival, queue.FrontAt other rival → queue.SafeAt other rival.key →
        ¬ queue.Blocked other rival → front.key.rank ≤ rival.key.rank) :
      Verdict queue (some lane) queue
  | deadlock (lane : Nat) (front : Event) (atFront : queue.FrontAt lane front)
      (safe : queue.SafeAt lane front.key)
      (stuck : ∀ other rival, queue.FrontAt other rival → queue.SafeAt other rival.key →
        queue.Blocked other rival)
      (least : ∀ other rival, queue.FrontAt other rival → queue.SafeAt other rival.key →
        front.key.rank ≤ rival.key.rank) :
      Verdict queue (some lane) { queue with deadlocks := queue.deadlocks + 1 }
  | forced (lane : Nat) (front : Event) (atFront : queue.FrontAt lane front)
      (never : ∀ other rival, queue.FrontAt other rival → ¬ queue.SafeAt other rival.key)
      (least : ∀ other rival, queue.FrontAt other rival → front.key.rank ≤ rival.key.rank) :
      Verdict queue (some lane) queue

section

variable {candidates : List Candidate} {chosen : Candidate} (judged : queue.Judged)
  (described : ∀ candidate ∈ candidates, ∃ front, candidate.Describes queue front)
  (complete : ∀ lane front, queue.FrontAt lane front →
    ∃ candidate ∈ candidates, candidate.Describes queue front)

include judged complete

private theorem Judged.safe_candidate {lane : Nat} {front : Event}
    (atFront : queue.FrontAt lane front) (safe : queue.SafeAt lane front.key) :
    ∃ candidate ∈ candidates, candidate.lane = lane ∧ candidate.key = front.key ∧
      candidate.safe = true ∧ (candidate.blocked = true ↔ queue.Blocked lane front) := by
  obtain ⟨candidate, present, describes⟩ := complete lane front atFront
  have sameLane := describes.lane_eq judged atFront
  have isSafe : candidate.safe = true := describes.safe.mpr (by rw [sameLane]; exact safe)
  have blocked := describes.blocked isSafe
  rw [sameLane] at blocked
  exact ⟨candidate, present, sameLane, describes.named, isSafe, blocked⟩

private theorem Judged.free_candidate {lane : Nat} {front : Event}
    (atFront : queue.FrontAt lane front) (safe : queue.SafeAt lane front.key)
    (free : ¬ queue.Blocked lane front) :
    ∃ candidate ∈ candidates.filter fun candidate => candidate.safe && !candidate.blocked,
      candidate.lane = lane ∧ candidate.key = front.key := by
  obtain ⟨candidate, present, sameLane, named, isSafe, blocked⟩ :=
    judged.safe_candidate complete atFront safe
  refine ⟨candidate, List.mem_filter.mpr ⟨present, ?_⟩, sameLane, named⟩
  rw [isSafe, Bool.true_and, Bool.not_eq_true', Bool.eq_false_iff]
  exact fun held => free (blocked.mp held)

include described

private theorem Judged.select_ready
    (free : least? (candidates.filter fun candidate => candidate.safe && !candidate.blocked) =
      some chosen) : queue.Verdict (some chosen.lane) queue := by
  obtain ⟨member, below⟩ := least?_spec free
  obtain ⟨among, passes⟩ := List.mem_filter.mp member
  rw [Bool.and_eq_true, Bool.not_eq_true'] at passes
  obtain ⟨front, describes⟩ := described chosen among
  refine .ready chosen.lane front describes.atFront (describes.safe.mp passes.1) ?_ ?_
  · intro blocked
    rw [(describes.blocked passes.1).mpr blocked] at passes
    exact Bool.noConfusion passes.2
  · intro other rival atFront safe unblocked
    obtain ⟨candidate, present, _, named⟩ :=
      judged.free_candidate complete atFront safe unblocked
    rw [← describes.named, ← named]
    exact below candidate present

private theorem Judged.select_deadlock
    (stuck : least? (candidates.filter fun candidate => candidate.safe && !candidate.blocked) =
      none) (safest : least? (candidates.filter Candidate.safe) = some chosen) :
    queue.Verdict (some chosen.lane) { queue with deadlocks := queue.deadlocks + 1 } := by
  obtain ⟨member, below⟩ := least?_spec safest
  obtain ⟨among, isSafe⟩ := List.mem_filter.mp member
  obtain ⟨front, describes⟩ := described chosen among
  refine .deadlock chosen.lane front describes.atFront (describes.safe.mp isSafe) ?_ ?_
  · intro other rival atFront safe
    apply Classical.byContradiction
    intro unblocked
    obtain ⟨candidate, present, _⟩ := judged.free_candidate complete atFront safe unblocked
    rw [least?_eq_none stuck] at present
    cases present
  · intro other rival atFront safe
    obtain ⟨candidate, present, _, named, passes, _⟩ :=
      judged.safe_candidate complete atFront safe
    rw [← describes.named, ← named]
    exact below candidate (List.mem_filter.mpr ⟨present, passes⟩)

private theorem Judged.select_forced (safest : least? (candidates.filter Candidate.safe) = none)
    (lowest : least? candidates = some chosen) : queue.Verdict (some chosen.lane) queue := by
  obtain ⟨among, below⟩ := least?_spec lowest
  obtain ⟨front, describes⟩ := described chosen among
  refine .forced chosen.lane front describes.atFront ?_ ?_
  · intro other rival atFront safe
    obtain ⟨candidate, present, _, _, passes, _⟩ :=
      judged.safe_candidate complete atFront safe
    have listed := List.mem_filter.mpr ⟨present, passes⟩
    rw [least?_eq_none safest] at listed
    cases listed
  · intro other rival atFront
    obtain ⟨candidate, present, describesRival⟩ := complete other rival atFront
    rw [← describes.named, ← describesRival.named]
    exact below candidate present

end

/-- Selecting never faults, and its outcome is one of these. -/
theorem Judged.select (judged : queue.Judged) :
    ∃ lane? after, queue.select = .ok (lane?, after) ∧ queue.Verdict lane? after := by
  obtain ⟨candidates, listed, described, complete⟩ := judged.candidates_spec
  unfold LaneQueue.select
  simp only [listed, bind, Except.bind, pure, Except.pure]
  unfold choose?
  cases free : least? (candidates.filter fun candidate =>
      candidate.safe && !candidate.blocked) with
  | some chosen =>
      exact ⟨some chosen.lane, queue, rfl, judged.select_ready described complete free⟩
  | none =>
      cases safest : least? (candidates.filter Candidate.safe) with
      | some chosen =>
          exact ⟨some chosen.lane, _, rfl,
            judged.select_deadlock described complete free safest⟩
      | none =>
          cases lowest : least? candidates with
          | some chosen =>
              exact ⟨some chosen.lane, queue, rfl,
                judged.select_forced described complete safest lowest⟩
          | none =>
              refine ⟨none, queue, rfl, .nothing fun lane front atFront => ?_⟩
              obtain ⟨candidate, present, _⟩ := complete lane front atFront
              rw [least?_eq_none lowest] at present
              cases present

theorem Judged.select_only_safe (judged : queue.Judged) {lane : Nat} {front : Event}
    (atFront : queue.FrontAt lane front) (safe : queue.SafeAt lane front.key)
    (free : ¬ queue.Blocked lane front)
    (only : ∀ other rival, queue.FrontAt other rival → queue.SafeAt other rival.key →
      other = lane) : queue.select = .ok (some lane, queue) := by
  obtain ⟨lane?, after, selected, verdict⟩ := judged.select
  rw [selected]
  cases verdict with
  | nothing noFront => exact absurd atFront (noFront lane front)
  | ready other rival atRival safeRival => rw [only other rival atRival safeRival]
  | deadlock other rival _ _ stuck => exact absurd (stuck lane front atFront safe) free
  | forced other rival _ never => exact absurd safe (never lane front atFront)

/-- What is selected while nothing is listed but messages that are held. -/
inductive Selection (queue : LaneQueue) : Option Nat → LaneQueue → Prop
  | nothing (noEvents : queue.events = []) : Selection queue none queue
  | ready (lane : Nat) (front : Event) (atFront : queue.FrontAt lane front)
      (safe : queue.SafeAt lane front.key) (free : ¬ queue.Blocked lane front)
      (least : ∀ other rival, queue.FrontAt other rival → queue.SafeAt other rival.key →
        ¬ queue.Blocked other rival → front.key.rank ≤ rival.key.rank) :
      Selection queue (some lane) queue
  | deadlock (lane : Nat) (front : Event) (atFront : queue.FrontAt lane front)
      (stuck : ∀ other rival, queue.FrontAt other rival → queue.SafeAt other rival.key →
        queue.Blocked other rival)
      (least : front.LeastOf queue.events) :
      Selection queue (some lane) { queue with deadlocks := queue.deadlocks + 1 }

/-- Only a message resolves a deadlock; selecting anything else changes nothing. -/
theorem Verdict.eq_of_stays {lane? : Option Nat} {after : LaneQueue}
    (verdict : queue.Verdict lane? after)
    (stays : ∀ lane front, lane? = some lane → queue.FrontAt lane front →
      queue.isCrossing front = false) : after = queue := by
  cases verdict with
  | nothing => rfl
  | ready => rfl
  | forced => rfl
  | deadlock lane front atFront safe stuck =>
      have crossing := (stuck lane front atFront safe).1
      rw [stays lane front rfl atFront] at crossing
      cases crossing

/-- The least event is safe, so it is among what resolves a deadlock and nothing is forced. -/
theorem Verdict.selection (charted : queue.Charted) (equipped : queue.Equipped entities)
    (tracks : queue.Tracks []) {lane? : Option Nat} {after : LaneQueue}
    (verdict : queue.Verdict lane? after) : Selection queue lane? after := by
  cases verdict with
  | nothing noFront =>
      refine .nothing (List.eq_nil_iff_forall_not_mem.mpr fun event member => ?_)
      obtain ⟨front, atFront, _⟩ := charted.front_of_home member
      exact noFront _ front atFront
  | ready lane front atFront safe free least => exact .ready lane front atFront safe free least
  | deadlock lane front atFront safe stuck least =>
      refine .deadlock lane front atFront stuck ⟨atFront.mem, fun event member => ?_⟩
      obtain ⟨first, leastOf⟩ := Event.exists_leastOf (List.ne_nil_of_mem member)
      obtain ⟨atFirst, safeFirst⟩ := charted.least_safe equipped tracks leastOf
      exact Nat.le_trans (least _ first atFirst safeFirst) (leastOf.below event member)
  | forced lane front atFront never =>
      obtain ⟨first, leastOf⟩ := Event.exists_leastOf (List.ne_nil_of_mem atFront.mem)
      obtain ⟨atFirst, safeFirst⟩ := charted.least_safe equipped tracks leastOf
      exact absurd safeFirst (never _ first atFirst)

theorem Sound.select (sound : queue.Sound entities) :
    ∃ lane? after, queue.select = .ok (lane?, after) ∧ Selection queue lane? after := by
  obtain ⟨lane?, after, selected, verdict⟩ := (sound.charted.judged sound.toEquipped).select
  exact ⟨lane?, after, selected,
    verdict.selection sound.charted sound.toEquipped sound.tracks⟩

end EventKernel.Queue.LaneQueue
