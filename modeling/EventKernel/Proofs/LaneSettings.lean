import EventKernel.Proofs.LaneInversions

set_option autoImplicit false

/-! What no operation on lanes changes, in whatever state it finds them: the latencies, the
boundary, who waits for whom, and how many lanes there are. -/

namespace EventKernel.Queue.LaneQueue

variable {queue after : LaneQueue} {event : Event}

structure SameOutline (queue after : LaneQueue) : Prop extends queue.SameSettings after where
  laneCount : after.lanes.length = queue.lanes.length

theorem SameOutline.refl (queue : LaneQueue) : queue.SameOutline queue := ⟨.refl queue, rfl⟩

theorem SameOutline.trans {first second third : LaneQueue}
    (former : first.SameOutline second) (latter : second.SameOutline third) :
    first.SameOutline third :=
  ⟨former.toSameSettings.trans latter.toSameSettings, latter.laneCount.trans former.laneCount⟩

private theorem select_outline {lane? : Option Nat}
    (selected : queue.select = .ok (lane?, after)) : queue.SameOutline after := by
  obtain ⟨deadlocks, rfl⟩ := select_eq_ok selected
  exact ⟨⟨rfl, rfl, rfl⟩, rfl⟩

theorem convert_outline (converted : queue.convert event = .ok after) :
    queue.SameOutline after := by
  obtain ⟨_, _, recounts, _, same⟩ := convert_eq_ok converted
  rw [same]
  exact ⟨⟨rfl, rfl, recounts.interfaces⟩, List.length_set⟩

private theorem settleWithin_outline (moves : Nat) {lane? : Option Nat}
    (settled : settleWithin moves queue = .ok (lane?, after)) : queue.SameOutline after := by
  induction moves generalizing queue with
  | zero => exact select_outline settled
  | succ moves ih =>
      unfold settleWithin at settled
      obtain ⟨⟨chosen?, selected⟩, selects, settled⟩ := bind_eq_ok settled
      have unchanged := select_outline selects
      simp only at settled
      split at settled
      · cases settled
        exact unchanged
      · rename_i lane
        obtain ⟨list, _, settled⟩ := bind_eq_ok settled
        split at settled
        · cases settled
          exact unchanged
        · split at settled
          · obtain ⟨⟨event?, rest⟩, _, settled⟩ := bind_eq_ok settled
            have left : queue.SameOutline (selected.putLane lane rest) :=
              unchanged.trans ⟨⟨rfl, rfl, rfl⟩, List.length_set⟩
            simp only at settled
            split at settled
            · cases settled
              exact left
            · obtain ⟨next, converted, settled⟩ := bind_eq_ok settled
              exact (left.trans (convert_outline converted)).trans (ih settled)
          · cases settled
            exact unchanged

private theorem insert_outline (inserted : queue.insert event = .ok after) :
    queue.SameOutline after := by
  obtain ⟨_, _, count, same⟩ := insert_eq_ok inserted
  rw [same]
  exact ⟨⟨rfl, rfl, rfl⟩, count⟩

theorem pop_outline {event? : Option Event}
    (popped : queue.pop = .ok (event?, after)) : queue.SameOutline after := by
  obtain ⟨_, _, _, _, settles, count, recounts, same⟩ := pop_eq_ok popped
  rw [same]
  exact (settleWithin_outline _ settles).trans ⟨⟨rfl, rfl, recounts.interfaces⟩, count⟩

theorem erase_outline {key : EventKey} {event? : Option Event}
    (erased : queue.erase key = .ok (event?, after)) : queue.SameOutline after := by
  obtain ⟨_, _, _, count, recounts, same⟩ := erase_eq_ok erased
  rw [same]
  exact ⟨⟨rfl, rfl, recounts.interfaces⟩, count⟩

private theorem drain_outline (queue : LaneQueue) : queue.SameOutline queue.drain.2 :=
  ⟨⟨rfl, rfl, rfl⟩, List.length_map _⟩

theorem perform_outline {operation : Operation} {answer : Answer}
    (performed : queue.perform operation = .ok (answer, after)) : queue.SameOutline after := by
  cases perform_eq_ok performed with
  | insert inserts => exact insert_outline inserts
  | reinsert inserts => exact insert_outline inserts
  | next settles => exact settleWithin_outline _ settles
  | pop popped => exact pop_outline popped
  | erase erased => exact erase_outline erased
  | drain => exact drain_outline queue

end EventKernel.Queue.LaneQueue
