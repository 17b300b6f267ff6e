import EventKernel.Proofs.LaneContents
import EventKernel.Proofs.QueueTraces

set_option autoImplicit false

/-! How lanes keep their lists cannot be told from outside. The comparison that insertions use, the
look at the tail and the barriers that hold insertions back change when an event is listed and
when it is parked; but never which event is handed out, which messages are converted, what credit
there is and how many deadlocks are met. Under the credit rule, too, where events do not leave in
removal order. -/

namespace EventKernel.Queue

def Configuration.withListPolicy (configuration : Configuration)
    (pathReduction waitingList : Bool) : Configuration :=
  { configuration with
    strategies := { configuration.strategies with pathReduction, waitingList } }

namespace LaneQueue

variable {first second : LaneQueue}

structure Reading where
  size : Nat
  isEmpty : Bool
  credits : Option CreditTable
  deadlocks : Nat
  conversions : Nat
deriving DecidableEq, Repr

def reading (queue : LaneQueue) : Reading :=
  ⟨queue.size, queue.isEmpty, queue.credits, queue.deadlocks, queue.conversions⟩

private theorem Twins.reading_eq (twins : first.Twins 0 second) :
    first.reading = second.reading := by
  have moved : second.conversions = first.conversions := Int.ofNat.inj twins.conversions
  have met : second.deadlocks = first.deadlocks := Int.ofNat.inj twins.deadlocks
  unfold reading
  rw [twins.size_eq, twins.isEmpty_eq, moved, met, twins.elsewhere]

/-- Any operation is answered alike by twins, and leaves twins behind. -/
theorem Twins.perform {lead : Lead} (twins : first.Twins lead second) {operation : Operation}
    (fresh : operation.Fresh first.keys) :
    Alike (fun left right => left.1.Agrees right.1 ∧ left.2.Twins lead right.2)
      (first.perform operation) (second.perform operation) := by
  have entered {event : Event} (fresh : ∀ key ∈ first.keys, key.uid ≠ event.key.uid) :=
    Hosts.insert twins event fun other member => fresh other.key (List.mem_map_of_mem member)
  cases operation with
  | insert event =>
      exact (entered fresh).bind fun _ _ _ _ after => ⟨.same _, after⟩
  | reinsert event =>
      exact (entered fresh).bind fun _ _ _ _ after => ⟨.same _, after⟩
  | next =>
      refine twins.next?.bind ?_
      rintro ⟨key?, left⟩ ⟨_, right⟩ _ _ ⟨rfl, after⟩
      exact ⟨.same _, after⟩
  | pop =>
      refine twins.pop.bind ?_
      rintro ⟨event?, left⟩ ⟨_, right⟩ _ _ ⟨rfl, after⟩
      exact ⟨.same _, after⟩
  | erase key =>
      refine (twins.erase key).bind ?_
      rintro ⟨event?, left⟩ ⟨_, right⟩ _ _ ⟨rfl, after⟩
      exact ⟨.same _, after⟩
  | drain => exact ⟨.drained twins.drain.1, twins.drain.2⟩

private theorem Twins.traces_agree (twins : first.Twins 0 second) {operations : List Operation}
    (numbered : Numbered LaneQueue.perform keys first operations) :
    TracesAgree (trace LaneQueue.perform reading first operations)
      (trace LaneQueue.perform reading second operations) :=
  Queue.traces_agree (fun _ _ _ relates fresh => relates.perform fresh)
    (fun _ _ relates => relates.reading_eq) twins numbered

private theorem Twins.of_empty (first : LaneQueue) (count : Nat) (policy other : ListPolicy) :
    Twins 0 { first with lanes := List.replicate count (.empty policy) }
      { first with lanes := List.replicate count (.empty other) } where
  elsewhere := rfl
  conversions := rfl
  deadlocks := rfl
  laneCount := by rw [List.length_replicate, List.length_replicate]
  lists := by
    intro lane list counterpart found there
    rw [List.eq_of_mem_replicate (List.mem_of_getElem? found),
      List.eq_of_mem_replicate (List.mem_of_getElem? there)]
    exact BarrierList.Twins.drained (.empty policy) (.empty other)
  distinct := by
    have nothing : LaneQueue.events
        { first with lanes := List.replicate count (.empty policy) } = [] :=
      replicate_events count policy
    rw [nothing]
    exact List.nodup_nil

private theorem new_withListPolicy {configuration : Configuration} {queue : LaneQueue}
    (built : new configuration = .ok queue) (pathReduction waitingList : Bool) :
    queue = { queue with
      lanes := List.replicate (configuration.entities + 1)
        (.empty (.ofStrategies configuration.strategies)) } ∧
    new (configuration.withListPolicy pathReduction waitingList) = .ok { queue with
      lanes := List.replicate (configuration.entities + 1) (.empty
        (.ofStrategies (configuration.withListPolicy pathReduction waitingList).strategies)) } := by
  unfold new at built ⊢
  simp only at built
  unfold Configuration.withListPolicy
  simp only
  split at built
  · rename_i counted
    obtain ⟨credits, table, returned⟩ := bind_eq_ok built
    cases returned
    rw [if_pos counted, table]
    exact ⟨rfl, rfl⟩
  · rename_i uncounted
    cases built
    rw [if_neg uncounted]
    exact ⟨rfl, rfl⟩

/-- Whatever the list strategies are, lanes answer every operation alike, drained events up to
their order, and show the same size, credit, deadlocks and conversions after it. -/
theorem list_policies_answer_alike (configuration : Configuration)
    (valid : configuration.validate = .ok (.ok ()))
    (pathReduction waitingList otherReduction otherWaiting : Bool) :
    ∃ first second, new (configuration.withListPolicy pathReduction waitingList) = .ok first ∧
      new (configuration.withListPolicy otherReduction otherWaiting) = .ok second ∧
      first.reading = second.reading ∧
      ∀ operations, Numbered perform keys first operations →
        TracesAgree (trace perform reading first operations)
          (trace perform reading second operations) := by
  obtain ⟨queue, built, _⟩ := new_sound (Configuration.accepted_of_validate valid)
  have twins := Twins.of_empty queue (configuration.entities + 1)
    (.ofStrategies (configuration.withListPolicy pathReduction waitingList).strategies)
    (.ofStrategies (configuration.withListPolicy otherReduction otherWaiting).strategies)
  exact ⟨_, _, (new_withListPolicy built _ _).2, (new_withListPolicy built _ _).2,
    twins.reading_eq, fun _ numbered => twins.traces_agree numbered⟩

def earlyBarrier : Event := ⟨⟨⟨11⟩, ⟨7⟩, .node ⟨2⟩⟩, .timeout, .node ⟨2⟩, none⟩

def leadingEvent : Event := ⟨⟨⟨1⟩, ⟨8⟩, .node ⟨2⟩⟩, .undefined, .node ⟨2⟩, none⟩

/-- Events of the third entity, the last of which is parked behind a barrier if barriers hold
events back, and a message to it that waits for credit. -/
def parkingOperations : List Operation :=
  [.insert leadingEvent, .insert earlyBarrier, .insert freeEvent, .insert laterMessage, .next,
    .pop, .pop, .pop, .pop, .drain]

/-- An event is parked in one of two queues, and handed out at the same point of both. -/
theorem list_policies_answer_alike_parked :
    ∃ first second, new (waitingConfiguration.withListPolicy false true) = .ok first ∧
      new (waitingConfiguration.withListPolicy true false) = .ok second ∧
      TracesAgree (trace perform reading first parkingOperations)
        (trace perform reading second parkingOperations) ∧
      (trace perform reading second parkingOperations).1.map (fun read => read.2.deadlocks) =
        [0, 0, 0, 0, 0, 0, 0, 0, 1, 1] := by
  obtain ⟨first, second, built, otherBuilt, _, alike⟩ :=
    list_policies_answer_alike waitingConfiguration rfl false true true false
  cases built
  cases otherBuilt
  exact ⟨_, _, rfl, rfl, alike parkingOperations (by decide), rfl⟩

end LaneQueue

end EventKernel.Queue
