import EventKernel.Proofs.LaneContents
import EventKernel.Proofs.LayoutOperations
import EventKernel.Proofs.QueueTraces

set_option autoImplicit false

/-! Queues of one configuration that hold the same events where they belong, whatever their layout,
and are not explored. Nothing that can be asked of them tells them apart, except a description
of how they are arranged. -/

namespace EventKernel.Queue

open Exploration (Hook Perturbation)

namespace Layout

/-- Two layouts of one kind that hold the same events, and the guests of the first. -/
inductive Hosts (lead : LaneQueue.Lead) (guests : List Event) : Layout → Layout → Prop
  | single {list other : BarrierList} (lists : BarrierList.Hosts guests list other)
      (distinct : (list.events.map fun event => event.key.uid).Nodup) :
      Hosts lead guests (single list) (single other)
  | partitioned {lanes others : LaneQueue} (hosts : LaneQueue.Hosts lead guests lanes others) :
      Hosts lead guests (partitioned lanes) (partitioned others)

def Twins (lead : LaneQueue.Lead) (first second : Layout) : Prop := Hosts lead [] first second

variable {first second : Layout} {lead : LaneQueue.Lead} {guests : List Event}

namespace Hosts

variable (hosts : Hosts lead guests first second)

include hosts

theorem distinct : (first.events.map fun event => event.key.uid).Nodup := by
  cases hosts with
  | single lists distinct =>
      rw [events_single]
      exact distinct
  | partitioned queues => exact queues.distinct

theorem insert (event : Event) (fresh : ∀ other ∈ first.events, other.key.uid ≠ event.key.uid) :
    Alike (Hosts lead guests) (first.insert event) (second.insert event) := by
  cases hosts with
  | single lists distinct =>
      rw [events_single] at fresh
      exact .single (lists.insert event) (LaneQueue.distinct_added event distinct fresh
        (lists.left.insert_events event))
  | partitioned queues => exact (queues.insert event fresh).map fun _ _ => Hosts.partitioned

private theorem erase (key : EventKey) (others : ∀ guest ∈ guests, guest.key.uid ≠ key.uid) :
    Alike (fun left right => left.1 = right.1 ∧ Hosts lead guests left.2 right.2)
      (first.erase key) (second.erase key) := by
  cases hosts with
  | single lists distinct =>
      obtain ⟨event?, left, right, erased, otherErased, kept, taken⟩ :=
        lists.erase distinct others
      unfold Layout.erase
      simp only [erased, otherErased]
      exact ⟨rfl, .single kept (LaneQueue.distinct_taken event? distinct taken)⟩
  | partitioned queues =>
      exact (queues.erase key others).map fun _ _ same => ⟨same.1, .partitioned same.2⟩

private theorem deadlocks_eq (level : lead.deadlocks = 0) : second.deadlocks = first.deadlocks := by
  cases hosts with
  | single => rfl
  | partitioned queues =>
      have counted := queues.deadlocks
      rw [level, Int.add_zero] at counted
      exact Int.ofNat.inj counted

end Hosts

namespace Twins

variable (twins : Twins lead first second)

include twins

theorem size_eq : second.size = first.size := by
  cases twins with
  | single lists => exact BarrierList.Twins.size_eq lists
  | partitioned queues => exact LaneQueue.Twins.size_eq queues

theorem isEmpty_eq : second.isEmpty = first.isEmpty := by
  cases twins with
  | single lists => exact BarrierList.Twins.isEmpty_eq lists
  | partitioned queues => exact LaneQueue.Twins.isEmpty_eq queues

private theorem next? : Alike (fun left right => left.1 = right.1 ∧ left.2.Twins lead right.2)
    first.next? second.next? := by
  cases twins with
  | single lists distinct =>
      exact ⟨(BarrierList.Twins.next?_eq lists distinct).symm, .single lists distinct⟩
  | partitioned queues =>
      exact (LaneQueue.Twins.next? queues).map fun _ _ same => ⟨same.1, .partitioned same.2⟩

private theorem pop : Alike (fun left right => left.1 = right.1 ∧ left.2.Twins lead right.2)
    first.pop second.pop := by
  cases twins with
  | single lists distinct =>
      obtain ⟨event?, left, right, popped, otherPopped, kept, taken⟩ :=
        BarrierList.Twins.pop lists distinct
      unfold Layout.pop
      simp only [popped, otherPopped]
      exact ⟨rfl, .single kept (LaneQueue.distinct_taken event? distinct taken)⟩
  | partitioned queues =>
      exact (LaneQueue.Twins.pop queues).map fun _ _ same => ⟨same.1, .partitioned same.2⟩

theorem drain : first.drain.1.Perm second.drain.1 ∧ first.drain.2.Twins lead second.drain.2 := by
  cases twins with
  | @single list other lists =>
      exact ⟨lists.events, .single (BarrierList.Twins.drained list other) List.nodup_nil⟩
  | partitioned queues =>
      obtain ⟨same, kept⟩ := LaneQueue.Twins.drain queues
      exact ⟨same, .partitioned kept⟩

end Twins

end Layout

namespace EventQueue

variable {σ : Type}

structure Unexplored (queue : EventQueue σ) : Prop where
  quiet : queue.perturbation.settings.enabled = false
  unexplored : queue.configuration.exploration.enabled = false

/-- Two queues of one configuration, without exploration, that hold the same events; the first has
some guests as well. -/
structure Hosts (lead : LaneQueue.Lead) (guests : List Event) (first second : EventQueue σ) :
    Prop where
  configuration : second.configuration = first.configuration
  left : first.Unexplored
  right : second.Unexplored
  layouts : Layout.Hosts lead guests first.layout second.layout

def Twins (lead : LaneQueue.Lead) (first second : EventQueue σ) : Prop := Hosts lead [] first second

structure Reading where
  size : Nat
  isEmpty : Bool
  deadlocks : Nat
deriving DecidableEq, Repr

def reading (queue : EventQueue σ) : Reading := ⟨queue.size, queue.isEmpty, queue.deadlocks⟩

def keys (queue : EventQueue σ) : List EventKey := queue.layout.events.map Event.key

variable {queue first second : EventQueue σ} {lead : LaneQueue.Lead} {guests : List Event}

theorem Unexplored.insert_eq [Hook σ] (unexplored : queue.Unexplored) (event : Event) :
    queue.insert event =
      (fun layout => (.ok event.key, { queue with layout })) <$> queue.layout.insert event := by
  have applied : queue.perturbation.apply queue.hook event =
      .ok (.ok event, queue.perturbation, queue.hook) := by
    unfold Perturbation.apply
    rw [unexplored.quiet, Bool.not_false, if_pos rfl]
  unfold EventQueue.insert EventQueue.reports
  simp only [applied, unexplored.unexplored, bind, Except.bind, Bool.false_and]
  cases queue.layout.insert event with
  | error fault => rfl
  | ok layout => rfl

theorem Unexplored.of_new {configuration : Configuration} {hook : σ}
    (quiet : configuration.exploration.enabled = false)
    (built : EventQueue.new configuration hook = .ok (.ok queue)) : queue.Unexplored := by
  rw [(new_eq_ok built).2.2]
  exact ⟨quiet, quiet⟩

namespace Hosts

variable (hosts : Hosts lead guests first second)

include hosts

theorem relayout {left right : Layout} (layouts : Layout.Hosts lead guests left right) :
    Hosts lead guests { first with layout := left } { second with layout := right } :=
  ⟨hosts.configuration, ⟨hosts.left.quiet, hosts.left.unexplored⟩,
    ⟨hosts.right.quiet, hosts.right.unexplored⟩, layouts⟩

theorem insert [Hook σ] (event : Event)
    (fresh : ∀ other ∈ first.layout.events, other.key.uid ≠ event.key.uid) :
    Alike (fun left right => left.1 = right.1 ∧ Hosts lead guests left.2 right.2)
      (first.insert event) (second.insert event) := by
  rw [hosts.left.insert_eq, hosts.right.insert_eq]
  exact (hosts.layouts.insert event fresh).map fun _ _ kept => ⟨rfl, hosts.relayout kept⟩

private theorem reinsert (event : Event)
    (fresh : ∀ other ∈ first.layout.events, other.key.uid ≠ event.key.uid) :
    Alike (Hosts lead guests) (first.reinsert event) (second.reinsert event) :=
  (hosts.layouts.insert event fresh).bind fun _ _ _ _ kept => hosts.relayout kept

theorem erase (key : EventKey) (others : ∀ guest ∈ guests, guest.key.uid ≠ key.uid) :
    Alike (fun left right => left.1 = right.1 ∧ Hosts lead guests left.2 right.2)
      (first.erase key) (second.erase key) :=
  (hosts.layouts.erase key others).bind fun _ _ _ _ same => ⟨same.1, hosts.relayout same.2⟩

end Hosts

namespace Twins

variable (twins : Twins lead first second)

include twins

private theorem size_eq : second.size = first.size := Layout.Twins.size_eq twins.layouts

private theorem isEmpty_eq : second.isEmpty = first.isEmpty := Layout.Twins.isEmpty_eq twins.layouts

theorem reading_eq (level : lead.deadlocks = 0) : first.reading = second.reading := by
  have met : second.deadlocks = first.deadlocks := twins.layouts.deadlocks_eq level
  unfold reading
  rw [twins.size_eq, twins.isEmpty_eq, met]

theorem pop : Alike (fun left right => left.1 = right.1 ∧ left.2.Twins lead right.2)
    first.pop second.pop :=
  (Layout.Twins.pop twins.layouts).bind fun _ _ _ _ same => ⟨same.1, twins.relayout same.2⟩

private theorem next? : Alike (fun left right => left.1 = right.1 ∧ left.2.Twins lead right.2)
    first.next? second.next? :=
  (Layout.Twins.next? twins.layouts).bind fun _ _ _ _ same => ⟨same.1, twins.relayout same.2⟩

/-- Any operation is answered alike by twins, and leaves twins behind. -/
theorem perform [Hook σ] {operation : Operation} (fresh : operation.Fresh first.keys) :
    Alike (fun left right => left.1.Agrees right.1 ∧ left.2.Twins lead right.2)
      (first.perform operation) (second.perform operation) := by
  have apart {event : Event} (fresh : ∀ key ∈ first.keys, key.uid ≠ event.key.uid) :
      ∀ other ∈ first.layout.events, other.key.uid ≠ event.key.uid :=
    fun other member => fresh other.key (List.mem_map_of_mem member)
  cases operation with
  | insert event =>
      refine (Hosts.insert twins event (apart fresh)).bind ?_
      rintro ⟨result, left⟩ ⟨_, right⟩ _ _ ⟨rfl, after⟩
      exact ⟨.same _, after⟩
  | reinsert event =>
      exact (Hosts.reinsert twins event (apart fresh)).bind fun _ _ _ _ after => ⟨.same _, after⟩
  | next =>
      refine twins.next?.bind ?_
      rintro ⟨key?, left⟩ ⟨_, right⟩ _ _ ⟨rfl, after⟩
      exact ⟨.same _, after⟩
  | pop =>
      refine twins.pop.bind ?_
      rintro ⟨event?, left⟩ ⟨_, right⟩ _ _ ⟨rfl, after⟩
      exact ⟨.same _, after⟩
  | erase key =>
      refine (Hosts.erase twins key fun _ none_ => nomatch none_).bind ?_
      rintro ⟨event?, left⟩ ⟨_, right⟩ _ _ ⟨rfl, after⟩
      exact ⟨.same _, after⟩
  | drain =>
      obtain ⟨same, kept⟩ := Layout.Twins.drain twins.layouts
      exact ⟨.drained same, twins.relayout kept⟩

theorem traces_agree [Hook σ] (level : lead.deadlocks = 0) {operations : List Operation}
    (numbered : Numbered EventQueue.perform keys first operations) :
    TracesAgree (trace EventQueue.perform reading first operations)
      (trace EventQueue.perform reading second operations) :=
  Queue.traces_agree
    (fun left right _ (relates : left.Twins lead right) fresh => relates.perform fresh)
    (fun _ _ relates => relates.reading_eq level) twins numbered

end Twins

end EventQueue

end EventKernel.Queue
