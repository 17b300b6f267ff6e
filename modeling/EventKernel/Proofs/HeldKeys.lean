import EventKernel.Proofs.LayoutOperations
import EventKernel.Proofs.SimulationOperations

set_option autoImplicit false

/-! The keys that a queue holds, whatever its layout does with the events. A message may change
its kind on the way, and exploration may shift the time of an event when it is put in; but from
then on its key stays. Each operation changes the keys held by exactly those it names. -/

namespace EventKernel.Queue

namespace LaneQueue

variable {queue after : LaneQueue} {entities : Nat}

private theorem Removal.keys (sound : queue.Sound entities) {event : Event}
    (removal : Removal queue (some event) after) :
    (queue.events.map Event.key).Perm (event.key :: after.events.map Event.key) ∧
      ∀ other ∈ event :: after.events, ∃ origin ∈ queue.events,
        origin.key = other.key ∧ origin.prevContext = other.prevContext := by
  cases removal with
  | next settles settled left settings =>
      have carried := settles.carried sound
      constructor
      · have ⟨moved, _, arrived⟩ := carried
        have same : (queue.events.map (arrive moved)).map Event.key =
            queue.events.map Event.key := by
          rw [List.map_map]
          exact List.map_congr_left fun other _ => arrive_key moved other
        exact (same ▸ (arrived.map Event.key).symm).trans (left.map Event.key)
      · intro other member
        obtain ⟨origin, present, key, same⟩ := carried.origin (left.mem_iff.mpr member)
        refine ⟨origin, present, key, ?_⟩
        rcases same with same | same
        · rw [same]
        · rw [same]
          rfl

end LaneQueue

namespace Layout

variable {layout : Layout} {entities : Nat}

/-- What is handed out next had its key before, and nothing is only if nothing is held. A fault
is one of credit that no cell can count. -/
theorem Sound.pop (sound : layout.Sound entities) :
    (∃ event? after, layout.pop = .ok (event?, after) ∧ after.Sound entities ∧
      (event? = none → layout.events = [] ∧ after = layout) ∧
      ∀ event, event? = some event →
        (layout.events.map Event.key).Perm (event.key :: after.events.map Event.key) ∧
        ∀ other ∈ event :: after.events, ∃ origin ∈ layout.events,
          origin.key = other.key ∧ origin.prevContext = other.prevContext) ∨
    layout.pop = .error .arithmeticOverflow := by
  cases layout with
  | single list =>
      left
      cases first : list.front? with
      | none =>
          have noEvents := BarrierList.front?_eq_none_iff.mp first
          refine ⟨none, single list, ?_, sound, fun _ => ⟨?_, rfl⟩,
            fun event impossible => nomatch impossible⟩
          · unfold Layout.pop
            simp only [BarrierList.pop_of_no_events noEvents]
            rfl
          · rw [events_single]
            exact noEvents
      | some front =>
          obtain ⟨rest, popped, restSound, _, taken⟩ := sound.1.pop first
          have distinct := ((taken.map fun event => event.key.uid).nodup_iff).mp sound.2
          refine ⟨some front.event, single rest, ?_,
            ⟨restSound, (List.nodup_cons.mp distinct).2⟩, (fun impossible => nomatch impossible),
            fun event same => ?_⟩
          · unfold Layout.pop
            simp only [popped]
            rfl
          · cases same
            rw [events_single, events_single]
            exact ⟨taken.map Event.key, fun other member =>
              ⟨other, taken.mem_iff.mpr member, rfl, rfl⟩⟩
  | partitioned lanes =>
      rcases LaneQueue.Sound.pop sound with
        ⟨event?, after, popped, removal, afterSound, _⟩ | ⟨fails, _⟩
      · left
        refine ⟨event?, partitioned after, ?_, afterSound, ?_, ?_⟩
        · unfold Layout.pop
          simp only [popped]
          rfl
        · intro nothing
          rw [nothing] at removal
          cases removal with
          | nothing noEvents => exact ⟨noEvents, rfl⟩
        · intro event same
          rw [same] at removal
          exact removal.keys sound
      · right
        unfold Layout.pop
        simp only [fails]
        rfl

end Layout

namespace EventQueue

open Exploration (Hook)

variable {σ : Type} {queue after : EventQueue σ} {entities : Nat} {keys : List EventKey}

/-- The keys of the events of a sound queue, in any order. All owners and causes are known. -/
structure Holds (queue : EventQueue σ) (entities : Nat) (keys : List EventKey) : Prop where
  sound : queue.layout.Sound entities
  listed : (queue.layout.events.map Event.key).Perm keys
  known : ∀ event ∈ queue.layout.events,
    event.key.context.Known entities ∧ event.prevContext.Known entities

theorem new_holds {configuration : Configuration} {hook : σ}
    (built : EventQueue.new configuration hook = .ok (.ok queue)) :
    queue.Holds queue.entities [] := by
  obtain ⟨sound, noEvents, _⟩ := sound_of_new built
  refine ⟨?_, ?_, ?_⟩
  · unfold entities
    rw [configuration_of_new built]
    exact sound
  · simp only [noEvents]
    exact .refl _
  · simp only [noEvents]
    exact List.forall_mem_nil _

/-- Events are put in one by one, and nothing else changes. -/
theorem reinsertAll_fills {queue : EventQueue σ} {events : List Event}
    (sound : queue.layout.Sound entities)
    (addressed : ∀ event ∈ events, queue.layout.Addressed entities event)
    (distinct : (events.map fun event => event.key.uid).Nodup)
    (fresh : ∀ event ∈ events, ∀ other ∈ queue.layout.events, other.key.uid ≠ event.key.uid) :
    ∃ layout, queue.reinsertAll events = .ok { queue with layout } ∧ layout.Sound entities ∧
      layout.events.Perm (events ++ queue.layout.events) ∧
      queue.layout.SameSettings layout ∧ layout.credits = queue.layout.credits := by
  induction events generalizing queue with
  | nil => exact ⟨queue.layout, rfl, sound, .refl _, .refl _, rfl⟩
  | cons event rest ih =>
      rw [List.map_cons, List.nodup_cons] at distinct
      obtain ⟨layout, placed, placedSound, counts, grown⟩ := sound.insert event
        (addressed event List.mem_cons_self) (fresh event List.mem_cons_self)
      obtain ⟨settings, credits⟩ := Layout.insert_settings placed
      have placedSound : ({ queue with layout } : EventQueue σ).layout.Sound entities := placedSound
      have later : ∀ other ∈ rest, layout.Addressed entities other := fun other member =>
        have known := addressed other (List.mem_cons_of_mem _ member)
        ⟨known.1, fun counting => known.2 (counts.symm.trans counting)⟩
      obtain ⟨last, moved, lastSound, all, lastSettings, lastCredits⟩ :=
        ih placedSound later distinct.2
          fun other member held inside tied => by
            rcases List.mem_cons.mp (grown.mem_iff.mp inside) with same | before
            · refine distinct.1 ?_
              rw [← same, tied]
              exact List.mem_map_of_mem member
            · exact fresh other (List.mem_cons_of_mem _ member) held before tied
      refine ⟨last, ?_, lastSound, ?_, settings.trans lastSettings, lastCredits.trans credits⟩
      · unfold EventQueue.reinsertAll EventQueue.reinsert
        simp only [placed, bind, Except.bind, pure, Except.pure]
        exact moved
      · exact all.trans ((grown.append_left rest).trans List.perm_middle)

namespace Holds

theorem distinct (holds : queue.Holds entities keys) : (keys.map EventKey.uid).Nodup := by
  have same := holds.listed.map EventKey.uid
  rw [List.map_map] at same
  exact (same.nodup_iff).mp holds.sound.distinct

theorem size_eq (holds : queue.Holds entities keys) : queue.size = keys.length := by
  have counted := holds.listed.length_eq
  rw [List.length_map] at counted
  exact holds.sound.size_eq.trans counted

theorem isEmpty_iff (holds : queue.Holds entities keys) : queue.isEmpty = true ↔ keys = [] := by
  refine Layout.isEmpty_iff.trans ⟨fun noEvents => ?_, fun noKeys => ?_⟩
  · have listed := holds.listed
    rw [noEvents] at listed
    exact listed.symm.eq_nil
  · have listed := holds.listed
    rw [noKeys] at listed
    exact List.map_eq_nil_iff.mp listed.eq_nil

theorem knows (holds : queue.Holds entities keys) {key : EventKey} (member : key ∈ keys) :
    key.context.Known entities := by
  obtain ⟨event, present, same⟩ := List.mem_map.mp (holds.listed.mem_iff.mpr member)
  rw [← same]
  exact (holds.known event present).1

theorem perm {others : List EventKey} (holds : queue.Holds entities keys)
    (same : keys.Perm others) : queue.Holds entities others :=
  ⟨holds.sound, holds.listed.trans same, holds.known⟩

private theorem of_layout (holds : queue.Holds entities keys) (same : after.layout = queue.layout) :
    after.Holds entities keys where
  sound := same ▸ holds.sound
  listed := same ▸ holds.listed
  known := same ▸ holds.known

theorem place (holds : queue.Holds entities keys) (event : Event)
    (owner : event.key.context.Known entities) (cause : event.prevContext.Known entities)
    (fresh : event.key.uid ∉ keys.map EventKey.uid) :
    ∃ layout, queue.layout.insert event = .ok layout ∧ layout.counts = queue.layout.counts ∧
      layout.events.Perm (event :: queue.layout.events) ∧
      ∀ after : EventQueue σ, after.layout = layout → after.Holds entities (event.key :: keys) := by
  have newUid : ∀ other ∈ queue.layout.events, other.key.uid ≠ event.key.uid := by
    intro other member same
    apply fresh
    rw [← same]
    exact List.mem_map_of_mem (holds.listed.mem_iff.mp (List.mem_map_of_mem member))
  obtain ⟨layout, placed, sound, counts, grown⟩ :=
    holds.sound.insert event ⟨owner, fun _ => cause⟩ newUid
  refine ⟨layout, placed, counts, grown, fun after same => ?_⟩
  rw [← same] at sound grown
  refine ⟨sound, (grown.map Event.key).trans (holds.listed.cons _), fun other member => ?_⟩
  rcases List.mem_cons.mp (grown.mem_iff.mp member) with new | before
  · rw [new]
    exact ⟨owner, cause⟩
  · exact holds.known other before

theorem erase (holds : queue.Holds entities keys) {key : EventKey} (member : key ∈ keys) :
    ∃ event ∈ queue.layout.events, event.key = key ∧
      ∃ after, queue.erase key = .ok (some event, after) ∧
        after.Holds entities (keys.erase key) := by
  obtain ⟨event, present, same⟩ := List.mem_map.mp (holds.listed.mem_iff.mpr member)
  obtain ⟨layout, erased, sound, _, left⟩ := holds.sound.erase_live present
  rw [same] at erased
  refine ⟨event, present, same, { queue with layout }, ?_, sound, ?_, fun other member => ?_⟩
  · unfold EventQueue.erase
    simp only [erased, bind, Except.bind]
    rfl
  · have shrunk := (holds.listed.symm.trans (left.map Event.key)).erase key
    rw [List.map_cons, same, List.erase_cons_head] at shrunk
    exact shrunk.symm
  · exact holds.known other (left.mem_iff.mpr (List.mem_cons_of_mem _ member))

/-- The next event leaves with its key, unless a cell of credit would count too much. -/
theorem pop (holds : queue.Holds entities keys) :
    (∃ event? after, queue.pop = .ok (event?, after) ∧
      (event? = none → keys = [] ∧ after = queue) ∧
      ∀ event, event? = some event → event.key ∈ keys ∧
        after.Holds entities (keys.erase event.key)) ∨
    queue.pop = .error .arithmeticOverflow := by
  unfold EventQueue.pop
  rcases holds.sound.pop with ⟨event?, layout, popped, sound, none_, left⟩ | fails
  · left
    refine ⟨event?, { queue with layout }, ?_, ?_, ?_⟩
    · simp only [popped, bind, Except.bind]
      rfl
    · intro nothing
      obtain ⟨noEvents, same⟩ := none_ nothing
      rw [same]
      exact ⟨holds.isEmpty_iff.mp (Layout.isEmpty_iff.mpr noEvents), rfl⟩
    · intro event same
      obtain ⟨keysLeft, origins⟩ := left event same
      have listed := holds.listed.symm.trans keysLeft
      refine ⟨listed.mem_iff.mpr List.mem_cons_self, sound, ?_, fun other member => ?_⟩
      · have shrunk := listed.erase event.key
        rw [List.erase_cons_head] at shrunk
        exact shrunk.symm
      · obtain ⟨origin, present, key, cause⟩ := origins other (List.mem_cons_of_mem _ member)
        rw [← key, ← cause]
        exact holds.known origin present
  · right
    rw [fails]
    rfl

theorem drain (holds : queue.Holds entities keys) :
    queue.drain.1 = queue.layout.events ∧ queue.drain.2.Holds entities [] := by
  obtain ⟨all, sound, _, noEvents⟩ := holds.sound.drain
  refine ⟨all, sound, ?_, ?_⟩
  · change (queue.layout.drain.2.events.map Event.key).Perm []
    rw [noEvents]
    exact .refl _
  · change ∀ event ∈ queue.layout.drain.2.events, _
    rw [noEvents]
    exact List.forall_mem_nil _

private theorem reinsertAll {events : List Event} (holds : queue.Holds entities keys)
    (known : ∀ event ∈ events,
      event.key.context.Known entities ∧ event.prevContext.Known entities)
    (distinct : (events.map fun event => event.key.uid).Nodup)
    (fresh : ∀ event ∈ events, event.key.uid ∉ keys.map EventKey.uid) :
    ∃ layout, queue.reinsertAll events = .ok { queue with layout } ∧
      Holds { queue with layout } entities (events.map Event.key ++ keys) ∧
      layout.events.Perm (events ++ queue.layout.events) ∧
      queue.layout.SameSettings layout ∧ layout.credits = queue.layout.credits := by
  obtain ⟨layout, moved, sound, all, settings⟩ := reinsertAll_fills holds.sound
    (fun event member => ⟨(known event member).1, fun _ => (known event member).2⟩) distinct
    fun event member other held tied => fresh event member (by
      rw [← tied]
      exact List.mem_map_of_mem (holds.listed.mem_iff.mp (List.mem_map_of_mem held)))
  refine ⟨layout, moved, ⟨sound, ?_, fun event member => ?_⟩, all, settings⟩
  · have listed := all.map Event.key
    rw [List.map_append] at listed
    exact listed.trans (holds.listed.append_left _)
  · rcases List.mem_append.mp (all.mem_iff.mp member) with given | held
    · exact known event given
    · exact holds.known event held

theorem move (holds : queue.Holds entities keys) {replacement : EventQueue σ}
    (empty : replacement.Holds entities []) :
    ∃ layout, replacement.reinsertAll queue.layout.events = .ok { replacement with layout } ∧
      Holds { replacement with layout } entities keys ∧
      layout.events.Perm queue.layout.events ∧
      replacement.layout.SameSettings layout ∧ layout.credits = replacement.layout.credits := by
  have nothing : replacement.layout.events = [] :=
    List.map_eq_nil_iff.mp empty.listed.eq_nil
  obtain ⟨layout, moved, moves, all, same⟩ :=
    empty.reinsertAll holds.known holds.sound.distinct fun _ _ => List.not_mem_nil
  rw [List.append_nil] at moves
  rw [nothing, List.append_nil] at all
  exact ⟨layout, moved, moves.perm holds.listed, all, same⟩

variable [Hook σ]

theorem accepted (holds : queue.Holds entities keys) {event : Event} {key : EventKey}
    (owner : event.key.context.Known entities) (cause : event.prevContext.Known entities)
    (fresh : event.key.uid ∉ keys.map EventKey.uid)
    (inserted : queue.insert event = .ok (.ok key, after)) :
    key.uid = event.key.uid ∧ key.context = event.key.context ∧
      after.Holds entities (key :: keys) := by
  obtain ⟨ts, layout, _, same, placed, afterLayout⟩ := insert_accepted inserted
  obtain ⟨made, placedAt, _, _, placedHolds⟩ :=
    holds.place { event with key } (by rw [same]; exact owner) cause
      (by rw [same]; exact fresh)
  rw [placedAt] at placed
  cases placed
  exact ⟨by rw [same], by rw [same], placedHolds after afterLayout⟩

theorem refused (holds : queue.Holds entities keys) {event : Event} {ended : BranchEnded}
    (inserted : queue.insert event = .ok (.error ended, after)) : after.Holds entities keys := by
  obtain ⟨⟨prepared, perturbation, hook⟩, applied, rest⟩ := bind_eq_ok inserted
  cases prepared with
  | error reason =>
      cases rest
      exact holds.of_layout rfl
  | ok shifted =>
      obtain ⟨layout, _, answered⟩ := bind_eq_ok rest
      cases answered

end Holds

end EventQueue

end EventKernel.Queue
