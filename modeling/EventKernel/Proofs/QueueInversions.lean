import EventKernel.Queue.EventQueue

set_option autoImplicit false

/-! What an operation on a queue has done when it has returned. Exploration puts off the time of an
event at most, and only accepted insertions reach the layout. -/

namespace EventKernel.Queue.EventQueue

open Exploration (Hook Perturbation)

variable {σ : Type}

theorem new_eq_ok {configuration : Configuration} {hook : σ} {queue : EventQueue σ}
    (built : EventQueue.new configuration hook = .ok (.ok queue)) :
    configuration.validate = .ok (.ok ()) ∧ Layout.new configuration = .ok queue.layout ∧
      queue = ⟨configuration, queue.layout, .new configuration.exploration, hook⟩ := by
  obtain ⟨answer, valid, rest⟩ := bind_eq_ok built
  cases answer with
  | error error => cases rest
  | ok _ =>
      obtain ⟨layout, placed, returned⟩ := bind_eq_ok rest
      cases returned
      exact ⟨valid, placed, rfl⟩

theorem configuration_of_new {configuration : Configuration} {hook : σ} {queue : EventQueue σ}
    (built : EventQueue.new configuration hook = .ok (.ok queue)) :
    queue.configuration = configuration := by
  rw [(new_eq_ok built).2.2]

variable [Hook σ]

/-- Exploration may put off the time of an event, and changes nothing else. -/
theorem prepared_event {perturbation after : Perturbation} {hook next : σ} {event prepared : Event}
    (applied : perturbation.apply hook event = .ok (.ok prepared, after, next)) :
    ∃ ts, event.key.ts.value.toNat ≤ ts.value.toNat ∧
      prepared = { event with key := { event.key with ts } } := by
  unfold Perturbation.apply at applied
  split at applied
  · cases applied
    exact ⟨event.key.ts, Nat.le_refl _, rfl⟩
  · split at applied
    · cases applied
    · split at applied
      · cases applied
      · split at applied
        · cases applied
          exact ⟨event.key.ts, Nat.le_refl _, rfl⟩
        · split at applied
          · cases applied
          · simp only at applied
            split at applied
            · cases applied
              exact ⟨event.key.ts, Nat.le_refl _, rfl⟩
            · cases applied
              refine ⟨_, ?_, rfl⟩
              unfold Timestamp.saturatingAdd
              rw [Word.toNat_saturatingAdd]
              exact Nat.le_min.mpr
                ⟨Nat.le_add_right _ _, Nat.le_pred_of_lt event.key.ts.value.toNat_lt⟩

/-- An accepted insertion answers the key under which the event is queued. -/
theorem insert_accepted {queue after : EventQueue σ} {event : Event} {key : EventKey}
    (inserted : queue.insert event = .ok (.ok key, after)) :
    ∃ ts layout, event.key.ts.value.toNat ≤ ts.value.toNat ∧ key = { event.key with ts } ∧
      queue.layout.insert { event with key } = .ok layout ∧ after.layout = layout := by
  obtain ⟨⟨prepared, perturbation, hook⟩, applied, rest⟩ := bind_eq_ok inserted
  cases prepared with
  | error ended => cases rest
  | ok shifted =>
      obtain ⟨layout, placed, answered⟩ := bind_eq_ok rest
      obtain ⟨ts, later, same⟩ := prepared_event applied
      cases answered
      refine ⟨ts, layout, later, by rw [same], ?_, ?_⟩
      · rw [same] at placed ⊢
        exact placed
      · split
        · rfl
        · rfl

theorem insert_refused {queue after : EventQueue σ} {event : Event} {ended : BranchEnded}
    (inserted : queue.insert event = .ok (.error ended, after)) : after.layout = queue.layout := by
  obtain ⟨⟨prepared, perturbation, hook⟩, _, rest⟩ := bind_eq_ok inserted
  cases prepared with
  | error reason =>
      cases rest
      rfl
  | ok shifted =>
      obtain ⟨layout, _, answered⟩ := bind_eq_ok rest
      cases answered

theorem insert_quiet {queue after : EventQueue σ} {event : Event}
    {answer : Except BranchEnded EventKey}
    (quiet : queue.perturbation.settings.enabled = false)
    (inserted : queue.insert event = .ok (answer, after)) :
    answer = .ok event.key ∧ queue.layout.insert event = .ok after.layout ∧
      after.perturbation = queue.perturbation := by
  obtain ⟨⟨prepared, perturbation, hook⟩, applied, rest⟩ := bind_eq_ok inserted
  unfold Perturbation.apply at applied
  rw [quiet, Bool.not_false, if_pos rfl] at applied
  cases applied
  obtain ⟨layout, placed, answered⟩ := bind_eq_ok rest
  cases answered
  refine ⟨rfl, placed.trans ?_, ?_⟩
  · split <;> rfl
  · split <;> rfl

omit [Hook σ]

variable {lanes : LaneQueue} {queue after : EventQueue σ} {event? : Option Event}

theorem pop_partitioned (layout : queue.layout = .partitioned lanes)
    (popped : queue.pop = .ok (event?, after)) :
    ∃ rest, lanes.pop = .ok (event?, rest) ∧
      after = { queue with layout := .partitioned rest } := by
  obtain ⟨⟨taken?, remaining⟩, taken, returned⟩ := bind_eq_ok popped
  rw [layout] at taken
  obtain ⟨⟨front?, rest⟩, done, same⟩ := map_eq_ok taken
  cases same
  cases returned
  exact ⟨rest, done, rfl⟩

theorem erase_partitioned {key : EventKey} (layout : queue.layout = .partitioned lanes)
    (erased : queue.erase key = .ok (event?, after)) :
    ∃ rest, lanes.erase key = .ok (event?, rest) ∧
      after = { queue with layout := .partitioned rest } := by
  obtain ⟨⟨taken?, remaining⟩, taken, returned⟩ := bind_eq_ok erased
  rw [layout] at taken
  obtain ⟨⟨event?, rest⟩, done, same⟩ := map_eq_ok taken
  cases same
  cases returned
  exact ⟨rest, done, rfl⟩

end EventKernel.Queue.EventQueue
