import EventKernel.Proofs.HeldKeys
import EventKernel.Proofs.LaneSettings
import EventKernel.Proofs.QueueContents
import EventKernel.Proofs.RefilledLanes

set_option autoImplicit false

/-! Queues whose events were moved into a new queue of the same configuration. Whatever was done to
a queue, it still has the settings of its configuration. So a new queue that has taken over the
events is a twin of the old one with its credit forgotten: of all that a queue knows, only credit
and counts are not told by the events it holds. -/

namespace EventKernel.Queue

open Exploration (Hook)

namespace Layout

def forgetCredit : Layout → Layout
  | single list => single list
  | partitioned lanes => partitioned lanes.forgetCredit

def Creditless : Layout → Prop
  | single _ => True
  | partitioned lanes => lanes.Creditless

variable {layout after fresh first second : Layout} {entities : Nat}

private theorem forgetCredit_settings (layout : Layout) :
    layout.SameSettings layout.forgetCredit := by
  cases layout with
  | single list => exact .single list list
  | partitioned lanes => exact .partitioned lanes.forgetCredit_settings

theorem forgetCredit_events (layout : Layout) : layout.forgetCredit.events = layout.events := by
  cases layout with
  | single list => rfl
  | partitioned lanes => rfl

theorem Creditless.forget_eq (creditless : layout.Creditless) : layout.forgetCredit = layout := by
  cases layout with
  | single list => rfl
  | partitioned lanes => exact congrArg partitioned (LaneQueue.Creditless.forget_eq creditless)

theorem new_creditless {configuration : Configuration} (accepted : configuration.Accepted)
    (built : new configuration = .ok fresh) : fresh.Creditless := by
  unfold new at built
  split at built
  · obtain ⟨lanes, made, rfl⟩ := map_eq_ok built
    exact LaneQueue.new_creditless accepted made
  · cases built
    trivial

namespace Sound

theorem forgetCredit (sound : layout.Sound entities) : layout.forgetCredit.Sound entities := by
  cases layout with
  | single list => exact sound
  | partitioned lanes => exact LaneQueue.Sound.forgetCredit sound

theorem forgotten_credits (sound : layout.Sound entities) (freshSound : fresh.Sound entities)
    (creditless : fresh.Creditless) (settings : fresh.SameSettings layout) :
    layout.forgetCredit.credits = fresh.credits := by
  cases settings with
  | single => rfl
  | partitioned settings =>
      exact LaneQueue.Sound.forgotten_credits sound freshSound creditless settings

/-- Layouts of the same settings and the same credit are twins if they hold the same events. -/
theorem twins_of_perm (sound : first.Sound entities) (others : second.Sound entities)
    (settings : first.SameSettings second) (credits : second.credits = first.credits)
    (same : first.events.Perm second.events) : ∃ lead, first.Twins lead second := by
  cases settings with
  | single list other =>
      rw [events_single, events_single] at same
      exact ⟨0, .single ⟨sound.1, others.1, same⟩ sound.2⟩
  | partitioned settings =>
      exact ⟨_, .partitioned (LaneQueue.Sound.twins_of_perm sound others settings credits same)⟩

end Sound

namespace Twins

variable {lead : LaneQueue.Lead} (twins : first.Twins lead second)

include twins

private theorem settings : first.SameSettings second := by
  cases twins with
  | single => exact .single _ _
  | partitioned queues => exact .partitioned (LaneQueue.Twins.settings queues)

theorem events : first.events.Perm second.events := by
  cases twins with
  | single lists =>
      rw [events_single, events_single]
      exact lists.events
  | partitioned queues => exact LaneQueue.Twins.events queues

private theorem symm : second.Twins (-lead) first := by
  cases twins with
  | single lists distinct =>
      exact .single (BarrierList.Twins.symm lists)
        (((lists.events.map fun event => event.key.uid).nodup_iff).mp distinct)
  | partitioned queues => exact .partitioned (LaneQueue.Twins.symm queues)

end Twins

end Layout

namespace EventQueue

variable {σ : Type} {queue after fresh first second : EventQueue σ} {entities : Nat}
  {keys : List EventKey}

structure Fits (queue : EventQueue σ) (entities : Nat) : Prop where
  covers : queue.configuration.entities = entities
  valid : queue.configuration.validate = .ok (.ok ())
  built : ∃ fresh, Layout.new queue.configuration = .ok fresh ∧ fresh.SameSettings queue.layout

structure Refills (fresh queue : EventQueue σ) : Prop where
  configuration : queue.configuration = fresh.configuration
  settings : fresh.layout.SameSettings queue.layout
  credits : queue.layout.credits = fresh.layout.credits

def forgetCredit (queue : EventQueue σ) : EventQueue σ :=
  { queue with layout := queue.layout.forgetCredit }

def Creditless (queue : EventQueue σ) : Prop := queue.layout.Creditless

theorem Creditless.forget_eq (creditless : queue.Creditless) : queue.forgetCredit = queue := by
  unfold forgetCredit
  rw [Layout.Creditless.forget_eq creditless]

namespace Fits

theorem of_new {configuration : Configuration} {hook : σ}
    (built : EventQueue.new configuration hook = .ok (.ok queue)) :
    queue.Fits configuration.entities := by
  have same := configuration_of_new built
  obtain ⟨valid, placed, _⟩ := new_eq_ok built
  exact ⟨congrArg Configuration.entities same, same ▸ valid, queue.layout,
    same ▸ placed, .refl queue.layout⟩

variable (fits : queue.Fits entities)

include fits

theorem of_settings (configuration : after.configuration = queue.configuration)
    (settings : queue.layout.SameSettings after.layout) : after.Fits entities := by
  obtain ⟨fresh, built, same⟩ := fits.built
  refine ⟨?_, ?_, fresh, ?_, same.trans settings⟩
  · rw [configuration]
    exact fits.covers
  · rw [configuration]
    exact fits.valid
  · rw [configuration]
    exact built

theorem insert [Hook σ] (unexplored : queue.Unexplored) {event : Event}
    {answer : Except BranchEnded EventKey} (inserted : queue.insert event = .ok (answer, after)) :
    after.Fits entities := by
  rw [unexplored.insert_eq] at inserted
  obtain ⟨layout, placed, same⟩ := map_eq_ok inserted
  cases same
  exact fits.of_settings rfl (Layout.insert_settings placed).1

theorem pop {event? : Option Event} (popped : queue.pop = .ok (event?, after)) :
    after.Fits entities := by
  obtain ⟨⟨_, layout⟩, pops, same⟩ := bind_eq_ok popped
  cases same
  exact fits.of_settings rfl (Layout.pop_settings pops)

theorem erase {key : EventKey} {event? : Option Event}
    (erased : queue.erase key = .ok (event?, after)) : after.Fits entities := by
  obtain ⟨⟨_, layout⟩, erases, same⟩ := bind_eq_ok erased
  cases same
  exact fits.of_settings rfl (Layout.erase_settings erases)

theorem drain : queue.drain.2.Fits entities :=
  fits.of_settings rfl queue.layout.drain_settings

theorem exists_new (hook : σ) :
    ∃ fresh, EventQueue.new queue.configuration hook = .ok (.ok fresh) := by
  obtain ⟨layout, built, _⟩ := fits.built
  refine ⟨⟨queue.configuration, layout, .new queue.configuration.exploration, hook⟩, ?_⟩
  unfold EventQueue.new
  rw [fits.valid]
  simp only [bind, Except.bind, built]
  rfl

theorem refills (sound : queue.layout.Sound entities) {hook : σ}
    (built : EventQueue.new queue.configuration hook = .ok (.ok fresh)) :
    fresh.Refills queue.forgetCredit := by
  obtain ⟨layout, made, settings⟩ := fits.built
  obtain ⟨_, placed, _⟩ := new_eq_ok built
  cases placed.symm.trans made
  have accepted := Configuration.accepted_of_validate fits.valid
  obtain ⟨_, same, freshSound, _⟩ := Layout.new_sound accepted
  cases placed.symm.trans same
  rw [fits.covers] at freshSound
  exact ⟨(configuration_of_new built).symm,
    settings.trans queue.layout.forgetCredit_settings,
    sound.forgotten_credits freshSound (Layout.new_creditless accepted placed) settings⟩

end Fits

namespace Refills

theorem twins (former : fresh.Refills first) (latter : fresh.Refills second)
    (left : first.Unexplored) (right : second.Unexplored) (sound : first.layout.Sound entities)
    (others : second.layout.Sound entities)
    (same : first.layout.events.Perm second.layout.events) : ∃ lead, first.Twins lead second := by
  obtain ⟨lead, layouts⟩ := sound.twins_of_perm others
    (former.settings.symm.trans latter.settings) (latter.credits.trans former.credits.symm) same
  exact ⟨lead, latter.configuration.trans former.configuration.symm, left, right, layouts⟩

end Refills

namespace Twins

variable {lead : LaneQueue.Lead} (twins : first.Twins lead second)

include twins

theorem symm : second.Twins (-lead) first :=
  ⟨twins.configuration.symm, twins.right, twins.left, Layout.Twins.symm twins.layouts⟩

theorem fits (fits : first.Fits entities) : second.Fits entities :=
  fits.of_settings twins.configuration (Layout.Twins.settings twins.layouts)

theorem drain : first.drain.2.Twins lead second.drain.2 :=
  twins.relayout (Layout.Twins.drain twins.layouts).2

end Twins

end EventQueue

end EventKernel.Queue
