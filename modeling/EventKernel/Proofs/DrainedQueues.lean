import EventKernel.Proofs.CancelledBarriers
import EventKernel.Proofs.PeekedQueues
import EventKernel.Proofs.RefilledQueues

set_option autoImplicit false

/-! Queues that were drained. Nothing is held any more, no message is listed, and the settings are
those of the configuration. So a drained queue is a new queue that holds the credit of events that
are gone: entities may send on the strength of messages which nobody will ever receive. Nothing
else of its past is left. Without credit it is as good as new. -/

namespace EventKernel.Queue

open Exploration (Hook)

namespace LaneQueue

variable {queue fresh : LaneQueue} {entities : Nat} {astray : List EventKey}

def crediting (queue : LaneQueue) (credits : Option CreditTable) : LaneQueue :=
  { queue with credits }

private theorem Recorded.equipped (recorded : queue.Recorded entities astray)
    (freshSound : fresh.Sound entities) (settings : fresh.SameSettings queue) :
    queue.Equipped entities where
  laneCount := recorded.laneCount
  indexCount := recorded.indexCount.trans recorded.laneCount
  latencies := settings.latency ▸ freshSound.latencies
  credited := recorded.credited

theorem Sound.crediting (sound : fresh.Sound entities) (settings : fresh.SameSettings queue)
    (covers : ∀ table, queue.credits = some table → table.Covers entities) :
    (fresh.crediting queue.credits).Sound entities ∧
      (fresh.crediting queue.credits).SameSettings queue :=
  ⟨sound.recount queue.credits fresh.deadlocks fresh.conversions settings.counts covers,
    settings.latency, settings.boundary, rfl⟩

private theorem Recorded.drained_twins (recorded : queue.Recorded entities astray)
    (freshSound : fresh.Sound entities) (unfilled : fresh.events = [])
    (settings : fresh.SameSettings queue) :
    ∃ lead, (fresh.crediting queue.credits).Twins lead queue.drain.2 := by
  obtain ⟨drainedSound, noEvents⟩ := (recorded.equipped freshSound settings).drain
  obtain ⟨creditingSound, creditingSettings⟩ := freshSound.crediting settings recorded.credited
  refine ⟨_, creditingSound.twins_of_perm drainedSound
    ⟨creditingSettings.latency, creditingSettings.boundary, rfl⟩ rfl ?_⟩
  change fresh.events.Perm queue.drain.2.events
  rw [unfilled, noEvents]

end LaneQueue

namespace Layout

variable {layout fresh : Layout} {entities : Nat} {astray : List EventKey}

def crediting : Layout → Option CreditTable → Layout
  | single list, _ => single list
  | partitioned lanes, credits => partitioned (lanes.crediting credits)

def conversions : Layout → Nat
  | single _ => 0
  | partitioned lanes => lanes.conversions

private theorem drain_credits (layout : Layout) : layout.drain.2.credits = layout.credits := by
  cases layout with
  | single list => rfl
  | partitioned lanes => rfl

private theorem Creditless.drain (creditless : layout.Creditless) : layout.drain.2.Creditless := by
  cases layout with
  | single list => trivial
  | partitioned lanes => exact creditless

private theorem SameSettings.creditless (settings : fresh.SameSettings layout)
    (plain : fresh.counts = false) : layout.Creditless := by
  cases settings with
  | single => trivial
  | partitioned settings =>
      have uncounted := settings.counts.trans plain
      intro table credited
      rw [credited] at uncounted
      cases uncounted

private theorem crediting_own (layout : Layout) : layout.crediting layout.credits = layout := by
  cases layout with
  | single list => rfl
  | partitioned lanes => rfl

private theorem Recorded.drained (recorded : layout.Recorded entities astray)
    (freshSound : fresh.Sound entities) (unfilled : fresh.events = [])
    (settings : fresh.SameSettings layout) :
    layout.drain.2.Sound entities ∧
      ∃ lead, (fresh.crediting layout.credits).Twins lead layout.drain.2 := by
  cases settings with
  | single list other =>
      rw [events_single] at unfilled
      refine ⟨⟨BarrierList.empty_sound _, List.nodup_nil⟩, 0, .single ⟨freshSound.1,
        BarrierList.empty_sound _, ?_⟩ freshSound.2⟩
      rw [unfilled]
      exact .nil
  | @partitioned lanes others settings =>
      have recorded : others.Recorded entities astray := recorded
      obtain ⟨lead, twins⟩ := recorded.drained_twins freshSound unfilled settings
      exact ⟨(recorded.equipped freshSound settings).drain.1, lead, .partitioned twins⟩

private theorem Sound.crediting_eq (sound : layout.Sound entities)
    (freshSound : fresh.Sound entities)
    (blank : fresh.Creditless) (settings : fresh.SameSettings layout)
    (creditless : layout.Creditless) : fresh.crediting layout.credits = fresh := by
  have same := sound.forgotten_credits freshSound blank settings
  rw [creditless.forget_eq] at same
  rw [same, crediting_own]

/-- Layouts that are twins of twins have counted as much since. -/
theorem Twins.counts_since {first second origin other : Layout} {lead : LaneQueue.Lead}
    (twins : first.Twins lead second) (origins : origin.Twins lead other)
    (kind : origin.SameSettings first) :
    (first.deadlocks : Int) - origin.deadlocks = second.deadlocks - other.deadlocks ∧
      (first.conversions : Int) - origin.conversions =
        second.conversions - other.conversions := by
  cases kind with
  | single =>
      cases twins with
      | single =>
          cases origins with
          | single => exact ⟨rfl, rfl⟩
  | @partitioned before lanes =>
      cases twins with
      | @partitioned _ others later =>
          cases origins with
          | @partitioned _ otherBefore earlier =>
              have met := later.deadlocks
              have moved := later.conversions
              have metBefore := earlier.deadlocks
              have movedBefore := earlier.conversions
              change (lanes.deadlocks : Int) - before.deadlocks =
                  others.deadlocks - otherBefore.deadlocks ∧
                (lanes.conversions : Int) - before.conversions =
                  others.conversions - otherBefore.conversions
              omega

end Layout

namespace EventQueue

variable {σ : Type} {queue after start fresh first second origin other : EventQueue σ}
  {entities : Nat} {astray : List EventKey}

def crediting (queue : EventQueue σ) (credits : Option CreditTable) : EventQueue σ :=
  { queue with layout := queue.layout.crediting credits }

/-- What can be read off a queue between operations, where deadlocks and conversions are counted
from an earlier state. -/
structure Growth where
  size : Nat
  isEmpty : Bool
  deadlocks : Int
  conversions : Int
deriving DecidableEq, Repr

def growth (origin queue : EventQueue σ) : Growth where
  size := queue.size
  isEmpty := queue.isEmpty
  deadlocks := queue.deadlocks - origin.deadlocks
  conversions := queue.layout.conversions - origin.layout.conversions

private theorem growth_crediting (fresh queue : EventQueue σ) (credits : Option CreditTable) :
    growth (fresh.crediting credits) queue = growth fresh queue := by
  obtain ⟨_, layout, _, _⟩ := fresh
  cases layout with
  | single list => rfl
  | partitioned lanes => rfl

theorem growth_eq_of_twins {lead : LaneQueue.Lead} (twins : first.layout.Twins lead second.layout)
    (origins : origin.layout.Twins lead other.layout)
    (kind : origin.layout.SameSettings first.layout) :
    growth origin first = growth other second := by
  obtain ⟨met, moved⟩ := Layout.Twins.counts_since twins origins kind
  have size : second.size = first.size := Layout.Twins.size_eq twins
  have isEmpty : second.isEmpty = first.isEmpty := Layout.Twins.isEmpty_eq twins
  unfold growth
  rw [size, isEmpty]
  unfold EventQueue.deadlocks
  rw [met, moved]

private theorem Attains.fits [Hook σ] {configuration : Configuration} {hook : σ}
    (built : EventQueue.new configuration hook = .ok (.ok start))
    (attained : start.Attains configuration.entities astray queue) :
    queue.Fits configuration.entities ∧ queue.configuration = configuration := by
  induction attained with
  | start => exact ⟨.of_new built, configuration_of_new built⟩
  | step operation _ fresh _ performed ih =>
      obtain ⟨same, settings⟩ := perform_settings performed
      exact ⟨ih.1.of_settings same settings, same.trans ih.2⟩

private theorem Twins.growths_agree [Hook σ] {lead : LaneQueue.Lead}
    (twins : first.Twins lead second) {operations : List Operation}
    (numbered : Numbered EventQueue.perform keys first operations) :
    TracesAgree (trace EventQueue.perform (growth first) first operations)
      (trace EventQueue.perform (growth second) second operations) := by
  have performed (left right : EventQueue σ) (operation : Operation)
      (relates : left.Twins lead right ∧ first.layout.SameSettings left.layout)
      (fresh : operation.Fresh left.keys) :
      Alike (fun here there => here.1.Agrees there.1 ∧ here.2.Twins lead there.2 ∧
          first.layout.SameSettings here.2.layout)
        (left.perform operation) (right.perform operation) := by
    refine (relates.1.perform fresh).imp ?_
    rintro ⟨answer, after⟩ ⟨_, last⟩ performed _ ⟨agrees, kept⟩
    exact ⟨agrees, kept, relates.2.trans (perform_settings performed).2⟩
  exact Queue.traces_agree performed
    (fun _ _ relates => growth_eq_of_twins relates.1.layouts twins.layouts relates.2)
    ⟨twins, .refl first.layout⟩ numbered

/-- A drained queue, in whatever state it was, is told from a new queue of its configuration by the
credit it has kept, and by nothing else: every further operation is answered as by a new queue with
that credit, and counts as many deadlocks and conversions. Where no credit is held, as without the
credit rule, this is the new queue itself. -/
theorem drained_keeps_credit_only [Hook σ] {configuration : Configuration} {hook : σ}
    (quiet : configuration.exploration.enabled = false)
    (built : EventQueue.new configuration hook = .ok (.ok start))
    (attained : start.Attains configuration.entities astray queue) (otherHook : σ) :
    ∃ fresh, EventQueue.new configuration otherHook = .ok (.ok fresh) ∧
      growth queue.drain.2 queue.drain.2 =
        growth fresh (fresh.crediting queue.layout.credits) ∧
      (∀ operations, Numbered perform keys queue.drain.2 operations →
        TracesAgree (trace perform (growth queue.drain.2) queue.drain.2 operations)
          (trace perform (growth fresh) (fresh.crediting queue.layout.credits) operations)) ∧
      (queue.Creditless ∨ configuration.strategies.localListsV2 = false →
        fresh.crediting queue.layout.credits = fresh) := by
  have recorded := attained.recorded quiet built
  obtain ⟨fits, same⟩ := attained.fits built
  obtain ⟨fresh, renewed⟩ := fits.exists_new otherHook
  rw [same] at renewed
  obtain ⟨valid, placed, _⟩ := new_eq_ok renewed
  obtain ⟨layout, made, settings⟩ := fits.built
  rw [same] at made
  cases placed.symm.trans made
  have accepted := Configuration.accepted_of_validate valid
  obtain ⟨_, made, freshSound, unfilled, rule⟩ := Layout.new_sound accepted
  cases placed.symm.trans made
  obtain ⟨sound, lead, layouts⟩ := recorded.layout.drained freshSound unfilled settings
  have unexplored := Unexplored.of_new quiet renewed
  have twins : (fresh.crediting queue.layout.credits).Twins lead queue.drain.2 :=
    ⟨same.trans (configuration_of_new renewed).symm, ⟨unexplored.quiet, unexplored.unexplored⟩,
      ⟨recorded.quiet, recorded.unexplored⟩, layouts⟩
  refine ⟨fresh, renewed, ?_, fun operations numbered => ?_, fun uncredited => ?_⟩
  · rw [← growth_crediting fresh _ queue.layout.credits]
    exact growth_eq_of_twins twins.symm.layouts twins.symm.layouts (.refl _)
  · have agree := twins.symm.growths_agree numbered
    rw [funext fun later => growth_crediting fresh later queue.layout.credits] at agree
    exact agree
  · have creditless : queue.layout.Creditless :=
      uncredited.elim id fun plain => settings.creditless (rule.trans plain)
    have kept := sound.crediting_eq freshSound (Layout.new_creditless accepted placed)
      (settings.trans queue.layout.drain_settings) creditless.drain
    rw [queue.layout.drain_credits] at kept
    unfold crediting
    rw [kept]

def arrivedMessage : Event := ⟨⟨⟨10⟩, ⟨4⟩, .node ⟨0⟩⟩, .outgoing, .node ⟨1⟩, none⟩

def furtherOperations : List Operation :=
  [.insert ⟨⟨⟨9⟩, ⟨5⟩, .node ⟨2⟩⟩, .outgoing, .node ⟨0⟩, none⟩,
    .insert ⟨⟨⟨10⟩, ⟨6⟩, .node ⟨1⟩⟩, .undefined, .node ⟨1⟩, none⟩, .pop, .pop]

/-- The credit of a message that nobody received lets an entity send, which a new queue would hold
back. -/
theorem drained_keeps_credit_only_arrived :
    ∃ (start queue fresh : EventQueue Exploration.Silent),
      EventQueue.new LaneQueue.waitingConfiguration .silent = .ok (.ok start) ∧
      start.Attains 3 [] queue ∧ queue.keys = [arrivedMessage.key] ∧
      EventQueue.new LaneQueue.waitingConfiguration .silent = .ok (.ok fresh) ∧
      TracesAgree
        (trace perform (growth queue.drain.2) queue.drain.2 furtherOperations)
        (trace perform (growth fresh) (fresh.crediting queue.layout.credits)
          furtherOperations) ∧
      (trace perform (growth queue.drain.2) queue.drain.2 furtherOperations).1.map
        (fun read => read.2.deadlocks) = [0, 0, 0, 0] ∧
      (trace perform (growth fresh) fresh furtherOperations).1.map
        (fun read => read.2.deadlocks) = [0, 0, 0, 1] := by
  obtain ⟨start, built⟩ : ∃ start : EventQueue Exploration.Silent,
      EventQueue.new LaneQueue.waitingConfiguration Exploration.Silent.silent =
        .ok (.ok start) := ⟨_, rfl⟩
  obtain ⟨entered, inserted⟩ : ∃ entered, start.perform (.insert arrivedMessage) =
      .ok (.inserted (.ok arrivedMessage.key), entered) := by
    cases built
    exact ⟨_, rfl⟩
  obtain ⟨queue, looked⟩ : ∃ queue, entered.perform .next =
      .ok (.next (some arrivedMessage.key), queue) := by
    cases built
    cases inserted
    exact ⟨_, rfl⟩
  have attained : start.Attains 3 [] queue :=
    .step .next (.step (.insert arrivedMessage) .start (by cases built; decide)
      ⟨by decide, by decide⟩ inserted) trivial trivial looked
  obtain ⟨fresh, renewed, _, agree, _⟩ :=
    drained_keeps_credit_only rfl built attained Exploration.Silent.silent
  refine ⟨start, queue, fresh, built, attained, ?_, renewed, agree furtherOperations ?_, ?_, ?_⟩
  all_goals
    cases built
    cases inserted
    cases looked
  · rfl
  · decide
  · rfl
  · cases renewed
    rfl

end EventQueue

end EventKernel.Queue
