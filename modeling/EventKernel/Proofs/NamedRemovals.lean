import EventKernel.Proofs.DrainedQueues
import EventKernel.Proofs.ListPolicyIndependence
import EventKernel.Proofs.RemovalSearch

set_option autoImplicit false

/-! Removals by any key, from a queue of any configuration, explored or not, in any state that
operations can reach. A removal takes the event that has exactly its key, or an event that it
mistakes for it, or nothing; everything else stays. What is left is what a new queue would hold that
was given the remaining events and their credit, and from then on it is told from such a queue by
nothing but the order in which draining lists the events. Only a waiting message that is taken by
mistake leaves more behind: its entry in the index. -/

namespace EventKernel.Queue

open Exploration (Hook Perturbation)

private theorem BarrierList.Twins.perform {first second : BarrierList} (twins : first.Twins second)
    (distinct : (first.events.map fun event => event.key.uid).Nodup) (operation : Operation) :
    Alike (fun left right => left.1.Agrees right.1 ∧ left.2.Twins right.2)
      (first.perform operation) (second.perform operation) := by
  cases operation with
  | insert event => exact ⟨.same _, Hosts.insert twins event⟩
  | reinsert event => exact ⟨.same _, Hosts.insert twins event⟩
  | next =>
      unfold BarrierList.perform
      rw [twins.next?_eq distinct]
      exact ⟨.same _, twins⟩
  | pop =>
      obtain ⟨event?, left, right, popped, otherPopped, kept, _⟩ := twins.pop distinct
      unfold BarrierList.perform
      simp only [popped, otherPopped]
      exact ⟨.same _, kept⟩
  | erase key =>
      have unhosted : ∀ guest ∈ ([] : List Event), guest.key.uid ≠ key.uid := List.forall_mem_nil _
      obtain ⟨event?, left, right, erased, otherErased, kept, _⟩ :=
        Hosts.erase twins distinct unhosted
      unfold BarrierList.perform
      simp only [erased, otherErased]
      exact ⟨.same _, kept⟩
  | drain => exact ⟨.drained twins.events, drained first second⟩

namespace Layout

variable {layout after fresh first second : Layout} {entities : Nat} {lead : LaneQueue.Lead}

private theorem Twins.perform (twins : first.Twins lead second) {operation : Operation}
    (fresh : operation.Fresh (first.events.map Event.key)) :
    Alike (fun left right => left.1.Agrees right.1 ∧ left.2.Twins lead right.2)
      (first.perform operation) (second.perform operation) := by
  cases twins with
  | single lists distinct =>
      rw [events_single] at fresh
      refine (BarrierList.Twins.perform lists distinct operation).bind ?_
      intro left right here _ kept
      have apart := BarrierList.Sound.perform_distinct lists.left distinct fresh here
      exact ⟨kept.1, .single kept.2 apart⟩
  | partitioned queues =>
      exact (LaneQueue.Twins.perform queues fresh).map fun _ _ kept =>
        ⟨kept.1, .partitioned kept.2⟩

private theorem Sound.crediting (sound : fresh.Sound entities) (others : layout.Sound entities)
    (settings : fresh.SameSettings layout) :
    (fresh.crediting layout.credits).Sound entities ∧
      (fresh.crediting layout.credits).SameSettings layout ∧
      (fresh.crediting layout.credits).credits = layout.credits ∧
      (fresh.crediting layout.credits).events = fresh.events := by
  cases settings with
  | single list other => exact ⟨sound, .single list other, rfl, rfl⟩
  | @partitioned lanes held settings =>
      have kept : held.Sound entities := others
      obtain ⟨credited, same⟩ := LaneQueue.Sound.crediting sound settings kept.credited
      exact ⟨credited, .partitioned same, rfl, rfl⟩

end Layout

namespace EventQueue

variable {σ : Type} {queue after start first second origin other : EventQueue σ} {entities : Nat}
  {astray : List EventKey} {lead : LaneQueue.Lead}

structure Abreast (lead : LaneQueue.Lead) (first second : EventQueue σ) : Prop where
  elsewhere : second = { first with layout := second.layout }
  layouts : first.layout.Twins lead second.layout

/-- Operations whose answers do not depend on how a layout is arranged. An insertion under
exploration may show the arrangement to the engine. -/
def Discreet (queue : EventQueue σ) (operation : Operation) : Prop :=
  queue.reports = false ∨ operation.isInsertion = false

namespace Abreast

private theorem insert [Hook σ] (abreast : Abreast lead first second)
    (silent : first.reports = false) {event : Event}
    (fresh : ∀ key ∈ first.keys, key.uid ≠ event.key.uid) :
    Alike (fun left right => left.1 = right.1 ∧ Abreast lead left.2 right.2)
      (first.insert event) (second.insert event) := by
  obtain ⟨elsewhere, layouts⟩ := abreast
  rw [elsewhere]
  unfold EventQueue.insert
  refine (Alike.of_eq rfl).bind ?_
  rintro ⟨prepared, perturbation, hook⟩ _ applied _ rfl
  cases prepared with
  | error ended => exact ⟨rfl, rfl, layouts⟩
  | ok shifted =>
      obtain ⟨ts, _, same⟩ := prepared_event applied
      have apart : ∀ other ∈ first.layout.events, other.key.uid ≠ shifted.key.uid := by
        rw [same]
        exact fun other member => fresh other.key (List.mem_map_of_mem member)
      have unreported (layout : Layout) :
          EventQueue.reports { first with layout, perturbation, hook } = false := silent
      refine (layouts.insert shifted apart).bind fun left right _ _ kept => ?_
      simp only [unreported]
      exact ⟨rfl, rfl, kept⟩

private theorem perform [Hook σ] (abreast : Abreast lead first second) {operation : Operation}
    (discreet : first.Discreet operation) (fresh : operation.Fresh first.keys) :
    Alike (fun left right => left.1.Agrees right.1 ∧ Abreast lead left.2 right.2)
      (first.perform operation) (second.perform operation) := by
  cases plain : operation.isInsertion with
  | false =>
      rw [perform_frame first plain, perform_frame second plain]
      refine (abreast.layouts.perform fresh).map fun left right kept => ⟨kept.1, ?_, kept.2⟩
      rw [abreast.elsewhere]
  | true =>
      cases operation with
      | reinsert | next | pop | erase | drain => cases plain
      | insert event =>
          have silent := discreet.resolve_right (by rw [plain]; exact Bool.noConfusion)
          refine (abreast.insert silent fresh).bind ?_
          rintro ⟨result, left⟩ ⟨_, right⟩ _ _ ⟨rfl, kept⟩
          exact ⟨.same _, kept⟩

private theorem growths_agree [Hook σ] (abreast : Abreast lead first second)
    {operations : List Operation} (discreet : ∀ operation ∈ operations, first.Discreet operation)
    (numbered : Numbered EventQueue.perform keys first operations) :
    TracesAgree (trace EventQueue.perform (growth first) first operations)
      (trace EventQueue.perform (growth second) second operations) := by
  have performed (left right : EventQueue σ) (operation : Operation)
      (allowed : first.Discreet operation)
      (relates : left.Abreast lead right ∧ left.configuration = first.configuration ∧
        first.layout.SameSettings left.layout) (fresh : operation.Fresh left.keys) :
      Alike (fun here there => here.1.Agrees there.1 ∧ here.2.Abreast lead there.2 ∧
          here.2.configuration = first.configuration ∧
          first.layout.SameSettings here.2.layout)
        (left.perform operation) (right.perform operation) := by
    have silent : left.Discreet operation := by
      unfold Discreet EventQueue.reports
      rw [relates.2.1]
      exact allowed
    refine (relates.1.perform silent fresh).imp ?_
    rintro ⟨answer, after⟩ ⟨_, last⟩ performed _ ⟨agrees, kept⟩
    obtain ⟨same, settings⟩ := perform_settings performed
    exact ⟨agrees, kept, same.trans relates.2.1, relates.2.2.trans settings⟩
  exact Queue.traces_agree_among first.Discreet performed
    (fun _ _ relates => growth_eq_of_twins relates.1.layouts abreast.layouts relates.2.2)
    ⟨abreast, rfl, .refl first.layout⟩ discreet numbered

end Abreast

/-- The states that a queue can come to, each with the keys of the waiting messages that were taken
under another key. Serial numbers of events held are never used again; apart from that, events may
have any kind and any contexts, and removals may ask for any key. -/
inductive Strands [Hook σ] (start : EventQueue σ) : List EventKey → EventQueue σ → Prop
  | start : Strands start [] start
  | performed {astray : List EventKey} {queue after : EventQueue σ} {answer : Answer}
      (operation : Operation) (earlier : Strands start astray queue)
      (fresh : operation.Fresh queue.keys)
      (done : queue.perform operation = .ok (answer, after)) :
      Strands start (queue.layout.strandedBy operation answer ++ astray) after
  | described {astray : List EventKey} {queue : EventQueue σ}
      (earlier : Strands start astray queue) : Strands start astray queue.describeConcrete.2

/-- The same queue, in a new layout with the same credit into which all events were put. -/
def rebuilt (queue : EventQueue σ) : Except Fault (EventQueue σ) := do
  let blank ← Layout.new queue.configuration
  reinsertAll { queue with layout := blank.crediting queue.layout.credits } queue.layout.events

private theorem strandedBy_insert (layout : Layout) (event : Event) (answer : Answer) :
    layout.strandedBy (.insert event) answer = [] := by
  cases layout with
  | single | partitioned => rfl

private theorem perform_tracked [Hook σ] (tracked : queue.layout.Tracked entities astray)
    {operation : Operation} (fresh : operation.Fresh queue.keys) {answer : Answer}
    (performed : queue.perform operation = .ok (answer, after)) :
    after.layout.Tracked entities (queue.layout.strandedBy operation answer ++ astray) := by
  cases plain : operation.isInsertion with
  | false =>
      rw [perform_frame queue plain] at performed
      obtain ⟨⟨_, layout⟩, done, same⟩ := map_eq_ok performed
      cases same
      exact tracked.perform fresh done
  | true =>
      cases operation with
      | reinsert | next | pop | erase | drain => cases plain
      | insert event =>
          obtain ⟨⟨result, last⟩, inserted, same⟩ := bind_eq_ok performed
          cases same
          rw [strandedBy_insert, List.nil_append]
          cases result with
          | error ended =>
              rw [insert_refused inserted]
              exact tracked
          | ok key =>
              obtain ⟨ts, layout, _, same, placed, rfl⟩ := insert_accepted inserted
              have renamed : (Operation.insert { event with key }).Fresh
                  (queue.layout.events.map Event.key) :=
                fun other member => by rw [same]; exact fresh other member
              have kept := tracked.perform renamed (Layout.perform_insert placed)
              rw [strandedBy_insert, List.nil_append] at kept
              exact kept

private theorem Strands.tracked [Hook σ] {configuration : Configuration} {hook : σ}
    (built : EventQueue.new configuration hook = .ok (.ok start))
    (strands : start.Strands astray queue) :
    queue.layout.Tracked configuration.entities astray ∧ queue.Fits configuration.entities ∧
      queue.configuration = configuration := by
  induction strands with
  | start =>
      obtain ⟨valid, placed, _⟩ := new_eq_ok built
      exact ⟨Layout.new_tracked (Configuration.accepted_of_validate valid) placed, .of_new built,
        configuration_of_new built⟩
  | performed operation _ fresh done ih =>
      obtain ⟨tracked, fits, same⟩ := ih
      obtain ⟨kept, settings⟩ := perform_settings done
      exact ⟨perform_tracked tracked fresh done, fits.of_settings kept settings, kept.trans same⟩
  | described _ ih =>
      obtain ⟨tracked, fits, same⟩ := ih
      exact ⟨tracked, ⟨fits.covers, fits.valid, fits.built⟩, same⟩

private theorem Fits.counts_eq (fits : queue.Fits entities) :
    queue.layout.counts = queue.configuration.strategies.localListsV2 := by
  obtain ⟨blank, made, settings⟩ := fits.built
  obtain ⟨_, same, _, _, counts⟩ := Layout.new_sound (Configuration.accepted_of_validate fits.valid)
  cases made.symm.trans same
  exact settings.counts_eq.trans counts

private theorem Strands.eq_nil [Hook σ] {configuration : Configuration} {hook : σ}
    (built : EventQueue.new configuration hook = .ok (.ok start))
    (strands : start.Strands astray queue)
    (plain : configuration.strategies.localListsV2 = false) : astray = [] := by
  induction strands with
  | start => rfl
  | performed operation earlier _ _ ih =>
      obtain ⟨_, fits, same⟩ := earlier.tracked built
      rw [ih, Layout.strandedBy_of_uncounted (fits.counts_eq.trans (same ▸ plain))]
      rfl
  | described _ ih => exact ih

/-- A queue whose layout is as it should be is told from the one that is built of its events by
nothing but the order in which these are listed. -/
theorem Fits.rebuilt_abreast (fits : queue.Fits entities) (sound : queue.layout.Sound entities)
    (known : ∀ event ∈ queue.layout.events, queue.layout.Addressed entities event) :
    ∃ other lead, queue.rebuilt = .ok other ∧ queue.Abreast lead other := by
  obtain ⟨blank, made, settings⟩ := fits.built
  have accepted := Configuration.accepted_of_validate fits.valid
  obtain ⟨_, same, blankSound, noEvents, _⟩ := Layout.new_sound accepted
  cases made.symm.trans same
  rw [fits.covers] at blankSound
  obtain ⟨creditedSound, creditedSettings, credits, nothing⟩ := blankSound.crediting sound settings
  rw [noEvents] at nothing
  have addressed : ∀ event ∈ queue.layout.events,
      (blank.crediting queue.layout.credits).Addressed entities event := fun event member =>
    ⟨(known event member).1, fun counting =>
      (known event member).2 (creditedSettings.counts_eq.trans counting)⟩
  obtain ⟨fresh, unfilled⟩ : ∃ fresh : EventQueue σ,
      fresh = { queue with layout := blank.crediting queue.layout.credits } := ⟨_, rfl⟩
  have same : fresh.layout = blank.crediting queue.layout.credits := by rw [unfilled]
  rw [← same] at creditedSound creditedSettings credits nothing addressed
  obtain ⟨layout, moved, filledSound, all, filledSettings, filledCredits⟩ :=
    reinsertAll_fills creditedSound addressed sound.distinct fun event _ other held => by
      rw [nothing] at held
      cases held
  rw [nothing, List.append_nil] at all
  obtain ⟨lead, twins⟩ := sound.twins_of_perm filledSound
    (creditedSettings.symm.trans filledSettings) (filledCredits.trans credits) all.symm
  refine ⟨{ queue with layout }, lead, ?_, rfl, twins⟩
  unfold rebuilt
  rw [made]
  rw [unfilled] at moved
  exact moved

/-- A removal goes by the serial number. Whatever its key, it returns: the event that the index or
the owner leads to, if there is one, and nothing else leaves. Unless the index still lists the key
for a message that was taken under another key, that is the event which has exactly the key, or one
that is mistaken for it; nothing is changed if there is none, and credit is given back for what is
taken. So the removal returns only what has its key exactly if there is nothing to mistake for it.

As long as no waiting message is taken by mistake, the index lists exactly the messages that wait.
Then what is left is a queue that holds just the remaining events, with their credit: whatever is
asked of it, it answers as one that is built of these. -/
theorem removal_goes_by_serial_number [Hook σ] {configuration : Configuration} {hook : σ}
    (built : EventQueue.new configuration hook = .ok (.ok start))
    (strands : start.Strands astray queue)
    (known : ∀ event ∈ queue.layout.events,
      queue.layout.Addressed configuration.entities event) (key : EventKey) :
    ∃ event? layout, queue.erase key = .ok (event?, { queue with layout }) ∧
      queue.layout.Erasure key event? layout ∧
      (key ∉ astray → queue.layout.GuidedErasure key event? layout ∧
        ((∀ event, event? = some event → event.key = key) ↔
          ∀ event ∈ queue.layout.events, ¬ queue.layout.Mistakes key event)) ∧
      (configuration.strategies.localListsV2 = false →
        astray = [] ∧ queue.layout.stranded key event? = []) ∧
      (astray = [] →
        (layout.Sound configuration.entities ↔ queue.layout.stranded key event? = []) ∧
        (queue.layout.stranded key event? = [] →
          ∃ other, rebuilt { queue with layout } = .ok other ∧
            ∀ operations, (∀ operation ∈ operations, queue.Discreet operation) →
              Numbered perform keys { queue with layout } operations →
              TracesAgree
                (trace perform (growth { queue with layout }) { queue with layout } operations)
                (trace perform (growth other) other operations))) := by
  obtain ⟨tracked, fits, same⟩ := strands.tracked built
  have senders : queue.layout.counts = true → ∀ event ∈ queue.layout.events,
      event.prevContext.Known configuration.entities :=
    fun counts event member => (known event member).2 counts
  obtain ⟨event?, layout, erased⟩ := tracked.erase_returns senders key
  have erasure := tracked.erasure erased
  refine ⟨event?, layout, ?_, erasure, fun unlisted => ?_, fun plain => ?_, ?_⟩
  · unfold EventQueue.erase
    rw [erased]
    rfl
  · have guided := tracked.guidedErasure unlisted erased
    refine ⟨guided, fun own event member mistaken => ?_, fun unmistaken event took => ?_⟩
    · have found := (guided.found event member).mpr (.inr mistaken)
      exact mistaken.1 (own event ((erasure.found event).mpr ⟨member, found⟩))
    · obtain ⟨member, found⟩ := (erasure.found event).mp took
      exact ((guided.found event member).mp found).resolve_right (unmistaken event member)
  · refine ⟨strands.eq_nil built plain, ?_⟩
    exact Layout.stranded_of_uncounted (fits.counts_eq.trans (same ▸ plain)) key event?
  · rintro rfl
    have sound := tracked.sound_iff senders erased
    refine ⟨sound, fun nothing => ?_⟩
    have settings := Layout.erase_settings erased
    have remaining : ∀ event ∈ layout.events, layout.Addressed configuration.entities event := by
      intro event member
      have held := erasure.left.mem_iff.mpr (List.mem_append_right _ member)
      obtain ⟨owner, sender⟩ := known event held
      exact ⟨owner, fun counting => sender (settings.counts_eq.symm.trans counting)⟩
    have stillFits : Fits { queue with layout } configuration.entities :=
      fits.of_settings rfl settings
    obtain ⟨other, lead, made, abreast⟩ :=
      stillFits.rebuilt_abreast (sound.mpr nothing) remaining
    exact ⟨other, made, fun operations discreet numbered =>
      abreast.growths_agree discreet numbered⟩

def singleConfiguration : Configuration where
  entities := 1
  latency := .ofFunction 1 fun _ _ => 0
  interfaces := []
  strategies := .plain
  boundary := .sequenced
  exploration := .standard

def namesake : Event := ⟨⟨⟨10⟩, ⟨4⟩, .node ⟨0⟩⟩, .undefined, .node ⟨0⟩, none⟩

def bystander : Event := ⟨⟨⟨20⟩, ⟨5⟩, .node ⟨0⟩⟩, .undefined, .node ⟨0⟩, none⟩

def mistakenKey : EventKey := ⟨⟨99⟩, ⟨4⟩, .node ⟨0⟩⟩

/-- An event is removed by a key with another instant than its own. -/
theorem removal_goes_by_serial_number_instant :
    ∃ (start queue other : EventQueue Exploration.Silent) (layout : Layout),
      EventQueue.new singleConfiguration .silent = .ok (.ok start) ∧ start.Strands [] queue ∧
      queue.keys = [namesake.key, bystander.key] ∧ mistakenKey ∉ queue.keys ∧
      queue.layout.Mistakes mistakenKey namesake ∧
      queue.erase mistakenKey = .ok (some namesake, { queue with layout }) ∧
      keys { queue with layout } = [bystander.key] ∧
      rebuilt { queue with layout } = .ok other ∧
      TracesAgree
        (trace perform (growth { queue with layout }) { queue with layout } [.pop, .pop])
        (trace perform (growth other) other [.pop, .pop]) := by
  obtain ⟨start, built⟩ : ∃ start : EventQueue Exploration.Silent,
      EventQueue.new singleConfiguration Exploration.Silent.silent = .ok (.ok start) := ⟨_, rfl⟩
  obtain ⟨before, inserted⟩ : ∃ before, start.perform (.insert namesake) =
      .ok (.inserted (.ok namesake.key), before) := by
    cases built
    exact ⟨_, rfl⟩
  obtain ⟨queue, followed⟩ : ∃ queue, before.perform (.insert bystander) =
      .ok (.inserted (.ok bystander.key), queue) := by
    cases built
    cases inserted
    exact ⟨_, rfl⟩
  have first : start.Strands [] before := by
    have entered := Strands.performed (.insert namesake) .start (by cases built; decide) inserted
    rw [strandedBy_insert] at entered
    exact entered
  have strands : start.Strands [] queue := by
    have entered := Strands.performed (.insert bystander) first
      (by cases built; cases inserted; decide) followed
    rw [strandedBy_insert] at entered
    exact entered
  obtain ⟨held, single⟩ : queue.layout.events = [namesake, bystander] ∧
      ∃ list, queue.layout = .single list := by
    cases built
    cases inserted
    cases followed
    exact ⟨rfl, _, rfl⟩
  obtain ⟨list, alone⟩ := single
  have known : ∀ event ∈ queue.layout.events,
      queue.layout.Addressed singleConfiguration.entities event := by
    rw [held]
    exact List.forall_mem_cons.mpr ⟨⟨by decide, fun _ => by decide⟩,
      List.forall_mem_cons.mpr ⟨⟨by decide, fun _ => by decide⟩, List.forall_mem_nil _⟩⟩
  obtain ⟨event?, layout, erased, erasure, _, _, rebuilding⟩ :=
    removal_goes_by_serial_number built strands known mistakenKey
  have mistaken : queue.layout.Mistakes mistakenKey namesake := by
    rw [alone]
    exact ⟨by decide, rfl, trivial⟩
  have took : event? = some namesake := by
    refine (erasure.found namesake).mpr ⟨by rw [held]; exact List.mem_cons_self, ?_⟩
    rw [alone]
    exact ⟨rfl, trivial⟩
  obtain ⟨other, made, agree⟩ := (rebuilding rfl).2 (by rw [alone]; rfl)
  have left := erasure.left
  rw [took, held] at left
  have remaining : layout.events = [bystander] := List.perm_singleton.mp left.cons_inv.symm
  refine ⟨start, queue, other, layout, built, strands, ?_, ?_, mistaken, took ▸ erased, ?_, made,
    agree _ ?_ ?_⟩
  · exact congrArg (List.map Event.key) held
  · rw [show queue.keys = [namesake.key, bystander.key] from congrArg (List.map Event.key) held]
    decide
  · exact congrArg (List.map Event.key) remaining
  · exact List.forall_mem_cons.mpr ⟨.inr rfl,
      List.forall_mem_cons.mpr ⟨.inr rfl, List.forall_mem_nil _⟩⟩
  · refine ⟨trivial, ?_⟩
    split
    · trivial
    · refine ⟨trivial, ?_⟩
      split
      · trivial
      · trivial

end EventQueue

end EventKernel.Queue
