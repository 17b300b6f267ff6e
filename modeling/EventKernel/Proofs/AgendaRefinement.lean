import EventKernel.Proofs.LayoutOperations
import EventKernel.Proofs.SortedAgenda

set_option autoImplicit false

/-! Without the credit rule and without exploration, a queue is a finite map: whatever the
layout, the list policy, the latencies and the boundary, every run gets the answers of the
map. The two states are related by holding the same events. -/

namespace EventKernel.Queue

namespace Agenda

variable {agenda : Agenda}

private theorem place_perm {event : Event} {events : List Event}
    (fresh : ∀ other ∈ events, other.key.uid ≠ event.key.uid) :
    (place event events).Perm (event :: events) := by
  induction events with
  | nil => exact .refl _
  | cons first rest ih =>
      unfold place
      split
      · exact .refl _
      · rename_i notBefore
        split
        · exact ((ih fun other member => fresh other (List.mem_cons_of_mem _ member)).cons
            first).trans (List.Perm.swap _ _ _)
        · rename_i notBehind
          have different := EventKey.rank_ne_of_uid_ne (fresh first List.mem_cons_self)
          have notBefore := EventKey.not_precedes_iff_rank_le.mp notBefore
          have notBehind := EventKey.not_precedes_iff_rank_le.mp notBehind
          omega

private theorem head_least {first : Event} (atHead : agenda.events.head? = some first) :
    first.LeastOf agenda.events := by
  have ordered := agenda.ordered
  cases shape : agenda.events with
  | nil =>
      rw [shape] at atHead
      cases atHead
  | cons head rest =>
      rw [shape] at atHead ordered
      cases atHead
      refine ⟨List.mem_cons_self, fun other member => ?_⟩
      rcases List.mem_cons.mp member with same | later
      · exact Nat.le_of_eq (by rw [same])
      · exact Nat.le_of_lt (EventKey.precedes_iff_rank_lt.mp
          ((List.pairwise_cons.mp ordered).1 other later))

private theorem pop_perm {first : Event} (atHead : agenda.events.head? = some first) :
    agenda.events.Perm (first :: agenda.pop.2.events) := by
  change agenda.events.Perm (first :: agenda.events.tail)
  cases shape : agenda.events with
  | nil =>
      rw [shape] at atHead
      cases atHead
  | cons head rest =>
      rw [shape] at atHead
      cases atHead
      exact .refl _

private theorem erase_of_mem (distinct : (agenda.events.map fun event => event.key.uid).Nodup)
    {event : Event} (member : event ∈ agenda.events) :
    (agenda.erase event.key).1 = some event ∧
      agenda.events.Perm (event :: (agenda.erase event.key).2.events) := by
  have named : names event.key event = true := by
    unfold names
    rw [BEq.rfl, BEq.rfl]
    rfl
  have exactly : ∀ other ∈ agenda.events, names event.key other = true → other = event := by
    intro other present same
    unfold names at same
    rw [Bool.and_eq_true] at same
    exact Event.eq_of_uid distinct present member (eq_of_beq same.2)
  unfold erase
  constructor
  · cases found : agenda.events.find? (names event.key) with
    | none => exact absurd named (List.find?_eq_none.mp found event member)
    | some other =>
        rw [exactly other (List.mem_of_find?_eq_some found) (List.find?_some found)]
  · obtain ⟨other, front, back, _, holds, shape, erased⟩ :=
      List.exists_of_eraseP member named
    have same : other = event := exactly other (by
      rw [shape]
      exact List.mem_append_right _ List.mem_cons_self) holds
    simp only [erased]
    rw [shape, same]
    exact List.perm_middle

private theorem erase_of_absent {key : EventKey}
    (absent : ∀ event ∈ agenda.events, event.key.uid ≠ key.uid) :
    agenda.erase key = (none, agenda) := by
  have unnamed : ∀ event ∈ agenda.events, ¬ names key event = true := by
    intro event member same
    unfold names at same
    rw [Bool.and_eq_true] at same
    exact absent event member (eq_of_beq same.2)
  unfold erase
  rw [List.find?_eq_none.mpr unnamed]
  congr 1
  obtain ⟨events, ordered⟩ := agenda
  simp only [List.eraseP_of_forall_not unnamed]

end Agenda

variable {σ : Type}

/-- A queue that holds what the map holds, and neither counts credit nor explores. -/
structure EventQueue.Follows (queue : EventQueue σ) (agenda : Agenda) (entities : Nat) :
    Prop where
  sound : queue.layout.Sound entities
  plain : queue.layout.counts = false
  quiet : queue.perturbation.settings.enabled = false
  silent : queue.configuration.exploration.enabled = false
  held : queue.layout.events.Perm agenda.events

namespace EventQueue.Follows

variable {queue : EventQueue σ} {agenda : Agenda} {entities : Nat}

private theorem distinct (follows : queue.Follows agenda entities) :
    (agenda.events.map fun event => event.key.uid).Nodup :=
  ((follows.held.map fun event => event.key.uid).nodup_iff).mp follows.sound.distinct

private theorem of_layout (follows : queue.Follows agenda entities) {layout : Layout}
    {after : Agenda} (sound : layout.Sound entities) (plain : layout.counts = false)
    (held : layout.events.Perm after.events) :
    Follows { queue with layout } after entities :=
  ⟨sound, plain, follows.quiet, follows.silent, held⟩

private theorem size_eq (follows : queue.Follows agenda entities) :
    queue.size = agenda.events.length :=
  follows.sound.size_eq.trans follows.held.length_eq

private theorem isEmpty_eq (follows : queue.Follows agenda entities) :
    queue.isEmpty = agenda.events.isEmpty := by
  rw [Bool.eq_iff_iff, List.isEmpty_iff]
  refine Layout.isEmpty_iff.trans ⟨fun noEvents => ?_, fun noEvents => ?_⟩
  · have held := follows.held
    rw [noEvents] at held
    exact held.symm.eq_nil
  · have held := follows.held
    rw [noEvents] at held
    exact held.eq_nil

private theorem layout_insert (follows : queue.Follows agenda entities) {event : Event}
    (known : event.key.context.Known entities)
    (fresh : ∀ other ∈ agenda.events, other.key.uid ≠ event.key.uid) :
    ∃ layout, queue.layout.insert event = .ok layout ∧
      Follows { queue with layout } (agenda.insert event) entities := by
  obtain ⟨layout, inserted, sound, counts, grown⟩ := follows.sound.insert event
    ⟨known, fun counted => by rw [follows.plain] at counted; cases counted⟩
    (fun other member => fresh other (follows.held.mem_iff.mp member))
  exact ⟨layout, inserted, follows.of_layout sound (counts.trans follows.plain)
    (grown.trans ((follows.held.cons event).trans (Agenda.place_perm fresh).symm))⟩

variable [Exploration.Hook σ]

def Answers (queue : EventQueue σ) (agenda : Agenda) (entities : Nat) (operation : Operation) :
    Prop :=
  ∃ answer after, queue.perform operation = .ok (answer, after) ∧
    answer.Agrees (agenda.perform operation).1 ∧
    after.Follows (agenda.perform operation).2 entities

private theorem perform_insert (follows : queue.Follows agenda entities) {event : Event}
    (known : event.key.context.Known entities)
    (fresh : ∀ other ∈ agenda.events, other.key.uid ≠ event.key.uid) :
    Answers queue agenda entities (.insert event) := by
  obtain ⟨layout, inserted, next⟩ := follows.layout_insert known fresh
  refine ⟨.inserted (.ok event.key), { queue with layout }, ?_, .same _, next⟩
  have prepared : queue.perturbation.apply queue.hook event =
      .ok (.ok event, queue.perturbation, queue.hook) := by
    unfold Exploration.Perturbation.apply
    rw [follows.quiet]
    rfl
  unfold EventQueue.perform EventQueue.insert reports
  simp only [prepared, bind, Except.bind, inserted, pure, Except.pure, follows.silent,
    Bool.false_and, Bool.false_eq_true, if_false]

private theorem perform_next (follows : queue.Follows agenda entities) :
    Answers queue agenda entities .next := by
  unfold Answers EventQueue.perform EventQueue.next?
  cases atHead : agenda.events.head? with
  | none =>
      have noEvents := List.head?_eq_none_iff.mp atHead
      have noneHeld := follows.held
      rw [noEvents] at noneHeld
      refine ⟨.next none, queue, ?_, ?_, follows⟩
      · simp only [follows.sound.next?_of_no_events noneHeld.eq_nil, bind, Except.bind]
        rfl
      · have same : agenda.next? = none := by
          unfold Agenda.next?
          rw [atHead]
          rfl
        rw [← same]
        exact .same _
  | some first =>
      have least := (Agenda.head_least atHead).perm follows.held.symm
      refine ⟨.next (some first.key), queue, ?_, ?_, follows⟩
      · simp only [follows.sound.next?_least follows.plain least, bind, Except.bind]
        rfl
      · have same : agenda.next? = some first.key := by
          unfold Agenda.next?
          rw [atHead]
          rfl
        rw [← same]
        exact .same _

private theorem perform_pop (follows : queue.Follows agenda entities) :
    Answers queue agenda entities .pop := by
  unfold Answers EventQueue.perform EventQueue.pop
  cases atHead : agenda.events.head? with
  | none =>
      have noEvents := List.head?_eq_none_iff.mp atHead
      have noneHeld := follows.held
      rw [noEvents] at noneHeld
      refine ⟨.taken none, queue, ?_, ?_, ?_⟩
      · simp only [follows.sound.pop_of_no_events noneHeld.eq_nil, bind, Except.bind]
        rfl
      · rw [← atHead]
        exact .same _
      · apply follows.of_layout follows.sound follows.plain
        change queue.layout.events.Perm agenda.events.tail
        rw [noEvents]
        exact noneHeld
  | some first =>
      have least := (Agenda.head_least atHead).perm follows.held.symm
      obtain ⟨layout, popped, sound, counts, left⟩ :=
        follows.sound.pop_least follows.plain least
      refine ⟨.taken (some first), { queue with layout }, ?_, ?_,
        follows.of_layout sound counts ?_⟩
      · simp only [popped, bind, Except.bind]
        rfl
      · rw [← atHead]
        exact .same _
      · exact (left.symm.trans (follows.held.trans (Agenda.pop_perm atHead))).cons_inv

private theorem perform_erase_live (follows : queue.Follows agenda entities) {event : Event}
    (member : event ∈ agenda.events) : Answers queue agenda entities (.erase event.key) := by
  obtain ⟨taken, remaining⟩ := Agenda.erase_of_mem follows.distinct member
  obtain ⟨layout, erased, sound, counts, left⟩ :=
    follows.sound.erase_live (follows.held.mem_iff.mpr member)
  unfold Answers EventQueue.perform EventQueue.erase
  refine ⟨.taken (some event), { queue with layout }, ?_, ?_,
    follows.of_layout sound (counts.trans follows.plain) ?_⟩
  · simp only [erased, bind, Except.bind]
    rfl
  · rw [← taken]
    exact .same _
  · exact (left.symm.trans (follows.held.trans remaining)).cons_inv

private theorem perform_erase_absent (follows : queue.Follows agenda entities) {key : EventKey}
    (absent : ∀ event ∈ agenda.events, event.key.uid ≠ key.uid) :
    Answers queue agenda entities (.erase key) := by
  have missing := follows.sound.erase_absent fun event member =>
    absent event (follows.held.mem_iff.mp member)
  unfold Answers EventQueue.perform EventQueue.erase Agenda.perform
  simp only [Agenda.erase_of_absent absent]
  refine ⟨.taken none, queue, ?_, .same _, follows⟩
  simp only [missing, bind, Except.bind]
  rfl

private theorem perform (follows : queue.Follows agenda entities) (operation : Operation)
    (permitted : agenda.Permits entities operation) :
    Answers queue agenda entities operation := by
  cases operation with
  | insert event => exact follows.perform_insert permitted.1 permitted.2
  | reinsert event =>
      obtain ⟨layout, inserted, next⟩ := follows.layout_insert permitted.1 permitted.2
      refine ⟨.reinserted, { queue with layout }, ?_, .same _, next⟩
      unfold EventQueue.perform EventQueue.reinsert
      simp only [bind, Except.bind, inserted, pure, Except.pure]
  | next => exact follows.perform_next
  | pop => exact follows.perform_pop
  | erase key =>
      rcases permitted with ⟨event, member, rfl⟩ | absent
      · exact follows.perform_erase_live member
      · exact follows.perform_erase_absent absent
  | drain =>
      obtain ⟨handed, sound, counts, noEvents⟩ := follows.sound.drain
      refine ⟨.drained queue.drain.1, queue.drain.2, rfl, .drained ?_,
        follows.of_layout sound (counts.trans follows.plain) ?_⟩
      · change queue.layout.drain.1.Perm agenda.events
        rw [handed]
        exact follows.held
      · change queue.layout.drain.2.events.Perm []
        rw [noEvents]

private theorem run (follows : queue.Follows agenda entities) (operations : List Operation)
    (permitted : agenda.PermitsAll entities operations) :
    ∃ reports last, queue.run operations = .ok (reports, last) ∧
      Report.AllAgree reports (agenda.run operations) := by
  induction operations generalizing queue agenda with
  | nil => exact ⟨[], queue, rfl, trivial⟩
  | cons operation rest ih =>
      obtain ⟨answer, after, performed, agrees, next⟩ := follows.perform operation permitted.1
      obtain ⟨reports, last, ran, allAgree⟩ := ih next permitted.2
      refine ⟨⟨answer, after.size, after.isEmpty⟩ :: reports, last, ?_,
        ⟨agrees, next.size_eq, next.isEmpty_eq⟩, allAgree⟩
      unfold EventQueue.run
      simp only [performed, bind, Except.bind, ran]
      rfl

end EventQueue.Follows

variable [Exploration.Hook σ]

/-- Under any strategies but the credit rule, with any latencies that a configuration may
have and either boundary, a queue answers every run as the map does. -/
theorem EventQueue.run_agrees_with_agenda (configuration : Configuration) (hook : σ)
    (valid : configuration.validate = .ok (.ok ()))
    (plain : configuration.strategies.localListsV2 = false)
    (quiet : configuration.exploration.enabled = false) (operations : List Operation)
    (permitted : Agenda.empty.PermitsAll configuration.entities operations) :
    ∃ queue reports last, EventQueue.new configuration hook = .ok (.ok queue) ∧
      queue.run operations = .ok (reports, last) ∧
      Report.AllAgree reports (Agenda.empty.run operations) := by
  obtain ⟨layout, built, sound, noEvents, counts⟩ :=
    Layout.new_sound (Configuration.accepted_of_validate valid)
  have follows : EventQueue.Follows
      ⟨configuration, layout, .new configuration.exploration, hook⟩ Agenda.empty
      configuration.entities :=
    ⟨sound, counts.trans plain, quiet, quiet, by rw [noEvents]; exact .refl _⟩
  obtain ⟨reports, last, ran, agree⟩ := follows.run operations permitted
  refine ⟨_, reports, last, ?_, ran, agree⟩
  unfold EventQueue.new
  simp only [valid, bind, Except.bind, built]
  rfl

/-- A run over lanes with an inconsistent table of latencies, in which an event is held back
behind a Timeout and taken away from there. -/
theorem EventQueue.run_agrees_with_agenda_across_lanes :
    let configuration : Configuration := {
      entities := 3
      latency := ⟨3, #[0, 9, 1, 9, 0, 1, 1, 1, 0]⟩
      interfaces := []
      strategies := { Strategies.all with localListsV2 := false }
      boundary := .inclusive
      exploration := .standard }
    let event (ts uid : UInt64) (node : UInt32) (kind : EventKind) : Event :=
      ⟨⟨⟨ts⟩, ⟨uid⟩, .node ⟨node⟩⟩, kind, .global, none⟩
    let operations : List Operation :=
      [.insert (event 5 4 0 .undefined), .insert (event 8 5 0 .timeout),
        .insert (event 9 6 0 .stop), .reinsert (event 6 7 1 .outgoing), .next,
        .erase ⟨⟨9⟩, ⟨6⟩, .node ⟨0⟩⟩, .erase ⟨⟨9⟩, ⟨6⟩, .global⟩, .pop, .pop, .drain]
    ∃ queue reports last,
      EventQueue.new configuration Exploration.Silent.silent = .ok (.ok queue) ∧
      queue.run operations = .ok (reports, last) ∧
      Report.AllAgree reports (Agenda.empty.run operations) :=
  EventQueue.run_agrees_with_agenda _ _ rfl rfl rfl _ (by decide)

end EventKernel.Queue
