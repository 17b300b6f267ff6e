import Mathlib.Tactic.IntervalCases
import EventKernel.Proofs.Bookkeeping
import EventKernel.Proofs.CausalPrograms

set_option autoImplicit false

/-! Programs of any kind keep the books of their simulation. They may schedule, cancel, remove,
request from outside, run, stop, dispose and replace the queue, in callbacks of callbacks and
between runs; they only use handles that they were given, and a replacement that was just
built. Then the internal checks of the simulation never fail. -/

namespace EventKernel

open Queue (Configuration EventQueue)
open Exploration (Hook)

variable {σ β μ : Type}

/-- What a program may ask for that has been answered so far: handles are its own, and another
queue holds nothing yet. -/
def Request.Lawful (history : List (Signal σ β)) : {reply : Reply} → Request σ β reply → Prop
  | _, .cancel handle => Given history handle
  | _, .remove handle => Given history handle
  | _, .replaceQueue replacement => ∃ configuration hook,
      EventQueue.new configuration hook = .ok (.ok replacement)
  | _, _ => True

/-- What a request plans that is made in this context. -/
def Request.plan? (current : Context) : {reply : Reply} → Request σ β reply →
    Option Simulation.Plan
  | _, .schedule placement _ => some (placement.plan current)
  | _, .stopAfter delay => some (Placement.plan current (.here .stop delay none))
  | _, _ => none

namespace Machine

/-- Whatever is asked for next is lawful. -/
def AsksLawfully (history : List (Signal σ β)) (machine : Machine σ β μ) : Prop :=
  ∀ (reply : Reply) (request : Request σ β reply) (next : reply.Value → Script σ β μ)
    (below : List (Frame σ β μ)), machine.frames = .script (.perform request next) :: below →
      request.Lawful history

/-- Whatever is asked for next is of this kind. -/
def Asks (allowed : {reply : Reply} → Request σ β reply → Prop) (machine : Machine σ β μ) : Prop :=
  ∀ (reply : Reply) (request : Request σ β reply) (next : reply.Value → Script σ β μ)
    (below : List (Frame σ β μ)), machine.frames = .script (.perform request next) :: below →
      allowed request

def Watch.lawful : Watch σ β μ (List (Signal σ β)) :=
  { Watch.history with allows := fun history machine => machine.AsksLawfully history }

/-- The machines that a lawful program reaches, each with all that was visible on the way. -/
def Reaches [Hook σ] (body : β → Script σ β μ) (start : Machine σ β μ) :
    List (Signal σ β) → Machine σ β μ → Prop :=
  LeadsTo body .lawful [] start

end Machine

namespace Simulation

/-- The queue, the table of callbacks and the count agree, and none of the checks that rely on
it can fail. -/
structure BooksAgree (simulation : Simulation σ β) (given : Handle → Prop) : Prop where
  distinct : (simulation.queue.layout.events.map fun event => event.key.uid).Nodup
  numbered : ∀ event ∈ simulation.queue.layout.events,
    EventUid.first ≤ event.key.uid ∧ event.key.uid < simulation.nextUid
  slots : ∀ uid, (∃ slot, simulation.slots.find? uid = some slot) ↔
    ∃ event ∈ simulation.queue.layout.events, event.key.uid = uid
  counted : simulation.unscheduled = simulation.queue.size
  sized : simulation.slots.size = simulation.queue.size
  /-- The count never goes below zero, and no event comes without a callback: where taking the
  next event fails, the queue itself has failed. -/
  dequeues : ∀ fault, simulation.dequeue = .error fault → simulation.queue.pop = .error fault
  /-- A run never ends with an empty queue and events that are still counted. -/
  ends : ∀ before, ∃ result, simulation.endRun before = .ok result
  removes : ∀ handle, given handle → ∃ after, simulation.remove handle = .ok after
  cancels : ∀ handle, given handle → ∃ after, simulation.cancel handle = .ok after
  /-- An event that has not expired is found wherever the queue holds it. -/
  finds : ∀ handle, given handle → handle.isDestroy = false →
    simulation.isExpired handle = .ok false →
      ∃ event ∈ simulation.queue.layout.events, event.key = handle.key ∧
        ∃ queue, simulation.queue.erase handle.key = .ok (some event, queue)

variable {simulation after : Simulation σ β} {entities : Nat} {keys : List EventKey}
  {given : Handle → Prop} {history : List (Signal σ β)}

namespace Booked

private theorem agree (booked : simulation.Booked entities keys given) :
    simulation.BooksAgree given where
  distinct := booked.holds.sound.distinct
  numbered := by
    intro event member
    obtain ⟨least, below⟩ := booked.numbered event.key
      (booked.holds.listed.mem_iff.mp (List.mem_map_of_mem member))
    exact ⟨UInt64.le_iff_toNat_le.mpr least, UInt64.lt_iff_toNat_lt.mpr below⟩
  slots := by
    intro uid
    have listed := booked.holds.listed.map EventKey.uid
    rw [List.map_map] at listed
    rw [booked.slot_iff, ← listed.mem_iff, List.mem_map]
    rfl
  counted := booked.counted.trans booked.holds.size_eq.symm
  sized := by
    rw [Slots.size_eq, booked.slots.length_eq, List.length_map, booked.holds.size_eq]
  dequeues := fun _ failed => booked.dequeue_error failed
  ends := booked.exists_endRun
  removes := fun _ known => booked.exists_remove known
  cancels := fun _ known => booked.exists_cancel known
  finds := by
    intro handle known queued live
    obtain ⟨event, present, same, queue, erased, _⟩ :=
      booked.holds.erase (booked.live_listed known queued live)
    exact ⟨event, present, same, queue, erased⟩

theorem gave {handle : Handle}
    (booked : simulation.Booked entities keys fun other => Given history other ∨ other = handle)
    {signal : Signal σ β} (only : ∀ other, signal.Gives other → other = handle) :
    simulation.Booked entities keys (Given (history ++ [signal])) :=
  booked.weaken fun other known => known.append_singleton.imp_right (only other)

theorem told (booked : simulation.Booked entities keys (Given history)) {signal : Signal σ β}
    (nothing : ∀ handle, ¬ signal.Gives handle) :
    simulation.Booked entities keys (Given (history ++ [signal])) :=
  booked.weaken fun handle known => known.append_singleton.resolve_right (nothing handle)

/-- Every event that is queued after a request was queued before, or the request has planned it. -/
theorem answer [Hook σ] (booked : simulation.Booked entities keys (Given history))
    {reply : Reply} {request : Request σ β reply} {value : reply.Value}
    (lawful : request.Lawful history)
    (answered : request.answer simulation = .ok (value, after)) :
    ∃ others, after.Booked entities others (Given (history ++ [.answered request value])) ∧
      ∀ key ∈ others, key ∈ keys ∨
        ∃ plan, request.plan? simulation.context = some plan ∧ simulation.Planned plan key := by
  have unmoved {others : List EventKey}
      (kept : after.Booked entities others (Given history)) (among : others ⊆ keys)
      (nothing : ∀ handle, ¬ (Signal.answered request value).Gives handle) :
      ∃ others, after.Booked entities others (Given (history ++ [.answered request value])) ∧
        ∀ key ∈ others, key ∈ keys ∨
          ∃ plan, request.plan? simulation.context = some plan ∧ simulation.Planned plan key :=
    ⟨others, kept.told nothing, fun key member => Or.inl (among member)⟩
  cases request with
  | schedule placement callback =>
      obtain ⟨others, kept, origins⟩ := booked.schedule answered
      refine ⟨others, kept.gave fun other gives => ?_, fun key member =>
        (origins key member).imp_right fun planned => ⟨_, rfl, planned⟩⟩
      cases gives
      rfl
  | stopAfter delay =>
      obtain ⟨others, kept, origins⟩ := booked.schedule answered
      refine ⟨others, kept.gave fun other gives => ?_, fun key member =>
        (origins key member).imp_right fun planned => ⟨_, rfl, planned⟩⟩
      cases gives
      rfl
  | scheduleDestroy callback =>
      refine ⟨keys, (booked.registered answered).gave fun other gives => ?_, fun _ => Or.inl⟩
      cases gives
      rfl
  | cancel handle =>
      obtain ⟨next, cancelled, returned⟩ := bind_eq_ok answered
      cases returned
      obtain ⟨others, kept, among⟩ := booked.withdrawn lawful (cancel_eq_ok cancelled)
      exact unmoved kept among fun _ gives => nomatch gives
  | remove handle =>
      obtain ⟨next, removed, returned⟩ := bind_eq_ok answered
      cases returned
      obtain ⟨others, kept, among⟩ := booked.withdrawn lawful (remove_eq_ok removed)
      exact unmoved kept among fun _ gives => nomatch gives
  | replaceQueue replacement =>
      obtain ⟨next, replaced, returned⟩ := bind_eq_ok answered
      cases returned
      obtain ⟨configuration, hook, built⟩ := lawful
      exact unmoved (booked.replaceQueue (EventQueue.new_holds built) replaced)
        (List.Subset.refl keys) fun _ gives => nomatch gives
  | dispose =>
      cases answered
      exact unmoved booked.dispose (List.nil_subset keys) fun _ gives => nomatch gives
  | isExpired _ | delayLeft _ | now | nowIn _ =>
      obtain ⟨answer, asked, returned⟩ := bind_eq_ok answered
      cases returned
      exact unmoved booked (List.Subset.refl keys) fun _ gives => nomatch gives
  | requestRemote context delay callback =>
      cases answered
      have kept : (simulation.requestRemote ⟨context, delay, callback⟩).Booked entities keys
          (Given history) := booked.of_same rfl rfl rfl rfl rfl
      exact unmoved kept (List.Subset.refl keys) fun _ gives => nomatch gives
  | stop =>
      cases answered
      have kept : simulation.stop.Booked entities keys (Given history) :=
        booked.of_same rfl rfl rfl rfl rfl
      exact unmoved kept (List.Subset.refl keys) fun _ gives => nomatch gives
  | currentContext | pending | remotePending | describe | detail | trace | configuration =>
      cases answered
      exact unmoved booked (List.Subset.refl keys) fun _ gives => nomatch gives

end Booked

end Simulation

namespace Machine

variable [Hook σ] {body : β → Script σ β μ} {machine after : Machine σ β μ}
  {history signals : List (Signal σ β)} {entities : Nat}

theorem Stepped.booked (stepped : Stepped body machine signals after)
    (lawful : machine.AsksLawfully history) {keys : List EventKey}
    (booked : machine.simulation.Booked entities keys (Given history)) :
    ∃ others, after.simulation.Booked entities others (Given (history ++ signals)) := by
  cases stepped with
  | moved memory frames =>
      rw [List.append_nil]
      exact ⟨keys, booked⟩
  | ran result frames => exact ⟨keys, booked.told fun _ gives => nomatch gives⟩
  | performed request next below value simulation here answered =>
      obtain ⟨others, kept, _⟩ := booked.answer (lawful _ request next below here) answered
      exact ⟨others, kept⟩
  | begun next below simulation here began =>
      rw [List.append_nil]
      exact booked.beginRun began
  | starved simulation here taken =>
      rw [List.append_nil]
      obtain ⟨others, kept, _⟩ := booked.taken (Simulation.dequeue_eq_ok taken)
      exact ⟨others, kept⟩
  | skipped entered simulation here taken left =>
      rw [List.append_nil]
      obtain ⟨_, enteredBooked, _⟩ := booked.taken (Simulation.dequeue_eq_ok taken)
      exact enteredBooked.leaveEvent left
  | fired key work simulation here taken =>
      obtain ⟨others, enteredBooked, _⟩ := booked.taken (Simulation.dequeue_eq_ok taken)
      exact ⟨others, enteredBooked.told fun _ gives => nomatch gives⟩
  | halted key simulation here taken =>
      obtain ⟨others, enteredBooked, _⟩ := booked.taken (Simulation.dequeue_eq_ok taken)
      have stopped : simulation.stop.Booked entities others (Given history) :=
        enteredBooked.of_same rfl rfl rfl rfl rfl
      exact ⟨others, stopped.told fun _ gives => nomatch gives⟩
  | finished below simulation here done =>
      rw [List.append_nil]
      exact booked.finishEvent done
  | destroying handle work destroyEvents next below here first =>
      have kept : Simulation.Booked { machine.simulation with destroyEvents } entities keys
          (Given history) := booked.of_same rfl rfl rfl rfl rfl
      exact ⟨keys, kept.told fun _ gives => nomatch gives⟩

theorem Reaches.booked {start : Machine σ β μ}
    (begins : start.simulation.Booked entities [] (Given ([] : List (Signal σ β))))
    (reached : Reaches body start history machine) :
    ∃ keys, machine.simulation.Booked entities keys (Given history) := by
  refine reached.keeps (motive := fun history machine =>
    ∃ keys, machine.simulation.Booked entities keys (Given history)) ⟨[], begins⟩ ?_
  rintro history signals machine after _ lawful stepped ⟨keys, booked⟩
  exact (step_eq_ok stepped).booked lawful booked

end Machine

theorem Simulation.ofQueue_of_new {configuration : Configuration} {hook : σ}
    {simulation : Simulation σ β}
    (started : Simulation.new configuration hook = .ok (.ok simulation)) :
    ∃ queue, EventQueue.new configuration hook = .ok (.ok queue) ∧
      simulation = ofQueue queue := by
  obtain ⟨answer, built, returned⟩ := bind_eq_ok started
  cases answer with
  | error error => cases returned
  | ok queue =>
      cases returned
      exact ⟨queue, built, rfl⟩

theorem Simulation.booked_of_new {configuration : Configuration} (hook : σ)
    (valid : configuration.validate = .ok (.ok ())) :
    ∃ simulation : Simulation σ β, Simulation.new configuration hook = .ok (.ok simulation) ∧
      simulation.Booked configuration.entities [] (Given ([] : List (Signal σ β))) := by
  obtain ⟨layout, placed, _⟩ := Queue.Layout.new_sound (Configuration.accepted_of_validate valid)
  obtain ⟨queue, built⟩ : ∃ queue, EventQueue.new configuration hook = .ok (.ok queue) := by
    unfold EventQueue.new
    simp only [valid, bind, Except.bind, placed]
    exact ⟨_, rfl⟩
  have empty := EventQueue.new_holds built
  have same := EventQueue.configuration_of_new built
  refine ⟨ofQueue queue, ?_, ?_, ?_, Nat.le_refl _, List.forall_mem_nil _, .refl _, rfl, ?_⟩
  · unfold Simulation.new
    simp only [built, bind, Except.bind]
    rfl
  · rw [← same]
    exact empty
  · exact List.length_replicate.trans (congrArg Configuration.entities same)
  · rintro handle ⟨signal, member, _⟩
    cases member

/-- In every state that a lawful program reaches the books agree, so no internal check fails. -/
theorem Machine.books_agree (configuration : Configuration) (hook : σ)
    (valid : configuration.validate = .ok (.ok ())) [Hook σ] (memory : μ) (script : Script σ β μ)
    (body : β → Script σ β μ) :
    ∃ simulation : Simulation σ β, Simulation.new configuration hook = .ok (.ok simulation) ∧
      ∀ history machine, Reaches body (.start simulation memory script) history machine →
        machine.simulation.BooksAgree (Given history) := by
  obtain ⟨simulation, started, booked⟩ := Simulation.booked_of_new hook valid
  refine ⟨simulation, started, fun history machine reached => ?_⟩
  obtain ⟨keys, reachedBooked⟩ := reached.booked booked
  exact reachedBooked.agree

def keepingConfiguration : Configuration where
  entities := 1
  latency := .ofFunction 1 fun _ _ => 0
  interfaces := []
  strategies := ⟨false, false, false, false, false⟩
  boundary := .sequenced
  exploration := .standard

def cancellingInPlace : Script Exploration.Silent Unit Unit :=
  .perform (.schedule (.within .global 1) ()) fun handle =>
    .perform (.cancel handle) fun _ => .done

/-- A cancelled event that stays in the queue stays in all books. -/
theorem Machine.books_agree_cancelled :
    ∃ simulation history machine,
      Simulation.new keepingConfiguration Exploration.Silent.silent = .ok (.ok simulation) ∧
      Reaches (fun _ => .done) (.start simulation () cancellingInPlace) history machine ∧
      machine.simulation.queue.size = 1 ∧ machine.simulation.BooksAgree (Given history) := by
  obtain ⟨simulation, started, agree⟩ := Machine.books_agree keepingConfiguration
    Exploration.Silent.silent rfl () cancellingInPlace fun _ => .done
  have reached : ∃ history machine,
      Reaches (fun _ => .done) (.start simulation () cancellingInPlace) history machine ∧
      machine.simulation.queue.size = 1 := by
    cases started
    refine ⟨_, _, .of_steps 2 rfl ?_, rfl⟩
    intro fewer below past before taken reply request next under here
    interval_cases fewer <;> cases taken <;> cases here
    · trivial
    · exact ⟨_, List.mem_cons_self, .scheduled _ _⟩
  obtain ⟨history, machine, reached, held⟩ := reached
  exact ⟨simulation, history, machine, started, reached, held, agree history machine reached⟩

end EventKernel
