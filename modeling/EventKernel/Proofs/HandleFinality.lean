import EventKernel.Proofs.HandleState
import EventKernel.Proofs.MachineSteps

set_option autoImplicit false

/-! What has ended stays ended, under any configuration and any program: once a handle has
been found expired, or was cancelled or removed, its callback is not invoked again.

There is one exception. An event that its clock has overtaken while it is queued counts as
expired, so attempts to cancel or remove it leave everything as it is, and it still fires. -/

namespace EventKernel

variable {σ β μ : Type}

inductive Signal.Ends (handle : Handle) : Signal σ β → Prop
  | expired : Ends handle (.answered (.isExpired handle) true)
  | cancelled : Ends handle (.answered (.cancel handle) ())
  | removed : Ends handle (.answered (.remove handle) ())

inductive Signal.Invokes (handle : Handle) : Signal σ β → Prop
  | fired (key : EventKey) (callback : Callback β) (same : key.uid = handle.key.uid) :
      Invokes handle (.fired key callback)
  | destroying (work : β) : Invokes handle (.destroying handle work)

namespace Simulation

variable {simulation after : Simulation σ β} {handle : Handle}

def Ended (handle : Handle) (before after : Simulation σ β) : Prop :=
  (before.Overtaken handle ∧ after = before) ∨
    ¬ before.Overtaken handle ∧ after.Gone handle

private theorem Overtaken.expired (overtaken : simulation.Overtaken handle) :
    simulation.isExpired handle = .ok true := by
  obtain ⟨queued, callback, clock, found, read, passed⟩ := overtaken
  unfold isExpired
  rw [if_neg (Bool.eq_false_iff.mp queued), found]
  simp only [read, passed, bind, Except.bind, pure, Except.pure]

private theorem ends_of_expired (regular : simulation.Regular)
    (expired : simulation.isExpired handle = .ok true) :
    Ended handle simulation simulation := by
  rcases overtaken_or_gone regular expired with overtaken | gone
  · exact Or.inl ⟨overtaken, rfl⟩
  · exact Or.inr ⟨gone.current, gone⟩

theorem Withdrawn.ends (regular : simulation.Regular)
    (withdrawn : Withdrawn simulation handle after) :
    Ended handle simulation after := by
  cases withdrawn with
  | unregistered destroy =>
      refine Or.inr ⟨?_, ?_, ?_⟩
      · intro overtaken
        rw [overtaken.1] at destroy
        cases destroy
      · intro callback armed
        have ordinary := regular.armed _ callback armed
        rw [uid_eq_destroy destroy] at ordinary
        exact absurd ordinary (by decide)
      · intro _ registered member same
        have kept : (registered.1.serial != handle.serial) = true :=
          (List.mem_filter.mp member).2
        rw [same, bne_self_eq_false] at kept
        cases kept
  | ignored expired => exact ends_of_expired regular expired
  | removed queued queue event unscheduled erased live one =>
      refine Or.inr ⟨?_, ?_, ?_⟩
      · intro overtaken
        cases overtaken.expired.symm.trans live
      · intro callback armed
        rw [Slots.find?_erase, if_pos rfl] at armed
        cases armed
      · intro destroy
        rw [queued] at destroy
        cases destroy
  | cancelled queued live =>
      refine Or.inr ⟨?_, ?_, ?_⟩
      · intro overtaken
        cases overtaken.expired.symm.trans live
      · intro callback armed
        rw [Slots.find?_insert, if_pos rfl] at armed
        cases armed
      · intro destroy
        rw [queued] at destroy
        cases destroy

variable [Exploration.Hook σ]

private theorem answer_ends {reply : Reply} {request : Request σ β reply} {value : reply.Value}
    (regular : simulation.Regular) (answered : request.answer simulation = .ok (value, after))
    (ends : Signal.Ends handle (.answered request value)) :
    Ended handle simulation after := by
  cases ends with
  | expired =>
      obtain ⟨expired, asked, returned⟩ := bind_eq_ok answered
      cases returned
      exact ends_of_expired regular asked
  | cancelled =>
      obtain ⟨next, cancelled, returned⟩ := bind_eq_ok answered
      cases returned
      exact (cancel_eq_ok cancelled).ends regular
  | removed =>
      obtain ⟨next, removed, returned⟩ := bind_eq_ok answered
      cases returned
      exact (remove_eq_ok removed).ends regular

private theorem answer_issued {reply : Reply} {request : Request σ β reply} {value : reply.Value}
    (answered : request.answer simulation = .ok (value, after))
    (gives : Signal.Gives handle (.answered request value)) : after.Issued handle := by
  cases gives with
  | scheduled placement callback => exact schedule_issued answered
  | registered callback => exact scheduleDestroy_issued answered
  | bounded delay => exact schedule_issued answered

end Simulation

namespace Machine

variable [Exploration.Hook σ] {body : β → Script σ β μ} {machine after : Machine σ β μ}
  {signals : List (Signal σ β)} {handle : Handle}

theorem Stepped.onward (stepped : Stepped body machine signals after) :
    machine.simulation.Onward after.simulation := by
  cases stepped with
  | moved memory frames => exact Simulation.Onward.refl _
  | ran result frames => exact Simulation.Onward.refl _
  | performed request next below value simulation here answered =>
      exact Simulation.answer_onward request answered
  | begun next below simulation here began => exact Simulation.beginRun_onward began
  | starved simulation here taken => exact (Simulation.dequeue_eq_ok taken).onward
  | skipped entered simulation here taken left =>
      exact (Simulation.dequeue_eq_ok taken).onward.trans (Simulation.leaveEvent_onward left)
  | fired key work simulation here taken => exact (Simulation.dequeue_eq_ok taken).onward
  | halted key simulation here taken =>
      have stopped : simulation.Onward simulation.stop :=
        Simulation.Onward.of_same rfl rfl rfl
      exact (Simulation.dequeue_eq_ok taken).onward.trans stopped
  | finished below simulation here done => exact Simulation.finishEvent_onward done
  | destroying handle work destroyEvents next below here first =>
      refine ⟨Nat.le_refl _, fun _ _ armed => Or.inl armed, ?_⟩
      intro registered member
      rw [first]
      exact Or.inl (List.mem_cons_of_mem _ member)

private theorem steps_onward (body : β → Script σ β μ) (count : Nat) :
    ∀ {machine : Machine σ β μ} {signals : List (Signal σ β)},
      machine.steps body count = .ok (signals, after) →
        machine.simulation.Onward after.simulation := by
  induction count with
  | zero =>
      intro machine signals ran
      cases ran
      exact Simulation.Onward.refl _
  | succ count ih =>
      intro machine signals ran
      obtain ⟨first, others, next, stepped, remaining, rfl⟩ := steps_succ_eq_ok ran
      exact (step_eq_ok stepped).onward.trans (ih remaining)

private theorem Stepped.issued (stepped : Stepped body machine signals after)
    {signal : Signal σ β} (member : signal ∈ signals) (gives : signal.Gives handle) :
    after.simulation.Issued handle := by
  cases stepped with
  | performed request next below value simulation here answered =>
      rw [List.mem_singleton.mp member] at gives
      exact Simulation.answer_issued answered gives
  | moved | begun | starved | skipped | finished => cases member
  | ran | fired | halted | destroying =>
      rw [List.mem_singleton.mp member] at gives
      cases gives

private theorem steps_issued (body : β → Script σ β μ) (count : Nat) :
    ∀ {machine : Machine σ β μ} {signals : List (Signal σ β)},
      machine.steps body count = .ok (signals, after) →
        ∀ signal ∈ signals, signal.Gives handle → after.simulation.Issued handle := by
  induction count with
  | zero =>
      intro machine signals ran signal member
      cases ran
      cases member
  | succ count ih =>
      intro machine signals ran signal member gives
      obtain ⟨first, others, next, stepped, remaining, rfl⟩ := steps_succ_eq_ok ran
      rcases List.mem_append.mp member with now | later
      · exact ((step_eq_ok stepped).issued now gives).onward (steps_onward body count remaining)
      · exact ih remaining signal later gives

/-- An event that fires was armed, and what the destroy phase invokes was registered. -/
theorem Stepped.silent (stepped : Stepped body machine signals after)
    (regular : machine.simulation.Regular) (gone : machine.simulation.Gone handle) :
    ∀ signal ∈ signals, ¬ signal.Invokes handle := by
  have unarmed : ∀ {key : EventKey} {callback : Callback β} {simulation : Simulation σ β},
      machine.simulation.dequeue = .ok (.invoke key callback, simulation) →
        key.uid ≠ handle.key.uid := by
    intro key callback simulation taken same
    exact gone.disarmed callback (same ▸ (Simulation.dequeue_eq_ok taken).armed)
  intro signal member invokes
  cases stepped with
  | moved | begun | starved | skipped | finished => cases member
  | ran | performed =>
      rw [List.mem_singleton.mp member] at invokes
      cases invokes
  | fired key work simulation here taken =>
      rw [List.mem_singleton.mp member] at invokes
      cases invokes with
      | fired _ _ same => exact unarmed taken same
  | halted key simulation here taken =>
      rw [List.mem_singleton.mp member] at invokes
      cases invokes with
      | fired _ _ same => exact unarmed taken same
  | destroying registered work destroyEvents next below here first =>
      rw [List.mem_singleton.mp member] at invokes
      have present : (registered, work) ∈ machine.simulation.destroyEvents := by
        rw [first]
        exact List.mem_cons_self
      cases invokes with
      | destroying =>
          exact gone.unregistered (regular.registered _ present) _ present rfl

/-- What is gone is not invoked by any later step and stays gone. -/
theorem steps_silent (body : β → Script σ β μ) (count : Nat) :
    ∀ {machine : Machine σ β μ} {signals : List (Signal σ β)},
      machine.simulation.Regular → machine.simulation.Issued handle →
      machine.simulation.Gone handle → machine.steps body count = .ok (signals, after) →
        (∀ signal ∈ signals, ¬ signal.Invokes handle) ∧ after.simulation.Gone handle := by
  induction count with
  | zero =>
      intro machine signals regular issued gone ran
      cases ran
      exact ⟨fun _ impossible => (nomatch impossible), gone⟩
  | succ count ih =>
      intro machine signals regular issued gone ran
      obtain ⟨first, others, next, stepped, remaining, rfl⟩ := steps_succ_eq_ok ran
      have one := step_eq_ok stepped
      have onward := one.onward
      obtain ⟨silent, last⟩ := ih (regular.onward onward) (issued.onward onward)
        (gone.onward regular issued onward) remaining
      refine ⟨?_, last⟩
      intro signal member
      rcases List.mem_append.mp member with now | later
      · exact one.silent regular gone signal now
      · exact silent signal later

private theorem Stepped.ends (stepped : Stepped body machine signals after)
    (regular : machine.simulation.Regular) {signal : Signal σ β} (member : signal ∈ signals)
    (ends : signal.Ends handle) :
    Simulation.Ended handle machine.simulation after.simulation := by
  cases stepped with
  | performed request next below value simulation here answered =>
      rw [List.mem_singleton.mp member] at ends
      exact Simulation.answer_ends regular answered ends
  | moved | begun | starved | skipped | finished => cases member
  | ran | fired | halted | destroying =>
      rw [List.mem_singleton.mp member] at ends
      cases ends

/-- A handle that was found expired, cancelled or removed has ended: its callback is not
invoked later, and it stays expired. Only an event that its clock has overtaken in the
queue counts as expired without having ended; no such call changes anything then. -/
theorem ended_handle_stays_ended {configuration : Queue.Configuration} {hook : σ}
    {simulation : Simulation σ β} (memory : μ) (script : Script σ β μ)
    (started : Simulation.new configuration hook = .ok (.ok simulation))
    {count : Nat} {early signals : List (Signal σ β)} {given ending : Signal σ β}
    (ran : (start simulation memory script).steps body count = .ok (early, machine))
    (issued : given ∈ early) (gives : given.Gives handle)
    (stepped : machine.step body = .ok (signals, after))
    (member : ending ∈ signals) (ends : ending.Ends handle) :
    (machine.simulation.Overtaken handle →
      machine.simulation.isExpired handle = .ok true ∧
        after.simulation = machine.simulation) ∧
    (¬ machine.simulation.Overtaken handle →
      ∀ more later last, after.steps body more = .ok (later, last) →
        (∀ signal ∈ later, ¬ signal.Invokes handle) ∧
          last.simulation.isExpired handle = .ok true) := by
  have one := step_eq_ok stepped
  have regular := (Simulation.regular_of_new started).onward (steps_onward body count ran)
  have known := steps_issued body count ran given issued gives
  have ended := one.ends regular member ends
  constructor
  · intro overtaken
    rcases ended with ⟨expired, same⟩ | ⟨current, gone⟩
    · exact ⟨overtaken.expired, same⟩
    · exact absurd overtaken current
  · intro current more later last remaining
    rcases ended with ⟨overtaken, same⟩ | ⟨_, gone⟩
    · exact absurd overtaken current
    · obtain ⟨silent, stays⟩ := steps_silent body more (regular.onward one.onward)
        (known.onward one.onward) gone remaining
      exact ⟨silent, stays.expired⟩

def twoEntities : Queue.Configuration where
  entities := 2
  latency := .ofFunction 2 fun _ _ => 0
  interfaces := []
  strategies := .plain
  boundary := .sequenced
  exploration := .standard

def cancelledHandle : Handle := .ofEvent ⟨⟨1⟩, .first, .global⟩ .undefined

def cancelling : Script Exploration.Silent Unit Unit :=
  .perform (.schedule (.within .global 1) ()) fun handle =>
    .perform (.cancel handle) fun _ => .run fun _ => .done

theorem ended_handle_stays_ended_cancelled :
    ∃ simulation machine after, Simulation.new twoEntities .silent = .ok (.ok simulation) ∧
      (start simulation () cancelling).steps (fun _ => .done) 1 =
        .ok ([.answered (.schedule (.within .global 1) ()) cancelledHandle], machine) ∧
      machine.step (fun _ => .done) = .ok ([.answered (.cancel cancelledHandle) ()], after) ∧
      ∀ more later last, after.steps (fun _ => .done) more = .ok (later, last) →
        (∀ signal ∈ later, ¬ signal.Invokes cancelledHandle) ∧
          last.simulation.isExpired cancelledHandle = .ok true := by
  have cancelled : ∃ simulation machine after,
      Simulation.new twoEntities .silent = .ok (.ok simulation) ∧
      (start simulation () cancelling).steps (fun _ => .done) 1 =
        .ok ([.answered (.schedule (.within .global 1) ()) cancelledHandle], machine) ∧
      machine.step (fun _ => .done) = .ok ([.answered (.cancel cancelledHandle) ()], after) ∧
      ¬ machine.simulation.Overtaken cancelledHandle := by
    refine ⟨_, _, _, rfl, rfl, rfl, ?_⟩
    rintro ⟨queued, callback, clock, found, read, passed⟩
    cases read
    cases passed
  obtain ⟨simulation, machine, after, started, ran, stepped, current⟩ := cancelled
  refine ⟨simulation, machine, after, started, ran, stepped, ?_⟩
  exact (ended_handle_stays_ended () cancelling started ran List.mem_cons_self
    (.scheduled (.within .global 1) ()) stepped List.mem_cons_self .cancelled).2 current

def overtaking : Bool → Script Exploration.Silent Bool Unit
  | false =>
      .perform (.schedule (.message (.node ⟨0⟩) (.node ⟨1⟩) 5 none) true) fun handle =>
        .perform (.isExpired handle) fun _ => .perform (.cancel handle) fun _ =>
          .perform (.remove handle) fun _ => .done
  | true => .done

def lateHandle : Handle := .ofEvent ⟨⟨5⟩, ⟨5⟩, .node ⟨1⟩⟩ .outgoing

/-- A message stamped by the clock of its sender may lie behind the clock of its receiver.
It is found expired, cancelled and removed, and fires all the same. -/
theorem overtaken_event_fires :
    ∃ simulation machine asked cancelled removed last,
      Simulation.new twoEntities .silent = .ok (.ok simulation) ∧
      (start simulation () (.perform (.schedule (.within (.node ⟨1⟩) 10) false) fun _ =>
        .run fun _ => .done)).steps overtaking 4 = .ok
          ([.answered (.schedule (.within (.node ⟨1⟩) 10) false)
              (.ofEvent ⟨⟨10⟩, .first, .node ⟨1⟩⟩ .undefined),
            .fired ⟨⟨10⟩, .first, .node ⟨1⟩⟩ (.user false),
            .answered (.schedule (.message (.node ⟨0⟩) (.node ⟨1⟩) 5 none) true) lateHandle],
            machine) ∧
      machine.step overtaking = .ok ([.answered (.isExpired lateHandle) true], asked) ∧
      asked.step overtaking = .ok ([.answered (.cancel lateHandle) ()], cancelled) ∧
      cancelled.step overtaking = .ok ([.answered (.remove lateHandle) ()], removed) ∧
      removed.steps overtaking 3 = .ok ([.fired lateHandle.key (.user true)], last) ∧
      (Signal.fired lateHandle.key (.user true) : Signal Exploration.Silent Bool).Invokes
        lateHandle := by
  exact ⟨_, _, _, _, _, _, rfl, rfl, rfl, rfl, rfl, rfl, .fired _ _ rfl⟩

end Machine

end EventKernel
