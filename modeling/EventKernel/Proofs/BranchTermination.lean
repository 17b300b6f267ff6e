import EventKernel.Exploration.Seeded
import EventKernel.Proofs.HandleFinality
import EventKernel.Proofs.RefusedEvents

set_option autoImplicit false

/-! The end of an exploration branch, under any configuration, any exploring engine and any
program. Once the queue has refused an event, in a callback, in the inbox or between runs, no
callback of an event is invoked any more, by the run that goes on, by one inside of it or by a
later one, and every run answers the reason of the first refusal. What executes is not cut off,
and the handles of the refused events stay expired. -/

namespace EventKernel

open Exploration (Hook)

variable {σ β μ : Type}

namespace Machine

variable [Hook σ]

/-- What the next step has the queue refuse. -/
def refusals (machine : Machine σ β μ) : List Refusal :=
  match machine.frames with
  | .script (.perform request _) :: _ => request.refusals machine.simulation
  | .script (.run _) :: _ => machine.simulation.drainRefusals
  | .running _ _ :: _ =>
      if machine.simulation.goesOn then
        match machine.simulation.dequeue with
        | .ok (.skipped, entered) => Simulation.drainRefusals { entered with context := .global }
        | _ => []
      else []
  | .firing :: _ =>
      Simulation.drainRefusals { machine.simulation with
        processed := machine.simulation.processed + 1, context := .global }
  | _ => []

/-- The machines that a program reaches, with what was visible and what was refused on the way. -/
def Proceeds (body : β → Script σ β μ) (start : Machine σ β μ) (history : List (Signal σ β))
    (refused : List Refusal) (machine : Machine σ β μ) : Prop :=
  LeadsTo body (Watch.history.beside fun refused machine _ _ => refused ++ machine.refusals)
    ([], []) start (history, refused) machine

/-- What lies above these frames is executed to its end, unless a step of it faults. A destroy
phase takes as long as its callbacks do; what has begun it goes on after that. -/
inductive Completes (body : β → Script σ β μ) (below : List (Frame σ β μ)) :
    Machine σ β μ → Prop
  | ended {machine : Machine σ β μ} (here : machine.frames = below) : Completes body below machine
  | failed {machine : Machine σ β μ} {fault : Fault} (fails : machine.step body = .error fault) :
      Completes body below machine
  | stepped {machine after : Machine σ β μ} {signals : List (Signal σ β)}
      (stepped : machine.step body = .ok (signals, after)) (later : Completes body below after) :
      Completes body below machine
  | paused {machine : Machine σ β μ} {next : Script σ β μ}
      (here : machine.frames = .destroying next :: below)
      (resumed : ∀ history refused later, Proceeds body machine history refused later →
        later.frames = .script next :: below → Completes body below later) :
      Completes body below machine

variable {body : β → Script σ β μ} {machine after : Machine σ β μ}
  {signals history : List (Signal σ β)} {refused : List Refusal} {below : List (Frame σ β μ)}

/-! ### What a step refuses -/

private theorem refusals_performed {reply : Reply} {request : Request σ β reply}
    {next : reply.Value → Script σ β μ}
    (here : machine.frames = .script (.perform request next) :: below) :
    machine.refusals = request.refusals machine.simulation := by
  unfold refusals
  simp only [here]

private theorem refusals_begun {next : Except BranchEnded RunSummary → Script σ β μ}
    (here : machine.frames = .script (.run next) :: below) :
    machine.refusals = machine.simulation.drainRefusals := by
  unfold refusals
  simp only [here]

private theorem refusals_finished (here : machine.frames = .firing :: below) :
    machine.refusals = Simulation.drainRefusals { machine.simulation with
      processed := machine.simulation.processed + 1, context := .global } := by
  unfold refusals
  simp only [here]

private theorem refusals_skipped {entered : Simulation σ β} (here : machine.IsRunning)
    (goes : machine.simulation.goesOn = true)
    (taken : machine.simulation.dequeue = .ok (.skipped, entered)) :
    machine.refusals = Simulation.drainRefusals { entered with context := .global } := by
  obtain ⟨before, next, below, top⟩ := here
  unfold refusals
  simp only [top, goes, if_true, taken]

private theorem refusals_stopped (here : machine.IsRunning)
    (stays : machine.simulation.goesOn = false) : machine.refusals = [] := by
  obtain ⟨before, next, below, top⟩ := here
  unfold refusals
  simp only [top, stays, Bool.false_eq_true, if_false]

private theorem refusals_taken {dequeued : Simulation.Dequeued β} {entered : Simulation σ β}
    (here : machine.IsRunning) (taken : machine.simulation.dequeue = .ok (dequeued, entered))
    (apart : dequeued ≠ .skipped) : machine.refusals = [] := by
  obtain ⟨before, next, below, top⟩ := here
  unfold refusals
  simp only [top, taken]
  cases dequeued with
  | skipped => exact absurd rfl apart
  | nothing | invoke => exact ite_self []

private theorem refusals_moved {frames : List (Frame σ β μ)}
    (shifts : Shifts machine.frames frames) :
    machine.refusals = [] := by
  generalize held : machine.frames = before at shifts
  unfold refusals
  cases shifts with
  | halted | ended | recalled | remembered | destroys | destroyed => simp only [held]

private theorem refusals_fresh {refusal : Refusal} (member : refusal ∈ machine.refusals) :
    machine.simulation.nextUid.value.toNat ≤ refusal.event.key.uid.value.toNat := by
  unfold refusals at member
  split at member
  · exact Nat.le_of_eq (congrArg (·.value.toNat) (Simulation.answer_fresh member).symm)
  · exact Simulation.drainRefusals_fresh member
  · split at member
    · split at member
      · rename_i entered taken
        have fresh := Simulation.drainRefusals_fresh member
        have same := (Simulation.dequeue_eq_ok taken).inbox.2
        exact same ▸ fresh
      · cases member
    · cases member
  · have fresh := Simulation.drainRefusals_fresh member
    exact fresh
  · cases member

/-! ### What is heeded along a run -/

private theorem Stepped.heeds (stepped : Stepped body machine signals after)
    (heeds : machine.simulation.Heeds refused) :
    after.simulation.Heeds (refused ++ machine.refusals) := by
  have unrefused {later : Simulation σ β} (nothing : machine.refusals = [])
      (kept : later.Heeds refused) : later.Heeds (refused ++ machine.refusals) := by
    rwa [nothing, List.append_nil]
  cases stepped with
  | moved memory frames shifts => exact unrefused (refusals_moved shifts) heeds
  | ran result frames before next below here followed stays ended =>
      exact unrefused (refusals_stopped ⟨_, _, _, here⟩ stays) heeds
  | performed request next below value simulation here answered =>
      rw [refusals_performed here]
      exact heeds.answer request answered
  | begun next below simulation here began =>
      rw [refusals_begun here]
      exact heeds.beginRun began
  | starved simulation here taken goes =>
      exact unrefused (refusals_taken here taken nofun)
        (heeds.taken (Simulation.dequeue_eq_ok taken))
  | skipped entered simulation here taken left goes =>
      rw [refusals_skipped here goes taken]
      exact (heeds.taken (Simulation.dequeue_eq_ok taken)).leaveEvent left
  | fired key work simulation here taken goes =>
      exact unrefused (refusals_taken here taken nofun)
        (heeds.taken (Simulation.dequeue_eq_ok taken))
  | halted key simulation here taken goes =>
      have entered := heeds.taken (Simulation.dequeue_eq_ok taken)
      exact unrefused (refusals_taken here taken nofun)
        (entered.of_same rfl rfl rfl rfl fun _ => rfl)
  | finished below simulation here done =>
      rw [refusals_finished here]
      exact heeds.finishEvent done
  | destroying handle work destroyEvents next below here first =>
      have begun : Stepped body machine [.destroying handle work] _ :=
        .destroying handle work destroyEvents next below here first
      have nothing : machine.refusals = [] := by
        unfold refusals
        simp only [here]
      exact unrefused nothing (heeds.onward begun.onward rfl heeds.stopped)

private theorem Proceeds.heeds {start : Machine σ β μ} (begins : start.simulation.Heeds [])
    (reached : Proceeds body start history refused machine) :
    machine.simulation.Heeds refused := by
  refine reached.keeps (motive := fun noted machine => machine.simulation.Heeds noted.2) begins ?_
  exact fun _ _ stepped heeds => (step_eq_ok stepped).heeds heeds

/-- What a step invokes was given its number before. -/
theorem Stepped.invoked (stepped : Stepped body machine signals after)
    (regular : machine.simulation.Regular) {handle : Handle} :
    ∀ signal ∈ signals, signal.Invokes handle → handle.isDestroy = true ∨
      handle.key.uid.value.toNat < machine.simulation.nextUid.value.toNat := by
  have numbered {key : EventKey} {callback : Callback β} {simulation : Simulation σ β}
      (taken : machine.simulation.dequeue = .ok (.invoke key callback, simulation)) :
      key.uid.value.toNat < machine.simulation.nextUid.value.toNat :=
    regular.numbered key.uid callback (Simulation.dequeue_eq_ok taken).armed
  intro signal member invokes
  cases stepped with
  | moved | begun | starved | skipped | finished => cases member
  | ran | performed =>
      rw [List.mem_singleton.mp member] at invokes
      cases invokes
  | fired key work simulation here taken =>
      rw [List.mem_singleton.mp member] at invokes
      cases invokes with
      | fired _ _ same => exact .inr (same ▸ numbered taken)
  | halted key simulation here taken =>
      rw [List.mem_singleton.mp member] at invokes
      cases invokes with
      | fired _ _ same => exact .inr (same ▸ numbered taken)
  | destroying registered work destroyEvents next below here first =>
      have present : (registered, work) ∈ machine.simulation.destroyEvents := by
        rw [first]
        exact List.mem_cons_self
      rw [List.mem_singleton.mp member] at invokes
      cases invokes with
      | destroying => exact .inl (regular.registered _ present)

private theorem Proceeds.invoked {start : Machine σ β μ} (begins : start.simulation.Heeds [])
    (reached : Proceeds body start history refused machine) {handle : Handle} :
    ∀ signal ∈ history, signal.Invokes handle → handle.isDestroy = true ∨
      handle.key.uid.value.toNat < machine.simulation.nextUid.value.toNat := by
  refine reached.keeps (motive := fun noted machine =>
    ∀ signal ∈ noted.1, signal.Invokes handle → handle.isDestroy = true ∨
      handle.key.uid.value.toNat < machine.simulation.nextUid.value.toNat)
    (List.forall_mem_nil _) ?_
  rintro ⟨history, refused⟩ signals machine after earlier _ stepped ih signal member invokes
  have one := step_eq_ok stepped
  have known : handle.isDestroy = true ∨
      handle.key.uid.value.toNat < machine.simulation.nextUid.value.toNat := by
    rcases List.mem_append.mp member with before | now
    · exact ih signal before invokes
    · exact one.invoked (Proceeds.heeds begins earlier).regular signal now invokes
  exact known.imp_right fun below => Nat.lt_of_lt_of_le below one.onward.numbers

/-- Neither before nor after it was refused is an event invoked. -/
theorem Proceeds.uninvoked {start : Machine σ β μ} (begins : start.simulation.Heeds [])
    (reached : Proceeds body start history refused machine) :
    ∀ refusal ∈ refused, ∀ signal ∈ history, ¬ signal.Invokes refusal.handle := by
  refine reached.keeps (motive := fun noted _ =>
    ∀ refusal ∈ noted.2, ∀ signal ∈ noted.1, ¬ signal.Invokes refusal.handle)
    (List.forall_mem_nil _) ?_
  rintro ⟨history, refused⟩ signals machine after earlier _ stepped ih refusal among signal member
    invokes
  have one := step_eq_ok stepped
  have heeds : machine.simulation.Heeds refused := Proceeds.heeds begins earlier
  rcases List.mem_append.mp among with before | new
  · rcases List.mem_append.mp member with past | now
    · exact ih refusal before signal past invokes
    · exact one.silent heeds.regular (heeds.dropped refusal before).gone signal now invokes
  · have fresh := refusals_fresh new
    have queued := ((one.heeds heeds).dropped refusal among).queued
    have known : refusal.handle.isDestroy = true ∨ refusal.handle.key.uid.value.toNat <
        machine.simulation.nextUid.value.toNat := by
      rcases List.mem_append.mp member with past | now
      · exact Proceeds.invoked begins earlier signal past invokes
      · exact one.invoked heeds.regular signal now invokes
    rcases known with destroy | below
    · rw [queued] at destroy
      cases destroy
    · exact absurd below (Nat.not_lt.mpr fresh)

/-! ### After the first refusal -/

end Machine

/-- What is visible once a branch has ended: no callback of an event begins, and each run
answers the reason. -/
def Signal.AfterEnd (reason : String) : Signal σ β → Prop
  | .fired _ _ => False
  | .ran result => result = .error ⟨reason⟩
  | _ => True

namespace Machine

def Closed (first : Refusal) (machine : Machine σ β μ) : Prop :=
  ∃ others, machine.simulation.Heeds (first :: others)

variable [Hook σ] {body : β → Script σ β μ} {machine after : Machine σ β μ} {first : Refusal}
  {signals history : List (Signal σ β)} {refused : List Refusal} {below : List (Frame σ β μ)}

namespace Closed

omit [Hook σ] in
private theorem goesOn (closed : machine.Closed first) : machine.simulation.goesOn = false := by
  obtain ⟨others, heeds⟩ := closed
  exact heeds.goesOn (List.cons_ne_nil first others)

private theorem step (closed : machine.Closed first)
    (stepped : machine.step body = .ok (signals, after)) :
    after.Closed first := by
  obtain ⟨others, heeds⟩ := closed
  exact ⟨others ++ machine.refusals, (step_eq_ok stepped).heeds heeds⟩

private theorem step_signals (closed : machine.Closed first)
    (stepped : machine.step body = .ok (signals, after)) :
    ∀ signal ∈ signals, signal.AfterEnd first.reason := by
  have stays := closed.goesOn
  obtain ⟨others, heeds⟩ := closed
  intro signal member
  cases step_eq_ok stepped with
  | moved | begun | starved | skipped | finished => cases member
  | performed | destroying =>
      rw [List.mem_singleton.mp member]
      trivial
  | fired key work simulation here taken goes => cases stays.symm.trans goes
  | halted key simulation here taken goes => cases stays.symm.trans goes
  | ran result frames before next below here followed stays ended =>
      rw [List.mem_singleton.mp member]
      exact Except.ok.inj (ended.symm.trans (heeds.endRun before))

private theorem proceeds {told : List (Signal σ β)} {more : List Refusal} {later : Machine σ β μ}
    (closed : machine.Closed first) (reached : Proceeds body machine told more later) :
    later.Closed first ∧ ∀ signal ∈ told, signal.AfterEnd first.reason := by
  refine reached.keeps (motive := fun noted later =>
    later.Closed first ∧ ∀ signal ∈ noted.1, signal.AfterEnd first.reason)
    ⟨closed, List.forall_mem_nil _⟩ ?_
  rintro ⟨told, more⟩ signals machine after _ _ stepped ⟨reachedClosed, quiet⟩
  refine ⟨reachedClosed.step stepped, fun signal member => ?_⟩
  rcases List.mem_append.mp member with before | now
  · exact quiet signal before
  · exact reachedClosed.step_signals stepped signal now

private theorem ends {before : Nat} {next : Except BranchEnded RunSummary → Script σ β μ}
    (closed : machine.Closed first) (here : machine.frames = .running before next :: below) :
    machine.step body = .ok ([.ran (.error ⟨first.reason⟩)],
      { machine with frames := .script (next (.error ⟨first.reason⟩)) :: below }) := by
  have stays := closed.goesOn
  obtain ⟨others, heeds⟩ := closed
  exact step_ran here stays (heeds.endRun before)

private theorem runs {next : Except BranchEnded RunSummary → Script σ β μ}
    {drained : Simulation σ β}
    (closed : machine.Closed first) (here : machine.frames = .script (.run next) :: below)
    (merged : machine.simulation.drainInbox = .ok drained) :
    ∃ began, machine.step body = .ok ([], began) ∧
      began.step body = .ok ([.ran (.error ⟨first.reason⟩)],
        { began with frames := .script (next (.error ⟨first.reason⟩)) :: below }) := by
  obtain ⟨simulation, begun⟩ : ∃ simulation, machine.simulation.beginRun = .ok simulation := by
    unfold Simulation.beginRun
    simp only [merged, bind, Except.bind]
    split
    · exact ⟨_, rfl⟩
    · exact ⟨_, rfl⟩
  have stepped : machine.step body = _ := step_begun here begun
  exact ⟨_, stepped, (closed.step stepped).ends rfl⟩

private theorem completes_script (rest : Script σ β μ) :
    ∀ {machine : Machine σ β μ} {below : List (Frame σ β μ)}, machine.Closed first →
      machine.frames = .script rest :: below → Completes body below machine := by
  induction rest with
  | done => exact fun _ here => .stepped (step_script here) (.ended rfl)
  | fail fault => exact fun _ here => .failed (step_script here)
  | «recall» next ih =>
      intro machine below closed here
      have stepped : machine.step body = .ok ([], { machine with
          frames := .script (next machine.memory) :: below }) := step_script here
      exact .stepped stepped (ih machine.memory (closed.step stepped) rfl)
  | remember memory next ih =>
      intro machine below closed here
      have stepped : machine.step body = .ok ([], { machine with
          memory, frames := .script next :: below }) := step_script here
      exact .stepped stepped (ih (closed.step stepped) rfl)
  | perform request next ih =>
      intro machine below closed here
      cases answered : request.answer machine.simulation with
      | error fault =>
          have fails : machine.step body = .error fault := by
            rw [step_script here]
            simp only [stepScript, answered, bind, Except.bind]
          exact .failed fails
      | ok answer =>
          obtain ⟨value, simulation⟩ := answer
          have stepped : machine.step body = _ := step_performed here answered
          exact .stepped stepped (ih value (closed.step stepped) rfl)
  | run next ih =>
      intro machine below closed here
      cases merged : machine.simulation.drainInbox with
      | error fault =>
          have fails : machine.step body = .error fault := by
            rw [step_script here]
            simp only [stepScript, Simulation.beginRun, merged, bind, Except.bind]
          exact .failed fails
      | ok drained =>
          obtain ⟨began, stepped, ended⟩ := closed.runs here merged
          have beganClosed := closed.step stepped
          exact .stepped stepped (.stepped ended
            (ih (.error ⟨first.reason⟩) (beganClosed.step ended) rfl))
  | destroy next ih =>
      intro machine below closed here
      have stepped : machine.step body = .ok ([], { machine with
          frames := .destroying next :: below }) := step_script here
      have beganClosed := closed.step stepped
      exact .stepped stepped (.paused rfl fun history refused later reached resumed =>
        ih (beganClosed.proceeds reached).1 resumed)

private theorem completes {top : Frame σ β μ} (closed : machine.Closed first)
    (here : machine.frames = top :: below) : Completes body below machine := by
  cases top with
  | script rest => exact completes_script rest closed here
  | running before next =>
      have stepped : machine.step body = _ := closed.ends here
      exact .stepped stepped (completes_script _ (closed.step stepped) rfl)
  | firing =>
      cases finished : machine.simulation.finishEvent with
      | error fault =>
          have fails : machine.step body = .error fault := by
            unfold Machine.step
            simp only [here, finished]
            rfl
          exact .failed fails
      | ok simulation =>
          exact .stepped (step_finished here finished) (.ended rfl)
  | destroying next =>
      exact .paused here fun history refused later reached resumed =>
        completes_script next (closed.proceeds reached).1 resumed

end Closed

/-- What is true of a machine after these refusals, whatever its program is. -/
structure Abides (body : β → Script σ β μ) (start : Machine σ β μ)
    (history : List (Signal σ β)) (refused : List Refusal) (machine : Machine σ β μ) : Prop where
  noted : machine.simulation.terminated = refused.head?.map Refusal.reason
  /-- A refused request is answered with the handle of its event, and what has made it goes on. -/
  answers : ∀ {reply : Reply} (request : Request σ β reply) (next : reply.Value → Script σ β μ)
    (below : List (Frame σ β μ)), machine.frames = .script (.perform request next) :: below →
    ∀ refusal ∈ machine.refusals, ∀ signals after, machine.step body = .ok (signals, after) →
      ∃ value, signals = [.answered request value] ∧
        (Signal.answered request value : Signal σ β).Gives refusal.handle ∧
        after.frames = .script (next value) :: below
  /-- The handle of a refused event is expired, and calls to end it change nothing. -/
  expired : ∀ refusal ∈ refused,
    machine.simulation.isExpired refusal.handle = .ok true ∧
    machine.simulation.delayLeft refusal.handle = .ok 0 ∧
    machine.simulation.cancel refusal.handle = .ok machine.simulation ∧
    machine.simulation.remove refusal.handle = .ok machine.simulation
  uninvoked : ∀ refusal ∈ refused, ∀ signal ∈ history, ¬ signal.Invokes refusal.handle
  /-- After the first refusal no callback of an event begins, and each run answers its reason. -/
  absorbed : ∀ first ∈ refused.head?, ∀ told more later, Proceeds body machine told more later →
    ∀ signal ∈ told, signal.AfterEnd first.reason
  /-- A run that is going on ends with its next step. -/
  ends : ∀ first ∈ refused.head?, ∀ before next below,
    machine.frames = .running before next :: below →
      machine.step body = .ok ([.ran (.error ⟨first.reason⟩)],
        { machine with frames := .script (next (.error ⟨first.reason⟩)) :: below })
  /-- A run that begins ends with its next step, if the inbox can be merged. -/
  runs : ∀ first ∈ refused.head?, ∀ next below, machine.frames = .script (.run next) :: below →
    ∀ drained, machine.simulation.drainInbox = .ok drained →
      ∃ began, machine.step body = .ok ([], began) ∧
        began.step body = .ok ([.ran (.error ⟨first.reason⟩)],
          { began with frames := .script (next (.error ⟨first.reason⟩)) :: below })
  /-- A lawful program finds no fault with its inbox but in the requests themselves. -/
  merges : ∀ told, Reaches body start told machine →
    machine.simulation.Mergeable machine.simulation.inbox.drain.1 →
      ∃ drained, machine.simulation.drainInbox = .ok drained
  /-- What executes when the branch has ended is executed to its end. -/
  completes : refused ≠ [] → ∀ top below, machine.frames = top :: below →
    Completes body below machine

/-- A branch that has ended stays ended. Once an event has been refused, whatever is scheduled,
cancelled or replaced, the callback that executes comes to its end, no further callback of an
event begins, every run answers the reason of the first refusal, the refused events are never
invoked, and their handles stay expired. -/
theorem termination_absorbs (configuration : Queue.Configuration) (hook : σ)
    (valid : configuration.validate = .ok (.ok ())) (memory : μ) (script : Script σ β μ)
    (body : β → Script σ β μ) :
    ∃ simulation : Simulation σ β, Simulation.new configuration hook = .ok (.ok simulation) ∧
      ∀ history refused machine,
        Proceeds body (.start simulation memory script) history refused machine →
          Abides body (.start simulation memory script) history refused machine := by
  obtain ⟨simulation, started, booked⟩ := Simulation.booked_of_new hook valid
  refine ⟨simulation, started, fun history refused machine reached => ?_⟩
  obtain ⟨queue, _, fresh⟩ := Simulation.ofQueue_of_new started
  have begins : simulation.Heeds [] := fresh ▸ .ofQueue queue
  have heeds := reached.heeds begins
  have closed : ∀ first ∈ refused.head?, machine.Closed first := by
    intro first member
    obtain ⟨others, same⟩ := List.head?_eq_some_iff.mp member
    exact ⟨others, same ▸ heeds⟩
  constructor
  case noted => exact heeds.noted
  case answers =>
    intro reply request next below here refusal among signals after stepped
    rw [refusals_performed here] at among
    rw [step_script here] at stepped
    obtain ⟨⟨value, answer⟩, answered, returned⟩ := bind_eq_ok stepped
    cases returned
    exact ⟨value, rfl, Simulation.answer_gives among answered, rfl⟩
  case expired =>
    intro refusal among
    have expired := heeds.expired among
    exact ⟨expired, Simulation.delayLeft_of_expired expired,
      Simulation.cancel_of_expired expired,
      Simulation.remove_of_expired (heeds.dropped refusal among).queued expired⟩
  case uninvoked => exact reached.uninvoked begins
  case absorbed =>
    intro first member told more later following
    exact ((closed first member).proceeds following).2
  case ends =>
    intro first member before next below here
    exact (closed first member).ends here
  case runs =>
    intro first member next below here drained merged
    exact (closed first member).runs here merged
  case merges =>
    intro told lawful mergeable
    obtain ⟨keys, reachedBooked⟩ := lawful.booked booked
    exact reachedBooked.exists_drainInbox mergeable
  case completes =>
    intro some_ top below here
    obtain ⟨first, others, same⟩ := List.exists_cons_of_ne_nil some_
    exact (closed first (same ▸ rfl)).completes here

def refusingQueue : Queue.EventQueue Exploration.Seeded where
  configuration := { keepingConfiguration with exploration := .bounded 100 }
  layout := .single (.empty (.ofStrategies keepingConfiguration.strategies))
  perturbation := .new (.bounded 100)
  hook := .new 0 1200 [(Exploration.symbolicDelay, 500)]

def replacingAndScheduling : Bool → Script Exploration.Seeded Bool Unit
  | true =>
      .perform (.replaceQueue refusingQueue) fun _ =>
        .perform (.schedule (.within .global 5) false) fun _ => .done
  | false => .done

def twoEvents : Script Exploration.Seeded Bool Unit :=
  .perform (.schedule (.within .global 1) true) fun _ =>
    .perform (.schedule (.within .global 2) false) fun _ => .run fun _ => .done

/-- The second event is queued and next when an event is refused in the callback of the first,
and it is never invoked. -/
theorem termination_absorbs_pending :
    ∃ simulation history refused machine first, Simulation.new keepingConfiguration
        (Exploration.Seeded.new 0 1200 []) = .ok (.ok simulation) ∧
      Proceeds replacingAndScheduling (.start simulation () twoEvents) history refused machine ∧
      first ∈ refused.head? ∧ first.reason = Exploration.outOfRange ∧
      machine.simulation.queue.size = 1 ∧
      machine.simulation.isExpired first.handle = .ok true ∧
      ∀ told more later, Proceeds replacingAndScheduling machine told more later →
        ∀ signal ∈ told, signal.AfterEnd Exploration.outOfRange := by
  obtain ⟨simulation, started, abides⟩ := termination_absorbs keepingConfiguration
    (Exploration.Seeded.new 0 1200 []) rfl () twoEvents replacingAndScheduling
  have reached : ∃ history refused machine first,
      Proceeds replacingAndScheduling (.start simulation () twoEvents) history refused machine ∧
      first ∈ refused.head? ∧ first.reason = Exploration.outOfRange ∧
      machine.simulation.queue.size = 1 := by
    cases started
    exact ⟨_, _, _, _, .of_steps 6 rfl fun _ _ _ _ _ => trivial, rfl, rfl, rfl⟩
  obtain ⟨history, refused, machine, first, reached, head, reason, held⟩ := reached
  have abiding := abides history refused machine reached
  refine ⟨simulation, history, refused, machine, first, started, reached, head, reason, held,
    (abiding.expired first (List.mem_of_mem_head? head)).1, ?_⟩
  exact reason ▸ abiding.absorbed first head

end Machine

end EventKernel
