import Mathlib.Tactic.IntervalCases
import EventKernel.Proofs.CallbackAccounts

set_option autoImplicit false

/-! Every callback is consumed once. Whatever a lawful program does, what has been invoked is
what the ledger lists as invoked; a callback is invoked from its place in the queue, under the
key that it had there, and when a run ends of itself nothing is left to invoke. -/

namespace EventKernel

open Queue (Configuration EventQueue)
open Exploration (Hook)

variable {σ β μ : Type}

namespace Machine

variable [Hook σ] {body : β → Script σ β μ} {machine after : Machine σ β μ}
  {history signals : List (Signal σ β)} {ledger : List (Deposit β)} {entities : Nat}

omit [Hook σ] in
private theorem record_moved {frames : List (Frame σ β μ)} (shifts : Shifts machine.frames frames) :
    machine.record ledger [] after = ledger := by
  obtain ⟨simulation, memory, present⟩ := machine
  cases shifts with
  | halted | ended | recalled | remembered | destroys | destroyed => rfl

omit [Hook σ] in
private theorem record_performed {reply : Reply} {request : Request σ β reply}
    {next : reply.Value → Script σ β μ} {below : List (Frame σ β μ)}
    (here : machine.frames = .script (.perform request next) :: below) :
    machine.record ledger signals after =
      request.record machine.simulation after.simulation ledger := by
  unfold record
  rw [here]

omit [Hook σ] in
private theorem record_begun {next : Except BranchEnded RunSummary → Script σ β μ}
    {below : List (Frame σ β μ)} (here : machine.frames = .script (.run next) :: below) :
    machine.record ledger signals after =
      Deposit.mergeAll after.simulation.fateOf machine.simulation.nextUid ledger := by
  unfold record
  rw [here]

omit [Hook σ] in
private theorem record_finished {below : List (Frame σ β μ)}
    (here : machine.frames = .firing :: below) :
    machine.record ledger signals after =
      Deposit.mergeAll after.simulation.fateOf machine.simulation.nextUid ledger := by
  unfold record
  rw [here]

omit [Hook σ] in
private theorem record_ran {before : Nat} {next : Except BranchEnded RunSummary → Script σ β μ}
    {below : List (Frame σ β μ)} {result : Except BranchEnded RunSummary}
    (here : machine.frames = .running before next :: below) :
    machine.record ledger [.ran result] after = ledger := by
  unfold record
  rw [here]

omit [Hook σ] in
private theorem record_destroying {next : Script σ β μ} {below : List (Frame σ β μ)}
    (here : machine.frames = .destroying next :: below) :
    machine.record ledger signals after = ledger := by
  unfold record
  rw [here]

omit [Hook σ] in
private theorem record_fired (here : machine.IsRunning) {key : EventKey} {callback : Callback β} :
    machine.record ledger [.fired key callback] after = ledger.map (Deposit.invoke key) := by
  obtain ⟨before, next, below, top⟩ := here
  unfold record
  rw [top]

omit [Hook σ] in
private theorem record_skipped (here : machine.IsRunning) : machine.record ledger [] after =
    Deposit.mergeAll after.simulation.fateOf machine.simulation.nextUid ledger := by
  obtain ⟨before, next, below, top⟩ := here
  unfold record
  rw [top]

/-- What has been invoked is what the ledger lists, and each event once. -/
structure Audited (history : List (Signal σ β)) (ledger : List (Deposit β))
    (machine : Machine σ β μ) : Prop where
  /-- The ledger lists every callback that was given away, in order. -/
  deposits : ledger.map Deposit.callback = history.filterMap Signal.deposit?
  invocations : (history.filterMap Signal.fired?).Perm (ledger.filterMap Deposit.invoked?)
  once : ((history.filterMap Signal.fired?).map fun entry => entry.1.uid).Nodup
  /-- Only exploration refuses events, and then it has ended its branch. -/
  refusals : ∀ deposit ∈ ledger, deposit.fate = .refused → machine.simulation.terminated ≠ none

/-- What the next step does: a handle that is given out names the key of its callback in the
ledger; an event begins with the callback that was queued under its key, in the context and at
the instant of the key; and a run that ends of itself leaves nothing. -/
structure Fulfils (machine : Machine σ β μ) (ledger : List (Deposit β))
    (signals : List (Signal σ β)) (after : Machine σ β μ) : Prop where
  hands : ∀ signal ∈ signals, ∀ handle callback, signal.Gives handle →
    signal.deposit? = some callback → ∃ fate,
      machine.record ledger signals after = ledger ++ [⟨callback, fate⟩] ∧
        (fate = .queued handle.key ∨ fate = .refused)
  fires : ∀ key callback, .fired key callback ∈ signals → ⟨callback, .queued key⟩ ∈ ledger ∧
    after.simulation.context = key.context ∧ after.simulation.now = .ok key.ts
  ends : ∀ summary, .ran (.ok summary) ∈ signals → summary.stopped = false →
    ∀ deposit ∈ ledger, deposit.fate.isFinal = true

structure Accounted (entities : Nat) (history : List (Signal σ β)) (ledger : List (Deposit β))
    (machine : Machine σ β μ) : Prop where
  accounted : ∃ keys, machine.simulation.Accounted entities keys (Given history) ledger
  nested : Frame.Nested machine.frames
  /-- While a run takes events no request waits. -/
  idle : machine.IsRunning → machine.simulation.inbox.requests = []
  deposits : ledger.map Deposit.callback = history.filterMap Signal.deposit?
  invocations : (history.filterMap Signal.fired?).Perm (ledger.filterMap Deposit.invoked?)

namespace Accounted

omit [Hook σ] in
private theorem kept (accounted : machine.Accounted entities history ledger)
    {later : List (Deposit β)} {keys : List EventKey}
    (simulation : after.simulation.Accounted entities keys (Given (history ++ signals)) later)
    (nested : Frame.Nested after.frames)
    (idle : after.IsRunning → after.simulation.inbox.requests = [])
    (callbacks : later.map Deposit.callback =
      ledger.map Deposit.callback ++ signals.filterMap Signal.deposit?)
    (invoked : later.filterMap Deposit.invoked? = ledger.filterMap Deposit.invoked?)
    (unfired : signals.filterMap Signal.fired? = []) :
    after.Accounted entities (history ++ signals) later where
  accounted := ⟨keys, simulation⟩
  nested := nested
  idle := idle
  deposits := by rw [callbacks, List.filterMap_append, accounted.deposits]
  invocations := by
    rw [List.filterMap_append, unfired, List.append_nil, invoked]
    exact accounted.invocations

omit [Hook σ] in
private theorem merged (accounted : machine.Accounted entities history ledger)
    (simulation : (∃ keys, after.simulation.Accounted entities keys (Given history)
      (Deposit.mergeAll after.simulation.fateOf machine.simulation.nextUid ledger)) ∧
        after.simulation.inbox.requests = []) (nested : Frame.Nested after.frames) :
    after.Accounted entities (history ++ [])
      (Deposit.mergeAll after.simulation.fateOf machine.simulation.nextUid ledger) := by
  obtain ⟨⟨keys, kept⟩, nothing⟩ := simulation
  have same : Given (history ++ []) = Given history := by rw [List.append_nil]
  refine accounted.kept (same ▸ kept) nested (fun _ => nothing) ?_
    (Deposit.invoked_mergeAll after.simulation.fateOf_fresh _ ledger) rfl
  exact (Deposit.callbacks_mergeAll _ _ ledger).trans (List.append_nil _).symm

omit [Hook σ] in
private theorem fired (accounted : machine.Accounted entities history ledger) {key : EventKey}
    {callback : Callback β} {keys : List EventKey}
    (simulation : after.simulation.Accounted entities keys
      (Given (history ++ [.fired key callback])) (ledger.map (Deposit.invoke key)))
    (queued : ⟨callback, .queued key⟩ ∈ ledger)
    (nested : Frame.Nested after.frames) (busy : ¬ after.IsRunning) :
    after.Accounted entities (history ++ [.fired key callback])
      (ledger.map (Deposit.invoke key)) where
  accounted := ⟨keys, simulation⟩
  nested := nested
  idle := fun runs => absurd runs busy
  deposits := by
    rw [Deposit.callbacks_map fun deposit => (deposit.invoke_becomes key).1, List.filterMap_append,
      accounted.deposits]
    exact (List.append_nil _).symm
  invocations := by
    obtain ⟨_, before⟩ := accounted.accounted
    have invoked := Deposit.invoked_invoke before.backs.distinct queued
    rw [List.filterMap_append]
    exact (accounted.invocations.append_right _).trans
      (List.perm_append_comm.trans invoked.symm)

private theorem step (accounted : machine.Accounted entities history ledger)
    (lawful : machine.AsksLawfully history) (stepped : Stepped body machine signals after) :
    after.Accounted entities (history ++ signals) (machine.record ledger signals after) := by
  have nested := stepped.nested accounted.nested
  obtain ⟨keys, before⟩ := accounted.accounted
  cases stepped with
  | moved memory frames shifts =>
      rw [record_moved shifts]
      refine accounted.kept (by rw [List.append_nil]; exact before) nested ?_
        (List.append_nil _).symm rfl rfl
      rintro ⟨depth, next, below, top⟩
      have still := (shifts.nested accounted.nested).2 (.running depth next)
      simp only at top
      rw [top] at still
      cases still rfl
  | ran result frames depth next below here followed stays ended =>
      rw [record_ran here]
      refine accounted.kept (before.told fun _ gives => nomatch gives) nested ?_
        (List.append_nil _).symm rfl rfl
      rintro ⟨_, _, _, top⟩
      rw [followed] at top
      cases top
  | performed request next below value simulation here answered =>
      rw [record_performed here]
      obtain ⟨others, kept⟩ := before.answer (lawful _ request next below here) answered
      refine accounted.kept kept nested ?_ (request.record_callbacks value ledger)
        (request.record_invoked ledger) rfl
      rintro ⟨_, _, _, top⟩
      cases top
  | begun next below simulation here began =>
      rw [record_begun here]
      exact accounted.merged (before.beginRun began) nested
  | starved simulation here taken =>
      have nothing := accounted.idle here
      have waiting := before.backs.waiting
      rw [nothing] at waiting
      rw [record_skipped here, Deposit.mergeAll_nothing _ _ waiting]
      obtain ⟨others, kept, _⟩ := before.dequeue taken
      refine accounted.kept (by rw [List.append_nil]; exact kept) nested
        (fun _ => ?_) (List.append_nil _).symm rfl rfl
      rw [(Simulation.dequeue_eq_ok taken).inbox.1]
      exact nothing
  | skipped entered simulation here taken left =>
      rw [record_skipped here]
      obtain ⟨others, kept, _⟩ := before.dequeue taken
      have merged := kept.leaveEvent left
      rw [(Simulation.dequeue_eq_ok taken).inbox.2] at merged
      exact accounted.merged merged nested
  | fired key work simulation here taken =>
      rw [record_fired here]
      obtain ⟨others, kept, queued⟩ := before.dequeue taken
      refine accounted.fired (kept.told fun _ gives => nomatch gives) (queued _ _ rfl) nested ?_
      rintro ⟨_, _, _, top⟩
      cases top
  | halted key simulation here taken =>
      rw [record_fired here]
      obtain ⟨others, kept, queued⟩ := before.dequeue taken
      have stopped : simulation.stop.Accounted entities others (Given history)
          (ledger.map (Deposit.invoke key)) := kept.of_same rfl rfl rfl rfl rfl rfl rfl
      refine accounted.fired (stopped.told fun _ gives => nomatch gives) (queued _ _ rfl) nested ?_
      rintro ⟨_, _, _, top⟩
      cases top
  | finished below simulation here done =>
      rw [record_finished here]
      exact accounted.merged (before.finishEvent done) nested
  | destroying handle work destroyEvents next below here first =>
      have kept : Simulation.Accounted { machine.simulation with destroyEvents } entities keys
          (Given history) ledger := before.of_same rfl rfl rfl rfl rfl rfl rfl
      rw [record_destroying here]
      refine accounted.kept (kept.told fun _ gives => nomatch gives) nested ?_
        (List.append_nil _).symm rfl rfl
      rintro ⟨_, _, _, top⟩
      cases top

private theorem hands (accounted : machine.Accounted entities history ledger)
    (stepped : Stepped body machine signals after) {signal : Signal σ β} (member : signal ∈ signals)
    {handle : Handle} {callback : Callback β} (gives : signal.Gives handle)
    (deposit : signal.deposit? = some callback) :
    ∃ fate, machine.record ledger signals after = ledger ++ [⟨callback, fate⟩] ∧
      (fate = .queued handle.key ∨ fate = .refused) := by
  obtain ⟨keys, before⟩ := accounted.accounted
  cases stepped with
  | performed request next below value simulation here answered =>
      rw [record_performed here]
      rw [List.mem_singleton.mp member] at gives deposit
      cases gives with
      | scheduled placement work =>
          cases deposit
          obtain ⟨_, _, _, fate⟩ := before.backs.schedule before.booked answered
          exact ⟨_, rfl, fate⟩
      | bounded delay =>
          cases deposit
          obtain ⟨_, _, _, fate⟩ := before.backs.schedule before.booked answered
          exact ⟨_, rfl, fate⟩
      | registered work => cases deposit
  | moved | begun | starved | skipped | finished => cases member
  | ran | fired | halted | destroying =>
      rw [List.mem_singleton.mp member] at gives
      cases gives

private theorem fires (accounted : machine.Accounted entities history ledger)
    (stepped : Stepped body machine signals after) {key : EventKey} {callback : Callback β}
    (member : .fired key callback ∈ signals) : ⟨callback, .queued key⟩ ∈ ledger ∧
      after.simulation.context = key.context ∧ after.simulation.now = .ok key.ts := by
  obtain ⟨keys, before⟩ := accounted.accounted
  cases stepped with
  | fired _ work simulation here taken =>
      obtain ⟨_, _, queued⟩ := before.dequeue taken
      cases List.mem_singleton.mp member
      exact ⟨queued _ _ rfl, (Simulation.dequeue_eq_ok taken).begins⟩
  | halted _ simulation here taken =>
      obtain ⟨_, _, queued⟩ := before.dequeue taken
      cases List.mem_singleton.mp member
      exact ⟨queued _ _ rfl, (Simulation.dequeue_eq_ok taken).begins⟩
  | moved | begun | starved | skipped | finished => cases member
  | ran | performed | destroying => cases List.mem_singleton.mp member

private theorem ends (accounted : machine.Accounted entities history ledger)
    (stepped : Stepped body machine signals after) {summary : RunSummary}
    (member : .ran (.ok summary) ∈ signals) (unstopped : summary.stopped = false) :
    ∀ deposit ∈ ledger, deposit.fate.isFinal = true := by
  obtain ⟨keys, before⟩ := accounted.accounted
  cases stepped with
  | ran result frames depth next below here followed stays ended =>
      cases List.mem_singleton.mp member
      exact before.settled (accounted.idle ⟨depth, next, below, here⟩)
        (Simulation.exhausted_of_endRun ended unstopped stays)
  | moved | begun | starved | skipped | finished => cases member
  | performed | fired | halted | destroying => cases List.mem_singleton.mp member

omit [Hook σ] in
private theorem audited (accounted : machine.Accounted entities history ledger) :
    machine.Audited history ledger where
  deposits := accounted.deposits
  invocations := accounted.invocations
  once := by
    obtain ⟨_, before⟩ := accounted.accounted
    have listed := (accounted.invocations.map Prod.fst).map EventKey.uid
    rw [List.map_map] at listed
    refine (listed.nodup_iff).mpr ?_
    exact before.backs.distinct.sublist ((Deposit.invoked_sublist ledger).map _)
  refusals := by
    obtain ⟨_, before⟩ := accounted.accounted
    exact before.backs.refusals

end Accounted

private theorem Accounts.accounted {start : Machine σ β μ}
    (begins : start.Accounted entities [] [])
    (accounts : Accounts body [] [] start history ledger machine) :
    machine.Accounted entities history ledger := by
  refine accounts.keeps (motive := fun noted machine =>
    machine.Accounted entities noted.1 noted.2) begins ?_
  exact fun _ lawful stepped accounted => accounted.step lawful (step_eq_ok stepped)

end Machine

/-- Every callback is consumed once, whatever lawful program gives it away. Fates only go on, so a
callback that was withdrawn, disposed or refused is never invoked; each invocation takes one
callback from its place in the queue; and when a run ends of itself none is left open. -/
theorem Machine.callbacks_consumed_once (configuration : Configuration) (hook : σ)
    (valid : configuration.validate = .ok (.ok ())) [Hook σ] (memory : μ) (script : Script σ β μ)
    (body : β → Script σ β μ) :
    ∃ simulation : Simulation σ β, Simulation.new configuration hook = .ok (.ok simulation) ∧
      ∀ history ledger machine,
        Accounts body [] [] (.start simulation memory script) history ledger machine →
        machine.Audited history ledger ∧
        (∀ onward later last, Accounts body history ledger machine onward later last →
          Deposit.Progress ledger later) ∧
        ∀ signals after, machine.step body = .ok (signals, after) →
          machine.Fulfils ledger signals after := by
  obtain ⟨simulation, started, booked⟩ := Simulation.booked_of_new hook valid
  have begins : Accounted configuration.entities [] [] (start simulation memory script) := by
    obtain ⟨answer, built, rest⟩ := bind_eq_ok started
    cases answer with
    | error error => cases rest
    | ok queue =>
        cases rest
        refine ⟨⟨[], booked, ⟨rfl, ?_, ?_, .nil, ?_, ?_⟩, fun _ => rfl⟩, ⟨?_, trivial⟩, ?_, rfl,
          .nil⟩
        · exact fun _ _ impossible => nomatch impossible
        · exact fun _ impossible => nomatch impossible
        · exact fun _ impossible => nomatch impossible
        · exact fun _ impossible => nomatch impossible
        · exact fun _ impossible => nomatch impossible
        · exact fun _ => rfl
  refine ⟨simulation, started, fun history ledger machine accounts => ?_⟩
  have accounted := accounts.accounted begins
  refine ⟨accounted.audited, fun onward later last following => following.progress,
    fun signals after stepped => ?_⟩
  have one := step_eq_ok stepped
  exact ⟨fun _ member _ _ => accounted.hands one member, fun _ _ => accounted.fires one,
    fun _ => accounted.ends one⟩

def requestingAndCancelling : Script Exploration.Silent Nat Unit :=
  .perform (.schedule (.within .global 1) 1) fun handle =>
    .perform (.requestRemote .global 0 2) fun _ =>
      .perform (.cancel handle) fun _ => .run fun _ => .done

/-- A request from outside is invoked, and an event that was cancelled is passed over. -/
theorem Machine.callbacks_consumed_once_cancelled :
    ∃ simulation history machine after summary,
      Simulation.new keepingConfiguration Exploration.Silent.silent = .ok (.ok simulation) ∧
      Accounts (fun _ => .done) [] [] (.start simulation () requestingAndCancelling) history
        [⟨.user 1, .withdrawn⟩, ⟨.user 2, .invoked ⟨⟨0⟩, ⟨5⟩, .global⟩⟩] machine ∧
      machine.step (fun _ => .done) = .ok ([.ran (.ok summary)], after) ∧
      summary.stopped = false ∧
      machine.Audited history
        [⟨.user 1, .withdrawn⟩, ⟨.user 2, .invoked ⟨⟨0⟩, ⟨5⟩, .global⟩⟩] ∧
      machine.Fulfils [⟨.user 1, .withdrawn⟩, ⟨.user 2, .invoked ⟨⟨0⟩, ⟨5⟩, .global⟩⟩]
        [.ran (.ok summary)] after := by
  obtain ⟨simulation, started, consumed⟩ := Machine.callbacks_consumed_once keepingConfiguration
    Exploration.Silent.silent rfl () requestingAndCancelling fun _ => .done
  have reached : ∃ history ledger machine after summary,
      Accounts (fun _ => .done) [] [] (.start simulation () requestingAndCancelling) history
        ledger machine ∧
      ledger = [⟨.user 1, .withdrawn⟩, ⟨.user 2, .invoked ⟨⟨0⟩, ⟨5⟩, .global⟩⟩] ∧
      machine.step (fun _ => .done) = .ok ([.ran (.ok summary)], after) ∧
      summary.stopped = false := by
    cases started
    refine ⟨_, _, _, _, _, .of_steps 8 rfl ?_, rfl, rfl, rfl⟩
    intro fewer below past before taken reply request next under here
    interval_cases fewer <;> cases taken <;> cases here
    · trivial
    · trivial
    · exact ⟨_, List.mem_cons_self, .scheduled _ _⟩
  obtain ⟨history, ledger, machine, after, summary, accounts, rfl, stepped, unstopped⟩ := reached
  obtain ⟨audited, _, fulfils⟩ := consumed history _ machine accounts
  exact ⟨simulation, history, machine, after, summary, started, accounts, stepped, unstopped,
    audited, fulfils _ after stepped⟩

end EventKernel
