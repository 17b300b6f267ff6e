import EventKernel.Proofs.EventFollowers
import EventKernel.Proofs.StopRequests
import EventKernel.Proofs.StrategyLockstep

set_option autoImplicit false

/-! A program and the same program divided into more runs. The callbacks of the second may ask for
a stop wherever they like, for reasons of their own: they have a memory that the first does not
see, and may look at the simulation. In turn each run of the first is a loop in the second, which
runs again until it has not been stopped. What the pieces of such a run report is put together
into what one run would report. -/

namespace EventKernel

open Exploration (Hook)
open Simulation (Restopped)

variable {σ β μ ν : Type}

namespace Request.Looks

variable {reply : Reply} {request : Request σ β reply} (looks : request.Looks)

include looks

theorem lawful (history : List (Signal σ β)) : request.Lawful history := by
  cases request with
  | now | currentContext | pending | remotePending | describe | detail | trace | configuration =>
      trivial
  | _ => exact looks.elim

theorem gives_nothing (value : reply.Value) (handle : Handle) :
    ¬ (Signal.answered request value).Gives handle := by
  intro gives
  cases gives with
  | scheduled | registered | bounded => exact looks.elim

end Request.Looks

/-- What follows one piece of a run: another piece if this one was stopped, and otherwise what
follows the run, which counts the callbacks of all pieces. -/
def Script.pieced (next : Except BranchEnded RunSummary → Script σ β μ)
    (again : Nat → Script σ β μ) (earlier : Nat) :
    Except BranchEnded RunSummary → Script σ β μ
  | .ok summary =>
      if summary.stopped then again (earlier + summary.processed)
      else next (.ok { summary with processed := earlier + summary.processed })
  | .error ended => next (.error ended)

/-- Runs until a run has not been stopped, but at most so many times. -/
def Script.resume (next : Except BranchEnded RunSummary → Script σ β μ) :
    Nat → Nat → Script σ β μ
  | 0, _ => .done
  | limit + 1, earlier => .run (pieced next (resume next limit) earlier)

/-- The same script twice, except that the second may ask for a stop, look at the simulation, and
use a memory of which the first sees only a part; and that it runs again until it is not stopped.
The second finds the memory `present`. -/
inductive Script.Interrupts (limit : Nat) (seen : ν → μ) :
    ν → Script σ β μ → Script σ β ν → Prop
  | done (present : ν) : Interrupts limit seen present .done .done
  | fail (present : ν) (fault : Fault) : Interrupts limit seen present (.fail fault) (.fail fault)
  | recall {present : ν} {next : μ → Script σ β μ} {other : ν → Script σ β ν}
      (follow : Interrupts limit seen present (next (seen present)) (other present)) :
      Interrupts limit seen present (.recall next) (.recall other)
  | remember {present : ν} (later : ν) {next : Script σ β μ} {other : Script σ β ν}
      (follow : Interrupts limit seen later next other) :
      Interrupts limit seen present (.remember (seen later) next) (.remember later other)
  | perform {present : ν} {reply : Reply} {request : Request σ β reply}
      {next : reply.Value → Script σ β μ} {other : reply.Value → Script σ β ν}
      (follow : ∀ value, Interrupts limit seen present (next value) (other value)) :
      Interrupts limit seen present (.perform request next) (.perform request other)
  | run {present : ν} {next : Except BranchEnded RunSummary → Script σ β μ}
      {other : Except BranchEnded RunSummary → Script σ β ν}
      (follow : ∀ later result, Interrupts limit seen later (next result) (other result)) :
      Interrupts limit seen present (.run next) (.resume other limit 0)
  | destroy {present : ν} {next : Script σ β μ} {other : Script σ β ν}
      (follow : ∀ later, Interrupts limit seen later next other) :
      Interrupts limit seen present (.destroy next) (.destroy other)
  | stop {present : ν} {next : Script σ β μ} {other : Unit → Script σ β ν}
      (follow : Interrupts limit seen present next (other ())) :
      Interrupts limit seen present next (.perform .stop other)
  | look {present : ν} {reply : Reply} {request : Request σ β reply} {next : Script σ β μ}
      {other : reply.Value → Script σ β ν} (looks : request.Looks)
      (follow : ∀ value, Interrupts limit seen present next (other value)) :
      Interrupts limit seen present next (.perform request other)
  | consult {present : ν} {next : Script σ β μ} {other : ν → Script σ β ν}
      (follow : Interrupts limit seen present next (other present)) :
      Interrupts limit seen present next (.recall other)
  | note {present : ν} (later : ν) {next : Script σ β μ} {other : Script σ β ν}
      (same : seen later = seen present) (follow : Interrupts limit seen later next other) :
      Interrupts limit seen present next (.remember later other)

namespace Machine

/-- Callbacks neither run the simulation nor ask for a stop. -/
structure Undivided (machine : Machine σ β μ) : Prop where
  runs : machine.RunsOutside
  stops : ∀ (next : Unit → Script σ β μ) (below : List (Frame σ β μ)),
    machine.frames = .script (.perform .stop next) :: below → below = []

/-- The next step asks nothing of the simulation and begins no run. -/
def asksNothing (machine : Machine σ β μ) : Bool :=
  match machine.frames with
  | .script (.perform _ _) :: _ => false
  | .script (.run _) :: _ => false
  | _ => true

section

variable {machine : Machine σ β μ} (nothing : machine.asksNothing = true)

include nothing

theorem AsksLawfully.of_asksNothing {history : List (Signal σ β)} :
    machine.AsksLawfully history := by
  refine .of_silent fun reply request next below here => ?_
  unfold asksNothing at nothing
  rw [here] at nothing
  cases nothing

theorem RunsOutside.of_asksNothing : machine.RunsOutside := by
  intro next below here
  unfold asksNothing at nothing
  rw [here] at nothing
  cases nothing

end

theorem RunsOutside.of_request {machine : Machine σ β μ} {reply : Reply}
    {request : Request σ β reply} {next : reply.Value → Script σ β μ} {below : List (Frame σ β μ)}
    (here : machine.frames = .script (.perform request next) :: below) : machine.RunsOutside := by
  intro _ _ same
  cases here.symm.trans same

end Machine

/-- A callback that begins or a run that ends, with the whole state of the simulation then, but
for the request to stop. -/
structure Report (σ β : Type) where
  signal : Signal σ β
  simulation : Simulation σ β

def Signal.report? (after : Simulation σ β) : Signal σ β → Option (Report σ β)
  | .answered _ _ => none
  | signal => some ⟨signal, after.calm⟩

/-- Reports put together, with the number of callbacks that the pieces of a run have invoked
which is not over. -/
structure Digest (σ β : Type) where
  earlier : Nat
  reports : List (Report σ β)

namespace Digest

def add (digest : Digest σ β) (report : Report σ β) : Digest σ β :=
  match report.signal with
  | .ran (.ok summary) =>
      if summary.stopped then { digest with earlier := digest.earlier + summary.processed }
      else ⟨0, digest.reports ++ [⟨.ran (.ok
        { summary with processed := digest.earlier + summary.processed }), report.simulation⟩]⟩
  | .ran (.error ended) => ⟨0, digest.reports ++ [⟨.ran (.error ended), report.simulation⟩]⟩
  | signal => { digest with reports := digest.reports ++ [⟨signal, report.simulation⟩] }

def ofReports (reports : List (Report σ β)) : Digest σ β := reports.foldl add ⟨0, []⟩

theorem ofReports_append (reports others : List (Report σ β)) :
    ofReports (reports ++ others) = others.foldl add (ofReports reports) :=
  List.foldl_append

end Digest

def Report.together (reports : List (Report σ β)) : List (Report σ β) :=
  (Digest.ofReports reports).reports

namespace Machine

/-- The machines that a lawful program reaches while all of them are of one kind, each with what
was visible on the way and what was reported. -/
def Tells [Hook σ] (kind : Machine σ β μ → Prop) (body : β → Script σ β μ)
    (start : Machine σ β μ) (history : List (Signal σ β)) (reports : List (Report σ β))
    (machine : Machine σ β μ) : Prop :=
  LeadsTo body ((Watch.lawful.only kind).beside (Watch.seen Signal.report?)) ([], []) start
    (history, reports) machine

/-- The books agree, the inbox tells whether anything waits, and the clock of the current context
can be read. -/
structure Settled (machine : Machine σ β μ) (entities : Nat) (history : List (Signal σ β)) :
    Prop where
  booked : ∃ keys, machine.simulation.Booked entities keys (Given history)
  hinted : machine.simulation.inbox.Hinted
  located : ∃ instant, machine.simulation.now = .ok instant

variable [Hook σ] {kind : Machine σ β μ → Prop} {body : β → Script σ β μ}
  {start machine after : Machine σ β μ} {history signals : List (Signal σ β)}
  {reports : List (Report σ β)} {entities : Nat}

omit [Hook σ] in
private theorem located_outside {simulation : Simulation σ β}
    (outside : simulation.context = .global) : ∃ instant, simulation.now = .ok instant := by
  refine ⟨simulation.globalClock.now, ?_⟩
  unfold Simulation.now Simulation.nowIn
  rw [outside]
  rfl

private theorem Stepped.located (stepped : Stepped body machine signals after)
    (located : ∃ instant, machine.simulation.now = .ok instant) :
    ∃ instant, after.simulation.now = .ok instant := by
  cases stepped with
  | moved | ran | destroying => exact located
  | performed request next below value simulation here answered =>
      rcases Simulation.Continues.answer answered with continues | ⟨_, rfl⟩
      · exact Simulation.now_of_bearings continues.bearings ▸ located
      · exact located
  | begun next below simulation here began =>
      exact Simulation.now_of_bearings (Simulation.flag_of_beginRun began).1 ▸ located
  | starved simulation here taken =>
      generalize same : Simulation.Dequeued.nothing = dequeued at taken
      cases Simulation.dequeue_eq_ok taken with
      | nothing queue popped => exact located
      | entered queue event unscheduled advanced slot popped one moved found =>
          cases slot with
          | armed | cancelled => cases same
  | skipped entered simulation here taken left =>
      have drained := Simulation.Continues.drainInbox left
      exact located_outside (congrArg Bearings.context drained.bearings)
  | fired key work simulation here taken =>
      exact ⟨key.ts, (Simulation.dequeue_eq_ok taken).begins.2⟩
  | halted key simulation here taken =>
      exact ⟨key.ts, (Simulation.dequeue_eq_ok taken).begins.2⟩
  | finished below simulation here done =>
      exact located_outside (Simulation.Continues.finishEvent done).1

private theorem Stepped.settled (stepped : Stepped body machine signals after)
    (lawful : machine.AsksLawfully history) (settled : machine.Settled entities history) :
    after.Settled entities (history ++ signals) := by
  obtain ⟨⟨keys, booked⟩, hinted, located⟩ := settled
  exact ⟨stepped.booked lawful booked, stepped.hinted hinted, stepped.located located⟩

theorem Tells.settled (settled : start.Settled entities [])
    (tells : Tells kind body start history reports machine) : machine.Settled entities history := by
  refine tells.keeps (motive := fun noted machine => machine.Settled entities noted.1) settled ?_
  exact fun _ allowed stepped settled => (step_eq_ok stepped).settled allowed.1 settled

theorem Stepped.alive (stepped : Stepped body machine signals after)
    (alive : after.simulation.terminated = none) : machine.simulation.terminated = none := by
  cases stepped with
  | moved | ran | destroying => exact alive
  | performed request next below value simulation here answered =>
      rcases Simulation.Continues.answer answered with continues | ⟨_, rfl⟩
      · exact (continues.flag alive).1
      · exact alive
  | begun next below simulation here began =>
      exact ((Simulation.flag_of_beginRun began).2.2 alive).1
  | starved simulation here taken =>
      exact (Simulation.dequeue_eq_ok taken).flag.2.2.symm.trans alive
  | skipped entered simulation here taken left =>
      exact (Simulation.dequeue_eq_ok taken).flag.2.2.symm.trans
        ((Simulation.Continues.drainInbox left).flag alive).1
  | fired key work simulation here taken =>
      exact (Simulation.dequeue_eq_ok taken).flag.2.2.symm.trans alive
  | halted key simulation here taken =>
      exact (Simulation.dequeue_eq_ok taken).flag.2.2.symm.trans alive
  | finished below simulation here done =>
      exact ((Simulation.Continues.finishEvent done).2.2 alive).1

theorem Tells.step (tells : Tells kind body start history reports machine)
    (lawful : machine.AsksLawfully history) (holds : kind machine)
    (stepped : machine.step body = .ok (signals, after)) :
    Tells kind body start (history ++ signals)
      (reports ++ signals.filterMap (Signal.report? after.simulation)) after :=
  LeadsTo.step tells ⟨lawful, holds⟩ stepped

theorem Tells.silently (tells : Tells kind body start history reports machine)
    (lawful : machine.AsksLawfully history) (holds : kind machine)
    (stepped : machine.step body = .ok ([], after)) :
    Tells kind body start history reports after :=
  LeadsTo.of_eq (tells.step lawful holds stepped)
    (Prod.ext (List.append_nil history) (List.append_nil reports))

theorem Tells.answering (tells : Tells kind body start history reports machine)
    (lawful : machine.AsksLawfully history) (holds : kind machine) {reply : Reply}
    {request : Request σ β reply} {value : reply.Value}
    (stepped : machine.step body = .ok ([.answered request value], after)) :
    Tells kind body start (history ++ [.answered request value]) reports after :=
  LeadsTo.of_eq (tells.step lawful holds stepped) (Prod.ext rfl (List.append_nil reports))

end Machine

end EventKernel
