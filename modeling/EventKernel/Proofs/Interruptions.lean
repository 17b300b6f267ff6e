import Mathlib.Tactic.IntervalCases
import EventKernel.Proofs.ResumedRuns
import EventKernel.Proofs.StoppedRuns
import EventKernel.Proofs.StrategyIndependence

set_option autoImplicit false

/-! Stopping a run and running again is the same as not stopping. Whatever stops are added to the
callbacks of a program, runs that are repeated until they are not stopped invoke the same callbacks
in the same states, count as many of them, and leave the same state behind. And each run that was
stopped has ended right after the event whose callback asked for it. -/

namespace EventKernel

open Queue (Configuration EventQueue)
open Exploration (Hook)
open Simulation (Restopped)

variable {σ β μ ν : Type}

namespace Machine

/-- What an execution of the divided program has in common with one of the undivided program. -/
structure Repeats [Hook σ] (partner : β → Script σ β ν) (seen : ν → μ) (start : Machine σ β ν)
    (told : List (Report σ β)) (machine : Machine σ β μ) (past : List (Signal σ β))
    (reports : List (Report σ β)) (second : Machine σ β ν) : Prop where
  tells : Tells RunsOutside partner start past reports second
  together : Report.together reports = told
  simulation : second.simulation.calm = machine.simulation.calm
  memory : seen second.memory = machine.memory

section

variable [Hook σ] {body : β → Script σ β μ} {partner : β → Script σ β ν} {limit entities : Nat}
  {seen : ν → μ} {first machine : Machine σ β μ} {start second : Machine σ β ν}
  {history past : List (Signal σ β)} {told reports : List (Report σ β)} {earlier : Nat}
  (bodies : ∀ work present, (body work).Interrupts limit seen present (partner work))

private theorem Joined.repeats (joined : Joined limit seen history past earlier machine second)
    (tells : Tells RunsOutside partner start past reports second)
    (digest : Digest.ofReports reports = ⟨earlier, told⟩) :
    Repeats partner seen start told machine past reports second :=
  ⟨tells, congrArg Digest.reports digest, joined.kept.calm_eq, joined.sees⟩

private theorem Meets.repeats
    (meets : Meets body partner limit seen start history told machine past reports earlier second) :
    Repeats partner seen start told machine past reports second :=
  ⟨meets.accompanies.tells, congrArg Digest.reports meets.accompanies.digest,
    meets.accompanies.kept.calm_eq, meets.accompanies.sees⟩

include bodies

/-- The divided program comes to every machine of the undivided one. -/
theorem Tells.joined (settled : first.Settled entities [])
    (together : Joined limit seen [] [] 0 first start)
    (tells : Tells Undivided body first history told machine)
    (alive : machine.simulation.terminated = none) (calm : ∀ key, .fired key .stop ∉ history)
    (short : history.length < limit) :
    ∃ past reports earlier second, Tells RunsOutside partner start past reports second ∧
      Digest.ofReports reports = ⟨earlier, told⟩ ∧
        Joined limit seen history past earlier machine second := by
  refine tells.keeps (motive := fun noted machine => machine.simulation.terminated = none →
    (∀ key, .fired key .stop ∉ noted.1) → noted.1.length < limit →
      ∃ past reports earlier second, Tells RunsOutside partner start past reports second ∧
        Digest.ofReports reports = ⟨earlier, noted.2⟩ ∧
          Joined limit seen noted.1 past earlier machine second) ?_ ?_ alive calm short
  · exact fun _ _ _ => ⟨[], [], 0, start, .start, rfl, together⟩
  · rintro ⟨history, told⟩ signals machine after before ⟨lawful, undivided⟩ stepped ih alive calm
      short
    have steps := step_eq_ok stepped
    have fewer : history.length < limit := by
      refine Nat.lt_of_le_of_lt ?_ short
      exact (List.sublist_append_left history signals).length_le
    obtain ⟨past, reports, earlier, second, otherTells, digest, joined⟩ :=
      ih (steps.alive alive) (fun key member => calm key (List.mem_append_left _ member)) fewer
    have ready : Ready limit entities history machine :=
      ⟨Tells.settled settled before, lawful, undivided, steps.alive alive, fewer⟩
    obtain ⟨past, reports, earlier, second, meets⟩ :=
      joined.meets bodies ready otherTells digest
    obtain ⟨⟨others, later⟩, otherStepped, resumes⟩ := meets.alike.returns stepped
    obtain ⟨count, further, same⟩ := resumes alive fun key member =>
      calm key (List.mem_append_right _ member)
    refine ⟨_, _, count, later, meets.accompanies.tells.step meets.lawful meets.outside
      otherStepped, ?_, further⟩
    rw [Digest.ofReports_append, meets.accompanies.digest]
    exact same

/-- Where the undivided program ends, so does the divided one. -/
theorem Tells.ends (settled : first.Settled entities [])
    (together : Joined limit seen [] [] 0 first start)
    (tells : Tells Undivided body first history told machine)
    (alive : machine.simulation.terminated = none) (calm : ∀ key, .fired key .stop ∉ history)
    (short : history.length < limit) (undivided : machine.Undivided) {ending : Option Fault}
    (ends : Ends body history machine ending) :
    ∃ past reports second, Repeats partner seen start told machine past reports second ∧
      Ends partner past second ending := by
  obtain ⟨past, reports, earlier, second, otherTells, digest, joined⟩ :=
    tells.joined bodies settled together alive calm short
  cases ends with
  | through halted =>
      refine ⟨past, reports, second, joined.repeats otherTells digest, .through ?_⟩
      have stands := joined.frames
      rw [halted] at stands
      generalize second.frames = frames at stands
      cases stands with
      | waits lower =>
          cases lower
          rfl
  | failed fault lawful stepped =>
      have ready : Ready limit entities history machine :=
        ⟨tells.settled settled, lawful, undivided, alive, short⟩
      obtain ⟨past, reports, earlier, second, meets⟩ :=
        joined.meets bodies ready otherTells digest
      exact ⟨past, reports, second, meets.repeats,
        .failed fault meets.lawful (meets.alike.fails stepped)⟩

end

private theorem settled_of_new {configuration : Configuration} (hook : σ)
    (valid : configuration.validate = .ok (.ok ())) :
    ∃ simulation : Simulation σ β, Simulation.new configuration hook = .ok (.ok simulation) ∧
      ∀ (memory : μ) (script : Script σ β μ),
        (start simulation memory script).Settled configuration.entities [] := by
  obtain ⟨simulation, started, booked⟩ := Simulation.booked_of_new (β := β) hook valid
  obtain ⟨queue, built, rfl⟩ := Simulation.ofQueue_of_new started
  exact ⟨_, started, fun memory script => ⟨⟨[], booked⟩, rfl, .zero, rfl⟩⟩

/-- A program, and the same program with stops added to its callbacks and with each run repeated
until it is not stopped. As long as the branch lives and no event of the first program stops a run,
the second reports what the first one reports, once the pieces of each run are put together, in
the same states of the simulation and with the same memory; and it ends where the first one ends.
A run of the second that was stopped has ended right after the event whose callback asked for the
stop, and everything else that was queued is still queued. -/
theorem interruptions_transparent (configuration : Configuration) (hook : σ)
    (valid : configuration.validate = .ok (.ok ())) [Hook σ] (limit : Nat) (seen : ν → μ)
    (present : ν) (script : Script σ β μ) (other : Script σ β ν) (body : β → Script σ β μ)
    (partner : β → Script σ β ν) (scripts : script.Interrupts limit seen present other)
    (bodies : ∀ work present, (body work).Interrupts limit seen present (partner work)) :
    ∃ simulation : Simulation σ β, Simulation.new configuration hook = .ok (.ok simulation) ∧
      (∀ history told machine,
        Tells Undivided body (.start simulation (seen present) script) history told machine →
        machine.simulation.terminated = none → (∀ key, .fired key .stop ∉ history) →
        history.length < limit →
          (∃ past reports second,
            Repeats partner seen (.start simulation present other) told machine past reports
              second) ∧
          ∀ ending, machine.Undivided → Ends body history machine ending →
            ∃ past reports second,
              Repeats partner seen (.start simulation present other) told machine past reports
                second ∧ Ends partner past second ending) ∧
      ∀ past reports second after summary,
        Tells RunsOutside partner (.start simulation present other) past reports second →
        second.step partner = .ok ([.ran (.ok summary)], after) → summary.stopped = true →
          after.simulation = second.simulation ∧ ∃ key callback leaving,
            EndsAfter partner (.start simulation present other) past second key callback
              leaving := by
  obtain ⟨simulation, started, settled⟩ := settled_of_new (μ := μ) (β := β) hook valid
  obtain ⟨again, restarted, resettled⟩ := settled_of_new (μ := ν) (β := β) hook valid
  cases started.symm.trans restarted
  have together : Joined limit seen [] [] 0 (start simulation (seen present) script)
      (start simulation present other) :=
    ⟨fun _ => Iff.rfl, .refl simulation, rfl, .script scripts .outside⟩
  refine ⟨simulation, started, ?_, ?_⟩
  · intro history told machine tells alive calm short
    refine ⟨?_, fun ending undivided ends =>
      tells.ends bodies (settled _ _) together alive calm short undivided ends⟩
    obtain ⟨past, reports, earlier, second, otherTells, digest, joined⟩ :=
      tells.joined bodies (settled _ _) together alive calm short
    exact ⟨past, reports, second, joined.repeats otherTells digest⟩
  · intro past reports second after summary tells stepped stopped
    exact tells.endsAfter (resettled _ _) other rfl stepped stopped

def plannedTwice : Script Exploration.Silent Bool Unit :=
  .perform (.schedule (.within .global 1) true) fun _ =>
    .perform (.schedule (.within .global 2) false) fun _ => .run fun _ => .done

def plannedTwiceResumed : Script Exploration.Silent Bool Nat :=
  .perform (.schedule (.within .global 1) true) fun _ =>
    .perform (.schedule (.within .global 2) false) fun _ => .resume (fun _ => .done) 6 0

def countingStops : Bool → Script Exploration.Silent Bool Nat :=
  fun _ => .recall fun count => .remember (count + 1) (.perform .stop fun _ => .done)

/-- Two events that stop their runs are invoked as by one run, each by a run of its own; the first
of these ends while the other event is queued. -/
theorem interruptions_transparent_counting :
    ∃ simulation, Simulation.new keepingConfiguration .silent = .ok (.ok simulation) ∧
      (∃ told machine past reports second,
        (told.map fun report =>
          (report.simulation.globalClock.now, report.simulation.processed)) =
            [(⟨1⟩, 0), (⟨2⟩, 1), (⟨2⟩, 2)] ∧
        Repeats countingStops (fun _ => ()) (.start simulation 0 plannedTwiceResumed) told
          (machine : Machine Exploration.Silent Bool Unit) past reports second ∧
        Ends countingStops past second none) ∧
      ∃ past second key callback leaving,
        EndsAfter countingStops (.start simulation 0 plannedTwiceResumed) past second key callback
          leaving ∧ second.simulation.queue.size = 1 := by
  obtain ⟨simulation, started, transparent, ended⟩ := interruptions_transparent
    keepingConfiguration Exploration.Silent.silent rfl 6 (fun _ => ()) 0 plannedTwice
    plannedTwiceResumed (fun _ => .done) countingStops
    (.perform fun _ => .perform fun _ => .run fun later _ => .done later)
    (fun _ count => .consult (.note (count + 1) rfl (.stop (.done _))))
  have whole : ∃ history told machine, Tells Undivided (fun _ => .done)
        (.start simulation () plannedTwice) history told machine ∧
      machine.simulation.terminated = none ∧
      (history.filterMap Signal.fired?).map Prod.snd = [.user true, .user false] ∧
      history.length < 6 ∧ machine.frames = [] ∧
      (told.map fun report => (report.simulation.globalClock.now, report.simulation.processed)) =
        [(⟨1⟩, 0), (⟨2⟩, 1), (⟨2⟩, 2)] := by
    cases started
    refine ⟨_, _, _, .of_steps 11 rfl fun fewer below past before taken =>
      ⟨fun reply request next under here => ?_, fun next under here => ?_,
        fun next under here => ?_⟩, rfl, rfl, by decide, rfl, rfl⟩
    all_goals interval_cases fewer <;> cases taken <;> cases here
    all_goals trivial
  have stopped : ∃ past reports second after summary, Tells RunsOutside countingStops
        (.start simulation 0 plannedTwiceResumed) past reports second ∧
      second.step countingStops = .ok ([.ran (.ok summary)], after) ∧ summary.stopped = true ∧
      second.simulation.queue.size = 1 := by
    cases started
    refine ⟨_, _, _, _, _, .of_steps 9 rfl fun fewer below past before taken =>
      ⟨fun reply request next under here => ?_, fun next under here => ?_⟩, rfl, rfl, rfl⟩
    all_goals interval_cases fewer <;> cases taken <;> cases here
    all_goals trivial
  obtain ⟨history, told, machine, tells, alive, invoked, short, halted, seen⟩ := whole
  obtain ⟨past, reports, second, after, summary, otherTells, stepped, stops, queued⟩ := stopped
  have calm (key : EventKey) : Signal.fired key .stop ∉ history := by
    intro member
    have fired : Callback.stop ∈ (history.filterMap Signal.fired?).map Prod.snd :=
      List.mem_map.mpr ⟨(key, .stop), List.mem_filterMap.mpr ⟨_, member, rfl⟩, rfl⟩
    rw [invoked] at fired
    exact absurd fired (by decide)
  have undivided : machine.Undivided := by
    refine ⟨fun next below here => ?_, fun next below here => ?_⟩
    · cases halted.symm.trans here
    · cases halted.symm.trans here
  obtain ⟨_, ends⟩ := transparent history told machine tells alive calm short
  obtain ⟨whole, others, last, repeats, finishes⟩ := ends none undivided (.through halted)
  obtain ⟨_, key, callback, leaving, endsAfter⟩ :=
    ended past reports second after summary otherTells stepped stops
  exact ⟨simulation, started, ⟨told, machine, whole, others, last, seen, repeats, finishes⟩, past,
    second, key, callback, leaving, endsAfter, queued⟩

end Machine

end EventKernel
