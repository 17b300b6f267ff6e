import EventKernel.Proofs.ResumedPrograms

set_option autoImplicit false

/-! One run and its pieces, step by step. Between two steps of the first machine the second may
ask for a stop, look around, or end a piece of its run and begin the next one; in the middle of a
run nothing waits in the inbox, so this changes nothing but the flag. Every other step has its
counterpart. Each further piece takes an event that has been invoked since the last, so the loop
does not reach its limit. -/

namespace EventKernel

open Exploration (Hook)
open Simulation (Restopped)

variable {σ β μ ν : Type}

/-! ### Frames -/

/-- What waits under a callback or under the outer program. `heard` signals of the first machine
have passed, and `earlier` callbacks were invoked in pieces of the present run that are over. -/
inductive Frame.Waits (limit heard : Nat) (seen : ν → μ) (simulation : Simulation σ β) :
    Nat → List (Frame σ β μ) → List (Frame σ β ν) → Prop
  | outside : Waits limit heard seen simulation 0 [] []
  | event {before earlier remaining : Nat}
      {next : Except BranchEnded RunSummary → Script σ β μ}
      {other : Except BranchEnded RunSummary → Script σ β ν}
      (follow : ∀ present result, (next result).Interrupts limit seen present (other result))
      (counted : before + earlier ≤ simulation.processed) (spare : limit ≤ remaining + heard)
      (goes : simulation.stopRequested = false) :
      Waits limit heard seen simulation earlier [.firing, .running before next]
        [.firing, .running (before + earlier)
          (Script.pieced other (Script.resume other remaining) earlier)]
  | destroying {earlier : Nat} {next : Script σ β μ} {other : Script σ β ν}
      {below : List (Frame σ β μ)} {under : List (Frame σ β ν)}
      (follow : ∀ present, next.Interrupts limit seen present other)
      (lower : Waits limit heard seen simulation earlier below under) :
      Waits limit heard seen simulation earlier (.destroying next :: below)
        (.destroying other :: under)

/-- The frames of the two machines. Where a stop has been asked for, one more piece is due. -/
inductive Frame.Stands (limit heard : Nat) (seen : ν → μ) (present : ν)
    (first second : Simulation σ β) : Nat → List (Frame σ β μ) → List (Frame σ β ν) → Prop
  | script {earlier : Nat} {rest : Script σ β μ} {other : Script σ β ν}
      {below : List (Frame σ β μ)} {under : List (Frame σ β ν)}
      (follow : rest.Interrupts limit seen present other)
      (lower : Waits limit heard seen first earlier below under) :
      Stands limit heard seen present first second earlier (.script rest :: below)
        (.script other :: under)
  | waits {earlier : Nat} {below : List (Frame σ β μ)} {under : List (Frame σ β ν)}
      (lower : Waits limit heard seen first earlier below under) :
      Stands limit heard seen present first second earlier below under
  | running {before earlier remaining : Nat}
      {next : Except BranchEnded RunSummary → Script σ β μ}
      {other : Except BranchEnded RunSummary → Script σ β ν}
      (follow : ∀ present result, (next result).Interrupts limit seen present (other result))
      (counted : before + earlier ≤ first.processed) (spare : limit ≤ remaining + 1 + heard)
      (due : second.stopRequested = true → limit ≤ remaining + heard)
      (goes : first.stopRequested = false) (idle : first.inbox = .empty) :
      Stands limit heard seen present first second earlier [.running before next]
        [.running (before + earlier)
          (Script.pieced other (Script.resume other remaining) earlier)]

private theorem Frame.Waits.later {limit heard more earlier : Nat} {seen : ν → μ}
    {simulation after : Simulation σ β} {below : List (Frame σ β μ)}
    {under : List (Frame σ β ν)} (waits : Waits limit heard seen simulation earlier below under)
    (hears : heard ≤ more) (counted : simulation.processed ≤ after.processed)
    (flag : after.stopRequested = simulation.stopRequested) :
    Waits limit more seen after earlier below under := by
  induction waits with
  | outside => exact .outside
  | event follow fewer spare goes =>
      exact .event follow (Nat.le_trans fewer counted)
        (Nat.le_trans spare (Nat.add_le_add_left hears _)) (flag.trans goes)
  | destroying follow _ ih => exact .destroying follow ih

namespace Machine

/-! ### Machines -/

/-- What a step of the first machine relies on. -/
structure Ready (limit entities : Nat) (history : List (Signal σ β)) (first : Machine σ β μ) :
    Prop where
  settled : first.Settled entities history
  lawful : first.AsksLawfully history
  undivided : first.Undivided
  alive : first.simulation.terminated = none
  short : history.length < limit

/-- The two machines stand at the same place of the program, and the second may have been asked
for a stop. -/
structure Joined (limit : Nat) (seen : ν → μ) (history past : List (Signal σ β)) (earlier : Nat)
    (first : Machine σ β μ) (second : Machine σ β ν) : Prop where
  shares : SharesHandles history past
  kept : Restopped first.simulation second.simulation
  sees : seen second.memory = first.memory
  frames : Frame.Stands limit history.length seen second.memory first.simulation
    second.simulation earlier first.frames second.frames

/-- Two steps that lead on together and report the same, as long as the branch has not ended and
no event stops the first run. -/
def Resumes (limit : Nat) (seen : ν → μ) (history past : List (Signal σ β)) (earlier : Nat)
    (told : List (Report σ β)) (left : List (Signal σ β) × Machine σ β μ)
    (right : List (Signal σ β) × Machine σ β ν) : Prop :=
  left.2.simulation.terminated = none → (∀ key, .fired key .stop ∉ left.1) →
    ∃ later, Joined limit seen (history ++ left.1) (past ++ right.1) later left.2 right.2 ∧
      (right.1.filterMap (Signal.report? right.2.simulation)).foldl Digest.add ⟨earlier, told⟩ =
        ⟨later, told ++ left.1.filterMap (Signal.report? left.2.simulation)⟩

/-- A machine that the second program reaches, and that differs from the first one in what the
first one does not see. -/
structure Accompanies [Hook σ] (partner : β → Script σ β ν) (seen : ν → μ)
    (start : Machine σ β ν) (history : List (Signal σ β)) (told : List (Report σ β))
    (simulation : Simulation σ β) (memory : μ) (past : List (Signal σ β))
    (reports : List (Report σ β)) (earlier : Nat) (second : Machine σ β ν) : Prop where
  tells : Tells RunsOutside partner start past reports second
  digest : Digest.ofReports reports = ⟨earlier, told⟩
  shares : SharesHandles history past
  kept : Restopped simulation second.simulation
  sees : seen second.memory = memory

/-- The second machine has reached a point from where its next step is that of the first one. -/
structure Meets [Hook σ] (body : β → Script σ β μ) (partner : β → Script σ β ν) (limit : Nat)
    (seen : ν → μ) (start : Machine σ β ν) (history : List (Signal σ β))
    (told : List (Report σ β)) (first : Machine σ β μ) (past : List (Signal σ β))
    (reports : List (Report σ β)) (earlier : Nat) (second : Machine σ β ν) : Prop where
  accompanies : Accompanies partner seen start history told first.simulation first.memory past
    reports earlier second
  lawful : second.AsksLawfully past
  outside : second.RunsOutside
  alike : Alike (Resumes limit seen history past earlier told) (first.step body)
    (second.step partner)

section

variable {limit earlier : Nat} {seen : ν → μ} {history past : List (Signal σ β)}
  {told : List (Report σ β)} {after last : Simulation σ β} {memory : μ} {present : ν}
  {frames : List (Frame σ β μ)} {otherFrames : List (Frame σ β ν)}
  (shares : SharesHandles history past) (kept : Restopped after last)
  (sees : seen present = memory)

include shares kept sees

private theorem resumes_silently (stands : after.terminated = none →
      Frame.Stands limit history.length seen present after last earlier frames otherFrames) :
    Resumes limit seen history past earlier told ([], ⟨after, memory, frames⟩)
      ([], ⟨last, present, otherFrames⟩) := by
  intro alive _
  refine ⟨earlier, ?_, ?_⟩
  · simp only [List.append_nil]
    exact ⟨shares, kept, sees, stands alive⟩
  · simp only [List.filterMap_nil, List.foldl_nil, List.append_nil]

private theorem resumes_answering {reply : Reply} {request : Request σ β reply}
    {value : reply.Value}
    (stands : after.terminated = none → Frame.Stands limit (history.length + 1) seen present after
      last earlier frames otherFrames) :
    Resumes limit seen history past earlier told
      ([.answered request value], ⟨after, memory, frames⟩)
      ([.answered request value], ⟨last, present, otherFrames⟩) := by
  intro alive _
  refine ⟨earlier, ⟨shares.append _, kept, sees, ?_⟩, ?_⟩
  · rw [List.length_append]
    exact stands alive
  · exact congrArg (Digest.mk earlier) (List.append_nil told).symm

private theorem resumes_telling {signal : Signal σ β}
    (reported : ∀ simulation, signal.report? simulation = some ⟨signal, simulation.calm⟩)
    (added : Digest.add ⟨earlier, told⟩ ⟨signal, after.calm⟩ =
      ⟨earlier, told ++ [⟨signal, after.calm⟩]⟩)
    (stands : after.terminated = none → Frame.Stands limit (history.length + 1) seen present after
      last earlier frames otherFrames) :
    Resumes limit seen history past earlier told ([signal], ⟨after, memory, frames⟩)
      ([signal], ⟨last, present, otherFrames⟩) := by
  intro alive _
  refine ⟨earlier, ⟨shares.append _, kept, sees, ?_⟩, ?_⟩
  · rw [List.length_append]
    exact stands alive
  · simp only [List.filterMap_cons, List.filterMap_nil, reported, List.foldl_cons,
      List.foldl_nil, kept.calm_eq, added]

end

/-! ### Steps of the second machine alone -/

namespace Accompanies

variable [Hook σ] {partner : β → Script σ β ν} {seen : ν → μ} {start second after : Machine σ β ν}
  {history past : List (Signal σ β)} {told reports : List (Report σ β)}
  {simulation : Simulation σ β} {memory : μ} {earlier : Nat}
  (accompanies : Accompanies partner seen start history told simulation memory past reports earlier
    second)

include accompanies

private theorem silently (nothing : second.asksNothing = true)
    (stepped : second.step partner = .ok ([], after)) (kept : Restopped simulation after.simulation)
    (sees : seen after.memory = memory) :
    Accompanies partner seen start history told simulation memory past reports earlier after :=
  ⟨accompanies.tells.silently (.of_asksNothing nothing) (.of_asksNothing nothing) stepped,
    accompanies.digest, accompanies.shares, kept, sees⟩

private theorem answering {reply : Reply} {request : Request σ β reply} {value : reply.Value}
    {next : reply.Value → Script σ β ν} {below : List (Frame σ β ν)}
    (here : second.frames = .script (.perform request next) :: below)
    (lawful : request.Lawful past)
    (stepped : second.step partner = .ok ([.answered request value], after))
    (nothing : ∀ handle, ¬ (Signal.answered request value).Gives handle)
    (kept : Restopped simulation after.simulation) (sees : seen after.memory = memory) :
    Accompanies partner seen start history told simulation memory
      (past ++ [.answered request value]) reports earlier after :=
  ⟨accompanies.tells.answering (.of_request here lawful) (.of_request here) stepped,
    accompanies.digest, (accompanies.shares.symm.hear nothing).symm, kept, sees⟩

private theorem meets {body : β → Script σ β μ} {limit : Nat} {frames : List (Frame σ β μ)}
    (nothing : second.asksNothing = true)
    (alike : Alike (Resumes limit seen history past earlier told)
      (step body ⟨simulation, memory, frames⟩) (second.step partner)) :
    Meets body partner limit seen start history told ⟨simulation, memory, frames⟩ past reports
      earlier second :=
  ⟨accompanies, .of_asksNothing nothing, .of_asksNothing nothing, alike⟩

end Accompanies

/-! ### The next step of both -/

variable [Hook σ] {body : β → Script σ β μ} {partner : β → Script σ β ν} {limit entities : Nat}
  {seen : ν → μ} {start : Machine σ β ν} {history past : List (Signal σ β)}
  {told reports : List (Report σ β)} {simulation otherSimulation : Simulation σ β} {memory : μ}
  {present : ν} {earlier : Nat} {below : List (Frame σ β μ)} {under : List (Frame σ β ν)}

/-- Whatever instruction comes next, the second machine comes to it as well. -/
theorem meets_script {rest : Script σ β μ} {other : Script σ β ν}
    (follow : rest.Interrupts limit seen present other)
    (ready : Ready limit entities history ⟨simulation, memory, .script rest :: below⟩)
    (waits : Frame.Waits limit history.length seen simulation earlier below under)
    (beside : Accompanies partner seen start history told simulation memory past reports
      earlier ⟨otherSimulation, present, .script other :: under⟩) :
    ∃ past reports second, Meets body partner limit seen start history told
      ⟨simulation, memory, .script rest :: below⟩ past reports earlier second := by
  -- The last four cases are steps of the second machine alone, which lead to a later part of it.
  induction follow generalizing otherSimulation past reports with
  | done present =>
      refine ⟨past, reports, _, beside.meets rfl (.of_ok rfl rfl ?_)⟩
      exact resumes_silently beside.shares beside.kept beside.sees fun _ => .waits waits
  | fail present fault =>
      exact ⟨past, reports, _, beside.meets rfl rfl⟩
  | @«recall» present next other follow =>
      refine ⟨past, reports, _, beside.meets rfl (.of_ok rfl rfl ?_)⟩
      have sees : seen present = memory := beside.sees
      subst sees
      exact resumes_silently beside.shares beside.kept rfl fun _ => .script follow waits
  | remember later follow =>
      refine ⟨past, reports, _, beside.meets rfl (.of_ok rfl rfl ?_)⟩
      exact resumes_silently beside.shares beside.kept rfl fun _ => .script follow waits
  | @perform present reply request next other follow =>
      have asked := ready.lawful _ request next below rfl
      refine ⟨past, reports, _, beside, .of_request rfl (beside.shares.lawful asked),
        .of_request rfl, (beside.kept.answer request).bind ?_⟩
      rintro ⟨value, after⟩ ⟨_, last⟩ answered _ ⟨rfl, same⟩
      refine resumes_answering beside.shares same beside.sees fun alive => .script (follow value) ?_
      rcases Simulation.Continues.answer answered with continues | ⟨stops, rfl⟩
      · exact waits.later (Nat.le_succ _) (Nat.le_of_eq continues.processed.symm)
          (continues.flag alive).2
      · -- Only the outer program asks for a stop, and no run of it waits.
        cases stops
        cases ready.undivided.stops next below rfl
        cases waits
        exact .outside
  | @run present next other follow =>
      cases ready.undivided.runs next below rfl
      cases waits
      obtain ⟨more, rfl⟩ : ∃ more, limit = more + 1 :=
        Nat.exists_eq_succ_of_ne_zero (Nat.ne_zero_of_lt ready.short)
      refine ⟨past, reports, _, beside, .of_silent fun _ _ _ _ here => (nomatch here),
        ?_, beside.kept.beginRun.bind ?_⟩
      · intro _ _ here
        cases here
        rfl
      · rintro after last began _ ⟨same, flags⟩
        have processed : otherSimulation.processed = simulation.processed :=
          beside.kept.processed_eq
        rw [processed]
        refine resumes_silently beside.shares same beside.sees fun alive =>
          .running follow ?_ ?_ ?_ (flags alive).1 ?_
        · exact Nat.le_of_eq (Simulation.flag_of_beginRun began).2.1.symm
        · exact Nat.le_add_right _ _
        · intro stops
          cases stops.symm.trans (flags alive).2
        · exact (Simulation.beginRun_inbox began).trans ready.settled.hinted.drain
  | @destroy present next other follow =>
      refine ⟨past, reports, _, beside.meets rfl (.of_ok rfl rfl ?_)⟩
      exact resumes_silently beside.shares beside.kept beside.sees fun _ =>
        .waits (.destroying follow waits)
  | @stop present next other _ ih =>
      have stepped : step partner
          ⟨otherSimulation, present, .script (.perform .stop other) :: under⟩ =
            .ok ([.answered .stop ()],
              ⟨otherSimulation.stop, present, .script (other ()) :: under⟩) := rfl
      exact ih ready (beside.answering rfl trivial stepped (fun _ gives => nomatch gives)
        beside.kept.stop beside.sees)
  | @look present reply request next other looks _ ih =>
      obtain ⟨instant, located⟩ := ready.settled.located
      obtain ⟨value, answered⟩ := beside.kept.looks looks located
      exact ih value ready (beside.answering rfl (looks.lawful past) (step_performed rfl answered)
        (looks.gives_nothing value) beside.kept beside.sees)
  | @consult present next other _ ih =>
      exact ih ready (beside.silently rfl rfl beside.kept beside.sees)
  | @note present later next other same _ ih =>
      exact ih ready (beside.silently rfl rfl beside.kept (same.trans beside.sees))

/-- What waits under a callback goes on when the callback has ended, or nothing does. -/
theorem meets_waiting (bodies : ∀ work present,
      (body work).Interrupts limit seen present (partner work))
    {frames : List (Frame σ β μ)} {otherFrames : List (Frame σ β ν)}
    (ready : Ready limit entities history ⟨simulation, memory, frames⟩)
    (waits : Frame.Waits limit history.length seen simulation earlier frames otherFrames)
    (beside : Accompanies partner seen start history told simulation memory past reports
      earlier ⟨otherSimulation, present, otherFrames⟩) :
    ∃ past reports second, Meets body partner limit seen start history told
      ⟨simulation, memory, frames⟩ past reports earlier second := by
  cases waits with
  | outside =>
      refine ⟨past, reports, _, beside.meets rfl (.of_ok rfl rfl ?_)⟩
      exact resumes_silently beside.shares beside.kept beside.sees fun _ => .waits .outside
  | event follow counted spare goes =>
      refine ⟨past, reports, _, beside.meets rfl (beside.kept.finishEvent.bind ?_)⟩
      intro after last done _ same
      obtain ⟨_, processed, flag⟩ := Simulation.Continues.finishEvent done
      refine resumes_silently beside.shares same beside.sees fun alive =>
        .running follow ?_ ?_ (fun _ => spare) ((flag alive).2.trans goes) ?_
      · rw [processed]
        exact Nat.le_succ_of_le counted
      · exact Nat.le_trans spare (Nat.add_le_add_right (Nat.le_succ _) _)
      · exact (Simulation.drainInbox_inbox done).trans ready.settled.hinted.drain
  | @destroying _ next other below under follow lower =>
      refine ⟨past, reports, _, beside.meets rfl ?_⟩
      have registered : otherSimulation.destroyEvents = simulation.destroyEvents :=
        beside.kept.destroyEvents_eq
      cases events : simulation.destroyEvents with
      | nil =>
          rw [step_destroyed rfl events, step_destroyed rfl (registered.trans events)]
          exact resumes_silently beside.shares beside.kept beside.sees fun _ =>
            .script (follow present) lower
      | cons head destroyEvents =>
          obtain ⟨handle, work⟩ := head
          rw [step_destroying rfl events, step_destroying rfl (registered.trans events)]
          exact resumes_telling beside.shares (beside.kept.unregister destroyEvents) beside.sees
            (fun _ => rfl) rfl fun _ => .script (bodies work present)
              (.destroying follow (lower.later (Nat.le_succ _) (Nat.le_refl _) rfl))

/-! ### The next step of a run -/

section

variable {before remaining : Nat} {next : Except BranchEnded RunSummary → Script σ β μ}
  {other : Except BranchEnded RunSummary → Script σ β ν}

/-- The end of a piece and the beginning of the next one take no event, and leave nothing but the
flag behind. -/
theorem Accompanies.piece (ready : Ready limit entities history
      ⟨simulation, memory, [.running before next]⟩)
    (counted : before + earlier ≤ simulation.processed)
    (due : limit ≤ remaining + history.length) (goes : simulation.stopRequested = false)
    (idle : simulation.inbox = .empty) (stops : otherSimulation.stopRequested = true)
    (beside : Accompanies partner seen start history told simulation memory past reports
      earlier ⟨otherSimulation, present, [.running (before + earlier)
        (Script.pieced other (Script.resume other remaining) earlier)]⟩) :
    ∃ fewer later past reports, before + later ≤ simulation.processed ∧
      limit ≤ fewer + 1 + history.length ∧
      Accompanies partner seen start history told simulation memory past reports later
        ⟨simulation, present, [.running (before + later)
          (Script.pieced other (Script.resume other fewer) later)]⟩ := by
  obtain ⟨tells, digest, shares, kept, sees⟩ := beside
  obtain ⟨fewer, rfl⟩ : ∃ fewer, remaining = fewer + 1 :=
    Nat.exists_eq_succ_of_ne_zero fun nothing => by
      have short := ready.short
      omega
  obtain ⟨keys, booked⟩ := ready.settled.booked
  have alive := ready.alive
  have same : otherSimulation = { simulation with stopRequested := true } := by
    obtain ⟨stopRequested, rfl⟩ := kept
    change stopRequested = true at stops
    rw [stops]
  subst same
  have halted : { simulation with stopRequested := true }.Booked entities keys (Given history) :=
    booked.of_same rfl rfl rfl rfl rfl
  have ended := halted.endRun_eq alive (before + earlier)
  have rested := tells.step (.of_asksNothing rfl) (.of_asksNothing rfl) (step_ran rfl rfl ended)
  have begun := rested.silently (.of_silent fun _ _ _ _ here => by cases here)
    (fun _ _ here => by cases here; rfl) (step_begun rfl (Simulation.beginRun_idle idle alive))
  have calm : Simulation.calm { simulation with stopRequested := true } = simulation :=
    Restopped.eq_of_stopRequested ⟨false, rfl⟩ goes.symm
  rw [calm] at begun
  have sum : before + (earlier + (simulation.processed - (before + earlier))) =
      simulation.processed := by omega
  have arrived : ∃ past reports, Accompanies partner seen start history told simulation memory past
      reports (earlier + (simulation.processed - (before + earlier)))
      ⟨simulation, present, [.running simulation.processed (Script.pieced other
        (Script.resume other fewer) (earlier + (simulation.processed - (before + earlier))))]⟩ := by
    refine ⟨_, _, begun, ?_, ?_, .refl simulation, sees⟩
    · rw [Digest.ofReports_append, digest]
      rfl
    · refine (shares.symm.hear fun handle gives => ?_).symm
      cases gives
  obtain ⟨past, reports, arrived⟩ := arrived
  refine ⟨fewer, _, past, reports, Nat.le_of_eq sum, due, ?_⟩
  rw [sum]
  exact arrived

/-- A run takes the same event as the piece that is under way, or both end. -/
theorem meets_running (bodies : ∀ work present,
      (body work).Interrupts limit seen present (partner work))
    (ready : Ready limit entities history ⟨simulation, memory, [.running before next]⟩)
    (follow : ∀ present result, (next result).Interrupts limit seen present (other result))
    (counted : before + earlier ≤ simulation.processed)
    (spare : limit ≤ remaining + 1 + history.length) (goes : simulation.stopRequested = false)
    (idle : simulation.inbox = .empty)
    (beside : Accompanies partner seen start history told simulation memory past reports
      earlier ⟨simulation, present, [.running (before + earlier)
        (Script.pieced other (Script.resume other remaining) earlier)]⟩) :
    Meets body partner limit seen start history told
      ⟨simulation, memory, [.running before next]⟩ past reports earlier
      ⟨simulation, present, [.running (before + earlier)
        (Script.pieced other (Script.resume other remaining) earlier)]⟩ := by
  refine beside.meets rfl ?_
  have still {after : Simulation σ β} (processed : after.processed = simulation.processed)
      (flag : after.stopRequested = simulation.stopRequested) (inbox : after.inbox = .empty) :
      Frame.Stands limit history.length seen present after after earlier [.running before next]
        [.running (before + earlier)
          (Script.pieced other (Script.resume other remaining) earlier)] := by
    refine .running follow (processed ▸ counted) spare (fun stops => ?_) (flag.trans goes) inbox
    cases stops.symm.trans (flag.trans goes)
  cases going : simulation.goesOn with
  | false =>
      obtain ⟨keys, booked⟩ := ready.settled.booked
      change simulation.Booked entities keys (Given history) at booked
      have ended := booked.endRun_eq ready.alive before
      have otherEnded := booked.endRun_eq ready.alive (before + earlier)
      rw [goes] at ended otherEnded
      refine .of_ok (step_ran rfl going ended) (step_ran rfl going otherEnded) ?_
      -- The callbacks of all pieces are those of the one run.
      have sum : earlier + (simulation.processed - (before + earlier)) =
          simulation.processed - before := by omega
      intro _ _
      refine ⟨0, ⟨?_, .refl simulation, beside.sees, ?_⟩, ?_⟩
      · refine ((beside.shares.hear fun handle gives => ?_).symm.hear fun handle gives => ?_).symm
        · cases gives
        · cases gives
      · rw [← sum]
        exact .script (follow present _) .outside
      · rw [← sum]
        rfl
  | true =>
      unfold step stepRun
      simp only [going, if_true]
      refine (Alike.of_eq rfl).bind ?_
      rintro ⟨dequeued, after⟩ _ taken _ rfl
      have taken := Simulation.dequeue_eq_ok taken
      obtain ⟨processed, flag, _⟩ := taken.flag
      have inbox := taken.inbox.1.trans idle
      cases dequeued with
      | nothing =>
          exact resumes_silently beside.shares (.refl after) beside.sees fun _ =>
            still processed flag inbox
      | skipped =>
          rw [Simulation.leaveEvent_idle inbox]
          exact resumes_silently beside.shares (.refl _) beside.sees fun _ =>
            still processed flag inbox
      | invoke key callback =>
          cases callback with
          | stop => exact fun _ calm => absurd List.mem_cons_self (calm key)
          | user work =>
              refine resumes_telling beside.shares (.refl after) beside.sees (fun _ => rfl) rfl
                fun _ => .script (bodies work present)
                  (.event follow (processed ▸ counted) ?_ (flag.trans goes))
              omega

end

/-- However the two machines stand to each other, the second comes to the next step of the first
one. -/
theorem Joined.meets {first : Machine σ β μ} {second : Machine σ β ν}
    (bodies : ∀ work present, (body work).Interrupts limit seen present (partner work))
    (ready : Ready limit entities history first)
    (joined : Joined limit seen history past earlier first second)
    (tells : Tells RunsOutside partner start past reports second)
    (digest : Digest.ofReports reports = ⟨earlier, told⟩) :
    ∃ past reports earlier second,
      Meets body partner limit seen start history told first past reports earlier second := by
  obtain ⟨simulation, memory, frames⟩ := first
  obtain ⟨otherSimulation, present, otherFrames⟩ := second
  obtain ⟨shares, kept, sees, stands⟩ := joined
  have accompanies : Accompanies partner seen start history told simulation memory past reports
      earlier ⟨otherSimulation, present, otherFrames⟩ := ⟨tells, digest, shares, kept, sees⟩
  cases stands with
  | script follow lower =>
      obtain ⟨past, reports, second, meets⟩ := meets_script follow ready lower accompanies
      exact ⟨past, reports, earlier, second, meets⟩
  | waits lower =>
      obtain ⟨past, reports, second, meets⟩ := meets_waiting bodies ready lower accompanies
      exact ⟨past, reports, earlier, second, meets⟩
  | running follow counted spare due goes idle =>
      cases stops : otherSimulation.stopRequested with
      | true =>
          obtain ⟨fewer, later, past, reports, counted, spare, accompanies⟩ :=
            accompanies.piece ready counted (due stops) goes idle stops
          exact ⟨past, reports, later, _,
            meets_running bodies ready follow counted spare goes idle accompanies⟩
      | false =>
          cases kept.eq_of_stopRequested (stops.trans goes.symm)
          exact ⟨past, reports, earlier, _,
            meets_running bodies ready follow counted spare goes idle accompanies⟩

end Machine

end EventKernel
