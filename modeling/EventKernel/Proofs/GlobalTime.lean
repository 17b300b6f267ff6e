import Mathlib.Tactic.IntervalCases
import EventKernel.Proofs.CoupledSimulations
import EventKernel.Proofs.EventFollowers
import EventKernel.Proofs.HandleState
import EventKernel.Proofs.NextKeys

set_option autoImplicit false

/-! Time never goes back for programs that follow their events. Without the credit rule events
leave the queue in the order of their keys, over any number of runs, although the clocks of
different entities lag behind each other: what an event plans is stamped after it, and it is the
last that was taken. -/

namespace EventKernel

open Queue (Configuration EventQueue)
open Exploration (Hook)

variable {σ β μ : Type}

private theorem EventKey.Precedes.trans {first second third : EventKey}
    (former : first.Precedes second) (latter : second.Precedes third) : first.Precedes third :=
  EventKey.precedes_iff_rank_lt.mpr (Nat.lt_trans (EventKey.precedes_iff_rank_lt.mp former)
    (EventKey.precedes_iff_rank_lt.mp latter))

private theorem EventKey.Precedes.ts_le {first second : EventKey}
    (ordered : first.Precedes second) :
    first.ts ≤ second.ts :=
  Timestamp.le_iff_toNat.mpr
    (EventKey.ts_le_of_rank_le (Nat.le_of_lt (EventKey.precedes_iff_rank_lt.mp ordered)))

/-! ### What is queued and what was taken -/

namespace Simulation

variable {simulation after : Simulation σ β} {entities : Nat} {keys others taken : List EventKey}
  {given : Handle → Prop} {history : List (Signal σ β)}

structure Past (simulation : Simulation σ β) (keys taken : List EventKey) : Prop where
  uncredited : simulation.Uncredited
  idle : simulation.inbox.requests = []
  increasing : taken.Pairwise EventKey.Precedes
  ahead : ∀ past ∈ taken, ∀ key ∈ keys, past.Precedes key
  numbered : ∀ past ∈ taken, past.uid.value.toNat < simulation.nextUid.value.toNat

structure AtLast (simulation : Simulation σ β) (earlier : List EventKey) (last : EventKey)
    (taken : List EventKey) : Prop where
  taken_eq : taken = earlier ++ [last]
  context : simulation.context = last.context
  clock : simulation.clock last.context = .ok ⟨last.ts, last.uid⟩

namespace AtLast

variable {earlier : List EventKey} {last : EventKey}

private theorem still (atLast : simulation.AtLast earlier last taken)
    (context : after.context = simulation.context) (clock : after.clock = simulation.clock) :
    after.AtLast earlier last taken :=
  ⟨atLast.taken_eq, context.trans atLast.context, clock ▸ atLast.clock⟩

private theorem now_eq (atLast : simulation.AtLast earlier last taken) :
    simulation.now = .ok last.ts := by
  unfold now nowIn
  rw [atLast.context, atLast.clock]
  rfl

end AtLast

namespace Past

private theorem of_same (past : simulation.Past keys taken) (queue : after.queue = simulation.queue)
    (number : after.nextUid = simulation.nextUid) (idle : after.inbox.requests = []) :
    after.Past keys taken := by
  refine ⟨?_, idle, past.increasing, past.ahead, number ▸ past.numbered⟩
  unfold Uncredited
  rw [queue]
  exact past.uncredited

private theorem latest {earlier : List EventKey} {last : EventKey}
    (past : simulation.Past keys (earlier ++ [last])) :
    ∀ former ∈ earlier ++ [last], former = last ∨ former.Precedes last := by
  intro former member
  rcases List.mem_append.mp member with before | same
  · exact Or.inr ((List.pairwise_append.mp past.increasing).2.2 former before last
      List.mem_cons_self)
  · exact Or.inl (List.mem_singleton.mp same)

private theorem planned (past : simulation.Past keys taken) {earlier : List EventKey}
    {last : EventKey} (atLast : simulation.AtLast earlier last taken) {plan : Plan}
    (caused : plan.base = simulation.context) {key : EventKey}
    (planned : simulation.Planned plan key) : ∀ former ∈ taken, former.Precedes key := by
  have same := atLast.taken_eq
  subst same
  have read : simulation.clock plan.base = .ok ⟨last.ts, last.uid⟩ := by
    rw [caused, atLast.context, atLast.clock]
  -- At equal times the number decides, and a new number is above that of the executing event.
  have next : last.Precedes key :=
    planned.after_base read (past.numbered last (List.mem_append_right _ List.mem_cons_self))
  intro former member
  rcases past.latest former member with rfl | before
  · exact next
  · exact before.trans next

private theorem answer [Hook σ] (past : simulation.Past keys taken) {reply : Reply}
    {request : Request σ β reply} {value : reply.Value} (plain : request.Uncredited)
    (lawful : request.Lawful history) (inside : request.FromInside)
    (causal : ∀ plan, request.plan? simulation.context = some plan →
      plan.base = simulation.context ∧ ∃ earlier last, simulation.AtLast earlier last taken)
    (answered : request.answer simulation = .ok (value, after))
    (origins : ∀ key ∈ others, key ∈ keys ∨
      ∃ plan, request.plan? simulation.context = some plan ∧ simulation.Planned plan key) :
    after.Past others taken where
  uncredited := answer_uncredited plain lawful answered past.uncredited
  idle := answer_idle inside past.idle answered
  increasing := past.increasing
  ahead := by
    intro former member key present
    rcases origins key present with before | ⟨plan, asked, planned⟩
    · exact past.ahead former member key before
    · obtain ⟨caused, earlier, last, atLast⟩ := causal plan asked
      exact past.planned atLast caused planned former member
  numbered := fun former member =>
    Nat.lt_of_lt_of_le (past.numbered former member) (answer_onward request answered).numbers

/-- The event that is taken comes before everything else. -/
theorem takes (past : simulation.Past keys taken)
    (booked : simulation.Booked entities keys given) {key : EventKey} {dequeued : Dequeued β}
    (takes : simulation.Takes entities keys given key dequeued after) :
    after.Past (keys.erase key) (taken ++ [key]) ∧ after.AtLast taken key (taken ++ [key]) := by
  obtain ⟨least, uncredited⟩ := takes.least past.uncredited
  obtain ⟨inbox, nextUid⟩ := takes.others
  have member := takes.goesFirst.isLive
  refine ⟨⟨uncredited, inbox ▸ past.idle, ?_, ?_, ?_⟩, rfl, takes.context, ?_⟩
  · refine List.pairwise_append.mpr ⟨past.increasing, List.pairwise_singleton _ _, ?_⟩
    intro former before other same
    rw [List.mem_singleton.mp same]
    exact past.ahead former before key member
  · intro former before other present
    have held := List.mem_of_mem_erase present
    rcases List.mem_append.mp before with earlier | same
    · exact past.ahead former earlier other held
    · rw [List.mem_singleton.mp same]
      refine least other held ?_
      rintro rfl
      exact booked.holds.keys_nodup.not_mem_erase present
  · intro former before
    rw [nextUid]
    rcases List.mem_append.mp before with earlier | same
    · exact past.numbered former earlier
    · rw [List.mem_singleton.mp same]
      exact (booked.numbered key member).2
  · rw [takes.clock, if_pos rfl]

end Past

end Simulation

namespace Machine

open Simulation (Past AtLast)

variable [Hook σ] {body : β → Script σ β μ} {machine after start : Machine σ β μ}
  {history signals : List (Signal σ β)} {entities : Nat} {taken : List EventKey}
  {instants : List Timestamp}

/-! ### Before the first run -/

structure Unstarted (machine : Machine σ β μ) (entities : Nat) (history : List (Signal σ β)) :
    Prop where
  booked : ∃ keys, machine.simulation.Booked entities keys (Given history)
  uncredited : machine.simulation.Uncredited
  hinted : machine.simulation.inbox.Hinted
  frames : Frame.Unstarted machine.frames
  silent : history.filterMap Signal.fired? = []

omit [Hook σ] in
private theorem Unstarted.not_running (unstarted : machine.Unstarted entities history) :
    ¬ machine.IsRunning := by
  rintro ⟨before, next, below, here⟩
  have still := unstarted.frames
  rw [here] at still
  cases (List.forall_mem_cons.mp still).1.1

private theorem Stepped.unstarted (stepped : Stepped body machine signals after)
    (lawful : machine.AsksLawfully history) (plain : machine.Asks Request.Uncredited)
    (waits : ∀ next below, machine.frames ≠ .script (.run next) :: below)
    (unstarted : machine.Unstarted entities history) :
    after.Unstarted entities (history ++ signals) := by
  have idle := unstarted.not_running
  obtain ⟨⟨keys, booked⟩, uncredited, hinted, still, silent⟩ := unstarted
  cases stepped with
  | moved memory frames shifts =>
      rw [List.append_nil]
      exact ⟨⟨keys, booked⟩, uncredited, hinted, shifts.unstarted still, silent⟩
  | ran result frames before next below here => exact absurd ⟨before, next, below, here⟩ idle
  | performed request next below value simulation here answered =>
      have asked := lawful _ request next below here
      obtain ⟨others, kept, _⟩ := booked.answer asked answered
      refine ⟨⟨others, kept⟩,
        Simulation.answer_uncredited (plain _ request next below here) asked answered uncredited,
        ?_, ?_, ?_⟩
      · exact Simulation.answer_inbox request answered ▸ hinted.request request
      · rw [here] at still
        exact List.forall_mem_cons.mpr ⟨⟨rfl, rfl⟩, (List.forall_mem_cons.mp still).2⟩
      · rw [List.filterMap_append, silent]
        rfl
  | begun next below simulation here => exact absurd here (waits next below)
  | starved simulation here => exact absurd here idle
  | skipped entered simulation here => exact absurd here idle
  | fired key work simulation here => exact absurd here idle
  | halted key simulation here => exact absurd here idle
  | finished below simulation here =>
      rw [here] at still
      cases (List.forall_mem_cons.mp still).1.2
  | destroying handle work destroyEvents next below here first =>
      have kept : Simulation.Booked { machine.simulation with destroyEvents } entities keys
          (Given history) := booked.of_same rfl rfl rfl rfl rfl
      rw [here] at still
      refine ⟨⟨keys, kept.told fun _ gives => (nomatch gives)⟩, uncredited, hinted,
        List.forall_mem_cons.mpr ⟨⟨rfl, rfl⟩, still⟩, ?_⟩
      rw [List.filterMap_append, silent]
      rfl

private theorem Readies.unstarted (begins : start.Unstarted entities [])
    (readied : Readies body start history machine) : machine.Unstarted entities history := by
  refine readied.keeps (motive := fun history machine =>
    machine.Unstarted entities history) begins ?_
  rintro history signals machine after _ ⟨lawful, plain, waits⟩ stepped unstarted
  exact (step_eq_ok stepped).unstarted lawful plain waits unstarted

/-! ### From the first run on -/

/-- A machine whose events have been taken in the order of their keys. -/
structure Causal (machine : Machine σ β μ) (entities : Nat) (history : List (Signal σ β))
    (taken : List EventKey) : Prop where
  held : ∃ keys, machine.simulation.Booked entities keys (Given history) ∧
    machine.simulation.Past keys taken
  flat : Frame.Flat machine.frames
  last : machine.executes = true → ∃ earlier last, machine.simulation.AtLast earlier last taken
  invoked : ((history.filterMap Signal.fired?).map Prod.fst).Sublist taken

namespace Causal

omit [Hook σ] in
/-- What a run takes from the queue comes after everything it has taken before. -/
theorem dequeued (causal : machine.Causal entities history taken) (here : machine.IsRunning)
    (goes : machine.simulation.goesOn = true) {dequeued : Simulation.Dequeued β}
    {entered : Simulation σ β}
    (dequeues : machine.simulation.dequeue = .ok (dequeued, entered)) :
    (∃ keys, entered.Booked entities keys (Given history) ∧
        entered.Past keys (taken ++ machine.takes?.toList)) ∧
      ∀ key callback, dequeued = .invoke key callback → machine.takes? = some key ∧
        entered.AtLast taken key (taken ++ machine.takes?.toList) := by
  obtain ⟨keys, booked, past⟩ := causal.held
  have next := takes?_of_running here goes
  rcases booked.takes (Simulation.dequeue_eq_ok dequeues) with
    ⟨nothing, _, rfl, popped⟩ | ⟨key, takes⟩
  · rw [popped] at next
    rw [next, Option.toList_none, List.append_nil, nothing]
    exact ⟨⟨keys, booked, past⟩, fun _ _ impossible => nomatch impossible⟩
  · obtain ⟨event, queue, popped, rfl⟩ := takes.popped
    rw [popped] at next
    obtain ⟨later, atLast⟩ := past.takes booked takes
    rw [next]
    refine ⟨⟨_, takes.booked, later⟩, fun key callback invokes => ?_⟩
    rcases takes.named with skipped | ⟨armed, invoked⟩
    · rw [skipped] at invokes
      cases invokes
    · rw [invoked] at invokes
      cases invokes
      exact ⟨rfl, atLast⟩

omit [Hook σ] in
private theorem idle (causal : machine.Causal entities history taken)
    (nothing : machine.takes? = none) (silent : signals.filterMap Signal.fired? = [])
    (held : ∃ keys, after.simulation.Booked entities keys (Given (history ++ signals)) ∧
      after.simulation.Past keys taken)
    (flat : Frame.Flat after.frames)
    (last : after.executes = true →
      ∃ earlier last, after.simulation.AtLast earlier last taken) :
    after.Causal entities (history ++ signals) (taken ++ machine.takes?.toList) := by
  rw [nothing, Option.toList_none, List.append_nil]
  refine ⟨held, flat, last, ?_⟩
  rw [List.filterMap_append, silent, List.append_nil]
  exact causal.invoked

omit [Hook σ] in
private theorem passed (causal : machine.Causal entities history taken) (here : machine.IsRunning)
    (frames : after.frames = machine.frames)
    (held : ∃ keys, after.simulation.Booked entities keys (Given history) ∧
      after.simulation.Past keys (taken ++ machine.takes?.toList)) :
    after.Causal entities (history ++ []) (taken ++ machine.takes?.toList) := by
  have still : after.executes = false :=
    (executes_of_frames frames).trans (not_executes_of_running here causal.flat)
  refine ⟨(List.append_nil history).symm ▸ held, frames ▸ causal.flat, fun executes => ?_, ?_⟩
  · rw [still] at executes
    cases executes
  · rw [List.append_nil]
    exact causal.invoked.trans (List.sublist_append_left _ _)

omit [Hook σ] in
private theorem invokes (causal : machine.Causal entities history taken) {key : EventKey}
    {callback : Callback β} (next : machine.takes? = some key)
    (flat : Frame.Flat after.frames)
    (held : ∃ keys, after.simulation.Booked entities keys
        (Given (history ++ [Signal.fired key callback])) ∧
      after.simulation.Past keys (taken ++ machine.takes?.toList))
    (atLast : after.simulation.AtLast taken key (taken ++ machine.takes?.toList)) :
    after.Causal entities (history ++ [.fired key callback]) (taken ++ machine.takes?.toList) := by
  refine ⟨held, flat, fun _ => ⟨taken, key, atLast⟩, ?_⟩
  rw [List.filterMap_append, List.map_append, next]
  exact causal.invoked.append (List.Sublist.refl _)

end Causal

private theorem Stepped.causal (stepped : Stepped body machine signals after)
    (lawful : machine.AsksLawfully history) (plain : machine.Asks Request.Uncredited)
    (asks : machine.Asks fun request => request.FromInside ∧
      ∀ plan, request.plan? machine.simulation.context = some plan →
        machine.executes = true ∧ plan.base = machine.simulation.context)
    (outside : ∀ next below, machine.frames = .script (.run next) :: below → below = [])
    (causal : machine.Causal entities history taken) :
    after.Causal entities (history ++ signals) (taken ++ machine.takes?.toList) := by
  obtain ⟨keys, booked, past⟩ := causal.held
  have flat := causal.flat
  have single := stepped.flat outside flat
  have last := causal.last
  have calm {top : Frame σ β μ} {below : List (Frame σ β μ)} (here : machine.frames = top :: below)
      (still : top.isRunning = false) : machine.takes? = none := by
    refine takes?_of_calm fun first same => ?_
    rw [here] at same
    exact Option.some.inj same ▸ still
  unfold executes at last
  -- Only a run that goes on takes anything; every other step keeps what was taken before all
  -- that is queued, or queues something the executing event has planned.
  cases stepped with
  | moved memory frames shifts =>
      rw [← (shifts.flat flat).2] at last
      exact causal.idle (takes?_of_calm shifts.calm) rfl
        ⟨keys, (List.append_nil history).symm ▸ booked, past⟩ single last
  | ran result frames before next below here followed stays ended =>
      rw [here] at flat
      cases flat
      cases followed
      have nothing : machine.takes? = none := by
        unfold takes?
        rw [here, stays]
        rfl
      exact causal.idle nothing rfl ⟨keys, booked.told fun _ gives => (nomatch gives), past⟩ single
        fun executes => (nomatch executes)
  | performed request next below value simulation here answered =>
      obtain ⟨inside, caused⟩ := asks _ request next below here
      have asked := lawful _ request next below here
      obtain ⟨others, kept, origins⟩ := booked.answer asked answered
      have planned := past.answer (plain _ request next below here) asked inside
        (fun plan asks => ⟨(caused plan asks).2, causal.last (caused plan asks).1⟩) answered origins
      rw [here] at last
      refine causal.idle (calm here rfl) rfl ⟨others, kept, planned⟩ single fun executes => ?_
      obtain ⟨earlier, latest, atLast⟩ := last executes
      exact ⟨earlier, latest, atLast.still (Simulation.answer_clocks request answered).2.1
        (Simulation.answer_clock request answered)⟩
  | begun next below simulation here began =>
      obtain ⟨stopRequested, rfl⟩ := Simulation.beginRun_of_idle past.idle began
      cases outside next below here
      exact causal.idle (calm here rfl) rfl
        ⟨keys, (List.append_nil history).symm ▸ booked.of_same rfl rfl rfl rfl rfl,
          past.of_same rfl rfl (Inbox.drain_idle past.idle).2⟩ single
        fun executes => (nomatch executes)
  | starved simulation here dequeued goes =>
      obtain ⟨held, _⟩ := causal.dequeued here goes dequeued
      exact causal.passed here rfl held
  | skipped entered simulation here dequeued left goes =>
      obtain ⟨⟨others, kept, later⟩, _⟩ := causal.dequeued here goes dequeued
      rw [Simulation.leaveEvent_of_idle later.idle left]
      exact causal.passed here rfl ⟨others, kept.of_same rfl rfl rfl rfl rfl,
        later.of_same rfl rfl (Inbox.drain_idle later.idle).2⟩
  | fired key work simulation here dequeued goes =>
      obtain ⟨⟨others, kept, later⟩, invoked⟩ := causal.dequeued here goes dequeued
      obtain ⟨next, atLast⟩ := invoked key (.user work) rfl
      exact causal.invokes next single
        ⟨others, kept.told fun _ gives => (nomatch gives), later⟩ atLast
  | halted key simulation here dequeued goes =>
      obtain ⟨⟨others, kept, later⟩, invoked⟩ := causal.dequeued here goes dequeued
      obtain ⟨next, atLast⟩ := invoked key .stop rfl
      have stopped : simulation.stop.Booked entities others (Given history) :=
        kept.of_same rfl rfl rfl rfl rfl
      exact causal.invokes next single
        ⟨others, stopped.told fun _ gives => (nomatch gives), later.of_same rfl rfl later.idle⟩
        (atLast.still rfl rfl)
  | finished below simulation here done =>
      rw [here] at flat
      obtain ⟨before, next, rfl⟩ := flat
      rw [Simulation.finishEvent_of_idle past.idle done]
      exact causal.idle (calm here rfl) rfl
        ⟨keys, (List.append_nil history).symm ▸ booked.of_same rfl rfl rfl rfl rfl,
          past.of_same rfl rfl (Inbox.drain_idle past.idle).2⟩ single
        fun executes => (nomatch executes)
  | destroying handle work destroyEvents next below here first =>
      have kept : Simulation.Booked { machine.simulation with destroyEvents } entities keys
          (Given history) := booked.of_same rfl rfl rfl rfl rfl
      rw [here] at last
      refine causal.idle (calm here rfl) rfl ⟨keys, kept.told fun _ gives => (nomatch gives),
        past.of_same rfl rfl past.idle⟩ single fun executes => ?_
      obtain ⟨earlier, latest, atLast⟩ := last executes
      exact ⟨earlier, latest, atLast.still rfl rfl⟩

private theorem Unstarted.begun (unstarted : machine.Unstarted entities history)
    {next : Except BranchEnded RunSummary → Script σ β μ}
    (here : machine.frames = [.script (.run next)])
    (stepped : machine.step body = .ok (signals, after)) :
    after.Causal entities (history ++ signals) [] := by
  obtain ⟨⟨keys, booked⟩, uncredited, hinted, _, silent⟩ := unstarted
  unfold step at stepped
  rw [here] at stepped
  obtain ⟨simulation, began, returned⟩ := bind_eq_ok stepped
  cases returned
  obtain ⟨others, kept⟩ := booked.beginRun began
  have emptied := (Simulation.beginRun_inbox began).trans hinted.drain
  rw [List.append_nil]
  refine ⟨⟨others, kept, ?_⟩, rfl, fun executes => (nomatch executes), ?_⟩
  · exact ⟨Simulation.beginRun_uncredited began uncredited, congrArg Inbox.requests emptied, .nil,
      List.forall_mem_nil _, List.forall_mem_nil _⟩
  · rw [silent]
    exact List.Sublist.refl _

omit [Hook σ] in
private theorem Causal.current (causal : machine.Causal entities history taken)
    (executes : machine.executes = true) :
    ∃ earlier last, taken = earlier ++ [last] ∧ machine.simulation.now = .ok last.ts ∧
      ∀ past ∈ taken, past.ts ≤ last.ts := by
  obtain ⟨earlier, last, atLast⟩ := causal.last executes
  obtain ⟨keys, _, past⟩ := causal.held
  have same := atLast.taken_eq
  refine ⟨earlier, last, same, atLast.now_eq, fun former member => ?_⟩
  subst same
  rcases past.latest former member with rfl | before
  · exact Timestamp.le_iff_toNat.mpr (Nat.le_refl _)
  · exact before.ts_le

structure Observed (instants : List Timestamp) (taken : List EventKey) : Prop where
  ordered : instants.Pairwise (· ≤ ·)
  bounded : ∀ instant ∈ instants, ∃ past ∈ taken, instant ≤ past.ts

omit [Hook σ] in
private theorem Observed.next {former : List EventKey} (observed : Observed instants former)
    (fewer : former ⊆ taken) (causal : machine.Causal entities history taken) :
    Observed (instants ++ machine.observed) taken := by
  have earlier : ∀ instant ∈ instants, ∃ past ∈ taken, instant ≤ past.ts := by
    intro instant member
    obtain ⟨past, held, bounded⟩ := observed.bounded instant member
    exact ⟨past, fewer held, bounded⟩
  unfold Machine.observed
  split
  · rename_i executes
    obtain ⟨before, last, rfl, now, latest⟩ := causal.current executes
    rw [now]
    refine ⟨List.pairwise_append.mpr ⟨observed.ordered, List.pairwise_singleton _ _, ?_⟩, ?_⟩
    · intro instant member other same
      obtain ⟨past, held, bounded⟩ := earlier instant member
      rw [List.mem_singleton.mp same]
      exact Timestamp.le_iff_toNat.mpr (Nat.le_trans (Timestamp.le_iff_toNat.mp bounded)
        (Timestamp.le_iff_toNat.mp (latest past held)))
    · intro instant member
      rcases List.mem_append.mp member with held | same
      · exact earlier instant held
      · rw [List.mem_singleton.mp same]
        exact ⟨last, List.mem_append_right _ List.mem_cons_self,
          Timestamp.le_iff_toNat.mpr (Nat.le_refl _)⟩
  · rw [List.append_nil]
    exact ⟨observed.ordered, earlier⟩

private theorem Follows.causal (begins : start.Unstarted entities [])
    (follows : Follows body start history taken instants machine) :
    machine.Causal entities history taken ∧ Observed instants taken := by
  -- The first run begins with nothing taken, so the order that `Causal` states holds there
  -- whatever was planned before.
  obtain ⟨past, ready, signals, first, readied, ⟨⟨next, here⟩, begun⟩, leads⟩ := follows
  refine leads.keeps (motive := fun noted machine =>
    machine.Causal entities noted.1 noted.2.1 ∧ Observed noted.2.2 noted.2.1) ?_ ?_
  · exact ⟨(readied.unstarted begins).begun here begun, .nil, List.forall_mem_nil _⟩
  · rintro noted signals machine after _ ⟨lawful, plain, asks, outside⟩ stepped ⟨causal, observed⟩
    have next := (step_eq_ok stepped).causal lawful plain asks outside causal
    exact ⟨next, observed.next (List.subset_append_left _ _) next⟩

private theorem Follows.timeAdvances (begins : start.Unstarted entities [])
    (follows : Follows body start history taken instants machine) :
    TimeAdvances history taken instants machine := by
  obtain ⟨causal, observed⟩ := follows.causal begins
  obtain ⟨keys, _, past⟩ := causal.held
  refine ⟨past.increasing, causal.invoked, observed.ordered, fun executes => ?_⟩
  obtain ⟨earlier, last, same, now, _⟩ := causal.current executes
  exact ⟨earlier, last, same, now⟩

/-- Over all runs of a program whose events plan others from their own contexts, events leave the
queue in strictly increasing order and the time that callbacks observe does not decrease. -/
theorem time_never_goes_back (configuration : Configuration) (hook : σ)
    (valid : configuration.validate = .ok (.ok ()))
    (uncredited : configuration.strategies.localListsV2 = false) (memory : μ)
    (script : Script σ β μ) (body : β → Script σ β μ) :
    ∃ simulation : Simulation σ β, Simulation.new configuration hook = .ok (.ok simulation) ∧
      ∀ history taken instants machine,
        Follows body (.start simulation memory script) history taken instants machine →
          TimeAdvances history taken instants machine := by
  obtain ⟨simulation, started, booked⟩ := Simulation.booked_of_new (β := β) hook valid
  refine ⟨simulation, started, fun history taken instants machine follows => ?_⟩
  obtain ⟨queue, built, rfl⟩ := Simulation.ofQueue_of_new started
  have unstarted : Unstarted (.start (.ofQueue queue) memory script) configuration.entities
      ([] : List (Signal σ β)) :=
    ⟨⟨[], booked⟩, (EventQueue.sound_of_new built).2.2.trans uncredited, rfl,
      List.forall_mem_singleton.mpr ⟨rfl, rfl⟩, rfl⟩
  exact follows.timeAdvances unstarted

def keepingLanes : Configuration where
  entities := 2
  latency := .ofFunction 2 fun _ _ => 0
  interfaces := []
  strategies := ⟨true, false, true, true, false⟩
  boundary := .sequenced
  exploration := .standard

def planningThree : Script Exploration.Silent Bool Unit :=
  .perform (.schedule (.within (.node ⟨0⟩) 10) true) fun _ =>
    .perform (.schedule (.within (.node ⟨1⟩) 12) false) fun handle =>
      .perform (.schedule (.within (.node ⟨1⟩) 20) false) fun _ =>
        .perform (.cancel handle) fun _ => .run fun _ => .done

def sendingOne : Bool → Script Exploration.Silent Bool Unit
  | true => .perform (.schedule (.message (.node ⟨0⟩) (.node ⟨1⟩) 5 none) false) fun _ => .done
  | false => .done

/-- A message goes out at instant ten and is received at fifteen, after a cancelled event and
before one that was planned earlier. The clock of its sender lags behind then. -/
theorem time_never_goes_back_lagging :
    ∃ simulation history taken instants machine,
      Simulation.new keepingLanes Exploration.Silent.silent = .ok (.ok simulation) ∧
      Follows sendingOne (.start simulation () planningThree) history taken instants machine ∧
      taken = [⟨⟨10⟩, ⟨4⟩, .node ⟨0⟩⟩, ⟨⟨12⟩, ⟨5⟩, .node ⟨1⟩⟩, ⟨⟨15⟩, ⟨7⟩, .node ⟨1⟩⟩,
        ⟨⟨20⟩, ⟨6⟩, .node ⟨1⟩⟩] ∧
      (history.filterMap Signal.fired?).map Prod.fst = [⟨⟨10⟩, ⟨4⟩, .node ⟨0⟩⟩,
        ⟨⟨15⟩, ⟨7⟩, .node ⟨1⟩⟩, ⟨⟨20⟩, ⟨6⟩, .node ⟨1⟩⟩] ∧
      machine.simulation.nowIn (.node ⟨0⟩) = .ok ⟨10⟩ ∧
      TimeAdvances history taken instants machine := by
  obtain ⟨simulation, started, advances⟩ :=
    time_never_goes_back keepingLanes Exploration.Silent.silent rfl rfl () planningThree sendingOne
  have reached : ∃ history taken instants machine,
      Follows sendingOne (.start simulation () planningThree) history taken instants machine ∧
      taken = [⟨⟨10⟩, ⟨4⟩, .node ⟨0⟩⟩, ⟨⟨12⟩, ⟨5⟩, .node ⟨1⟩⟩, ⟨⟨15⟩, ⟨7⟩, .node ⟨1⟩⟩,
        ⟨⟨20⟩, ⟨6⟩, .node ⟨1⟩⟩] ∧
      (history.filterMap Signal.fired?).map Prod.fst = [⟨⟨10⟩, ⟨4⟩, .node ⟨0⟩⟩,
        ⟨⟨15⟩, ⟨7⟩, .node ⟨1⟩⟩, ⟨⟨20⟩, ⟨6⟩, .node ⟨1⟩⟩] ∧
      machine.simulation.nowIn (.node ⟨0⟩) = .ok ⟨10⟩ := by
    cases started
    refine ⟨_, _, _, _, ⟨_, _, _, _,
      .of_steps 4 rfl fun fewer below past before taken => ⟨?_, ?_, ?_⟩, ⟨⟨_, rfl⟩, rfl⟩,
      .of_steps 9 rfl fun fewer below past before taken => ⟨?_, ?_, ?_, ?_⟩⟩, rfl, rfl, rfl⟩
    · intro reply request next under here
      interval_cases fewer <;> cases taken <;> cases here
      · trivial
      · trivial
      · trivial
      · exact ⟨_, List.mem_append_left _ (List.mem_append_right _ List.mem_cons_self),
          .scheduled _ _⟩
    · intro reply request next under here
      interval_cases fewer <;> cases taken <;> cases here
      all_goals trivial
    · intro next under here
      interval_cases fewer <;> cases taken <;> cases here
    · intro reply request next under here
      interval_cases fewer <;> cases taken <;> cases here
      trivial
    · intro reply request next under here
      interval_cases fewer <;> cases taken <;> cases here
      trivial
    · intro reply request next under here
      interval_cases fewer <;> cases taken <;> cases here
      refine ⟨trivial, fun plan planned => ?_⟩
      cases planned
      exact ⟨rfl, rfl⟩
    · intro next under here
      interval_cases fewer <;> cases taken <;> cases here
  obtain ⟨history, taken, instants, machine, follows, keys, invoked, lags⟩ := reached
  exact ⟨simulation, history, taken, instants, machine, started, follows, keys, invoked, lags,
    advances history taken instants machine follows⟩

end Machine

end EventKernel
