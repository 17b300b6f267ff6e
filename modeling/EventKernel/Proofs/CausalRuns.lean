import EventKernel.Proofs.CausalClocks

set_option autoImplicit false

/-! Every program that keeps to the latencies keeps its events in time, so its clocks
advance, wherever the entities that wait for credit are the nearest to all they reach. -/

namespace EventKernel

open Queue (Configuration LatencyMatrix LaneQueue EventQueue)

variable {σ β : Type}

namespace Simulation

def Plan.Paced (plan : Plan) (configuration : Configuration) (simulation : Simulation σ β) :
    Prop :=
  ∃ base owner, plan.base = .node base ∧ plan.context = .node owner ∧
    simulation.Leads configuration base.index ∧
    (owner = base ∨ configuration.latency.between base.index owner.index ≤ plan.delay.toNat)

end Simulation

/-- Requests that keep events in time. -/
def Request.Harmless (configuration : Configuration) (simulation : Simulation σ β)
    (given : Handle → Prop) : {reply : Reply} → Request σ β reply → Prop
  | _, .schedule placement _ => (placement.plan simulation.context).Paced configuration simulation
  | _, .stopAfter delay =>
      (Placement.plan simulation.context (.here .stop delay none)).Paced configuration simulation
  | _, .requestRemote _ _ _ => False
  | _, .replaceQueue _ => False
  | _, .cancel handle => given handle
  | _, .remove handle => given handle
  | _, _ => True

namespace Simulation

variable {simulation after : Simulation σ β} {configuration : Configuration}
  {history : List (Signal σ β)} {lanes : LaneQueue}

private theorem Leads.paced {id : NodeId} (leads : simulation.Leads configuration id.index)
    (delay : UInt64) (kind : EventKind) (transmit : Option Transmission) :
    Plan.Paced ⟨.node id, .node id, delay, kind, transmit⟩ configuration simulation :=
  ⟨id, id, rfl, rfl, leads, Or.inl rfl⟩

private theorem leads_of_start (start : ∀ entity, simulation.time entity = 0) (entity : Nat) :
    simulation.Leads configuration entity := by
  intro other _
  rw [start]
  exact Nat.zero_le _

variable {reply : Reply} {request : Request σ β reply}

private theorem harmless_of_prepares (start : ∀ entity, simulation.time entity = 0)
    (prepares : request.Prepares history) :
    request.Harmless configuration simulation (Given history) := by
  cases request with
  | schedule placement callback =>
      cases placement with
      | here _ _ _ => exact prepares.elim
      | message _ _ _ _ => exact prepares.elim
      | within context delay =>
          cases context with
          | global => exact prepares.elim
          | node id => exact (leads_of_start start id.index).paced delay .undefined none
  | stopAfter | requestRemote | replaceQueue => exact prepares.elim
  | cancel | remove => exact prepares
  | scheduleDestroy | isExpired | delayLeft | stop | dispose | now | nowIn | currentContext
  | pending | remotePending | describe | detail | trace | configuration => trivial

private theorem harmless_of_follows (current : simulation.Current configuration)
    (follows : request.Follows configuration.latency simulation.context history) :
    request.Harmless configuration simulation (Given history) := by
  have own : simulation.context ≠ .global → ∀ delay kind transmit,
      Plan.Paced ⟨simulation.context, simulation.context, delay, kind, transmit⟩ configuration
        simulation := by
    intro entity delay kind transmit
    cases context : simulation.context with
    | global => exact absurd context entity
    | node id => exact (current id context).2.paced delay kind transmit
  cases request with
  | schedule placement callback =>
      cases placement with
      | here kind delay transmit => exact own follows delay kind transmit
      | within owner delay =>
          obtain ⟨entity, same⟩ := follows
          rw [same]
          exact own entity delay .undefined none
      | message sender owner delay transmit =>
          cases sender with
          | global => exact follows.elim
          | node sender =>
              cases owner with
              | global => exact follows.elim
              | node owner =>
                  obtain ⟨context, far⟩ := follows
                  exact ⟨sender, owner, rfl, rfl, (current sender context).2, Or.inr far⟩
  | stopAfter delay => exact own follows delay .stop none
  | requestRemote | replaceQueue => exact follows.elim
  | cancel | remove => exact follows
  | scheduleDestroy | isExpired | delayLeft | stop | dispose | now | nowIn | currentContext
  | pending | remotePending | describe | detail | trace | configuration => trivial

private theorem Timely.told (timely : simulation.Timely configuration (Given history) lanes)
    {signal : Signal σ β} (nothing : ∀ handle, ¬ signal.Gives handle) :
    simulation.Timely configuration (Given (history ++ [signal])) lanes :=
  timely.weaken fun handle known _ => known.append_singleton.resolve_right (nothing handle)

private theorem Timely.gave {handle : Handle}
    (timely : simulation.Timely configuration
      (fun other => Given history other ∨ other = handle) lanes)
    {signal : Signal σ β} (only : ∀ other, signal.Gives other → other = handle) :
    simulation.Timely configuration (Given (history ++ [signal])) lanes :=
  timely.weaken fun other known _ => known.append_singleton.imp_right (only other)

variable [Exploration.Hook σ]

private theorem Timely.answer (timely : simulation.Timely configuration (Given history) lanes)
    (metric : configuration.latency.Metric configuration.entities) {reply : Reply}
    {request : Request σ β reply} {value : reply.Value}
    (harmless : request.Harmless configuration simulation (Given history))
    (answered : request.answer simulation = .ok (value, after)) :
    ∃ rest, after.Timely configuration (Given (history ++ [.answered request value])) rest := by
  cases request with
  | schedule placement callback =>
      obtain ⟨base, owner, cause, context, leads, paced⟩ := harmless
      obtain ⟨grown, kept⟩ := timely.schedule metric cause context leads paced answered
      refine ⟨grown, kept.gave ?_⟩
      intro other gives
      cases gives
      rfl
  | stopAfter delay =>
      obtain ⟨base, owner, cause, context, leads, paced⟩ := harmless
      obtain ⟨grown, kept⟩ := timely.schedule metric cause context leads paced answered
      refine ⟨grown, kept.gave ?_⟩
      intro other gives
      cases gives
      rfl
  | scheduleDestroy callback =>
      refine ⟨lanes, (timely.scheduleDestroy answered).gave ?_⟩
      intro other gives
      cases gives
      rfl
  | requestRemote context delay callback => exact harmless.elim
  | replaceQueue replacement => exact harmless.elim
  | cancel handle =>
      obtain ⟨next, cancelled, returned⟩ := bind_eq_ok answered
      cases returned
      obtain ⟨rest, kept⟩ := timely.withdraw harmless (cancel_eq_ok cancelled)
      exact ⟨rest, kept.told fun _ gives => nomatch gives⟩
  | remove handle =>
      obtain ⟨next, removed, returned⟩ := bind_eq_ok answered
      cases returned
      obtain ⟨rest, kept⟩ := timely.withdraw harmless (remove_eq_ok removed)
      exact ⟨rest, kept.told fun _ gives => nomatch gives⟩
  | dispose =>
      cases answered
      obtain ⟨rest, kept⟩ := timely.dispose
      exact ⟨rest, kept.told fun _ gives => nomatch gives⟩
  | stop =>
      cases answered
      have kept : simulation.stop.Timely configuration (Given history) lanes :=
        timely.of_same rfl rfl rfl (Nat.le_refl _) timely.inbox
      exact ⟨lanes, kept.told fun _ gives => nomatch gives⟩
  | isExpired _ | delayLeft _ | now | nowIn _ =>
      obtain ⟨answer, asked, returned⟩ := bind_eq_ok answered
      cases returned
      exact ⟨lanes, timely.told fun _ gives => nomatch gives⟩
  | currentContext | pending | remotePending | describe | detail | trace | configuration =>
      cases answered
      exact ⟨lanes, timely.told fun _ gives => nomatch gives⟩

end Simulation

namespace Simulation

private theorem validate_of_new {configuration : Configuration} {hook : σ}
    {simulation : Simulation σ β}
    (started : Simulation.new configuration hook = .ok (.ok simulation)) :
    configuration.validate = .ok (.ok ()) := by
  obtain ⟨answer, built, rest⟩ := bind_eq_ok started
  cases answer with
  | error error => cases rest
  | ok queue => exact (EventQueue.new_eq_ok built).1

theorem new_of_lanes {configuration : Configuration} {lanes : LaneQueue}
    (valid : configuration.validate = .ok (.ok ()))
    (rule : configuration.strategies.localListsV2 = true)
    (built : LaneQueue.new configuration = .ok lanes) (hook : σ) :
    (Simulation.new configuration hook : Except Fault (Except _ (Simulation σ β))) =
      .ok (.ok (ofQueue ⟨configuration, .partitioned lanes, .new configuration.exploration,
        hook⟩)) := by
  have accepted := Queue.Configuration.accepted_of_validate valid
  unfold Simulation.new EventQueue.new Queue.Layout.new
  rw [valid, if_pos (accepted.creditsNeedLanes rule), built]
  rfl

theorem time_ofQueue (queue : EventQueue σ) (entity : Nat) :
    (ofQueue queue : Simulation σ β).time entity = 0 := by
  unfold time ofQueue
  cases found : (List.replicate queue.entities Clock.start)[entity]? with
  | none => rfl
  | some clock =>
      rw [List.eq_of_mem_replicate (List.mem_of_getElem? found)]
      rfl

structure Unmoved (simulation : Simulation σ β) (configuration : Configuration)
    (given : Handle → Prop) : Prop where
  timely : ∃ lanes, simulation.Timely configuration given lanes
  time : ∀ entity, simulation.time entity = 0
  outside : simulation.context = .global

private theorem unmoved_of_new {configuration : Configuration} {hook : σ}
    {simulation : Simulation σ β} (rule : configuration.strategies.localListsV2 = true)
    (quiet : configuration.exploration.enabled = false)
    (started : Simulation.new configuration hook = .ok (.ok simulation)) :
    simulation.Unmoved configuration (Given ([] : List (Signal σ β))) := by
  have valid := validate_of_new started
  have accepted := Queue.Configuration.accepted_of_validate valid
  obtain ⟨lanes, built, sound, noEvents, latency, _, _, _, _, credited, _⟩ :=
    LaneQueue.new_sound accepted
  rw [new_of_lanes valid rule built hook] at started
  cases started
  have none : ∀ event, event ∉ lanes.events := by
    intro event member
    rw [noEvents] at member
    cases member
  refine ⟨⟨lanes, ⟨rfl, sound, ⟨?_, ?_⟩, latency, ?_, quiet, ?_, ?_, ?_, ?_, rfl⟩⟩,
    time_ofQueue _, rfl⟩
  · exact fun event member => absurd member (none event)
  · exact fun event member => absurd member (none event)
  · rintro entity ⟨table, senders, present, found, some⟩
    obtain ⟨held, kept, made⟩ := credited rule
    rw [kept] at present
    cases present
    exact (Queue.CreditTable.new_waits_iff made).mp ⟨senders, found, some⟩
  · exact List.length_replicate
  · exact fun event member => absurd member (none event)
  · exact fun event member => absurd member (none event)
  · rintro handle ⟨signal, impossible, _⟩
    cases impossible

end Simulation

namespace Machine

variable {μ : Type} [Exploration.Hook σ] {body : β → Script σ β μ} {machine after : Machine σ β μ}
  {configuration : Configuration} {history signals : List (Signal σ β)}

/-- What is asked for before the run moves no clock. -/
theorem Stepped.unmoved (stepped : Stepped body machine signals after)
    (metric : configuration.latency.Metric configuration.entities) {rest : Script σ β μ}
    {below : List (Frame σ β μ)} (here : machine.frames = .script rest :: below)
    (keeps : rest.Keeps (Request.Prepares history))
    (unmoved : machine.simulation.Unmoved configuration (Given history)) :
    after.simulation.Unmoved configuration (Given (history ++ signals)) := by
  obtain ⟨⟨lanes, timely⟩, start, context⟩ := unmoved
  have head {first : Script σ β μ} {others : List (Frame σ β μ)}
      (same : machine.frames = .script first :: others) : rest = first := by
    rw [here] at same
    cases same
    rfl
  have idle : ¬ machine.IsRunning := by
    rintro ⟨before, next, others, running⟩
    rw [here] at running
    cases running
  cases stepped with
  | moved memory frames =>
      rw [List.append_nil]
      exact ⟨⟨lanes, timely⟩, start, context⟩
  | ran result frames =>
      exact ⟨⟨lanes, timely.told fun _ gives => nomatch gives⟩, start, context⟩
  | performed request next below value simulation atHead answered =>
      rw [head atHead] at keeps
      obtain ⟨clocks, same, _⟩ := Simulation.answer_clocks request answered
      refine ⟨timely.answer metric (Simulation.harmless_of_prepares start keeps) answered,
        ?_, same.trans context⟩
      rw [Simulation.time_congr clocks]
      exact start
  | begun next below simulation atHead began =>
      rw [head atHead] at keeps
      exact keeps.elim
  | starved _ running _ => exact absurd running idle
  | skipped _ _ running _ _ => exact absurd running idle
  | fired _ _ _ running _ => exact absurd running idle
  | halted _ _ running _ => exact absurd running idle
  | finished below simulation atHead done =>
      rw [here] at atHead
      cases atHead
  | destroying handle work destroyEvents next below atHead first =>
      rw [here] at atHead
      cases atHead

private theorem Prepared.unmoved (rule : configuration.strategies.localListsV2 = true)
    (quiet : configuration.exploration.enabled = false)
    (metric : configuration.latency.Metric configuration.entities) {hook : σ}
    {simulation : Simulation σ β} {memory : μ} {script : Script σ β μ}
    (started : Simulation.new configuration hook = .ok (.ok simulation))
    (prepared : Prepared body (.start simulation memory script) history machine) :
    machine.simulation.Unmoved configuration (Given history) := by
  refine prepared.keeps (motive := fun history machine =>
    machine.simulation.Unmoved configuration (Given history))
    (Simulation.unmoved_of_new rule quiet started) ?_
  rintro history signals machine after _ ⟨rest, below, here, keeps⟩ stepped unmoved
  exact (step_eq_ok stepped).unmoved metric here keeps unmoved

section

variable (metric : configuration.latency.Metric configuration.entities)
  (composes : configuration.latency.Composes configuration.entities)
  (nearby : configuration.WaitsNearby)

include metric composes nearby

/-- No step turns a clock back, and those that keep to the latencies keep events in time. -/
theorem Stepped.timely (stepped : Stepped body machine signals after) {lanes : LaneQueue}
    (timely : machine.simulation.Timely configuration (Given history) lanes)
    (current : machine.simulation.Current configuration) :
    (∀ entity, machine.simulation.time entity ≤ after.simulation.time entity) ∧
      after.simulation.Current configuration ∧
      ((∀ (reply : Reply) (request : Request σ β reply) next below,
        machine.frames = .script (.perform request next) :: below →
          request.Follows configuration.latency machine.simulation.context history) →
      ∃ rest, after.simulation.Timely configuration (Given (history ++ signals)) rest) := by
  have still : ∀ {later : Simulation σ β}, later.localClocks = machine.simulation.localClocks →
      ∀ entity, machine.simulation.time entity ≤ later.time entity := by
    intro later same entity
    exact Nat.le_of_eq (by rw [Simulation.time_congr same])
  have outside : ∀ {later : Simulation σ β}, later.context = .global →
      later.Current configuration := by
    intro later context id entered
    rw [context] at entered
    cases entered
  cases stepped with
  | moved memory frames =>
      rw [List.append_nil]
      exact ⟨still rfl, current, fun _ => ⟨lanes, timely⟩⟩
  | ran result frames =>
      exact ⟨still rfl, current, fun _ => ⟨lanes, timely.told fun _ gives => nomatch gives⟩⟩
  | performed request next below value simulation here answered =>
      obtain ⟨clocks, context, _⟩ := Simulation.answer_clocks request answered
      refine ⟨still clocks, current.congr clocks context, fun follows => ?_⟩
      exact timely.answer metric
        (Simulation.harmless_of_follows current (follows _ request next below here)) answered
  | begun next below simulation here began =>
      obtain ⟨kept, clocks, context⟩ := timely.beginRun began
      rw [List.append_nil]
      exact ⟨still clocks, current.congr clocks context, fun _ => ⟨lanes, kept⟩⟩
  | starved simulation here taken =>
      obtain ⟨kept, entered, advance⟩ := timely.dequeue current metric composes nearby
        (Simulation.dequeue_eq_ok taken)
      rw [List.append_nil]
      exact ⟨advance, entered, fun _ => kept⟩
  | skipped entered simulation here taken left =>
      obtain ⟨⟨rest, kept⟩, _, advance⟩ := timely.dequeue current metric composes nearby
        (Simulation.dequeue_eq_ok taken)
      obtain ⟨last, clocks, context⟩ := kept.leaveEvent left
      rw [List.append_nil]
      refine ⟨?_, outside context, fun _ => ⟨rest, last⟩⟩
      rw [← Simulation.time_congr clocks] at advance
      exact advance
  | fired key work simulation here taken =>
      obtain ⟨⟨rest, kept⟩, entered, advance⟩ := timely.dequeue current metric composes nearby
        (Simulation.dequeue_eq_ok taken)
      exact ⟨advance, entered, fun _ => ⟨rest, kept.told fun _ gives => nomatch gives⟩⟩
  | halted key simulation here taken =>
      obtain ⟨⟨rest, kept⟩, entered, advance⟩ := timely.dequeue current metric composes nearby
        (Simulation.dequeue_eq_ok taken)
      have stopped : simulation.stop.Timely configuration (Given history) rest :=
        kept.of_same rfl rfl rfl (Nat.le_refl _) kept.inbox
      exact ⟨advance, entered.congr rfl rfl,
        fun _ => ⟨rest, stopped.told fun _ gives => nomatch gives⟩⟩
  | finished below simulation here done =>
      obtain ⟨kept, clocks, context⟩ := timely.finishEvent done
      rw [List.append_nil]
      exact ⟨still clocks, outside context, fun _ => ⟨lanes, kept⟩⟩
  | destroying handle work destroyEvents next below here first =>
      have kept : Simulation.Timely { machine.simulation with destroyEvents } configuration
          (Given history) lanes := timely.of_same rfl rfl rfl (Nat.le_refl _) timely.inbox
      exact ⟨still rfl, current.congr rfl rfl,
        fun _ => ⟨lanes, kept.told fun _ gives => nomatch gives⟩⟩

private theorem Underway.timely (rule : configuration.strategies.localListsV2 = true)
    (quiet : configuration.exploration.enabled = false) {hook : σ}
    {simulation : Simulation σ β} {memory : μ} {script : Script σ β μ}
    (started : Simulation.new configuration hook = .ok (.ok simulation))
    (underway : Underway configuration.latency body (.start simulation memory script)
      history machine) :
    (∃ lanes, machine.simulation.Timely configuration (Given history) lanes) ∧
      machine.simulation.Current configuration := by
  obtain ⟨past, ready, below, signals, first, prepared, ⟨⟨next, here⟩, begun⟩, leads⟩ := underway
  refine leads.keeps (motive := fun history machine =>
    (∃ lanes, machine.simulation.Timely configuration (Given history) lanes) ∧
      machine.simulation.Current configuration) ?_ ?_
  · obtain ⟨⟨lanes, timely⟩, _, context⟩ := prepared.unmoved rule quiet metric started
    have current : ready.simulation.Current configuration := by
      intro id entered
      rw [context] at entered
      cases entered
    obtain ⟨_, entered, kept⟩ := (step_eq_ok begun).timely metric composes nearby timely current
    refine ⟨kept ?_, entered⟩
    intro reply request after others same
    rw [here] at same
    cases same
  · rintro history signals machine after _ keeps stepped ⟨⟨lanes, timely⟩, current⟩
    obtain ⟨_, entered, kept⟩ :=
      (step_eq_ok stepped).timely metric composes nearby timely current
    refine ⟨kept ?_, entered⟩
    intro reply request after others same
    exact keeps _ others same

end

end Machine

theorem Queue.Configuration.clocksAdvance_of_waitsNearby {configuration : Configuration}
    (rule : configuration.strategies.localListsV2 = true)
    (quiet : configuration.exploration.enabled = false)
    (metric : configuration.latency.Metric configuration.entities)
    (composes : configuration.latency.Composes configuration.entities)
    (nearby : configuration.WaitsNearby) :
    configuration.ClocksAdvance := by
  intro σ β μ _ hook simulation memory script body history signals machine after started underway
    stepped entity earlier later before afterwards
  obtain ⟨⟨lanes, timely⟩, current⟩ :=
    underway.timely metric composes nearby rule quiet started
  obtain ⟨advance, _, _⟩ :=
    (Machine.step_eq_ok stepped).timely metric composes nearby timely current
  have ordered := advance entity
  unfold Simulation.time at ordered
  rw [before, afterwards] at ordered
  exact Timestamp.le_iff_toNat.mpr ordered

end EventKernel
