import EventKernel.Exploration.Seeded
import EventKernel.Proofs.HookCalls
import Mathlib.Data.List.Basic

set_option autoImplicit false

/-! Which transmissions a perturbation delays. Eligible transmissions are numbered from one in the
order of application, and those whose number is in a window of the settings are delayed, each by the
delay bound at that application; nothing else is changed. This holds for every engine, however its
answers vary from call to call, as long as it lets the branch go on. -/

namespace EventKernel.Exploration.Perturbation

open Queue (PerturbationSettings)

/-- What one application did: its result, what it left, and the calls that it made. -/
structure Outcome where
  result : Except BranchEnded Event
  after : Perturbation
  calls : List Call

def Outcome.Accepted (outcome : Outcome) : Prop :=
  ∃ event, outcome.result = .ok event

/-- Application to one event after another, whatever the results are. -/
def applyAll {σ : Type} [Hook σ] (perturbation : Perturbation) (hook : σ) :
    List Event → Except Fault (List Outcome × σ)
  | [] => .ok ([], hook)
  | event :: rest => do
      let (result, after, next) ← perturbation.apply hook event
      let (outcomes, last) ← after.applyAll next rest
      return (⟨result, after, perturbation.calls hook event⟩ :: outcomes, last)

def number (settings : PerturbationSettings) (earlier : List Event) : Nat :=
  earlier.countP (isEligible settings) + 1

/-- An eligible transmission whose number is in the window. No number is zero, so a window that
begins at zero begins at one. -/
def InWindow (settings : PerturbationSettings) (earlier : List Event) (event : Event) : Prop :=
  isEligible settings event = true ∧
    max settings.firstPerturbed.toNat 1 ≤ number settings earlier ∧
    number settings earlier <
      max settings.firstPerturbed.toNat 1 + settings.maxPerturbedEvents.toNat

instance (settings : PerturbationSettings) (earlier : List Event) (event : Event) :
    Decidable (InWindow settings earlier event) :=
  inferInstanceAs (Decidable (_ ∧ _ ∧ _))

/-- The serial number of an event that was in the window. -/
def Marked (settings : PerturbationSettings) (events : List Event) (uid : EventUid) : Prop :=
  ∃ index event, events[index]? = some event ∧ InWindow settings (events.take index) event ∧
    event.key.uid = uid

/-- What an application does to an event that comes after others. -/
structure Effect (settings : PerturbationSettings) (earlier : List Event) (event : Event)
    (outcome : Outcome) : Prop where
  delayed : InWindow settings earlier event → ∃ delay ts,
    outcome.after.delay = some delay ∧ delay ≤ settings.maxBound ∧
      ts.value.toNat = min (event.key.ts.value.toNat + delay.toNat) (UInt64.size - 1) ∧
      outcome.result = .ok { event with key := { event.key with ts } }
  spared : ¬ InWindow settings earlier event → outcome.result = .ok event
  forks : outcome.calls.count .enableForking = if InWindow settings earlier event then 1 else 0
  marked : ∀ uid, outcome.after.isPerturbed uid = true ↔ Marked settings (earlier ++ [event]) uid

/-- The two counters of a perturbation, after these events and no refusal. -/
structure Tallied (settings : PerturbationSettings) (earlier : List Event)
    (perturbation : Perturbation) : Prop where
  configured : perturbation.settings = settings
  going : perturbation.terminated = none
  within : perturbation.Within
  seen : perturbation.eligibleSeen = earlier.countP (isEligible settings)
  /-- As many as have a number from the first of the window on, up to the length of the window. -/
  count : perturbation.count = min
    (earlier.countP (isEligible settings) + 1 - max settings.firstPerturbed.toNat 1)
    settings.maxPerturbedEvents.toNat
  marked : ∀ uid, uid ∈ perturbation.perturbed ↔ Marked settings earlier uid

variable {settings : PerturbationSettings} {earlier events : List Event} {event : Event}
  {uid : EventUid} {before after perturbation : Perturbation}

private theorem marked_append : Marked settings (earlier ++ [event]) uid ↔
    Marked settings earlier uid ∨ InWindow settings earlier event ∧ event.key.uid = uid := by
  constructor
  · rintro ⟨index, other, found, inside, same⟩
    rcases Nat.lt_trichotomy index earlier.length with below | rfl | above
    · rw [List.getElem?_append_left below] at found
      rw [List.take_append_of_le_length (Nat.le_of_lt below)] at inside
      exact .inl ⟨index, other, found, inside, same⟩
    · rw [List.getElem?_concat_length] at found
      rw [List.take_left] at inside
      cases found
      exact .inr ⟨inside, same⟩
    · rw [List.getElem?_eq_none (by rw [List.length_append]; exact above)] at found
      cases found
  · rintro (⟨index, other, found, inside, same⟩ | ⟨inside, same⟩)
    · have below := (List.getElem?_eq_some_iff.mp found).1
      refine ⟨index, other, ?_, ?_, same⟩
      · rw [List.getElem?_append_left below]
        exact found
      · rw [List.take_append_of_le_length (Nat.le_of_lt below)]
        exact inside
    · refine ⟨earlier.length, event, List.getElem?_concat_length, ?_, same⟩
      rw [List.take_left]
      exact inside

private theorem Marked.mem (marked : Marked settings events uid) :
    uid ∈ events.map fun event => event.key.uid := by
  obtain ⟨index, event, found, _, rfl⟩ := marked
  exact List.mem_map_of_mem (List.mem_of_getElem? found)

namespace Tallied

private theorem new (settings : PerturbationSettings) : Tallied settings [] (.new settings) where
  configured := rfl
  going := rfl
  within := new_within settings
  seen := rfl
  count := by
    change 0 = min (0 + 1 - max settings.firstPerturbed.toNat 1) _
    rw [Nat.sub_eq_zero_of_le (Nat.le_max_right _ 1), Nat.zero_min]
  marked uid := by
    refine ⟨nofun, ?_⟩
    rintro ⟨index, event, found, _⟩
    cases found

variable (tallied : Tallied settings earlier before)

include tallied

private theorem inWindow_iff (eligible : isEligible settings event = true) :
    InWindow settings earlier event ↔ before.Opens := by
  unfold InWindow Opens number
  rw [tallied.configured, tallied.seen, tallied.count]
  constructor
  · rintro ⟨_, reached, ahead⟩
    omega
  · rintro ⟨reached, room⟩
    refine ⟨eligible, ?_, ?_⟩
    · omega
    · omega

private theorem passed (outside : ¬ InWindow settings earlier event)
    (configured : after.settings = settings)
    (going : after.terminated = none) (within : after.Within)
    (seen : after.eligibleSeen = before.eligibleSeen + if isEligible settings event then 1 else 0)
    (same : after.perturbed = before.perturbed) : Tallied settings (earlier ++ [event]) after where
  configured := configured
  going := going
  within := within
  seen := by rw [seen, tallied.seen, List.countP_append, List.countP_singleton]
  count := by
    have held := tallied.count
    unfold Perturbation.count at held ⊢
    rw [same, List.countP_append, List.countP_singleton]
    cases eligible : isEligible settings event with
    | false => exact held
    | true =>
        -- Either the window has not begun, or it is over.
        have closed := mt (tallied.inWindow_iff eligible).mpr outside
        unfold Opens Perturbation.count at closed
        rw [tallied.configured, tallied.seen, held] at closed
        rw [held, if_pos rfl]
        omega
  marked uid := by
    rw [same, tallied.marked uid, marked_append]
    exact ⟨.inl, fun either => either.resolve_right fun marked => outside marked.1⟩

private theorem hit (inside : InWindow settings earlier event)
    (configured : after.settings = settings)
    (going : after.terminated = none) (within : after.Within)
    (seen : after.eligibleSeen = before.eligibleSeen + 1)
    (noted : after.perturbed = before.perturbed ++ [event.key.uid]) :
    Tallied settings (earlier ++ [event]) after where
  configured := configured
  going := going
  within := within
  seen := by rw [seen, tallied.seen, List.countP_append, List.countP_singleton, if_pos inside.1]
  count := by
    have held := tallied.count
    obtain ⟨reached, room⟩ := (tallied.inWindow_iff inside.1).mp inside
    unfold Perturbation.count at held room ⊢
    rw [tallied.configured, tallied.seen] at reached
    rw [tallied.configured] at room
    rw [noted, List.length_append, List.length_singleton, List.countP_append, List.countP_singleton,
      if_pos inside.1]
    omega
  marked uid := by
    rw [noted, List.mem_append, List.mem_singleton, tallied.marked uid, marked_append]
    exact or_congr_right ⟨fun same => ⟨inside, same.symm⟩, fun marked => marked.2.symm⟩

omit tallied in
private theorem isPerturbed_iff (tallied : Tallied settings events after) (uid : EventUid) :
    after.isPerturbed uid = true ↔ Marked settings events uid :=
  List.contains_iff_mem.trans (tallied.marked uid)

omit tallied in
private theorem spared_effect (tallied : Tallied settings (earlier ++ [event]) after)
    (outside : ¬ InWindow settings earlier event) {told : List Call}
    (silent : told.count .enableForking = 0) :
    Effect settings earlier event ⟨.ok event, after, told⟩ where
  delayed inside := absurd inside outside
  spared _ := rfl
  forks := by rw [if_neg outside, silent]
  marked := tallied.isPerturbed_iff

omit tallied in
private theorem delayed_effect (tallied : Tallied settings (earlier ++ [event]) after)
    (inside : InWindow settings earlier event) {delay : UInt64} (bound : after.delay = some delay)
    (inRange : delay ≤ settings.maxBound) {told : List Call}
    (silent : told.count .enableForking = 0) :
    Effect settings earlier event
      ⟨.ok (delayed event delay), after, told ++ delayingCalls event delay⟩ where
  delayed _ := ⟨delay, event.key.ts.saturatingAdd delay, bound, inRange,
    Word.toNat_saturatingAdd event.key.ts.value delay, rfl⟩
  spared outside := absurd inside outside
  forks := by
    rw [if_pos inside, List.count_append, silent]
    rfl
  marked := tallied.isPerturbed_iff

/-- One accepted application does to the event what its number says, and keeps the tally. -/
theorem step (enabled : settings.enabled = true)
    (fresh : event.key.uid ∉ earlier.map fun event => event.key.uid) {prepared : Event}
    {told : List Call} (applies : before.Applies event (.ok prepared) after told) :
    Tallied settings (earlier ++ [event]) after ∧
      Effect settings earlier event ⟨.ok prepared, after, told⟩ := by
  have within := applies.within tallied.within
  have configured := tallied.configured
  have unchanged := applies.settings.trans configured
  cases applies with
  | disabled off =>
      rw [configured, enabled] at off
      cases off
  | exempt delay told _ going binds inRange ineligible =>
      rw [configured] at ineligible
      have outside : ¬ InWindow settings earlier event := fun inside =>
        Bool.false_ne_true (ineligible.symm.trans inside.1)
      have kept := tallied.passed outside unchanged going within (by rw [ineligible]; rfl) rfl
      exact ⟨kept, kept.spared_effect outside binds.silent.1⟩
  | spared delay told _ going binds inRange eligible closed =>
      rw [configured] at eligible
      have outside := mt (tallied.inWindow_iff eligible).mp closed
      have kept := tallied.passed outside unchanged going within (by rw [eligible]; rfl) rfl
      exact ⟨kept, kept.spared_effect outside binds.silent.1⟩
  | delayed delay told _ going binds inRange eligible opened =>
      rw [configured] at eligible inRange
      have inside := (tallied.inWindow_iff eligible).mpr opened
      have unmarked : before.isPerturbed event.key.uid = false := by
        rw [Bool.eq_false_iff]
        exact fun marked => fresh (((tallied.isPerturbed_iff _).mp marked).mem)
      have kept := tallied.hit inside unchanged going within rfl (by
        unfold noted
        rw [unmarked, if_neg Bool.false_ne_true])
      exact ⟨kept, kept.delayed_effect inside rfl inRange binds.silent.1⟩

end Tallied

/-! ### Whole runs -/

variable {σ : Type} [Hook σ] {hook last : σ} {outcomes : List Outcome}

/-- What holds of each event of a run, by its place. -/
theorem Tallied.applyAll (tallied : Tallied settings earlier perturbation)
    (enabled : settings.enabled = true)
    (distinct : ((earlier ++ events).map fun event => event.key.uid).Nodup)
    (applied : perturbation.applyAll hook events = .ok (outcomes, last))
    (accepted : ∀ outcome ∈ outcomes, outcome.Accepted) :
    outcomes.length = events.length ∧ ∀ index event, events[index]? = some event →
      ∃ outcome, outcomes[index]? = some outcome ∧
        Effect settings (earlier ++ events.take index) event outcome := by
  induction events generalizing earlier perturbation hook outcomes with
  | nil =>
      cases applied
      exact ⟨rfl, nofun⟩
  | cons event rest ih =>
      obtain ⟨⟨result, after, next⟩, one, remaining⟩ := bind_eq_ok applied
      obtain ⟨⟨others, _⟩, following, returned⟩ := bind_eq_ok remaining
      cases returned
      obtain ⟨prepared, rfl⟩ := accepted _ List.mem_cons_self
      have fresh : event.key.uid ∉ earlier.map fun event => event.key.uid := by
        rw [List.map_append, List.map_cons] at distinct
        exact fun member => (List.nodup_append.mp distinct).2.2 _ member _ List.mem_cons_self rfl
      obtain ⟨kept, effect⟩ := tallied.step enabled fresh (applies_calls tallied.within one)
      rw [List.append_cons] at distinct
      obtain ⟨length, each⟩ := ih kept distinct following
        fun outcome member => accepted outcome (List.mem_cons_of_mem _ member)
      refine ⟨congrArg (· + 1) length, fun index other found => ?_⟩
      cases index with
      | zero =>
          cases found
          refine ⟨_, rfl, ?_⟩
          rw [List.take_zero, List.append_nil]
          exact effect
      | succ index =>
          obtain ⟨outcome, present, shown⟩ := each index other found
          refine ⟨outcome, present, ?_⟩
          rw [List.take_succ_cons, List.append_cons]
          exact shown

private theorem exists_applyAll (perturbation : Perturbation) (hook : σ)
    (within : perturbation.Within)
    (countable : perturbation.eligibleSeen + events.countP (isEligible perturbation.settings) <
      eligibleLimit) : ∃ outcomes last, perturbation.applyAll hook events = .ok (outcomes, last) := by
  induction events generalizing perturbation hook with
  | nil => exact ⟨_, _, rfl⟩
  | cons event rest ih =>
      rw [List.countP_cons] at countable
      obtain ⟨⟨result, after, next⟩, one⟩ := exists_applied perturbation hook event fun eligible => by
        rw [if_pos eligible] at countable
        omega
      have applies := applies_calls within one
      have atMost := applies.eligibleSeen_le
      obtain ⟨outcomes, last, following⟩ := ih after next (applies.within within) (by
        rw [applies.settings]
        omega)
      refine ⟨⟨result, after, perturbation.calls hook event⟩ :: outcomes, last, ?_⟩
      unfold Perturbation.applyAll
      rw [one]
      change (after.applyAll next rest >>= _) = _
      rw [following]
      rfl

/-! ### Reproducible engines -/

def Remembers (perturbation : Perturbation) (hook : Seeded) : Prop :=
  ∀ delay, perturbation.delay = some delay →
    hook.trace.bindings.lookup symbolicDelay = some delay

private theorem lookup_bind (bindings : List (String × UInt64)) (name : String) (value : UInt64) :
    (Seeded.bind bindings name value).lookup name = some value := by
  induction bindings with
  | nil => exact List.lookup_cons_self
  | cons binding rest ih =>
      obtain ⟨other, held⟩ := binding
      unfold Seeded.bind
      by_cases same : other = name
      · rw [if_pos same]
        exact List.lookup_cons_self
      · rw [if_neg same, List.lookup_cons, beq_false_of_ne (Ne.symm same)]
        exact ih

/-- A delay is bound once, and then read again. -/
theorem bind_remembers {hook : Seeded} (remembers : perturbation.Remembers hook) :
    ∃ delay, (perturbation.bind hook).2.1.delay = some delay ∧
      (perturbation.bind hook).2.2.trace.bindings.lookup symbolicDelay = some delay ∧
      ∀ held, perturbation.delay = some held → held = delay := by
  cases bound : perturbation.delay with
  | none =>
      have drawn : (Hook.makeSymbolic symbolicDelay 0 hook).2.trace.bindings.lookup symbolicDelay =
          some (Hook.makeSymbolic symbolicDelay 0 hook).1 := by
        cases present : hook.trace.bindings.lookup symbolicDelay with
        | some value => simp only [Hook.makeSymbolic, present]
        | none =>
            simp only [Hook.makeSymbolic, present]
            exact lookup_bind _ _ _
      rw [bind_unbound bound]
      refine ⟨(Hook.makeSymbolic symbolicDelay 0 hook).1, ?_, ?_, nofun⟩
      · unfold settle
        split
        · rfl
        · rfl
      · unfold settle
        split
        · exact drawn
        · exact drawn
  | some held =>
      have present := remembers held bound
      have known : (Hook.isSymbolic symbolicDelay hook).1 = true := by
        change (hook.trace.bindings.lookup symbolicDelay).isSome = true
        rw [present]
        rfl
      rw [bind_known bound known]
      exact ⟨held, bound, present, fun other same => (Option.some.inj same).symm⟩

private theorem prepare_keeps {delay : UInt64} {hook next : Seeded}
    {result : Except BranchEnded Event}
    (prepared : perturbation.prepare delay hook event = .ok (result, after, next)) :
    after.delay = perturbation.delay ∧ next.trace.bindings = hook.trace.bindings := by
  rcases prepare_cases prepared with
    ⟨_, _, rfl, rfl⟩ | ⟨_, _, _, rfl, rfl⟩ | ⟨_, _, _, rfl, rfl⟩
  · exact ⟨rfl, rfl⟩
  · exact ⟨rfl, rfl⟩
  · exact ⟨rfl, rfl⟩

private theorem apply_keeps {hook next : Seeded} {result : Except BranchEnded Event}
    (enabled : perturbation.settings.enabled = true) (going : perturbation.terminated = none)
    (applied : perturbation.apply hook event = .ok (result, after, next)) :
    after.delay = (perturbation.bind hook).2.1.delay ∧
      next.trace.bindings = (perturbation.bind hook).2.2.trace.bindings := by
  obtain ⟨⟨outcome, left, later⟩, bound⟩ :
      ∃ outcome, perturbation.bind hook = outcome := ⟨_, rfl⟩
  rw [bound]
  cases outcome with
  | error ended =>
      cases (apply_refused enabled going bound).symm.trans applied
      exact ⟨rfl, rfl⟩
  | ok delay => exact prepare_keeps ((apply_bound enabled going bound).symm.trans applied)

/-- One application leaves a delay that the engine remembers, the one bound before if there was
one. -/
theorem apply_remembers {hook next : Seeded} {result : Except BranchEnded Event}
    (enabled : perturbation.settings.enabled = true) (remembers : perturbation.Remembers hook)
    (going : perturbation.delay = none → perturbation.terminated = none)
    (applied : perturbation.apply hook event = .ok (result, after, next)) :
    ∃ delay, after.delay = some delay ∧ after.Remembers next ∧
      ∀ held, perturbation.delay = some held → held = delay := by
  cases closed : perturbation.terminated with
  | some reason =>
      cases bound : perturbation.delay with
      | none => cases closed.symm.trans (going bound)
      | some held =>
          cases (apply_ended enabled closed).symm.trans applied
          exact ⟨held, bound, remembers, fun other same => (Option.some.inj same).symm⟩
  | none =>
      obtain ⟨sameDelay, sameBindings⟩ := apply_keeps enabled closed applied
      obtain ⟨delay, bound, present, kept⟩ := bind_remembers remembers
      refine ⟨delay, sameDelay.trans bound, fun other same => ?_, kept⟩
      rw [sameBindings, present, ← same, sameDelay, bound]

private theorem applyAll_delay {hook last : Seeded} (enabled : perturbation.settings.enabled = true)
    (within : perturbation.Within) (remembers : perturbation.Remembers hook)
    (going : perturbation.delay = none → perturbation.terminated = none)
    (applied : perturbation.applyAll hook events = .ok (outcomes, last)) :
    ∃ delay, (∀ held, perturbation.delay = some held → held = delay) ∧
      ∀ outcome ∈ outcomes, outcome.after.delay = some delay := by
  induction events generalizing perturbation hook outcomes with
  | nil =>
      cases applied
      refine ⟨perturbation.delay.getD 0, fun held bound => ?_, List.forall_mem_nil _⟩
      rw [bound]
      rfl
  | cons event rest ih =>
      obtain ⟨⟨result, after, next⟩, one, remaining⟩ := bind_eq_ok applied
      obtain ⟨⟨others, _⟩, following, returned⟩ := bind_eq_ok remaining
      cases returned
      have applies := applies_calls within one
      obtain ⟨delay, bound, remembered, kept⟩ := apply_remembers enabled remembers going one
      obtain ⟨later, same, each⟩ := ih (applies.settings ▸ enabled) (applies.within within)
        remembered (fun unbound => by cases unbound.symm.trans bound) following
      obtain rfl := same delay bound
      exact ⟨delay, kept, List.forall_mem_cons.mpr ⟨bound, each⟩⟩

/-! ### The window -/

/-- Applied to events with different serial numbers, a perturbation that is enabled returns, whatever
the engine answers, and if it refuses none of them: the eligible transmissions with a number in the
window are delayed, each by the delay bound then and once for one fork, all other events are left as
they are, and the events marked as delayed are these. A reproducible engine has one delay for
all. -/
theorem applyAll_window (settings : PerturbationSettings) (enabled : settings.enabled = true)
    (events : List Event) (distinct : (events.map fun event => event.key.uid).Nodup)
    (countable : events.countP (isEligible settings) < UInt32.size) :
    (∀ (σ : Type) [Hook σ] (hook : σ), ∃ outcomes last,
      (new settings).applyAll hook events = .ok (outcomes, last) ∧
      ((∀ outcome ∈ outcomes, outcome.Accepted) → outcomes.length = events.length ∧
        ∀ index event, events[index]? = some event → ∃ outcome, outcomes[index]? = some outcome ∧
          Effect settings (events.take index) event outcome)) ∧
    ∀ (hook last : Seeded) outcomes,
      (new settings).applyAll hook events = .ok (outcomes, last) →
      ∃ delay, ∀ outcome ∈ outcomes, outcome.after.delay = some delay := by
  refine ⟨fun σ _ hook => ?_, fun hook last outcomes applied => ?_⟩
  · obtain ⟨outcomes, last, applied⟩ := exists_applyAll (new settings) hook (new_within settings)
      (lt_of_eq_of_lt (Nat.zero_add _) countable)
    exact ⟨outcomes, last, applied, (Tallied.new settings).applyAll enabled distinct applied⟩
  · obtain ⟨delay, _, each⟩ := applyAll_delay enabled (new_within settings) nofun (fun _ => rfl)
      applied
    exact ⟨delay, each⟩

def secondAndThird : PerturbationSettings :=
  { PerturbationSettings.bounded 1200 with firstPerturbed := 2, maxPerturbedEvents := 2 }

def fivePackets : List Event :=
  [packet 10 4 100, packet 20 5 100, packet 30 6 58, packet 40 7 100, packet 50 8 100]

theorem applyAll_window_rebound : ∃ outcomes last,
    (new secondAndThird).applyAll (Forgetful.mk 7) fivePackets = .ok (outcomes, last) ∧
    (∀ index event, fivePackets[index]? = some event → ∃ outcome, outcomes[index]? = some outcome ∧
      Effect secondAndThird (fivePackets.take index) event outcome) ∧
    outcomes.map Outcome.result = [.ok (packet 10 4 100), .ok (packet 28 5 100),
      .ok (packet 30 6 58), .ok (packet 50 7 100), .ok (packet 50 8 100)] := by
  obtain ⟨outcomes, last, applied, effects⟩ := (applyAll_window secondAndThird rfl fivePackets
    (by decide) (by decide)).1 Forgetful (.mk 7)
  have results : outcomes.map Outcome.result = [.ok (packet 10 4 100), .ok (packet 28 5 100),
      .ok (packet 30 6 58), .ok (packet 50 7 100), .ok (packet 50 8 100)] := by
    cases applied
    rfl
  have accepted : ∀ outcome ∈ outcomes, outcome.Accepted := by
    intro outcome member
    have answered := List.mem_map_of_mem (f := Outcome.result) member
    rw [results] at answered
    simp only [List.mem_cons, List.not_mem_nil, or_false] at answered
    rcases answered with same | same | same | same | same
    all_goals exact ⟨_, same⟩
  exact ⟨outcomes, last, applied, (effects accepted).2, results⟩

/-- A window that is said to begin at zero begins at one, so it ends one later than what is counted
from zero. -/
theorem applyAll_window_zero : ∃ settings : PerturbationSettings, settings.enabled = true ∧
    settings.firstPerturbed = 0 ∧ settings.maxPerturbedEvents = 1 ∧
    ∃ outcome last, (new settings).applyAll (Seeded.new 0 0 [(symbolicDelay, 25)])
        [packet 10 4 100] = .ok ([outcome], last) ∧
      isEligible settings (packet 10 4 100) = true ∧ number settings [] = 1 ∧
      ¬ 1 < settings.firstPerturbed.toNat + settings.maxPerturbedEvents.toNat ∧
      outcome.result = .ok (packet 35 4 100) :=
  ⟨{ PerturbationSettings.bounded 1200 with firstPerturbed := 0 }, rfl, rfl, rfl, _, _, rfl,
    rfl, rfl, by decide, rfl⟩

end EventKernel.Exploration.Perturbation
