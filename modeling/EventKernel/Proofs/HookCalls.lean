import EventKernel.Exploration.Perturbation

set_option autoImplicit false

/-! The calls made of an exploring engine. A recorder stands in front of the engine, answers as it
does and notes each call, so what is asked of an engine can be read off whatever uses one. One
application of a perturbation to an event is inverted here, with the calls that it makes. -/

namespace EventKernel.Exploration

/-- One call of an exploring engine. -/
inductive Call where
  | isSymbolic (name : String)
  | makeSymbolic (name : String) (concrete : UInt64)
  | enableForking
  | concreteExample (value : UInt64)
  | terminateBranch (reason : String)
  | diagnostic (text : String)
  | expression (name : String) (value : UInt64)
deriving DecidableEq, Repr

def Call.endsBranch : Call → Bool
  | terminateBranch _ => true
  | _ => false

/-- An engine, and the calls made of it, the latest last. -/
structure Overheard (σ : Type) where
  hook : σ
  calls : List Call

namespace Overheard

variable {σ : Type}

def new (hook : σ) : Overheard σ := ⟨hook, []⟩

def ask {α : Type} (call : Call) (answer : σ → α × σ) (heard : Overheard σ) : α × Overheard σ :=
  ((answer heard.hook).1, ⟨(answer heard.hook).2, heard.calls ++ [call]⟩)

def tell (call : Call) (change : σ → σ) (heard : Overheard σ) : Overheard σ :=
  ⟨change heard.hook, heard.calls ++ [call]⟩

instance [Hook σ] : Hook (Overheard σ) where
  isSymbolic name := ask (.isSymbolic name) (Hook.isSymbolic name)
  makeSymbolic name concrete := ask (.makeSymbolic name concrete) (Hook.makeSymbolic name concrete)
  enableForking := tell .enableForking Hook.enableForking
  concreteExample value := ask (.concreteExample value) (Hook.concreteExample value)
  terminateBranch reason := tell (.terminateBranch reason) (Hook.terminateBranch reason)
  diagnostic text := tell (.diagnostic text) (Hook.diagnostic text)
  expression name value := tell (.expression name value) (Hook.expression name value)
  trace? heard := Hook.trace? heard.hook

end Overheard

structure Forgetful where
  latest : UInt64
deriving DecidableEq, Repr

instance : Hook Forgetful where
  isSymbolic _ hook := (false, hook)
  makeSymbolic _ _ hook := (hook.latest, ⟨hook.latest + 1⟩)
  enableForking hook := hook
  concreteExample value hook := (value, hook)
  terminateBranch _ hook := hook
  diagnostic _ hook := hook
  expression _ _ hook := hook
  trace? _ := none

def packet (ts uid : UInt64) (size : UInt32) : Event :=
  ⟨⟨⟨ts⟩, ⟨uid⟩, .node ⟨0⟩⟩, .undefined, .node ⟨0⟩, some ⟨size⟩⟩

namespace Perturbation

open Queue (PerturbationSettings)

variable {σ : Type} [Hook σ]

/-! ### How a delay is bound -/

/-- Binding to the value that the engine answered. -/
def settle (perturbation : Perturbation) (drawn : UInt64 × σ) :
    Except BranchEnded UInt64 × Perturbation × σ :=
  if perturbation.settings.maxBound < drawn.1 then
    (.error ⟨outOfRange⟩,
      { perturbation with delay := some drawn.1, terminated := some outOfRange },
      Hook.terminateBranch outOfRange drawn.2)
  else (.ok drawn.1, { perturbation with delay := some drawn.1 }, drawn.2)

variable {perturbation : Perturbation} {hook : σ} {held : UInt64}

theorem bind_unbound (unbound : perturbation.delay = none) :
    perturbation.bind hook = perturbation.settle (Hook.makeSymbolic symbolicDelay 0 hook) := by
  unfold bind
  simp only [unbound]
  rfl

theorem bind_known (bound : perturbation.delay = some held)
    (known : (Hook.isSymbolic symbolicDelay hook).1 = true) :
    perturbation.bind hook = (.ok held, perturbation, (Hook.isSymbolic symbolicDelay hook).2) := by
  unfold bind
  simp only [bound, known, if_true]

private theorem bind_rebound (bound : perturbation.delay = some held)
    (lost : (Hook.isSymbolic symbolicDelay hook).1 = false) :
    perturbation.bind hook = perturbation.settle
      (Hook.makeSymbolic symbolicDelay 0 (Hook.isSymbolic symbolicDelay hook).2) := by
  unfold bind
  simp only [bound, lost, Bool.false_eq_true, if_false]
  rfl

/-! ### What becomes of an event -/

def Opens (perturbation : Perturbation) : Prop :=
  perturbation.settings.firstPerturbed.toNat ≤ perturbation.eligibleSeen + 1 ∧
    perturbation.count < perturbation.settings.maxPerturbedEvents.toNat

def delayed (event : Event) (delay : UInt64) : Event :=
  { event with key := { event.key with ts := event.key.ts.saturatingAdd delay } }

def noted (perturbation : Perturbation) (uid : EventUid) : List EventUid :=
  if perturbation.isPerturbed uid then perturbation.perturbed
  else perturbation.perturbed ++ [uid]

def forked (event : Event) (delay : UInt64) (hook : σ) : σ :=
  Hook.expression "perturbed_ts" (event.key.ts.saturatingAdd delay).value
    (Hook.diagnostic s!"Setting event id {event.key.uid} to symbolic" (Hook.enableForking hook))

/-- Application to an event, once the delay is bound. -/
def prepare (perturbation : Perturbation) (delay : UInt64) (hook : σ) (event : Event) :
    Except Fault (Except BranchEnded Event × Perturbation × σ) :=
  if !isEligible perturbation.settings event then .ok (.ok event, perturbation, hook)
  else if eligibleLimit ≤ perturbation.eligibleSeen + 1 then .error .arithmeticOverflow
  else
    let counted := { perturbation with eligibleSeen := perturbation.eligibleSeen + 1 }
    if counted.eligibleSeen < counted.settings.firstPerturbed.toNat ||
        counted.settings.maxPerturbedEvents.toNat ≤ counted.count then
      .ok (.ok event, counted, hook)
    else .ok (.ok (delayed event delay), { counted with perturbed := counted.noted event.key.uid },
      forked event delay hook)

section

variable {after : Perturbation} {next : σ} {event : Event} {delay : UInt64}

private theorem apply_disabled (off : perturbation.settings.enabled = false) :
    perturbation.apply hook event = .ok (.ok event, perturbation, hook) := by
  unfold apply
  rw [off, Bool.not_false, if_pos rfl]

variable (enabled : perturbation.settings.enabled = true)

include enabled

theorem apply_ended {reason : String} (closed : perturbation.terminated = some reason) :
    perturbation.apply hook event = .ok (.error ⟨reason⟩, perturbation, hook) := by
  unfold apply
  simp only [enabled, closed, Bool.not_true, Bool.false_eq_true, if_false]

variable (going : perturbation.terminated = none)

include going

theorem apply_refused {ended : BranchEnded}
    (bound : perturbation.bind hook = (.error ended, after, next)) :
    perturbation.apply hook event = .ok (.error ended, after, next) := by
  unfold apply
  simp only [enabled, going, bound, Bool.not_true, Bool.false_eq_true, if_false]

theorem apply_bound (bound : perturbation.bind hook = (.ok delay, after, next)) :
    perturbation.apply hook event = after.prepare delay next event := by
  unfold apply
  simp only [enabled, going, bound, Bool.not_true, Bool.false_eq_true, if_false]
  rfl

omit enabled going

/-- An event with its delay bound is exempt, outside of the window or delayed. -/
theorem prepare_cases {result : Except BranchEnded Event}
    (prepared : perturbation.prepare delay hook event = .ok (result, after, next)) :
    (isEligible perturbation.settings event = false ∧
      result = .ok event ∧ after = perturbation ∧ next = hook) ∨
    (isEligible perturbation.settings event = true ∧ ¬ perturbation.Opens ∧ result = .ok event ∧
      after = { perturbation with eligibleSeen := perturbation.eligibleSeen + 1 } ∧ next = hook) ∨
    (isEligible perturbation.settings event = true ∧ perturbation.Opens ∧
      result = .ok (delayed event delay) ∧
      after = { perturbation with
        eligibleSeen := perturbation.eligibleSeen + 1
        perturbed := perturbation.noted event.key.uid } ∧
      next = forked event delay hook) := by
  unfold prepare at prepared
  cases eligible : isEligible perturbation.settings event with
  | false =>
      rw [eligible, Bool.not_false, if_pos rfl] at prepared
      cases prepared
      exact .inl ⟨rfl, rfl, rfl, rfl⟩
  | true =>
      rw [eligible, Bool.not_true, if_neg Bool.false_ne_true] at prepared
      split at prepared
      · cases prepared
      · simp only [Bool.or_eq_true, decide_eq_true_eq] at prepared
        split at prepared
        next outside =>
          cases prepared
          refine .inr (.inl ⟨rfl, ?_, rfl, rfl, rfl⟩)
          rintro ⟨reached, room⟩
          rcases outside with early | full
          · exact Nat.not_lt.mpr reached early
          · exact Nat.not_lt.mpr full room
        next inside =>
          cases prepared
          refine .inr (.inr ⟨rfl, ?_, rfl, rfl, rfl⟩)
          rw [not_or, Nat.not_lt, Nat.not_le] at inside
          exact inside

private theorem exists_prepared (room : isEligible perturbation.settings event = true →
      perturbation.eligibleSeen + 1 < eligibleLimit) :
    ∃ answer, perturbation.prepare delay hook event = .ok answer := by
  unfold prepare
  cases eligible : isEligible perturbation.settings event with
  | false => exact ⟨_, rfl⟩
  | true =>
      rw [Bool.not_true, if_neg Bool.false_ne_true, if_neg (Nat.not_le.mpr (room eligible))]
      simp only
      split
      · exact ⟨_, rfl⟩
      · exact ⟨_, rfl⟩

end

/-! ### Recording changes no answer -/

def unheard {α β : Type} (outcome : α × β × Overheard σ) : α × β × σ :=
  (outcome.1, outcome.2.1, outcome.2.2.hook)

private theorem settle_overheard (perturbation : Perturbation) (delay : UInt64)
    (heard : Overheard σ) :
    perturbation.settle (delay, heard.hook) = unheard (perturbation.settle (delay, heard)) := by
  unfold settle
  split
  · rfl
  · rfl

private theorem bind_overheard (perturbation : Perturbation) (heard : Overheard σ) :
    perturbation.bind heard.hook = unheard (perturbation.bind heard) := by
  cases bound : perturbation.delay with
  | none =>
      rw [bind_unbound bound, bind_unbound bound]
      exact settle_overheard perturbation _ (Hook.makeSymbolic symbolicDelay 0 heard).2
  | some held =>
      cases known : (Hook.isSymbolic symbolicDelay heard.hook).1 with
      | true =>
          have answered : (Hook.isSymbolic symbolicDelay heard).1 = true := known
          rw [bind_known bound known, bind_known bound answered]
          rfl
      | false =>
          have answered : (Hook.isSymbolic symbolicDelay heard).1 = false := known
          rw [bind_rebound bound known, bind_rebound bound answered]
          exact settle_overheard perturbation _ (Hook.makeSymbolic symbolicDelay 0
            (Hook.isSymbolic symbolicDelay heard).2).2

private theorem prepare_overheard (perturbation : Perturbation) (delay : UInt64)
    (heard : Overheard σ) (event : Event) : perturbation.prepare delay heard.hook event =
      unheard <$> perturbation.prepare delay heard event := by
  unfold prepare
  split
  · rfl
  · split
    · rfl
    · simp only
      split
      · rfl
      · rfl

theorem apply_overheard (perturbation : Perturbation) (heard : Overheard σ) (event : Event) :
    perturbation.apply heard.hook event = unheard <$> perturbation.apply heard event := by
  cases enabled : perturbation.settings.enabled with
  | false =>
      rw [apply_disabled enabled, apply_disabled enabled]
      rfl
  | true =>
      cases going : perturbation.terminated with
      | some reason =>
          rw [apply_ended enabled going, apply_ended enabled going]
          rfl
      | none =>
          obtain ⟨⟨result, after, later⟩, bound⟩ :
              ∃ outcome, perturbation.bind heard = outcome := ⟨_, rfl⟩
          have same := bind_overheard perturbation heard
          rw [bound] at same
          cases result with
          | error ended =>
              rw [apply_refused enabled going same, apply_refused enabled going bound]
              rfl
          | ok delay =>
              rw [apply_bound enabled going same, apply_bound enabled going bound]
              exact prepare_overheard after delay later event

/-! ### One application -/

/-- The delay of this application, with the calls that it takes to bind it or to read it again. -/
inductive Binds (perturbation : Perturbation) : UInt64 → List Call → Prop
  | known (delay : UInt64) (bound : perturbation.delay = some delay) :
      Binds perturbation delay [.isSymbolic symbolicDelay]
  | unbound (delay : UInt64) (first : perturbation.delay = none) :
      Binds perturbation delay [.makeSymbolic symbolicDelay 0]
  | rebound (delay held : UInt64) (bound : perturbation.delay = some held) :
      Binds perturbation delay [.isSymbolic symbolicDelay, .makeSymbolic symbolicDelay 0]

def delayingCalls (event : Event) (delay : UInt64) : List Call :=
  [.enableForking, .diagnostic s!"Setting event id {event.key.uid} to symbolic",
    .expression "perturbed_ts" (event.key.ts.saturatingAdd delay).value]

/-- What application to an event does: its result, the perturbation after it and the calls of the
engine. -/
inductive Applies (before : Perturbation) (event : Event) :
    Except BranchEnded Event → Perturbation → List Call → Prop
  | disabled (off : before.settings.enabled = false) : Applies before event (.ok event) before []
  | ended (reason : String) (enabled : before.settings.enabled = true)
      (closed : before.terminated = some reason) : Applies before event (.error ⟨reason⟩) before []
  | refused (delay : UInt64) (told : List Call) (enabled : before.settings.enabled = true)
      (going : before.terminated = none) (binds : before.Binds delay told)
      (above : before.settings.maxBound < delay) :
      Applies before event (.error ⟨outOfRange⟩)
        { before with delay := some delay, terminated := some outOfRange }
        (told ++ [.terminateBranch outOfRange])
  | exempt (delay : UInt64) (told : List Call) (enabled : before.settings.enabled = true)
      (going : before.terminated = none) (binds : before.Binds delay told)
      (within : delay ≤ before.settings.maxBound)
      (ineligible : isEligible before.settings event = false) :
      Applies before event (.ok event) { before with delay := some delay } told
  | spared (delay : UInt64) (told : List Call) (enabled : before.settings.enabled = true)
      (going : before.terminated = none) (binds : before.Binds delay told)
      (within : delay ≤ before.settings.maxBound)
      (eligible : isEligible before.settings event = true) (outside : ¬ before.Opens) :
      Applies before event (.ok event)
        { before with delay := some delay, eligibleSeen := before.eligibleSeen + 1 } told
  | delayed (delay : UInt64) (told : List Call) (enabled : before.settings.enabled = true)
      (going : before.terminated = none) (binds : before.Binds delay told)
      (within : delay ≤ before.settings.maxBound)
      (eligible : isEligible before.settings event = true) (inside : before.Opens) :
      Applies before event (.ok (delayed event delay))
        { before with
          delay := some delay
          eligibleSeen := before.eligibleSeen + 1
          perturbed := before.noted event.key.uid }
        (told ++ delayingCalls event delay)

def Within (perturbation : Perturbation) : Prop :=
  perturbation.terminated = none → ∀ delay, perturbation.delay = some delay →
    delay ≤ perturbation.settings.maxBound

theorem new_within (settings : PerturbationSettings) : (new settings).Within := nofun

variable {before after : Perturbation} {event : Event} {heard later : Overheard σ}

private theorem settle_cases {told : List Call} {drawn : UInt64 × Overheard σ}
    (calls : drawn.2.calls = heard.calls ++ told) :
    (∃ later : Overheard σ, before.settle drawn =
        (.ok drawn.1, { before with delay := some drawn.1 }, later) ∧
      later.calls = heard.calls ++ told ∧ drawn.1 ≤ before.settings.maxBound) ∨
    (∃ later : Overheard σ, before.settle drawn = (.error ⟨outOfRange⟩,
        { before with delay := some drawn.1, terminated := some outOfRange }, later) ∧
      later.calls = heard.calls ++ (told ++ [.terminateBranch outOfRange]) ∧
      before.settings.maxBound < drawn.1) := by
  unfold settle
  by_cases above : before.settings.maxBound < drawn.1
  · rw [if_pos above]
    refine .inr ⟨_, rfl, ?_, above⟩
    rw [← List.append_assoc, ← calls]
    rfl
  · rw [if_neg above]
    exact .inl ⟨_, rfl, calls, UInt64.not_lt.mp above⟩

private theorem bind_cases (within : before.Within) (going : before.terminated = none)
    (heard : Overheard σ) : ∃ delay told, before.Binds delay told ∧
      ((∃ later : Overheard σ, before.bind heard =
          (.ok delay, { before with delay := some delay }, later) ∧
        later.calls = heard.calls ++ told ∧ delay ≤ before.settings.maxBound) ∨
      (∃ later : Overheard σ, before.bind heard = (.error ⟨outOfRange⟩,
          { before with delay := some delay, terminated := some outOfRange }, later) ∧
        later.calls = heard.calls ++ (told ++ [.terminateBranch outOfRange]) ∧
        before.settings.maxBound < delay)) := by
  cases bound : before.delay with
  | none =>
      rw [bind_unbound bound]
      exact ⟨_, _, .unbound _ bound, settle_cases rfl⟩
  | some held =>
      cases known : (Hook.isSymbolic symbolicDelay heard).1 with
      | true =>
          rw [bind_known bound known]
          refine ⟨held, _, .known held bound,
            .inl ⟨(Hook.isSymbolic symbolicDelay heard).2, ?_, rfl, within going held bound⟩⟩
          rw [← bound]
      | false =>
          rw [bind_rebound bound known]
          exact ⟨_, _, .rebound _ held bound, settle_cases (List.append_assoc _ _ _)⟩

/-- The inversion of an application that returned. -/
theorem applies_of_apply (within : before.Within) {result : Except BranchEnded Event}
    (applied : before.apply heard event = .ok (result, after, later)) :
    ∃ told, later.calls = heard.calls ++ told ∧ before.Applies event result after told := by
  cases enabled : before.settings.enabled with
  | false =>
      cases (apply_disabled enabled).symm.trans applied
      exact ⟨[], (List.append_nil _).symm, .disabled enabled⟩
  | true =>
      cases going : before.terminated with
      | some reason =>
          cases (apply_ended enabled going).symm.trans applied
          exact ⟨[], (List.append_nil _).symm, .ended reason enabled going⟩
      | none =>
          obtain ⟨delay, told, binds,
            ⟨heeded, bound, calls, inRange⟩ | ⟨heeded, bound, calls, above⟩⟩ :=
            bind_cases within going heard
          · rcases prepare_cases ((apply_bound enabled going bound).symm.trans applied) with
              ⟨ineligible, rfl, rfl, rfl⟩ | ⟨eligible, outside, rfl, rfl, rfl⟩ |
              ⟨eligible, inside, rfl, rfl, rfl⟩
            · exact ⟨told, calls, .exempt delay told enabled going binds inRange ineligible⟩
            · exact ⟨told, calls, .spared delay told enabled going binds inRange eligible outside⟩
            · refine ⟨told ++ delayingCalls event delay, ?_,
                .delayed delay told enabled going binds inRange eligible inside⟩
              rw [← List.append_assoc, ← calls]
              change (heeded.calls ++ [_] ++ [_]) ++ [_] = heeded.calls ++ [_, _, _]
              rw [List.append_assoc, List.append_assoc]
              rfl
          · cases (apply_refused enabled going bound).symm.trans applied
            exact ⟨_, calls, .refused delay told enabled going binds above⟩

private theorem bind_frame (perturbation : Perturbation) (hook : σ) :
    (perturbation.bind hook).2.1.settings = perturbation.settings ∧
      (perturbation.bind hook).2.1.eligibleSeen = perturbation.eligibleSeen := by
  have settled (drawn : UInt64 × σ) :
      (perturbation.settle drawn).2.1.settings = perturbation.settings ∧
        (perturbation.settle drawn).2.1.eligibleSeen = perturbation.eligibleSeen := by
    unfold settle
    split
    · exact ⟨rfl, rfl⟩
    · exact ⟨rfl, rfl⟩
  cases bound : perturbation.delay with
  | none =>
      rw [bind_unbound bound]
      exact settled _
  | some held =>
      cases known : (Hook.isSymbolic symbolicDelay hook).1 with
      | true =>
          rw [bind_known bound known]
          exact ⟨rfl, rfl⟩
      | false =>
          rw [bind_rebound bound known]
          exact settled _

theorem exists_applied (perturbation : Perturbation) (hook : σ) (event : Event)
    (room : isEligible perturbation.settings event = true →
      perturbation.eligibleSeen + 1 < eligibleLimit) :
    ∃ answer, perturbation.apply hook event = .ok answer := by
  cases enabled : perturbation.settings.enabled with
  | false => exact ⟨_, apply_disabled enabled⟩
  | true =>
      cases going : perturbation.terminated with
      | some reason => exact ⟨_, apply_ended enabled going⟩
      | none =>
          obtain ⟨⟨result, after, later⟩, bound⟩ :
              ∃ outcome, perturbation.bind hook = outcome := ⟨_, rfl⟩
          cases result with
          | error ended => exact ⟨_, apply_refused enabled going bound⟩
          | ok delay =>
              obtain ⟨same, counted⟩ := bind_frame perturbation hook
              rw [bound] at same counted
              rw [apply_bound enabled going bound]
              refine exists_prepared fun eligible => ?_
              rw [counted]
              exact room (same ▸ eligible)

/-! ### Calls of one application -/

/-- The calls that an application makes of the engine. -/
def calls (perturbation : Perturbation) (hook : σ) (event : Event) : List Call :=
  match perturbation.apply (Overheard.new hook) event with
  | .ok (_, _, heard) => heard.calls
  | .error _ => []

theorem applies_calls (within : before.Within) {hook next : σ}
    {result : Except BranchEnded Event}
    (applied : before.apply hook event = .ok (result, after, next)) :
    before.Applies event result after (before.calls hook event) := by
  obtain ⟨⟨recorded, left, heard⟩, same, outcome⟩ :=
    map_eq_ok ((apply_overheard before (Overheard.new hook) event).symm.trans applied)
  cases outcome
  obtain ⟨told, heardCalls, applies⟩ := applies_of_apply within same
  have onlyThese : heard.calls = told := heardCalls
  unfold calls
  simp only [same, onlyThese]
  exact applies

namespace Applies

variable {result : Except BranchEnded Event} {told : List Call}
  (applies : before.Applies event result after told)

include applies

theorem settings : after.settings = before.settings := by
  cases applies with
  | disabled | ended | refused | exempt | spared | delayed => rfl

theorem within (kept : before.Within) : after.Within := by
  cases applies with
  | disabled | ended => exact kept
  | refused => exact nofun
  | exempt delay told enabled going binds inRange
  | spared delay told enabled going binds inRange
  | delayed delay told enabled going binds inRange =>
      intro _ other bound
      cases bound
      exact inRange

theorem eligibleSeen_le : after.eligibleSeen ≤
    before.eligibleSeen + if isEligible before.settings event then 1 else 0 := by
  cases applies with
  | disabled | ended | refused | exempt => exact Nat.le_add_right _ _
  | spared delay told enabled going binds inRange eligible
  | delayed delay told enabled going binds inRange eligible =>
      exact Nat.le_of_eq (by rw [if_pos eligible])

end Applies

theorem Binds.silent {delay : UInt64} {told : List Call} (binds : before.Binds delay told) :
    told.count .enableForking = 0 ∧ told.countP Call.endsBranch = 0 := by
  cases binds with
  | known | unbound | rebound => exact ⟨rfl, rfl⟩

/-! ### Ended branches -/

structure Exceeded (perturbation : Perturbation) : Prop where
  enabled : perturbation.settings.enabled = true
  terminated : perturbation.terminated = some outOfRange
  above : ∃ delay, perturbation.delay = some delay ∧ perturbation.settings.maxBound < delay

theorem Exceeded.apply_eq (exceeded : before.Exceeded) (hook : σ) (event : Event) :
    before.apply hook event = .ok (.error ⟨outOfRange⟩, before, hook) :=
  apply_ended exceeded.enabled exceeded.terminated

namespace Applies

variable {told : List Call}

theorem refusal {ended : BranchEnded} (applies : before.Applies event (.error ended) after told) :
    (before.terminated = none ∧ ended = ⟨outOfRange⟩ ∧ after.Exceeded ∧
      told.countP Call.endsBranch = 1) ∨
    (before.terminated = some ended.reason ∧ after = before ∧ told = []) := by
  cases applies with
  | ended reason enabled closed => exact .inr ⟨closed, rfl, rfl⟩
  | refused delay told enabled going binds above =>
      refine .inl ⟨going, rfl, ⟨enabled, rfl, delay, rfl, above⟩, ?_⟩
      rw [List.countP_append, binds.silent.2]
      rfl

variable {prepared : Event} (applies : before.Applies event (.ok prepared) after told)

include applies

theorem acceptance : after.terminated = before.terminated ∧
    (before.settings.enabled = true → before.terminated = none) ∧
    told.countP Call.endsBranch = 0 := by
  cases applies with
  | disabled off => exact ⟨rfl, fun enabled => (by cases off.symm.trans enabled), rfl⟩
  | exempt delay told enabled going binds => exact ⟨rfl, fun _ => going, binds.silent.2⟩
  | spared delay told enabled going binds => exact ⟨rfl, fun _ => going, binds.silent.2⟩
  | delayed delay told enabled going binds =>
      refine ⟨rfl, fun _ => going, ?_⟩
      rw [List.countP_append, binds.silent.2]
      rfl

theorem shift_le : ∃ shift ts, shift ≤ before.settings.maxBound ∧
    ts.value.toNat = min (event.key.ts.value.toNat + shift.toNat) (UInt64.size - 1) ∧
    prepared = { event with key := { event.key with ts } } := by
  have unmoved : event.key.ts.value.toNat =
      min (event.key.ts.value.toNat + (0 : UInt64).toNat) (UInt64.size - 1) :=
    (Nat.min_eq_left (Nat.le_pred_of_lt event.key.ts.value.toNat_lt)).symm
  cases applies with
  | disabled | exempt | spared => exact ⟨0, event.key.ts, UInt64.zero_le, unmoved, rfl⟩
  | delayed delay told enabled going binds within =>
      exact ⟨delay, event.key.ts.saturatingAdd delay, within,
        Word.toNat_saturatingAdd event.key.ts.value delay, rfl⟩

end Applies

end Perturbation

end EventKernel.Exploration
