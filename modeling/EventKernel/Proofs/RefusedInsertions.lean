import EventKernel.Proofs.HookCalls
import EventKernel.Proofs.PeekedQueues

set_option autoImplicit false

/-! Insertions that exploration refuses. A refusal leaves the layout of a queue alone, so whatever
else is asked of it later is answered as if nothing had been tried, and it is final: every later
insertion is refused for the same reason, without another call of the engine. The engine is told of
the end of its branch once. This holds for every configuration and every engine, in every state that
operations and descriptions can reach. -/

namespace EventKernel.Queue

open Exploration (Hook Overheard Call Perturbation outOfRange)

def Answer.isInsertion : Answer → Bool
  | inserted _ => true
  | _ => false

def besidesInsertions {ρ : Type} (answered : List (Answer × ρ) × Option Fault) :
    List (Answer × ρ) × Option Fault :=
  (answered.1.filter fun reported => !reported.1.isInsertion, answered.2)

namespace EventQueue

variable {σ : Type}

def recorded (queue : EventQueue σ) : EventQueue (Overheard σ) :=
  ⟨queue.configuration, queue.layout, queue.perturbation, .new queue.hook⟩

def unrecorded (queue : EventQueue (Overheard σ)) : EventQueue σ :=
  ⟨queue.configuration, queue.layout, queue.perturbation, queue.hook.hook⟩

variable [Hook σ]

/-- The calls that an operation makes of the engine. -/
def calls (queue : EventQueue σ) (operation : Operation) : List Call :=
  match queue.recorded.perform operation with
  | .ok (_, after) => after.hook.calls
  | .error _ => []

def describingCalls (queue : EventQueue σ) : List Call :=
  queue.recorded.describeConcrete.2.hook.calls

structure Moment where
  /-- No answer stands for a description. -/
  answer? : Option Answer
  calls : List Call

def Moment.Refused (moment : Moment) : Prop :=
  ∃ ended, moment.answer? = some (.inserted (.error ended))

/-- The states that operations and descriptions can reach, with what happened on the way. -/
inductive Lived (start : EventQueue σ) : List Moment → EventQueue σ → Prop
  | start : Lived start [] start
  | performed {history : List Moment} {queue after : EventQueue σ} {answer : Answer}
      (operation : Operation) (earlier : Lived start history queue)
      (done : queue.perform operation = .ok (answer, after)) :
      Lived start (history ++ [⟨some answer, queue.calls operation⟩]) after
  | described {history : List Moment} {queue : EventQueue σ}
      (earlier : Lived start history queue) :
      Lived start (history ++ [⟨none, queue.describingCalls⟩]) queue.describeConcrete.2

def endings (history : List Moment) : Nat :=
  (history.flatMap Moment.calls).countP Call.endsBranch

/-! ### Recording changes no answer -/

/-- Concrete times are examples that the engine gives; it is asked for nothing else. -/
theorem concreteLines_overheard (perturbation : Perturbation) (listed : List (String × Event))
    (heard : Overheard σ) :
    concreteLines perturbation listed heard.hook =
        ((concreteLines perturbation listed heard).1,
          (concreteLines perturbation listed heard).2.hook) ∧
      (concreteLines perturbation listed heard).2.calls.countP Call.endsBranch =
        heard.calls.countP Call.endsBranch := by
  induction listed generalizing heard with
  | nil => exact ⟨rfl, rfl⟩
  | cons listing rest ih =>
      obtain ⟨indent, event⟩ := listing
      unfold concreteLines
      cases perturbation.isPerturbed event.key.uid with
      | true =>
          obtain ⟨same, count⟩ := ih (Hook.concreteExample event.key.ts.value heard).2
          refine ⟨?_, count.trans ?_⟩
          · change concreteLines perturbation rest
              (Hook.concreteExample event.key.ts.value heard.hook).2 = _ at same
            simp only [if_true, same]
            rfl
          · change (heard.calls ++ [Call.concreteExample event.key.ts.value]).countP _ = _
            rw [List.countP_append]
            rfl
      | false =>
          obtain ⟨same, count⟩ := ih heard
          simp only [Bool.false_eq_true, if_false, same, true_and]
          exact count

private theorem diagnose_overheard (lines : List String) (heard : Overheard σ) :
    (lines.foldl (fun heard text => Hook.diagnostic text heard) heard).hook =
        lines.foldl (fun hook text => Hook.diagnostic text hook) heard.hook ∧
      (lines.foldl (fun heard text => Hook.diagnostic text heard) heard).calls.countP
        Call.endsBranch = heard.calls.countP Call.endsBranch := by
  induction lines generalizing heard with
  | nil => exact ⟨rfl, rfl⟩
  | cons text rest ih =>
      obtain ⟨same, count⟩ := ih (Hook.diagnostic text heard)
      refine ⟨same, count.trans ?_⟩
      change (heard.calls ++ [Call.diagnostic text]).countP _ = _
      rw [List.countP_append]
      rfl

section

variable (queue : EventQueue (Overheard σ))

private theorem describeConcreteLines_unrecorded :
    queue.unrecorded.describeConcreteLines =
        (queue.describeConcreteLines.1, queue.describeConcreteLines.2.unrecorded) ∧
      queue.describeConcreteLines.2.hook.calls.countP Call.endsBranch =
        queue.hook.calls.countP Call.endsBranch := by
  obtain ⟨same, count⟩ := concreteLines_overheard queue.perturbation queue.listing queue.hook
  refine ⟨?_, count⟩
  have unheard : concreteLines queue.unrecorded.perturbation queue.unrecorded.listing
      queue.unrecorded.hook = _ := same
  unfold describeConcreteLines
  rw [unheard]
  rfl

private theorem report_unrecorded : queue.unrecorded.report = queue.report.unrecorded ∧
    queue.report.hook.calls.countP Call.endsBranch = queue.hook.calls.countP Call.endsBranch := by
  obtain ⟨same, count⟩ := queue.describeConcreteLines_unrecorded
  obtain ⟨told, more⟩ := diagnose_overheard queue.describeConcreteLines.1
    queue.describeConcreteLines.2.hook
  refine ⟨?_, more.trans count⟩
  unfold report
  rw [same]
  unfold unrecorded
  simp only
  rw [told]

private theorem reported_unrecorded :
    (if queue.unrecorded.reports then queue.unrecorded.report else queue.unrecorded) =
        unrecorded (if queue.reports then queue.report else queue) ∧
      (if queue.reports then queue.report else queue).hook.calls.countP Call.endsBranch =
        queue.hook.calls.countP Call.endsBranch := by
  have both := queue.report_unrecorded
  change (if queue.reports then _ else _) = _ ∧ _
  cases queue.reports with
  | true => exact both
  | false => exact ⟨rfl, rfl⟩

private theorem insert_unrecorded (event : Event) : queue.unrecorded.insert event =
    (fun (result, after) => (result, after.unrecorded)) <$> queue.insert event := by
  unfold insert
  change (queue.perturbation.apply queue.hook.hook event >>= _) = _
  rw [Perturbation.apply_overheard queue.perturbation queue.hook event]
  cases queue.perturbation.apply queue.hook event with
  | error fault => rfl
  | ok applied =>
      obtain ⟨prepared, perturbation, heard⟩ := applied
      cases prepared with
      | error ended => rfl
      | ok shifted =>
          change (queue.layout.insert shifted >>= _) = _ <$> (queue.layout.insert shifted >>= _)
          cases queue.layout.insert shifted with
          | error fault => rfl
          | ok layout =>
              exact congrArg (fun after => Except.ok (Except.ok shifted.key, after))
                (reported_unrecorded ⟨queue.configuration, layout, perturbation, heard⟩).1

private theorem perform_unrecorded (operation : Operation) : queue.unrecorded.perform operation =
    (fun (answer, after) => (answer, after.unrecorded)) <$> queue.perform operation := by
  cases plain : operation.isInsertion with
  | false =>
      rw [perform_frame _ plain, perform_frame _ plain]
      change _ <$> queue.layout.perform operation = _ <$> _ <$> queue.layout.perform operation
      cases queue.layout.perform operation with
      | error | ok => rfl
  | true =>
      cases operation with
      | insert event =>
          change (queue.unrecorded.insert event >>= _) = _ <$> (queue.insert event >>= _)
          rw [insert_unrecorded]
          cases queue.insert event with
          | error | ok => rfl
      | reinsert | next | pop | erase | drain => cases plain

end

/-! ### One operation and its calls -/

variable {queue after : EventQueue σ} {answer : Answer} {event : Event}

private theorem exists_recorded {operation : Operation}
    (done : queue.perform operation = .ok (answer, after)) :
    ∃ heard, queue.recorded.perform operation = .ok (answer, heard) ∧ heard.unrecorded = after ∧
      queue.calls operation = heard.hook.calls := by
  obtain ⟨⟨_, heard⟩, recorded, same⟩ :=
    map_eq_ok ((perform_unrecorded queue.recorded operation).symm.trans done)
  cases same
  refine ⟨heard, recorded, rfl, ?_⟩
  unfold calls
  rw [recorded]

private theorem calls_eq_nil {operation : Operation} (plain : operation.isInsertion = false) :
    queue.calls operation = [] := by
  unfold calls
  rw [perform_frame _ plain]
  cases queue.recorded.layout.perform operation with
  | error | ok => rfl

/-- An insertion is an application and, if that does not refuse the event, an insertion into the
layout; a report after it does not end the branch. -/
theorem insert_cases (within : queue.perturbation.Within) {result : Except BranchEnded EventKey}
    (inserted : queue.insert event = .ok (result, after)) :
    (∃ ended, result = .error ended ∧ after.layout = queue.layout ∧
      queue.perturbation.Applies event (.error ended) after.perturbation
        (queue.calls (.insert event))) ∨
    ∃ shifted told, result = .ok shifted.key ∧ queue.layout.insert shifted = .ok after.layout ∧
      queue.perturbation.Applies event (.ok shifted) after.perturbation told ∧
      (queue.calls (.insert event)).countP Call.endsBranch = told.countP Call.endsBranch := by
  have done : queue.perform (.insert event) = .ok (.inserted result, after) := by
    change (queue.insert event >>= _) = _
    rw [inserted]
    rfl
  obtain ⟨heard, recorded, rfl, calls⟩ := exists_recorded done
  rw [calls]
  obtain ⟨⟨_, _⟩, recordedInsert, same⟩ := bind_eq_ok recorded
  cases same
  obtain ⟨⟨prepared, perturbation, hook⟩, applied, rest⟩ := bind_eq_ok recordedInsert
  obtain ⟨told, heardCalls, applies⟩ := Perturbation.applies_of_apply within applied
  have onlyThese : hook.calls = told := heardCalls
  cases prepared with
  | error ended =>
      cases rest
      exact .inl ⟨ended, rfl, rfl, onlyThese ▸ applies⟩
  | ok shifted =>
      obtain ⟨layout, placed, answered⟩ := bind_eq_ok rest
      cases answered
      have quiet := (reported_unrecorded ⟨queue.configuration, layout, perturbation, hook⟩).2
      rw [onlyThese] at quiet
      refine .inr ⟨shifted, told, rfl, ?_, ?_, quiet⟩
      · refine placed.trans ?_
        split
        · rfl
        · rfl
      · split
        · exact applies
        · exact applies

private theorem insert_exceeded (exceeded : queue.perturbation.Exceeded) (event : Event) :
    queue.insert event = .ok (.error ⟨outOfRange⟩, queue) := by
  unfold insert
  rw [exceeded.apply_eq]
  rfl

private theorem perform_exceeded (exceeded : queue.perturbation.Exceeded) (event : Event) :
    queue.perform (.insert event) = .ok (.inserted (.error ⟨outOfRange⟩), queue) := by
  change (queue.insert event >>= _) = _
  rw [insert_exceeded exceeded]
  rfl

private theorem calls_exceeded (exceeded : queue.perturbation.Exceeded) (event : Event) :
    queue.calls (.insert event) = [] := by
  have here : queue.recorded.perturbation.Exceeded := exceeded
  unfold calls
  rw [perform_exceeded here]
  rfl

/-! ### Lives -/

private theorem answer_besides {operation : Operation} (plain : operation.isInsertion = false)
    (done : queue.perform operation = .ok (answer, after)) : answer.isInsertion = false := by
  cases operation with
  | insert event => cases plain
  | drain =>
      cases done
      rfl
  | reinsert | next | pop | erase =>
      obtain ⟨_, _, same⟩ := bind_eq_ok done
      cases same
      rfl

/-- What exploration has come to: either nothing was refused, or the branch has ended for it. -/
structure Abides (settings : PerturbationSettings) (history : List Moment)
    (queue : EventQueue σ) : Prop where
  configured : queue.perturbation.settings = settings
  within : queue.perturbation.Within
  either : (∀ moment ∈ history, ¬ moment.Refused) ∧ queue.perturbation.terminated = none ∧
      endings history = 0 ∨
    (∃ moment ∈ history, moment.Refused) ∧ queue.perturbation.Exceeded ∧ endings history = 1

private theorem endings_append (history : List Moment) (moment : Moment) :
    endings (history ++ [moment]) = endings history + moment.calls.countP Call.endsBranch := by
  unfold endings
  rw [List.flatMap_append, List.countP_append, List.flatMap_singleton]

namespace Abides

variable {settings : PerturbationSettings} {history : List Moment}

section

variable (abides : queue.Abides settings history)

include abides

omit [Hook σ] in
private theorem passed {moment : Moment} (same : after.perturbation = queue.perturbation)
    (accepted : ¬ moment.Refused) (quiet : moment.calls.countP Call.endsBranch = 0) :
    after.Abides settings (history ++ [moment]) where
  configured := same ▸ abides.configured
  within := same ▸ abides.within
  either := by
    rw [same, endings_append, quiet]
    rcases abides.either with ⟨none, going, ends⟩ | ⟨⟨first, member, refused⟩, exceeded, ends⟩
    · refine .inl ⟨List.forall_mem_append.mpr ⟨none, ?_⟩, going, ends⟩
      exact List.forall_mem_singleton.mpr accepted
    · exact .inr ⟨⟨first, List.mem_append_left _ member, refused⟩, exceeded, ends⟩

/-- An insertion is refused for the first time, refused again or accepted. -/
theorem inserted {result : Except BranchEnded EventKey}
    (inserted : queue.insert event = .ok (result, after)) :
    after.Abides settings
      (history ++ [⟨some (.inserted result), queue.calls (.insert event)⟩]) := by
  rcases insert_cases abides.within inserted with
    ⟨ended, rfl, _, applies⟩ | ⟨shifted, told, rfl, _, applies, quiet⟩
  · refine ⟨applies.settings.trans abides.configured, applies.within abides.within, .inr ?_⟩
    have refused : ∃ moment ∈ history ++ [⟨some (.inserted (.error ended)),
        queue.calls (.insert event)⟩], moment.Refused :=
      ⟨_, List.mem_append_right _ (List.mem_singleton_self _), ended, rfl⟩
    rw [endings_append]
    rcases applies.refusal with ⟨going, _, exceeded, once⟩ | ⟨closed, same, silent⟩
    · rcases abides.either with ⟨_, _, ends⟩ | ⟨_, already, _⟩
      · exact ⟨refused, exceeded, by rw [ends, once]⟩
      · cases going.symm.trans already.terminated
    · rcases abides.either with ⟨_, going, _⟩ | ⟨_, exceeded, ends⟩
      · cases going.symm.trans closed
      · refine ⟨refused, same ▸ exceeded, ?_⟩
        simp only [silent, ends, List.countP_nil]
  · obtain ⟨same, going, silent⟩ := applies.acceptance
    rcases abides.either with ⟨none, ongoing, ends⟩ | ⟨_, exceeded, _⟩
    · refine ⟨applies.settings.trans abides.configured, applies.within abides.within,
        .inl ⟨List.forall_mem_append.mpr ⟨none, ?_⟩, same.trans ongoing, ?_⟩⟩
      · rw [List.forall_mem_singleton]
        rintro ⟨ended, impossible⟩
        cases impossible
      · rw [endings_append, ends, quiet, silent]
    · cases (going exceeded.enabled).symm.trans exceeded.terminated

private theorem performed (operation : Operation)
    (done : queue.perform operation = .ok (answer, after)) :
    after.Abides settings (history ++ [⟨some answer, queue.calls operation⟩]) := by
  cases plain : operation.isInsertion with
  | false =>
      have kind := answer_besides plain done
      rw [calls_eq_nil plain]
      rw [perform_frame queue plain] at done
      obtain ⟨⟨_, layout⟩, _, same⟩ := map_eq_ok done
      cases same
      refine abides.passed rfl ?_ rfl
      rintro ⟨ended, same⟩
      cases same
      cases kind
  | true =>
      cases operation with
      | insert event =>
          obtain ⟨⟨result, _⟩, inserted, same⟩ := bind_eq_ok done
          cases same
          exact abides.inserted inserted
      | reinsert | next | pop | erase | drain => cases plain

private theorem described : queue.describeConcrete.2.Abides settings
    (history ++ [⟨none, queue.describingCalls⟩]) :=
  abides.passed rfl nofun (describeConcreteLines_unrecorded queue.recorded).2

end

omit [Hook σ] in
private theorem new {configuration : Configuration} {hook : σ} {start : EventQueue σ}
    (built : EventQueue.new configuration hook = .ok (.ok start)) :
    start.Abides configuration.exploration [] := by
  rw [(new_eq_ok built).2.2]
  exact ⟨rfl, Perturbation.new_within _, .inl ⟨List.forall_mem_nil _, rfl, rfl⟩⟩

end Abides

private theorem Lived.abides {settings : PerturbationSettings} {start : EventQueue σ}
    {history : List Moment} (begins : start.Abides settings [])
    (lived : start.Lived history queue) : queue.Abides settings history := by
  induction lived with
  | start => exact begins
  | performed operation _ done ih => exact ih.performed operation done
  | described _ ih => exact ih.described

/-- Whatever is asked after a refusal is answered as if no insertion were tried, before it or
since. -/
theorem trace_exceeded {refused : EventQueue σ} (exceeded : refused.perturbation.Exceeded)
    (same : refused.layout = queue.layout) (operations : List Operation) :
    besidesInsertions (trace perform reading refused operations) =
      trace perform reading queue (operations.filter (!·.isInsertion)) := by
  induction operations generalizing refused queue with
  | nil => rfl
  | cons operation rest ih =>
      cases plain : operation.isInsertion with
      | true =>
          rw [List.filter_cons_of_neg (by rw [plain]; exact Bool.false_ne_true)]
          cases operation with
          | insert event =>
              rw [← ih exceeded same]
              conv_lhs => unfold trace
              simp only [perform_exceeded exceeded]
              rfl
          | reinsert | next | pop | erase | drain => cases plain
      | false =>
          rw [List.filter_cons_of_pos (by rw [plain]; rfl)]
          unfold trace
          cases done : queue.layout.perform operation with
          | error fault =>
              rw [perform_frame refused plain, perform_frame queue plain, same, done]
              rfl
          | ok result =>
              obtain ⟨answer, layout⟩ := result
              have here : refused.perform operation = .ok (answer, { refused with layout }) := by
                rw [perform_frame refused plain, same, done]
                rfl
              have there : queue.perform operation = .ok (answer, { queue with layout }) := by
                rw [perform_frame queue plain, done]
                rfl
              have later := @ih { queue with layout } { refused with layout } exceeded rfl
              have kind := answer_besides plain there
              simp only [here, there]
              rw [← later]
              unfold besidesInsertions
              rw [List.filter_cons_of_pos (by rw [kind]; rfl)]
              rfl

/-- In every state that a queue can come to, whatever its configuration and its engine:
* an insertion is refused only if exploration is enabled and a delay above the bound was bound; it
  leaves the layout as it is, and later operations are answered, and later readings taken, as if it
  and all later insertions had not been tried;
* if an insertion was refused before, every further one is refused for the same reason, changes
  nothing and makes no call of the engine;
* the engine was told once that its branch has ended if an insertion was refused, else not at all;
* an accepted event is queued with its time put off by no more than the bound. -/
theorem refused_insertion_final {configuration : Configuration} {hook : σ} {start : EventQueue σ}
    {history : List Moment} (built : EventQueue.new configuration hook = .ok (.ok start))
    (lived : start.Lived history queue) :
    (∀ event ended after, queue.insert event = .ok (.error ended, after) →
      configuration.exploration.enabled = true ∧ ended.reason = outOfRange ∧
      (∃ delay, after.perturbation.delay = some delay ∧
        configuration.exploration.maxBound < delay) ∧
      after.layout = queue.layout ∧
      ∀ operations, besidesInsertions (trace perform reading after operations) =
        trace perform reading queue (operations.filter (!·.isInsertion))) ∧
    ((∃ moment ∈ history, moment.Refused) → ∀ event,
      queue.insert event = .ok (.error ⟨outOfRange⟩, queue) ∧
        queue.calls (.insert event) = []) ∧
    ((∃ moment ∈ history, moment.Refused) → endings history = 1) ∧
    ((∀ moment ∈ history, ¬ moment.Refused) → endings history = 0) ∧
    ∀ event key after, queue.insert event = .ok (.ok key, after) →
      ∃ shift ts, shift ≤ configuration.exploration.maxBound ∧
        ts.value.toNat = min (event.key.ts.value.toNat + shift.toNat) (UInt64.size - 1) ∧
        key = { event.key with ts } ∧
        queue.layout.insert { event with key } = .ok after.layout := by
  have abides := lived.abides (.new built)
  refine ⟨fun event ended after inserted => ?_, fun refused event => ?_, fun refused => ?_,
    fun none => ?_, fun event key after inserted => ?_⟩
  · have configured := (abides.inserted inserted).configured
    rcases (abides.inserted inserted).either with ⟨unrefused, _⟩ | ⟨_, exceeded, _⟩
    · exact absurd ⟨ended, rfl⟩ (unrefused _ (List.mem_append_right _ (List.mem_singleton_self _)))
    · have same := insert_refused inserted
      refine ⟨configured ▸ exceeded.enabled, ?_, configured ▸ exceeded.above, same,
        trace_exceeded exceeded same⟩
      rcases insert_cases abides.within inserted with ⟨_, again, _, applies⟩ | ⟨_, _, accepted, _⟩
      · cases again
        rcases applies.refusal with ⟨_, first, _⟩ | ⟨closed, unchanged, _⟩
        · rw [first]
        · rw [← unchanged, exceeded.terminated] at closed
          exact (Option.some.inj closed).symm
      · cases accepted
  · rcases abides.either with ⟨unrefused, _⟩ | ⟨_, exceeded, _⟩
    · obtain ⟨moment, member, was⟩ := refused
      exact absurd was (unrefused moment member)
    · exact ⟨insert_exceeded exceeded event, calls_exceeded exceeded event⟩
  · rcases abides.either with ⟨unrefused, _⟩ | ⟨_, _, once⟩
    · obtain ⟨moment, member, was⟩ := refused
      exact absurd was (unrefused moment member)
    · exact once
  · rcases abides.either with ⟨_, _, never⟩ | ⟨⟨moment, member, was⟩, _⟩
    · exact never
    · exact absurd was (none moment member)
  · rcases insert_cases abides.within inserted with
      ⟨_, impossible, _⟩ | ⟨shifted, told, same, placed, applies, _⟩
    · cases impossible
    · obtain ⟨shift, ts, within, moved, rfl⟩ := applies.shift_le
      cases same
      exact ⟨shift, ts, abides.configured ▸ within, moved, rfl, placed⟩

def tightConfiguration : Configuration where
  entities := 1
  latency := ⟨1, #[0]⟩
  interfaces := []
  strategies := .plain
  boundary := .sequenced
  exploration := .bounded 7

/-- The first delay is within the bound and the second, bound anew, is not. -/
theorem refused_insertion_final_rebound :
    ∃ (start queue after : EventQueue Exploration.Forgetful) (history : List Moment),
      EventQueue.new tightConfiguration (.mk 7) = .ok (.ok start) ∧
      start.Lived history after ∧ queue.size = 1 ∧
      queue.insert (Exploration.packet 20 5 100) = .ok (.error ⟨outOfRange⟩, after) ∧
      after.insert (Exploration.packet 30 6 100) = .ok (.error ⟨outOfRange⟩, after) ∧
      endings history = 1 ∧
      besidesInsertions (trace perform reading after
          [.insert (Exploration.packet 30 6 100), .pop, .reinsert (Exploration.packet 40 7 100)]) =
        trace perform reading queue [.pop, .reinsert (Exploration.packet 40 7 100)] := by
  obtain ⟨start, built⟩ : ∃ start : EventQueue Exploration.Forgetful,
      EventQueue.new tightConfiguration (.mk 7) = .ok (.ok start) := ⟨_, rfl⟩
  obtain ⟨queue, first, size⟩ : ∃ queue, start.perform (.insert (Exploration.packet 10 4 100)) =
      .ok (.inserted (.ok ⟨⟨17⟩, ⟨4⟩, .node ⟨0⟩⟩), queue) ∧ queue.size = 1 := by
    cases built
    exact ⟨_, rfl, rfl⟩
  obtain ⟨after, refused⟩ : ∃ after, queue.insert (Exploration.packet 20 5 100) =
      .ok (.error ⟨outOfRange⟩, after) := by
    cases built
    cases first
    exact ⟨_, rfl⟩
  have second : queue.perform (.insert (Exploration.packet 20 5 100)) =
      .ok (.inserted (.error ⟨outOfRange⟩), after) := by
    change (queue.insert _ >>= _) = _
    rw [refused]
    rfl
  have before : start.Lived _ queue := .performed _ .start first
  have lived : start.Lived _ after := .performed _ before second
  obtain ⟨refusals, _⟩ := refused_insertion_final built before
  obtain ⟨_, final, once, _⟩ := refused_insertion_final built lived
  have last : Moment.Refused ⟨some (.inserted (.error ⟨outOfRange⟩)),
      queue.calls (.insert (Exploration.packet 20 5 100))⟩ := ⟨_, rfl⟩
  have ending := once ⟨_, List.mem_append_right _ (List.mem_singleton_self _), last⟩
  have again := final ⟨_, List.mem_append_right _ (List.mem_singleton_self _), last⟩
  exact ⟨start, queue, after, _, built, lived, size, refused, (again _).1, ending,
    (refusals _ _ _ refused).2.2.2.2 _⟩

end EventQueue

end EventKernel.Queue
