import EventKernel.Proofs.CausalPrograms
import EventKernel.Proofs.RemovalOrder

set_option autoImplicit false

/-! What was registered for the destroy phase, read off what was visible so far: each registration
waits until it is cancelled, removed or begun, whichever comes first. The simulation queues exactly
the waiting ones, in the order of registration, and whatever has begun, has begun in that order. -/

namespace EventKernel

variable {σ β : Type}

/-! ### Registrations -/

/-- What has become of a callback that was registered for the destroy phase. -/
inductive Turn where
  | waiting
  | begun
  /-- It was cancelled or removed before its turn. -/
  | withdrawn
deriving DecidableEq, Repr

structure Registration (β : Type) where
  handle : Handle
  callback : β
  turn : Turn
deriving DecidableEq, Repr

namespace Registration

def entry (registration : Registration β) : Handle × β :=
  (registration.handle, registration.callback)

/-- What is registered under a handle comes to its end, if it still waits. -/
def settle (handle : Handle) (turn : Turn) (registration : Registration β) : Registration β :=
  if registration.handle = handle ∧ registration.turn = .waiting then { registration with turn }
  else registration

def at? (turn : Turn) (registration : Registration β) : Option (Handle × β) :=
  if registration.turn = turn then some registration.entry else none

end Registration

/-- The registrations after a signal. -/
def Signal.file (registry : List (Registration β)) : Signal σ β → List (Registration β)
  | .answered (.scheduleDestroy callback) handle => registry ++ [⟨handle, callback, .waiting⟩]
  | .answered (.cancel handle) _ => registry.map (Registration.settle handle .withdrawn)
  | .answered (.remove handle) _ => registry.map (Registration.settle handle .withdrawn)
  | .destroying handle _ => registry.map (Registration.settle handle .begun)
  | _ => registry

def registry (history : List (Signal σ β)) : List (Registration β) :=
  history.foldl Signal.file []

def Signal.registered? : Signal σ β → Option (Handle × β)
  | .answered (.scheduleDestroy callback) handle => some (handle, callback)
  | _ => none

def Signal.destroying? : Signal σ β → Option (Handle × β)
  | .destroying handle callback => some (handle, callback)
  | _ => none

private theorem registry_append (history : List (Signal σ β)) (signal : Signal σ β) :
    registry (history ++ [signal]) = signal.file (registry history) := by
  unfold registry
  rw [List.foldl_append]
  rfl

namespace Registration

variable {handle : Handle} {turn : Turn} {registration : Registration β}
  {registrations : List (Registration β)}

private theorem settle_entry (handle : Handle) (turn : Turn) (registration : Registration β) :
    (registration.settle handle turn).entry = registration.entry := by
  unfold settle
  split
  · rfl
  · rfl

private theorem settle_handle (handle : Handle) (turn : Turn) (registration : Registration β) :
    (registration.settle handle turn).handle = registration.handle :=
  congrArg Prod.fst (settle_entry handle turn registration)

private theorem settle_of_other (other : registration.handle ≠ handle) :
    registration.settle handle turn = registration :=
  if_neg fun same => other same.1

private theorem settle_turn (settled : (registration.settle handle turn).turn ≠ registration.turn) :
    registration.turn = .waiting ∧ (registration.settle handle turn).turn = turn := by
  unfold settle at settled ⊢
  split
  · rename_i waits
    exact ⟨waits.2, rfl⟩
  · rename_i stays
    rw [if_neg stays] at settled
    exact absurd rfl settled

theorem map_settle_of_absent (absent : ∀ registration ∈ registrations,
    registration.handle ≠ handle) : registrations.map (settle handle turn) = registrations :=
  (List.map_congr_left fun registration member =>
    settle_of_other (absent registration member)).trans (List.map_id _)

private theorem at?_eq_some {entry : Handle × β} (here : registration.at? turn = some entry) :
    registration.turn = turn ∧ registration.entry = entry := by
  unfold at? at here
  split at here
  · rename_i same
    exact ⟨same, Option.some.inj here⟩
  · cases here

theorem at?_eq_none (here : registration.at? turn = none) : registration.turn ≠ turn := by
  unfold at? at here
  split at here
  · cases here
  · assumption

private theorem at?_self (same : registration.turn = turn) :
    registration.at? turn = some registration.entry := if_pos same

private theorem at?_other (other : registration.turn ≠ turn) :
    registration.at? turn = none := if_neg other

theorem filterMap_at? (turn : Turn) (registrations : List (Registration β)) :
    registrations.filterMap (at? turn) =
      (registrations.filter fun registration => registration.turn == turn).map entry := by
  induction registrations with
  | nil => rfl
  | cons first rest ih =>
      rw [List.filter_cons]
      by_cases same : first.turn = turn
      · rw [List.filterMap_cons_some (at?_self same), if_pos (beq_iff_eq.mpr same), ih]
        rfl
      · rw [List.filterMap_cons_none (at?_other same),
          if_neg fun equal => same (beq_iff_eq.mp equal), ih]

/-- Withdrawing a handle takes what waits under its number out, and leaves the rest in order. -/
theorem waiting_of_withdrawn (identified : ∀ registration ∈ registrations,
    registration.handle.serial = handle.serial → registration.handle = handle) :
    (registrations.map (settle handle .withdrawn)).filterMap (at? .waiting) =
      (registrations.filterMap (at? .waiting)).filter fun queued =>
        queued.1.serial != handle.serial := by
  induction registrations with
  | nil => rfl
  | cons first rest ih =>
      obtain ⟨same, others⟩ := List.forall_mem_cons.mp identified
      have later := ih others
      rw [List.map_cons]
      by_cases waits : first.turn = .waiting
      · rw [List.filterMap_cons_some (at?_self waits)]
        by_cases here : first.handle = handle
        · have ended : (first.settle handle .withdrawn).at? .waiting = none := by
            unfold settle
            rw [if_pos ⟨here, waits⟩]
            rfl
          have struck : (first.entry.1.serial != handle.serial) = false :=
            bne_eq_false_iff_eq.mpr (congrArg Handle.serial here)
          rw [List.filterMap_cons_none ended, later, List.filter_cons, struck]
          rfl
        · have kept : (first.entry.1.serial != handle.serial) = true :=
            bne_iff_ne.mpr fun number => here (same number)
          rw [settle_of_other here, List.filterMap_cons_some (at?_self waits), later,
            List.filter_cons, kept]
          rfl
      · have still : first.settle handle .withdrawn = first := if_neg fun both => waits both.2
        rw [still, List.filterMap_cons_none (at?_other waits), later,
          List.filterMap_cons_none (at?_other waits)]

private theorem begun_of_withdrawn (handle : Handle) (registrations : List (Registration β)) :
    (registrations.map (settle handle .withdrawn)).filterMap (at? .begun) =
      registrations.filterMap (at? .begun) := by
  rw [List.filterMap_map]
  refine congrArg (List.filterMap · registrations) (funext fun registration => ?_)
  change (registration.settle handle .withdrawn).at? .begun = registration.at? .begun
  unfold settle
  split
  · rename_i waits
    rw [at?_other (show (Turn.withdrawn ≠ .begun) from Turn.noConfusion)]
    refine (at?_other fun begun => ?_).symm
    rw [waits.2] at begun
    cases begun
  · rfl

private theorem first_waiting {callback : β} {rest : List (Handle × β)}
    (queued : registrations.filterMap (at? .waiting) = (handle, callback) :: rest) :
    ∃ before later, registrations = before ++ ⟨handle, callback, .waiting⟩ :: later ∧
      (∀ earlier ∈ before, earlier.turn ≠ .waiting) ∧
      later.filterMap (at? .waiting) = rest := by
  obtain ⟨before, ⟨owner, work, turn⟩, later, whole, none, here, others⟩ :=
    List.filterMap_eq_cons_iff.mp queued
  obtain ⟨waits, same⟩ := at?_eq_some here
  cases waits
  cases same
  exact ⟨before, later, whole, fun earlier member => at?_eq_none (none earlier member), others⟩

private theorem map_settle_middle {callback : β} {before later : List (Registration β)}
    (apart : ∀ other ∈ before ++ later, other.handle ≠ handle) :
    (before ++ ⟨handle, callback, .waiting⟩ :: later).map (settle handle turn) =
      before ++ ⟨handle, callback, turn⟩ :: later := by
  have here : settle handle turn (⟨handle, callback, .waiting⟩ : Registration β) =
      ⟨handle, callback, turn⟩ := if_pos ⟨rfl, rfl⟩
  rw [List.map_append, List.map_cons, here,
    map_settle_of_absent fun other member => apart other (List.mem_append_left _ member),
    map_settle_of_absent fun other member => apart other (List.mem_append_right _ member)]

end Registration

namespace Simulation

variable {simulation after : Simulation σ β} {history : List (Signal σ β)}

/-! ### The queue of the destroy phase -/

/-- Nothing waits under the number of the handle any more. -/
def unregister (simulation : Simulation σ β) (handle : Handle) : Simulation σ β :=
  { simulation with
    destroyEvents := simulation.destroyEvents.filter fun queued =>
      queued.1.serial != handle.serial }

private theorem isExpired_destroy {handle : Handle} (destroy : handle.isDestroy = true) :
    simulation.isExpired handle =
      .ok (!simulation.destroyEvents.any fun queued => queued.1.serial == handle.serial) := by
  unfold isExpired
  rw [destroy, if_pos rfl]
  rfl

theorem remove_destroy {handle : Handle} (destroy : handle.isDestroy = true) :
    simulation.remove handle = .ok (simulation.unregister handle) := by
  unfold remove
  rw [destroy, if_pos rfl]
  rfl

theorem cancel_destroy {handle : Handle} (destroy : handle.isDestroy = true) :
    simulation.cancel handle = .ok (simulation.unregister handle) := by
  unfold cancel
  rw [isExpired_destroy destroy]
  simp only [bind, Except.bind]
  cases waits : simulation.destroyEvents.any fun queued => queued.1.serial == handle.serial with
  | false =>
      have same : simulation.unregister handle = simulation := by
        have all : ∀ queued ∈ simulation.destroyEvents,
            (queued.1.serial != handle.serial) = true := fun queued member => by
          have apart := List.any_eq_false.mp waits queued member
          exact bne_iff_ne.mpr fun number => apart (beq_iff_eq.mpr number)
        unfold unregister
        rw [List.filter_eq_self.mpr all]
      rw [same]
      rfl
  | true =>
      rw [destroy]
      exact remove_destroy destroy

theorem Withdrawn.destroyEvents {handle : Handle} (withdrawn : Withdrawn simulation handle after)
    (queued : handle.isDestroy = false) :
    after.destroyEvents = simulation.destroyEvents := by
  cases withdrawn with
  | unregistered destroy =>
      rw [queued] at destroy
      cases destroy
  | ignored | removed | cancelled => rfl

/-- The simulation queues for the destroy phase what waits, in order. What has begun has begun in
order, before anything that waits; and each registration has a number of its own. -/
structure Registered (simulation : Simulation σ β) (history : List (Signal σ β)) : Prop where
  waiting : simulation.destroyEvents = (registry history).filterMap (Registration.at? .waiting)
  begun : history.filterMap Signal.destroying? =
    (registry history).filterMap (Registration.at? .begun)
  inOrder : (registry history).Pairwise fun former latter =>
    latter.turn = .begun → former.turn ≠ .waiting
  listed : (registry history).map Registration.entry = history.filterMap Signal.registered?
  distinct : ((registry history).map fun registration => registration.handle.serial).Nodup
  numbered : ∀ registration ∈ registry history, registration.handle.isDestroy = true ∧
    registration.handle.serial.value.toNat < simulation.nextUid.value.toNat
  given : ∀ handle, Given history handle → handle.isDestroy = true →
    ∃ registration ∈ registry history, registration.handle = handle

namespace Registered

theorem of_ofQueue (queue : Queue.EventQueue σ) :
    (ofQueue queue : Simulation σ β).Registered [] where
  waiting := rfl
  begun := rfl
  inOrder := .nil
  listed := rfl
  distinct := List.nodup_nil
  numbered := List.forall_mem_nil _
  given := by
    rintro handle ⟨signal, member, _⟩
    cases member

theorem of_same (registered : simulation.Registered history)
    (destroyEvents : after.destroyEvents = simulation.destroyEvents)
    (numbers : simulation.nextUid.value.toNat ≤ after.nextUid.value.toNat) :
    after.Registered history :=
  { registered with
    waiting := destroyEvents.trans registered.waiting
    numbered := fun registration member =>
      ⟨(registered.numbered registration member).1,
        Nat.lt_of_lt_of_le (registered.numbered registration member).2 numbers⟩ }

private theorem eq_of_serial (registered : simulation.Registered history)
    {former latter : Registration β} (first : former ∈ registry history)
    (second : latter ∈ registry history) (same : former.handle.serial = latter.handle.serial) :
    former = latter :=
  eq_of_nodup_map registered.distinct first second same

theorem told (registered : simulation.Registered history) {signal : Signal σ β}
    (files : signal.file (registry history) = registry history)
    (silent : signal.destroying? = none ∧ signal.registered? = none)
    (gives : ∀ handle, signal.Gives handle → handle.isDestroy = false) :
    simulation.Registered (history ++ [signal]) := by
  obtain ⟨waiting, begun, inOrder, listed, distinct, numbered, given⟩ := registered
  constructor
  case waiting => rw [registry_append, files, waiting]
  case begun =>
    rw [registry_append, files, List.filterMap_append, List.filterMap_cons_none silent.1]
    exact (List.append_nil _).trans begun
  case inOrder => rwa [registry_append, files]
  case listed =>
    rw [registry_append, files, List.filterMap_append, List.filterMap_cons_none silent.2]
    exact listed.trans (List.append_nil _).symm
  case distinct => rwa [registry_append, files]
  case numbered => rwa [registry_append, files]
  case given =>
    rw [registry_append, files]
    intro handle known destroy
    rcases known.append_singleton with before | now
    · exact given handle before destroy
    · rw [gives handle now] at destroy
      cases destroy

/-- A signal that settles what waits under a handle registers nothing new. -/
theorem settled (registered : simulation.Registered history) {signal : Signal σ β}
    {handle : Handle} {turn : Turn}
    (files : signal.file (registry history) =
      (registry history).map (Registration.settle handle turn))
    (unlisted : signal.registered? = none) (gives : ∀ other, ¬ signal.Gives other)
    (numbers : after.nextUid = simulation.nextUid)
    (waiting : after.destroyEvents =
      (signal.file (registry history)).filterMap (Registration.at? .waiting))
    (begun : history.filterMap Signal.destroying? ++ [signal].filterMap Signal.destroying? =
      (signal.file (registry history)).filterMap (Registration.at? .begun))
    (inOrder : (signal.file (registry history)).Pairwise fun former latter =>
      latter.turn = .begun → former.turn ≠ .waiting) :
    after.Registered (history ++ [signal]) := by
  have entries : (signal.file (registry history)).map Registration.entry =
      (registry history).map Registration.entry := by
    rw [files, List.map_map]
    exact List.map_congr_left fun registration _ => Registration.settle_entry handle turn registration
  constructor
  case waiting => rw [registry_append, waiting]
  case begun => rw [registry_append, List.filterMap_append, begun]
  case inOrder => rwa [registry_append]
  case listed =>
    rw [registry_append, entries, List.filterMap_append, List.filterMap_cons_none unlisted]
    exact registered.listed.trans (List.append_nil _).symm
  case distinct =>
    have serials (registrations : List (Registration β)) :
        registrations.map (fun registration => registration.handle.serial) =
          (registrations.map Registration.entry).map fun entry => entry.1.serial := by
      rw [List.map_map]
      rfl
    rw [registry_append, serials, entries, ← serials]
    exact registered.distinct
  case numbered =>
    rw [registry_append, files, numbers]
    intro registration member
    obtain ⟨before, present, rfl⟩ := List.mem_map.mp member
    rw [Registration.settle_handle]
    exact registered.numbered before present
  case given =>
    rw [registry_append, files]
    intro other known destroy
    obtain ⟨registration, present, same⟩ := registered.given other
      (known.append_singleton.resolve_right (gives other)) destroy
    exact ⟨_, List.mem_map_of_mem present,
      (Registration.settle_handle handle turn registration).trans same⟩

theorem scheduleDestroy (registered : simulation.Registered history) {callback : β}
    {handle : Handle} (answered : simulation.scheduleDestroy callback = .ok (handle, after)) :
    after.Registered (history ++ [.answered (.scheduleDestroy callback) handle]) := by
  obtain ⟨nextUid, following, rfl, rfl⟩ := scheduleDestroy_eq_ok answered
  constructor
  case waiting =>
    rw [registry_append]
    change simulation.destroyEvents ++ _ = (registry history ++ [_]).filterMap _
    rw [List.filterMap_append, registered.waiting]
    rfl
  case begun =>
    rw [registry_append]
    change _ = (registry history ++ [_]).filterMap _
    rw [List.filterMap_append, List.filterMap_append, registered.begun]
    rfl
  case inOrder =>
    rw [registry_append]
    refine List.pairwise_append.mpr
      ⟨registered.inOrder, List.pairwise_singleton _ _, fun former _ latter last begun => ?_⟩
    rw [List.mem_singleton.mp last] at begun
    cases begun
  case listed =>
    rw [registry_append]
    change (registry history ++ [_]).map _ = _
    rw [List.map_append, List.filterMap_append, registered.listed]
    rfl
  case distinct =>
    rw [registry_append]
    change ((registry history ++ [_]).map _).Nodup
    rw [List.map_append]
    refine List.nodup_append.mpr ⟨registered.distinct, List.pairwise_singleton _ _, ?_⟩
    intro former before latter last same
    obtain ⟨registration, member, rfl⟩ := List.mem_map.mp before
    have below := (registered.numbered registration member).2
    rw [same, List.mem_singleton.mp last] at below
    exact Nat.lt_irrefl _ below
  case numbered =>
    rw [registry_append]
    intro registration member
    change _ ∧ _ < nextUid.value.toNat
    rcases List.mem_append.mp member with before | last
    · obtain ⟨destroy, below⟩ := registered.numbered registration before
      exact ⟨destroy, by omega⟩
    · rw [List.mem_singleton.mp last]
      refine ⟨rfl, ?_⟩
      change simulation.nextUid.value.toNat < _
      omega
  case given =>
    rw [registry_append]
    intro other known destroy
    rcases known.append_singleton with before | now
    · obtain ⟨registration, member, same⟩ := registered.given other before destroy
      exact ⟨registration, List.mem_append_left _ member, same⟩
    · cases now
      exact ⟨_, List.mem_append_right _ List.mem_cons_self, rfl⟩

theorem unregister (registered : simulation.Registered history) {handle : Handle}
    (known : Given history handle) (destroy : handle.isDestroy = true) {signal : Signal σ β}
    (files : signal.file (registry history) =
      (registry history).map (Registration.settle handle .withdrawn))
    (silent : signal.destroying? = none ∧ signal.registered? = none)
    (gives : ∀ other, ¬ signal.Gives other) :
    (simulation.unregister handle).Registered (history ++ [signal]) := by
  obtain ⟨registration, present, rfl⟩ := registered.given handle known destroy
  refine registered.settled files silent.2 gives rfl ?_ ?_ ?_
  · rw [files, Registration.waiting_of_withdrawn fun other member same =>
      congrArg Registration.handle (registered.eq_of_serial member present same),
      ← registered.waiting]
    rfl
  · rw [files, Registration.begun_of_withdrawn, List.filterMap_cons_none silent.1]
    exact (List.append_nil _).trans registered.begun
  · rw [files, List.pairwise_map]
    refine registered.inOrder.imp fun {former latter} ordered begun waits => ?_
    have changed (other : Registration β) :
        (other.settle registration.handle .withdrawn).turn = other.turn ∨
          (other.settle registration.handle .withdrawn).turn = .withdrawn := by
      by_cases same : (other.settle registration.handle .withdrawn).turn = other.turn
      · exact .inl same
      · exact .inr (Registration.settle_turn same).2
    rcases changed latter with same | ended
    · rcases changed former with still | over_
      · exact ordered (same.symm.trans begun) (still.symm.trans waits)
      · cases waits.symm.trans over_
    · cases begun.symm.trans ended

/-- The first that waits begins. -/
theorem begins (registered : simulation.Registered history) {handle : Handle} {work : β}
    {destroyEvents : List (Handle × β)}
    (first : simulation.destroyEvents = (handle, work) :: destroyEvents) :
    { simulation with destroyEvents }.Registered (history ++ [Signal.destroying handle work]) := by
  obtain ⟨before, later, whole, done, rest⟩ :=
    Registration.first_waiting (registered.waiting.symm.trans first)
  have distinct := registered.distinct
  rw [whole, List.map_append, List.map_cons, List.perm_middle.nodup_iff, List.nodup_cons,
    ← List.map_append] at distinct
  have apart : ∀ other ∈ before ++ later, other.handle ≠ handle := fun other member tied =>
    distinct.1 (List.mem_map.mpr ⟨other, member, congrArg Handle.serial tied⟩)
  -- What stands behind a registration that waits has not begun.
  have inOrder := registered.inOrder
  rw [whole] at inOrder
  obtain ⟨ordered, behind, _⟩ := List.pairwise_append.mp inOrder
  have unbegun : ∀ other ∈ later, other.turn ≠ .begun := fun other member begun =>
    List.rel_of_pairwise_cons behind member begun rfl
  have files : Signal.file (registry history) (.destroying handle work : Signal σ β) =
      before ++ ⟨handle, work, .begun⟩ :: later := by
    change (registry history).map (Registration.settle handle .begun) = _
    rw [whole]
    exact Registration.map_settle_middle apart
  refine registered.settled rfl rfl (fun _ gives => nomatch gives) rfl ?_ ?_ ?_
  · have past : before.filterMap (Registration.at? .waiting) = [] :=
      List.filterMap_eq_nil_iff.mpr fun earlier member =>
        Registration.at?_other (done earlier member)
    rw [files, List.filterMap_append, past]
    exact rest.symm
  · have ahead : later.filterMap (Registration.at? .begun) = [] :=
      List.filterMap_eq_nil_iff.mpr fun other member =>
        Registration.at?_other (unbegun other member)
    have waits : Registration.at? .begun (⟨handle, work, .waiting⟩ : Registration β) = none := rfl
    have begins : Registration.at? .begun (⟨handle, work, .begun⟩ : Registration β) =
        some (handle, work) := rfl
    rw [registered.begun, files, whole, List.filterMap_append, List.filterMap_append,
      List.filterMap_cons_none waits, List.filterMap_cons_some begins, ahead, List.append_nil]
    rfl
  · rw [files]
    refine List.pairwise_append.mpr ⟨ordered, ?_, fun earlier member _ _ _ => done earlier member⟩
    exact List.pairwise_cons.mpr ⟨fun _ _ _ => Turn.noConfusion, behind.tail⟩

/-! ### What the registrations tell -/

theorem handles_distinct (registered : simulation.Registered history) :
    ((registry history).map Registration.handle).Nodup := by
  have serials := registered.distinct
  rw [show (fun registration : Registration β => registration.handle.serial) =
    Handle.serial ∘ Registration.handle from rfl, ← List.map_map] at serials
  exact List.Pairwise.of_map Handle.serial (fun _ _ other same => other (congrArg _ same)) serials

theorem begun_registered (registered : simulation.Registered history) {handle : Handle} {work : β}
    (begun : Signal.destroying handle work ∈ history) {registration : Registration β}
    (member : registration ∈ registry history) (same : registration.handle = handle) :
    registration.callback = work := by
  have told : (handle, work) ∈ history.filterMap Signal.destroying? :=
    List.mem_filterMap.mpr ⟨_, begun, rfl⟩
  rw [registered.begun] at told
  obtain ⟨other, present, here⟩ := List.mem_filterMap.mp told
  obtain ⟨_, entry⟩ := Registration.at?_eq_some here
  have handles : other.handle = registration.handle := (congrArg Prod.fst entry).trans same.symm
  rw [← registered.eq_of_serial present member (congrArg Handle.serial handles)]
  exact congrArg Prod.snd entry

theorem isExpired (registered : simulation.Registered history) {registration : Registration β}
    (member : registration ∈ registry history) :
    simulation.isExpired registration.handle = .ok (registration.turn != .waiting) := by
  rw [isExpired_destroy (registered.numbered registration member).1]
  congr 1
  rw [registered.waiting, Bool.not_eq_eq_eq_not, bne, Bool.not_not]
  by_cases waits : registration.turn = .waiting
  · rw [beq_iff_eq.mpr waits, List.any_eq_true]
    exact ⟨registration.entry,
      List.mem_filterMap.mpr ⟨registration, member, Registration.at?_self waits⟩,
      beq_self_eq_true _⟩
  · rw [beq_eq_false_iff_ne.mpr waits, List.any_eq_false]
    intro queued present number
    obtain ⟨other, listed, here⟩ := List.mem_filterMap.mp present
    obtain ⟨waitsToo, entry⟩ := Registration.at?_eq_some here
    have serials : other.handle.serial = registration.handle.serial := by
      rw [← beq_iff_eq.mp number, ← entry]
      rfl
    rw [registered.eq_of_serial listed member serials] at waitsToo
    exact waits waitsToo

theorem unregister_isExpired (registered : simulation.Registered history)
    {registration : Registration β} (member : registration ∈ registry history) {other : Handle}
    (known : Given history other) (different : other ≠ registration.handle) :
    (simulation.unregister registration.handle).isExpired other = simulation.isExpired other := by
  cases destroy : other.isDestroy with
  | false =>
      unfold Simulation.isExpired
      rw [destroy, if_neg Bool.false_ne_true, if_neg Bool.false_ne_true]
      rfl
  | true =>
      obtain ⟨held, present, rfl⟩ := registered.given other known destroy
      have serials : held.handle.serial ≠ registration.handle.serial := fun same =>
        different (congrArg Registration.handle (registered.eq_of_serial present member same))
      rw [isExpired_destroy destroy, isExpired_destroy destroy]
      unfold Simulation.unregister
      rw [List.any_filter]
      congr 2
      refine congrArg (simulation.destroyEvents.any ·) (funext fun queued => ?_)
      by_cases same : queued.1.serial = held.handle.serial
      · rw [same, bne_iff_ne.mpr serials, Bool.true_and]
      · rw [beq_eq_false_iff_ne.mpr same, Bool.and_false]

end Registered

end Simulation

end EventKernel
