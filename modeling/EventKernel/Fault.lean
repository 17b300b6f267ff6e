import EventKernel.Event.Basic

set_option autoImplicit false

/-! Violations of what an operation promises or demands. A fault ends the computation
that meets it: no state is returned beside it. -/

namespace EventKernel

inductive Fault where
  | indexOutOfRange
  | arithmeticOverflow
  /-- A table was asked for that no memory can hold. -/
  | capacityExceeded
  | unknownLinkEnd (first second size : Nat)
  /-- The first entry of a list still holds events back. -/
  | parkedAtFront
  | unknownLane (key : EventKey)
  | unknownDestination (key : EventKey)
  | unknownContext (context : Context) (entities : Nat)
  | timeOverflow (delay : UInt64) (now : Timestamp)
  | eventMissing (key : EventKey) (kind : EventKind)
  | callbackMissing (key : EventKey) (kind : EventKind)
  /-- The queue is empty although events are still counted as scheduled. -/
  | eventsLost (count : Nat)
  | firedWithoutCallback (key : EventKey)
  | entityCountDiffers
deriving DecidableEq, Repr

namespace Fault

/-- What is reported about a fault; the two faults of plain machine code have no words. -/
def message? : Fault → Option String
  | indexOutOfRange => none
  | arithmeticOverflow => none
  | capacityExceeded => some "capacity overflow"
  | unknownLinkEnd first second size =>
      some s!"link {first}-{second} references an entity outside 0..{size}"
  | parkedAtFront => some "front barrier kept pending events"
  | unknownLane key => some s!"event {key} targets unknown context {key.context}"
  | unknownDestination key => some s!"outgoing event {key} targets unknown context"
  | unknownContext context entities =>
      some s!"context {context} is outside the {entities} configured entities"
  | timeOverflow delay now => some s!"scheduling {delay.toNat} after {now} overflows logical time"
  | eventMissing key kind => some s!"event {key} ({kind}) is live but missing from the queue"
  | callbackMissing key kind => some s!"event {key} ({kind}) has no callback"
  | eventsLost count => some s!"queue is empty but {count} events are still scheduled"
  | firedWithoutCallback key => some s!"event {key} reached the front without a callback"
  | entityCountDiffers =>
      some "replacement queue engine covers a different number of entities"

end Fault

/-! A computation that returned has met no fault on its way. -/

theorem bind_eq_ok {α β : Type} {first : Except Fault α} {next : α → Except Fault β} {result : β}
    (returned : (first >>= next) = .ok result) :
    ∃ value, first = .ok value ∧ next value = .ok result := by
  cases first with
  | error fault => cases returned
  | ok value => exact ⟨value, rfl, returned⟩

theorem map_eq_ok {α β : Type} {function : α → β} {first : Except Fault α} {result : β}
    (returned : (function <$> first) = .ok result) :
    ∃ value, first = .ok value ∧ function value = result := by
  cases first with
  | error fault => cases returned
  | ok value => exact ⟨value, rfl, Except.ok.inj returned⟩

/-- The natural predecessor, refused at zero. -/
def decrement (count : Nat) (amount : Nat) : Except Fault Nat :=
  if amount ≤ count then .ok (count - amount) else .error .arithmeticOverflow

end EventKernel
