import EventKernel.Fault

set_option autoImplicit false

/-! A logical clock stands at the last event executed against it. -/

namespace EventKernel

/-- The instant and serial number of the last event executed against a clock. -/
structure Clock where
  now : Timestamp
  lastUid : EventUid
deriving DecidableEq, Repr, Inhabited

namespace Clock

def start : Clock := ⟨.zero, .invalid⟩

def advance (ts : Timestamp) (uid : EventUid) : Clock := ⟨ts, uid⟩

/-- Whether an event at this position is not after the clock. -/
def hasPassed (clock : Clock) (ts : Timestamp) (uid : EventUid) : Bool :=
  decide (ts < clock.now) || (ts == clock.now && decide (uid ≤ clock.lastUid))

def after (clock : Clock) (delay : UInt64) : Except Fault Timestamp :=
  match clock.now.checkedAdd delay with
  | some ts => .ok ts
  | none => .error (.timeOverflow delay clock.now)

end Clock

end EventKernel
