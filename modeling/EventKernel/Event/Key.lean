import EventKernel.Event.Timestamp

set_option autoImplicit false

/-! What identifies a scheduled event: when it fires, the serial number that breaks
ties, and the entity that owns it. Removal order reads the first two only; the owner
completes the order of keys so that it agrees with equality. -/

namespace EventKernel

/-- The serial number given to an event when it is scheduled. -/
structure EventUid where
  value : UInt64
deriving DecidableEq, Repr, Inhabited

namespace EventUid

instance : LT EventUid := ⟨fun left right => left.value < right.value⟩
instance : LE EventUid := ⟨fun left right => left.value ≤ right.value⟩

instance (left right : EventUid) : Decidable (left < right) :=
  inferInstanceAs (Decidable (left.value < right.value))

instance (left right : EventUid) : Decidable (left ≤ right) :=
  inferInstanceAs (Decidable (left.value ≤ right.value))

instance : ToString EventUid := ⟨fun uid => toString uid.value.toNat⟩

def invalid : EventUid := ⟨0⟩

def now : EventUid := ⟨1⟩

def destroy : EventUid := ⟨2⟩

def first : EventUid := ⟨4⟩

def next? (uid : EventUid) : Option EventUid :=
  (Word.checkedAdd uid.value 1).map EventUid.mk

/-- The numbers below the first ordinary one have meanings of their own. -/
def isReserved (uid : EventUid) : Bool := uid < first

end EventUid

structure NodeId where
  value : UInt32
deriving DecidableEq, Repr, Inhabited

namespace NodeId

instance : ToString NodeId := ⟨fun node => toString node.value.toNat⟩

def index (node : NodeId) : Nat := node.value.toNat

end NodeId

/-- The owner of an event: the simulation as a whole, or one entity with its own clock. -/
inductive Context where
  | global
  | node (id : NodeId)
deriving DecidableEq, Repr, Inhabited

namespace Context

def isGlobal : Context → Bool
  | global => true
  | node _ => false

def node? : Context → Option NodeId
  | global => none
  | node id => some id

/-- Global comes first, then the entities by number. -/
def rank : Context → Nat
  | global => 0
  | node id => id.index + 1

instance : ToString Context := ⟨fun
  | global => "global"
  | node id => s!"node-{id}"⟩

end Context

structure EventKey where
  ts : Timestamp
  uid : EventUid
  context : Context
deriving DecidableEq, Repr, Inhabited

namespace EventKey

instance : ToString EventKey := ⟨fun key => s!"#{key.uid}@{key.ts}ms/{key.context}"⟩

/-- Removal order: the earlier instant first, ties to the smaller serial number. -/
def Precedes (left right : EventKey) : Prop :=
  left.ts < right.ts ∨ left.ts = right.ts ∧ left.uid < right.uid

instance : DecidableRel Precedes := fun left right =>
  inferInstanceAs (Decidable (left.ts < right.ts ∨ left.ts = right.ts ∧ left.uid < right.uid))

/-- Instant and serial number as one number, so that removal order is the order of numbers. -/
def rank (key : EventKey) : Nat :=
  key.ts.value.toNat * UInt64.size + key.uid.value.toNat

/-- The complete order of keys: removal order, then the owner. -/
def compare (left right : EventKey) : Ordering :=
  (Ord.compare left.rank right.rank).then (Ord.compare left.context.rank right.context.rank)

theorem precedes_iff_rank_lt {left right : EventKey} :
    left.Precedes right ↔ left.rank < right.rank := by
  have leftBound := left.uid.value.toNat_lt
  have rightBound := right.uid.value.toNat_lt
  unfold Precedes rank UInt64.size
  rw [Timestamp.lt_iff_toNat]
  have sameTime : left.ts = right.ts ↔ left.ts.value.toNat = right.ts.value.toNat := by
    constructor
    · intro same; rw [same]
    · intro same
      exact congrArg Timestamp.mk (UInt64.toNat_inj.mp same)
  have uidOrder : left.uid < right.uid ↔ left.uid.value.toNat < right.uid.value.toNat :=
    UInt64.lt_iff_toNat_lt
  rw [sameTime, uidOrder]
  constructor
  · rintro (earlier | ⟨same, smaller⟩) <;> omega
  · intro less
    by_cases same : left.ts.value.toNat = right.ts.value.toNat
    · right; exact ⟨same, by omega⟩
    · left; omega

end EventKey

end EventKernel
