import EventKernel.Proofs.LaneState

set_option autoImplicit false

/-! Credit against the events it stands for. No cell of the table exceeds the messages that
have arrived from its sender and are still held, or were handed out by draining, which
leaves the table as it is. A delivery can only fail when those are as many as a cell counts. -/

namespace EventKernel.Queue.LaneQueue

def travels (dest sender : Nat) (event : Event) : Bool :=
  laneOf event.key.context == dest + 1 && laneOf event.prevContext == sender + 1

def arrivals (events : List Event) (dest sender : Nat) : Nat :=
  events.countP fun event => event.kind == .incoming && travels dest sender event

/-- The messages from a sender, arrived or not. -/
def messages (events : List Event) (dest sender : Nat) : Nat :=
  events.countP fun event =>
    (event.kind == .incoming || event.kind == .outgoing) && travels dest sender event

/-- Every cell is backed by messages that arrived and are held or were drained. -/
def Backed (queue : LaneQueue) (drained : Nat → Nat → Nat) : Prop :=
  ∀ table, queue.credits = some table → ∀ dest sender count,
    table.credit dest sender = .ok count →
      count ≤ arrivals queue.events dest sender + drained dest sender

def Affordable (events : List Event) (drained : Nat → Nat → Nat) : Prop :=
  ∀ dest sender, messages events dest sender + drained dest sender < CreditTable.countLimit

def Overdrawn (queue : LaneQueue) : Prop :=
  queue.credits.isSome = true ∧
    ∀ drained, queue.Backed drained → ¬ Affordable queue.events drained

variable {queue after : LaneQueue} {drained : Nat → Nat → Nat}

theorem arrivals_perm {events others : List Event} (perm : events.Perm others) :
    arrivals events = arrivals others := by
  funext dest sender
  exact perm.countP_eq _

theorem messages_perm {events others : List Event} (perm : events.Perm others) :
    messages events = messages others := by
  funext dest sender
  exact perm.countP_eq _

theorem arrivals_le_messages (events : List Event) (dest sender : Nat) :
    arrivals events dest sender ≤ messages events dest sender := by
  apply List.countP_mono_left
  intro event _ arrived
  rw [Bool.and_eq_true] at arrived ⊢
  rw [arrived.1]
  exact ⟨rfl, arrived.2⟩

theorem arrivals_cons (event : Event) (events : List Event) (dest sender : Nat) :
    arrivals (event :: events) dest sender = arrivals events dest sender +
      if event.kind == .incoming && travels dest sender event then 1 else 0 :=
  List.countP_cons

theorem messages_cons (event : Event) (events : List Event) (dest sender : Nat) :
    messages (event :: events) dest sender = messages events dest sender +
      if (event.kind == .incoming || event.kind == .outgoing) && travels dest sender event
      then 1 else 0 :=
  List.countP_cons

theorem arrivals_cons_outgoing {event : Event} (outgoing : event.kind = .outgoing)
    (events : List Event) : arrivals (event :: events) = arrivals events := by
  funext dest sender
  rw [arrivals_cons, outgoing]
  rfl

theorem messages_delivered {event : Event} (outgoing : event.kind = .outgoing)
    (events : List Event) :
    messages (delivered event :: events) = messages (event :: events) := by
  funext dest sender
  rw [messages_cons, messages_cons, outgoing]
  rfl

theorem travels_of_crossing {event : Event} (crossing : queue.isCrossing event = true) :
    travels (laneOf event.key.context - 1) (laneOf event.prevContext - 1) event = true := by
  obtain ⟨_, _, sender, dest, _⟩ := isCrossing_iff.mp crossing
  unfold travels
  rw [Nat.sub_add_cancel (Nat.pos_of_ne_zero dest), Nat.sub_add_cancel (Nat.pos_of_ne_zero sender),
    BEq.rfl, BEq.rfl]
  rfl

theorem travels_unique {event : Event} {dest sender other source : Nat}
    (travels_ : travels dest sender event = true) (also : travels other source event = true) :
    dest = other ∧ sender = source := by
  unfold travels at travels_ also
  simp only [Bool.and_eq_true, beq_iff_eq] at travels_ also
  omega

theorem arrivals_delivered {message : Event} {events others after : List Event}
    (outgoing : message.kind = .outgoing) (before : events.Perm (message :: others))
    (arrived : after.Perm (delivered message :: others)) (dest sender : Nat) :
    arrivals after dest sender =
      arrivals events dest sender + if travels dest sender message then 1 else 0 := by
  rw [arrivals_perm before, arrivals_cons_outgoing outgoing, arrivals_perm arrived, arrivals_cons]
  rfl

theorem Backed.more (backed : queue.Backed drained) (same : after.credits = queue.credits)
    (kept : ∀ dest sender,
      arrivals queue.events dest sender ≤ arrivals after.events dest sender) :
    after.Backed drained := by
  intro table credited dest sender count read
  have before := backed table (same ▸ credited) dest sender count read
  have := kept dest sender
  omega

theorem Backed.room (backed : queue.Backed drained) {message : Event} {others : List Event}
    {table : CreditTable} {count : Nat} (credited : queue.credits = some table)
    (crossing : queue.isCrossing message = true)
    (read : table.credit (laneOf message.key.context - 1) (laneOf message.prevContext - 1) =
      .ok count)
    (held : queue.events.Perm (message :: others)) (affordable : Affordable queue.events drained) :
    count + 1 < CreditTable.countLimit := by
  have outgoing := (isCrossing_iff.mp crossing).2.1
  have cell := backed table credited _ _ count read
  have bound := affordable (laneOf message.key.context - 1) (laneOf message.prevContext - 1)
  have arrived := arrivals_le_messages others (laneOf message.key.context - 1)
    (laneOf message.prevContext - 1)
  rw [messages_perm held, messages_cons, outgoing, travels_of_crossing crossing,
    if_pos (show ((EventKind.outgoing == .incoming || EventKind.outgoing == .outgoing) && true) =
      true from rfl)] at bound
  rw [arrivals_perm held, arrivals_cons_outgoing outgoing] at cell
  omega

theorem Backed.deliver (backed : queue.Backed drained) {message : Event} {others : List Event}
    {table : CreditTable} {count : Nat} (credited : queue.credits = some table)
    (crossing : queue.isCrossing message = true)
    (read : table.credit (laneOf message.key.context - 1) (laneOf message.prevContext - 1) =
      .ok count)
    (before : queue.events.Perm (message :: others))
    (arrived : after.events.Perm (delivered message :: others))
    (counted : after.credits = some (table.put (laneOf message.key.context - 1)
      (laneOf message.prevContext - 1) (count + 1))) : after.Backed drained := by
  have outgoing := (isCrossing_iff.mp crossing).2.1
  have grown := arrivals_delivered outgoing before arrived
  intro held same dest sender amount heldRead
  rw [counted] at same
  cases same
  rw [grown]
  rcases CreditTable.credit_put heldRead with ⟨rfl, rfl, rfl⟩ | ⟨_, old⟩
  · rw [if_pos (travels_of_crossing crossing)]
    have := backed table credited _ _ count read
    omega
  · have := backed table credited _ _ amount old
    omega

theorem Backed.consume (backed : queue.Backed drained) {event : Event} {dest sender : NodeId}
    {table : CreditTable} {count : Nat} (credited : queue.credits = some table)
    (atDest : event.key.context = .node dest) (fromSender : event.prevContext = .node sender)
    (read : table.credit dest.index sender.index = .ok count)
    (left : queue.events.Perm (event :: after.events))
    (counted : after.credits = some (table.put dest.index sender.index (count - 1))) :
    after.Backed drained := by
  intro held same place source amount heldRead
  rw [counted] at same
  cases same
  have shrunk := arrivals_cons event after.events place source
  rw [← arrivals_perm left] at shrunk
  rcases CreditTable.credit_put heldRead with ⟨rfl, rfl, rfl⟩ | ⟨elsewhere, old⟩
  · have := backed table credited _ _ count read
    split at shrunk <;> omega
  · have before := backed table credited _ _ amount old
    have apart : travels place source event = false := by
      cases pair : travels place source event with
      | false => rfl
      | true =>
          unfold travels at pair
          rw [atDest, fromSender, Bool.and_eq_true, beq_iff_eq, beq_iff_eq] at pair
          exact absurd ⟨(Nat.succ.inj pair.1).symm, (Nat.succ.inj pair.2).symm⟩ elsewhere
    rw [apart, Bool.and_false] at shrunk
    simp only [Bool.false_eq_true, if_false] at shrunk
    omega

end EventKernel.Queue.LaneQueue
