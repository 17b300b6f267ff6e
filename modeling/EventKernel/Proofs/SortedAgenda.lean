import EventKernel.Proofs.QueueRuns
import EventKernel.Proofs.RemovalOrder

set_option autoImplicit false

/-! A finite map from instant and serial number to events, with the operations of a queue.
It is a specification, so each of its operations is what the words say and no more. -/

namespace EventKernel.Queue

/-- A finite map from instant and serial number to events, in ascending order. -/
structure Agenda where
  events : List Event
  ordered : events.Pairwise fun earlier later => earlier.key.Precedes later.key

namespace Agenda

/-- Puts an event into its place; one of the same instant and serial number is replaced. -/
def place (event : Event) : List Event → List Event
  | [] => [event]
  | first :: rest =>
      if event.key.Precedes first.key then event :: first :: rest
      else if first.key.Precedes event.key then first :: place event rest
      else event :: rest

private theorem mem_place {event other : Event} {events : List Event}
    (member : other ∈ place event events) : other = event ∨ other ∈ events := by
  induction events with
  | nil => exact Or.inl (List.mem_singleton.mp member)
  | cons first rest ih =>
      unfold place at member
      split at member
      · exact List.mem_cons.mp member
      · split at member
        · rcases List.mem_cons.mp member with same | later
          · exact Or.inr (same ▸ List.mem_cons_self)
          · exact (ih later).imp_right (List.mem_cons_of_mem _)
        · exact (List.mem_cons.mp member).imp_right (List.mem_cons_of_mem _)

private theorem place_ordered (event : Event) {events : List Event}
    (ordered : events.Pairwise fun earlier later => earlier.key.Precedes later.key) :
    (place event events).Pairwise fun earlier later => earlier.key.Precedes later.key := by
  simp only [EventKey.precedes_iff_rank_lt] at ordered ⊢
  induction events with
  | nil => exact List.pairwise_singleton _ _
  | cons first rest ih =>
      obtain ⟨beforeAll, restOrdered⟩ := List.pairwise_cons.mp ordered
      unfold place
      split
      · rename_i before
        have before := EventKey.precedes_iff_rank_lt.mp before
        refine List.pairwise_cons.mpr ⟨fun other member => ?_, ordered⟩
        rcases List.mem_cons.mp member with same | later
        · rw [same]
          exact before
        · exact Nat.lt_trans before (beforeAll other later)
      · rename_i notBefore
        have notBefore := EventKey.not_precedes_iff_rank_le.mp notBefore
        split
        · rename_i behind
          have behind := EventKey.precedes_iff_rank_lt.mp behind
          refine List.pairwise_cons.mpr ⟨fun other member => ?_, ih restOrdered⟩
          rcases mem_place member with same | later
          · rw [same]
            exact behind
          · exact beforeAll other later
        · rename_i notBehind
          have notBehind := EventKey.not_precedes_iff_rank_le.mp notBehind
          refine List.pairwise_cons.mpr ⟨fun other member => ?_, restOrdered⟩
          have := beforeAll other member
          omega

def empty : Agenda := ⟨[], .nil⟩

def insert (agenda : Agenda) (event : Event) : Agenda :=
  ⟨place event agenda.events, place_ordered event agenda.ordered⟩

def next? (agenda : Agenda) : Option EventKey := agenda.events.head?.map Event.key

def pop (agenda : Agenda) : Option Event × Agenda :=
  (agenda.events.head?, ⟨agenda.events.tail, agenda.ordered.tail⟩)

def names (key : EventKey) (event : Event) : Bool :=
  event.key.ts == key.ts && event.key.uid == key.uid

def erase (agenda : Agenda) (key : EventKey) : Option Event × Agenda :=
  (agenda.events.find? (names key),
    ⟨agenda.events.eraseP (names key), agenda.ordered.sublist List.eraseP_sublist⟩)

def drain (agenda : Agenda) : List Event × Agenda := (agenda.events, empty)

def perform (agenda : Agenda) : Operation → Answer × Agenda
  | .insert event => (.inserted (.ok event.key), agenda.insert event)
  | .reinsert event => (.reinserted, agenda.insert event)
  | .next => (.next agenda.next?, agenda)
  | .pop => (.taken agenda.pop.1, agenda.pop.2)
  | .erase key => (.taken (agenda.erase key).1, (agenda.erase key).2)
  | .drain => (.drained agenda.drain.1, agenda.drain.2)

def run (agenda : Agenda) : List Operation → List Report
  | [] => []
  | operation :: rest =>
      let (answer, after) := agenda.perform operation
      ⟨answer, after.events.length, after.events.isEmpty⟩ :: after.run rest

/-- What callers promise: known owners, serial numbers that are not in use, and keys of
events that are there or serial numbers that are not. -/
def Permits (agenda : Agenda) (entities : Nat) : Operation → Prop
  | .insert event => event.key.context.Known entities ∧
      ∀ other ∈ agenda.events, other.key.uid ≠ event.key.uid
  | .reinsert event => event.key.context.Known entities ∧
      ∀ other ∈ agenda.events, other.key.uid ≠ event.key.uid
  | .next => True
  | .pop => True
  | .erase key => (∃ event ∈ agenda.events, event.key = key) ∨
      ∀ event ∈ agenda.events, event.key.uid ≠ key.uid
  | .drain => True

/-- Every operation of a run is permitted where it stands. -/
def PermitsAll (agenda : Agenda) (entities : Nat) : List Operation → Prop
  | [] => True
  | operation :: rest =>
      agenda.Permits entities operation ∧
        (agenda.perform operation).2.PermitsAll entities rest

instance (agenda : Agenda) (entities : Nat) :
    (operation : Operation) → Decidable (agenda.Permits entities operation)
  | .insert event => inferInstanceAs (Decidable (event.key.context.Known entities ∧
      ∀ other ∈ agenda.events, other.key.uid ≠ event.key.uid))
  | .reinsert event => inferInstanceAs (Decidable (event.key.context.Known entities ∧
      ∀ other ∈ agenda.events, other.key.uid ≠ event.key.uid))
  | .next => inferInstanceAs (Decidable True)
  | .pop => inferInstanceAs (Decidable True)
  | .erase key => inferInstanceAs (Decidable ((∃ event ∈ agenda.events, event.key = key) ∨
      ∀ event ∈ agenda.events, event.key.uid ≠ key.uid))
  | .drain => inferInstanceAs (Decidable True)

instance decidablePermitsAll (entities : Nat) : (agenda : Agenda) →
    (operations : List Operation) → Decidable (agenda.PermitsAll entities operations)
  | _, [] => inferInstanceAs (Decidable True)
  | agenda, operation :: rest =>
      have := decidablePermitsAll entities (agenda.perform operation).2 rest
      inferInstanceAs (Decidable (agenda.Permits entities operation ∧
        (agenda.perform operation).2.PermitsAll entities rest))

end Agenda

end EventKernel.Queue
