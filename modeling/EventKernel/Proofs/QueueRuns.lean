import EventKernel.Queue.EventQueue

set_option autoImplicit false

/-! What can be asked of a queue, one operation after another, and what it answers. -/

namespace EventKernel

/-- The simulation itself, or one of so many entities. -/
def Context.Known (entities : Nat) : Context → Prop
  | global => True
  | node id => id.index < entities

instance (entities : Nat) : (context : Context) → Decidable (context.Known entities)
  | .global => inferInstanceAs (Decidable True)
  | .node id => inferInstanceAs (Decidable (id.index < entities))

end EventKernel

namespace EventKernel.Queue

/-- What can be asked of a queue. -/
inductive Operation where
  | insert (event : Event)
  /-- Insertion of an event that has left another queue. -/
  | reinsert (event : Event)
  | next
  | pop
  | erase (key : EventKey)
  | drain
deriving DecidableEq, Repr

/-- The answer to one operation. -/
inductive Answer where
  | inserted (result : Except BranchEnded EventKey)
  | reinserted
  | next (key? : Option EventKey)
  | taken (event? : Option Event)
  | drained (events : List Event)

/-- Equal answers; drained events may come in any order. -/
inductive Answer.Agrees : Answer → Answer → Prop
  | same (answer : Answer) : Agrees answer answer
  | drained {left right : List Event} (perm : left.Perm right) :
      Agrees (.drained left) (.drained right)

structure Report where
  answer : Answer
  size : Nat
  isEmpty : Bool

structure Report.Agrees (left right : Report) : Prop where
  answer : left.answer.Agrees right.answer
  size : left.size = right.size
  isEmpty : left.isEmpty = right.isEmpty

/-- Two runs of which each report agrees. -/
def Report.AllAgree : List Report → List Report → Prop
  | [], [] => True
  | left :: lefts, right :: rights => left.Agrees right ∧ AllAgree lefts rights
  | _, _ => False

namespace EventQueue

variable {σ : Type} [Exploration.Hook σ]

def perform (queue : EventQueue σ) : Operation → Except Fault (Answer × EventQueue σ)
  | .insert event => do
      let (result, queue) ← queue.insert event
      return (.inserted result, queue)
  | .reinsert event => do
      let queue ← queue.reinsert event
      return (.reinserted, queue)
  | .next => do
      let (key?, queue) ← queue.next?
      return (.next key?, queue)
  | .pop => do
      let (event?, queue) ← queue.pop
      return (.taken event?, queue)
  | .erase key => do
      let (event?, queue) ← queue.erase key
      return (.taken event?, queue)
  | .drain => return (.drained queue.drain.1, queue.drain.2)

def run (queue : EventQueue σ) : List Operation → Except Fault (List Report × EventQueue σ)
  | [] => return ([], queue)
  | operation :: rest => do
      let (answer, after) ← queue.perform operation
      let (reports, last) ← after.run rest
      return (⟨answer, after.size, after.isEmpty⟩ :: reports, last)

end EventQueue

namespace LaneQueue

/-- The same operations on lanes alone, where every insertion is as it is. -/
def perform (queue : LaneQueue) : Operation → Except Fault (Answer × LaneQueue)
  | .insert event => do
      let queue ← queue.insert event
      return (.inserted (.ok event.key), queue)
  | .reinsert event => do
      let queue ← queue.insert event
      return (.reinserted, queue)
  | .next => do
      let (key?, queue) ← queue.next?
      return (.next key?, queue)
  | .pop => do
      let (event?, queue) ← queue.pop
      return (.taken event?, queue)
  | .erase key => do
      let (event?, queue) ← queue.erase key
      return (.taken event?, queue)
  | .drain => return (.drained queue.drain.1, queue.drain.2)

/-- Operations one after another, whatever they answer. -/
def performAll (queue : LaneQueue) : List Operation → Except Fault LaneQueue
  | [] => return queue
  | operation :: rest => do
      let (_, after) ← queue.perform operation
      after.performAll rest

end LaneQueue

end EventKernel.Queue
