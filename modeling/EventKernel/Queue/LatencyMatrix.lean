import EventKernel.Fault
import EventKernel.Queue.ConfigurationError

set_option autoImplicit false

/-! Lower bounds on how long an action at one entity takes to affect another. The cells
are kept row by row. A table that was read from text may hold too few cells; reading a
missing one is a fault. Tables from links hold shortest total delays. -/

namespace EventKernel.Queue

/-- The latency between entities that never affect each other. -/
def unreachable : UInt64 := Word.largest

structure LatencyMatrix where
  size : Nat
  cells : Array UInt64
deriving DecidableEq, Repr, Inhabited

/-- A two-way connection between entities and its delay. -/
structure Link where
  first : NodeId
  second : NodeId
  delay : UInt64
deriving DecidableEq, Repr, Inhabited

namespace LatencyMatrix

/-- One past the largest number of 64-bit cells that memory can be asked for. -/
def cellLimit : Nat := 0x1000000000000000

/-- The number of cells of a table, refused when no machine could address or hold them. -/
def cellCount (size : Nat) : Except Fault Nat :=
  if UInt64.size ≤ size * size then .error .arithmeticOverflow
  else if cellLimit ≤ size * size then .error .capacityExceeded
  else .ok (size * size)

def ofFunction (size : Nat) (latency : Nat → Nat → UInt64) : LatencyMatrix where
  size
  cells := ((List.range size).flatMap fun source =>
    (List.range size).map fun target => latency source target).toArray

def uniform (size : Nat) (latency : UInt64) : Except Fault LatencyMatrix := do
  let _ ← cellCount size
  return ofFunction size fun source target => if source = target then 0 else latency

def unevenRow? (size : Nat) : Nat → List (List UInt64) → Option ConfigurationError
  | _, [] => none
  | index, row :: rest =>
      if row.length = size then unevenRow? size (index + 1) rest
      else some (.rowLength index row.length size)

/-- A table of rows. Room for as many cells as it should have is asked for before any row is looked
at. Memory is taken to have that room, so the check of `cellCount`, which tables made from a size
pass through, is left out here. -/
def ofRows (rows : List (List UInt64)) : Except ConfigurationError LatencyMatrix :=
  match unevenRow? rows.length 0 rows with
  | some error => .error error
  | none => .ok ⟨rows.length, rows.flatten.toArray⟩

def checkLinks (size : Nat) : List Link → Except Fault Unit
  | [] => .ok ()
  | link :: rest =>
      if link.first.index < size ∧ link.second.index < size then checkLinks size rest
      else .error (.unknownLinkEnd link.first.index link.second.index size)

/-- The least delay of a single link between two entities, either way round. -/
def directDelay (links : List Link) (source target : Nat) : UInt64 :=
  links.foldl
    (fun best link =>
      if link.first.index = source ∧ link.second.index = target ∨
          link.second.index = source ∧ link.first.index = target then
        min best link.delay
      else best)
    (if source = target then 0 else unreachable)

/-- Improves the row of every entity by the paths that pass through one entity next. -/
def relaxThrough (middle : Nat) (rows : List (List UInt64)) : List (List UInt64) :=
  match rows[middle]? with
  | none => rows
  | some onward =>
      rows.map fun row =>
        match row[middle]? with
        | none => row
        | some toMiddle =>
            row.zipWith (fun known rest => min known (Word.saturatingAdd toMiddle rest)) onward

/-- Rows of shortest total delays: entities are admitted as stages of a path one by one. -/
def shortestRows (size : Nat) (links : List Link) : List (List UInt64) :=
  (List.range size).foldl (fun rows middle => relaxThrough middle rows)
    ((List.range size).map fun source =>
      (List.range size).map fun target => directDelay links source target)

def ofLinks (size : Nat) (links : List Link) : Except Fault LatencyMatrix := do
  let _ ← cellCount size
  checkLinks size links
  return ⟨size, (shortestRows size links).flatten.toArray⟩

/-- The position of a cell; a column past the end runs into the next row. -/
def position (matrix : LatencyMatrix) (source target : Nat) : Except Fault Nat :=
  if source * matrix.size + target < UInt64.size then .ok (source * matrix.size + target)
  else .error .arithmeticOverflow

def get (matrix : LatencyMatrix) (source target : Nat) : Except Fault UInt64 := do
  let index ← matrix.position source target
  match matrix.cells[index]? with
  | some latency => .ok latency
  | none => .error .indexOutOfRange

def set (matrix : LatencyMatrix) (source target : Nat) (latency : UInt64) :
    Except Fault LatencyMatrix := do
  let index ← matrix.position source target
  if index < matrix.cells.size then
    return { matrix with cells := matrix.cells.setIfInBounds index latency }
  else .error .indexOutOfRange

def chunk (width : Nat) (cells : List UInt64) : List (List UInt64) :=
  match cells with
  | [] => []
  | cell :: rest => (cell :: rest.take (width - 1)) :: chunk width (rest.drop (width - 1))
termination_by cells.length
decreasing_by simp only [List.length_cons, List.length_drop]; omega

def rows (matrix : LatencyMatrix) : List (List UInt64) :=
  chunk matrix.size matrix.cells.toList

/-- Whether every number of a list passes a test that may fault; later ones are not tried. -/
def allBelow (test : Nat → Except Fault Bool) : List Nat → Except Fault Bool
  | [] => .ok true
  | index :: rest => do
      if ← test index then allBelow test rest else return false

/-- Whether no detour through a third entity is quicker than the direct latency. -/
def isTriangleConsistent (matrix : LatencyMatrix) : Except Fault Bool :=
  let entities := List.range matrix.size
  allBelow (fun source => allBelow (fun middle => allBelow (fun target => do
    let direct ← matrix.get source target
    let first ← matrix.get source middle
    let second ← matrix.get middle target
    return decide (direct ≤ Word.saturatingAdd first second)) entities) entities) entities

end LatencyMatrix

end EventKernel.Queue
