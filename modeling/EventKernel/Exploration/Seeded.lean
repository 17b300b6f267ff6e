import EventKernel.Exploration.Generator
import EventKernel.Exploration.Hook

set_option autoImplicit false

/-! A reproducible stand-in for an exploring engine: a branch is a seed, and a symbolic
value is drawn once from zero to a bound, unless it was fixed before. Every call is
recorded. -/

namespace EventKernel.Exploration

structure Seeded where
  generator : Generator
  range : UInt64
  trace : Trace
deriving DecidableEq, Repr

namespace Seeded

def bind (bindings : List (String × UInt64)) (name : String) (value : UInt64) :
    List (String × UInt64) :=
  match bindings with
  | [] => [(name, value)]
  | (other, held) :: rest =>
      if other = name then (name, value) :: rest else (other, held) :: bind rest name value

/-- An engine whose named values are fixed; of two values for a name the later holds. -/
def new (seed range : UInt64) (bindings : List (String × UInt64)) : Seeded where
  generator := .ofSeed seed
  range
  trace := { Trace.empty with
    bindings := bindings.foldl (fun known (name, value) => bind known name value) [] }

def record (hook : Seeded) (change : Trace → Trace) : Seeded :=
  { hook with trace := change hook.trace }

instance : Hook Seeded where
  isSymbolic name hook := ((hook.trace.bindings.lookup name).isSome, hook)
  makeSymbolic name _ hook :=
    match hook.trace.bindings.lookup name with
    | some value => (value, hook)
    | none =>
        let (value, generator) := hook.generator.drawUpTo hook.range
        (value, { hook with generator }.record fun trace =>
          { trace with bindings := bind trace.bindings name value })
  enableForking hook := hook.record fun trace => { trace with forks := trace.forks + 1 }
  concreteExample value hook := (value, hook)
  terminateBranch reason hook := hook.record fun trace => { trace with terminated := some reason }
  diagnostic line hook := hook.record fun trace =>
    { trace with diagnostics := trace.diagnostics ++ [line] }
  expression name value hook := hook.record fun trace =>
    { trace with expressions := trace.expressions ++ [(name, value)] }
  trace? hook := some hook.trace

end Seeded

end EventKernel.Exploration
