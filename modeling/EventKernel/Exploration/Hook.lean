set_option autoImplicit false

/-! The interface between a queue and an engine that explores its runs, such as a symbolic
executor. Each call passes the state of the engine through. -/

namespace EventKernel.Exploration

/-- The name of the one symbolic value of a branch. -/
def symbolicDelay : String := "Symbolic delay"

/-- What a recording engine has observed during one branch. -/
structure Trace where
  /-- Names with their values; each name occurs once. -/
  bindings : List (String × UInt64)
  forks : Nat
  diagnostics : List String
  expressions : List (String × UInt64)
  terminated : Option String
deriving DecidableEq, Repr

def Trace.empty : Trace := ⟨[], 0, [], [], none⟩

class Hook (σ : Type) where
  /-- Whether a name is bound to a symbolic value. -/
  isSymbolic : String → σ → Bool × σ
  /-- Binds a name, given the value used without exploration, and answers the value of
  this branch. -/
  makeSymbolic : String → UInt64 → σ → UInt64 × σ
  /-- Asks for one branch for each value that symbolic values may take from now on. -/
  enableForking : σ → σ
  concreteExample : UInt64 → σ → UInt64 × σ
  terminateBranch : String → σ → σ
  diagnostic : String → σ → σ
  expression : String → UInt64 → σ → σ
  trace? : σ → Option Trace

/-- An engine that explores nothing: every value is its concrete value. -/
inductive Silent where
  | silent
deriving DecidableEq, Repr, Inhabited

instance : Hook Silent where
  isSymbolic _ hook := (false, hook)
  makeSymbolic _ concrete hook := (concrete, hook)
  enableForking hook := hook
  concreteExample value hook := (value, hook)
  terminateBranch _ hook := hook
  diagnostic _ hook := hook
  expression _ _ hook := hook
  trace? _ := none

end EventKernel.Exploration
