import EventKernel.Exploration.Hook

set_option autoImplicit false

/-! A hook that is one of two, for programs that choose their exploring engine while they
run: each call goes to the one in use. -/

namespace EventKernel.Exploration

def askEither {α σ τ : Type} (first : σ → α × σ) (second : τ → α × τ) :
    σ ⊕ τ → α × (σ ⊕ τ)
  | .inl hook => (first hook).map id .inl
  | .inr hook => (second hook).map id .inr

instance {σ τ : Type} [Hook σ] [Hook τ] : Hook (σ ⊕ τ) where
  isSymbolic name := askEither (Hook.isSymbolic name) (Hook.isSymbolic name)
  makeSymbolic name concrete :=
    askEither (Hook.makeSymbolic name concrete) (Hook.makeSymbolic name concrete)
  enableForking := Sum.map Hook.enableForking Hook.enableForking
  concreteExample value := askEither (Hook.concreteExample value) (Hook.concreteExample value)
  terminateBranch reason := Sum.map (Hook.terminateBranch reason) (Hook.terminateBranch reason)
  diagnostic text := Sum.map (Hook.diagnostic text) (Hook.diagnostic text)
  expression name value := Sum.map (Hook.expression name value) (Hook.expression name value)
  trace? := Sum.elim Hook.trace? Hook.trace?

end EventKernel.Exploration
