import EventKernel.Exploration.Hook
import EventKernel.Queue.Configuration

set_option autoImplicit false

/-! Perturbation of transmission times. The first insertion of a branch binds one symbolic
delay. A window of the eligible transmissions, in order of insertion, is delayed by it. A
delay above the bound ends the branch, and from then on every insertion is refused. -/

namespace EventKernel

/-- A refused insertion: the exploration branch has ended. -/
structure BranchEnded where
  reason : String
deriving DecidableEq, Repr

def BranchEnded.message (ended : BranchEnded) : String :=
  s!"exploration branch terminated: {ended.reason}"

namespace Exploration

open Queue (PerturbationSettings)

/-- Why a branch ends whose delay is above the bound. -/
def outOfRange : String := "Out of range"

structure Perturbation where
  settings : PerturbationSettings
  delay : Option UInt64
  /-- Eligible transmissions seen so far. -/
  eligibleSeen : Nat
  /-- The events whose time was shifted, without repetition. -/
  perturbed : List EventUid
  terminated : Option String
deriving DecidableEq, Repr

namespace Perturbation

/-- One past the largest number of eligible transmissions that can be counted. -/
def eligibleLimit : Nat := UInt32.size

def new (settings : PerturbationSettings) : Perturbation := ⟨settings, none, 0, [], none⟩

def isPerturbed (perturbation : Perturbation) (uid : EventUid) : Bool :=
  perturbation.perturbed.contains uid

/-- The number of different events whose time was shifted. -/
def count (perturbation : Perturbation) : Nat := perturbation.perturbed.length

def isEligible (settings : PerturbationSettings) (event : Event) : Bool :=
  match event.transmit with
  | none => false
  | some transmission => settings.minPacketSize < transmission.packetSize

variable {σ : Type} [Hook σ]

/-- Binds the delay of the branch, or reads it again if the hook still knows it. -/
def bind (perturbation : Perturbation) (hook : σ) :
    Except BranchEnded UInt64 × Perturbation × σ :=
  let (known, hook) : Option UInt64 × σ :=
    match perturbation.delay with
    | none => (none, hook)
    | some delay =>
        let (symbolic, hook) := Hook.isSymbolic symbolicDelay hook
        (if symbolic then some delay else none, hook)
  match known with
  | some delay => (.ok delay, perturbation, hook)
  | none =>
      let (delay, hook) := Hook.makeSymbolic symbolicDelay 0 hook
      let perturbation := { perturbation with delay := some delay }
      if perturbation.settings.maxBound < delay then
        (.error ⟨outOfRange⟩, { perturbation with terminated := some outOfRange },
          Hook.terminateBranch outOfRange hook)
      else (.ok delay, perturbation, hook)

def shift (perturbation : Perturbation) (hook : σ) (event : Event) (delay : UInt64) :
    Event × Perturbation × σ :=
  let hook := Hook.enableForking hook
  let ts := event.key.ts.saturatingAdd delay
  let perturbed :=
    if perturbation.isPerturbed event.key.uid then perturbation.perturbed
    else perturbation.perturbed ++ [event.key.uid]
  let hook := Hook.diagnostic s!"Setting event id {event.key.uid} to symbolic" hook
  let hook := Hook.expression "perturbed_ts" ts.value hook
  ({ event with key := { event.key with ts } }, { perturbation with perturbed }, hook)

def apply (perturbation : Perturbation) (hook : σ) (event : Event) :
    Except Fault (Except BranchEnded Event × Perturbation × σ) :=
  if !perturbation.settings.enabled then .ok (.ok event, perturbation, hook)
  else match perturbation.terminated with
    | some reason => .ok (.error ⟨reason⟩, perturbation, hook)
    | none =>
        match perturbation.bind hook with
        | (.error ended, perturbation, hook) => .ok (.error ended, perturbation, hook)
        | (.ok delay, perturbation, hook) =>
            if !isEligible perturbation.settings event then .ok (.ok event, perturbation, hook)
            else if eligibleLimit ≤ perturbation.eligibleSeen + 1 then .error .arithmeticOverflow
            else
              let perturbation :=
                { perturbation with eligibleSeen := perturbation.eligibleSeen + 1 }
              if perturbation.eligibleSeen < perturbation.settings.firstPerturbed.toNat ||
                  perturbation.settings.maxPerturbedEvents.toNat ≤ perturbation.count then
                .ok (.ok event, perturbation, hook)
              else
                let (event, perturbation, hook) := perturbation.shift hook event delay
                .ok (.ok event, perturbation, hook)

end Perturbation

end Exploration

end EventKernel
