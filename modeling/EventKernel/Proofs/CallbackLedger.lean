import EventKernel.Proofs.BookkeepingRuns

set_option autoImplicit false

/-! What becomes of the callbacks that a program gives away. The ledger lists them in the order
in which they were given, with or without an event that is queued for them already. A step of
the machine changes their fates: a request from outside is merged or dropped, an event is
queued, refused, withdrawn, disposed or invoked. What is final stays. -/

namespace EventKernel

variable {σ β μ : Type}

/-- What has become of a callback. -/
inductive Fate where
  /-- A request from outside that the simulation has not taken. -/
  | waiting
  | queued (key : EventKey)
  /-- Exploration has refused its event. -/
  | refused
  /-- Its event was cancelled or removed before it had expired. -/
  | withdrawn
  | disposed
  | invoked (key : EventKey)
deriving DecidableEq, Repr

def Fate.isFinal : Fate → Bool
  | .waiting | .queued _ => false
  | .refused | .withdrawn | .disposed | .invoked _ => true

/-- What may have become of a callback later. -/
inductive Fate.Becomes : Fate → Fate → Prop
  | same (fate : Fate) : Becomes fate fate
  | taken (fate : Fate) : Becomes .waiting fate
  | withdrawn (key : EventKey) : Becomes (.queued key) .withdrawn
  | disposed (key : EventKey) : Becomes (.queued key) .disposed
  | invoked (key : EventKey) : Becomes (.queued key) (.invoked key)

/-- A callback that was given to a scheduling operation or to a request from outside. -/
structure Deposit (β : Type) where
  callback : Callback β
  fate : Fate
deriving DecidableEq, Repr

namespace Deposit

def waiting? (deposit : Deposit β) : Option (Callback β) :=
  match deposit.fate with
  | .waiting => some deposit.callback
  | _ => none

/-- The key under which the event of a callback was queued, while it waits there and when it
has been invoked. -/
def key? (deposit : Deposit β) : Option EventKey :=
  match deposit.fate with
  | .queued key => some key
  | .invoked key => some key
  | _ => none

def invoked? (deposit : Deposit β) : Option (EventKey × Callback β) :=
  match deposit.fate with
  | .invoked key => some (key, deposit.callback)
  | _ => none

def withdraw (uid : EventUid) (deposit : Deposit β) : Deposit β :=
  match deposit.fate with
  | .queued key => if key.uid = uid then { deposit with fate := .withdrawn } else deposit
  | _ => deposit

def dispose (deposit : Deposit β) : Deposit β :=
  if deposit.fate.isFinal then deposit else { deposit with fate := .disposed }

def invoke (key : EventKey) (deposit : Deposit β) : Deposit β :=
  if deposit.fate = .queued key then { deposit with fate := .invoked key } else deposit

/-- All waiting requests are merged, in order; each takes the next serial number. -/
def mergeAll (fateOf : EventUid → Fate) : EventUid → List (Deposit β) → List (Deposit β)
  | _, [] => []
  | uid, deposit :: rest =>
      if deposit.fate = .waiting then
        { deposit with fate := fateOf uid } :: mergeAll fateOf ⟨uid.value + 1⟩ rest
      else deposit :: mergeAll fateOf uid rest

end Deposit

/-- What has become of the event that was given a serial number: it is queued under a key, or
it was refused. -/
def Simulation.fateOf (simulation : Simulation σ β) (uid : EventUid) : Fate :=
  match simulation.queue.layout.events.find? fun event => event.key.uid == uid with
  | some event => .queued event.key
  | none => .refused

/-- The ledger when a handle is cancelled or removed: only one that has not expired is affected. -/
def Simulation.withdraw (simulation : Simulation σ β) (handle : Handle)
    (ledger : List (Deposit β)) : List (Deposit β) :=
  match handle.isDestroy, simulation.isExpired handle with
  | false, .ok false => ledger.map (Deposit.withdraw handle.key.uid)
  | _, _ => ledger

/-- The ledger after a request, from the simulations before and after it. -/
def Request.record (before after : Simulation σ β) (ledger : List (Deposit β)) :
    {reply : Reply} → Request σ β reply → List (Deposit β)
  | _, .schedule _ callback => ledger ++ [⟨.user callback, after.fateOf before.nextUid⟩]
  | _, .stopAfter _ => ledger ++ [⟨.stop, after.fateOf before.nextUid⟩]
  | _, .requestRemote _ _ callback => ledger ++ [⟨.user callback, .waiting⟩]
  | _, .cancel handle => before.withdraw handle ledger
  | _, .remove handle => before.withdraw handle ledger
  | _, .dispose => ledger.map Deposit.dispose
  | _, _ => ledger

/-- The ledger after a step. The waiting requests are merged when a run begins and whenever a
run has left an event. -/
def Machine.record (machine : Machine σ β μ) (ledger : List (Deposit β))
    (signals : List (Signal σ β)) (after : Machine σ β μ) : List (Deposit β) :=
  match machine.frames, signals with
  | .script (.perform request _) :: _, _ =>
      request.record machine.simulation after.simulation ledger
  | .running _ _ :: _, .fired key _ :: _ => ledger.map (Deposit.invoke key)
  | .script (.run _) :: _, _ | .running _ _ :: _, [] | .firing :: _, _ =>
      Deposit.mergeAll after.simulation.fateOf machine.simulation.nextUid ledger
  | _, _ => ledger

/-- The callback that a request gives away. Those of the destroy phase are kept apart. -/
def Signal.deposit? : Signal σ β → Option (Callback β)
  | .answered (.schedule _ callback) _ => some (.user callback)
  | .answered (.stopAfter _) _ => some .stop
  | .answered (.requestRemote _ _ callback) _ => some (.user callback)
  | _ => none

def Signal.fired? : Signal σ β → Option (EventKey × Callback β)
  | .fired key callback => some (key, callback)
  | _ => none

/-- The machines that a lawful program reaches from one with a history and a ledger, each with
its own. -/
def Machine.Accounts [Exploration.Hook σ] (body : β → Script σ β μ) (past : List (Signal σ β))
    (deposits : List (Deposit β)) (start : Machine σ β μ) (history : List (Signal σ β))
    (ledger : List (Deposit β)) (machine : Machine σ β μ) : Prop :=
  LeadsTo body (Watch.lawful.beside fun ledger machine signals after =>
    machine.record ledger signals after) (past, deposits) start (history, ledger) machine

private theorem Fate.Becomes.trans {first second third : Fate} (former : first.Becomes second)
    (latter : second.Becomes third) : first.Becomes third := by
  cases former with
  | same => exact latter
  | taken => exact .taken third
  | withdrawn key =>
      cases latter with
      | same => exact .withdrawn key
  | disposed key =>
      cases latter with
      | same => exact .disposed key
  | invoked key =>
      cases latter with
      | same => exact .invoked key

/-- Every deposit is still there, in its place, and its fate has gone on. -/
def Deposit.Progress (ledger later : List (Deposit β)) : Prop :=
  ∀ (index : Nat) (deposit : Deposit β), ledger[index]? = some deposit →
    ∃ fate, later[index]? = some ⟨deposit.callback, fate⟩ ∧ deposit.fate.Becomes fate

namespace Deposit

variable {ledger later : List (Deposit β)}

private theorem Progress.refl (ledger : List (Deposit β)) : Progress ledger ledger :=
  fun _ deposit found => ⟨deposit.fate, found, .same _⟩

private theorem Progress.trans {third : List (Deposit β)} (former : Progress ledger later)
    (latter : Progress later third) : Progress ledger third := by
  intro index deposit found
  obtain ⟨fate, next, becomes⟩ := former index deposit found
  obtain ⟨last, atLast, goesOn⟩ := latter index _ next
  exact ⟨last, atLast, becomes.trans goesOn⟩

private theorem progress_append (ledger added : List (Deposit β)) :
    Progress ledger (ledger ++ added) := by
  intro index deposit found
  obtain ⟨below, _⟩ := List.getElem?_eq_some_iff.mp found
  exact ⟨deposit.fate, (List.getElem?_append_left below).trans found, .same _⟩

private theorem progress_map {change : Deposit β → Deposit β}
    (changes : ∀ deposit, (change deposit).callback = deposit.callback ∧
      deposit.fate.Becomes (change deposit).fate) (ledger : List (Deposit β)) :
    Progress ledger (ledger.map change) := by
  intro index deposit found
  obtain ⟨same, becomes⟩ := changes deposit
  refine ⟨(change deposit).fate, ?_, becomes⟩
  rw [List.getElem?_map, found, ← same]
  rfl

theorem withdraw_becomes (uid : EventUid) (deposit : Deposit β) :
    (deposit.withdraw uid).callback = deposit.callback ∧
      deposit.fate.Becomes (deposit.withdraw uid).fate := by
  obtain ⟨callback, fate⟩ := deposit
  cases fate with
  | queued key =>
      unfold withdraw
      simp only
      split
      · exact ⟨rfl, .withdrawn key⟩
      · exact ⟨rfl, .same _⟩
  | waiting | refused | withdrawn | disposed | invoked => exact ⟨rfl, .same _⟩

theorem dispose_becomes (deposit : Deposit β) :
    deposit.dispose.callback = deposit.callback ∧ deposit.fate.Becomes deposit.dispose.fate := by
  obtain ⟨callback, fate⟩ := deposit
  cases fate with
  | waiting => exact ⟨rfl, .taken _⟩
  | queued key => exact ⟨rfl, .disposed key⟩
  | refused | withdrawn | disposed | invoked => exact ⟨rfl, .same _⟩

theorem invoke_becomes (key : EventKey) (deposit : Deposit β) :
    (deposit.invoke key).callback = deposit.callback ∧
      deposit.fate.Becomes (deposit.invoke key).fate := by
  unfold invoke
  split
  · rename_i queued
    rw [queued]
    exact ⟨rfl, .invoked key⟩
  · exact ⟨rfl, .same _⟩

private theorem progress_mergeAll (fateOf : EventUid → Fate) (uid : EventUid)
    (ledger : List (Deposit β)) : Progress ledger (mergeAll fateOf uid ledger) := by
  induction ledger generalizing uid with
  | nil => exact Progress.refl _
  | cons first rest ih =>
      intro index deposit found
      unfold mergeAll
      split
      · rename_i waits
        cases index with
        | zero =>
            cases found
            exact ⟨fateOf uid, rfl, waits ▸ .taken _⟩
        | succ index => exact ih _ index deposit found
      · cases index with
        | zero =>
            cases found
            exact ⟨_, rfl, .same _⟩
        | succ index => exact ih _ index deposit found

end Deposit

private theorem Request.record_progress (before after : Simulation σ β) (ledger : List (Deposit β))
    {reply : Reply} (request : Request σ β reply) :
    Deposit.Progress ledger (request.record before after ledger) := by
  have withdraws (handle : Handle) : Deposit.Progress ledger (before.withdraw handle ledger) := by
    unfold Simulation.withdraw
    split
    · exact Deposit.progress_map (Deposit.withdraw_becomes _) ledger
    · exact .refl _
  cases request with
  | schedule | stopAfter | requestRemote => exact Deposit.progress_append _ _
  | cancel handle => exact withdraws handle
  | remove handle => exact withdraws handle
  | dispose => exact Deposit.progress_map Deposit.dispose_becomes ledger
  | scheduleDestroy | isExpired | delayLeft | stop | replaceQueue | now | nowIn
  | currentContext | pending | remotePending | describe | detail | trace | configuration =>
      exact .refl _

private theorem Machine.record_progress (machine after : Machine σ β μ) (ledger : List (Deposit β))
    (signals : List (Signal σ β)) :
    Deposit.Progress ledger (machine.record ledger signals after) := by
  unfold record
  split
  · exact Request.record_progress _ _ _ _
  · exact Deposit.progress_map (Deposit.invoke_becomes _) ledger
  · exact Deposit.progress_mergeAll _ _ ledger
  · exact Deposit.progress_mergeAll _ _ ledger
  · exact Deposit.progress_mergeAll _ _ ledger
  · exact .refl _

theorem Machine.Accounts.progress [Exploration.Hook σ] {body : β → Script σ β μ}
    {past history : List (Signal σ β)} {deposits ledger : List (Deposit β)}
    {start machine : Machine σ β μ}
    (accounts : Accounts body past deposits start history ledger machine) :
    Deposit.Progress deposits ledger := by
  refine accounts.keeps (motive := fun noted _ => Deposit.Progress deposits noted.2) (.refl _) ?_
  exact fun _ _ _ progress => progress.trans (record_progress _ _ _ _)

end EventKernel
