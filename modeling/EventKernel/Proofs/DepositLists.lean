import EventKernel.Proofs.CallbackLedger

set_option autoImplicit false

/-! The lists that a ledger of callbacks holds: the requests that wait, the keys under which
callbacks were queued, and what was invoked. Each change of fates does one thing to one of them
and leaves the others as they are. -/

namespace EventKernel

variable {σ β : Type}

namespace Deposit

variable {ledger front back : List (Deposit β)} {callback : Callback β} {key : EventKey}
  {uid : EventUid}

private theorem eq_of_waiting? {deposit : Deposit β} (waits : deposit.waiting? = some callback) :
    deposit = ⟨callback, .waiting⟩ := by
  obtain ⟨held, fate⟩ := deposit
  cases fate with
  | waiting =>
      cases waits
      rfl
  | queued | refused | withdrawn | disposed | invoked => cases waits

theorem waiting?_eq_none {deposit : Deposit β} :
    deposit.waiting? = none ↔ deposit.fate ≠ .waiting := by
  obtain ⟨held, fate⟩ := deposit
  cases fate <;> simp [waiting?]

theorem first_waiting {others : List (Callback β)}
    (waits : ledger.filterMap waiting? = callback :: others) :
    ∃ front back, ledger = front ++ ⟨callback, .waiting⟩ :: back ∧
      (∀ deposit ∈ front, deposit.fate ≠ .waiting) ∧ back.filterMap waiting? = others := by
  obtain ⟨front, first, back, split, none_, here, rest⟩ := List.filterMap_eq_cons_iff.mp waits
  rw [eq_of_waiting? here] at split
  exact ⟨front, back, split, fun deposit member => waiting?_eq_none.mp (none_ deposit member), rest⟩

theorem mergeAll_nothing (fateOf : EventUid → Fate) (uid : EventUid)
    (nothing : ledger.filterMap waiting? = []) : mergeAll fateOf uid ledger = ledger := by
  induction ledger with
  | nil => rfl
  | cons deposit rest ih =>
      have none_ := List.filterMap_eq_nil_iff.mp nothing
      unfold mergeAll
      rw [if_neg (waiting?_eq_none.mp (none_ deposit List.mem_cons_self)),
        ih (List.filterMap_eq_nil_iff.mpr fun other later =>
          none_ other (List.mem_cons_of_mem _ later))]

/-- The first request that waits is merged before the others. -/
theorem mergeAll_first (fateOf : EventUid → Fate) (uid : EventUid)
    (passed : ∀ deposit ∈ front, deposit.fate ≠ .waiting) (taken : fateOf uid ≠ .waiting) :
    mergeAll fateOf uid (front ++ ⟨callback, .waiting⟩ :: back) =
      mergeAll fateOf ⟨uid.value + 1⟩ (front ++ ⟨callback, fateOf uid⟩ :: back) := by
  induction front with
  | nil =>
      simp only [List.nil_append]
      rw [mergeAll, if_pos rfl, mergeAll, if_neg taken]
  | cons deposit rest ih =>
      have here := passed deposit List.mem_cons_self
      rw [List.cons_append, List.cons_append, mergeAll, if_neg here, mergeAll, if_neg here,
        ih fun other later => passed other (List.mem_cons_of_mem _ later)]

theorem mem_middle {deposit new : Deposit β} :
    deposit ∈ front ++ new :: back ↔ deposit = new ∨ deposit ∈ front ++ back :=
  List.perm_middle.mem_iff.trans List.mem_cons

theorem filterMap_middle_none {α : Type} {view : Deposit β → Option α} {new : Deposit β}
    (unseen : view new = none) :
    (front ++ new :: back).filterMap view = (front ++ back).filterMap view := by
  rw [List.filterMap_append, List.filterMap_append, List.filterMap_cons_none unseen]

private theorem filterMap_middle_some {α : Type} {view : Deposit β → Option α} {new : Deposit β}
    {value : α} (seen : view new = some value) :
    ((front ++ new :: back).filterMap view).Perm (value :: (front ++ back).filterMap view) := by
  rw [List.filterMap_append, List.filterMap_append, List.filterMap_cons_some seen]
  exact List.perm_middle

theorem keys_middle : ((front ++ ⟨callback, .queued key⟩ :: back).filterMap key?).Perm
    (key :: (front ++ back).filterMap key?) :=
  filterMap_middle_some rfl

private theorem withdraw_cases (uid : EventUid) (deposit : Deposit β) :
    (∃ key, deposit.fate = .queued key ∧ key.uid = uid ∧
      deposit.withdraw uid = ⟨deposit.callback, .withdrawn⟩) ∨
    (∀ key, deposit.fate = .queued key → key.uid ≠ uid) ∧ deposit.withdraw uid = deposit := by
  obtain ⟨held, fate⟩ := deposit
  cases fate with
  | queued other =>
      by_cases same : other.uid = uid
      · exact Or.inl ⟨other, rfl, same, if_pos same⟩
      · refine Or.inr ⟨fun key here => ?_, if_neg same⟩
        cases here
        exact same
  | waiting | refused | withdrawn | disposed | invoked =>
      exact Or.inr ⟨fun key impossible => (nomatch impossible), rfl⟩

private theorem dispose_cases (deposit : Deposit β) :
    (deposit.fate.isFinal = false ∧ deposit.dispose = ⟨deposit.callback, .disposed⟩) ∨
      (deposit.fate.isFinal = true ∧ deposit.dispose = deposit) := by
  unfold dispose
  cases final : deposit.fate.isFinal with
  | false => exact Or.inl ⟨rfl, rfl⟩
  | true => exact Or.inr ⟨rfl, rfl⟩

private theorem invoke_cases (key : EventKey) (deposit : Deposit β) :
    (deposit = ⟨deposit.callback, .queued key⟩ ∧
      deposit.invoke key = ⟨deposit.callback, .invoked key⟩) ∨
    deposit.fate ≠ .queued key ∧ deposit.invoke key = deposit := by
  unfold invoke
  split
  · rename_i here
    rw [← here]
    exact Or.inl ⟨rfl, rfl⟩
  · rename_i apart
    exact Or.inr ⟨apart, rfl⟩

theorem withdraw_eq_queued {deposit : Deposit β} :
    deposit.withdraw uid = ⟨callback, .queued key⟩ ↔
      deposit = ⟨callback, .queued key⟩ ∧ key.uid ≠ uid := by
  rcases withdraw_cases uid deposit with ⟨other, here, same, changed⟩ | ⟨apart, unchanged⟩
  · rw [changed]
    constructor
    · intro impossible
      cases impossible
    · rintro ⟨rfl, apart⟩
      cases here
      exact absurd same apart
  · rw [unchanged]
    exact ⟨fun same => ⟨same, apart key (by rw [same])⟩, fun both => both.1⟩

theorem invoke_eq_queued {deposit : Deposit β} {entered : EventKey} :
    deposit.invoke entered = ⟨callback, .queued key⟩ ↔
      deposit = ⟨callback, .queued key⟩ ∧ key ≠ entered := by
  rcases invoke_cases entered deposit with ⟨here, changed⟩ | ⟨apart, unchanged⟩
  · rw [changed]
    constructor
    · intro impossible
      cases impossible
    · rintro ⟨same, apart⟩
      rw [same] at here
      cases here
      exact absurd rfl apart
  · rw [unchanged]
    refine ⟨fun same => ⟨same, fun tied => apart ?_⟩, fun both => both.1⟩
    rw [same, tied]

theorem dispose_final (deposit : Deposit β) : deposit.dispose.fate.isFinal = true := by
  rcases dispose_cases deposit with ⟨_, changed⟩ | ⟨final, unchanged⟩
  · rw [changed]
    rfl
  · rw [unchanged]
    exact final

structure Lessens (change : Deposit β → Deposit β) : Prop where
  key : ∀ deposit, (change deposit).key? = deposit.key? ∨ (change deposit).key? = none
  refuses : ∀ deposit, (change deposit).fate = .refused → deposit.fate = .refused

theorem withdraw_lessens (uid : EventUid) :
    Lessens fun deposit : Deposit β => deposit.withdraw uid where
  key := by
    intro deposit
    rcases withdraw_cases uid deposit with ⟨key, _, _, changed⟩ | ⟨_, unchanged⟩
    · exact Or.inr (by rw [changed]; rfl)
    · exact Or.inl (by rw [unchanged])
  refuses := by
    intro deposit refused
    rcases withdraw_cases uid deposit with ⟨key, _, _, changed⟩ | ⟨_, unchanged⟩
    · rw [changed] at refused
      cases refused
    · rwa [unchanged] at refused

theorem dispose_lessens : Lessens fun deposit : Deposit β => deposit.dispose where
  key := by
    intro deposit
    rcases dispose_cases deposit with ⟨_, changed⟩ | ⟨_, unchanged⟩
    · exact Or.inr (by rw [changed]; rfl)
    · exact Or.inl (by rw [unchanged])
  refuses := by
    intro deposit refused
    rcases dispose_cases deposit with ⟨_, changed⟩ | ⟨_, unchanged⟩
    · rw [changed] at refused
      cases refused
    · rwa [unchanged] at refused

theorem invoke_lessens (entered : EventKey) :
    Lessens fun deposit : Deposit β => deposit.invoke entered where
  key := by
    intro deposit
    rcases invoke_cases entered deposit with ⟨here, changed⟩ | ⟨_, unchanged⟩
    · exact Or.inl (by rw [changed, here]; rfl)
    · exact Or.inl (by rw [unchanged])
  refuses := by
    intro deposit refused
    rcases invoke_cases entered deposit with ⟨_, changed⟩ | ⟨_, unchanged⟩
    · rw [changed] at refused
      cases refused
    · rwa [unchanged] at refused

theorem withdraw_waiting? (uid : EventUid) (deposit : Deposit β) :
    (deposit.withdraw uid).waiting? = deposit.waiting? := by
  rcases withdraw_cases uid deposit with ⟨key, here, _, changed⟩ | ⟨_, unchanged⟩
  · rw [changed]
    unfold waiting?
    rw [here]
  · rw [unchanged]

theorem invoke_waiting? (entered : EventKey) (deposit : Deposit β) :
    (deposit.invoke entered).waiting? = deposit.waiting? := by
  rcases invoke_cases entered deposit with ⟨here, changed⟩ | ⟨_, unchanged⟩
  · rw [changed, here]
    rfl
  · rw [unchanged]

theorem dispose_waiting? (deposit : Deposit β) : deposit.dispose.waiting? = none := by
  rw [waiting?_eq_none]
  intro waits
  have final := dispose_final deposit
  rw [waits] at final
  cases final

theorem Lessens.sublist {change : Deposit β → Deposit β} (lessens : Lessens change)
    (ledger : List (Deposit β)) :
    ((ledger.map change).filterMap key?).Sublist (ledger.filterMap key?) := by
  induction ledger with
  | nil => exact .slnil
  | cons deposit rest ih =>
      rw [List.map_cons, List.filterMap_cons, List.filterMap_cons]
      rcases lessens.key deposit with same | gone
      · rw [same]
        cases deposit.key? with
        | none => exact ih
        | some key => exact ih.cons_cons key
      · rw [gone]
        cases deposit.key? with
        | none => exact ih
        | some key => exact ih.cons key

theorem filterMap_map_same {α : Type} {change : Deposit β → Deposit β}
    {view : Deposit β → Option α} (same : ∀ deposit, view (change deposit) = view deposit)
    (ledger : List (Deposit β)) : (ledger.map change).filterMap view = ledger.filterMap view := by
  rw [List.filterMap_map]
  exact congrArg (fun seen => ledger.filterMap seen) (funext same)

theorem callbacks_map {change : Deposit β → Deposit β}
    (same : ∀ deposit, (change deposit).callback = deposit.callback) (ledger : List (Deposit β)) :
    (ledger.map change).map Deposit.callback = ledger.map Deposit.callback := by
  rw [List.map_map]
  exact List.map_congr_left fun deposit _ => same deposit

theorem callbacks_mergeAll (fateOf : EventUid → Fate) (uid : EventUid)
    (ledger : List (Deposit β)) :
    (mergeAll fateOf uid ledger).map Deposit.callback = ledger.map Deposit.callback := by
  induction ledger generalizing uid with
  | nil => rfl
  | cons deposit rest ih =>
      unfold mergeAll
      split
      · exact congrArg (deposit.callback :: ·) (ih _)
      · exact congrArg (deposit.callback :: ·) (ih _)

theorem invoked_mergeAll {fateOf : EventUid → Fate}
    (fresh : ∀ uid key, fateOf uid ≠ .invoked key) (uid : EventUid) (ledger : List (Deposit β)) :
    (mergeAll fateOf uid ledger).filterMap invoked? = ledger.filterMap invoked? := by
  induction ledger generalizing uid with
  | nil => rfl
  | cons deposit rest ih =>
      unfold mergeAll
      split
      · rename_i waits
        have before : deposit.invoked? = none := by
          unfold invoked?
          rw [waits]
        have after : invoked? ⟨deposit.callback, fateOf uid⟩ = none := by
          unfold invoked?
          split
          · rename_i key invoked
            exact absurd invoked (fresh uid key)
          · rfl
        rw [List.filterMap_cons_none after, List.filterMap_cons_none before, ih]
      · rw [List.filterMap_cons, List.filterMap_cons, ih]

private theorem withdraw_invoked? (uid : EventUid) (deposit : Deposit β) :
    (deposit.withdraw uid).invoked? = deposit.invoked? := by
  rcases withdraw_cases uid deposit with ⟨key, here, _, changed⟩ | ⟨_, unchanged⟩
  · rw [changed]
    unfold invoked?
    rw [here]
  · rw [unchanged]

private theorem dispose_invoked? (deposit : Deposit β) :
    deposit.dispose.invoked? = deposit.invoked? := by
  rcases dispose_cases deposit with ⟨pending, changed⟩ | ⟨_, unchanged⟩
  · rw [changed]
    unfold invoked?
    split
    · rename_i impossible
      cases impossible
    · split
      · rename_i invoked
        rw [invoked] at pending
        cases pending
      · rfl
  · rw [unchanged]

theorem invoked_sublist (ledger : List (Deposit β)) :
    ((ledger.filterMap invoked?).map Prod.fst).Sublist (ledger.filterMap key?) := by
  induction ledger with
  | nil => exact .slnil
  | cons deposit rest ih =>
      obtain ⟨callback, fate⟩ := deposit
      cases fate with
      | queued key => exact ih.cons key
      | invoked key => exact ih.cons_cons key
      | waiting | refused | withdrawn | disposed => exact ih

theorem invoked_invoke (distinct : ((ledger.filterMap key?).map EventKey.uid).Nodup)
    (member : ⟨callback, .queued key⟩ ∈ ledger) :
    ((ledger.map (invoke key)).filterMap invoked?).Perm
      ((key, callback) :: ledger.filterMap invoked?) := by
  obtain ⟨front, back, rfl⟩ := List.append_of_mem member
  rw [(keys_middle.map EventKey.uid).nodup_iff, List.map_cons, List.nodup_cons] at distinct
  have apart (part : List (Deposit β)) (among : ∀ deposit ∈ part, deposit ∈ front ++ back) :
      part.map (invoke key) = part := by
    rw [List.map_congr_left fun deposit present => ?_, List.map_id]
    rcases invoke_cases key deposit with ⟨here, _⟩ | ⟨_, unchanged⟩
    · refine absurd (List.mem_map_of_mem (List.mem_filterMap.mpr ?_)) distinct.1
      exact ⟨deposit, among deposit present, by rw [here]; rfl⟩
    · exact unchanged
  have here : invoke key ⟨callback, .queued key⟩ = ⟨callback, .invoked key⟩ := if_pos rfl
  have unseen : (front ++ ⟨callback, .queued key⟩ :: back).filterMap invoked? =
      (front ++ back).filterMap invoked? := filterMap_middle_none rfl
  rw [List.map_append, List.map_cons, here, unseen,
    apart front fun _ member => List.mem_append_left _ member,
    apart back fun _ member => List.mem_append_right _ member]
  exact filterMap_middle_some rfl

end Deposit

theorem Simulation.fateOf_fresh (simulation : Simulation σ β) (uid : EventUid) (key : EventKey) :
    simulation.fateOf uid ≠ .invoked key := by
  unfold fateOf
  split <;> exact fun impossible => (nomatch impossible)

namespace Request

variable {before after : Simulation σ β} {reply : Reply}

theorem record_callbacks (request : Request σ β reply) (value : reply.Value)
    (ledger : List (Deposit β)) :
    (request.record before after ledger).map Deposit.callback =
      ledger.map Deposit.callback ++ [Signal.answered request value].filterMap Signal.deposit? := by
  have withdraws (handle : Handle) : (before.withdraw handle ledger).map Deposit.callback =
      ledger.map Deposit.callback ++ [] := by
    rw [List.append_nil]
    unfold Simulation.withdraw
    split
    · exact Deposit.callbacks_map (fun deposit => (deposit.withdraw_becomes _).1) ledger
    · rfl
  cases request with
  | schedule | stopAfter | requestRemote => exact List.map_append
  | cancel handle => exact withdraws handle
  | remove handle => exact withdraws handle
  | dispose =>
      exact (Deposit.callbacks_map (fun deposit => deposit.dispose_becomes.1) ledger).trans
        (List.append_nil _).symm
  | scheduleDestroy | isExpired | delayLeft | stop | replaceQueue | now | nowIn
  | currentContext | pending | remotePending | describe | detail | trace | configuration =>
      exact (List.append_nil _).symm

theorem record_invoked (request : Request σ β reply) (ledger : List (Deposit β)) :
    (request.record before after ledger).filterMap Deposit.invoked? =
      ledger.filterMap Deposit.invoked? := by
  have withdraws (handle : Handle) : (before.withdraw handle ledger).filterMap Deposit.invoked? =
      ledger.filterMap Deposit.invoked? := by
    unfold Simulation.withdraw
    split
    · exact Deposit.filterMap_map_same (Deposit.withdraw_invoked? _) ledger
    · rfl
  have appends (callback : Callback β) (fate : Fate) (fresh : ∀ key, fate ≠ .invoked key) :
      (ledger ++ [Deposit.mk callback fate]).filterMap Deposit.invoked? =
        ledger.filterMap Deposit.invoked? := by
    rw [Deposit.filterMap_middle_none, List.append_nil]
    unfold Deposit.invoked?
    split
    · rename_i key invoked
      exact absurd invoked (fresh key)
    · rfl
  cases request with
  | schedule _ callback => exact appends _ _ (after.fateOf_fresh _)
  | stopAfter _ => exact appends _ _ (after.fateOf_fresh _)
  | requestRemote _ _ callback =>
      exact appends (.user callback) .waiting fun _ impossible => nomatch impossible
  | cancel handle => exact withdraws handle
  | remove handle => exact withdraws handle
  | dispose => exact Deposit.filterMap_map_same Deposit.dispose_invoked? ledger
  | scheduleDestroy | isExpired | delayLeft | stop | replaceQueue | now | nowIn
  | currentContext | pending | remotePending | describe | detail | trace | configuration => rfl

end Request

end EventKernel
