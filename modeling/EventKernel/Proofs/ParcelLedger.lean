import EventKernel.Proofs.BookkeepingRuns
import EventKernel.Proofs.WaitingRequests

set_option autoImplicit false

/-! What becomes of the requests from outside. The ledger lists them in the order in which they
were pushed. All that wait are merged when a run begins and when a run leaves an event, one
after another, each under the next serial number and stamped against the global clock as it
stands then; disposing drops them. What is merged or dropped stays so. -/

namespace EventKernel

open Exploration (Hook)

variable {σ β μ : Type}

def RemoteRequest.event (now : Timestamp) (uid : EventUid) (request : RemoteRequest β) : Event :=
  ⟨⟨⟨now.value + request.delay⟩, uid, request.context⟩, .undefined, request.context, none⟩

def RemoteRequest.arrivals (now : Timestamp) :
    EventUid → List (RemoteRequest β) → List (RemoteRequest β × Event)
  | _, [] => []
  | uid, request :: rest => (request, request.event now uid) :: arrivals now ⟨uid.value + 1⟩ rest

/-- What has become of a request. -/
inductive Delivery where
  | waiting
  /-- The simulation was disposed before it took the request. -/
  | dropped
  | merged (event : Event)
deriving DecidableEq, Repr

structure Parcel (β : Type) where
  request : RemoteRequest β
  delivery : Delivery
deriving DecidableEq, Repr

namespace Parcel

def sent (request : RemoteRequest β) : Parcel β := ⟨request, .waiting⟩

def arrived (arrival : RemoteRequest β × Event) : Parcel β := ⟨arrival.1, .merged arrival.2⟩

def waiting? (parcel : Parcel β) : Option (RemoteRequest β) :=
  match parcel.delivery with
  | .waiting => some parcel.request
  | _ => none

/-- A request that was merged, with its event. -/
def arrival? (parcel : Parcel β) : Option (RemoteRequest β × Event) :=
  match parcel.delivery with
  | .merged event => some (parcel.request, event)
  | _ => none

def drop (parcel : Parcel β) : Parcel β :=
  match parcel.delivery with
  | .waiting => { parcel with delivery := .dropped }
  | _ => parcel

/-- All waiting requests are merged, in order; each takes the next serial number. -/
def mergeAll (now : Timestamp) : EventUid → List (Parcel β) → List (Parcel β)
  | _, [] => []
  | uid, parcel :: rest =>
      match parcel.delivery with
      | .waiting =>
          arrived (parcel.request, parcel.request.event now uid) ::
            mergeAll now ⟨uid.value + 1⟩ rest
      | _ => parcel :: mergeAll now uid rest

end Parcel

/-- The ledger after a request. -/
def Request.post (parcels : List (Parcel β)) :
    {reply : Reply} → Request σ β reply → List (Parcel β)
  | _, .requestRemote context delay callback => parcels ++ [.sent ⟨context, delay, callback⟩]
  | _, .dispose => parcels.map Parcel.drop
  | _, _ => parcels

def Signal.pushed? : Signal σ β → Option (RemoteRequest β)
  | .answered (.requestRemote context delay callback) _ => some ⟨context, delay, callback⟩
  | _ => none

/-- A request that brings in no queue with exploration. -/
def Request.Quiet : {reply : Reply} → Request σ β reply → Prop
  | _, .replaceQueue replacement => replacement.configuration.exploration.enabled = false
  | _, _ => True

namespace Machine

/-- The ledger after the next step. -/
def post (machine : Machine σ β μ) (parcels : List (Parcel β)) : List (Parcel β) :=
  match machine.frames with
  | .script (.perform request _) :: _ => request.post parcels
  | .script (.run _) :: _ | .firing :: _ =>
      Parcel.mergeAll machine.simulation.globalClock.now machine.simulation.nextUid parcels
  | _ => parcels

/-- The next step merges what waits: a run begins, inside a callback or outside, or it leaves the
event that it has invoked, whether a stop was requested meanwhile or not. -/
inductive Drains (machine : Machine σ β μ) : Prop
  | begins (next : Except BranchEnded RunSummary → Script σ β μ) (below : List (Frame σ β μ))
      (here : machine.frames = .script (.run next) :: below)
  | leaves (below : List (Frame σ β μ)) (here : machine.frames = .firing :: below)

/-- The machines that a lawful program without exploration reaches from one with a history and a
ledger, each with its own. -/
def Posts [Hook σ] (body : β → Script σ β μ) (past : List (Signal σ β)) (posted : List (Parcel β))
    (start : Machine σ β μ) (history : List (Signal σ β)) (parcels : List (Parcel β))
    (machine : Machine σ β μ) : Prop :=
  LeadsTo body ((Watch.lawful.only fun machine => machine.Asks Request.Quiet).beside
    fun parcels machine _ _ => machine.post parcels) (past, posted) start (history, parcels) machine

end Machine

namespace RemoteRequest

theorem arrivals_requests (now : Timestamp) (uid : EventUid) (requests : List (RemoteRequest β)) :
    (arrivals now uid requests).map Prod.fst = requests := by
  induction requests generalizing uid with
  | nil => rfl
  | cons request rest ih => exact congrArg (request :: ·) (ih _)

theorem eq_event_of_arrival {now : Timestamp} {uid : EventUid} {requests : List (RemoteRequest β)}
    {arrival : RemoteRequest β × Event} (member : arrival ∈ arrivals now uid requests) :
    arrival.2 = arrival.1.event now arrival.2.key.uid ∧ arrival.1 ∈ requests := by
  induction requests generalizing uid with
  | nil => cases member
  | cons request rest ih =>
      rcases List.mem_cons.mp member with first | later
      · rw [first]
        exact ⟨rfl, List.mem_cons_self⟩
      · obtain ⟨same, among⟩ := ih later
        exact ⟨same, List.mem_cons_of_mem _ among⟩

theorem arrivals_numbered (now : Timestamp) {uid : EventUid} {requests : List (RemoteRequest β)}
    (room : uid.value.toNat + requests.length < UInt64.size) :
    ((arrivals now uid requests).map fun arrival => arrival.2.key.uid).Pairwise (· < ·) ∧
      ∀ arrival ∈ arrivals now uid requests, uid.value.toNat ≤ arrival.2.key.uid.value.toNat ∧
        arrival.2.key.uid.value.toNat < uid.value.toNat + requests.length := by
  induction requests generalizing uid with
  | nil => exact ⟨.nil, fun _ impossible => nomatch impossible⟩
  | cons request rest ih =>
      rw [List.length_cons] at room ⊢
      have next : (uid.value + 1).toNat = uid.value.toNat + 1 :=
        Word.toNat_add_of_lt (show uid.value.toNat + 1 < UInt64.size by omega)
      have fits : (uid.value + 1).toNat + rest.length < UInt64.size := by omega
      obtain ⟨increasing, above⟩ := @ih ⟨uid.value + 1⟩ fits
      simp only [next] at above
      refine ⟨List.pairwise_cons.mpr ⟨fun other member => ?_, increasing⟩, fun arrival member => ?_⟩
      · obtain ⟨arrival, later, rfl⟩ := List.mem_map.mp member
        exact UInt64.lt_iff_toNat_lt.mpr (Nat.lt_of_succ_le (above arrival later).1)
      · rcases List.mem_cons.mp member with first | later
        · rw [first]
          change uid.value.toNat ≤ uid.value.toNat ∧ uid.value.toNat < _
          omega
        · have bounds := above arrival later
          omega

end RemoteRequest

namespace Parcel

private theorem arrival_of_sent (requests : List (RemoteRequest β)) :
    (requests.map sent).filterMap arrival? = [] := by
  rw [List.filterMap_map]
  exact List.filterMap_eq_nil_iff.mpr fun _ _ => rfl

private theorem arrival_of_arrived (arrivals : List (RemoteRequest β × Event)) :
    (arrivals.map arrived).filterMap arrival? = arrivals := by
  rw [List.filterMap_map]
  exact List.filterMap_some

private theorem waiting_of_sent (requests : List (RemoteRequest β)) :
    (requests.map sent).filterMap waiting? = requests := by
  rw [List.filterMap_map]
  exact List.filterMap_some

private theorem mergeAll_sent (now : Timestamp) (uid : EventUid)
    (requests : List (RemoteRequest β)) :
    mergeAll now uid (requests.map sent) =
      (RemoteRequest.arrivals now uid requests).map arrived := by
  induction requests generalizing uid with
  | nil => rfl
  | cons request rest ih => exact congrArg (List.cons _) (ih _)

private theorem mergeAll_append (now : Timestamp) (uid : EventUid) {settled : List (Parcel β)}
    (passed : ∀ parcel ∈ settled, parcel.delivery ≠ .waiting) (others : List (Parcel β)) :
    mergeAll now uid (settled ++ others) = settled ++ mergeAll now uid others := by
  induction settled with
  | nil => rfl
  | cons parcel rest ih =>
      obtain ⟨first, later⟩ := List.forall_mem_cons.mp passed
      rw [List.cons_append, mergeAll]
      split
      · rename_i waits
        exact absurd waits first
      · rw [ih later]
        rfl

private theorem drop_settled (parcel : Parcel β) : parcel.drop.delivery ≠ .waiting := by
  obtain ⟨request, delivery⟩ := parcel
  cases delivery with
  | waiting | dropped | merged => exact fun impossible => nomatch impossible

private theorem drop_arrival (parcel : Parcel β) : parcel.drop.arrival? = parcel.arrival? := by
  obtain ⟨request, delivery⟩ := parcel
  cases delivery with
  | waiting | dropped | merged => rfl

private theorem drop_request (parcel : Parcel β) : parcel.drop.request = parcel.request := by
  obtain ⟨request, delivery⟩ := parcel
  cases delivery with
  | waiting | dropped | merged => rfl

def Filed (parcels : List (Parcel β)) (inbox : Inbox β) : Prop :=
  ∃ settled, parcels = settled ++ inbox.requests.map sent ∧
    ∀ parcel ∈ settled, parcel.delivery ≠ .waiting

namespace Filed

variable {parcels : List (Parcel β)} {inbox : Inbox β}

theorem waiting (filed : Filed parcels inbox) :
    parcels.filterMap waiting? = inbox.requests := by
  obtain ⟨settled, rfl, passed⟩ := filed
  have nothing : settled.filterMap waiting? = [] := by
    refine List.filterMap_eq_nil_iff.mpr ?_
    rintro ⟨request, delivery⟩ member
    cases delivery with
    | waiting => exact absurd rfl (passed _ member)
    | dropped | merged => rfl
  rw [List.filterMap_append, nothing, waiting_of_sent]
  rfl

theorem merged (filed : Filed parcels inbox) (now : Timestamp) (uid : EventUid) :
    Filed (mergeAll now uid parcels) .empty ∧
      (mergeAll now uid parcels).map request = parcels.map request ∧
      (mergeAll now uid parcels).filterMap arrival? =
        parcels.filterMap arrival? ++ RemoteRequest.arrivals now uid inbox.requests := by
  obtain ⟨settled, rfl, passed⟩ := filed
  rw [mergeAll_append now uid passed, mergeAll_sent]
  refine ⟨⟨_, (List.append_nil _).symm, fun parcel member => ?_⟩, ?_, ?_⟩
  · rcases List.mem_append.mp member with before | new
    · exact passed parcel before
    · obtain ⟨arrival, _, rfl⟩ := List.mem_map.mp new
      exact fun impossible => nomatch impossible
  · rw [List.map_append, List.map_append, List.map_map, List.map_map]
    change _ ++ (RemoteRequest.arrivals now uid inbox.requests).map Prod.fst = _ ++
      inbox.requests.map id
    rw [RemoteRequest.arrivals_requests, List.map_id]
  · rw [List.filterMap_append, List.filterMap_append, arrival_of_sent, arrival_of_arrived,
      List.append_nil]

/-- A request of the program files what it pushes and what it drops. -/
theorem post (filed : Filed parcels inbox) (hinted : inbox.Hinted) {reply : Reply}
    (request : Request σ β reply) :
    Filed (request.post parcels) (request.inbox inbox) ∧
      (request.post parcels).filterMap arrival? = parcels.filterMap arrival? := by
  cases request with
  | requestRemote context delay callback =>
      obtain ⟨settled, rfl, passed⟩ := filed
      refine ⟨⟨settled, ?_, passed⟩, ?_⟩
      · change (settled ++ inbox.requests.map sent) ++ [sent _] =
          settled ++ (inbox.requests ++ [_]).map sent
        rw [List.map_append, List.append_assoc]
        rfl
      · change ((settled ++ inbox.requests.map sent) ++ [sent _]).filterMap arrival? = _
        rw [List.filterMap_append]
        exact List.append_nil _
  | dispose =>
      refine ⟨⟨parcels.map drop, ?_, fun parcel member => ?_⟩, ?_⟩
      · change _ = _ ++ inbox.drain.2.requests.map sent
        rw [hinted.drain]
        exact (List.append_nil _).symm
      · obtain ⟨before, _, rfl⟩ := List.mem_map.mp member
        exact before.drop_settled
      · change (parcels.map drop).filterMap arrival? = _
        rw [List.filterMap_map]
        exact congrArg (List.filterMap · parcels) (funext drop_arrival)
  | _ => exact ⟨filed, rfl⟩

end Filed

/-- The numbers of what was merged increase in the order of the pushes, and the next number is
above them. -/
def Increasing (parcels : List (Parcel β)) (nextUid : EventUid) : Prop :=
  ((parcels.filterMap arrival?).map fun arrival => arrival.2.key.uid).Pairwise (· < ·) ∧
    ∀ arrival ∈ parcels.filterMap arrival?, arrival.2.key.uid < nextUid

namespace Increasing

variable {parcels later : List (Parcel β)} {uid nextUid : EventUid}

theorem onward (increasing : Increasing parcels uid)
    (same : later.filterMap arrival? = parcels.filterMap arrival?)
    (following : uid.value.toNat ≤ nextUid.value.toNat) : Increasing later nextUid := by
  unfold Increasing
  rw [same]
  exact ⟨increasing.1, fun arrival member => UInt64.lt_iff_toNat_lt.mpr
    (Nat.lt_of_lt_of_le (UInt64.lt_iff_toNat_lt.mp (increasing.2 arrival member)) following)⟩

theorem merged (increasing : Increasing parcels uid) {now : Timestamp}
    {requests : List (RemoteRequest β)}
    (same : later.filterMap arrival? =
      parcels.filterMap arrival? ++ RemoteRequest.arrivals now uid requests)
    (following : nextUid.value.toNat = uid.value.toNat + requests.length) :
    Increasing later nextUid := by
  have room : uid.value.toNat + requests.length < UInt64.size :=
    following ▸ nextUid.value.toNat_lt
  obtain ⟨ordered, bounds⟩ := RemoteRequest.arrivals_numbered now room
  unfold Increasing
  rw [same, List.map_append]
  refine ⟨List.pairwise_append.mpr ⟨increasing.1, ordered, fun first before second new => ?_⟩,
    fun arrival member => ?_⟩
  · obtain ⟨earlier, listed, rfl⟩ := List.mem_map.mp before
    obtain ⟨arrival, member, rfl⟩ := List.mem_map.mp new
    exact UInt64.lt_iff_toNat_lt.mpr (Nat.lt_of_lt_of_le
      (UInt64.lt_iff_toNat_lt.mp (increasing.2 earlier listed)) (bounds arrival member).1)
  · refine UInt64.lt_iff_toNat_lt.mpr ?_
    rw [following]
    rcases List.mem_append.mp member with before | new
    · exact Nat.lt_of_lt_of_le (UInt64.lt_iff_toNat_lt.mp (increasing.2 arrival before))
        (Nat.le_add_right _ _)
    · exact (bounds arrival new).2

end Increasing

/-- Every parcel is still there, in its place, and changes only while it waits. -/
def Progress (parcels later : List (Parcel β)) : Prop :=
  ∀ (index : Nat) (parcel : Parcel β), parcels[index]? = some parcel →
    ∃ delivery, later[index]? = some ⟨parcel.request, delivery⟩ ∧
      (parcel.delivery = .waiting ∨ delivery = parcel.delivery)

variable {parcels later : List (Parcel β)}

private theorem Progress.refl (parcels : List (Parcel β)) : Progress parcels parcels :=
  fun _ parcel found => ⟨parcel.delivery, found, Or.inr rfl⟩

private theorem Progress.trans {last : List (Parcel β)} (former : Progress parcels later)
    (latter : Progress later last) : Progress parcels last := by
  intro index parcel found
  obtain ⟨delivery, next, goes⟩ := former index parcel found
  obtain ⟨final, atLast, onward⟩ := latter index _ next
  refine ⟨final, atLast, ?_⟩
  rcases goes with waits | same
  · exact Or.inl waits
  · rcases onward with waits | stays
    · exact Or.inl (same.symm.trans waits)
    · exact Or.inr (stays.trans same)

private theorem progress_drop (parcels : List (Parcel β)) :
    Progress parcels (parcels.map drop) := by
  intro index parcel found
  refine ⟨parcel.drop.delivery, ?_, ?_⟩
  · rw [List.getElem?_map, found, ← parcel.drop_request]
    rfl
  · obtain ⟨request, delivery⟩ := parcel
    cases delivery with
    | waiting => exact Or.inl rfl
    | dropped | merged => exact Or.inr rfl

private theorem progress_mergeAll (now : Timestamp) (uid : EventUid) (parcels : List (Parcel β)) :
    Progress parcels (mergeAll now uid parcels) := by
  induction parcels generalizing uid with
  | nil => exact .refl _
  | cons first rest ih =>
      intro index parcel found
      rw [mergeAll]
      split
      · rename_i waits
        cases index with
        | zero =>
            cases found
            exact ⟨_, rfl, Or.inl waits⟩
        | succ index => exact ih _ index parcel found
      · cases index with
        | zero =>
            cases found
            exact ⟨_, rfl, Or.inr rfl⟩
        | succ index => exact ih _ index parcel found

private theorem progress_post (parcels : List (Parcel β)) {reply : Reply}
    (request : Request σ β reply) :
    Progress parcels (request.post parcels) := by
  cases request with
  | requestRemote context delay callback =>
      intro index parcel found
      obtain ⟨below, _⟩ := List.getElem?_eq_some_iff.mp found
      exact ⟨parcel.delivery, (List.getElem?_append_left below).trans found, Or.inr rfl⟩
  | dispose => exact progress_drop parcels
  | _ => exact .refl _

end Parcel

theorem Request.post_requests (parcels : List (Parcel β)) {reply : Reply}
    (request : Request σ β reply) (value : reply.Value) :
    (request.post parcels).map Parcel.request =
      parcels.map Parcel.request ++ [Signal.answered request value].filterMap Signal.pushed? := by
  cases request with
  | requestRemote context delay callback => exact List.map_append
  | dispose =>
      change (parcels.map Parcel.drop).map Parcel.request = _ ++ []
      rw [List.map_map, List.append_nil]
      exact List.map_congr_left fun parcel _ => parcel.drop_request
  | _ => exact (List.append_nil _).symm

private theorem Machine.post_progress (machine : Machine σ β μ) (parcels : List (Parcel β)) :
    Parcel.Progress parcels (machine.post parcels) := by
  unfold post
  split
  · exact Parcel.progress_post _ _
  · exact Parcel.progress_mergeAll _ _ _
  · exact Parcel.progress_mergeAll _ _ _
  · exact .refl _

theorem Machine.Posts.progress [Hook σ] {body : β → Script σ β μ}
    {past history : List (Signal σ β)} {posted parcels : List (Parcel β)}
    {start machine : Machine σ β μ} (posts : Posts body past posted start history parcels machine) :
    Parcel.Progress posted parcels := by
  refine posts.keeps (motive := fun noted _ => Parcel.Progress posted noted.2) (.refl _) ?_
  exact fun _ _ _ progress => progress.trans (post_progress _ _)

end EventKernel
