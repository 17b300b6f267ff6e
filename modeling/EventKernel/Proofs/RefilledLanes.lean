import EventKernel.Proofs.LaneContents
import EventKernel.Proofs.LayoutOperations
import Mathlib.Data.List.Nodup

set_option autoImplicit false

/-! Lanes that were built anew and filled with the events of others. Where each event belongs and
what the index lists are told by the events, so lanes of the same settings with the same
events differ in their counts and their credit only. The credit is what new lanes lack: they do
not know of the messages that had reached their destinations. -/

namespace EventKernel.Queue

namespace CreditTable

def forget (table : CreditTable) : CreditTable :=
  { table with inbound := table.inbound.map fun row => row.map fun _ => 0 }

def Blank (table : CreditTable) : Prop :=
  ∀ dest sender count, table.credit dest sender = .ok count → count = 0

variable {table fresh : CreditTable} {entities : Nat}

private theorem Blank.forget_eq (blank : table.Blank) : table.forget = table := by
  have row_eq : ∀ row ∈ table.inbound, (row.map fun _ => 0) = row := by
    intro row member
    obtain ⟨dest, found⟩ := List.mem_iff_getElem?.mp member
    refine (List.map_congr_left fun count inside => ?_).trans (List.map_id row)
    obtain ⟨sender, cell⟩ := List.mem_iff_getElem?.mp inside
    exact (blank dest sender count (credit_eq_ok_iff.mpr ⟨row, found, cell⟩)).symm
  unfold CreditTable.forget
  rw [(List.map_congr_left row_eq).trans (List.map_id table.inbound)]

namespace Covers

variable (covers : table.Covers entities)

include covers

private theorem forget : table.forget.Covers entities where
  listed := covers.listed
  known := covers.known
  rows := (List.length_map _).trans covers.rows
  columns := by
    intro row member
    obtain ⟨before, present, rfl⟩ := List.mem_map.mp member
    exact (List.length_map _).trans (covers.columns before present)

private theorem forget_inbound :
    table.forget.inbound = List.replicate entities (List.replicate entities 0) := by
  refine List.eq_replicate_iff.mpr ⟨covers.forget.rows, fun row member => ?_⟩
  refine List.eq_replicate_iff.mpr ⟨covers.forget.columns row member, fun count inside => ?_⟩
  obtain ⟨before, _, rfl⟩ := List.mem_map.mp member
  obtain ⟨_, _, same⟩ := List.mem_map.mp inside
  exact same.symm

private theorem forget_eq (others : fresh.Covers entities) (blank : fresh.Blank)
    (same : fresh.interfaces = table.interfaces) : table.forget = fresh := by
  have counted := covers.forget_inbound.trans others.forget_inbound.symm
  rw [← blank.forget_eq]
  unfold CreditTable.forget at counted ⊢
  simp only at counted
  rw [same, counted]

end Covers

end CreditTable

namespace Outbound

private theorem Ordered.eq_of_mem_iff {first second : Outbound} (ordered : first.Ordered)
    (others : second.Ordered) (same : ∀ parcel, parcel ∈ first.parcels ↔ parcel ∈ second.parcels) :
    first = second := by
  have distinct {index : Outbound} (inOrder : index.Ordered) : index.parcels.Nodup := by
    refine List.Pairwise.imp (fun before tied => ?_) inOrder
    rw [tied] at before
    exact Nat.lt_irrefl _ before
  have listed := (List.perm_ext_iff_of_nodup (distinct ordered) (distinct others)).mpr same
  have parcels := List.Perm.eq_of_pairwise
    (fun _ _ _ _ before after => absurd before (Nat.lt_asymm after)) ordered others listed
  cases first
  cases second
  exact congrArg Outbound.mk parcels

end Outbound

namespace LaneQueue

variable {queue fresh first second : LaneQueue} {entities : Nat}

/-- The same lanes, where every message that has reached its destination is unaccounted for. -/
def forgetCredit (queue : LaneQueue) : LaneQueue :=
  { queue with credits := queue.credits.map CreditTable.forget }

def Creditless (queue : LaneQueue) : Prop :=
  ∀ table, queue.credits = some table → table.Blank

theorem Creditless.forget_eq (creditless : queue.Creditless) : queue.forgetCredit = queue := by
  unfold forgetCredit
  cases credited : queue.credits with
  | none => rw [Option.map_none, ← credited]
  | some table => rw [Option.map_some, (creditless table credited).forget_eq, ← credited]

theorem forgetCredit_settings (queue : LaneQueue) : queue.SameSettings queue.forgetCredit where
  latency := rfl
  boundary := rfl
  interfaces := by
    unfold forgetCredit
    rw [Option.map_map]
    rfl

theorem Sound.forgetCredit (sound : queue.Sound entities) : queue.forgetCredit.Sound entities := by
  refine sound.recount _ queue.deadlocks queue.conversions (Option.isSome_map ..) ?_
  intro table forgotten
  obtain ⟨before, credited, rfl⟩ := Option.map_eq_some_iff.mp forgotten
  exact (sound.credited before credited).forget

theorem new_creditless {configuration : Configuration} (accepted : configuration.Accepted)
    (built : new configuration = .ok fresh) : fresh.Creditless := by
  obtain ⟨table, made, _, blank⟩ :=
    CreditTable.new_covers accepted.interfaceRows accepted.neighboursKnown
  obtain ⟨_, same, _, _, _, _, _, _, plain, counted, _⟩ := new_sound accepted
  cases same.symm.trans built
  intro held credited
  cases rule : configuration.strategies.localListsV2 with
  | false => cases (plain rule).symm.trans credited
  | true =>
      obtain ⟨other, present, otherMade⟩ := counted rule
      cases present.symm.trans credited
      cases made.symm.trans otherMade
      exact blank

theorem Sound.forgotten_credits (sound : queue.Sound entities) (freshSound : fresh.Sound entities)
    (creditless : fresh.Creditless) (settings : fresh.SameSettings queue) :
    queue.forgetCredit.credits = fresh.credits := by
  have interfaces := settings.interfaces
  unfold LaneQueue.forgetCredit
  simp only
  cases held : queue.credits with
  | none =>
      rw [held] at interfaces
      exact (Option.map_eq_none_iff.mp interfaces.symm).symm
  | some table =>
      rw [held] at interfaces
      obtain ⟨other, credited, same⟩ := Option.map_eq_some_iff.mp interfaces.symm
      rw [credited, Option.map_some, (sound.credited table held).forget_eq
        (freshSound.credited other credited) (creditless other credited) same]

private theorem Sound.outbound_eq (sound : first.Sound entities) (others : second.Sound entities)
    (rule : second.credits.isSome = first.credits.isSome)
    (same : first.events.Perm second.events) : second.outbound = first.outbound := by
  have crossing := isCrossing_congr first second rule
  refine List.ext_getElem (others.indexCount.trans sound.indexCount.symm) fun dest there here => ?_
  obtain ⟨otherOrdered, otherListed⟩ :=
    others.indexed dest _ (List.getElem?_eq_getElem there)
  obtain ⟨ordered, listed⟩ := sound.indexed dest _ (List.getElem?_eq_getElem here)
  refine otherOrdered.eq_of_mem_iff ordered fun ⟨key, sender⟩ => ?_
  rw [otherListed, listed, crossing]
  simp only [same.mem_iff]

/-- Lanes of the same settings and the same credit differ in their counts only, if they hold the
same events. -/
theorem Sound.twins_of_perm (sound : first.Sound entities) (others : second.Sound entities)
    (settings : first.SameSettings second) (credits : second.credits = first.credits)
    (same : first.events.Perm second.events) :
    first.Twins ⟨second.conversions - first.conversions, second.deadlocks - first.deadlocks⟩
      second where
  elsewhere := by
    have outbound := sound.outbound_eq others settings.counts same
    obtain ⟨latency, boundary, _⟩ := settings
    cases first
    cases second
    cases latency
    cases boundary
    cases credits
    cases outbound
    rfl
  conversions := by
    change (second.conversions : Int) = first.conversions + (second.conversions - first.conversions)
    omega
  deadlocks := by
    change (second.deadlocks : Int) = first.deadlocks + (second.deadlocks - first.deadlocks)
    omega
  laneCount := others.laneCount.trans sound.laneCount.symm
  lists := by
    intro lane list other found there
    refine ⟨sound.list_sound found, others.list_sound there, ?_⟩
    have listed : list.events.Nodup := List.Nodup.of_map _ (distinct_at found sound.distinct)
    have otherListed : other.events.Nodup :=
      List.Nodup.of_map _ (distinct_at there others.distinct)
    refine (List.perm_ext_iff_of_nodup listed otherListed).mpr fun event => ?_
    rw [sound.charted.mem_list_iff found, others.charted.mem_list_iff there, same.mem_iff,
      homeLane_congr first second settings.counts]
  distinct := sound.distinct

theorem Twins.settings {lead : Lead} (twins : first.Twins lead second) :
    first.SameSettings second := by
  rw [twins.elsewhere]
  exact ⟨rfl, rfl, rfl⟩

end LaneQueue

end EventKernel.Queue
