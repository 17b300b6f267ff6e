import EventKernel.Queue.Strategy

set_option autoImplicit false

/-! Removal order as an order of numbers. Two keys have the same rank exactly when they
agree in instant and serial number, and both comparisons of insertion compare ranks. -/

namespace EventKernel

namespace EventKey

theorem not_precedes_iff_rank_le {left right : EventKey} :
    ¬ left.Precedes right ↔ right.rank ≤ left.rank := by
  rw [precedes_iff_rank_lt]
  exact Nat.not_lt

theorem rank_eq_iff {left right : EventKey} :
    left.rank = right.rank ↔ left.ts = right.ts ∧ left.uid = right.uid := by
  constructor
  · intro same
    have leftBound := left.uid.value.toNat_lt
    have rightBound := right.uid.value.toNat_lt
    unfold rank UInt64.size at same
    have instants : left.ts.value.toNat = right.ts.value.toNat := by omega
    have serials : left.uid.value.toNat = right.uid.value.toNat := by omega
    exact ⟨congrArg Timestamp.mk (UInt64.toNat_inj.mp instants),
      congrArg EventUid.mk (UInt64.toNat_inj.mp serials)⟩
  · rintro ⟨instants, serials⟩
    unfold rank
    rw [instants, serials]

theorem ts_le_of_rank_le {left right : EventKey} (ordered : left.rank ≤ right.rank) :
    left.ts.value.toNat ≤ right.ts.value.toNat := by
  have leftBound := left.uid.value.toNat_lt
  have rightBound := right.uid.value.toNat_lt
  unfold rank UInt64.size at ordered
  omega

theorem rank_lt_of_ts_lt {left right : EventKey}
    (earlier : left.ts.value.toNat < right.ts.value.toNat) : left.rank < right.rank := by
  have leftBound := left.uid.value.toNat_lt
  unfold rank UInt64.size
  omega

theorem rank_ne_of_uid_ne {left right : EventKey} (different : left.uid ≠ right.uid) :
    left.rank ≠ right.rank :=
  fun same => different (rank_eq_iff.mp same).2

end EventKey

theorem eq_of_nodup_map {α β : Type} {f : α → β} {items : List α}
    (distinct : (items.map f).Nodup) {left right : α} (leftMember : left ∈ items)
    (rightMember : right ∈ items) (same : f left = f right) : left = right := by
  induction items with
  | nil => cases leftMember
  | cons head rest ih =>
      rw [List.map_cons, List.nodup_cons] at distinct
      obtain ⟨absent, restDistinct⟩ := distinct
      rcases List.mem_cons.mp leftMember with leftHead | leftRest
      · rcases List.mem_cons.mp rightMember with rightHead | rightRest
        · rw [leftHead, rightHead]
        · rw [← leftHead, same] at absent
          exact absurd (List.mem_map_of_mem rightRest) absent
      · rcases List.mem_cons.mp rightMember with rightHead | rightRest
        · rw [← rightHead, ← same] at absent
          exact absurd (List.mem_map_of_mem leftRest) absent
        · exact ih restDistinct leftRest rightRest

theorem Event.eq_of_uid {events : List Event}
    (distinct : (events.map fun event => event.key.uid).Nodup) {left right : Event}
    (leftMember : left ∈ events) (rightMember : right ∈ events)
    (same : left.key.uid = right.key.uid) : left = right :=
  eq_of_nodup_map distinct leftMember rightMember same

/-- The first of some events in removal order. -/
structure Event.LeastOf (event : Event) (events : List Event) : Prop where
  member : event ∈ events
  below : ∀ other ∈ events, event.key.rank ≤ other.key.rank

theorem Event.LeastOf.perm {event : Event} {events others : List Event}
    (least : event.LeastOf events) (same : events.Perm others) : event.LeastOf others :=
  ⟨same.mem_iff.mp least.member, fun other member => least.below other (same.mem_iff.mpr member)⟩

theorem Event.exists_leastOf {events : List Event} (some : events ≠ []) :
    ∃ event : Event, event.LeastOf events := by
  induction events with
  | nil => exact absurd rfl some
  | cons first rest ih =>
      by_cases alone : rest = []
      · rw [alone]
        refine ⟨first, List.mem_cons_self, fun other member => ?_⟩
        exact Nat.le_of_eq (by rw [List.mem_singleton.mp member])
      · obtain ⟨least, leastOf⟩ := ih alone
        by_cases earlier : first.key.rank ≤ least.key.rank
        · refine ⟨first, List.mem_cons_self, fun other member => ?_⟩
          rcases List.mem_cons.mp member with same | later
          · exact Nat.le_of_eq (by rw [same])
          · exact Nat.le_trans earlier (leastOf.below other later)
        · refine ⟨least, List.mem_cons_of_mem _ leastOf.member, fun other member => ?_⟩
          rcases List.mem_cons.mp member with same | later
          · rw [same]
            omega
          · exact leastOf.below other later

namespace Queue.Comparison

/-- The two comparisons are one: they compare ranks. -/
theorem sortsBefore_iff {comparison : Comparison} {new existing : EventKey} :
    comparison.sortsBefore new existing = true ↔ new.rank < existing.rank := by
  rw [← EventKey.precedes_iff_rank_lt]
  cases comparison with
  | lexicographic => exact decide_eq_true_iff
  | twoBranch =>
      unfold sortsBefore EventKey.Precedes
      by_cases smaller : new.uid < existing.uid
      · rw [if_pos smaller, decide_eq_true_iff, Timestamp.le_iff_toNat, Timestamp.lt_iff_toNat]
        constructor
        · intro noLater
          rcases Nat.lt_or_eq_of_le noLater with earlier | same
          · exact Or.inl earlier
          · exact Or.inr ⟨congrArg Timestamp.mk (UInt64.toNat_inj.mp same), smaller⟩
        · rintro (earlier | ⟨same, _⟩)
          · exact Nat.le_of_lt earlier
          · exact Nat.le_of_eq (by rw [same])
      · rw [if_neg smaller, decide_eq_true_iff]
        constructor
        · exact Or.inl
        · rintro (earlier | ⟨_, smaller'⟩)
          · exact earlier
          · exact absurd smaller' smaller

theorem sortsBefore_eq_false_iff {comparison : Comparison} {new existing : EventKey} :
    comparison.sortsBefore new existing = false ↔ existing.rank ≤ new.rank := by
  rw [← Bool.not_eq_true, sortsBefore_iff]
  exact Nat.not_lt

end Queue.Comparison

end EventKernel
